import CrisisMosaic.RevokedDevices
import CrisisMosaic.Sockets

/-!
# How long a socket outlasts the authority of its actor

Requests over HTTP look up the account or the device each time. A socket does so once; what bounds it is the time
in the token it was given.
-/

namespace CrisisMosaic
open Relational

/-- The account is not active, or the device is revoked. -/
def AuthDb.Barred (db : AuthDb) : SubjectType → Id → Prop
  | .account, id => ∃ a, db.accounts.get id = some a ∧ a.isActive = false
  | .device, id => ∃ d, db.devices.get id = some d ∧ d.revokedAt ≠ none

/-! ## Tokens -/

section Tokens
variable {lib : SecurityLib} {settings : SecuritySettings} {now : Time} {db : AuthDb} {token : AccessToken}
  {actor : Principal} {incident : Ref} {expiresAt : Time}

theorem tokenActor_ok (h : db.tokenActor token = .ok actor) :
    actor.subjectType = token.subjectType ∧ actor.subjectId = token.sub ∧
      ¬ db.Barred token.subjectType token.sub := by
  unfold AuthDb.tokenActor at h
  cases htype : token.subjectType with
  | device =>
    simp only [htype, bind_ok, found_ok, require_ok, pure_ok] at h
    obtain ⟨d, hd, -, ⟨hrevoked, -⟩, rfl⟩ := h
    refine ⟨rfl, rfl, ?_⟩
    rintro ⟨d', hd', hnot⟩
    obtain rfl := Option.some.inj (hd.symm.trans hd')
    exact hnot (Option.isNone_iff_eq_none.mp hrevoked)
  | account =>
    simp only [htype, bind_ok, found_ok, require_ok, pure_ok] at h
    obtain ⟨a, ha, -, hactive, rfl⟩ := h
    refine ⟨rfl, rfl, ?_⟩
    rintro ⟨a', ha', hnot⟩
    obtain rfl := Option.some.inj (ha.symm.trans ha')
    exact absurd (hnot.symm.trans hactive) (by decide)

theorem actorFromToken_ok : db.actorFromToken now token incident = .ok (actor, expiresAt) ↔
    (token.issuedAt * 1000000 ≤ now ∧ now < token.expiresAt * 1000000) ∧ db.tokenActor token = .ok actor ∧
      incident.isIn actor.incidentIds = true ∧ expiresAt = token.expiresAt := by
  unfold AuthDb.actorFromToken
  simp only [bind_ok, require_ok, pure_ok, Prod.mk.injEq]
  constructor
  · rintro ⟨-, htime, actor, hactor, -, hincident, rfl, rfl⟩
    exact ⟨htime, hactor, hincident, rfl⟩
  · rintro ⟨htime, hactor, hincident, rfl⟩
    exact ⟨⟨⟩, htime, actor, hactor, ⟨⟩, hincident, rfl, rfl⟩

/-- Sockets accept whom requests over HTTP accept. -/
theorem getActor_iff : db.getActor now token = .ok actor ↔
    (token.issuedAt * 1000000 ≤ now ∧ now < token.expiresAt * 1000000) ∧ db.tokenActor token = .ok actor := by
  unfold AuthDb.getActor AuthDb.tokenActor
  cases token.subjectType with
  | device | account => simp only [bind_ok, found_ok, require_ok, pure_ok, exists_const]

theorem createAccessToken_expires (settings : SecuritySettings) (now : Time) (actor : Principal) :
    (createAccessToken settings now actor).expiresAt * 1000000 ≤ now + minutes settings.accessTokenMinutes :=
  Int.ediv_mul_le _ (by decide)

theorem issuePair_accessToken {t : AuthDb} {family : Option Id} {drawn : String} {grant : Grant}
    (h : db.issuePair lib settings now actor family drawn = .ok (t, grant)) :
    grant.response.accessToken = createAccessToken settings now actor := by
  simp only [AuthDb.issuePair, bind_ok, require_ok, pure_ok, Prod.mk.injEq] at h
  obtain ⟨-, -, -, rfl⟩ := h
  rfl

theorem issuePair_issues {t : AuthDb} {family : Option Id} {drawn : String} {grant : Grant} {bars : AuthDb}
    (h : db.issuePair lib settings now actor family drawn = .ok (t, grant))
    (hactor : ¬ bars.Barred actor.subjectType actor.subjectId) :
    grant.response.accessToken.expiresAt * 1000000 ≤ now + minutes settings.accessTokenMinutes ∧
      ¬ bars.Barred grant.response.accessToken.subjectType grant.response.accessToken.sub := by
  rw [issuePair_accessToken h]
  exact ⟨createAccessToken_expires settings now actor, hactor⟩

theorem refreshActor_unbarred {refresh : RefreshSession} (h : db.refreshActor refresh = .ok actor) :
    ¬ db.Barred actor.subjectType actor.subjectId := by
  unfold AuthDb.refreshActor at h
  cases htype : refresh.subjectType with
  | device =>
    simp only [htype, bind_ok, found_ok, require_ok, pure_ok] at h
    obtain ⟨d, hd, -, ⟨hrevoked, -⟩, -, -, incident, -, rfl⟩ := h
    rintro ⟨d', hd', hnot⟩
    obtain rfl := Option.some.inj (hd.symm.trans hd')
    exact hnot (Option.isNone_iff_eq_none.mp hrevoked)
  | account =>
    simp only [htype, bind_ok, found_ok, require_ok, pure_ok] at h
    obtain ⟨a, ha, -, hactive, rfl⟩ := h
    rintro ⟨a', ha', hnot⟩
    obtain rfl := Option.some.inj (ha.symm.trans ha')
    exact absurd (hnot.symm.trans hactive) (by decide)

/-- Tokens are made for those who are not barred. -/
theorem issues_spec {s : AuthState} {x : AuthStep} (h : token ∈ s.issues lib settings x) :
    token.expiresAt * 1000000 ≤ s.now + minutes settings.accessTokenMinutes ∧
      ¬ s.db.Barred token.subjectType token.sub := by
  cases x with
  | anonymousSession body drawn =>
    simp only [AuthState.issues, Option.mem_toList, toOption_some, map_ok, Prod.exists] at h
    obtain ⟨t, id, grant, hcreate, rfl⟩ := h
    simp only [AuthDb.createAnonymousSession, bind_ok, pure_ok, Prod.exists, Prod.mk.injEq] at hcreate
    obtain ⟨-, -, incident, -, t', grant', hissue, rfl, rfl, rfl⟩ := hcreate
    refine issuePair_issues hissue ?_
    rintro ⟨d, hd, hrevoked⟩
    rcases AuthDb.registerDevice_id s.now s.db (lib.installationHash body.installationId) body with
      ⟨a, ha, hnone, -⟩ | hnone
    · obtain rfl := Option.some.inj (hd.symm.trans ha)
      exact hrevoked hnone
    · exact absurd (hd.symm.trans hnone) (by simp)
  | login username password drawn =>
    simp only [AuthState.issues, Option.mem_toList, toOption_some, map_ok, Prod.exists] at h
    obtain ⟨t, grant, hlogin, rfl⟩ := h
    simp only [AuthDb.login, bind_ok, found_ok, require_ok] at hlogin
    obtain ⟨⟨i, account⟩, hfind, -, ⟨hactive, -⟩, hissue⟩ := hlogin
    refine issuePair_issues hissue ?_
    rintro ⟨a, ha, hnot⟩
    obtain rfl := Option.some.inj ((Table.find_some hfind).1.symm.trans ha)
    exact absurd (hnot.symm.trans hactive) (by decide)
  | refresh expectedType value drawn =>
    simp only [AuthState.issues, Option.mem_toList, toOption_some, map_ok, Prod.exists] at h
    obtain ⟨t, id, grant, hrotate, rfl⟩ := h
    simp only [AuthDb.rotateRefresh, bind_ok, found_ok, pure_ok, Prod.exists, Prod.mk.injEq] at hrotate
    obtain ⟨i, refresh, -, -, -, -, -, -, -, actor, hactor, t', grant', hissue, rfl, rfl, rfl⟩ := hrotate
    exact issuePair_issues hissue (refreshActor_unbarred hactor)
  | logout | revokeAnonymous | authenticated | retention | administer | tick => cases h

end Tokens
/-! ## Who stays barred -/

/-- Who is barred stays so, but for a patch that activates the account. -/
def AdminStep.Unbars (env : AdminEnv) (s : AdminState) (x : AdminStep) : SubjectType → Id → Prop
  | .account, id => x.Activates env id s
  | .device, _ => False

section Barred
variable {env : AdminEnv} {s : AdminState} {x : AdminStep} {type : SubjectType} {id : Id}

theorem barred_account : s.db.auth.Barred .account id ↔ ∃ username, s.Inactive id username := by
  have hget : s.db.auth.accounts.get id = (s.db.accounts.get id).map (·.toLocalAccount) :=
    Table.get_map _
  constructor
  · rintro ⟨a, ha, hinactive⟩
    rw [hget, Option.map_eq_some_iff] at ha
    obtain ⟨row, hrow, rfl⟩ := ha
    exact ⟨row.username, row, hrow, hinactive, rfl⟩
  · rintro ⟨username, row, hrow, hinactive, -⟩
    exact ⟨row.toLocalAccount, by rw [hget, hrow]; rfl, hinactive⟩

theorem authStep_revoked {lib : SecurityLib} {settings : SecuritySettings} {a : AuthState} {x : AuthStep}
    (h : a.db.Barred .device id) : (authStep lib settings a x).db.Barred .device id := by
  obtain ⟨d, hd, hrevoked⟩ := h
  unfold authStep
  cases hserve : authServe lib settings a x with
  | error e => exact ⟨d, hd, hrevoked⟩
  | ok served =>
    obtain ⟨t, events⟩ := served
    obtain ⟨d', hd', hages⟩ := (authServe_deviceStep hserve).evolves.get_some hd
    exact ⟨d', hd', fun hnone => hrevoked (hages hnone).1⟩

theorem AuthDb.Barred.step (h : s.db.auth.Barred type id) (hx : ¬ x.Unbars env s type id) :
    (adminStep env s x).db.auth.Barred type id := by
  cases type with
  | account =>
    obtain ⟨username, hinactive⟩ := barred_account.mp h
    exact barred_account.mpr ⟨username, hinactive.step hx⟩
  | device =>
    have hsessions := adminStep_sessions env s x
    have hkept : (authStep env.lib.toSecurityLib env.security s.sessions (s.sessionStep env x)).db.Barred .device id :=
      authStep_revoked h
    rw [← hsessions] at hkept
    exact hkept

theorem adminStep_now_le (env : AdminEnv) (s : AdminState) (x : AdminStep) : s.now ≤ (adminStep env s x).now := by
  have hnow : (adminStep env s x).now = s.now + (s.sessionStep env x).elapsed :=
    congrArg AuthState.now (adminStep_sessions env s x)
  rw [hnow]
  exact le_add_of_nonneg_right (Int.natCast_nonneg _)

end Barred

/-! ## What a socket is granted -/

/-- A token that a message presents is one that was issued. -/
def SocketState.Presents (env : SocketEnv) (s : SocketState) : SocketStep → Prop
  | .message _ message _ => ∀ d token t, message.asDict = some d → (d.get "access_token").bind Json.text? = some token →
      env.decode token = some t → t ∈ s.issued
  | _ => True

/-- The grant is what the token stands for. -/
def SocketGrant.IsOf (g : SocketGrant) (t : AccessToken) : Prop :=
  g.actor.subjectType = t.subjectType ∧ g.actor.subjectId = t.sub ∧ g.expiresAt = t.expiresAt

section Grants
variable {env : SocketEnv} {s : SocketState} {socket : AiSocket} {grant : SocketGrant}

theorem authenticate_serving {now : Time} {db : AuthDb} {message : Json}
    (h : (AiSocket.authenticate env now db message socket).phase = .serving grant) :
    ∃ d token t, message.asDict = some d ∧ (d.get "access_token").bind Json.text? = some token ∧
      env.decode token = some t ∧ db.actorFromToken now t grant.incident = .ok (grant.actor, grant.expiresAt) := by
  unfold AiSocket.authenticate at h
  cases hd : message.asDict.filter (hasType "authenticate") with
  | none =>
    rw [hd] at h
    cases h
  | some d =>
    rw [hd] at h
    dsimp only at h
    cases htoken : (d.get "access_token").bind Json.text? with
    | none =>
      rw [htoken] at h
      cases h
    | some token =>
      cases hincident : (d.get "incident_id").bind Json.text? with
      | none =>
        rw [htoken, hincident] at h
        cases h
      | some incident =>
        rw [htoken, hincident] at h
        dsimp only at h
        cases hactor : (found (env.decode token) TokenRefusal.invalid).bind
            fun t => db.actorFromToken now t incident with
        | error e =>
          rw [hactor] at h
          cases e <;> cases h
        | ok granted =>
          rw [hactor] at h
          obtain ⟨actor, expiresAt⟩ := granted
          injection h with h
          subst h
          obtain ⟨t, ht, hok⟩ := bind_ok.mp hactor
          exact ⟨d, token, t, (Option.filter_eq_some_iff.mp hd).1, htoken, found_ok.mp ht, hok⟩

theorem receive_serving {now : Time} {limiter : RateLimiter} {backend : AiBackend} {message : Json} {g : SocketGrant}
    (hphase : socket.phase = .serving grant)
    (h : (socket.receive env now limiter backend grant message).1.phase = .serving g) : g = grant := by
  unfold AiSocket.receive at h
  split_ifs at h
  · cases h
  · cases hd : message.asDict with
    | none =>
      rw [hd] at h
      exact (SocketPhase.serving.inj (hphase.symm.trans h)).symm
    | some d =>
      rw [hd] at h
      dsimp only at h
      split_ifs at h <;> exact (SocketPhase.serving.inj (hphase.symm.trans h)).symm

theorem timedOut_serving (h : socket.timedOut.phase = .serving grant) : socket.phase = .serving grant := by
  unfold AiSocket.timedOut at h
  split at h
  · cases h
  · exact h

theorem disconnected_serving : socket.disconnected.phase ≠ .serving grant := by
  unfold AiSocket.disconnected
  split <;> rintro ⟨⟩

section Message
variable {id : Id} {message : Json} {backend : AiBackend}

theorem message_none (h : s.sockets.get id = none) : s.message env id message backend = s := by
  simp only [SocketState.message, h]

theorem message_accepted (h : s.sockets.get id = some socket) (hphase : socket.phase = .accepted) :
    s.message env id message backend =
      s.modify id (AiSocket.authenticate env s.admin.now s.admin.db.auth message) := by
  simp only [SocketState.message, h, hphase]

theorem message_serving (h : s.sockets.get id = some socket) (hphase : socket.phase = .serving grant) :
    s.message env id message backend =
      { s.modify id (fun _ => (socket.receive env s.admin.now s.limiter backend grant message).1) with
        limiter := (socket.receive env s.admin.now s.limiter backend grant message).2.2 } := by
  simp only [SocketState.message, h, hphase]

theorem message_closed {code : Option ℕ} (h : s.sockets.get id = some socket) (hphase : socket.phase = .closed code) :
    s.message env id message backend = s := by
  simp only [SocketState.message, h, hphase]

theorem calls_serving (h : s.sockets.get id = some socket) (hphase : socket.phase = .serving grant) :
    s.calls env (.message id message backend) =
      ((socket.receive env s.admin.now s.limiter backend grant message).2.1.map fun c =>
        ⟨s.admin.now, id, grant.actor, grant.incident, c.1, c.2⟩).toList := by
  simp only [SocketState.calls, h, hphase]

end Message

/-- A socket that serves did so before, or has been authenticated by the step. -/
theorem serving_cases {x : SocketStep} {i : Id} (hsocket : (socketStep env s x).sockets.get i = some socket)
    (hphase : socket.phase = .serving grant) :
    (∃ old, s.sockets.get i = some old ∧ old.phase = .serving grant) ∨
      ∃ message backend d token t, x = .message i message backend ∧ message.asDict = some d ∧
        (d.get "access_token").bind Json.text? = some token ∧ env.decode token = some t ∧
        s.admin.db.auth.actorFromToken s.admin.now t grant.incident = .ok (grant.actor, grant.expiresAt) := by
  cases x with
  | admin | http => exact Or.inl ⟨socket, hsocket, hphase⟩
  | connect queryToken =>
    rcases Table.get_insert_cases hsocket with ⟨-, rfl⟩ | hold
    · cases queryToken <;> cases hphase
    · exact Or.inl ⟨socket, hold, hphase⟩
  | timeout id =>
    rcases Table.get_modify_cases hsocket with ⟨rfl, old, hold, rfl⟩ | ⟨-, hold⟩
    · exact Or.inl ⟨old, hold, timedOut_serving hphase⟩
    · exact Or.inl ⟨socket, hold, hphase⟩
  | disconnect id =>
    rcases Table.get_modify_cases hsocket with ⟨rfl, old, hold, rfl⟩ | ⟨-, hold⟩
    · exact absurd hphase disconnected_serving
    · exact Or.inl ⟨socket, hold, hphase⟩
  | message id message backend =>
    change (s.message env id message backend).sockets.get i = some socket at hsocket
    cases hold : s.sockets.get id with
    | none => exact Or.inl ⟨socket, message_none hold ▸ hsocket, hphase⟩
    | some old =>
      cases hbefore : old.phase with
      | closed code => exact Or.inl ⟨socket, message_closed hold hbefore ▸ hsocket, hphase⟩
      | accepted =>
        rw [message_accepted hold hbefore] at hsocket
        rcases Table.get_modify_cases hsocket with ⟨rfl, old', -, rfl⟩ | ⟨-, hkept⟩
        · obtain ⟨d, token, t, hd, htoken, ht, hok⟩ := authenticate_serving hphase
          exact Or.inr ⟨message, backend, d, token, t, rfl, hd, htoken, ht, hok⟩
        · exact Or.inl ⟨socket, hkept, hphase⟩
      | serving g =>
        rw [message_serving hold hbefore] at hsocket
        rcases Table.get_modify_cases hsocket with ⟨rfl, old', -, rfl⟩ | ⟨-, hkept⟩
        · obtain rfl := receive_serving hbefore hphase
          exact Or.inl ⟨old, hold, hbefore⟩
        · exact Or.inl ⟨socket, hkept, hphase⟩

/-- A call is made for a socket that serves, before its token expires. -/
theorem calls_spec {x : SocketStep} {c : SocketCall} (h : c ∈ s.calls env x) :
    ∃ socket grant, s.sockets.get c.socket = some socket ∧ socket.phase = .serving grant ∧ c.actor = grant.actor ∧
      c.incident = grant.incident ∧ c.time = s.admin.now ∧ s.admin.now < grant.expiresAt * 1000000 := by
  cases x with
  | admin | http | connect | timeout | disconnect => cases h
  | message id message backend =>
    cases hold : s.sockets.get id with
    | none => simp [SocketState.calls, hold] at h
    | some socket =>
      cases hphase : socket.phase with
      | accepted | closed => simp [SocketState.calls, hold, hphase] at h
      | serving grant =>
        rw [calls_serving hold hphase, Option.mem_toList, Option.map_eq_some_iff] at h
        obtain ⟨called, hcalled, rfl⟩ := h
        refine ⟨socket, grant, hold, hphase, rfl, rfl, rfl, ?_⟩
        by_contra hnot
        simp [AiSocket.receive, not_lt.mp hnot] at hcalled

end Grants

/-- Tokens expire within their lifetime, and what a socket is granted comes from one. -/
structure SocketState.Backed (env : SocketEnv) (s : SocketState) : Prop where
  issued : ∀ t ∈ s.issued, t.expiresAt * 1000000 ≤ s.admin.now + minutes env.security.accessTokenMinutes
  granted : ∀ i socket grant, s.sockets.get i = some socket → socket.phase = .serving grant →
    ∃ t ∈ s.issued, grant.IsOf t

/-- Nothing that was given to the subject lasts beyond the deadline, and no call was made for it from then on. -/
structure SocketState.CutOff (type : SubjectType) (id : Id) (deadline : Time) (s : SocketState)
    (l : List SocketCall) : Prop where
  barred : s.admin.db.auth.Barred type id
  issued : ∀ t ∈ s.issued, t.subjectType = type → t.sub = id → t.expiresAt * 1000000 ≤ deadline
  calls : ∀ c ∈ l, c.actor.subjectType = type → c.actor.subjectId = id → c.time < deadline

section CutOff
variable {env : SocketEnv} {s : SocketState} {x : SocketStep}

theorem message_rest (id : Id) (message : Json) (backend : AiBackend) :
    (s.message env id message backend).admin = s.admin ∧ (s.message env id message backend).issued = s.issued := by
  cases hold : s.sockets.get id with
  | none => rw [message_none hold]; exact ⟨rfl, rfl⟩
  | some socket =>
    cases hphase : socket.phase with
    | accepted => rw [message_accepted hold hphase]; exact ⟨rfl, rfl⟩
    | serving => rw [message_serving hold hphase]; exact ⟨rfl, rfl⟩
    | closed => rw [message_closed hold hphase]; exact ⟨rfl, rfl⟩

/-- Only requests about sessions and administrators change anything but the sockets. -/
theorem socketStep_rest (env : SocketEnv) (s : SocketState) (x : SocketStep) : (∃ y, x = .admin y) ∨
    (∀ y, x ≠ .admin y) ∧ (socketStep env s x).admin = s.admin ∧ (socketStep env s x).issued = s.issued := by
  cases x with
  | admin y => exact Or.inl ⟨y, rfl⟩
  | message id message backend => exact Or.inr ⟨by rintro _ ⟨⟩, message_rest id message backend⟩
  | http | connect | timeout | disconnect => exact Or.inr ⟨by rintro _ ⟨⟩, rfl, rfl⟩

theorem socketStep_issued {t : AccessToken} (h : t ∈ (socketStep env s x).issued) :
    t ∈ s.issued ∨ t.expiresAt * 1000000 ≤ s.admin.now + minutes env.security.accessTokenMinutes ∧
      ¬ s.admin.db.auth.Barred t.subjectType t.sub := by
  rcases socketStep_rest env s x with ⟨y, rfl⟩ | ⟨-, -, hissued⟩
  · rcases List.mem_append.mp h with ht | ht
    · cases y with
      | session z => exact Or.inr (issues_spec ht)
      | arrive | serve => cases ht
    · exact Or.inl ht
  · exact Or.inl (hissued ▸ h)

theorem socketStep_grows {t : AccessToken} (h : t ∈ s.issued) : t ∈ (socketStep env s x).issued := by
  rcases socketStep_rest env s x with ⟨y, rfl⟩ | ⟨-, -, hissued⟩
  · exact List.mem_append_right _ h
  · exact hissued ▸ h

theorem socketStep_now_le : s.admin.now ≤ (socketStep env s x).admin.now := by
  rcases socketStep_rest env s x with ⟨y, rfl⟩ | ⟨-, hadmin, -⟩
  · exact adminStep_now_le _ _ _
  · rw [hadmin]

theorem SocketState.Backed.step (h : s.Backed env) (hx : s.Presents env x) : (socketStep env s x).Backed env where
  issued := by
    intro t ht
    have hnow : s.admin.now + minutes env.security.accessTokenMinutes ≤
        (socketStep env s x).admin.now + minutes env.security.accessTokenMinutes :=
      Int.add_le_add_right socketStep_now_le _
    rcases socketStep_issued ht with hold | ⟨hexpires, -⟩
    · exact (h.issued t hold).trans hnow
    · exact hexpires.trans hnow
  granted := by
    intro i socket grant hsocket hphase
    rcases serving_cases hsocket hphase with
      ⟨old, hold, hserving⟩ | ⟨message, backend, d, token, t, rfl, hd, htoken, ht, hok⟩
    · obtain ⟨t, ht, hof⟩ := h.granted i old grant hold hserving
      exact ⟨t, socketStep_grows ht, hof⟩
    · obtain ⟨-, hactor, -, hexpires⟩ := actorFromToken_ok.mp hok
      obtain ⟨htype, hsub, -⟩ := tokenActor_ok hactor
      exact ⟨t, socketStep_grows (hx d token t hd htoken ht), htype, hsub, hexpires⟩

variable {type : SubjectType} {id : Id} {deadline : Time} {l : List SocketCall}

/-- No step but a patch that activates the account lets the subject in again. -/
def SocketStep.Unbars (env : SocketEnv) (type : SubjectType) (id : Id) (s : SocketState) : SocketStep → Prop
  | .admin x => x.Unbars env.toAdminEnv s.admin type id
  | _ => False

theorem SocketState.CutOff.step (h : s.CutOff type id deadline l) (hbacked : s.Backed env)
    (hx : ¬ x.Unbars env type id s) : (socketStep env s x).CutOff type id deadline (s.calls env x ++ l) where
  barred := by
    rcases socketStep_rest env s x with ⟨y, rfl⟩ | ⟨-, hadmin, -⟩
    · exact h.barred.step hx
    · rw [hadmin]
      exact h.barred
  issued := by
    intro t ht htype hsub
    rcases socketStep_issued ht with hold | ⟨-, hfree⟩
    · exact h.issued t hold htype hsub
    · subst htype hsub
      exact absurd h.barred hfree
  calls := by
    intro c hc htype hsub
    rcases List.mem_append.mp hc with hc | hc
    · obtain ⟨socket, grant, hsocket, hphase, hactor, -, htime, hlive⟩ := calls_spec hc
      obtain ⟨t, ht, htokenType, htokenSub, hexpires⟩ := hbacked.granted _ socket grant hsocket hphase
      have hdeadline : t.expiresAt * 1000000 ≤ deadline :=
        h.issued t ht (htokenType.symm.trans (hactor ▸ htype)) (htokenSub.symm.trans (hactor ▸ hsub))
      rw [htime]
      exact hlive.trans_le (hexpires ▸ hdeadline)
    · exact h.calls c hc htype hsub

end CutOff

theorem SocketState.backed_initial (env : SocketEnv) (now : Time) (setup : Bootstrap) :
    (SocketState.initial now setup).Backed env where
  issued := fun t ht => absurd ht List.not_mem_nil
  granted := by
    intro i socket grant hsocket
    exact absurd hsocket (by simp [SocketState.initial, Table.get_empty])

theorem socketRun_backed {env : SocketEnv} {s : SocketState} {steps : List SocketStep} (h : s.Backed env)
    (hpresents : Along (socketStep env) (fun s x => s.Presents env x) s steps) : (socketRun env s steps).Backed env :=
  run_invariant (socketStep env) (fun _ _ hs hx => hs.step hx) h hpresents

/-- As long as the tokens that sockets are shown are ones that were issued: once an account is inactive, or a device
revoked, nothing is called on its behalf after the lifetime of an access token from then, whichever sockets it
has open and whatever happens in whatever order, until a patch that activates the account is accepted. -/
theorem sockets_are_cut_off (env : SocketEnv) (now : Time) (setup : Bootstrap) (steps later : List SocketStep)
    (hpresents : Along (socketStep env) (fun s x => s.Presents env x) (.initial now setup) (steps ++ later))
    {type : SubjectType} {id : Id}
    (hbarred : (socketRun env (.initial now setup) steps).admin.db.auth.Barred type id)
    (hlater : Along (socketStep env) (fun s x => ¬ x.Unbars env type id s) (socketRun env (.initial now setup) steps)
      later) :
    ∀ c ∈ records (socketStep env) (SocketState.calls env) (socketRun env (.initial now setup) steps) later,
      c.actor.subjectType = type → c.actor.subjectId = id →
        c.time < (socketRun env (.initial now setup) steps).admin.now + minutes env.security.accessTokenMinutes := by
  obtain ⟨hbefore, hafter⟩ := (along_append (socketStep env)).mp hpresents
  have hbacked := socketRun_backed (SocketState.backed_initial env now setup) hbefore
  unfold socketRun at hbacked hbarred hlater ⊢
  generalize run (socketStep env) (.initial now setup) steps = s at *
  have h := records_invariant (socketStep env) (SocketState.calls env)
    (C := fun s x => s.Presents env x ∧ ¬ x.Unbars env type id s)
    (I := fun t l => t.Backed env ∧ t.CutOff type id (s.admin.now + minutes env.security.accessTokenMinutes) l)
    (fun t l x ht hx => ⟨ht.1.step hx.1, ht.2.step ht.1 hx.2⟩)
    ⟨hbacked, hbarred, fun t ht _ _ => hbacked.issued t ht, fun c hc => absurd hc List.not_mem_nil⟩
    ((along_and (socketStep env)).mpr ⟨hafter, hlater⟩)
  exact h.2.calls

deriving instance DecidableEq for AccessToken

namespace Sample

theorem one_member : ([⟨1, 0, .operator⟩].map fun m : IncidentMembership => (m.accountId, m.incidentId)).Nodup :=
  List.nodup_singleton _

theorem one_owned : ∀ m ∈ ([⟨1, 0, .operator⟩] : List IncidentMembership),
    m.accountId < staff.size ∧ m.incidentId < unretained.db.feed.incidents.size := by
  decide

def operation : Bootstrap :=
  { deployment with memberships := [⟨1, 0, .operator⟩], members := one_member, owned := one_owned }

def operatorToken : AccessToken := ⟨1, .account, .operator, 1, [0], some "operator", 0, 1800⟩

def gateway : SocketEnv where
  toAdminEnv := administration
  text := text
  limits := ⟨true, 1, 1⟩
  decode := fun r => if r = .name "signed" then some operatorToken else none

def answers : AiBackend := ⟨.name "request", .reserved, fun _ => .answered 200 .null⟩

/-- An operator logs in and opens a socket. -/
def connected : List SocketStep :=
  [.admin (.session (.login "operator" "other-password" "drawn")), .connect false,
    .message 0 (.obj [("type", .str "authenticate"), ("access_token", .str "signed"), ("incident_id", .ref 0)]) answers,
    .admin (.arrive adminToken (.patchUser 1 ⟨⟨1, first_revision⟩, none, none, some false, none, none⟩ "salt")),
    .admin (.serve 0)]

/-- The operator is dismissed, and asks for something all the same. -/
def refining : List SocketStep :=
  [.message 0 (.obj [("type", .str "ai.request"), ("request_id", .str "r"), ("operation", .str "report_refinement"),
    ("payload", .obj [])]) answers]

theorem gateway_decode {r : Ref} {t : AccessToken} (h : gateway.decode r = some t) : t = operatorToken := by
  change (if r = .name "signed" then some operatorToken else none) = some t at h
  split_ifs at h
  exact (Option.some.inj h).symm

end Sample

theorem dismissed_operator_is_cut_off :
    ∃ c, records (socketStep Sample.gateway) (SocketState.calls Sample.gateway)
        (socketRun Sample.gateway (.initial 0 Sample.operation) Sample.connected) Sample.refining = [c] ∧
      c.time < (socketRun Sample.gateway (.initial 0 Sample.operation) Sample.connected).admin.now + minutes 30 := by
  have hone : (records (socketStep Sample.gateway) (SocketState.calls Sample.gateway)
      (socketRun Sample.gateway (.initial 0 Sample.operation) Sample.connected) Sample.refining).length = 1 := by
    decide +kernel
  have hactor : ∀ c ∈ records (socketStep Sample.gateway) (SocketState.calls Sample.gateway)
      (socketRun Sample.gateway (.initial 0 Sample.operation) Sample.connected) Sample.refining,
      c.actor.subjectType = .account ∧ c.actor.subjectId = 1 := by
    decide +kernel
  have hissued : Sample.operatorToken ∈ (run (socketStep Sample.gateway) (.initial 0 Sample.operation)
      (Sample.connected.take 2)).issued := by
    decide +kernel
  have hasked : Sample.operatorToken ∈ (run (socketStep Sample.gateway) (.initial 0 Sample.operation)
      Sample.connected).issued := by
    decide +kernel
  have hinactive : ((run (socketStep Sample.gateway) (.initial 0 Sample.operation)
      Sample.connected).admin.db.auth.accounts.get 1).any (fun a => a.isActive = false) = true := by
    decide +kernel
  obtain ⟨a, ha, hfalse⟩ := (Option.any_eq_true _ _).mp hinactive
  obtain ⟨c, hc⟩ := List.length_eq_one_iff.mp hone
  have hmem : c ∈ records (socketStep Sample.gateway) (SocketState.calls Sample.gateway)
      (socketRun Sample.gateway (.initial 0 Sample.operation) Sample.connected) Sample.refining :=
    hc ▸ List.mem_singleton_self c
  have hbarred : (socketRun Sample.gateway (.initial 0 Sample.operation)
      Sample.connected).admin.db.auth.Barred .account 1 :=
    ⟨a, ha, of_decide_eq_true hfalse⟩
  refine ⟨c, hc, sockets_are_cut_off Sample.gateway 0 Sample.operation Sample.connected Sample.refining ?_ hbarred
    ⟨id, trivial⟩ c hmem (hactor c hmem).1 (hactor c hmem).2⟩
  refine ⟨trivial, trivial, ?_, trivial, trivial, ?_, trivial⟩
  · intro d token t _ _ ht
    exact Sample.gateway_decode ht ▸ hissued
  · intro d token t _ _ ht
    exact Sample.gateway_decode ht ▸ hasked

end CrisisMosaic
