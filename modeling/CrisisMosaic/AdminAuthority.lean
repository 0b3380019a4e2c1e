import CrisisMosaic.AccountRuns

/-!
# Authority over the accounts

Whoever administers was given the authority by someone who had it, from those on that the deployment was
set up with. An account that is deactivated gets no access, however its tokens came about, until a
call activates it.
-/

namespace CrisisMosaic
open Relational

/-! ## Sessions -/

/-- The steps as the requests about sessions see them. -/
def AdminState.sessionStep (env : AdminEnv) (s : AdminState) : AdminStep → AuthStep
  | .session (.administer _ _ _) => .tick 0
  | .session x => x
  | .arrive token _ => .authenticated token
  | .serve r =>
    let db := (s.serve env r).db
    .administer db.incidents (db.accounts.map (·.toLocalAccount))
      (db.memberships.map fun m => (m.accountId, m.incidentId))

def sessionSteps (env : AdminEnv) : AdminState → List AdminStep → List AuthStep
  | _, [] => []
  | s, x :: steps => s.sessionStep env x :: sessionSteps env (adminStep env s x) steps

section Sessions
variable {env : AdminEnv} {s : AdminState}

/-- A request about sessions leaves what administrators write. -/
theorem AuthDb.issuePair_rest {lib : SecurityLib} {settings : SecuritySettings} {now : Time} {db t : AuthDb}
    {actor : Principal} {family : Option Id} {drawn : String} {grant : Grant}
    (h : db.issuePair lib settings now actor family drawn = .ok (t, grant)) :
    t.incidents = db.incidents ∧ t.accounts = db.accounts ∧ t.memberships = db.memberships := by
  simp only [AuthDb.issuePair, bind_ok, pure_ok, Prod.mk.injEq] at h
  obtain ⟨-, -, rfl, -⟩ := h
  exact ⟨rfl, rfl, rfl⟩

theorem authServe_rest {lib : SecurityLib} {settings : SecuritySettings} {a : AuthState} {x : AuthStep}
    {t : AuthDb} {events : List AuthEvent} (h : authServe lib settings a x = .ok (t, events))
    (hx : ∀ incidents accounts memberships, x ≠ .administer incidents accounts memberships) :
    t.incidents = a.db.incidents ∧ t.accounts = a.db.accounts ∧ t.memberships = a.db.memberships := by
  cases x with
  | anonymousSession body drawn =>
    simp only [authServe, AuthDb.createAnonymousSession, bind_ok, pure_ok, Prod.exists, Prod.mk.injEq] at h
    obtain ⟨db, id, grant, ⟨-, -, incident, -, db', grant', hissue, rfl, rfl, rfl⟩, rfl, rfl⟩ := h
    have hrest := AuthDb.issuePair_rest hissue
    exact hrest
  | login username password drawn =>
    simp only [authServe, AuthDb.login, bind_ok, pure_ok, Prod.exists, Prod.mk.injEq] at h
    obtain ⟨db, grant, ⟨id, account, -, -, -, hissue⟩, rfl, rfl⟩ := h
    exact AuthDb.issuePair_rest hissue
  | refresh expectedType token drawn =>
    simp only [authServe, AuthDb.rotateRefresh, bind_ok, pure_ok, Prod.exists, Prod.mk.injEq] at h
    obtain ⟨db, id, grant, ⟨i, refresh, -, -, -, -, -, -, -, actor, -, issued, g, hissue, rfl, rfl, rfl⟩,
      rfl, rfl⟩ := h
    have hrest := AuthDb.issuePair_rest hissue
    exact hrest
  | logout token =>
    simp only [authServe, pure_ok, Prod.mk.injEq] at h
    obtain ⟨rfl, rfl⟩ := h
    unfold AuthDb.logout
    split
    · split <;> exact ⟨rfl, rfl, rfl⟩
    · exact ⟨rfl, rfl, rfl⟩
  | revokeAnonymous token =>
    simp only [authServe, AuthDb.revokeAnonymous, bind_ok, found_ok, pure_ok, Prod.exists, Prod.mk.injEq] at h
    obtain ⟨db, device, ⟨i, refresh, -, row, -, rfl, rfl⟩, rfl, rfl⟩ := h
    exact ⟨rfl, rfl, rfl⟩
  | authenticated token =>
    simp only [authServe, bind_ok, pure_ok, Prod.mk.injEq] at h
    obtain ⟨actor, -, rfl, rfl⟩ := h
    exact ⟨rfl, rfl, rfl⟩
  | retention =>
    simp only [authServe, pure_ok, Prod.mk.injEq] at h
    obtain ⟨rfl, rfl⟩ := h
    exact ⟨rfl, rfl, rfl⟩
  | administer incidents accounts memberships => exact absurd rfl (hx incidents accounts memberships)
  | tick elapsed =>
    simp only [authServe, pure_ok, Prod.mk.injEq] at h
    obtain ⟨rfl, rfl⟩ := h
    exact ⟨rfl, rfl, rfl⟩

theorem authDb_withSessions {db : AdminDb} {t : AuthDb} (hincidents : t.incidents = db.auth.incidents)
    (haccounts : t.accounts = db.auth.accounts) (hmemberships : t.memberships = db.auth.memberships) :
    (db.withSessions t).auth = t := by
  obtain ⟨incidents, devices, accounts, memberships, refreshSessions, families⟩ := t
  dsimp only at hincidents haccounts hmemberships
  subst hincidents haccounts hmemberships
  rfl

theorem commit_auth_withSessions {x : AuthStep}
    (hx : ∀ incidents accounts memberships, x ≠ .administer incidents accounts memberships) :
    (s.db.withSessions (commit s.db.auth
      ((authServe env.lib.toSecurityLib env.security s.sessions x).map (·.1)))).auth =
      commit s.db.auth ((authServe env.lib.toSecurityLib env.security s.sessions x).map (·.1)) := by
  cases hserve : authServe env.lib.toSecurityLib env.security s.sessions x with
  | error e => rfl
  | ok served =>
    obtain ⟨t, events⟩ := served
    obtain ⟨hincidents, haccounts, hmemberships⟩ := authServe_rest hserve hx
    exact authDb_withSessions hincidents haccounts hmemberships

theorem adminStep_sessions (env : AdminEnv) (s : AdminState) (x : AdminStep) :
    (adminStep env s x).sessions =
      authStep env.lib.toSecurityLib env.security s.sessions (s.sessionStep env x) := by
  cases x with
  | session x =>
    cases x with
    | administer incidents accounts memberships => rfl
    | anonymousSession | login | refresh | logout | revokeAnonymous | authenticated | retention | tick =>
      refine congrArg (AuthState.mk _) (commit_auth_withSessions ?_)
      intro _ _ _ h
      cases h
  | arrive token call =>
    have hsame : (adminStep env s (.arrive token call)).sessions = s.sessions := by
      change (s.arrive token call).sessions = _
      unfold AdminState.arrive
      cases s.db.auth.getActor s.now token with
      | error e => rfl
      | ok actor =>
        dsimp only
        split_ifs <;> rfl
    rw [hsame]
    have hserved : commit s.sessions.db ((authServe env.lib.toSecurityLib env.security s.sessions
        (.authenticated token)).map (·.1)) = s.sessions.db := by
      simp only [authServe]
      cases s.sessions.db.getActor s.sessions.now token <;> rfl
    exact congrArg₂ AuthState.mk (add_zero s.now).symm hserved.symm
  | serve r =>
    change (s.serve env r).sessions = _
    have hnow : (s.serve env r).now = s.now := by
      unfold AdminState.serve
      cases s.request r <;> rfl
    have hrest : (s.serve env r).db.devices = s.db.devices ∧
        (s.serve env r).db.refreshSessions = s.db.refreshSessions ∧
        (s.serve env r).db.families = s.db.families := by
      have hmoves := adminStep_moves env s (.serve r)
      change s.Moves env _ (s.serve env r) at hmoves
      generalize s.serve env r = t at hmoves
      cases hmoves with
      | refused | failed => exact ⟨rfl, rfl, rfl⟩
      | served _ _ hserved => cases hserved <;> exact ⟨rfl, rfl, rfl⟩
    obtain ⟨hdevices, hsessions, hfamilies⟩ := hrest
    unfold AdminState.sessions AdminDb.auth
    rw [hnow, hdevices, hsessions, hfamilies]
    refine congrArg₂ AuthState.mk (add_zero s.now).symm rfl

end Sessions

/-- The requests about sessions run as if the accounts, the memberships and the incidents were replaced whenever
an administrator is served: what is kept by any such run is kept here. -/
theorem sessions_are_simulated (env : AdminEnv) (s : AdminState) (steps : List AdminStep) :
    (adminRun env s steps).sessions =
      run (authStep env.lib.toSecurityLib env.security) s.sessions (sessionSteps env s steps) := by
  induction steps generalizing s with
  | nil => rfl
  | cons x steps ih =>
    change (adminRun env (adminStep env s x) steps).sessions = _
    rw [ih, adminStep_sessions]
    rfl

/-! ## Authority -/

def AdminCall.about (db : AdminDb) : AdminCall → Option Id
  | .createUser _ _ => some db.accounts.size
  | .patchUser account _ _ => some account
  | .createIncident _ | .patchIncident _ _ _ => none

/-- Who called, and the account the call was about. -/
def authorityLog (env : AdminEnv) (s : AdminState) : AdminStep → List (Id × Option Id)
  | .serve r =>
    match s.request r with
    | some (actor, call) =>
      if (s.db.serve env s.now actor call).toOption.isSome then [(actor.subjectId, call.about s.db)] else []
    | none => []
  | _ => []

/-- The account was set up as an active administrator, or someone with authority made a call about it. -/
def HasAuthority (accounts : Table AccountRow) : List (Id × Option Id) → Id → Prop
  | [], id => ∃ a, accounts.get id = some a ∧ a.isActive = true ∧ a.role = .admin
  | call :: earlier, id =>
    HasAuthority accounts earlier id ∨ call.2 = some id ∧ HasAuthority accounts earlier call.1

/-- Active administrators, and those whose requests wait, have authority; so had whoever called. -/
structure AdminState.Authorised (accounts : Table AccountRow) (s : AdminState) (l : List (Id × Option Id)) :
    Prop where
  admins : ∀ i a, s.db.accounts.get i = some a → a.isActive = true → a.role = .admin → HasAuthority accounts l i
  waiting : ∀ r actor call, s.request r = some (actor, call) → HasAuthority accounts l actor.subjectId
  callers : ∀ later call earlier, l = later ++ call :: earlier → HasAuthority accounts earlier call.1

section Authority
variable {env : AdminEnv} {accounts : Table AccountRow} {s t : AdminState} {l : List (Id × Option Id)}
  {actor : Principal} {call : AdminCall} {id : Id}

theorem AdminState.Authorised.log (h : s.Authorised accounts l) (hactor : HasAuthority accounts l actor.subjectId) :
    ∀ later x earlier, (actor.subjectId, call.about s.db) :: l = later ++ x :: earlier →
      HasAuthority accounts earlier x.1 := by
  intro later x earlier heq
  cases later with
  | nil =>
    obtain ⟨rfl, rfl⟩ := List.cons.inj heq
    exact hactor
  | cons y later => exact h.callers later x earlier (List.cons.inj heq).2

/-- A call changes the account it is about. -/
theorem CallServed.admins {now : Time} {db db' : AdminDb} (hserved : CallServed env now db actor call db') {i : Id}
    {a : AccountRow} (ha : db'.accounts.get i = some a) : call.about db = some i ∨ db.accounts.get i = some a := by
  cases hserved with
  | created => exact (Table.get_insert_cases ha).imp_left fun hi => congrArg some hi.1.symm
  | patched =>
    exact (Table.get_modify_cases ha).imp (fun hi => congrArg some hi.1) fun hi => hi.2
  | opened | moved => exact Or.inr ha

theorem authorityLog_step (h : s.Authorised accounts l) (x : AdminStep) :
    (adminStep env s x).Authorised accounts (authorityLog env s x ++ l) := by
  have hmoves := adminStep_moves env s x
  generalize adminStep env s x = t at hmoves
  cases hmoves with
  | session hservice haccounts hmemberships hwaiting =>
    refine ⟨fun i a ha => h.admins i a (haccounts ▸ ha), fun r actor call hr => ?_, h.callers⟩
    refine h.waiting r actor call ?_
    rwa [AdminState.request, ← hwaiting]
  | @arrived token call actor a ha hactive hadmin =>
    refine ⟨h.admins, fun r actor' call' hr => ?_, h.callers⟩
    unfold AdminState.request at hr
    rcases hrow : (s.waiting.insert (some (actor, call))).get r with _ | row
    · simp [hrow] at hr
    · rcases Table.get_insert_cases hrow with ⟨-, rfl⟩ | hold
      · simp only [hrow, Option.join_some, Option.some.injEq, Prod.mk.injEq] at hr
        obtain ⟨rfl, rfl⟩ := hr
        exact h.admins _ a ha hactive hadmin
      · exact h.waiting r actor' call' (by rw [AdminState.request, hold]; simpa [hrow] using hr)
  | refused hnone =>
    have hlog : authorityLog env s x = [] := by
      cases x with
      | serve r => simp [authorityLog, hnone r rfl]
      | session | arrive => rfl
    rw [hlog]
    exact h
  | @served r actor call db hr hok hserved =>
    have hlog : authorityLog env s (.serve r) = [(actor.subjectId, call.about s.db)] := by
      simp only [authorityLog, hr, hok]
      exact if_pos rfl
    have hactor := h.waiting r actor call hr
    rw [hlog, List.singleton_append]
    refine ⟨fun i a ha hactive hadmin => ?_, fun r' actor' call' hr' => ?_, h.log hactor⟩
    · rcases hserved.admins ha with habout | hold
      · exact Or.inr ⟨habout, hactor⟩
      · exact Or.inl (h.admins i a hold hactive hadmin)
    · exact Or.inl (h.waiting r' actor' call' (request_served hr'))
  | @failed r actor call hr hno =>
    have hlog : authorityLog env s (.serve r) = [] := by
      simp only [authorityLog, hr]
      refine if_neg fun hsome => ?_
      obtain ⟨db, hdb⟩ := Option.isSome_iff_exists.mp hsome
      exact hno db (toOption_some.mp hdb)
    rw [hlog]
    exact ⟨h.admins, fun r' actor' call' hr' => h.waiting r' actor' call' (request_served hr'), h.callers⟩

end Authority

/-- In every run, whoever is an active administrator, and whoever made a call that was accepted, got the
authority from someone who had it, and in the end from those whom the deployment was set up with. -/
theorem authority_is_handed_on (env : AdminEnv) (now : Time) (setup : Bootstrap) (steps : List AdminStep) :
    let start := AdminState.initial now setup
    let log := records (adminStep env) (authorityLog env) start steps
    (∀ i a, (adminRun env start steps).db.accounts.get i = some a → a.isActive = true → a.role = .admin →
      HasAuthority setup.accounts log i) ∧
    ∀ later call earlier, log = later ++ call :: earlier → HasAuthority setup.accounts earlier call.1 := by
  intro start log
  have hstart : start.Authorised setup.accounts [] := by
    refine ⟨fun i a ha hactive hadmin => ⟨a, ha, hactive, hadmin⟩, fun r actor call hr => (by cases hr), ?_⟩
    intro later call earlier hnil
    exact absurd hnil.symm (by simp)
  have h : (adminRun env start steps).Authorised setup.accounts log :=
    records_invariant (adminStep env) (authorityLog env) (C := fun _ _ => True)
      (I := AdminState.Authorised setup.accounts) (fun _ _ x hs _ => authorityLog_step hs x) hstart
      (along_true _ start steps)
  exact ⟨h.admins, h.callers⟩

/-! ## Deactivation -/

/-- An accepted patch that activates the account. -/
def AdminStep.Activates (env : AdminEnv) (id : Id) (s : AdminState) : AdminStep → Prop
  | .serve r => ∃ actor body salt, s.request r = some (actor, .patchUser id body salt) ∧
      body.isActive = some true ∧ Completes (s.db.patchUser env id body salt)
  | _ => False

/-- The account gets no tokens, and none that it has is accepted. -/
structure AdminState.Refuses (env : AdminEnv) (s : AdminState) (id : Id) (username : String) : Prop where
  login : ∀ password drawn, ¬ Completes
    (s.db.auth.login env.lib.toSecurityLib env.security s.now username password drawn)
  access : ∀ token : AccessToken, token.subjectType = .account → token.sub = id →
    ¬ Completes (s.db.auth.getActor s.now token)
  refresh : ∀ i r token, s.db.auth.findSession (AuthDb.withHash (env.lib.refreshTokenHash token)) = some (i, r) →
    r.subjectType = .account → r.subjectId = id → ∀ expectedType drawn, ¬ Completes
      (s.db.auth.rotateRefresh env.lib.toSecurityLib env.security s.now expectedType token drawn)

def AdminState.Inactive (s : AdminState) (id : Id) (username : String) : Prop :=
  ∃ a, s.db.accounts.get id = some a ∧ a.isActive = false ∧ a.username = username

section Deactivation
variable {env : AdminEnv} {s t : AdminState} {id : Id} {username : String}

theorem AdminState.Inactive.refuses (h : s.Inactive id username) (hs : s.Sound) : s.Refuses env id username := by
  obtain ⟨a, ha, hinactive, rfl⟩ := h
  have haccount : s.db.auth.accounts.get id = some a.toLocalAccount := by
    change (s.db.accounts.map (·.toLocalAccount)).get id = _
    rw [Table.get_map, ha]
    rfl
  refine ⟨?_, ?_, ?_⟩
  · rintro password drawn ⟨t, ht⟩
    simp only [AuthDb.login, bind_ok, found_ok, require_ok] at ht
    obtain ⟨⟨i, account⟩, hfind, -, ⟨hactive, -⟩, -⟩ := ht
    obtain ⟨hi, hname⟩ := Table.find_some hfind
    change (s.db.accounts.map (·.toLocalAccount)).get i = _ at hi
    rw [Table.get_map, Option.map_eq_some_iff] at hi
    obtain ⟨b, hb, rfl⟩ := hi
    obtain rfl := hs.db.usernames.eq hb ha (by simpa using hname)
    obtain rfl := Option.some.inj (ha.symm.trans hb)
    exact absurd (hinactive.symm.trans hactive) (by decide)
  · rintro token htype rfl ⟨actor, hactor⟩
    simp only [AuthDb.getActor, bind_ok, htype, found_ok, require_ok] at hactor
    obtain ⟨-, -, account, hrow, -, hactive, -⟩ := hactor
    obtain rfl := Option.some.inj (haccount.symm.trans hrow)
    exact absurd (hinactive.symm.trans hactive) (by decide)
  · rintro i r token hfind htype rfl expectedType drawn ⟨t, ht⟩
    simp only [AuthDb.rotateRefresh, bind_ok, found_ok] at ht
    obtain ⟨⟨j, refresh⟩, hrefresh, -, -, -, -, -, -, actor, hactor, -⟩ := ht
    obtain ⟨rfl, rfl⟩ := Prod.mk.inj (Option.some.inj (hfind.symm.trans hrefresh))
    simp only [AuthDb.refreshActor, htype, bind_ok, found_ok, require_ok] at hactor
    obtain ⟨account, hrow, -, hactive, -⟩ := hactor
    obtain rfl := Option.some.inj (haccount.symm.trans hrow)
    exact absurd (hinactive.symm.trans hactive) (by decide)

theorem AdminState.Inactive.step (h : s.Inactive id username) {x : AdminStep} (hx : ¬ x.Activates env id s) :
    (adminStep env s x).Inactive id username := by
  obtain ⟨a, ha, hinactive, hname⟩ := h
  have hmoves := adminStep_moves env s x
  generalize adminStep env s x = t at hmoves
  cases hmoves with
  | session _ haccounts => exact ⟨a, haccounts ▸ ha, hinactive, hname⟩
  | arrived | refused | failed => exact ⟨a, ha, hinactive, hname⟩
  | @served r actor call db hr hok hserved =>
    cases hserved with
    | created => exact ⟨a, Table.get_insert_of_some _ ha, hinactive, hname⟩
    | opened | moved => exact ⟨a, ha, hinactive, hname⟩
    | @patched k body salt b hb =>
      by_cases hk : k = id
      · subst hk
        obtain rfl := Option.some.inj (ha.symm.trans hb)
        refine ⟨a.patched env.lib salt body, ?_, ?_, hname⟩
        · change (s.db.accounts.modify k (AccountRow.patched env.lib salt body)).get k = _
          rw [Table.get_modify_self, ha]
          rfl
        · change body.isActive.getD a.isActive = false
          cases hsent : body.isActive with
          | none => exact hinactive
          | some active =>
            cases active with
            | false => rfl
            | true => exact absurd ⟨actor, body, salt, hr, hsent, _, hok⟩ hx
      · refine ⟨a, ?_, hinactive, hname⟩
        change (s.db.accounts.modify k (AccountRow.patched env.lib salt body)).get id = _
        rw [Table.get_modify_of_ne _ _ hk, ha]

end Deactivation

/-- An account that is inactive at some point of a run gets no tokens and no access from then on, whatever
requests follow in whatever order, until a patch that activates it is accepted. -/
theorem deactivated_accounts_are_refused (env : AdminEnv) (now : Time) (setup : Bootstrap)
    (steps later : List AdminStep) {id : Id} {a : AccountRow}
    (ha : (adminRun env (.initial now setup) steps).db.accounts.get id = some a) (hinactive : a.isActive = false)
    (hlater : Along (adminStep env) (fun s x => ¬ x.Activates env id s)
      (adminRun env (.initial now setup) steps) later) :
    (adminRun env (.initial now setup) (steps ++ later)).Refuses env id a.username := by
  have hsound : (adminRun env (.initial now setup) steps).Sound :=
    run_invariant (adminStep env) (C := fun _ _ => True) (I := AdminState.Sound) (fun _ x hs _ => hs.step x)
      (setup.sound now) (along_true _ _ steps)
  have h := run_invariant (adminStep env) (I := fun s => s.Sound ∧ s.Inactive id a.username)
    (fun s x hs hx => ⟨hs.1.step x, hs.2.step hx⟩) ⟨hsound, a, ha, hinactive, rfl⟩ hlater
  unfold adminRun at h ⊢
  rw [run_append]
  exact h.2.refuses h.1

namespace Sample

theorem plain_verifies : ∀ salt password : String, (fun p q : String => decide (p = q)) password
    ((fun _ q : String => q) salt password) = true := by
  simp

theorem installation_hex : ∀ s : String, ':' ∉ ((fun _ : String => "a1") s).toList := by
  intro _
  change ':' ∉ ("a1" : String).toList
  decide

def administration : AdminEnv where
  lib :=
    { refreshTokenHash := fun token => token
      installationHash := fun _ => "a1"
      verifyPassword := fun p q => decide (p = q)
      installationHash_hex := installation_hex
      hashPassword := fun _ q => q
      verify_hash := plain_verifies }
  security := ⟨30, 7⟩
  retention := retention

def staff : Table AccountRow :=
  ⟨[⟨⟨"admin", "first-password", .admin, true⟩, none, 1⟩, ⟨⟨"operator", "other-password", .operator, true⟩, none, 1⟩]⟩

theorem staff_emails : ∀ i j a b email, staff.get i = some a → staff.get j = some b → a.email = some email →
    b.email = some email → i = j := by
  intro i j a b email ha _ hae
  have hnone : staff.rows.all (·.email.isNone) = true := by decide
  have hemail := List.all_eq_true.mp hnone a (List.mem_of_getElem? ha)
  rw [hae] at hemail
  cases hemail

theorem staff_usernames : staff.UniqueOn (·.username) := by decide

theorem no_members : (([] : List IncidentMembership).map fun m => (m.accountId, m.incidentId)).Nodup :=
  List.nodup_nil

theorem none_owned : ∀ m ∈ ([] : List IncidentMembership),
    m.accountId < staff.size ∧ m.incidentId < unretained.db.feed.incidents.size :=
  fun _ h => absurd h List.not_mem_nil

def deployment : Bootstrap where
  service := unretained
  accounts := staff
  memberships := []
  usernames := staff_usernames
  emails := staff_emails
  members := no_members
  owned := none_owned

def adminToken : AccessToken := ⟨0, .account, .admin, 1, [], some "admin", 0, 1800⟩

theorem first_revision : 1 ≤ 1 := le_rfl

/-- The administrator deactivates the operator. -/
def dismissed : List AdminStep :=
  [.arrive adminToken (.patchUser 1 ⟨⟨1, first_revision⟩, none, none, some false, none, none⟩ "salt"), .serve 0]

end Sample

theorem dismissed_operator_is_refused :
    ∃ a, (adminRun Sample.administration (.initial 0 Sample.deployment) Sample.dismissed).db.accounts.get 1 = some a ∧
      (adminRun Sample.administration (.initial 0 Sample.deployment)
        (Sample.dismissed ++ [.session (.login "operator" "other-password" "drawn")])).Refuses
          Sample.administration 1 a.username := by
  have hinactive : ((adminRun Sample.administration (.initial 0 Sample.deployment)
      Sample.dismissed).db.accounts.get 1).any (fun a => a.isActive = false) = true := by
    decide +kernel
  obtain ⟨a, ha, hfalse⟩ := (Option.any_eq_true _ _).mp hinactive
  refine ⟨a, ha, deactivated_accounts_are_refused Sample.administration 0 Sample.deployment Sample.dismissed
    [.session (.login "operator" "other-password" "drawn")] ha (of_decide_eq_true hfalse) ⟨?_, trivial⟩⟩
  intro h
  cases h

end CrisisMosaic
