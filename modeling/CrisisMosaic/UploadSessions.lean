import CrisisMosaic.UploadCoverage

/-!
# Upload sessions that are over

A completed or aborted session keeps its status, its parts and its confirmed bytes,
and renewing it is refused. A request that loaded a session before it was over, or
deletes a completed one, does not respect that.
-/

namespace CrisisMosaic
open Relational

/-- The status leaves only `active`; then status, confirmed bytes and parts stay. -/
def MediaDb.Settles (db t : MediaDb) : Prop :=
  ∀ id r, db.sessions.get id = some r → ∃ r', t.sessions.get id = some r' ∧
    (r.status ≠ .active → r'.status = r.status ∧ r'.confirmedBytes = r.confirmedBytes ∧
      t.partsOf id = db.partsOf id)

theorem MediaDb.Settles.refl (db : MediaDb) : db.Settles db :=
  fun _ r hr => ⟨r, hr, fun _ => ⟨rfl, rfl, rfl⟩⟩

theorem MediaDb.Settles.trans {db t u : MediaDb} (h : db.Settles t) (k : t.Settles u) :
    db.Settles u := by
  intro id r hr
  obtain ⟨r', hr', hkept⟩ := h id r hr
  obtain ⟨r'', hr'', hkept'⟩ := k id r' hr'
  refine ⟨r'', hr'', fun hover => ?_⟩
  obtain ⟨hstatus, hbytes, hparts⟩ := hkept hover
  obtain ⟨hstatus', hbytes', hparts'⟩ := hkept' (hstatus ▸ hover)
  exact ⟨hstatus'.trans hstatus, hbytes'.trans hbytes, hparts'.trans hparts⟩

/-- The answer to a renewal is the one its session calls for. -/
def RenewalFits (now : Time) (r : MediaUploadSession) : Result MediaDb → Prop
  | .ok _ => r.status = .active ∧ now ≤ r.expiresAt
  | .error e => ¬ (r.status = .active ∧ now ≤ r.expiresAt) ∧ (e.statusCode = 409 ∨ e.statusCode = 410)

section Respect
variable (settings : MediaSettings) (text : TextLib)

/-- A step leaves sessions that are over alone, and a renewal is answered as declared. -/
structure RespectsSessions (s : UploadState) (x : UploadStep) : Prop where
  settles : s.db.Settles (uploadStep settings text s x).db
  renewal : ∀ i id loaded drawn r, x = .serve i →
    s.waiting.get i = some (some (.renew id loaded drawn)) → s.db.sessions.get id = some r →
      RenewalFits s.now r (renewResumableSession settings s.now s.db id loaded drawn)

end Respect

/-- A part is recorded in a session that is still active, a completed session is not deleted,
and no session that was loaded active is renewed. -/
def Waiting.MeetsSession (db : MediaDb) : Waiting → Prop
  | .recordPart id loaded payload =>
    Recordable db id loaded payload → ∀ r, db.sessions.get id = some r → r.status = .active
  | .delete id loaded =>
    loaded.status ≠ .aborted → ∀ r, db.sessions.get id = some r → r.status ≠ .completed
  | .renew _ loaded _ => loaded.status ≠ .active
  | _ => True

def MeetsSession (s : UploadState) (x : UploadStep) : Prop :=
  ∀ i w, x = .serve i → s.waiting.get i = some (some w) → w.MeetsSession s.db

/-- A session that a renewal loaded when it was over is still over. -/
def UploadState.RenewalsCurrent (s : UploadState) : Prop :=
  ∀ i id loaded drawn, s.waiting.get i = some (some (.renew id loaded drawn)) →
    ∃ r, s.db.sessions.get id = some r ∧ (loaded.status ≠ .active → r.status ≠ .active)

section Steps
variable {settings : MediaSettings} {text : TextLib} {now : Time} {db t : MediaDb} {w : Waiting}

theorem settles_of_eq (hs : t.sessions = db.sessions) (hp : t.parts = db.parts) : db.Settles t := by
  intro id r hr
  have hparts : t.partsOf id = db.partsOf id := by
    simp only [MediaDb.partsOf, MediaDb.partIds, hp]
  exact ⟨r, hs ▸ hr, fun _ => ⟨rfl, rfl, hparts⟩⟩

theorem partsOf_recordPart (id other : Id) (loaded : MediaUploadSession)
    (payload : ResumablePartRequest) :
    (db.recordPart id loaded payload).partsOf other =
      db.partsOf other ++ if id = other then [newPart id payload] else [] := by
  have hold : ∀ ids : List Id, (∀ k ∈ ids, k < db.parts.size) →
      ids.filterMap (db.parts.insert (newPart id payload)).get = ids.filterMap db.parts.get := by
    intro ids hids
    refine List.filterMap_congr fun k hk => ?_
    rw [Table.get_insert, if_neg (hids k hk).ne]
  have hbelow : ∀ k ∈ db.partIds other, k < db.parts.size := by
    intro k hk
    obtain ⟨p, hp, -⟩ := Table.mem_select.mp hk
    exact Table.lt_size hp
  have hids : (db.recordPart id loaded payload).partIds other =
      db.partIds other ++ if id = other then [db.parts.size] else [] := by
    have hselect := Table.select_insert db.parts (newPart id payload)
      fun p => decide (p.uploadSessionId = other)
    refine hselect.trans (congrArg (db.partIds other ++ ·) ?_)
    by_cases hid : id = other <;> simp [newPart, hid]
  simp only [MediaDb.partsOf]
  rw [hids, List.filterMap_append]
  change (db.partIds other).filterMap (db.parts.insert (newPart id payload)).get ++ _ = _
  rw [hold _ hbelow]
  split_ifs
  · have hnew : (db.recordPart id loaded payload).parts.get db.parts.size =
        some (newPart id payload) := Table.get_insert_size _ _
    rw [List.filterMap_cons, hnew, List.filterMap_nil]
  · rfl

theorem saveSession_settles {id : Id} {loaded new : MediaUploadSession} (hp : t.parts = db.parts)
    (hs : t.sessions = db.sessions.modify id (loaded.save new))
    (hactive : ∀ r, db.sessions.get id = some r → r.status ≠ .active →
      (loaded.save new r).status = r.status ∧ (loaded.save new r).confirmedBytes = r.confirmedBytes) :
    db.Settles t := by
  intro other r hr
  have hparts : t.partsOf other = db.partsOf other := by
    simp only [MediaDb.partsOf, MediaDb.partIds, hp]
  rw [hs, Table.get_modify, hr]
  split_ifs with hid
  · subst hid
    refine ⟨_, rfl, fun hover => ?_⟩
    obtain ⟨hstatus, hbytes⟩ := hactive r hr hover
    exact ⟨hstatus, hbytes, hparts⟩
  · exact ⟨r, rfl, fun _ => ⟨rfl, rfl, hparts⟩⟩

theorem SessionsStep.settles (h : SessionsStep settings now db t w) (hw : w.MeetsSession db) :
    db.Settles t := by
  cases h with
  | none _ hs hp => exact settles_of_eq hs hp
  | created m device payload drawn _ hs hp =>
    intro id r hr
    have hparts : t.partsOf id = db.partsOf id := by
      simp only [MediaDb.partsOf, MediaDb.partIds, hp]
    exact ⟨r, by rw [hs]; exact Table.get_insert_of_some _ hr, fun _ => ⟨rfl, rfl, hparts⟩⟩
  | recorded id loaded payload hrecordable ht =>
    subst ht
    intro other r hr
    by_cases hid : id = other
    · subst hid
      obtain ⟨r', hr', -⟩ := Table.Keeps.modify (f := MediaUploadSession.fixed) db.sessions
        (i := id) (g := loaded.save { loaded with confirmedBytes := _ }) (fun _ => rfl) id r hr
      exact ⟨r', hr', fun hover => absurd (hw hrecordable r hr) hover⟩
    · refine ⟨r, (Table.get_modify_of_ne _ _ hid).trans hr, fun _ => ⟨rfl, rfl, ?_⟩⟩
      rw [partsOf_recordPart, if_neg hid, List.append_nil]
  | deleted id loaded ht =>
    subst ht
    unfold deleteResumableSession
    split_ifs with haborted
    · exact .refl db
    · refine saveSession_settles rfl rfl fun r hr hover => ?_
      have hstatus : r.status = .aborted := by
        have hne := hw haborted r hr
        cases hr' : r.status with
        | active => exact absurd hr' hover
        | completed => exact absurd hr' hne
        | aborted => rfl
      refine ⟨?_, written_unchanged _ _⟩
      exact (written_of_ne (Ne.symm haborted) _).trans hstatus.symm
  | closed m payload id r _ hget _ hactive _ hs hp =>
    refine saveSession_settles hp hs fun q hq hover => ?_
    obtain rfl := Option.some.inj (hget.symm.trans hq)
    exact absurd hactive hover
  | calledBack m key etag size hs hp =>
    intro id r hr
    have hparts : t.partsOf id = db.partsOf id := by
      simp only [MediaDb.partsOf, MediaDb.partIds, hp]
    rw [hs]
    refine ⟨_, by simp only [finishSessions, Table.get_sweep, hr, Option.map_some]; rfl, fun hover => ?_⟩
    rw [if_neg (by simp [hover])]
    exact ⟨rfl, rfl, hparts⟩

theorem uploadStep_settles {s : UploadState} {x : UploadStep} (h : MeetsSession s x) :
    s.db.Settles (uploadStep settings text s x).db := by
  rcases uploadStep_sessions settings text s x with ⟨hs, hp⟩ | ⟨i, w, rfl, hw, hstep⟩
  · exact settles_of_eq hs hp
  · exact hstep.settles (h i w rfl hw)

theorem renewal_fits_iff {s : UploadState} (hs : s.RenewalsCurrent) {i id : Id}
    {loaded : MediaUploadSession} {drawn : UploadToken}
    (hw : s.waiting.get i = some (some (.renew id loaded drawn))) :
    (∀ r, s.db.sessions.get id = some r →
      RenewalFits s.now r (renewResumableSession settings s.now s.db id loaded drawn)) ↔
      loaded.status ≠ .active := by
  obtain ⟨r, hr, hover⟩ := hs i id loaded drawn hw
  rw [renewResumableSession_eq]
  constructor
  · intro hfits hactive
    obtain ⟨-, hcode⟩ := hfits r hr
    rw [if_pos hactive] at hcode
    exact absurd hcode (by decide)
  · intro hne q hq
    obtain rfl := Option.some.inj (hr.symm.trans hq)
    rw [if_neg hne]
    exact ⟨fun hactive => hover hne hactive.1, Or.inl rfl⟩

theorem Waiting.MeetsSession.of_settles {s : UploadState} {i : Id} {w : Waiting}
    (hs : s.RenewalsCurrent) (hw : s.waiting.get i = some (some w))
    (h : RespectsSessions settings text s (.serve i)) : w.MeetsSession s.db := by
  have hserved : (uploadStep settings text s (.serve i)).db =
      commit s.db (serveRequest settings text s.now s.db w) := by
    simp only [uploadStep, hw]
  have hsettles := h.settles
  rw [hserved] at hsettles
  cases w with
  | recordPart id loaded payload =>
    intro hrecordable r hr
    by_contra hover
    rw [serveRequest, recordResumablePart_of_recordable hrecordable, commit_ok] at hsettles
    obtain ⟨r', -, hkept⟩ := hsettles id r hr
    have hparts := (hkept hover).2.2
    rw [partsOf_recordPart, if_pos rfl] at hparts
    exact absurd hparts (by simp)
  | delete id loaded =>
    intro haborted r hr hcompleted
    rw [serveRequest] at hsettles
    obtain ⟨r', hr', hkept⟩ := hsettles id r hr
    obtain ⟨hstatus, -⟩ := hkept (by simp [hcompleted])
    simp only [pure, Except.pure, commit_ok, deleteResumableSession, if_neg haborted,
      MediaDb.saveSession, Table.get_modify_self, hr, Option.map_some, Option.some.injEq] at hr'
    subst hr'
    have hwritten : written loaded.status SessionStatus.aborted r.status = r.status := hstatus
    rw [written_of_ne (Ne.symm haborted), hcompleted] at hwritten
    cases hwritten
  | renew id loaded drawn =>
    exact (renewal_fits_iff hs hw).mp fun r hr => h.renewal i id loaded drawn r rfl hw hr
  | imageIntent device payload => trivial
  | mediaIntent device payload => trivial
  | content m sha256 receivedAt => trivial
  | complete m payload => trivial
  | createSession m device payload drawn => trivial
  | callback m key etag size => trivial
  | answered => trivial

theorem respectsSessions_iff {s : UploadState} (hs : s.RenewalsCurrent) (x : UploadStep) :
    RespectsSessions settings text s x ↔ MeetsSession s x := by
  constructor
  · rintro h i w rfl hw
    exact .of_settles hs hw h
  · intro h
    refine ⟨uploadStep_settles h, ?_⟩
    rintro i id loaded drawn r rfl hw hr
    exact (renewal_fits_iff hs hw).mpr (h i _ rfl hw) r hr

theorem uploadStep_renewalsCurrent {s : UploadState} (hs : s.RenewalsCurrent) (x : UploadStep)
    (h : RespectsSessions settings text s x) : (uploadStep settings text s x).RenewalsCurrent := by
  intro i id loaded drawn hw
  rcases waiting_cases hw with hold | ⟨⟨r, -, hload⟩, hdb⟩
  · obtain ⟨r, hr, hover⟩ := hs i id loaded drawn hold
    obtain ⟨r', hr', hkept⟩ := h.settles id r hr
    refine ⟨r', hr', fun hne => ?_⟩
    rw [(hkept (hover hne)).1]
    exact hover hne
  · have hloaded := loadRequest_isLoaded hload
    exact ⟨loaded, hdb ▸ hloaded, fun hne => hne⟩

end Steps

/-- A run leaves sessions that are over alone and answers renewals as declared exactly when
each of its steps meets its session. -/
theorem sessions_settle_iff (settings : MediaSettings) (text : TextLib) (now : Time)
    (steps : List UploadStep) :
    Along (uploadStep settings text) (RespectsSessions settings text) (.initial now) steps ↔
      Along (uploadStep settings text) MeetsSession (.initial now) steps :=
  along_congr (uploadStep settings text) (I := UploadState.RenewalsCurrent)
    (fun _ x hs => respectsSessions_iff hs x) (fun _ x hs h => uploadStep_renewalsCurrent hs x h)
    fun _ _ _ _ h => nomatch h

namespace Sample

def opened : List UploadStep :=
  [send (.mediaIntent clip), .serve 0, send (.createSession 0 ⟨10, "h", none, ten_pos⟩), .serve 1]

def completed : List UploadStep := twoParts 0 5 ++ [.serve 4]

/-- The third part loads the session before the completion and is served after it. -/
def latePart : List UploadStep :=
  twoParts 0 5 ++ [send (.recordPart 0 0 (half 3 0 (by decide))), .serve 4, .serve 5]

def sessionIs (s : UploadState) (status : SessionStatus) (parts : ℕ) : Bool :=
  (s.db.sessions.get 0).any (·.status = status) && (s.db.partsOf 0).length = parts

end Sample

/-- An active session is not renewed but answered with an unhandled exception; a completed one
becomes aborted when it is deleted, and a part is added to it by a request that came before. -/
theorem sessions_that_are_over_change :
    (∃ r, (Sample.uploads Sample.opened).db.sessions.get 0 = some r ∧ r.status = .active ∧
      (Sample.uploads Sample.opened).now ≤ r.expiresAt ∧
      renewResumableSession Sample.media (Sample.uploads Sample.opened).now
        (Sample.uploads Sample.opened).db 0 r ⟨"token", "f"⟩ = .error internalError) ∧
    Sample.sessionIs (Sample.uploads Sample.completed) .completed 2 = true ∧
    Sample.sessionIs (Sample.uploads (Sample.completed ++ [Sample.send (.delete 0 0), .serve 5]))
      .aborted 2 = true ∧
    Sample.sessionIs (Sample.uploads Sample.latePart) .completed 3 = true :=
  ⟨⟨_, rfl, rfl, by decide +kernel, rfl⟩, by decide +kernel, by decide +kernel, by decide +kernel⟩

end CrisisMosaic
