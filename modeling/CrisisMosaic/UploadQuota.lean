import CrisisMosaic.UploadSessions

/-!
# The quota of active sessions

A device stays within its quota of active and unexpired sessions as long as no
session is created for it while it has reached the quota: no other step adds one,
and time only takes sessions away.
-/

namespace CrisisMosaic
open Relational

def UploadState.WithinQuota (settings : MediaSettings) (s : UploadState) : Prop :=
  ∀ device, s.db.liveSessions s.now device ≤ settings.mediaSingleDeviceActiveSessions

/-- A session that passes the checks and does not expire at once is created for a device that
has not reached its quota. -/
def KeepsQuota (settings : MediaSettings) (s : UploadState) (x : UploadStep) : Prop :=
  ∀ i m device payload drawn, x = .serve i →
    s.waiting.get i = some (some (.createSession m device payload drawn)) →
    checkResumable s.db m device payload = .ok () → 0 < settings.mediaUploadSessionHours →
    s.db.liveSessions s.now device < settings.mediaSingleDeviceActiveSessions

section Steps
variable {settings : MediaSettings} {text : TextLib} {now : Time} {db t : MediaDb} {w : Waiting}

theorem isLive_antitone {later : Time} (h : now ≤ later) {s : MediaUploadSession}
    (hlive : s.isLive later = true) : s.isLive now = true := by
  simp only [MediaUploadSession.isLive, Bool.and_eq_true, decide_eq_true_eq] at hlive ⊢
  exact ⟨hlive.1, h.trans_lt hlive.2⟩

theorem liveSessions_antitone {later : Time} (h : now ≤ later) (db : MediaDb) (device : Id) :
    db.liveSessions later device ≤ db.liveSessions now device := by
  refine Table.length_select_le fun i s hs hsel => ⟨s, hs, ?_⟩
  simp only [Bool.and_eq_true] at hsel ⊢
  exact ⟨hsel.1, isLive_antitone h hsel.2⟩

/-- No assignment makes a session active. -/
theorem isLive_of_save {loaded new s : MediaUploadSession}
    (hnew : new.status = loaded.status ∨ new.status ≠ .active)
    (hlive : (loaded.save new s).isLive now = true) : s.isLive now = true := by
  simp only [MediaUploadSession.isLive, Bool.and_eq_true, decide_eq_true_eq] at hlive ⊢
  refine ⟨?_, hlive.2⟩
  rcases hnew with hsame | hover
  · have hstatus := hlive.1
    simp only [MediaUploadSession.save, hsame, written_unchanged] at hstatus
    exact hstatus
  · rcases written_eq_or loaded.status new.status s.status with hkept | hset
    · exact hkept ▸ hlive.1
    · exact absurd (hset ▸ hlive.1) hover

theorem liveSessions_save_le (id : Id) (loaded new : MediaUploadSession)
    (hs : t.sessions = db.sessions.modify id (loaded.save new))
    (hnew : new.status = loaded.status ∨ new.status ≠ .active) (device : Id) :
    t.liveSessions now device ≤ db.liveSessions now device := by
  rw [MediaDb.liveSessions, hs]
  refine Table.length_select_modify_le _ fun s hsel => ?_
  simp only [Bool.and_eq_true] at hsel ⊢
  exact ⟨hsel.1, isLive_of_save hnew hsel.2⟩

theorem hours_pos {n : ℤ} : 0 < hours n ↔ 0 < n := by
  change (0 : ℤ) < n * 60 * 60000000 ↔ 0 < n
  omega

theorem isLive_newSession (m : Media) (device : Id) (payload : ResumableSessionRequest)
    (drawn : UploadToken) : (newSession settings now m device payload drawn).isLive now =
      decide (0 < settings.mediaUploadSessionHours) := by
  simp only [MediaUploadSession.isLive, newSession, decide_true, Bool.true_and, lt_add_iff_pos_right,
    hours_pos]

/-- A created session counts for its own device. -/
theorem liveSessions_created {m : Media} {device : Id} {payload : ResumableSessionRequest}
    {drawn : UploadToken}
    (hs : t.sessions = db.sessions.insert (newSession settings now m device payload drawn))
    (other : Id) : t.liveSessions now other = db.liveSessions now other +
      if device = other ∧ 0 < settings.mediaUploadSessionHours then 1 else 0 := by
  rw [MediaDb.liveSessions, hs, Table.length_select_insert, isLive_newSession]
  by_cases hown : device = other <;> simp [MediaDb.liveSessions, newSession, hown]

theorem SessionsStep.liveSessions_le (h : SessionsStep settings now db t w)
    (hnot : ∀ m device payload drawn, w ≠ .createSession m device payload drawn) (device : Id) :
    t.liveSessions now device ≤ db.liveSessions now device := by
  cases h with
  | none _ hs _ => rw [MediaDb.liveSessions, hs]; rfl
  | created m device payload drawn => exact absurd rfl (hnot m device payload drawn)
  | recorded id loaded payload _ ht =>
    subst ht
    obtain ⟨confirmed, hs⟩ := db.recordPart_sessions id loaded payload
    exact liveSessions_save_le id loaded _ hs (Or.inl rfl) device
  | deleted id loaded ht =>
    subst ht
    unfold deleteResumableSession
    split_ifs
    · exact le_rfl
    · exact liveSessions_save_le id loaded _ rfl (Or.inr (by simp)) device
  | closed _ _ id r _ _ _ _ _ hs _ => exact liveSessions_save_le id r _ hs (Or.inr (by simp)) device
  | calledBack m key etag size hs _ =>
    rw [MediaDb.liveSessions, hs]
    refine Table.length_select_sweep_le _ fun s hsel => ?_
    simp only [Bool.and_eq_true] at hsel ⊢
    split_ifs at hsel with hactive
    · exact absurd hsel.2 (by simp [MediaUploadSession.isLive])
    · exact hsel

theorem uploadStep_now (s : UploadState) (x : UploadStep) :
    s.now ≤ (uploadStep settings text s x).now := by
  cases x with
  | tick elapsed => exact le_add_of_nonneg_right (by positivity)
  | restart => exact le_rfl
  | arrive r => simp only [uploadStep]; split <;> exact le_rfl
  | serve i => simp only [uploadStep]; split <;> exact le_rfl
  | claim => simp only [uploadStep]; split <;> exact le_rfl
  | load => simp only [uploadStep]; split <;> exact le_rfl
  | execute file remote => simp only [uploadStep]; split <;> exact le_rfl
  | finish => simp only [uploadStep]; split <;> exact le_rfl
  | bindReport report row ids => simp only [uploadStep]; split <;> exact le_rfl
  | rebindReport report row ids => simp only [uploadStep]; split <;> exact le_rfl
  | bindAnswer answer incident device ids => simp only [uploadStep]; split <;> exact le_rfl

theorem serve_now (s : UploadState) (i : Id) : (uploadStep settings text s (.serve i)).now = s.now := by
  simp only [uploadStep]
  split <;> rfl

theorem withinQuota_iff {s : UploadState} (hs : s.WithinQuota settings) (x : UploadStep) :
    (uploadStep settings text s x).WithinQuota settings ↔ KeepsQuota settings s x := by
  constructor
  · rintro hquota i m device payload drawn rfl hw hchecked hlasts
    have hafter := hquota device
    have hserved : (uploadStep settings text s (.serve i)).db.sessions =
        s.db.sessions.insert (newSession settings s.now m device payload drawn) := by
      simp only [uploadStep, hw, serveRequest, createResumableSession, hchecked, bind, Except.bind,
        pure, Except.pure, commit_ok]
    rw [serve_now, liveSessions_created hserved, if_pos ⟨rfl, hlasts⟩] at hafter
    exact hafter
  · intro hkeeps device
    have hbefore := hs device
    rcases uploadStep_sessions settings text s x with ⟨hsame, -⟩ | ⟨i, w, rfl, hw, hstep⟩
    · have hcount : ∀ now, (uploadStep settings text s x).db.liveSessions now device =
          s.db.liveSessions now device := by
        intro now
        rw [MediaDb.liveSessions, hsame]
        rfl
      rw [hcount]
      exact (liveSessions_antitone (uploadStep_now s x) _ _).trans hbefore
    · rw [serve_now]
      by_cases hcreate : ∃ m owner payload drawn, w = .createSession m owner payload drawn
      · obtain ⟨m, owner, payload, drawn, rfl⟩ := hcreate
        cases hstep with
        | none _ hsame _ =>
          rw [MediaDb.liveSessions, hsame]
          exact hbefore
        | created _ _ _ _ hchecked hs =>
          rw [liveSessions_created hs]
          split_ifs with hown
          · obtain ⟨rfl, hlasts⟩ := hown
            exact hkeeps i m owner payload drawn rfl hw hchecked hlasts
          · exact hbefore
      · simp only [not_exists] at hcreate
        exact (hstep.liveSessions_le hcreate device).trans hbefore

end Steps

/-- Along a run every device stays within its quota exactly when no session is created for a
device that has reached it. -/
theorem sessions_within_quota_iff (settings : MediaSettings) (text : TextLib) (now : Time)
    (steps : List UploadStep) :
    Along (uploadStep settings text)
        (fun s x => (uploadStep settings text s x).WithinQuota settings) (.initial now) steps ↔
      Along (uploadStep settings text) (KeepsQuota settings) (.initial now) steps :=
  along_congr (uploadStep settings text) (I := UploadState.WithinQuota settings)
    (fun _ x hs => withinQuota_iff hs x) (fun _ _ _ h => h)
    fun _ => Nat.zero_le _

/-- With a quota of one, a second session is opened for the same clip. -/
theorem second_session_exceeds_quota :
    ¬ (Sample.uploads (Sample.opened ++
      [Sample.send (.createSession 0 ⟨10, "h", none, by decide⟩), .serve 2])).WithinQuota
        Sample.media := by
  intro h
  have hcount := h 0
  exact absurd hcount (by decide +kernel)

end CrisisMosaic
