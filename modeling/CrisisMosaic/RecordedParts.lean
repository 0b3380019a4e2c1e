import CrisisMosaic.UploadSessions

/-!
# What a session says of its parts

The payload of a session lists the confirmed parts and the stretches of the file that no
part covers. While a session is active the payload depends only on which parts were sent,
not on their order or on how often.
-/

namespace CrisisMosaic
open Relational Ranges

theorem missingParts_contains {db : MediaDb} {id : Id} {r : MediaUploadSession}
    (hwithin : ∀ q ∈ db.ranges id, q.Within r.expectedSizeBytes) (b : ℕ) :
    (∃ g ∈ missingParts db id r, Range.Contains (g.1, g.1 + g.2) b) ↔
      b < r.expectedSizeBytes ∧ ¬ Covered (db.ranges id) b := by
  have hgaps := gapsFrom_contains (sortedRanges_within hwithin) (db.sorted_sortedRanges id) 0 b
  rw [missingParts_eq hwithin, hgaps, db.covered_sortedRanges]
  simp only [Nat.zero_le, true_and]

theorem ranges_within_of_parts {db : MediaDb} {id : Id} {limit : ℕ}
    (hparts : ∀ p ∈ db.partsOf id, 1 ≤ p.sizeBytes ∧ p.offset + p.sizeBytes ≤ limit) :
    ∀ q ∈ db.ranges id, q.Within limit := by
  intro q hq
  obtain ⟨p, hp, rfl⟩ := List.mem_map.mp hq
  obtain ⟨hsize, hstop⟩ := hparts p hp
  exact ⟨Nat.lt_add_of_pos_right hsize, hstop⟩

/-- The missing parts of the payload are the complement of the recorded parts in the file. -/
theorem missing_parts_complement_recorded (host : String) (db : MediaDb) (id : Id)
    (r : MediaUploadSession) (token : Option String)
    (hparts : ∀ p ∈ db.partsOf id,
      1 ≤ p.sizeBytes ∧ p.offset + p.sizeBytes ≤ r.expectedSizeBytes) :
    ∃ gaps : List (ℕ × ℕ),
      (resumableSessionPayload host db id r token).get "missing_parts" =
        some (.arr (gaps.map missingPart)) ∧
      (∀ g ∈ gaps, 0 < g.2 ∧ g.1 + g.2 ≤ r.expectedSizeBytes) ∧
      gaps.Pairwise (fun g h => g.1 + g.2 < h.1) ∧
      ∀ b < r.expectedSizeBytes,
        (∃ g ∈ gaps, g.1 ≤ b ∧ b < g.1 + g.2) ↔
          ¬ ∃ p ∈ db.partsOf id, p.offset ≤ b ∧ b < p.offset + p.sizeBytes := by
  have hwithin := ranges_within_of_parts hparts
  have hsorted := sortedRanges_within hwithin
  refine ⟨missingParts db id r, rfl, ?_, ?_, ?_⟩
  · intro g hg
    rw [missingParts_eq hwithin] at hg
    exact (mem_gapsFrom hsorted hg).2
  · rw [missingParts_eq hwithin]
    exact pairwise_gapsFrom hsorted 0
  · intro b hb
    have hcovered : Covered (db.ranges id) b ↔
        ∃ p ∈ db.partsOf id, p.offset ≤ b ∧ b < p.offset + p.sizeBytes := by
      simp only [Covered, MediaDb.ranges, List.mem_map, exists_exists_and_eq_and]
      rfl
    rw [← hcovered]
    exact (missingParts_contains hwithin b).trans (and_iff_right hb)

/-- Two overlapping halves leave the first two bytes and the last one open. -/
theorem overlapping_halves_leave_ends : ∃ (r : MediaUploadSession) (gaps : List (ℕ × ℕ)),
    (Sample.uploads (Sample.twoParts 4 2)).db.sessions.get 0 = some r ∧
    missingParts (Sample.uploads (Sample.twoParts 4 2)).db 0 r = [(0, 2), (9, 1)] ∧
    (resumableSessionPayload "" (Sample.uploads (Sample.twoParts 4 2)).db 0 r none).get
      "missing_parts" = some (.arr (gaps.map missingPart)) ∧
    ¬ ∃ g ∈ gaps, g.1 ≤ 8 ∧ 8 < g.1 + g.2 := by
  obtain ⟨r, hr⟩ : ∃ r, (Sample.uploads (Sample.twoParts 4 2)).db.sessions.get 0 = some r :=
    ⟨_, rfl⟩
  have hten : r.expectedSizeBytes = 10 := by
    obtain rfl := Option.some.inj hr
    rfl
  obtain ⟨gaps, hget, -, -, hcovered⟩ := missing_parts_complement_recorded ""
    (Sample.uploads (Sample.twoParts 4 2)).db 0 r none (by rw [hten]; decide +kernel)
  refine ⟨r, gaps, hr, ?_, hget, fun h => ?_⟩
  · obtain rfl := Option.some.inj hr
    decide +kernel
  · exact (hcovered 8 (by rw [hten]; decide)).mp h (by decide +kernel)

/-! ### Recording parts in any order -/

/-- The part request for the session that a step answers under the lock. -/
def servedPart (id : Id) (s : UploadState) : UploadStep → Option ResumablePartRequest
  | .serve i =>
    match s.waiting.get i with
    | some (some (.recordPart session _ payload)) => if session = id then some payload else none
    | _ => none
  | _ => none

def servedParts (settings : MediaSettings) (text : TextLib) (id : Id) :
    UploadState → List UploadStep → List ResumablePartRequest
  | _, [] => []
  | s, x :: steps =>
    (servedPart id s x).toList ++ servedParts settings text id (uploadStep settings text s x) steps

/-- The session as a request reads it. -/
def UploadState.sessionPayload (host : String) (s : UploadState) (id : Id) (token : Option String) :
    Option Dict :=
  (s.db.sessions.get id).map fun r => resumableSessionPayload host s.db id r token

/-- The session is still active after the step. -/
def StaysActive (settings : MediaSettings) (text : TextLib) (id : Id) (s : UploadState)
    (x : UploadStep) : Prop :=
  ∃ r, (uploadStep settings text s x).db.sessions.get id = some r ∧ r.status = .active

/-- The confirmed bytes add up the parts, part numbers are unique in a session, and a request
that waits with a session loaded it no later than it is. -/
structure UploadState.Confirmed (s : UploadState) : Prop where
  summed : s.db.sessions.All fun id r => r.confirmedBytes = s.db.confirmedSize id
  numbered : ∀ id, ((s.db.partsOf id).map (·.partNumber)).Nodup
  waiting : ∀ i id loaded payload, s.waiting.get i = some (some (.recordPart id loaded payload)) →
    loaded.confirmedBytes ≤ s.db.confirmedSize id ∧
      ∀ r, s.db.sessions.get id = some r → r.status = .active → loaded.status = .active

section Recording
variable {settings : MediaSettings} {text : TextLib} {now : Time} {db t : MediaDb} {w : Waiting}

theorem confirmedSize_recordPart (id other : Id) (loaded : MediaUploadSession)
    (payload : ResumablePartRequest) :
    (db.recordPart id loaded payload).confirmedSize other =
      db.confirmedSize other + if id = other then payload.sizeBytes else 0 := by
  simp only [MediaDb.confirmedSize, partsOf_recordPart, List.map_append, List.sum_append]
  split_ifs <;> simp [newPart]

theorem recordPart_session {id : Id} {r loaded : MediaUploadSession}
    {payload : ResumablePartRequest} (hr : db.sessions.get id = some r)
    (hle : loaded.confirmedBytes ≤ db.confirmedSize id) :
    (db.recordPart id loaded payload).sessions.get id =
      some { r with confirmedBytes := (db.recordPart id loaded payload).confirmedSize id } := by
  have hsize : (db.recordPart id loaded payload).confirmedSize id =
      db.confirmedSize id + payload.sizeBytes := by
    rw [confirmedSize_recordPart, if_pos rfl]
  have hne : (db.recordPart id loaded payload).confirmedSize id ≠ loaded.confirmedBytes := by
    have := payload.nonempty
    omega
  change (db.sessions.modify id (loaded.save { loaded with
    confirmedBytes := (db.recordPart id loaded payload).confirmedSize id })).get id = _
  rw [Table.get_modify_self, hr, Option.map_some]
  simp only [MediaUploadSession.save, written_unchanged, written_of_ne hne]

/-- A session keeps its confirmed bytes and parts, and as long as it is active its whole row,
unless a part is recorded in it. -/
theorem SessionsStep.session_cases (h : SessionsStep settings now db t w) {id : Id}
    {r : MediaUploadSession} (hr : db.sessions.get id = some r) :
    (∃ r', t.sessions.get id = some r' ∧ r'.confirmedBytes = r.confirmedBytes ∧
      (r'.status = .active → r' = r) ∧ t.partsOf id = db.partsOf id) ∨
    ∃ loaded payload, w = .recordPart id loaded payload ∧ Recordable db id loaded payload ∧
      t = db.recordPart id loaded payload := by
  have hparts : t.parts = db.parts → t.partsOf id = db.partsOf id := by
    intro hp
    simp only [MediaDb.partsOf, MediaDb.partIds, hp]
  have hover : ∀ {k : Id} {loaded new : MediaUploadSession}, t.parts = db.parts →
      t.sessions = db.sessions.modify k (loaded.save new) →
      new.confirmedBytes = loaded.confirmedBytes →
      (loaded.save new r).status ≠ .active →
        ∃ r', t.sessions.get id = some r' ∧ r'.confirmedBytes = r.confirmedBytes ∧
          (r'.status = .active → r' = r) ∧ t.partsOf id = db.partsOf id := by
    intro k loaded new hp hs hbytes hstatus
    rw [hs, Table.get_modify, hr]
    split_ifs
    · refine ⟨_, rfl, ?_, fun hactive => absurd hactive hstatus, hparts hp⟩
      change written loaded.confirmedBytes new.confirmedBytes r.confirmedBytes = _
      rw [hbytes, written_unchanged]
    · exact ⟨r, rfl, rfl, fun _ => rfl, hparts hp⟩
  cases h with
  | none _ hs hp => exact Or.inl ⟨r, hs ▸ hr, rfl, fun _ => rfl, hparts hp⟩
  | created m device payload drawn _ hs hp =>
    exact Or.inl ⟨r, hs ▸ Table.get_insert_of_some _ hr, rfl, fun _ => rfl, hparts hp⟩
  | recorded k loaded payload hrecordable ht =>
    subst ht
    by_cases hk : k = id
    · subst hk
      exact Or.inr ⟨loaded, payload, rfl, hrecordable, rfl⟩
    · refine Or.inl ⟨r, (Table.get_modify_of_ne _ _ hk).trans hr, rfl, fun _ => rfl, ?_⟩
      rw [partsOf_recordPart, if_neg hk, List.append_nil]
  | deleted k loaded ht =>
    subst ht
    unfold deleteResumableSession at hover hparts ⊢
    split_ifs at hover hparts ⊢ with haborted
    · exact Or.inl ⟨r, hr, rfl, fun _ => rfl, rfl⟩
    · refine Or.inl (hover rfl rfl rfl ?_)
      change written loaded.status SessionStatus.aborted r.status ≠ .active
      rw [written_of_ne (Ne.symm haborted)]
      decide
  | closed m payload k q _ hget _ hactive _ hs hp =>
    by_cases hk : k = id
    · subst hk
      obtain rfl := Option.some.inj (hget.symm.trans hr)
      refine Or.inl (hover hp hs rfl ?_)
      change written q.status SessionStatus.completed q.status ≠ .active
      rw [written_loaded]
      decide
    · exact Or.inl ⟨r, by rw [hs, Table.get_modify_of_ne _ _ hk, hr], rfl, fun _ => rfl, hparts hp⟩
  | calledBack m key etag size hs hp =>
    refine Or.inl ?_
    rw [hs]
    simp only [finishSessions, Table.get_sweep, hr, Option.map_some]
    refine ⟨_, rfl, ?_, ?_, hparts hp⟩
    · split_ifs <;> rfl
    · split_ifs
      · rintro ⟨⟩
      · exact fun _ => rfl

/-- The parts of a session are those it had, and the one just recorded. -/
theorem SessionsStep.partsOf_cases (h : SessionsStep settings now db t w) (id : Id) :
    t.partsOf id = db.partsOf id ∨ ∃ loaded payload, w = .recordPart id loaded payload ∧
      Recordable db id loaded payload ∧ t = db.recordPart id loaded payload := by
  have hparts : t.parts = db.parts → t.partsOf id = db.partsOf id := by
    intro hp
    simp only [MediaDb.partsOf, MediaDb.partIds, hp]
  cases h with
  | none _ _ hp => exact Or.inl (hparts hp)
  | created _ _ _ _ _ _ hp => exact Or.inl (hparts hp)
  | recorded k loaded payload hrecordable ht =>
    subst ht
    by_cases hk : k = id
    · subst hk
      exact Or.inr ⟨loaded, payload, rfl, hrecordable, rfl⟩
    · rw [partsOf_recordPart, if_neg hk, List.append_nil]
      exact Or.inl rfl
  | deleted k loaded ht =>
    subst ht
    unfold deleteResumableSession
    split_ifs <;> exact Or.inl rfl
  | closed _ _ _ _ _ _ _ _ _ _ hp => exact Or.inl (hparts hp)
  | calledBack _ _ _ _ _ hp => exact Or.inl (hparts hp)

/-- A number is new when no part of the session has it. -/
theorem find_part_none {id : Id} {number : ℕ} :
    (db.parts.find fun p => p.uploadSessionId = id && p.partNumber = number) = none ↔
      ∀ p ∈ db.partsOf id, p.partNumber ≠ number := by
  constructor
  · intro hnone p hp hnumber
    obtain ⟨i, hget, hid⟩ := MediaDb.mem_partsOf.mp hp
    have := Table.find_none hnone hget
    simp [hid, hnumber] at this
  · intro hnew
    by_contra hsome
    obtain ⟨⟨i, p⟩, hp⟩ := Option.ne_none_iff_exists'.mp hsome
    obtain ⟨hget, hkeep⟩ := Table.find_some hp
    simp only [Bool.and_eq_true, decide_eq_true_eq] at hkeep
    exact hnew p (MediaDb.mem_partsOf.mpr ⟨i, hget, hkeep.1⟩) hkeep.2

theorem confirmedSize_le (h : SessionsStep settings now db t w) (id : Id) :
    db.confirmedSize id ≤ t.confirmedSize id := by
  rcases h.partsOf_cases id with hparts | ⟨loaded, payload, -, -, rfl⟩
  · simp only [MediaDb.confirmedSize, hparts, le_refl]
  · rw [confirmedSize_recordPart]
    exact Nat.le_add_right _ _

end Recording

section Invariant
variable {settings : MediaSettings} {text : TextLib} {s : UploadState}

theorem SessionsStep.summed {t : MediaDb} {w : Waiting}
    (h : SessionsStep settings s.now s.db t w) (hs : s.Confirmed) (hf : s.Fits) {i : Id}
    (hw : s.waiting.get i = some (some w)) :
    t.sessions.All fun id r => r.confirmedBytes = t.confirmedSize id := by
  intro id r' hr'
  cases hr : s.db.sessions.get id with
  | some r =>
    rcases h.session_cases hr with ⟨q, hq, hbytes, -, hparts⟩ | ⟨loaded, payload, rfl, -, rfl⟩
    · obtain rfl := Option.some.inj (hq.symm.trans hr')
      rw [hbytes, hs.summed id r hr]
      simp only [MediaDb.confirmedSize, hparts]
    · rw [recordPart_session hr (hs.waiting i id loaded payload hw).1] at hr'
      obtain rfl := Option.some.inj hr'
      rfl
  | none =>
    -- a session that was not there has no parts
    have hnil : s.db.partsOf id = [] := by
      apply List.eq_nil_iff_forall_not_mem.mpr
      intro p hp
      obtain ⟨k, hget, rfl⟩ := MediaDb.mem_partsOf.mp hp
      obtain ⟨r, hr'', -⟩ := hf.within k p hget
      cases hr.symm.trans hr''
    rcases h.partsOf_cases id with hparts | ⟨loaded, payload, rfl, -, -⟩
    · rcases h.row_cases hr' with ⟨q, hq, -⟩ | ⟨m, device, payload, drawn, -, -, rfl⟩
      · cases hr.symm.trans hq
      · simp only [MediaDb.confirmedSize, hparts, hnil]
        rfl
    · obtain ⟨r, hr'', -⟩ := hf.waiting i _ hw
      cases hr.symm.trans hr''

theorem SessionsStep.numbered {t : MediaDb} {w : Waiting}
    (h : SessionsStep settings s.now s.db t w) (hs : s.Confirmed) (id : Id) :
    ((t.partsOf id).map (·.partNumber)).Nodup := by
  rcases h.partsOf_cases id with hparts | ⟨loaded, payload, rfl, hrecordable, rfl⟩
  · exact hparts ▸ hs.numbered id
  · rw [partsOf_recordPart, if_pos rfl, List.map_append, List.nodup_append]
    refine ⟨hs.numbered id, List.nodup_singleton _, ?_⟩
    intro number hnumber new hnew
    obtain ⟨p, hp, rfl⟩ := List.mem_map.mp hnumber
    obtain rfl := List.mem_singleton.mp hnew
    exact find_part_none.mp hrecordable.new p hp

theorem uploadStep_confirmed (hf : s.Fits) (hs : s.Confirmed) (x : UploadStep) :
    (uploadStep settings text s x).Confirmed := by
  have hstep := uploadStep_sessions settings text s x
  refine ⟨?_, ?_, ?_⟩
  · rcases hstep with ⟨hsessions, hparts⟩ | ⟨i, w, -, hw, hserved⟩
    · rw [hsessions]
      intro id r hr
      simp only [MediaDb.confirmedSize, MediaDb.partsOf, MediaDb.partIds, hparts]
      exact hs.summed id r hr
    · exact hserved.summed hs hf hw
  · intro id
    rcases hstep with ⟨-, hparts⟩ | ⟨i, w, -, hw, hserved⟩
    · simp only [MediaDb.partsOf, MediaDb.partIds, hparts]
      exact hs.numbered id
    · exact hserved.numbered hs id
  · intro k id loaded payload hw
    rcases waiting_cases hw with hold | ⟨⟨r, -, hload⟩, hdb⟩
    · obtain ⟨hle, hactive⟩ := hs.waiting k id loaded payload hold
      obtain ⟨q, hq, -⟩ := hf.waiting k _ hold
      rcases hstep with ⟨hsessions, hparts⟩ | ⟨i, w, -, hw, hserved⟩
      · rw [hsessions]
        simp only [MediaDb.confirmedSize, MediaDb.partsOf, MediaDb.partIds, hparts]
        exact ⟨hle, hactive⟩
      · refine ⟨hle.trans (confirmedSize_le hserved id), fun r hr hr' => ?_⟩
        rcases hserved.session_cases hq with ⟨r', hget, -, hkept, -⟩ | ⟨l, p, rfl, -, ht⟩
        · obtain rfl := Option.some.inj (hget.symm.trans hr)
          exact hactive q hq (hkept hr' ▸ hr')
        · rw [ht, recordPart_session hq (hs.waiting i id l p hw).1] at hr
          obtain rfl := Option.some.inj hr
          exact hactive q hq hr'
    · have hloaded : s.db.sessions.get id = some loaded := loadRequest_isLoaded hload
      rw [hdb]
      refine ⟨(hs.summed id loaded hloaded).le, fun r hr hr' => ?_⟩
      obtain rfl := Option.some.inj (hloaded.symm.trans hr)
      exact hr'

end Invariant

theorem run_confirmed (settings : MediaSettings) (text : TextLib) {s : UploadState} (hf : s.Fits)
    (hs : s.Confirmed) (steps : List UploadStep) :
    (run (uploadStep settings text) s steps).Fits ∧
      (run (uploadStep settings text) s steps).Confirmed :=
  run_invariant (uploadStep settings text) (I := fun s => s.Fits ∧ s.Confirmed)
    (fun _ x h _ => ⟨uploadStep_fits h.1 x, uploadStep_confirmed h.1 h.2 x⟩) ⟨hf, hs⟩
    (along_true (uploadStep settings text) s steps)

theorem UploadState.initial_confirmed (now : Time) : (UploadState.initial now).Confirmed :=
  ⟨fun _ _ h => (nomatch h), fun _ => List.nodup_nil, fun _ _ _ _ h => (nomatch h)⟩

/-- A request that the session records: in range, with a number none of its parts has. -/
structure MediaDb.AcceptsPart (db : MediaDb) (id : Id) (r : MediaUploadSession)
    (payload : ResumablePartRequest) : Prop where
  inRange : payload.offset + payload.sizeBytes ≤ r.expectedSizeBytes
  new : ∀ p ∈ db.partsOf id, p.partNumber ≠ payload.partNumber

section Serving
variable {settings : MediaSettings} {text : TextLib} {s : UploadState} {id : Id}
  {r : MediaUploadSession}

theorem servedPart_some {x : UploadStep} {payload : ResumablePartRequest}
    (h : servedPart id s x = some payload) :
    ∃ i loaded, x = .serve i ∧ s.waiting.get i = some (some (.recordPart id loaded payload)) := by
  unfold servedPart at h
  split at h
  · next i =>
    split at h
    · next session loaded q hw =>
      split_ifs at h with hid
      · obtain rfl := Option.some.inj h
        exact ⟨i, loaded, rfl, hid ▸ hw⟩
    · exact nomatch h
  · exact nomatch h

theorem servedPart_of_waiting {i : Id} {loaded : MediaUploadSession}
    {payload : ResumablePartRequest}
    (hw : s.waiting.get i = some (some (.recordPart id loaded payload))) :
    servedPart id s (.serve i) = some payload := by
  simp only [servedPart, hw, if_true]

/-- What a waiting request loaded is the size of the session. -/
theorem UploadState.Fits.expected (hf : s.Fits) {i : Id} {loaded : MediaUploadSession}
    {payload : ResumablePartRequest} (hr : s.db.sessions.get id = some r)
    (hw : s.waiting.get i = some (some (.recordPart id loaded payload))) :
    loaded.expectedSizeBytes = r.expectedSizeBytes := by
  obtain ⟨q, hq, hfixed⟩ := hf.waiting i _ hw
  obtain rfl := Option.some.inj (hr.symm.trans hq)
  simp only [MediaUploadSession.fixed, Prod.mk.injEq] at hfixed
  exact hfixed.2.2.1.symm

theorem recordable_iff (hf : s.Fits) (hs : s.Confirmed) {i : Id} {loaded : MediaUploadSession}
    {payload : ResumablePartRequest} (hr : s.db.sessions.get id = some r)
    (hactive : r.status = .active)
    (hw : s.waiting.get i = some (some (.recordPart id loaded payload))) :
    Recordable s.db id loaded payload ↔ s.db.AcceptsPart id r payload := by
  have hexpected := hf.expected hr hw
  have hloaded := (hs.waiting i id loaded payload hw).2 r hr hactive
  constructor
  · intro h
    exact ⟨hexpected ▸ h.inRange, find_part_none.mp h.new⟩
  · intro h
    exact ⟨hloaded, hexpected ▸ h.inRange, find_part_none.mpr h.new⟩

/-- A part that the session accepts is recorded. -/
theorem uploadStep_accepted (settings : MediaSettings) (text : TextLib) (hf : s.Fits)
    (hs : s.Confirmed) {x : UploadStep} {q : ResumablePartRequest} (hr : s.db.sessions.get id = some r) (hactive : r.status = .active)
    (hq : servedPart id s x = some q) (haccepts : s.db.AcceptsPart id r q) :
    ∃ loaded : MediaUploadSession, loaded.confirmedBytes ≤ s.db.confirmedSize id ∧
      (uploadStep settings text s x).db = s.db.recordPart id loaded q := by
  obtain ⟨i, loaded, rfl, hw⟩ := servedPart_some hq
  refine ⟨loaded, (hs.waiting i id loaded q hw).1, ?_⟩
  have hrecordable := (recordable_iff hf hs hr hactive hw).mpr haccepts
  simp only [uploadStep, hw, serveRequest, recordResumablePart_of_recordable hrecordable, commit_ok]

/-- A step that leaves the session active and records no part in it changes nothing of it. -/
theorem uploadStep_unaccepted (hf : s.Fits) (hs : s.Confirmed) {x : UploadStep}
    (hr : s.db.sessions.get id = some r) (hactive : r.status = .active)
    (hstays : StaysActive settings text id s x)
    (hnone : ∀ q, servedPart id s x = some q → ¬ s.db.AcceptsPart id r q) :
    (uploadStep settings text s x).db.sessions.get id = some r ∧
      (uploadStep settings text s x).db.partsOf id = s.db.partsOf id := by
  rcases uploadStep_sessions settings text s x with ⟨hsessions, hparts⟩ | ⟨i, w, rfl, hw, hstep⟩
  · refine ⟨hsessions ▸ hr, ?_⟩
    simp only [MediaDb.partsOf, MediaDb.partIds, hparts]
  · rcases hstep.session_cases hr with ⟨r', hr', -, hkept, hparts⟩ | ⟨loaded, q, rfl, hrec, -⟩
    · obtain ⟨q, hq, hqa⟩ := hstays
      obtain rfl := Option.some.inj (hr'.symm.trans hq)
      exact ⟨hkept hqa ▸ hr', hparts⟩
    · have haccepts := (recordable_iff hf hs hr hactive hw).mp hrec
      exact absurd haccepts (hnone q (servedPart_of_waiting hw))

/-- What a step that leaves the session active does to it: the part it answers is recorded if
the session accepts it, and nothing else changes. -/
theorem uploadStep_parts (hf : s.Fits) (hs : s.Confirmed) {x : UploadStep}
    (hr : s.db.sessions.get id = some r) (hactive : r.status = .active)
    (hstays : StaysActive settings text id s x) :
    (uploadStep settings text s x).db.sessions.get id =
        some { r with confirmedBytes := (uploadStep settings text s x).db.confirmedSize id } ∧
      ∀ p, p ∈ (uploadStep settings text s x).db.partsOf id ↔ p ∈ s.db.partsOf id ∨
        ∃ q, servedPart id s x = some q ∧ s.db.AcceptsPart id r q ∧ p = newPart id q := by
  by_cases hserved : ∃ q, servedPart id s x = some q ∧ s.db.AcceptsPart id r q
  · obtain ⟨q, hq, haccepts⟩ := hserved
    obtain ⟨loaded, hle, hdb⟩ := uploadStep_accepted settings text hf hs hr hactive hq haccepts
    rw [hdb]
    refine ⟨recordPart_session hr hle, fun p => ?_⟩
    rw [partsOf_recordPart, if_pos rfl, List.mem_append, List.mem_singleton]
    refine or_congr_right ⟨fun hp => ⟨q, hq, haccepts, hp⟩, ?_⟩
    rintro ⟨q', hq', -, hp⟩
    rw [hp, Option.some.inj (hq.symm.trans hq')]
  · have hnone : ∀ q, servedPart id s x = some q → ¬ s.db.AcceptsPart id r q :=
      fun q hq haccepts => hserved ⟨q, hq, haccepts⟩
    obtain ⟨hget, hparts⟩ := uploadStep_unaccepted hf hs hr hactive hstays hnone
    have hsize : r.confirmedBytes = (uploadStep settings text s x).db.confirmedSize id := by
      simp only [hs.summed id r hr, MediaDb.confirmedSize, hparts]
    rw [hget, ← hsize, hparts]
    refine ⟨rfl, fun p => (or_iff_left ?_).symm⟩
    rintro ⟨q, hq, haccepts, -⟩
    exact hnone q hq haccepts

end Serving

section Runs
variable {settings : MediaSettings} {text : TextLib} {id : Id}

/-- Requests with the same part number are the same request. -/
def Consistent (served : List ResumablePartRequest) : Prop :=
  ∀ p ∈ served, ∀ q ∈ served, p.partNumber = q.partNumber → p = q

/-- After a run that leaves the session active its parts are those it had and, of the requests
it was sent, those it accepted at the start. -/
theorem run_parts {s : UploadState} {r : MediaUploadSession} {steps : List UploadStep}
    (hf : s.Fits) (hs : s.Confirmed) (hr : s.db.sessions.get id = some r)
    (hactive : r.status = .active)
    (hstays : Along (uploadStep settings text) (StaysActive settings text id) s steps)
    (hsame : Consistent (servedParts settings text id s steps)) :
    (run (uploadStep settings text) s steps).db.sessions.get id =
        some { r with
          confirmedBytes := (run (uploadStep settings text) s steps).db.confirmedSize id } ∧
      ∀ p, p ∈ (run (uploadStep settings text) s steps).db.partsOf id ↔ p ∈ s.db.partsOf id ∨
        ∃ q ∈ servedParts settings text id s steps, s.db.AcceptsPart id r q ∧ p = newPart id q := by
  induction steps generalizing s r with
  | nil =>
    rw [run_nil, ← hs.summed id r hr]
    exact ⟨hr, fun p => by simp [servedParts]⟩
  | cons x steps ih =>
    obtain ⟨hrow, hparts⟩ := uploadStep_parts hf hs hr hactive hstays.1
    have htail : Consistent (servedParts settings text id (uploadStep settings text s x) steps) :=
      fun p hp q hq => hsame p (List.mem_append_right _ hp) q (List.mem_append_right _ hq)
    obtain ⟨hlast, hall⟩ := ih (uploadStep_fits hf x) (uploadStep_confirmed hf hs x) hrow hactive
      hstays.2 htail
    refine ⟨hlast, fun p => ?_⟩
    rw [run_cons, hall, hparts]
    simp only [servedParts, List.mem_append, Option.mem_toList]
    constructor
    · rintro ((hp | ⟨q, hq, haccepts, hp⟩) | ⟨q, hq, haccepts, hp⟩)
      · exact Or.inl hp
      · exact Or.inr ⟨q, Or.inl hq, haccepts, hp⟩
      · refine Or.inr ⟨q, Or.inr hq, ⟨haccepts.inRange, fun p' hp' => ?_⟩, hp⟩
        exact haccepts.new p' ((hparts p').mpr (Or.inl hp'))
    · rintro (hp | ⟨q, hq | hq, haccepts, hp⟩)
      · exact Or.inl (Or.inl hp)
      · exact Or.inl (Or.inr ⟨q, hq, haccepts, hp⟩)
      · by_cases hnew : ∀ p' ∈ (uploadStep settings text s x).db.partsOf id,
            p'.partNumber ≠ q.partNumber
        · exact Or.inr ⟨q, hq, ⟨haccepts.inRange, hnew⟩, hp⟩
        · -- the number was recorded by this step, so the step answered the same request
          push Not at hnew
          obtain ⟨p', hp', hnumber⟩ := hnew
          rcases (hparts p').mp hp' with hold | ⟨q', hq', haccepts', rfl⟩
          · exact absurd hnumber (haccepts.new p' hold)
          · have heq : q' = q := hsame q' (List.mem_append_left _ (Option.mem_toList.mpr hq')) q
              (List.mem_append_right _ hq) hnumber
            exact Or.inl (Or.inr ⟨q', hq', haccepts', heq ▸ hp⟩)

end Runs

section Payload

theorem perm_of_numbered {ps qs : List MediaUploadPart} (hp : (ps.map (·.partNumber)).Nodup)
    (hq : (qs.map (·.partNumber)).Nodup) (hmem : ∀ p, p ∈ ps ↔ p ∈ qs) : ps.Perm qs :=
  (List.perm_ext_iff_of_nodup (List.Nodup.of_map _ hp) (List.Nodup.of_map _ hq)).mpr hmem

theorem sessionPartsPayload_perm {ps qs : List MediaUploadPart}
    (hp : (ps.map (·.partNumber)).Nodup) (hperm : ps.Perm qs) :
    sessionPartsPayload ps = sessionPartsPayload qs := by
  have hle : ∀ l : List MediaUploadPart,
      (l.insertionSort fun p q => p.partNumber ≤ q.partNumber).Pairwise
        fun p q => p.partNumber ≤ q.partNumber := by
    intro l
    have : Std.Total fun p q : MediaUploadPart => p.partNumber ≤ q.partNumber :=
      ⟨fun p q => le_total p.partNumber q.partNumber⟩
    have : IsTrans MediaUploadPart fun p q => p.partNumber ≤ q.partNumber :=
      ⟨fun p q r => le_trans⟩
    exact List.pairwise_insertionSort _ l
  have hinj := List.inj_on_of_nodup_map hp
  have hsorted : ps.insertionSort (fun p q => p.partNumber ≤ q.partNumber) =
      qs.insertionSort fun p q => p.partNumber ≤ q.partNumber := by
    refine List.Perm.eq_of_pairwise (fun p q hps hqs hpq hqp => ?_) (hle ps) (hle qs)
      (((List.perm_insertionSort _ ps).trans hperm).trans (List.perm_insertionSort _ qs).symm)
    rw [List.mem_insertionSort] at hps hqs
    exact hinj hps (hperm.mem_iff.mpr hqs) (le_antisymm hpq hqp)
  rw [sessionPartsPayload, sessionPartsPayload, hsorted]

theorem sortedRanges_perm {db t : MediaDb} {id : Id} (hperm : (db.partsOf id).Perm (t.partsOf id)) :
    db.sortedRanges id = t.sortedRanges id := by
  have hdedup : (db.ranges id).dedup.Perm (t.ranges id).dedup := (hperm.map _).dedup
  exact List.Perm.eq_of_pairwise' (List.pairwise_insertionSort _ _) (List.pairwise_insertionSort _ _)
    (((List.perm_insertionSort _ _).trans hdedup).trans (List.perm_insertionSort _ _).symm)

/-- The payload depends on the set of the session's parts only. -/
theorem resumableSessionPayload_perm (host : String) {db t : MediaDb} {id : Id}
    (r : MediaUploadSession) (token : Option String)
    (hnumbered : ((db.partsOf id).map (·.partNumber)).Nodup)
    (hperm : (db.partsOf id).Perm (t.partsOf id)) :
    resumableSessionPayload host db id r token = resumableSessionPayload host t id r token := by
  have hmissing : missingParts db id r = missingParts t id r := by
    have hsorted := sortedRanges_perm hperm
    unfold MediaDb.sortedRanges MediaDb.ranges at hsorted
    simp only [missingParts, hsorted]
  simp only [resumableSessionPayload, hmissing, sessionPartsPayload_perm hnumbered hperm]

end Payload

section Independence
variable {settings : MediaSettings} {text : TextLib} {s : UploadState} {id : Id}
  {r : MediaUploadSession}

theorem run_payload_eq (host : String) (token : Option String) (hf : s.Fits) (hs : s.Confirmed)
    (hr : s.db.sessions.get id = some r) (hactive : r.status = .active) {first second : List UploadStep}
    (hfirst : Along (uploadStep settings text) (StaysActive settings text id) s first)
    (hsecond : Along (uploadStep settings text) (StaysActive settings text id) s second)
    (hmem : ∀ q, q ∈ servedParts settings text id s first ↔ q ∈ servedParts settings text id s second)
    (hsame : Consistent (servedParts settings text id s first)) :
    ((run (uploadStep settings text) s first).sessionPayload host id token).isSome ∧
      (run (uploadStep settings text) s first).sessionPayload host id token =
        (run (uploadStep settings text) s second).sessionPayload host id token := by
  have hsame' : Consistent (servedParts settings text id s second) :=
    fun p hp q hq => hsame p ((hmem p).mpr hp) q ((hmem q).mpr hq)
  obtain ⟨hrow, hparts⟩ := run_parts hf hs hr hactive hfirst hsame
  obtain ⟨hrow', hparts'⟩ := run_parts hf hs hr hactive hsecond hsame'
  have hnumbered := (run_confirmed settings text hf hs first).2.numbered id
  have hnumbered' := (run_confirmed settings text hf hs second).2.numbered id
  have hperm : ((run (uploadStep settings text) s first).db.partsOf id).Perm
      ((run (uploadStep settings text) s second).db.partsOf id) := by
    refine perm_of_numbered hnumbered hnumbered' fun p => ?_
    simp only [hparts, hparts', hmem]
  have hsize : (run (uploadStep settings text) s first).db.confirmedSize id =
      (run (uploadStep settings text) s second).db.confirmedSize id := (hperm.map _).sum_eq
  simp only [UploadState.sessionPayload, hrow, hrow', Option.map_some, Option.isSome_some, hsize,
    resumableSessionPayload_perm host _ token hnumbered hperm, and_self]

/-- A part out of range, or with the number of another part, is refused. -/
theorem recordResumablePart_refused (hf : s.Fits) (hs : s.Confirmed) {i : Id}
    {loaded : MediaUploadSession} {q : ResumablePartRequest} (hr : s.db.sessions.get id = some r)
    (hw : s.waiting.get i = some (some (.recordPart id loaded q)))
    (hbad : r.expectedSizeBytes < q.offset + q.sizeBytes ∨
      ∃ p ∈ s.db.partsOf id, p.partNumber = q.partNumber ∧ p ≠ newPart id q) :
    ∃ e, recordResumablePart s.db id loaded q = .error e := by
  cases hrecord : recordResumablePart s.db id loaded q with
  | error e => exact ⟨e, rfl⟩
  | ok t =>
    exfalso
    unfold recordResumablePart at hrecord
    simp only [bind_ok, require_ok] at hrecord
    obtain ⟨-, -, -, hrange, hrecord⟩ := hrecord
    rw [hf.expected hr hw] at hrange
    rcases hbad with hlong | ⟨p, hp, hnumber, hne⟩
    · exact absurd hrange (not_le.mpr hlong)
    · split at hrecord
      · next j existing hfind =>
        simp only [bind_ok, require_ok] at hrecord
        obtain ⟨-, hmatch, -⟩ := hrecord
        obtain ⟨hget, hkeep⟩ := Table.find_some hfind
        simp only [Bool.and_eq_true, decide_eq_true_eq] at hkeep
        have hmem := MediaDb.mem_partsOf.mpr ⟨j, hget, hkeep.1⟩
        have hp' : p = existing := List.inj_on_of_nodup_map (hs.numbered id) hp hmem
          (hnumber.trans hkeep.2.symm)
        apply hne
        simp only [MediaUploadPart.matches, Bool.and_eq_true, decide_eq_true_eq] at hmatch
        obtain ⟨⟨⟨hoffset, hsize⟩, hetag⟩, hsha⟩ := hmatch
        rw [hp', newPart, ← hkeep.1, ← hkeep.2, ← hoffset, ← hsize, ← hetag, ← hsha]
      · next hnone => exact find_part_none.mp hnone p hp hnumber

end Independence

/-- On an active session, runs that answer the same part requests, in any order and each any
number of times, leave the same payload, as long as requests with the same number are the same;
and a request that contradicts a recorded part or exceeds the file is refused without effect. -/
theorem parts_in_any_order (settings : MediaSettings) (text : TextLib) (now : Time) (host : String)
    (token : Option String) (before : List UploadStep) (id : Id) {r : MediaUploadSession}
    (hr : (uploadRun settings text now before).db.sessions.get id = some r)
    (hactive : r.status = .active) :
    (∀ first second,
      Along (uploadStep settings text) (StaysActive settings text id)
        (uploadRun settings text now before) first →
      Along (uploadStep settings text) (StaysActive settings text id)
        (uploadRun settings text now before) second →
      (∀ q, q ∈ servedParts settings text id (uploadRun settings text now before) first ↔
        q ∈ servedParts settings text id (uploadRun settings text now before) second) →
      Consistent (servedParts settings text id (uploadRun settings text now before) first) →
      ((uploadRun settings text now (before ++ first)).sessionPayload host id token).isSome ∧
      (uploadRun settings text now (before ++ first)).sessionPayload host id token =
        (uploadRun settings text now (before ++ second)).sessionPayload host id token) ∧
    (∀ i loaded q,
      (uploadRun settings text now before).waiting.get i =
        some (some (.recordPart id loaded q)) →
      (r.expectedSizeBytes < q.offset + q.sizeBytes ∨
        ∃ p ∈ (uploadRun settings text now before).db.partsOf id,
          p.partNumber = q.partNumber ∧ p ≠ newPart id q) →
      (∃ e, serveRequest settings text (uploadRun settings text now before).now
        (uploadRun settings text now before).db (.recordPart id loaded q) = .error e) ∧
      (uploadRun settings text now (before ++ [.serve i])).sessionPayload host id token =
        (uploadRun settings text now before).sessionPayload host id token) := by
  have hboth := run_confirmed settings text (UploadState.initial_fits now)
    (UploadState.initial_confirmed now) before
  simp only [uploadRun, run_append] at hr ⊢
  generalize run (uploadStep settings text) (.initial now) before = s at hr hboth ⊢
  obtain ⟨hf, hs⟩ := hboth
  constructor
  · intro first second hfirst hsecond hmem hsame
    exact run_payload_eq host token hf hs hr hactive hfirst hsecond hmem hsame
  · intro i loaded q hw hbad
    obtain ⟨e, he⟩ := recordResumablePart_refused hf hs hr hw hbad
    refine ⟨⟨e, he⟩, ?_⟩
    have hdb : (uploadStep settings text s (.serve i)).db = s.db := by
      simp only [uploadStep, hw, serveRequest, he, commit_error]
    simp only [run_cons, run_nil, UploadState.sessionPayload, hdb]

namespace Sample

def part (number offset : ℕ) (h : 1 ≤ number) : UploadStep :=
  send (.recordPart 0 0 (half number offset h))

def inOrder : List UploadStep :=
  [part 1 0 first_numbered, .serve 2, part 2 5 second_numbered, .serve 3]

/-- The second half overtakes the first, which is sent twice. -/
def outOfOrder : List UploadStep :=
  [part 1 0 first_numbered, part 2 5 second_numbered, .serve 3, part 1 0 first_numbered, .serve 4, .serve 2]

end Sample

theorem overtaken_parts_same_payload :
    (Sample.uploads (Sample.opened ++ Sample.inOrder)).sessionPayload "" 0 none =
      (Sample.uploads (Sample.opened ++ Sample.outOfOrder)).sessionPayload "" 0 none := by
  obtain ⟨r, hr⟩ : ∃ r, (Sample.uploads Sample.opened).db.sessions.get 0 = some r := ⟨_, rfl⟩
  have hactive : r.status = .active := by
    obtain rfl := Option.some.inj hr
    rfl
  have hfirst : servedParts Sample.media Sample.text 0 (Sample.uploads Sample.opened) Sample.inOrder =
      [Sample.half 1 0 (by decide), Sample.half 2 5 (by decide)] := rfl
  have hsecond : servedParts Sample.media Sample.text 0 (Sample.uploads Sample.opened)
      Sample.outOfOrder = [Sample.half 2 5 (by decide), Sample.half 1 0 (by decide),
        Sample.half 1 0 (by decide)] := rfl
  have hruns := (parts_in_any_order Sample.media Sample.text 0 "" none Sample.opened 0 hr hactive).1
    Sample.inOrder Sample.outOfOrder
    ⟨⟨_, rfl, rfl⟩, ⟨_, rfl, rfl⟩, ⟨_, rfl, rfl⟩, ⟨_, rfl, rfl⟩, trivial⟩
    ⟨⟨_, rfl, rfl⟩, ⟨_, rfl, rfl⟩, ⟨_, rfl, rfl⟩, ⟨_, rfl, rfl⟩, ⟨_, rfl, rfl⟩, ⟨_, rfl, rfl⟩,
      trivial⟩
  rw [hfirst, hsecond] at hruns
  refine (hruns (fun q => ?_) ?_).2
  · simp only [List.mem_cons, List.not_mem_nil, or_false, or_self]
    exact or_comm
  · simp only [Consistent, List.mem_cons, List.not_mem_nil, or_false, forall_eq_or_imp, forall_eq]
    simp [Sample.half]

end CrisisMosaic
