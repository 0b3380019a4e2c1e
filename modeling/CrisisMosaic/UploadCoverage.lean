import CrisisMosaic.Reachable
import CrisisMosaic.UploadSteps

/-!
# A completed session covers the file when no two of its parts overlap

Every part lies within the size its session expects, and that is the size of the
upload. A completion only adds up the sizes of the parts.
-/

namespace CrisisMosaic
open Relational Ranges

/-- The waiting request's view of sizes is the one in the database. -/
def Waiting.Fits (db : MediaDb) : Waiting → Prop
  | .createSession m _ _ _ | .complete m _ =>
    ∃ u, db.uploads.get m.id = some u ∧ u.sizeBytes = m.upload.sizeBytes
  | .recordPart id loaded _ => ∃ r, db.sessions.get id = some r ∧ r.fixed = loaded.fixed
  | _ => True

structure UploadState.Fits (s : UploadState) : Prop where
  sized : s.db.sessions.All fun _ r =>
    ∃ u, s.db.uploads.get r.attachmentId = some u ∧ u.sizeBytes = r.expectedSizeBytes
  within : s.db.parts.All fun _ p =>
    ∃ r, s.db.sessions.get p.uploadSessionId = some r ∧ p.range.Within r.expectedSizeBytes
  waiting : ∀ i w, s.waiting.get i = some (some w) → w.Fits s.db

theorem Waiting.IsLoaded.fits {db : MediaDb} {w : Waiting} (h : w.IsLoaded db) : w.Fits db := by
  cases w with
  | createSession m device payload drawn => exact ⟨m.upload, h.2, rfl⟩
  | complete m payload => exact ⟨m.upload, h.2, rfl⟩
  | recordPart id loaded payload => exact ⟨loaded, h, rfl⟩
  | imageIntent device payload => trivial
  | mediaIntent device payload => trivial
  | content m sha256 receivedAt => trivial
  | renew id loaded drawn => trivial
  | delete id loaded => trivial
  | callback m key etag size => trivial
  | answered => trivial

theorem Waiting.Fits.grows {db t : MediaDb} {w : Waiting} (h : w.Fits db) (hg : db.Grows t) :
    w.Fits t := by
  have hupload : ∀ {m : Media}, (∃ u, db.uploads.get m.id = some u ∧ u.sizeBytes = m.upload.sizeBytes) →
      ∃ u, t.uploads.get m.id = some u ∧ u.sizeBytes = m.upload.sizeBytes := by
    rintro m ⟨u, hu, hsize⟩
    obtain ⟨v, hv, huv⟩ := hg.uploads _ u hu
    exact ⟨v, hv, huv.trans hsize⟩
  cases w with
  | createSession m device payload drawn => exact hupload h
  | complete m payload => exact hupload h
  | recordPart id loaded payload =>
    obtain ⟨r, hr, hfixed⟩ := h
    obtain ⟨r', hr', hrr⟩ := hg.sessions _ r hr
    exact ⟨r', hr', hrr.trans hfixed⟩
  | imageIntent device payload => trivial
  | mediaIntent device payload => trivial
  | content m sha256 receivedAt => trivial
  | renew id loaded drawn => trivial
  | delete id loaded => trivial
  | callback m key etag size => trivial
  | answered => trivial

section Steps
variable {settings : MediaSettings} {text : TextLib} {now : Time} {db t : MediaDb} {w : Waiting}

theorem checkResumable_ok {m : Media} {device : Id} {payload : ResumableSessionRequest}
    (h : checkResumable db m device payload = .ok ()) :
    m.attachment.uploaderDeviceId = device ∧ m.upload.sizeBytes = payload.sizeBytes := by
  unfold checkResumable at h
  simp only [bind_ok, require_ok] at h
  obtain ⟨-, hdevice, -, -, -, ⟨hsize, -⟩, -⟩ := h
  exact ⟨hdevice, hsize⟩

/-- A session after a step was there before, or is the one just created. -/
theorem SessionsStep.row_cases (h : SessionsStep settings now db t w) {i : Id}
    {r : MediaUploadSession} (hr : t.sessions.get i = some r) :
    (∃ q, db.sessions.get i = some q ∧ r.fixed = q.fixed) ∨
    ∃ m device payload drawn, w = .createSession m device payload drawn ∧
      checkResumable db m device payload = .ok () ∧
      r = newSession settings now m device payload drawn := by
  have hsave : ∀ {k : Id} {loaded new : MediaUploadSession},
      (db.sessions.modify k (loaded.save new)).get i = some r →
        ∃ q, db.sessions.get i = some q ∧ r.fixed = q.fixed := by
    intro k loaded new hget
    rcases Table.get_modify_cases hget with ⟨-, q, hq, rfl⟩ | ⟨-, hq⟩
    · exact ⟨q, hq, rfl⟩
    · exact ⟨r, hq, rfl⟩
  cases h with
  | none _ hs => exact Or.inl ⟨r, hs ▸ hr, rfl⟩
  | created m device payload drawn hchecked hs =>
    rw [hs] at hr
    rcases Table.get_insert_cases hr with ⟨-, rfl⟩ | hold
    · exact Or.inr ⟨m, device, payload, drawn, rfl, hchecked, rfl⟩
    · exact Or.inl ⟨r, hold, rfl⟩
  | recorded id loaded payload _ ht =>
    subst ht
    exact Or.inl (hsave hr)
  | deleted id loaded ht =>
    subst ht
    unfold deleteResumableSession at hr
    split_ifs at hr
    · exact Or.inl ⟨r, hr, rfl⟩
    · exact Or.inl (hsave hr)
  | closed m payload id q _ _ _ _ _ hs => exact Or.inl (hsave (hs ▸ hr))
  | calledBack m key etag size hs =>
    rw [hs] at hr
    simp only [finishSessions, Table.get_sweep, Option.map_eq_some_iff] at hr
    obtain ⟨q, hq, rfl⟩ := hr
    refine Or.inl ⟨q, hq, ?_⟩
    split_ifs <;> rfl

theorem SessionsStep.part_cases (h : SessionsStep settings now db t w) {i : Id}
    {p : MediaUploadPart} (hp : t.parts.get i = some p) :
    db.parts.get i = some p ∨
    ∃ id loaded payload, w = .recordPart id loaded payload ∧ Recordable db id loaded payload ∧
      p = newPart id payload := by
  cases h with
  | none _ _ hparts => exact Or.inl (hparts ▸ hp)
  | created _ _ _ _ _ _ hparts => exact Or.inl (hparts ▸ hp)
  | recorded id loaded payload hrecordable ht =>
    subst ht
    rcases Table.get_insert_cases hp with ⟨-, rfl⟩ | hold
    · exact Or.inr ⟨id, loaded, payload, rfl, hrecordable, rfl⟩
    · exact Or.inl hold
  | deleted id loaded ht =>
    subst ht
    unfold deleteResumableSession at hp
    split_ifs at hp <;> exact Or.inl hp
  | closed _ _ _ _ _ _ _ _ _ _ hparts => exact Or.inl (hparts ▸ hp)
  | calledBack _ _ _ _ _ hparts => exact Or.inl (hparts ▸ hp)

theorem newPart_within {id : Id} {loaded : MediaUploadSession} {payload : ResumablePartRequest}
    (h : Recordable db id loaded payload) :
    (newPart id payload).range.Within loaded.expectedSizeBytes :=
  ⟨Nat.lt_add_of_pos_right payload.nonempty, h.inRange⟩

theorem uploadStep_fits {s : UploadState} (h : s.Fits) (x : UploadStep) :
    (uploadStep settings text s x).Fits := by
  have hgrows := uploadStep_grows settings text s x
  have hstep := uploadStep_sessions settings text s x
  have hsized : ∀ {attachment size : ℕ},
      (∃ u, s.db.uploads.get attachment = some u ∧ u.sizeBytes = size) →
        ∃ u, (uploadStep settings text s x).db.uploads.get attachment = some u ∧ u.sizeBytes = size := by
    rintro attachment size ⟨u, hu, hsize⟩
    obtain ⟨v, hv, huv⟩ := hgrows.uploads _ u hu
    exact ⟨v, hv, huv.trans hsize⟩
  constructor
  · intro i r hr
    apply hsized
    have hold : ∀ q, s.db.sessions.get i = some q → r.fixed = q.fixed →
        ∃ u, s.db.uploads.get r.attachmentId = some u ∧ u.sizeBytes = r.expectedSizeBytes := by
      intro q hq hfixed
      simp only [MediaUploadSession.fixed, Prod.mk.injEq] at hfixed
      rw [hfixed.1, hfixed.2.2.1]
      exact h.sized i q hq
    rcases hstep with ⟨hs, -⟩ | ⟨k, w, -, hw, hserved⟩
    · exact hold r (hs ▸ hr) rfl
    · rcases hserved.row_cases hr with ⟨q, hq, hfixed⟩ | ⟨m, device, payload, drawn, rfl, hchecked, rfl⟩
      · exact hold q hq hfixed
      · obtain ⟨u, hu, hsize⟩ := h.waiting k _ hw
        exact ⟨u, hu, hsize.trans (checkResumable_ok hchecked).2⟩
  · intro i p hp
    have hold : s.db.parts.get i = some p → ∃ r, (uploadStep settings text s x).db.sessions.get
        p.uploadSessionId = some r ∧ p.range.Within r.expectedSizeBytes := by
      intro hp
      obtain ⟨r, hr, hwithin⟩ := h.within i p hp
      obtain ⟨r', hr', hfixed⟩ := hgrows.sessions _ r hr
      simp only [MediaUploadSession.fixed, Prod.mk.injEq] at hfixed
      exact ⟨r', hr', hfixed.2.2.1 ▸ hwithin⟩
    rcases hstep with ⟨-, hparts⟩ | ⟨k, w, -, hw, hserved⟩
    · exact hold (hparts ▸ hp)
    · rcases hserved.part_cases hp with hp | ⟨id, loaded, payload, rfl, hrecordable, rfl⟩
      · exact hold hp
      · obtain ⟨r, hr, hloaded⟩ := h.waiting k _ hw
        obtain ⟨r', hr', hfixed⟩ := hgrows.sessions _ r hr
        have hsame := hfixed.trans hloaded
        simp only [MediaUploadSession.fixed, Prod.mk.injEq] at hsame
        exact ⟨r', hr', hsame.2.2.1 ▸ newPart_within hrecordable⟩
  · intro i w hw
    rcases waiting_cases hw with hold | ⟨⟨r, -, hload⟩, hdb⟩
    · exact (h.waiting i w hold).grows hgrows
    · exact hdb ▸ (loadRequest_isLoaded hload).fits

theorem UploadState.initial_fits (now : Time) : (UploadState.initial now).Fits :=
  ⟨fun _ _ h => (nomatch h), fun _ _ h => (nomatch h), fun _ _ h => (nomatch h)⟩

theorem uploadRun_fits (settings : MediaSettings) (text : TextLib) (now : Time) (steps : List UploadStep) :
    (uploadRun settings text now steps).Fits :=
  run_invariant (uploadStep settings text) (I := UploadState.Fits)
    (fun _ x hs _ => uploadStep_fits hs x) (UploadState.initial_fits now)
    (along_true (uploadStep settings text) _ steps)

end Steps

namespace MediaDb
variable {db : MediaDb} {id : Id}

def ranges (db : MediaDb) (id : Id) : List Range := (db.partsOf id).map (·.range)

theorem mem_partsOf {p : MediaUploadPart} :
    p ∈ db.partsOf id ↔ ∃ i, db.parts.get i = some p ∧ p.uploadSessionId = id := by
  simp only [partsOf, partIds, List.mem_filterMap, Table.mem_select, decide_eq_true_eq]
  constructor
  · rintro ⟨i, ⟨q, hq, hid⟩, hp⟩
    obtain rfl := Option.some.inj (hq.symm.trans hp)
    exact ⟨i, hq, hid⟩
  · rintro ⟨i, hp, hid⟩
    exact ⟨i, ⟨p, hp, hid⟩, hp⟩

theorem sum_ranges (db : MediaDb) (id : Id) :
    ((db.ranges id).map Range.size).sum = db.confirmedSize id := by
  simp only [ranges, confirmedSize, List.map_map]
  congr 1
  refine List.map_congr_left fun p _ => ?_
  simp [MediaUploadPart.range, Range.size]

end MediaDb

theorem UploadState.Fits.ranges_within {s : UploadState} (h : s.Fits) {id : Id}
    {r : MediaUploadSession} (hr : s.db.sessions.get id = some r) :
    ∀ q ∈ s.db.ranges id, q.Within r.expectedSizeBytes := by
  intro q hq
  obtain ⟨p, hp, rfl⟩ := List.mem_map.mp hq
  obtain ⟨i, hget, rfl⟩ := MediaDb.mem_partsOf.mp hp
  obtain ⟨r', hr', hwithin⟩ := h.within i p hget
  obtain rfl := Option.some.inj (hr.symm.trans hr')
  exact hwithin

/-- The recorded ranges in the order in which the payload walks them. -/
def MediaDb.sortedRanges (db : MediaDb) (id : Id) : List Range :=
  (db.ranges id).dedup.insertionSort Range.le

section Sorted
variable (db : MediaDb) (id : Id)

theorem MediaDb.mem_sortedRanges (q : Range) : q ∈ db.sortedRanges id ↔ q ∈ db.ranges id := by
  rw [sortedRanges, List.mem_insertionSort, List.mem_dedup]

theorem MediaDb.sorted_sortedRanges : (db.sortedRanges id).Pairwise Range.le :=
  List.pairwise_insertionSort _ _

theorem MediaDb.covered_sortedRanges (b : ℕ) :
    Covered (db.sortedRanges id) b ↔ Covered (db.ranges id) b := by
  simp only [Covered, mem_sortedRanges]

end Sorted

section Missing
variable {db : MediaDb} {id : Id} {r : MediaUploadSession}

/-- In an empty file no range is within. -/
theorem missingParts_eq (hwithin : ∀ q ∈ db.ranges id, q.Within r.expectedSizeBytes) :
    missingParts db id r = gapsFrom r.expectedSizeBytes 0 (db.sortedRanges id) := by
  unfold missingParts
  split_ifs with hzero
  · have hnil : db.sortedRanges id = [] := by
      apply List.eq_nil_iff_forall_not_mem.mpr
      intro q hq
      have hq := hwithin q ((db.mem_sortedRanges id q).mp hq)
      exact absurd (hq.1.trans_le hq.2) (by omega)
    rw [hnil, hzero]
    rfl
  · rfl

theorem sortedRanges_within (hwithin : ∀ q ∈ db.ranges id, q.Within r.expectedSizeBytes) :
    ∀ q ∈ db.sortedRanges id, q.Within r.expectedSizeBytes :=
  fun q hq => hwithin q ((db.mem_sortedRanges id q).mp hq)

/-- The missing parts are the positions no part covers. -/
theorem missingParts_eq_nil (hwithin : ∀ q ∈ db.ranges id, q.Within r.expectedSizeBytes) :
    missingParts db id r = [] ↔ ∀ b < r.expectedSizeBytes, Covered (db.ranges id) b := by
  have hgaps := gapsFrom_eq_nil (sortedRanges_within hwithin) (db.sorted_sortedRanges id) 0
  rw [missingParts_eq hwithin, hgaps]
  simp only [db.covered_sortedRanges, Nat.zero_le, true_implies]

end Missing

/-- A completion that is accepted leaves nothing of the file missing exactly when no two parts
of its session overlap. -/
theorem completed_upload_is_covered_iff (settings : MediaSettings) (text : TextLib) (now : Time)
    (steps : List UploadStep) (request sessionId : Id) {m : Media} {payload : UploadCompleteRequest}
    {t : MediaDb}
    (hw : (uploadRun settings text now steps).waiting.get request = some (some (.complete m payload)))
    (hsession : payload.uploadSessionId = some sessionId)
    (hok : completeRemoteUpload settings (uploadRun settings text now steps).now
      (uploadRun settings text now steps).db m payload = .ok t) :
    ∃ r, (uploadRun settings text now steps).db.sessions.get sessionId = some r ∧
      (((∀ b < m.upload.sizeBytes,
            Covered ((uploadRun settings text now steps).db.ranges sessionId) b) ∧
          missingParts (uploadRun settings text now steps).db sessionId r = []) ↔
        ((uploadRun settings text now steps).db.ranges sessionId).Pairwise Range.Apart) := by
  have hfits := uploadRun_fits settings text now steps
  generalize uploadRun settings text now steps = s at hw hok hfits ⊢
  obtain ⟨closed, hclosed, -⟩ := completeRemoteUpload_ok hok
  rcases closeSession_cases hclosed with ⟨hnone, -⟩ | ⟨id, r, hid, hr, hm, -, hsize, -⟩
  · exact nomatch hsession.symm.trans hnone
  obtain rfl := Option.some.inj (hsession.symm.trans hid)
  have hexpected : m.upload.sizeBytes = r.expectedSizeBytes := by
    obtain ⟨u, hu, husize⟩ := hfits.waiting request _ hw
    obtain ⟨v, hv, hvsize⟩ := hfits.sized _ r hr
    rw [hm, hu] at hv
    rw [← husize, Option.some.inj hv, hvsize]
  have hwithin := hfits.ranges_within hr
  refine ⟨r, hr, ?_⟩
  rw [hexpected, missingParts_eq_nil hwithin, and_self]
  apply covered_iff_apart hwithin
  rw [MediaDb.sum_ranges, hsize, hexpected]


/-! A small upload: a clip of ten bytes in two parts. -/

namespace Sample

def media : MediaSettings :=
  { mediaStorageProvider := .qiniuKodoMock
    enableVideoUpload := true
    maxImageBytes := 100
    uploadIntentMinutes := 10
    mediaPolicyVersion := "v1"
    mediaMaxFileSizeBytes := 100
    mediaMaxReportTotalBytes := 100
    mediaMaxAttachmentCount := 10
    mediaMaxVideoDurationMs := 1000
    mediaMaxParallelUploads := 3
    mediaRecommendedChunkSizeBytes := 4
    mediaUploadSessionHours := 24
    mediaSingleDeviceActiveSessions := 1
    qiniuUploadTokenTtlSeconds := 600
    jobMaxAttempts := 3
    jobLeaseSeconds := 60 }

def send (call : UploadCall) : UploadStep := .arrive ⟨resident, none, ⟨"token", "f"⟩, call⟩

theorem ten_pos : 0 < 10 := by decide
theorem first_numbered : 1 ≤ 1 := by decide
theorem second_numbered : 1 ≤ 2 := by decide

def clip : MediaIntentRequest := ⟨0, .image, "a.png", "image/png", 10, "h", none, true, by decide⟩

def half (number offset : ℕ) (h : 1 ≤ number) : ResumablePartRequest :=
  ⟨number, offset, 5, "e", none, h, by decide⟩

def completion : UploadCompleteRequest := ⟨some 0, none, none, none, []⟩

/-- The clip is announced, a session is opened and two parts are recorded. -/
def twoParts (first second : ℕ) : List UploadStep :=
  [send (.mediaIntent clip), .serve 0, send (.createSession 0 ⟨10, "h", none, by decide⟩), .serve 1,
    send (.recordPart 0 0 (half 1 first (by decide))), .serve 2,
    send (.recordPart 0 0 (half 2 second (by decide))), .serve 3, send (.complete 0 completion)]

abbrev uploads (steps : List UploadStep) : UploadState := uploadRun media text 0 steps

end Sample

theorem two_halves_complete_upload : ∃ r,
    (Sample.uploads (Sample.twoParts 0 5)).db.sessions.get 0 = some r ∧
      missingParts (Sample.uploads (Sample.twoParts 0 5)).db 0 r = [] := by
  obtain ⟨r, hr, hiff⟩ := completed_upload_is_covered_iff Sample.media Sample.text 0
    (Sample.twoParts 0 5) 4 0 rfl rfl rfl
  exact ⟨r, hr, (hiff.mpr (by decide +kernel)).2⟩

/-- The first half recorded twice completes the upload. -/
theorem repeated_half_completes_upload : ∃ m t r,
    (Sample.uploads (Sample.twoParts 0 0)).waiting.get 4 =
      some (some (.complete m Sample.completion)) ∧
    completeRemoteUpload Sample.media 0 (Sample.uploads (Sample.twoParts 0 0)).db m
      Sample.completion = .ok t ∧
    (Sample.uploads (Sample.twoParts 0 0)).db.sessions.get 0 = some r ∧
    missingParts (Sample.uploads (Sample.twoParts 0 0)).db 0 r = [(5, 5)] :=
  ⟨_, _, _, rfl, rfl, rfl, by decide +kernel⟩

end CrisisMosaic
