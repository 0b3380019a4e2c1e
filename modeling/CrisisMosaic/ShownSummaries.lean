import CrisisMosaic.AnswerRuns
import CrisisMosaic.MediaEvidence

/-!
# Summaries that are shown

Whatever the provider sends back, what a reader is shown of a picture is an answer about that picture
which passed its contracts. Other sessions leave the vision columns of a row alone, and what the worker
holds of a row was stored in it.
-/

namespace CrisisMosaic
open Relational

/-! ## Texts -/

section Texts
variable {lib : TextLib} {s : List Char}

theorem occursIn_append {term : String} {p : List Char} (h : occursIn term (p ++ s) = false) :
    occursIn term s = false := by
  unfold occursIn at h ⊢
  rw [List.any_eq_false] at h ⊢
  intro t ht
  exact h t ((List.mem_tails _ _).mpr (((List.mem_tails _ _).mp ht).trans (List.suffix_append p s)))

theorem search_after_line {previous : Option Char} {p : List Char}
    (h : hasPii.search lib previous (p ++ '\n' :: s) = false) : hasPii.search lib (some '\n') s = false := by
  induction p generalizing previous with
  | nil => exact (Bool.or_eq_false_iff.mp h).2
  | cons c p ih => exact ih (Bool.or_eq_false_iff.mp h).2

theorem search_line (hline : lib.isDecimal '\n' = false) :
    hasPii.search lib (some '\n') s = hasPii.search lib none s := by
  have hmobile : ∀ t, mobileAt lib (some '\n') t = mobileAt lib none t := by
    intro t
    simp [mobileAt, hline]
  have hid : ∀ t, nationalIdAt lib (some '\n') t = nationalIdAt lib none t := by
    intro t
    have halnum : isAsciiAlnum '\n' = false := by decide
    simp [nationalIdAt, halnum]
  cases s <;> simp [hasPii.search, hmobile, hid]

theorem noTextVisionPrefix_toList :
    noTextVisionPrefix.toList = "[vision_policy:no_text_v1]".toList ++ ['\n'] := by decide

/-- A line that may be published leaves what follows it publishable. -/
theorem publishable_of_prefixed (hline : lib.isDecimal '\n' = false) {shown : String}
    (h : Publishable lib (noTextVisionPrefix ++ shown)) : Publishable lib shown := by
  obtain ⟨hpii, hphrases⟩ := h
  rw [String.toList_append] at hpii hphrases
  refine ⟨?_, fun phrase hphrase => occursIn_append (hphrases phrase hphrase)⟩
  rw [noTextVisionPrefix_toList, List.append_assoc] at hpii
  unfold hasPii at hpii ⊢
  rw [← search_line hline]
  exact search_after_line hpii

theorem truncateText_length {value : String} {n : ℕ} (hn : truncationMarker.length ≤ n) :
    (truncateText value n).length ≤ n := by
  unfold truncateText
  split_ifs with hfits
  · exact hfits
  · rw [String.length_append, String.length_ofList, List.length_take]
    omega

theorem safeVisionSummary_prefixed (shown : String) :
    safeVisionSummary (some (noTextVisionPrefix ++ shown)) = some shown := by
  have hprefix : (noTextVisionPrefix ++ shown).startsWith noTextVisionPrefix = true := by
    rw [String.startsWith_string_iff, String.toList_append]
    exact List.prefix_append _ _
  unfold safeVisionSummary
  rw [Option.bind_some, if_pos hprefix, String.toList_append, ← String.length_toList, List.drop_left,
    String.ofList_toList]

theorem safeVisionSummary_unavailable (name : String) :
    safeVisionSummary (some ("AI enrichment unavailable: " ++ name)) = none := by
  unfold safeVisionSummary
  refine if_neg fun h => ?_
  rw [String.startsWith_string_iff, String.toList_append] at h
  have hhead := congrArg List.head? (List.prefix_iff_eq_take.mp h)
  simp [noTextVisionPrefix] at hhead

end Texts

/-! ## Answers -/

/-- No provider was asked, or what it said about the picture may be shown. -/
def ShowsEvidence (env : VisionEnv) (id : Id) (mediaType : MediaType) (shown : String) : Prop :=
  shown = fakeSummary ∨ ∃ o : MediaEvidenceExtractionOutput, o.evidenceId.val = env.str (.ref id) ∧
    o.modality = mediaType ∧ (o.readStatus = .unreadable → o.ObservesNothing) ∧
      shown = truncateText ("\n".intercalate o.sections) (maxVisionSummary - noTextVisionPrefix.length) ∧
        shown.length ≤ maxVisionSummary - noTextVisionPrefix.length ∧ Publishable env.text shown

section Answers
variable {env : VisionEnv} {id : Id} {mediaType : MediaType} {first repair : ProviderReply} {shown : String}

theorem marker_fits : truncationMarker.length ≤ maxVisionSummary - noTextVisionPrefix.length := by decide

theorem evidence_length (o : MediaEvidenceExtractionOutput) :
    (truncateText ("\n".intercalate o.sections) (maxVisionSummary - noTextVisionPrefix.length)).length ≤
      maxVisionSummary - noTextVisionPrefix.length := truncateText_length marker_fits

/-- An answer that passes its contract always fits the field. -/
theorem mediaEvidenceToAttachmentOutput_eq (o : MediaEvidenceExtractionOutput) :
    ∃ output, mediaEvidenceToAttachmentOutput o = .ok output ∧ output.val = noTextVisionPrefix ++
      truncateText ("\n".intercalate o.sections) (maxVisionSummary - noTextVisionPrefix.length) := by
  have hlength := evidence_length o
  have hprefix : 1 ≤ noTextVisionPrefix.length ∧ noTextVisionPrefix.length ≤ maxVisionSummary := by decide
  have hfits : 1 ≤ (noTextVisionPrefix ++ truncateText ("\n".intercalate o.sections)
      (maxVisionSummary - noTextVisionPrefix.length)).length ∧ (noTextVisionPrefix ++
        truncateText ("\n".intercalate o.sections) (maxVisionSummary - noTextVisionPrefix.length)).length ≤
          maxVisionSummary := by
    rw [String.length_append]
    omega
  refine ⟨⟨_, hfits⟩, ?_, rfl⟩
  unfold mediaEvidenceToAttachmentOutput Bounded.check
  rw [dif_pos hfits]
  rfl

theorem mediaSummary_ok (hline : env.text.isDecimal '\n' = false) {t : String}
    (h : env.mediaSummary id mediaType first repair = .ok t) :
    ∃ shown, t = noTextVisionPrefix ++ shown ∧ ShowsEvidence env id mediaType shown := by
  simp only [VisionEnv.mediaSummary, bind_ok, ofResult_ok, pure_ok] at h
  obtain ⟨o, -, ⟨⟩, hcontract, output, houtput, ⟨⟩, hpublishable, rfl⟩ := h
  obtain ⟨output', houtput', hvalue⟩ := mediaEvidenceToAttachmentOutput_eq o
  obtain rfl := Except.ok.inj (houtput'.symm.trans houtput)
  simp only [validateMediaEvidenceContract, bind_ok, require_ok] at hcontract
  obtain ⟨-, hid, -, hmodality, -, hread, -⟩ := hcontract
  have hshown : Publishable env.text output'.val := require_ok.mp hpublishable
  rw [hvalue] at hshown ⊢
  exact ⟨_, rfl, Or.inr ⟨o, hid, hmodality, hread, rfl, evidence_length o, publishable_of_prefixed hline hshown⟩⟩

/-- What can be shown after an enrichment was shown before it, or is an answer. -/
theorem enriched_shows (hline : env.text.isDecimal '\n' = false) {summary : Option String} {image : ImageSource}
    {other : String} (h : safeVisionSummary (VisionEnv.enriched other
      (env.enrichAttachment id mediaType summary image first repair)).visionSummary = some shown) :
    safeVisionSummary summary = some shown ∨ ShowsEvidence env id mediaType shown := by
  unfold VisionEnv.enrichAttachment at h
  split_ifs at h with hoff hfake
  · exact Or.inl h
  · obtain rfl := Option.some.inj ((safeVisionSummary_prefixed _).symm.trans h)
    exact Or.inr (Or.inl rfl)
  · split at h
    · exact Or.inl h
    · exact absurd ((safeVisionSummary_unavailable _).symm.trans h) (by simp)
    · cases hsummary : env.mediaSummary id mediaType first repair with
      | error e =>
        rw [hsummary] at h
        exact absurd ((safeVisionSummary_unavailable _).symm.trans h) (by simp)
      | ok t =>
        rw [hsummary] at h
        obtain ⟨shown', rfl, hevidence⟩ := mediaSummary_ok hline hsummary
        obtain rfl := Option.some.inj ((safeVisionSummary_prefixed _).symm.trans h)
        exact Or.inr hevidence

end Answers

/-! ## Steps -/

section Tasks
variable (settings : MediaSettings) (m : Media) (o : RemoteObject)

theorem processImage_summary : (processImage settings m o).1.attachment.visionSummary = m.attachment.visionSummary ∨
    (processImage settings m o).1.attachment.visionSummary = o.enrichment.visionSummary := by
  unfold processImage
  dsimp only
  cases o.image with
  | error e => split_ifs <;> exact Or.inl rfl
  | ok sha256 =>
    dsimp only
    cases o.decoded with
    | error e => split_ifs <;> exact Or.inl rfl
    | ok =>
      dsimp only
      split_ifs
      · exact Or.inl rfl
      · exact Or.inr rfl
      · exact Or.inl rfl
      · exact Or.inr rfl

theorem processVideo_summary : (processVideo settings m o).1.attachment.visionSummary = m.attachment.visionSummary ∨
    (processVideo settings m o).1.attachment.visionSummary = none := by
  unfold processVideo
  split
  · exact Or.inl rfl
  · dsimp only
    split
    · exact Or.inl rfl
    · exact Or.inr rfl

theorem processRemoteMedia_summary :
    (processRemoteMedia settings m o).1.attachment.visionSummary = none ∨
      (processRemoteMedia settings m o).1.attachment.visionSummary = m.attachment.visionSummary ∨
      (processRemoteMedia settings m o).1.attachment.visionSummary = o.enrichment.visionSummary := by
  unfold processRemoteMedia
  dsimp only
  split_ifs
  · exact Or.inr (Or.inl rfl)
  · split
    · exact Or.inr (Or.inl rfl)
    · split
      · exact Or.inr (Or.inl (by split_ifs <;> rfl))
      · split
        · exact (processImage_summary settings _ o).imp id Or.inr
        · rcases processVideo_summary settings _ o with h | h
          · exact Or.inr (Or.inl h)
          · exact Or.inl h
  · exact Or.inl rfl

end Tasks

/-- What a task leaves in the summary of its attachment. -/
theorem runTask_summary (settings : MediaSettings) (task : MediaTask) (m : Media) (file : QuarantinedFile)
    (remote : RemoteObject) (e : Enrichment) :
    (runTask settings task m (file.enriched e) (remote.enriched e)).1.attachment.visionSummary = none ∨
      (runTask settings task m (file.enriched e) (remote.enriched e)).1.attachment.visionSummary =
        m.attachment.visionSummary ∨
      (runTask settings task m (file.enriched e) (remote.enriched e)).1.attachment.visionSummary =
        e.visionSummary := by
  cases task with
  | attachmentProcess =>
    unfold runTask processAttachment
    dsimp only
    split_ifs
    · exact Or.inr (Or.inl rfl)
    · cases file with
      | missing | unreadable => exact Or.inr (Or.inl rfl)
      | read sha256 sanitized =>
        dsimp only [QuarantinedFile.enriched]
        split_ifs
        · exact Or.inr (Or.inl rfl)
        · cases sanitized with
          | refused | crashed => exact Or.inr (Or.inl rfl)
          | image i =>
            dsimp only [Sanitized.enriched]
            split_ifs
            · exact Or.inr (Or.inl rfl)
            · exact Or.inr (Or.inr rfl)
  | mediaProcess =>
    exact processRemoteMedia_summary settings m (remote.enriched e)

section Steps
variable {settings : MediaSettings} {s : UploadState} {t : MediaDb} {x : UploadStep} {k : Id} {b : Attachment}

theorem saveMedia_summary {db : MediaDb} {loaded new : Media}
    (hb : (db.saveMedia loaded new).attachments.get k = some b) :
    ∃ a, db.attachments.get k = some a ∧ (b.visionSummary = a.visionSummary ∨ loaded.id = k ∧
      new.attachment.visionSummary ≠ loaded.attachment.visionSummary ∧
        b.visionSummary = new.attachment.visionSummary) := by
  rcases Table.get_modify_cases hb with ⟨rfl, a, ha, rfl⟩ | ⟨-, ha⟩
  · refine ⟨a, ha, ?_⟩
    by_cases hnew : new.attachment.visionSummary = loaded.attachment.visionSummary
    · exact Or.inl (if_pos hnew)
    · exact Or.inr ⟨rfl, hnew, written_of_ne hnew _⟩
  · exact ⟨b, ha, Or.inl rfl⟩

/-- A summary was there before the step, or is what the worker's task has made of it. -/
theorem MediaStep.summary (h : MediaStep settings s t x) (hb : t.attachments.get k = some b) :
    b.visionSummary = none ∨ (∃ a, s.db.attachments.get k = some a ∧ b.visionSummary = a.visionSummary) ∨
      ∃ job task m file remote, s.worker = .executing job task m ∧ x = .execute file remote ∧ m.id = k ∧
        b.visionSummary = (runTask settings task m file remote).1.attachment.visionSummary := by
  have hsame : t.attachments = s.db.attachments → ∃ a, s.db.attachments.get k = some a ∧
      b.visionSummary = a.visionSummary := by
    intro heq
    exact ⟨b, heq ▸ hb, rfl⟩
  cases h with
  | quiet _ hattachments => exact Or.inr (Or.inl (hsame hattachments))
  | announced i incident device u hu hattachments =>
    rw [hattachments] at hb
    rcases Table.get_insert_cases hb with ⟨-, rfl⟩ | hold
    · exact Or.inl rfl
    · exact Or.inr (Or.inl ⟨b, hold, rfl⟩)
  | received i m sha256 receivedAt hw ht =>
    rw [ht] at hb
    obtain ⟨a, ha, hsummary⟩ := saveMedia_summary hb
    exact Or.inr (Or.inl ⟨a, ha, hsummary.resolve_right fun h => h.2.1 rfl⟩)
  | queued i m payload hw hlocal hidle ht => exact Or.inr (Or.inl (hsame (by rw [ht])))
  | completed i w m payload hw hc haccepts hattachments =>
    rw [hattachments] at hb
    rcases Table.get_modify_cases hb with ⟨-, a, ha, rfl⟩ | ⟨-, ha⟩
    · exact Or.inr (Or.inl ⟨a, ha, written_unchanged _ _⟩)
    · exact Or.inr (Or.inl ⟨b, ha, rfl⟩)
  | claimed job j hworker hj hdue ht => exact Or.inr (Or.inl (hsame (by rw [ht])))
  | executed job task m file remote hworker ht =>
    rw [ht] at hb
    obtain ⟨a, ha, hsummary⟩ := saveMedia_summary hb
    rcases hsummary with hkept | ⟨hid, -, hnew⟩
    · exact Or.inr (Or.inl ⟨a, ha, hkept⟩)
    · exact Or.inr (Or.inr ⟨job, task, m, file, remote, hworker, rfl, hid, hnew⟩)
  | finished job error hworker ht => exact Or.inr (Or.inl (hsame (by rw [ht])))
  | bound _ hattachments =>
    obtain ⟨a, ha, hupload⟩ := hattachments.left_of_some hb
    have hunbound : b.unbound = a.unbound := hupload
    have hsummary : b.unbound.visionSummary = a.unbound.visionSummary := congrArg Attachment.visionSummary hunbound
    exact Or.inr (Or.inl ⟨a, ha, hsummary⟩)

end Steps

/-! ## Runs -/

/-- What can be shown of the rows, and of the row that the worker holds, is an answer about its picture. -/
structure UploadState.ShowsAnswers (env : VisionEnv) (s : UploadState) : Prop where
  stored : ∀ k a shown, s.db.attachments.get k = some a → safeVisionSummary a.visionSummary = some shown →
    ∃ u, s.db.uploads.get k = some u ∧ ShowsEvidence env k u.mediaType shown
  executing : ∀ job task m shown, s.worker = .executing job task m →
    safeVisionSummary m.attachment.visionSummary = some shown → ShowsEvidence env m.id m.upload.mediaType shown

section Runs
variable {env : VisionEnv} {s : UploadState} {x : VisionTurn}

theorem taskEnrichment_shows (hline : env.text.isDecimal '\n' = false) {task : MediaTask} {m : Media}
    {file : QuarantinedFile} {readable : Bool} {other : String} {first repair : ProviderReply} {shown : String}
    (h : safeVisionSummary (taskEnrichment env task m file readable other first repair).visionSummary = some shown) :
    safeVisionSummary m.attachment.visionSummary = some shown ∨ ShowsEvidence env m.id m.upload.mediaType shown := by
  cases task with
  | attachmentProcess => exact enriched_shows hline h
  | mediaProcess =>
    rcases enriched_shows hline h with hnone | hshows
    · cases hnone
    · exact Or.inr hshows

/-- A task of the worker is executed with what the provider has answered only. -/
theorem VisionTurn.base_execute {file : QuarantinedFile} {remote : RemoteObject}
    (h : x.base env s = .execute file remote)
    {job : Id} {task : MediaTask} {m : Media} (hworker : s.worker = .executing job task m) :
    ∃ (file' : QuarantinedFile) (remote' : RemoteObject) (readable : Bool) (other : String)
      (first repair : ProviderReply),
        file = file'.enriched (taskEnrichment env task m file' readable other first repair) ∧
        remote = remote'.enriched (taskEnrichment env task m file' readable other first repair) := by
  cases x with
  | turn y => cases y <;> cases h
  | execute file' remote' readable other first repair =>
    unfold VisionTurn.base at h
    dsimp only at h
    rw [hworker] at h
    cases h
    exact ⟨file', remote', readable, other, first, repair, rfl, rfl⟩

theorem UploadState.ShowsAnswers.step (hline : env.text.isDecimal '\n' = false) (hs : s.Consistent env.media)
    (h : s.ShowsAnswers env) : (visionStep env s x).ShowsAnswers env where
  stored := by
    intro k b shown hb hshown
    have huploads := uploadStep_uploads env.media env.text s (x.base env s)
    rcases (uploadStep_media env.media env.text s (x.base env s)).summary hb with hnone | ⟨a, ha, hkept⟩ |
      ⟨job, task, m, file, remote, hworker, hx, rfl, hsummary⟩
    · rw [hnone] at hshown
      cases hshown
    · rw [hkept] at hshown
      obtain ⟨u, hu, hshows⟩ := h.stored k a shown ha hshown
      obtain ⟨v, hv, hfixed⟩ := huploads k u hu
      have htype : v.mediaType = u.mediaType := congrArg (·.2.1) hfixed
      exact ⟨v, hv, htype ▸ hshows⟩
    · obtain ⟨u, hu, hheld⟩ := (hs.executing job task m hworker).1.upload
      obtain ⟨v, hv, hfixed⟩ := huploads m.id u hu
      have htype : v.mediaType = m.upload.mediaType := congrArg (·.2.1) (hfixed.trans hheld)
      refine ⟨v, hv, htype ▸ ?_⟩
      obtain ⟨file', remote', readable, other, first, repair, rfl, rfl⟩ := VisionTurn.base_execute hx hworker
      rw [hsummary] at hshown
      rcases runTask_summary env.media task m file' remote'
        (taskEnrichment env task m file' readable other first repair) with hresult | hresult | hresult
      · rw [hresult] at hshown
        cases hshown
      · rw [hresult] at hshown
        exact h.executing job task m shown hworker hshown
      · rw [hresult] at hshown
        exact (taskEnrichment_shows hline hshown).elim (h.executing job task m shown hworker) id
  executing := by
    intro job task m shown hworker hshown
    have hstep := uploadStep_worker env.media env.text s (x.base env s)
    generalize hw : (uploadStep env.media env.text s (x.base env s)).worker = w at hstep
    have hwm : w = .executing job task m := hw.symm.trans hworker
    generalize x.base env s = y at hstep
    cases hstep with
    | kept _ => exact h.executing job task m shown hwm hshown
    | loaded job' j m' hclaimed hj hrunning hm =>
      obtain ⟨rfl, rfl, rfl⟩ := MediaWorker.executing.inj hwm
      obtain ⟨hid, ha, hu⟩ := media_ok hm
      obtain ⟨u, hu', hshows⟩ := h.stored _ _ shown ha hshown
      obtain rfl := Option.some.inj (hu.symm.trans hu')
      exact hid ▸ hshows
    | idle | claimed | refused | executed => cases hwm

theorem initial_showsAnswers (env : VisionEnv) (now : Time) : (UploadState.initial now).ShowsAnswers env where
  stored := by
    intro k a shown ha
    cases ha
  executing := by
    intro job task m shown hworker
    cases hworker

end Runs

/-- **Shown summaries obey.** In every run, whatever the provider sends back, what readers are shown of an attachment
is an answer about that attachment, of its kind, that fits the field and may be published. -/
theorem shown_summaries_obey (env : VisionEnv) (hline : env.text.isDecimal '\n' = false) (now : Time)
    (steps : List VisionTurn) {k : Id} {a : Attachment} {shown : String}
    (ha : (visionRun env now steps).db.attachments.get k = some a)
    (hshown : safeVisionSummary a.visionSummary = some shown) :
    ∃ u, (visionRun env now steps).db.uploads.get k = some u ∧ ShowsEvidence env k u.mediaType shown := by
  have h : (visionRun env now steps).Consistent env.media ∧ (visionRun env now steps).ShowsAnswers env :=
    run_invariant (visionStep env) (C := fun _ _ => True) (I := fun s => s.Consistent env.media ∧ s.ShowsAnswers env)
      (fun s x hs _ => ⟨uploadStep_consistent hs.1 _, hs.2.step hline hs.1⟩)
      ⟨initial_consistent env.media now, initial_showsAnswers env now⟩ (along_true _ _ _)
  exact h.2.stored k a shown ha hshown

namespace Sample

def evidenceJson : String :=
  "\x7b\"evidence_id\": \"attachment-0\", \"read_status\": \"readable\", \"modality\": \"image\", \"observations\": [" ++
  "\x7b\"frame_ref\": \"image_1\", \"fact\": \"路面有积水\", \"confidence\": 0.9\x7d], \"location_clues\": [], " ++
  "\"time_clues\": [], \"risk_signals\": [], \"manipulation_signals\": [], \"summary\": \"街道\", " ++
  "\"limitations\": [], \"confidence\": 0.8\x7d"

theorem wetRoad_bounds : (1 ≤ "attachment-0".length ∧ 1 ≤ "路面有积水".length) ∧ (0 ≤ (9 / 10 : ℚ) ∧ (9 / 10 : ℚ) ≤ 1) ∧
    ([] : List String).length ≤ 20 ∧ (0 ≤ "街道".length ∧ "街道".length ≤ 2000) ∧
      (0 ≤ (4 / 5 : ℚ) ∧ (4 / 5 : ℚ) ≤ 1) := by
  decide +kernel

def puddle : MediaObservation :=
  ⟨"image_1", none, ⟨"路面有积水", wetRoad_bounds.1.2⟩, ⟨9 / 10, wetRoad_bounds.2.1⟩⟩

theorem one_puddle : [puddle].length ≤ 50 := by decide

def noClues : AtMost 20 String := ⟨[], wetRoad_bounds.2.2.1⟩

def wetRoad : MediaEvidenceExtractionOutput :=
  { evidenceId := ⟨"attachment-0", wetRoad_bounds.1.1⟩
    readStatus := .readable
    modality := .image
    observations := ⟨[puddle], one_puddle⟩
    locationClues := noClues
    timeClues := noClues
    riskSignals := noClues
    manipulationSignals := noClues
    summary := ⟨"街道", wetRoad_bounds.2.2.2.1⟩
    limitations := noClues
    confidence := ⟨4 / 5, wetRoad_bounds.2.2.2.2⟩ }

def visionEnv : VisionEnv :=
  { env with
    settings := { settings with aiProvider := "openai_compatible" }
    str := fun j => match j with
      | .ref i => "attachment-" ++ toString i
      | _ => ""
    media := media
    evidenceModel := ⟨fun _ s => if s = evidenceJson then some wetRoad else none⟩ }

/-- The picture is uploaded, and the provider says what it shows. -/
def seenPicture : List VisionTurn :=
  [.turn (send (.imageIntent picture)), .turn (.serve 0), .turn (send (.content 0 "image/png" 10 "h")),
    .turn (.serve 1), .turn (send (.complete 0 .none)), .turn (.serve 2), .turn .claim, .turn .load,
    .execute (.read "h" (.image sanitizedPicture)) storedObject true "" (reply evidenceJson) .timeout]

end Sample

theorem seen_picture_is_shown : ∃ a shown u,
    (visionRun Sample.visionEnv 0 Sample.seenPicture).db.attachments.get 0 = some a ∧
      safeVisionSummary a.visionSummary = some shown ∧
      (visionRun Sample.visionEnv 0 Sample.seenPicture).db.uploads.get 0 = some u ∧
      ShowsEvidence Sample.visionEnv 0 u.mediaType shown := by
  have hsome : (((visionRun Sample.visionEnv 0 Sample.seenPicture).db.attachments.get 0).bind
      fun a => safeVisionSummary a.visionSummary).isSome = true := by decide +kernel
  obtain ⟨shown, hshown⟩ := Option.isSome_iff_exists.mp hsome
  obtain ⟨a, ha, hsummary⟩ := Option.bind_eq_some_iff.mp hshown
  have hline : Sample.visionEnv.text.isDecimal '\n' = false := by decide
  obtain ⟨u, hu, hshows⟩ := shown_summaries_obey Sample.visionEnv hline 0 Sample.seenPicture ha hsummary
  exact ⟨a, shown, u, ha, hsummary, hu, hshows⟩

end CrisisMosaic
