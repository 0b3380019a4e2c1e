import CrisisMosaic.CleanupPasses
import CrisisMosaic.Refinements
import CrisisMosaic.Storage.RoundRobin

/-!
# Images for the model

A refinement sends frames of its attachments along with the text. The attachments take turns
until the bytes of the request are used up, and each context says which images are its own.
-/

namespace CrisisMosaic
open Relational RoundRobin

/-! ## What is read -/

/-- The errors of the two readers, by their codes. -/
inductive MediaError
  | readFailed | pathInvalid | tooLarge | fetchFailed | imageTooLarge

def MediaError.code : MediaError → String
  | .readFailed => "AI_MEDIA_READ_FAILED"
  | .pathInvalid => "AI_MEDIA_PATH_INVALID"
  | .tooLarge => "AI_MEDIA_TOO_LARGE"
  | .fetchFailed => "QINIU_FETCH_FAILED"
  | .imageTooLarge => "IMAGE_TOO_LARGE"

/-- What `_read_report_attachment_visual` reports beside the frames, and its time limit. -/
inductive ReadLimitation
  | keyframeStatus (status : Option String)
  | processedMediaPath
  | failed (e : MediaError)
  | videoDuration
  | videoKeyframes (contents : List Bytes) (failures : List MediaError) (total : ℕ)
      (codes : List MediaError)
  | rawMediaProvider
  | timeout

/-- `value or 'missing'` -/
def orMissing : Option String → String
  | some s => if s = "" then "missing" else s
  | none => "missing"

def keyframeFailures (contents : List Bytes) (failures : List MediaError) (total : ℕ)
    (codes : List MediaError) : String :=
  let outcome := if contents = [] then "unavailable" else "partial_failure"
  outcome ++ ":" ++ toString failures.length ++ "/" ++ toString total ++ ":" ++
    ",".intercalate (codes.map MediaError.code)

def ReadLimitation.text : ReadLimitation → String
  | .keyframeStatus status => "keyframe_status:" ++ orMissing status
  | .processedMediaPath => "processed_media_path:missing"
  | .failed e => e.code
  | .videoDuration => "video_duration:missing"
  | .videoKeyframes contents failures total codes =>
    "video_keyframes:" ++ keyframeFailures contents failures total codes
  | .rawMediaProvider => "raw_media_provider:unavailable"
  | .timeout => "raw_media_read:timeout"

/-- An attachment of the request, and what came of reading it, unless the wait was over before. -/
structure AttachmentRead where
  id : Id
  row : AttachmentRow
  result : Option (List Bytes × Option ReadLimitation)

def AttachmentRead.frames (r : AttachmentRead) : List Bytes :=
  match r.result with
  | some (frames, _) => frames
  | none => []

/-- A read that was not waited for has timed out. -/
def AttachmentRead.limitation (r : AttachmentRead) : Option ReadLimitation :=
  match r.result with
  | some (_, limitation) => limitation
  | none => some .timeout

/-! ## Contexts -/

inductive RawMediaStatus
  | pending | unavailable | partiallyLoaded | loaded
  deriving DecidableEq

structure VideoContext where
  transcriptStatus : Option String
  transcriptText : Option String
  keyframeStatus : Option String

structure AttachmentContext where
  attachmentId : Id
  mediaType : String
  sha256 : Option String
  storageEtag : Option String
  sizeBytes : ℕ
  capturedAt : Option Time
  durationMs : Option ℕ
  visionStatus : String
  visionSummary : Option String
  rawMediaStatus : RawMediaStatus
  limitations : List String
  video : Option VideoContext
  /-- `model_image_indices` -/
  modelImageIndices : List ℕ
  modelImageKind : Option String

def truncationMarker : String := "\n【截断】媒体提取内容超过当前附件字段长度，已保留前部内容。"

def truncateText (value : String) (maxLength : ℕ) : String :=
  if value.length ≤ maxLength then value
  else String.ofList (value.toList.take (maxLength - truncationMarker.length)) ++ truncationMarker

def isReadyMediaStatus (status : Option String) : Bool :=
  status = some "ready" || status = some "succeeded"

def availableMediaText (status value : Option String) (maxLength : ℕ) : Option String :=
  if isReadyMediaStatus status then
    (value.filter (· ≠ "")).map fun text => truncateText text maxLength
  else none

/-- `_report_attachment_context` -/
def initialContext (id : Id) (a : AttachmentRow) : AttachmentContext :=
  let visionSummary := (safeVisionSummary a.visionSummary).bind fun summary =>
    availableMediaText (some a.visionStatus) (some summary) 3000
  let visionLimitations :=
    if visionSummary = none then ["vision_status:" ++ orMissing (some a.visionStatus)] else []
  let transcript := availableMediaText a.transcriptStatus a.transcriptText 5000
  { attachmentId := id
    mediaType := a.mediaType
    sha256 := a.sha256
    storageEtag := a.etag
    sizeBytes := a.sizeBytes
    capturedAt := a.capturedAt
    durationMs := a.durationMs
    visionStatus := a.visionStatus
    visionSummary := visionSummary
    rawMediaStatus := .pending
    limitations :=
      if a.mediaType = "video" ∧ transcript = none then
        visionLimitations ++ ["transcript_status:" ++ orMissing a.transcriptStatus]
      else visionLimitations
    video :=
      if a.mediaType = "video" then some ⟨a.transcriptStatus, transcript, a.keyframeStatus⟩
      else none
    modelImageIndices := []
    modelImageKind := none }

def budgetLimitation : String := "raw_media:omitted_total_byte_budget"

namespace AttachmentContext

def addLimitation (text : String) (c : AttachmentContext) : AttachmentContext :=
  { c with limitations := c.limitations ++ [text] }

/-- A frame is left out, which is said only once. -/
def omitFrame (c : AttachmentContext) : AttachmentContext :=
  if budgetLimitation ∈ c.limitations then c else c.addLimitation budgetLimitation

/-- The read was cancelled. -/
def cancel (c : AttachmentContext) : AttachmentContext :=
  { c with rawMediaStatus := .unavailable }.addLimitation ReadLimitation.timeout.text

/-- The images of the attachment are known. -/
def showImages (modelIndices : List ℕ) (frames : List Bytes) (limitation : Option ReadLimitation)
    (c : AttachmentContext) : AttachmentContext :=
  if modelIndices = [] then { c with rawMediaStatus := .unavailable }
  else
    { c with
      rawMediaStatus :=
        if modelIndices.length = frames.length ∧ limitation.isNone then .loaded
        else .partiallyLoaded
      modelImageIndices := modelIndices
      modelImageKind := some (if c.mediaType = "image" then "image" else "video_keyframe") }

def settle (modelIndices : List ℕ) (frames : List Bytes) (limitation : Option ReadLimitation)
    (c : AttachmentContext) : AttachmentContext :=
  match limitation with
  | some l => (c.showImages modelIndices frames limitation).addLimitation l.text
  | none => c.showImages modelIndices frames limitation

end AttachmentContext

/-! ## The selection -/

structure Selection where
  usedBytes : ℕ
  imagePayloads : List Bytes
  /-- `model_indices_by_attachment` -/
  modelIndices : ℕ → List ℕ
  contexts : List AttachmentContext

section Selecting
variable (budget : ℕ)

/-- The frame is sent if it fits. -/
def Selection.offer (s : Selection) (x : ℕ × Bytes) : Selection :=
  if budget < s.usedBytes + x.2.length then
    { s with contexts := s.contexts.modify x.1 AttachmentContext.omitFrame }
  else
    { s with
      usedBytes := s.usedBytes + x.2.length
      imagePayloads := s.imagePayloads ++ [x.2]
      modelIndices := Function.update s.modelIndices x.1
        (s.modelIndices x.1 ++ [(s.imagePayloads ++ [x.2]).length]) }

def selectFrames (indices : List ℕ) (frames : ℕ → List Bytes) (s : Selection) : Selection :=
  let maxFrameCount := (indices.map fun i => (frames i).length).foldl max 0
  (List.range maxFrameCount).foldl (fun s frameIndex => indices.foldl (fun s index =>
    match (frames index)[frameIndex]? with
    | some frame => s.offer budget (index, frame)
    | none => s) s) s

/-- The contexts before the selection. -/
def attachmentContexts (reads : List AttachmentRead) : List AttachmentContext :=
  reads.map fun r =>
    match r.result with
    | some _ => initialContext r.id r.row
    | none => (initialContext r.id r.row).cancel

def visualResults (reads : List AttachmentRead) (i : ℕ) :
    Option (List Bytes × Option ReadLimitation) :=
  reads[i]?.bind (·.result)

/-- `sorted(visual_results)` -/
def resultIndices (reads : List AttachmentRead) : List ℕ :=
  (List.range reads.length).filter fun i => (visualResults reads i).isSome

def visualFrames (reads : List AttachmentRead) (i : ℕ) : List Bytes :=
  ((visualResults reads i).map Prod.fst).getD []

def settleContexts (reads : List AttachmentRead) (s : Selection) : List AttachmentContext :=
  (resultIndices reads).foldl (fun contexts i => contexts.modify i (.settle (s.modelIndices i)
    (visualFrames reads i) ((visualResults reads i).bind Prod.snd))) s.contexts

/-- The media of `build_report_refinement_context`, once the reads are over or cancelled. -/
def buildReportRefinementImages (reads : List AttachmentRead) : List AttachmentContext × List Bytes :=
  let s := selectFrames budget (resultIndices reads) (visualFrames reads)
    ⟨0, [], fun _ => [], attachmentContexts reads⟩
  (settleContexts reads s, s.imagePayloads)

end Selecting

/-! ## Limitations of other origins -/

section Limitations

theorem budgetLimitation_ne_append {p : String} (h : p.toList.head? ≠ some 'r')
    (hp : p.toList ≠ []) (s : String) : budgetLimitation ≠ p ++ s := by
  intro heq
  have hhead := congrArg (fun t : String => t.toList.head?) heq
  rw [String.toList_append, List.head?_append_of_ne_nil _ hp] at hhead
  exact h hhead.symm

theorem ReadLimitation.text_ne (l : ReadLimitation) : l.text ≠ budgetLimitation := by
  refine Ne.symm ?_
  cases l with
  | keyframeStatus status => exact budgetLimitation_ne_append (by decide) (by decide) _
  | processedMediaPath => decide +kernel
  | failed e => cases e <;> decide +kernel
  | videoDuration => decide +kernel
  | videoKeyframes contents failures total codes =>
    exact budgetLimitation_ne_append (by decide) (by decide)
      (keyframeFailures contents failures total codes)
  | rawMediaProvider => decide +kernel
  | timeout => decide +kernel

theorem budgetLimitation_notMem_initial (id : Id) (a : AttachmentRow) :
    budgetLimitation ∉ (initialContext id a).limitations := by
  have hvision : budgetLimitation ≠ "vision_status:" ++ orMissing (some a.visionStatus) :=
    budgetLimitation_ne_append (by decide) (by decide) _
  have htranscript : budgetLimitation ≠ "transcript_status:" ++ orMissing a.transcriptStatus :=
    budgetLimitation_ne_append (by decide) (by decide) _
  unfold initialContext
  dsimp only
  split_ifs <;> simp [hvision, htranscript]

end Limitations

/-! ## The loop follows the turns -/

theorem le_foldl_max {l : List ℕ} {n : ℕ} (m : ℕ) (h : n ≤ m ∨ n ∈ l) : n ≤ l.foldl max m := by
  induction l generalizing m with
  | nil => exact h.resolve_right List.not_mem_nil
  | cons k l ih =>
    refine ih (max m k) ?_
    rcases h with h | h
    · exact .inl (h.trans (le_max_left m k))
    · exact (List.mem_cons.mp h).imp (fun hk => hk.le.trans (le_max_right m k)) id

/-- Some frame of the attachment was left out. -/
def note (left : Prop) [Decidable left] (c : AttachmentContext) : AttachmentContext :=
  if left then c.addLimitation budgetLimitation else c

/-- It is said once, however often a frame is left out. -/
theorem omitFrame_note {left : Prop} [Decidable left] {c : AttachmentContext}
    (h : budgetLimitation ∉ c.limitations) :
    (note left c).omitFrame = c.addLimitation budgetLimitation := by
  by_cases hleft : left
  · rw [note, if_pos hleft]
    exact if_pos (List.mem_append_right _ (List.mem_singleton_self _))
  · rw [note, if_neg hleft]
    exact if_neg h

section Turns
variable (budget : ℕ) (contexts : List AttachmentContext)

def sentSoFar (l : List (ℕ × Bytes)) : List (ℕ × Bytes) := taken List.length budget l

theorem sentSoFar_sublist (l : List (ℕ × Bytes)) : (sentSoFar budget l).Sublist l := taken_sublist l

def LeavesOut (l : List (ℕ × Bytes)) (i : ℕ) : Prop :=
  (ofRow i (sentSoFar budget l)).length < (ofRow i l).length

instance (l : List (ℕ × Bytes)) (i : ℕ) : Decidable (LeavesOut budget l i) := Nat.decLt _ _

/-- The selection after the offers of `l`, all of it told by the frames that were taken. -/
structure Tracks (l : List (ℕ × Bytes)) (s : Selection) : Prop where
  used : s.usedBytes = total List.length (sentSoFar budget l)
  images : s.imagePayloads = (sentSoFar budget l).map Prod.snd
  indices : ∀ i, s.modelIndices i = positions i (sentSoFar budget l)
  contexts : ∀ i, s.contexts[i]? = contexts[i]?.map (note (LeavesOut budget l i))

variable {budget} {contexts} {l : List (ℕ × Bytes)} {s : Selection} {x : ℕ × Bytes}

theorem leavesOut_fits (h : sentSoFar budget (l ++ [x]) = sentSoFar budget l ++ [x]) (i : ℕ) :
    LeavesOut budget (l ++ [x]) i ↔ LeavesOut budget l i := by
  rw [LeavesOut, LeavesOut, h, ofRow_append, ofRow_append, List.length_append, List.length_append]
  exact Nat.add_lt_add_iff_right

theorem leavesOut_passed (h : sentSoFar budget (l ++ [x]) = sentSoFar budget l) (i : ℕ) :
    LeavesOut budget (l ++ [x]) i ↔ i = x.1 ∨ LeavesOut budget l i := by
  have hle := (ofRow_sublist (sentSoFar_sublist budget l) i).length_le
  rw [LeavesOut, LeavesOut, h, ofRow_append, ofRow_singleton, List.length_append]
  by_cases hi : x.1 = i
  · rw [if_pos hi]
    refine iff_of_true ?_ (.inl hi.symm)
    rw [List.length_singleton]
    omega
  · rw [if_neg hi]
    exact ⟨.inr, fun hor => hor.resolve_left (Ne.symm hi)⟩

theorem Tracks.offer (hs : Tracks budget contexts l s)
    (hclean : ∀ c ∈ contexts, budgetLimitation ∉ c.limitations) (x : ℕ × Bytes) :
    Tracks budget contexts (l ++ [x]) (s.offer budget x) := by
  have hstep : sentSoFar budget (l ++ [x]) =
      if total List.length (sentSoFar budget l) + x.2.length ≤ budget then sentSoFar budget l ++ [x]
      else sentSoFar budget l :=
    taken_append_singleton l x
  unfold Selection.offer
  by_cases hfits : budget < s.usedBytes + x.2.length
  · rw [if_pos hfits]
    rw [if_neg (by rw [← hs.used]; omega)] at hstep
    constructor
    · rw [hstep]
      exact hs.used
    · rw [hstep]
      exact hs.images
    · intro i
      rw [hstep]
      exact hs.indices i
    · intro i
      change (s.contexts.modify x.1 AttachmentContext.omitFrame)[i]? = _
      by_cases hi : x.1 = i
      · subst hi
        rw [List.getElem?_modify_eq, hs.contexts]
        cases hc : contexts[x.1]? with
        | none => rfl
        | some c =>
          have hnew := hclean c (List.mem_of_getElem? hc)
          change some (note (LeavesOut budget l x.1) c).omitFrame = some (note _ c)
          rw [omitFrame_note hnew, note, if_pos ((leavesOut_passed hstep x.1).mpr (.inl rfl))]
      · rw [List.getElem?_modify_ne _ _ hi, hs.contexts]
        congr 1
        funext c
        unfold note
        simp only [leavesOut_passed hstep, Ne.symm hi, false_or]
  · rw [if_neg hfits]
    rw [if_pos (by rw [← hs.used]; omega)] at hstep
    constructor
    · rw [hstep, total_append, ← hs.used]
      rfl
    · rw [hstep, List.map_append, ← hs.images]
      rfl
    · intro i
      rw [hstep, positions_append_singleton, ← hs.indices]
      dsimp only
      by_cases hi : x.1 = i
      · subst hi
        rw [if_pos rfl, Function.update_self, List.length_append, hs.images, List.length_map]
        rfl
      · rw [if_neg hi, Function.update_of_ne (Ne.symm hi)]
    · intro i
      rw [hs.contexts]
      congr 1
      funext c
      unfold note
      simp only [leavesOut_fits hstep]

theorem Tracks.run (hs : Tracks budget contexts l s)
    (hclean : ∀ c ∈ contexts, budgetLimitation ∉ c.limitations) (m : List (ℕ × Bytes)) :
    Tracks budget contexts (l ++ m) (m.foldl (Selection.offer budget) s) := by
  induction m generalizing l s with
  | nil => simpa using hs
  | cons x m ih =>
    have h := ih (hs.offer hclean x)
    rwa [List.append_assoc, List.singleton_append] at h

theorem tracks_start : Tracks budget contexts [] ⟨0, [], fun _ => [], contexts⟩ where
  used := rfl
  images := rfl
  indices := fun _ => rfl
  contexts := fun i => by
    have hnote : note (LeavesOut budget [] i) = id := funext fun c => if_neg (Nat.lt_irrefl 0)
    rw [hnote, Option.map_id_fun, id]

/-- The two loops make the offers of the schedule. -/
theorem selectFrames_eq (indices : List ℕ) (frames : ℕ → List Bytes) (s : Selection) :
    selectFrames budget indices frames s =
      (schedule indices frames ((indices.map fun i => (frames i).length).foldl max 0)).foldl
        (Selection.offer budget) s := by
  rw [← foldl_schedule, selectFrames]
  congr 1
  funext s k
  congr 1
  funext s i
  cases (frames i)[k]? <;> rfl

variable (budget) in
theorem tracks_selectFrames (hclean : ∀ c ∈ contexts, budgetLimitation ∉ c.limitations)
    (indices : List ℕ) (frames : ℕ → List Bytes) :
    ∃ turns, (∀ i ∈ indices, (frames i).length ≤ turns) ∧
      Tracks budget contexts (schedule indices frames turns)
        (selectFrames budget indices frames ⟨0, [], fun _ => [], contexts⟩) := by
  refine ⟨(indices.map fun i => (frames i).length).foldl max 0, fun i hi =>
    le_foldl_max 0 (.inr (List.mem_map.mpr ⟨i, hi, rfl⟩)), ?_⟩
  rw [selectFrames_eq]
  exact tracks_start.run hclean _

end Turns

/-! ## The contexts in the end -/

/-- Each index is written once. -/
theorem getElem?_foldl_modify {α : Type*} (f : ℕ → α → α) {is : List ℕ} (his : is.Nodup) (l : List α)
    (k : ℕ) : (is.foldl (fun l i => l.modify i (f i)) l)[k]? =
      if k ∈ is then l[k]?.map (f k) else l[k]? := by
  induction is generalizing l with
  | nil => rfl
  | cons i is ih =>
    obtain ⟨hi, his⟩ := List.nodup_cons.mp his
    rw [List.foldl_cons, ih his]
    by_cases hk : i = k
    · subst hk
      rw [if_neg hi, if_pos List.mem_cons_self, List.getElem?_modify_eq]
      rfl
    · rw [List.getElem?_modify_ne _ _ hk]
      by_cases hmem : k ∈ is
      · rw [if_pos hmem, if_pos (List.mem_cons_of_mem i hmem)]
      · rw [if_neg hmem, if_neg fun h => (List.mem_cons.mp h).elim (fun h => hk h.symm) hmem]

section Outcome
variable {budget : ℕ} {reads : List AttachmentRead} {i : ℕ} {r : AttachmentRead}

theorem resultIndices_nodup (reads : List AttachmentRead) : (resultIndices reads).Nodup :=
  List.nodup_range.filter _

theorem mem_resultIndices (hr : reads[i]? = some r) : i ∈ resultIndices reads ↔ r.result.isSome := by
  have hlt := (List.getElem?_eq_some_iff.mp hr).1
  rw [resultIndices, List.mem_filter, List.mem_range, visualResults, hr]
  exact ⟨And.right, fun h => ⟨hlt, h⟩⟩

theorem visualFrames_eq (hr : reads[i]? = some r) : visualFrames reads i = r.frames := by
  unfold visualFrames visualResults AttachmentRead.frames
  rw [hr, Option.bind_some]
  cases r.result with
  | none => rfl
  | some x => rfl

/-- Whatever the outcome of the read, the limitation of the budget is none of the others. -/
theorem attachmentContexts_clean (reads : List AttachmentRead) :
    ∀ c ∈ attachmentContexts reads, budgetLimitation ∉ c.limitations := by
  intro c hc
  obtain ⟨r, -, rfl⟩ := List.mem_map.mp hc
  have hinitial := budgetLimitation_notMem_initial r.id r.row
  cases r.result with
  | some x => exact hinitial
  | none =>
    intro hmem
    rcases List.mem_append.mp hmem with hmem | hmem
    · exact hinitial hmem
    · exact ReadLimitation.timeout.text_ne (List.mem_singleton.mp hmem).symm

namespace AttachmentContext
variable {c : AttachmentContext} {indices : List ℕ} {frames : List Bytes}
  {limitation : Option ReadLimitation}

theorem settle_modelImageIndices (hc : c.modelImageIndices = []) :
    (c.settle indices frames limitation).modelImageIndices = indices := by
  have hshow : (c.showImages indices frames limitation).modelImageIndices = indices := by
    unfold showImages
    by_cases h : indices = []
    · rw [if_pos h]
      exact hc.trans h.symm
    · rw [if_neg h]
  cases limitation <;> exact hshow

theorem settle_loaded_iff : (c.settle indices frames limitation).rawMediaStatus = .loaded ↔
    indices ≠ [] ∧ indices.length = frames.length ∧ limitation = none := by
  have hshow : (c.showImages indices frames limitation).rawMediaStatus = .loaded ↔
      indices ≠ [] ∧ indices.length = frames.length ∧ limitation = none := by
    unfold showImages
    by_cases h : indices = []
    · rw [if_pos h]
      exact iff_of_false nofun fun hne => hne.1 h
    · rw [if_neg h]
      simp [h]
  cases limitation <;> exact hshow

theorem showImages_limitations :
    (c.showImages indices frames limitation).limitations = c.limitations := by
  unfold showImages
  split_ifs <;> rfl

theorem settle_count : (c.settle indices frames limitation).limitations.count budgetLimitation =
    c.limitations.count budgetLimitation := by
  cases limitation with
  | none => exact congrArg (List.count budgetLimitation) showImages_limitations
  | some l =>
    have hne : (l.text == budgetLimitation) ≠ true := fun h => l.text_ne (eq_of_beq h)
    change (_ ++ [l.text]).count budgetLimitation = _
    rw [List.count_append, showImages_limitations, List.count_singleton, if_neg hne, Nat.add_zero]

theorem note_count {left : Prop} [Decidable left] (h : budgetLimitation ∉ c.limitations) :
    (note left c).limitations.count budgetLimitation = if left then 1 else 0 := by
  by_cases hleft : left
  · rw [note, if_pos hleft, if_pos hleft]
    change (c.limitations ++ [budgetLimitation]).count budgetLimitation = 1
    rw [List.count_append, List.count_eq_zero.mpr h, List.count_singleton_self]
  · rw [note, if_neg hleft, if_neg hleft]
    exact List.count_eq_zero.mpr h

end AttachmentContext

/-- The images that a context claims for its attachment. -/
def AttachmentContext.sentFrames (images : List Bytes) (c : AttachmentContext) : List Bytes :=
  c.modelImageIndices.filterMap fun k => images[k - 1]?

/-- A context tells the truth about the images. -/
structure AttachmentRead.Told (r : AttachmentRead) (images : List Bytes) (c : AttachmentContext) :
    Prop where
  increasing : c.modelImageIndices.Pairwise (· < ·)
  own : (c.sentFrames images).Sublist r.frames
  loaded : c.rawMediaStatus = .loaded ↔
    r.frames ≠ [] ∧ c.sentFrames images = r.frames ∧ r.limitation = none
  omitted : c.limitations.count budgetLimitation = if c.sentFrames images = r.frames then 0 else 1

theorem sentFrames_of_positions {kept : List (ℕ × Bytes)} {c : AttachmentContext}
    (h : c.modelImageIndices = positions i kept) :
    c.sentFrames (kept.map Prod.snd) = ofRow i kept := by
  have hmap := congrArg (List.filterMap id) (map_positions i kept)
  rw [List.filterMap_map, List.filterMap_map] at hmap
  rw [AttachmentContext.sentFrames, h]
  exact hmap.trans List.filterMap_some

/-- The context of one attachment, once the turns are over. -/
theorem contexts_getElem? (hr : reads[i]? = some r) {s : Selection} {l : List (ℕ × Bytes)}
    (hs : Tracks budget (attachmentContexts reads) l s) (hl : r.result = none → ofRow i l = []) :
    ∃ c, (settleContexts reads s)[i]? = some c ∧
      c.modelImageIndices = positions i (sentSoFar budget l) ∧
      (c.rawMediaStatus = .loaded ↔ positions i (sentSoFar budget l) ≠ [] ∧
        (positions i (sentSoFar budget l)).length = r.frames.length ∧ r.limitation = none) ∧
      c.limitations.count budgetLimitation = if LeavesOut budget l i then 1 else 0 := by
  have hcontext := hs.contexts i
  rw [attachmentContexts, List.getElem?_map, hr, Option.map_some, Option.map_some] at hcontext
  have hset : (settleContexts reads s)[i]? = if i ∈ resultIndices reads then _ else _ :=
    getElem?_foldl_modify _ (resultIndices_nodup reads) s.contexts i
  rw [hcontext] at hset
  have hclean := budgetLimitation_notMem_initial r.id r.row
  cases hres : r.result with
  | none =>
    have hnone : i ∉ resultIndices reads := by
      rw [mem_resultIndices hr, hres]
      exact Bool.false_ne_true
    have hnil : ofRow i (sentSoFar budget l) = [] :=
      List.sublist_nil.mp (hl hres ▸ ofRow_sublist (taken_sublist l) i)
    have hpos : positions i (sentSoFar budget l) = [] :=
      List.eq_nil_of_length_eq_zero (by rw [length_positions, hnil, List.length_nil])
    have hleft : ¬ LeavesOut budget l i := by
      rw [LeavesOut, hnil, hl hres]
      exact Nat.lt_irrefl 0
    rw [if_neg hnone, hres] at hset
    refine ⟨_, hset, ?_⟩
    rw [if_neg hleft, hpos]
    refine ⟨?_, iff_of_false ?_ fun h => h.1 rfl, ?_⟩
    · rw [note, if_neg hleft]
      rfl
    · rw [note, if_neg hleft]
      exact nofun
    · rw [AttachmentContext.note_count ?_, if_neg hleft]
      intro hmem
      rcases List.mem_append.mp hmem with hmem | hmem
      · exact hclean hmem
      · exact ReadLimitation.timeout.text_ne (List.mem_singleton.mp hmem).symm
  | some x =>
    have hsome : i ∈ resultIndices reads := by
      rw [mem_resultIndices hr, hres]
      rfl
    rw [if_pos hsome, hres, visualFrames_eq hr, hs.indices] at hset
    have hlimitation : (visualResults reads i).bind Prod.snd = r.limitation := by
      rw [visualResults, hr, Option.bind_some, AttachmentRead.limitation, hres]
      rfl
    refine ⟨_, hset, ?_, ?_, ?_⟩
    · refine AttachmentContext.settle_modelImageIndices ?_
      unfold note
      split_ifs <;> rfl
    · rw [AttachmentContext.settle_loaded_iff, hlimitation]
    · rw [AttachmentContext.settle_count, AttachmentContext.note_count hclean]

/-- The indices are those of the images that were taken for the attachment. -/
theorem told_of_tracks (hr : reads[i]? = some r) {s : Selection} {l : List (ℕ × Bytes)}
    (hs : Tracks budget (attachmentContexts reads) l s) (hl : ofRow i l = r.frames) :
    ∃ c, (settleContexts reads s)[i]? = some c ∧
      c.modelImageIndices = positions i (sentSoFar budget l) ∧ r.Told s.imagePayloads c := by
  have hframes : r.result = none → ofRow i l = [] := by
    intro hres
    rw [hl, AttachmentRead.frames, hres]
  obtain ⟨c, hc, hindices, hloaded, hcount⟩ := contexts_getElem? hr hs hframes
  have hsent : c.sentFrames s.imagePayloads = ofRow i (sentSoFar budget l) := by
    rw [hs.images]
    exact sentFrames_of_positions hindices
  have hsub : (ofRow i (sentSoFar budget l)).Sublist r.frames := hl ▸ ofRow_sublist (taken_sublist l) i
  have hlen := length_positions i (sentSoFar budget l)
  refine ⟨c, hc, hindices, ?_, ?_, ?_, ?_⟩
  · rw [hindices]
    exact positions_increasing i _
  · rwa [hsent]
  · rw [hloaded, hsent, hlen]
    constructor
    · rintro ⟨hne, heq, hlimitation⟩
      have hall := hsub.eq_of_length heq
      refine ⟨fun hnil => hne (List.eq_nil_of_length_eq_zero ?_), hall, hlimitation⟩
      rw [hlen, hall, hnil, List.length_nil]
    · rintro ⟨hne, hall, hlimitation⟩
      refine ⟨fun hnil => hne ?_, congrArg List.length hall, hlimitation⟩
      rw [hnil, List.length_nil] at hlen
      rw [← hall]
      exact List.eq_nil_of_length_eq_zero hlen.symm
  · have hleft : LeavesOut budget l i ↔ ofRow i (sentSoFar budget l) ≠ r.frames := by
      rw [LeavesOut, hl]
      constructor
      · intro hlt heq
        rw [heq] at hlt
        exact Nat.lt_irrefl _ hlt
      · exact fun hne => lt_of_le_of_ne hsub.length_le fun heq => hne (hsub.eq_of_length heq)
    rw [hcount, hsent]
    by_cases hall : ofRow i (sentSoFar budget l) = r.frames
    · rw [if_pos hall, if_neg fun h => hleft.mp h hall]
    · rw [if_neg hall, if_pos (hleft.mpr hall)]

theorem length_foldl_modify {α : Type*} (f : ℕ → α → α) (is : List ℕ) (l : List α) :
    (is.foldl (fun l i => l.modify i (f i)) l).length = l.length := by
  induction is generalizing l with
  | nil => rfl
  | cons i is ih => exact (ih _).trans (List.length_modify _ _ _)

theorem settleContexts_length {s : Selection} {l : List (ℕ × Bytes)}
    (hs : Tracks budget (attachmentContexts reads) l s) :
    (settleContexts reads s).length = reads.length := by
  have hbound : ∀ i, s.contexts.length ≤ i ↔ reads.length ≤ i := by
    intro i
    rw [← List.getElem?_eq_none_iff, hs.contexts, Option.map_eq_none_iff, List.getElem?_eq_none_iff,
      attachmentContexts, List.length_map]
  rw [settleContexts, length_foldl_modify]
  exact le_antisymm ((hbound _).mpr le_rfl) ((hbound _).mp le_rfl)

/-- The schedule has the frames of each attachment whose read was waited for. -/
theorem ofRow_turns {turns : ℕ} (hr : reads[i]? = some r)
    (hturns : ∀ i ∈ resultIndices reads, (visualFrames reads i).length ≤ turns) :
    ofRow i (schedule (resultIndices reads) (visualFrames reads) turns) = r.frames := by
  by_cases hi : i ∈ resultIndices reads
  · rw [ofRow_schedule (resultIndices_nodup reads) hi _ (hturns i hi), visualFrames_eq hr]
  · rw [ofRow_schedule_of_notMem hi]
    rw [mem_resultIndices hr] at hi
    unfold AttachmentRead.frames
    cases hres : r.result with
    | none => rfl
    | some x => exact absurd (hres ▸ rfl) hi

/-- Only what was read has positions. -/
theorem lt_of_mem_positions {turns k : ℕ} (h : k ∈ positions i
    (sentSoFar budget (schedule (resultIndices reads) (visualFrames reads) turns))) :
    i < reads.length := by
  have hi : i ∈ resultIndices reads := by
    by_contra hi
    have hnil := List.sublist_nil.mp (ofRow_schedule_of_notMem hi (visualFrames reads) turns ▸
      ofRow_sublist (sentSoFar_sublist budget _) i)
    have hlen := (length_positions i _).trans (congrArg List.length hnil)
    exact List.ne_nil_of_mem h (List.eq_nil_of_length_eq_zero hlen)
  exact List.mem_range.mp (List.mem_filter.mp hi).1

end Outcome

/-- The images fit, and the contexts share out their numbers truthfully. -/
structure SentSoundly (budget : ℕ) (reads : List AttachmentRead)
    (contexts : List AttachmentContext) (images : List Bytes) : Prop where
  total : (images.map List.length).sum ≤ budget
  length : contexts.length = reads.length
  disjoint : ∀ (i j : ℕ) (c d : AttachmentContext), contexts[i]? = some c →
    contexts[j]? = some d → i ≠ j → ∀ k ∈ c.modelImageIndices, k ∉ d.modelImageIndices
  numbered : ∀ k, (∃ c ∈ contexts, k ∈ c.modelImageIndices) ↔ 1 ≤ k ∧ k ≤ images.length
  told : ∀ (i : ℕ) (r : AttachmentRead) (c : AttachmentContext), reads[i]? = some r →
    contexts[i]? = some c → r.Told images c

theorem soundly_of_tracks {budget : ℕ} {reads : List AttachmentRead} {s : Selection}
    {l : List (ℕ × Bytes)} (hs : Tracks budget (attachmentContexts reads) l s)
    (hl : ∀ (i : ℕ) (r : AttachmentRead), reads[i]? = some r → ofRow i l = r.frames)
    (hrows : ∀ i k, k ∈ positions i (sentSoFar budget l) → i < reads.length) :
    SentSoundly budget reads (settleContexts reads s) s.imagePayloads := by
  have htold := fun (i : ℕ) (r : AttachmentRead) (hr : reads[i]? = some r) =>
    told_of_tracks hr hs (hl i r hr)
  have hlength := settleContexts_length hs
  have hindices : ∀ (i : ℕ) (c : AttachmentContext), (settleContexts reads s)[i]? = some c →
      c.modelImageIndices = positions i (sentSoFar budget l) := by
    intro i c hc
    have hlt := (List.getElem?_eq_some_iff.mp hc).1
    obtain ⟨d, hd, hpos, -⟩ := htold i _ (List.getElem?_eq_getElem (hlength ▸ hlt))
    exact Option.some.inj (hd.symm.trans hc) ▸ hpos
  constructor
  · rw [hs.images, List.map_map]
    exact total_taken_le l
  · exact hlength
  · intro i j c d hc hd hij k hk
    rw [hindices i c hc] at hk
    rw [hindices j d hd]
    exact positions_disjoint hij hk
  · intro k
    rw [hs.images, List.length_map, ← exists_positions_iff]
    constructor
    · rintro ⟨c, hc, hk⟩
      obtain ⟨i, hi⟩ := List.mem_iff_getElem?.mp hc
      exact ⟨i, hindices i c hi ▸ hk⟩
    · rintro ⟨i, hk⟩
      obtain ⟨c, hc, hpos, -⟩ := htold i _ (List.getElem?_eq_getElem (hrows i k hk))
      exact ⟨c, List.mem_of_getElem? hc, hpos ▸ hk⟩
  · intro i r c hr hc
    obtain ⟨d, hd, -, htold⟩ := htold i r hr
    exact Option.some.inj (hd.symm.trans hc) ▸ htold

/-- The images fit, each is of one attachment, and the contexts say so. -/
theorem refinement_images_are_sound (budget : ℕ) (reads : List AttachmentRead) :
    SentSoundly budget reads (buildReportRefinementImages budget reads).1
      (buildReportRefinementImages budget reads).2 := by
  obtain ⟨turns, hturns, hs⟩ := tracks_selectFrames budget (attachmentContexts_clean reads)
    (resultIndices reads) (visualFrames reads)
  exact soundly_of_tracks hs (fun i r hr => ofRow_turns hr hturns) fun i k hk => lt_of_mem_positions hk

end CrisisMosaic
