import CrisisMosaic.BoundAttachments
import CrisisMosaic.LiveJobs
import CrisisMosaic.Relational.Recorded

/-!
# Attachment announcements

Completing an upload announces `attachment.processing`; a job that ends without an
error announces `attachment.ready`, and any other `attachment.rejected`, in the
transaction that commits what the processing left of the row.
-/

namespace CrisisMosaic
open Relational

inductive AttachmentState
  | pending | processing | ready | rejected
  deriving DecidableEq

/-- `attachment_state` -/
def attachmentState (a : Attachment) (u : Upload) : AttachmentState :=
  if u.rejectionReason.any (· ≠ "") then .rejected
  else if a.metadataStatus = .ready && a.malwareScanStatus = .clean &&
      (a.sanitizedPath.any (· ≠ "") || u.objectKey.any (· ≠ "")) then .ready
  else if u.uploadedAt.isSome then .processing
  else .pending

def MediaDb.state (db : MediaDb) (id : Id) : Option AttachmentState :=
  match db.attachments.get id, db.uploads.get id with
  | some a, some u => some (attachmentState a u)
  | _, _ => none

/-- The events about an attachment; a rejection with the state its transaction commits. -/
inductive Announcement
  | processing (attachment : Id)
  | ready (attachment : Id)
  | rejected (attachment : Id) (state : Option AttachmentState)
  deriving DecidableEq

/-- The attachment a waiting request completes. -/
def Waiting.completes : Waiting → Option Id
  | .complete m _ | .callback m _ _ _ => some m.id
  | _ => none

section Announcing
variable (settings : MediaSettings) (text : TextLib)

def served (s : UploadState) (w : Waiting) : List Announcement :=
  match w.completes, serveRequest settings text s.now s.db w with
  | some id, .ok _ => [.processing id]
  | _, _ => []

def executed (s : UploadState) (task : MediaTask) (m : Media) (file : QuarantinedFile)
    (remote : RemoteObject) : List Announcement :=
  let (new, error) := runTask settings task m file remote
  match error with
  | none => [.ready m.id]
  | some _ => [.rejected m.id ((s.db.saveMedia m new).state m.id)]

def announcements (s : UploadState) : UploadStep → List Announcement
  | .serve i =>
    match s.waiting.get i with
    | some (some w) => served settings text s w
    | _ => []
  | .execute file remote =>
    match s.worker with
    | .executing _ task m => executed settings s task m file remote
    | _ => []
  | _ => []

end Announcing

/-- Announced rejected and not completed since; the latest announcement comes first. -/
def RejectedSince (a : Id) : List Announcement → Prop
  | [] => False
  | .rejected b _ :: l => b = a ∨ RejectedSince a l
  | .processing b :: l => b ≠ a ∧ RejectedSince a l
  | .ready _ :: l => RejectedSince a l

/-- Whoever is announced rejected is rejected, and is not announced ready before the next
completion. -/
def Faithful : List Announcement → Prop
  | [] => True
  | .rejected _ state :: l => state = some .rejected ∧ Faithful l
  | .ready a :: l => ¬ RejectedSince a l ∧ Faithful l
  | .processing _ :: l => Faithful l

/-! ### How an execution ends -/

def ClearsKodo (settings : MediaSettings) (m : Media) (o : RemoteObject) : Prop :=
  (∃ stat, o.stat = .ok stat ∧ checkStat m stat = .ok ()) ∧
    match m.upload.mediaType with
    | .image => (∃ sha256, o.image = .ok sha256) ∧ PassesImage settings m o
    | .video => PassesVideo settings o

/-- Every check is reached and passed. -/
def ClearsTask (settings : MediaSettings) (m : Media) (file : QuarantinedFile)
    (remote : RemoteObject) : MediaTask → Prop
  | .attachmentProcess => m.hasContent = true ∧ PassesLocal m file ∧ ∃ s i, file = .read s i
  | .mediaProcess =>
    m.hasObject ∧ (m.upload.storageProvider = .qiniuKodo → ClearsKodo settings m remote)

def RejectsLocal (m : Media) : QuarantinedFile → Prop
  | .missing | .unreadable => False
  | .read sha256 sanitized =>
    (sha256 ≠ m.upload.expectedSha256 ∨ some sha256 ≠ m.attachment.sha256) ∨
      (∃ e, sanitized = .refused e ∧ e.code ≠ "") ∨
      ∃ i, sanitized = .image i ∧ i.mime ≠ m.upload.declaredMimeType

def RejectsImage (settings : MediaSettings) (m : Media) (o : RemoteObject) : Prop :=
  ∃ sha256, o.image = .ok sha256 ∧
    (m.upload.sizeBytes ≤ settings.maxImageBytes ∧ sha256 ≠ m.upload.expectedSha256 ∨
      ∃ e, o.decoded = .error e ∧ e.code ≠ "")

def RejectsVideo (settings : MediaSettings) (o : RemoteObject) : Prop :=
  (∃ e, checkVideo settings o = .error e ∧ e.code ≠ "") ∨
    (∃ n, checkVideo settings o = .ok n) ∧ ∃ e, o.keyframes = .error e ∧ e.code ≠ ""

def RejectsKodo (settings : MediaSettings) (m : Media) (o : RemoteObject) : Prop :=
  ∃ stat, o.stat = .ok stat ∧ ((∃ e, checkStat m stat = .error e) ∨
    checkStat m stat = .ok () ∧ match m.upload.mediaType with
      | .image => RejectsImage settings m o
      | .video => RejectsVideo settings o)

/-- A check is reached and fails, and gives the reason of the rejection. -/
def RejectsTask (settings : MediaSettings) (m : Media) (file : QuarantinedFile)
    (remote : RemoteObject) : MediaTask → Prop
  | .attachmentProcess => m.hasContent = true ∧ RejectsLocal m file
  | .mediaProcess =>
    m.hasObject ∧ m.upload.storageProvider = .qiniuKodo ∧ RejectsKodo settings m remote

/-- The job has no attempt left and no other job of the attachment is live. -/
structure UploadState.LastAttempt (s : UploadState) (job attachment : Id) : Prop where
  exhausted : ∀ j, s.db.jobs.get job = some j → j.maxAttempts ≤ j.attempts
  only : ∀ k ∈ s.db.liveJobs attachment, k = job

/-- An execution passes its checks, or fails one that rejects the attachment at the last attempt;
a worker that has announced a rejection records the outcome of its job. -/
structure RejectsFinally (settings : MediaSettings) (s : UploadState) (x : UploadStep) : Prop where
  executed : ∀ file remote job task m, x = .execute file remote → s.worker = .executing job task m →
    ClearsTask settings m file remote task ∨
      RejectsTask settings m file remote task ∧ s.LastAttempt job m.id
  restarted : x = .restart → ∀ job e, s.worker ≠ .finishing job (some e)

section Executing
variable {settings : MediaSettings} {m : Media} {file : QuarantinedFile} {remote : RemoteObject}

/-- The execution raises and leaves a reason in the row. -/
def LeavesReason (r : Media × Option ApiError) : Prop :=
  r.2.isSome = true ∧ r.1.upload.rejectionReason.any (· ≠ "") = true

theorem reject_leavesReason (m : Media) {e : ApiError} (h : e.code ≠ "") :
    LeavesReason (m.reject e) := by
  simp [LeavesReason, Media.reject, Media.assess, h]

theorem checkStat_code {stat : RemoteStat} {e : ApiError} (h : checkStat m stat = .error e) :
    e.code ≠ "" := by
  unfold checkStat require at h
  by_cases hsize : stat.size = m.upload.sizeBytes
  · rw [if_pos hsize] at h
    by_cases hmime : stat.mimeType = m.upload.declaredMimeType ∧
        stat.mimeType ∈ allowedMimeTypes m.upload.mediaType
    · rw [if_pos hmime] at h
      exact nomatch h
    · rw [if_neg hmime] at h
      cases h
      simp
  · rw [if_neg hsize] at h
    cases h
    simp

theorem processAttachment_clears (h : ClearsTask settings m file remote .attachmentProcess) :
    (processAttachment m file).2 = none := by
  obtain ⟨hcontent, hpasses, sha256, sanitized, rfl⟩ := h
  obtain ⟨hsha, i, rfl, hmime⟩ := hpasses
  have hmatch : ¬ (sha256 ≠ m.upload.expectedSha256 ∨ some sha256 ≠ m.attachment.sha256) := by tauto
  unfold processAttachment
  rw [if_neg (by simp [hcontent])]
  dsimp only
  rw [if_neg hmatch, if_neg (not_not_intro hmime)]

theorem processAttachment_rejects (h : RejectsTask settings m file remote .attachmentProcess) :
    LeavesReason (processAttachment m file) := by
  obtain ⟨hcontent, hrejects⟩ := h
  unfold processAttachment
  rw [if_neg (by simp [hcontent])]
  cases file with
  | missing => exact hrejects.elim
  | unreadable => exact hrejects.elim
  | read sha256 sanitized =>
    dsimp only
    by_cases hsha : sha256 ≠ m.upload.expectedSha256 ∨ some sha256 ≠ m.attachment.sha256
    · rw [if_pos hsha]
      simp [LeavesReason, Media.assess]
    · rw [if_neg hsha]
      rcases hrejects with h | ⟨e, rfl, hcode⟩ | ⟨i, rfl, hmime⟩
      · exact absurd h hsha
      · simp [LeavesReason, Media.assess, hcode]
      · dsimp only
        rw [if_pos hmime]
        simp [LeavesReason, Media.assess]

theorem processImage_clears
    (h : (∃ sha256, remote.image = .ok sha256) ∧ PassesImage settings m remote) :
    (processImage settings m remote).2 = none := by
  obtain ⟨⟨sha256, himage⟩, hpasses⟩ := h
  obtain ⟨hsha, hdecoded⟩ := hpasses sha256 himage
  unfold processImage
  rw [himage, hdecoded]
  by_cases hsmall : m.upload.sizeBytes ≤ settings.maxImageBytes
  · simp [hsmall, hsha hsmall, Media.ready]
  · simp [hsmall, Media.ready]

theorem processImage_rejects (h : RejectsImage settings m remote) :
    LeavesReason (processImage settings m remote) := by
  obtain ⟨sha256, himage, hcases⟩ := h
  unfold processImage
  rw [himage]
  by_cases hmismatch : m.upload.sizeBytes ≤ settings.maxImageBytes ∧ sha256 ≠ m.upload.expectedSha256
  · simp [hmismatch.1, hmismatch.2, LeavesReason, Media.reject, Media.assess, hashMismatch,
      unprocessable]
  · obtain ⟨e, hdecoded, hcode⟩ := hcases.resolve_left hmismatch
    rw [hdecoded]
    by_cases hsmall : m.upload.sizeBytes ≤ settings.maxImageBytes
    · have hsha : sha256 = m.upload.expectedSha256 := by tauto
      simp [hsmall, hsha, LeavesReason, Media.reject, Media.assess, hcode]
    · simp [hsmall, LeavesReason, Media.reject, Media.assess, hcode]

theorem processVideo_clears (h : PassesVideo settings remote) :
    (processVideo settings m remote).2 = none := by
  obtain ⟨⟨durationMs, hvideo⟩, hkeyframes⟩ := h
  unfold processVideo
  rw [hvideo, hkeyframes]
  rfl

theorem processVideo_rejects (h : RejectsVideo settings remote) :
    LeavesReason (processVideo settings m remote) := by
  unfold processVideo
  rcases h with ⟨e, hvideo, hcode⟩ | ⟨⟨durationMs, hvideo⟩, e, hkeyframes, hcode⟩
  · rw [hvideo]
    exact reject_leavesReason m hcode
  · rw [hvideo, hkeyframes]
    exact reject_leavesReason _ hcode

theorem processRemoteMedia_clears (h : ClearsTask settings m file remote .mediaProcess) :
    (processRemoteMedia settings m remote).2 = none := by
  obtain ⟨hobject, hkodo⟩ := h
  unfold processRemoteMedia
  dsimp only
  rw [if_neg (by unfold Media.hasObject at hobject; tauto)]
  split_ifs with hprovider
  · obtain ⟨⟨stat, hstat, hchecked⟩, hmedia⟩ := hkodo hprovider
    rw [hstat]
    dsimp only
    rw [hchecked]
    dsimp only [Media.assess]
    cases hkind : m.upload.mediaType with
    | image =>
      rw [hkind] at hmedia
      exact processImage_clears hmedia
    | video =>
      rw [hkind] at hmedia
      exact processVideo_clears hmedia
  · rfl

theorem processRemoteMedia_rejects (h : RejectsTask settings m file remote .mediaProcess) :
    LeavesReason (processRemoteMedia settings m remote) := by
  obtain ⟨hobject, hprovider, stat, hstat, hcases⟩ := h
  unfold processRemoteMedia
  dsimp only
  rw [if_neg (by unfold Media.hasObject at hobject; tauto), if_pos hprovider, hstat]
  dsimp only
  rcases hcases with ⟨e, he⟩ | ⟨hchecked, hmedia⟩
  · rw [he]
    exact reject_leavesReason _ (checkStat_code he)
  · rw [hchecked]
    dsimp only [Media.assess]
    cases hkind : m.upload.mediaType with
    | image =>
      rw [hkind] at hmedia
      exact processImage_rejects hmedia
    | video =>
      rw [hkind] at hmedia
      exact processVideo_rejects hmedia

theorem runTask_clears {task : MediaTask} (h : ClearsTask settings m file remote task) :
    (runTask settings task m file remote).2 = none := by
  cases task with
  | attachmentProcess => exact processAttachment_clears h
  | mediaProcess => exact processRemoteMedia_clears h

theorem runTask_rejects {task : MediaTask} (h : RejectsTask settings m file remote task) :
    LeavesReason (runTask settings task m file remote) := by
  cases task with
  | attachmentProcess => exact processAttachment_rejects h
  | mediaProcess => exact processRemoteMedia_rejects h

end Executing
end CrisisMosaic
