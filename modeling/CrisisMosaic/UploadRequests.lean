import CrisisMosaic.Relational.Run
import CrisisMosaic.UploadProcessing

/-!
# The upload service

A request loads its rows when it arrives and waits for the write lock; what it does
under the lock is a second step, so that other requests come in between. The worker
takes one job at a time: it claims it, loads the attachment, commits what the checks
left and records the outcome. A restart loses the requests and the execution.
-/

namespace CrisisMosaic
open Relational

inductive UploadCall
  | imageIntent (payload : ImageIntentRequest)
  | mediaIntent (payload : MediaIntentRequest)
  | content (attachment : Id) (contentType : String) (size : ℕ) (sha256 : String)
  | complete (attachment : Id) (payload : UploadCompleteRequest)
  | createSession (attachment : Id) (payload : ResumableSessionRequest)
  | recordPart (attachment session : Id) (payload : ResumablePartRequest)
  | renew (attachment session : Id)
  | delete (attachment session : Id)
  | callback (authorized : Bool) (objectKey : String) (etag : Option String) (size : Option ℕ)

structure UploadRequest where
  actor : Actor
  header : Option Ref
  drawn : UploadToken
  call : UploadCall

/-- A request that waits for the write lock, with the rows it loaded. -/
inductive Waiting
  | imageIntent (deviceId : Id) (payload : ImageIntentRequest)
  | mediaIntent (deviceId : Id) (payload : MediaIntentRequest)
  | content (m : Media) (sha256 : String) (receivedAt : Time)
  | complete (m : Media) (payload : UploadCompleteRequest)
  | createSession (m : Media) (deviceId : Id) (payload : ResumableSessionRequest)
      (drawn : UploadToken)
  | recordPart (session : Id) (loaded : MediaUploadSession) (payload : ResumablePartRequest)
  | renew (session : Id) (loaded : MediaUploadSession) (drawn : UploadToken)
  | delete (session : Id) (loaded : MediaUploadSession)
  | callback (m : Media) (objectKey : String) (etag : Option String) (size : Option ℕ)
  | answered

section Loading
variable (settings : MediaSettings) (now : Time) (db : MediaDb)

/-- `_authorize_attachment` -/
def authorizeAttachment (actor : Actor) (header : Option Ref) (a : Attachment) : Result Unit := do
  ensureIncidentAccess actor (.id a.incidentId) header
  require (actor.isResident = false ∨ a.uploaderDeviceId = actor.subjectId)
    (forbidden "ATTACHMENT_ACCESS_DENIED" "无权访问其他设备的附件")

def authorizedMedia (actor : Actor) (header : Option Ref) (id : Id) : Result Media := do
  let m ← db.media id
  authorizeAttachment actor header m.attachment
  pure m

def requireDevice (actor : Actor) (message : String) : Result Unit :=
  require (actor.isResident = true ∧ actor.subjectType = .device)
    (forbidden "RESIDENT_DEVICE_REQUIRED" message)

/-- `_assert_upload_session` -/
def uploadSession (attachment session : Id) : Result MediaUploadSession :=
  found ((db.sessions.get session).filter fun s => s.attachmentId = attachment)
    ⟨404, "UPLOAD_SESSION_NOT_FOUND", "上传会话不存在", []⟩

/-- The checks of `stream_request_to_quarantine`. -/
def checkContent (m : Media) (size : ℕ) (sha256 : String) : Result Unit := do
  require (now ≤ m.upload.uploadExpiresAt) ⟨410, "UPLOAD_INTENT_EXPIRED", "上传意图已过期", []⟩
  require (size ≤ settings.maxImageBytes ∧ size ≤ m.upload.sizeBytes)
    ⟨413, "IMAGE_TOO_LARGE", "上传内容超过声明或服务端大小限制", []⟩
  require (size = m.upload.sizeBytes)
    ⟨422, "UPLOAD_SIZE_MISMATCH", "上传内容大小与声明不一致",
      [("declared", .nat m.upload.sizeBytes), ("actual", .nat size)]⟩
  require (sha256 = m.upload.expectedSha256)
    ⟨422, "UPLOAD_HASH_MISMATCH", "上传内容哈希与声明不一致",
      [("expected", .str m.upload.expectedSha256), ("actual", .str sha256)]⟩

def Media.quarantined (m : Media) (sha256 : String) (receivedAt : Time) : Media :=
  { m with
    attachment := { m.attachment with sha256 := some sha256 }
    upload := { m.upload with
      originalPath := some ("quarantine/" ++ toString m.id ++ ".upload")
      uploadedAt := some receivedAt } }

/-- Everything a request does before it asks for the write lock. -/
def loadRequest (r : UploadRequest) : Result Waiting :=
  match r.call with
  | .imageIntent payload => do
    requireDevice r.actor "仅匿名居民设备可创建图片上传意图"
    ensureIncidentAccess r.actor (.id payload.incidentId) r.header
    pure (.imageIntent r.actor.subjectId payload)
  | .mediaIntent payload => do
    requireDevice r.actor "仅匿名居民设备可创建媒体上传意图"
    ensureIncidentAccess r.actor (.id payload.incidentId) r.header
    pure (.mediaIntent r.actor.subjectId payload)
  | .content attachment contentType size sha256 => do
    let m ← authorizedMedia db r.actor r.header attachment
    require (m.upload.uploadedAt = none)
      (conflictError "UPLOAD_ALREADY_FINISHED" "该附件内容已经上传" [])
    require (contentType = m.upload.declaredMimeType)
      ⟨415, "DECLARED_MIME_MISMATCH", "Content-Type 与上传意图不一致", []⟩
    checkContent settings now m size sha256
    pure (.content m sha256 now)
  | .complete attachment payload => do
    let m ← authorizedMedia db r.actor r.header attachment
    pure (.complete m payload)
  | .createSession attachment payload => do
    let m ← authorizedMedia db r.actor r.header attachment
    requireDevice r.actor "仅匿名居民设备可恢复上传"
    pure (.createSession m r.actor.subjectId payload r.drawn)
  | .recordPart attachment session payload => do
    let _ ← authorizedMedia db r.actor r.header attachment
    let s ← uploadSession db attachment session
    pure (.recordPart session s payload)
  | .renew attachment session => do
    let _ ← authorizedMedia db r.actor r.header attachment
    let s ← uploadSession db attachment session
    pure (.renew session s r.drawn)
  | .delete attachment session => do
    let _ ← authorizedMedia db r.actor r.header attachment
    let s ← uploadSession db attachment session
    pure (.delete session s)
  | .callback authorized objectKey etag size => do
    require (settings.mediaStorageProvider = .qiniuKodo)
      ⟨404, "QINIU_CALLBACK_DISABLED", "七牛云回调未启用", []⟩
    require (authorized = true) ⟨401, "QINIU_CALLBACK_UNAUTHORIZED", "七牛云回调签名校验失败", []⟩
    require (objectKey ≠ "") (unprocessable "QINIU_CALLBACK_INVALID" "回调缺少对象 key")
    let (id, _) ← found (db.uploads.find fun u => u.objectKey = some objectKey)
      ⟨404, "ATTACHMENT_NOT_FOUND", "附件不存在", []⟩
    let m ← db.media id
    -- a second callback for an object is answered without taking the lock
    pure (if m.upload.uploadedAt = none then .callback m objectKey etag size else .answered)

end Loading

/-- What a request does once it holds the write lock. -/
def serveRequest (settings : MediaSettings) (text : TextLib) (now : Time) (db : MediaDb) :
    Waiting → Result MediaDb
  | .imageIntent deviceId payload => createImageIntent settings now db deviceId payload
  | .mediaIntent deviceId payload => createMediaIntent settings now text db deviceId payload
  | .content m sha256 receivedAt => pure (db.saveMedia m (m.quarantined sha256 receivedAt))
  | .complete m payload => completeUpload settings now db m payload
  | .createSession m deviceId payload drawn =>
    createResumableSession settings now db m deviceId payload drawn
  | .recordPart session loaded payload => recordResumablePart db session loaded payload
  | .renew session loaded drawn => renewResumableSession settings now db session loaded drawn
  | .delete session loaded => pure (deleteResumableSession now db session loaded)
  | .callback m objectKey etag size => finishByCallback settings now db m objectKey etag size
  | .answered => pure db

inductive MediaWorker
  | idle
  | claimed (job : Id)
  | executing (job : Id) (task : MediaTask) (m : Media)
  | finishing (job : Id) (error : Option ApiError)

structure UploadState where
  now : Time
  db : MediaDb
  waiting : Table (Option Waiting)
  worker : MediaWorker

def UploadState.initial (now : Time) : UploadState := ⟨now, .empty, .empty, .idle⟩

inductive UploadStep
  | tick (elapsed : ℕ)
  | arrive (r : UploadRequest)
  | serve (request : Id)
  | claim
  | load
  | execute (file : QuarantinedFile) (remote : RemoteObject)
  | finish
  | restart
  /-- A report is created, patched or answered with: the attachments it names are bound. -/
  | bindReport (report : Id) (row : Report) (attachments : List Id)
  | rebindReport (report : Id) (row : Report) (attachments : List Id)
  | bindAnswer (answer incident device : Id) (attachments : List Id)

namespace UploadState

def withAttachments (s : UploadState) (attachments : Table Attachment) : UploadState :=
  { s with db := { s.db with attachments := attachments } }

/-- `_execute_job` before the processing: a job that is not running is skipped. -/
def startTask (db : MediaDb) (job : Id) : MediaWorker :=
  match db.jobs.get job with
  | none => .idle
  | some j =>
    if j.status ≠ .running then .idle
    else
      match db.media j.payload.attachmentId with
      | .error e => .finishing job (some e)
      | .ok m => .executing job j.payload.task m

end UploadState

section System
variable (settings : MediaSettings) (text : TextLib)

def uploadStep (s : UploadState) : UploadStep → UploadState
  | .tick elapsed => { s with now := s.now + elapsed }
  | .arrive r =>
    match loadRequest settings s.now s.db r with
    | .ok w => { s with waiting := s.waiting.insert (some w) }
    | .error _ => s
  | .serve i =>
    match s.waiting.get i with
    | some (some w) =>
      { s with
        db := commit s.db (serveRequest settings text s.now s.db w)
        waiting := s.waiting.modify i fun _ => none }
    | _ => s
  | .claim =>
    match s.worker, claimJob s.now settings.jobLeaseSeconds s.db.jobs with
    | .idle, some (job, jobs) => { s with db := { s.db with jobs := jobs }, worker := .claimed job }
    | _, _ => s
  | .load =>
    match s.worker with
    | .claimed job => { s with worker := UploadState.startTask s.db job }
    | _ => s
  | .execute file remote =>
    match s.worker with
    | .executing job task m =>
      let (new, error) := runTask settings task m file remote
      { s with db := s.db.saveMedia m new, worker := .finishing job error }
    | _ => s
  | .finish =>
    match s.worker with
    | .finishing job error =>
      { s with
        db := { s.db with jobs := finishJob s.now (error.map ("ApiError: " ++ ·.message)) s.db.jobs job }
        worker := .idle }
    | _ => s
  | .restart => { s with waiting := s.waiting.sweep fun _ => none, worker := .idle }
  | .bindReport report row ids =>
    match bindAttachments s.db.attachments report row ids with
    | .ok r => s.withAttachments r.1
    | .error _ => s
  | .rebindReport report row ids =>
    match replaceAttachments s.db.attachments report row ids with
    | .ok r => s.withAttachments r.1
    | .error _ => s
  | .bindAnswer answer incident device ids =>
    match replaceAnswerAttachments s.db.attachments answer incident device ids with
    | .ok attachments => s.withAttachments attachments
    | .error _ => s

abbrev uploadRun (now : Time) (steps : List UploadStep) : UploadState :=
  run (uploadStep settings text) (.initial now) steps

end System
end CrisisMosaic
