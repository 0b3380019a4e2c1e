import Mathlib
import CrisisMosaic.Relational.Run
import CrisisMosaic.Storage.Files
import CrisisMosaic.UploadRequests

/-!
# Streaming the content of an attachment

`PUT …/content` checks the attachment it loaded, opens the quarantine file and copies the
body chunk by chunk; the write lock is taken for the commit only. Requests for one
attachment share the file, and what they do to it comes in any order.
-/

namespace CrisisMosaic
open Relational Storage

/-- What the client sends; it may hang up after the chunks. -/
structure ContentBody where
  chunks : List (List UInt8)
  dropped : Bool

def ContentBody.bytes (b : ContentBody) : List UInt8 := b.chunks.flatten

inductive ContentStage
  | checked
  /-- `received` went through the digest; its last bytes may still be in the buffer. -/
  | receiving (output : Handle UInt8) (remaining : List (List UInt8)) (received : List UInt8)
  | rejected (error : ApiError)
  | verified (new : Media)
  | committed
  | failed

namespace ContentStage

def output : ContentStage → Option (Handle UInt8)
  | receiving output _ _ => some output
  | _ => none

def ended : ContentStage → Bool
  | committed | failed => true
  | _ => false

/-- The file was opened, and the request did not fail since. -/
def present : ContentStage → Bool
  | checked | failed => false
  | _ => true

end ContentStage

structure ContentRequest where
  loaded : Media
  body : ContentBody
  stage : ContentStage

structure ContentState where
  now : Time
  media : Media
  files : FileSystem String UInt8
  requests : Table ContentRequest

inductive PutStep
  | tick (elapsed : ℕ)
  | arrive (actor : Actor) (header : Option Ref) (contentType : String) (body : ContentBody)
  | openFile (request : Id)
  | receive (request : Id)
  | flush (request : Id) (count : ℕ)
  | verify (request : Id)
  | unlink (request : Id)
  | commit (request : Id) (fails : Bool)

def Media.quarantinePath (m : Media) : String := "quarantine/" ++ toString m.id ++ ".upload"

theorem Media.quarantined_originalPath (m : Media) (sha256 : String) (receivedAt : Time) :
    (m.quarantined sha256 receivedAt).upload.originalPath = some m.quarantinePath := rfl

def Media.save (loaded new stored : Media) : Media :=
  { stored with
    attachment := Attachment.save loaded.attachment new.attachment stored.attachment
    upload := Upload.save loaded.upload new.upload stored.upload }

/-- The checks of `upload_content`. -/
def checkUploadContent (m : Media) (actor : Actor) (header : Option Ref) (contentType : String) :
    Result Unit := do
  authorizeAttachment actor header m.attachment
  require (m.upload.uploadedAt = none)
    (conflictError "UPLOAD_ALREADY_FINISHED" "该附件内容已经上传" [])
  require (contentType = m.upload.declaredMimeType)
    ⟨415, "DECLARED_MIME_MISMATCH", "Content-Type 与上传意图不一致", []⟩

/-! ## `stream_request_to_quarantine` -/

namespace ContentRequest
variable (settings : MediaSettings) (sha256 : List UInt8 → String) (now : Time)
  (files : FileSystem String UInt8) (r : ContentRequest)

def openFile : FileSystem String UInt8 × ContentStage :=
  match r.stage with
  | .checked =>
    if r.loaded.upload.uploadExpiresAt < now then (files, .failed)
    else
      let (files, output) := files.openWrite r.loaded.quarantinePath
      (files, .receiving output r.body.chunks [])
  | stage => (files, stage)

def receive : FileSystem String UInt8 × ContentStage :=
  match r.stage with
  | .receiving output (chunk :: remaining) received =>
    let total := (received ++ chunk).length
    if chunk = [] then (files, .receiving output remaining received)
    else if settings.maxImageBytes < total ∨ r.loaded.upload.sizeBytes < total then
      (files.close output,
        .rejected ⟨413, "IMAGE_TOO_LARGE", "上传内容超过声明或服务端大小限制", []⟩)
    else
      (files, .receiving { output with buffer := output.buffer ++ chunk } remaining (received ++ chunk))
  | stage => (files, stage)

def flush (count : ℕ) : FileSystem String UInt8 × ContentStage :=
  match r.stage with
  | .receiving output remaining received =>
    let (files, output) := files.flush output count
    (files, .receiving output remaining received)
  | stage => (files, stage)

def checkReceived (received : List UInt8) : Result Media := do
  require (received.length = r.loaded.upload.sizeBytes)
    ⟨422, "UPLOAD_SIZE_MISMATCH", "上传内容大小与声明不一致",
      [("declared", .nat r.loaded.upload.sizeBytes), ("actual", .nat received.length)]⟩
  require (sha256 received = r.loaded.upload.expectedSha256)
    ⟨422, "UPLOAD_HASH_MISMATCH", "上传内容哈希与声明不一致",
      [("expected", .str r.loaded.upload.expectedSha256), ("actual", .str (sha256 received))]⟩
  pure (r.loaded.quarantined (sha256 received) now)

/-- The body has ended: the file is closed, whether or not the client is still there. -/
def verify : FileSystem String UInt8 × ContentStage :=
  match r.stage with
  | .receiving output [] received =>
    (files.close output,
      if r.body.dropped then .failed
      else
        match r.checkReceived sha256 now received with
        | .ok new => .verified new
        | .error e => .rejected e)
  | stage => (files, stage)

def unlink : FileSystem String UInt8 × ContentStage :=
  match r.stage with
  | .rejected _ => (files.unlink r.loaded.quarantinePath, .failed)
  | stage => (files, stage)

end ContentRequest

namespace ContentState
variable (settings : MediaSettings) (sha256 : List UInt8 → String)

def initial (now : Time) (m : Media) (files : FileSystem String UInt8) : ContentState :=
  ⟨now, m, files, .empty⟩

def advance (s : ContentState) (i : Id)
    (f : FileSystem String UInt8 → ContentRequest → FileSystem String UInt8 × ContentStage) :
    ContentState :=
  match s.requests.get i with
  | none => s
  | some r =>
    { s with
      files := (f s.files r).1
      requests := s.requests.modify i fun q => { q with stage := (f s.files r).2 } }

/-- A commit that fails is rolled back. -/
def commit (s : ContentState) (i : Id) (fails : Bool) : ContentState :=
  match s.requests.get i with
  | some ⟨loaded, _, .verified new⟩ =>
    if fails then { s with requests := s.requests.modify i fun q => { q with stage := .failed } }
    else
      { s with
        media := Media.save loaded new s.media
        requests := s.requests.modify i fun q => { q with stage := .committed } }
  | _ => s

end ContentState

def putStep (settings : MediaSettings) (sha256 : List UInt8 → String) (s : ContentState) :
    PutStep → ContentState
  | .tick elapsed => { s with now := s.now + elapsed }
  | .arrive actor header contentType body =>
    match checkUploadContent s.media actor header contentType with
    | .ok _ => { s with requests := s.requests.insert ⟨s.media, body, .checked⟩ }
    | .error _ => s
  | .openFile i => s.advance i (ContentRequest.openFile s.now)
  | .receive i => s.advance i (ContentRequest.receive settings)
  | .flush i count => s.advance i fun files r => r.flush files count
  | .verify i => s.advance i (ContentRequest.verify sha256 s.now)
  | .unlink i => s.advance i ContentRequest.unlink
  | .commit i fails => s.commit i fails

abbrev putRun (settings : MediaSettings) (sha256 : List UInt8 → String) (now : Time) (m : Media)
    (files : FileSystem String UInt8) (steps : List PutStep) : ContentState :=
  run (putStep settings sha256) (.initial now m files) steps

end CrisisMosaic
