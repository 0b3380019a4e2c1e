import CrisisMosaic.UploadServices

/-!
# Processing of uploaded attachments

`process_attachment` checks a quarantined file, `process_remote_media` an object in
remote storage. Both assign to the row as they go; the worker commits what was
assigned also when the checks fail.
-/

namespace CrisisMosaic
open Relational

/-- What visual enrichment leaves in the vision columns; it never fails the processing. -/
structure Enrichment where
  visionStatus : String
  visionSummary : Option String

structure SanitizedImage where
  path : String
  mime : String
  width : ℕ
  height : ℕ
  perceptualHash : String
  enrichment : Enrichment

/-- The end of `_sanitize_image`. -/
inductive Sanitized
  | image (i : SanitizedImage)
  | refused (e : ApiError)
  /-- The decoder raised something else. -/
  | crashed

/-- The quarantined file as the job finds it. -/
inductive QuarantinedFile
  | missing
  | unreadable
  | read (sha256 : String) (sanitized : Sanitized)

namespace Media

def assess (m : Media) (metadata : MetadataStatus) (malware : MalwareStatus)
    (reason : Option String) : Media :=
  { m with
    attachment := { m.attachment with metadataStatus := metadata, malwareScanStatus := malware }
    upload := { m.upload with rejectionReason := reason } }

def enrich (m : Media) (e : Enrichment) : Media :=
  { m with attachment := { m.attachment with
      visionStatus := e.visionStatus
      visionSummary := e.visionSummary } }

def hasContent (m : Media) : Bool := m.upload.originalPath.any (· ≠ "")

end Media

def uploadNotFinished : ApiError := conflictError "UPLOAD_NOT_FINISHED" "上传尚未完成" []

def hashMismatch (message : String) : ApiError := unprocessable "UPLOAD_HASH_MISMATCH" message

/-- The row `process_attachment` leaves in memory, and what it raises. -/
def processAttachment (m : Media) (file : QuarantinedFile) : Media × Option ApiError :=
  if m.hasContent = false then (m, some uploadNotFinished)
  else
    match file with
    | .missing => (m, some (conflictError "UPLOAD_CONTENT_MISSING" "隔离区文件不存在" []))
    | .unreadable => (m.assess .pending .pending none, some internalError)
    | .read sha256 sanitized =>
      if sha256 ≠ m.upload.expectedSha256 ∨ some sha256 ≠ m.attachment.sha256 then
        (m.assess .rejected .failed (some "UPLOAD_HASH_MISMATCH"),
          some (hashMismatch "处理前文件哈希复核失败"))
      else
        match sanitized with
        | .crashed => (m.assess .pending .clean none, some internalError)
        | .refused e => (m.assess .rejected .clean (some e.code), some e)
        | .image i =>
          if i.mime ≠ m.upload.declaredMimeType then
            (m.assess .rejected .clean (some "DECLARED_MIME_MISMATCH"),
              some ⟨415, "DECLARED_MIME_MISMATCH", "图片真实 MIME 与上传声明不一致", []⟩)
          else
            let m := m.assess .ready .clean none
            ({ m with attachment := { m.attachment with
                mimeType := some i.mime
                sanitizedPath := some i.path
                width := some i.width
                height := some i.height
                perceptualHash := some i.perceptualHash
                visionStatus := i.enrichment.visionStatus
                visionSummary := i.enrichment.visionSummary } }, none)

structure RemoteStat where
  size : ℕ
  hash : Option String
  mimeType : String

structure VideoInfo where
  durationMs : ℤ
  hasVideoStream : Bool

/-- What remote storage answers about an object. -/
structure RemoteObject where
  stat : Result RemoteStat
  /-- The digest of the bytes fetched for an image. -/
  image : Result String
  /-- Safe decoding of an image. -/
  decoded : Result Unit
  /-- `none` when the metadata of a video cannot be read. -/
  video : Result (Option VideoInfo)
  keyframes : Result Unit
  enrichment : Enrichment

namespace Media

/-- A check that fails rejects the row and raises; the malware status stays. -/
def reject (m : Media) (e : ApiError) : Media × Option ApiError :=
  (m.assess .rejected m.attachment.malwareScanStatus (some e.code), some e)

def ready (m : Media) : Media × Option ApiError :=
  (m.assess .ready m.attachment.malwareScanStatus m.upload.rejectionReason, none)

end Media

def allowedMimeTypes : MediaType → List String
  | .image => allowedImageMimeTypes
  | .video => allowedVideoMimeTypes

/-- The size and type of the stored object. -/
def checkStat (m : Media) (stat : RemoteStat) : Result Unit := do
  require (stat.size = m.upload.sizeBytes)
    ⟨422, "UPLOAD_SIZE_MISMATCH", "七牛云对象大小与上传声明不一致",
      [("declared", .nat m.upload.sizeBytes), ("actual", .nat stat.size)]⟩
  require (stat.mimeType = m.upload.declaredMimeType ∧
      stat.mimeType ∈ allowedMimeTypes m.upload.mediaType)
    ⟨415, "DECLARED_MIME_MISMATCH", "七牛云对象 MIME 与上传声明不一致", []⟩

/-- An image that is small enough is verified against its declared digest. -/
def processImage (settings : MediaSettings) (m : Media) (o : RemoteObject) :
    Media × Option ApiError :=
  let verify := m.upload.sizeBytes ≤ settings.maxImageBytes
  let m := if verify then m else { m with attachment := { m.attachment with sha256 := none } }
  match o.image with
  | .error e => (m, some e)
  | .ok sha256 =>
    if verify ∧ sha256 ≠ m.upload.expectedSha256 then
      m.reject (hashMismatch "七牛云对象哈希与声明不一致")
    else
      let m := if verify then { m with attachment := { m.attachment with sha256 := some sha256 } }
        else m
      match o.decoded with
      | .error e => m.reject e
      | .ok () => (m.enrich o.enrichment).ready

def videoMetadataInvalid (message : String) : ApiError :=
  unprocessable "VIDEO_METADATA_INVALID" message

def checkVideo (settings : MediaSettings) (o : RemoteObject) : Result ℕ := do
  let info ← o.video
  let info ← found info (videoMetadataInvalid "无法读取可信的视频元数据")
  require (0 < info.durationMs ∧ info.hasVideoStream = true)
    (videoMetadataInvalid "上传对象不包含可读取的视频流")
  require (info.durationMs ≤ settings.mediaMaxVideoDurationMs)
    ⟨413, "VIDEO_DURATION_EXCEEDED", "视频时长超过当前技术策略",
      [("max_video_duration_ms", .nat settings.mediaMaxVideoDurationMs)]⟩
  pure info.durationMs.toNat

def processVideo (settings : MediaSettings) (m : Media) (o : RemoteObject) :
    Media × Option ApiError :=
  match checkVideo settings o with
  | .error e => m.reject e
  | .ok durationMs =>
    let m := { m with upload := { m.upload with durationMs := some durationMs } }
    match o.keyframes with
    | .error e => m.reject e
    | .ok () => (m.enrich ⟨"unavailable", none⟩).ready

/-- Verifies an object in Kodo; any other remote provider is taken at its word. -/
def processRemoteMedia (settings : MediaSettings) (m : Media) (o : RemoteObject) :
    Media × Option ApiError :=
  let isKodo := m.upload.storageProvider = .qiniuKodo
  if m.upload.uploadedAt = none ∨ ¬ m.upload.objectKey.any (· ≠ "") then
    (m, some uploadNotFinished)
  else if isKodo then
    match o.stat with
    | .error e => (m, some e)
    | .ok stat =>
      match checkStat m stat with
      | .error e =>
        -- the digest the storage reports is adopted before the type is checked
        let m := if stat.size = m.upload.sizeBytes then
          { m with upload := { m.upload with etag := stat.hash <|> m.upload.etag } } else m
        m.reject e
      | .ok () =>
        let m := { m with
          attachment := { m.attachment with mimeType := some stat.mimeType }
          upload := { m.upload with etag := stat.hash <|> m.upload.etag } }
        let m := m.assess m.attachment.metadataStatus .clean none
        match m.upload.mediaType with
        | .image => processImage settings (m.enrich ⟨"unavailable", none⟩) o
        | .video => processVideo settings (m.enrich ⟨"unavailable", m.attachment.visionSummary⟩) o
  else
    let m := { m with attachment := { m.attachment with mimeType := some m.upload.declaredMimeType } }
    ((m.assess m.attachment.metadataStatus .clean none).enrich ⟨"unavailable", none⟩).ready

/-- The two kinds of media jobs. -/
def runTask (settings : MediaSettings) (task : MediaTask) (m : Media) (file : QuarantinedFile)
    (remote : RemoteObject) : Media × Option ApiError :=
  match task with
  | .attachmentProcess => processAttachment m file
  | .mediaProcess => processRemoteMedia settings m remote

end CrisisMosaic
