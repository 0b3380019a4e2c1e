import CrisisMosaic.UploadRecords

/-!
# Upload services

The functions of `services/uploads.py` that create, resume and complete uploads.
A row that the caller loaded before the write lock is an argument; what the
function reads under the lock comes from the database.
-/

namespace CrisisMosaic
open Relational

/-- What a token-drawing request draws: the token and the end of its digest. -/
structure UploadToken where
  token : String
  fingerprint : String

structure ImageIntentRequest where
  incidentId : Id
  fileName : String
  mimeType : String
  sizeBytes : ℕ
  sha256 : String
  nonempty : 0 < sizeBytes

structure MediaIntentRequest where
  incidentId : Id
  mediaType : MediaType
  fileName : String
  mimeType : String
  sizeBytes : ℕ
  sha256 : String
  durationMs : Option ℕ
  resumableUpload : Bool
  nonempty : 0 < sizeBytes

structure ResumableSessionRequest where
  sizeBytes : ℕ
  sha256 : String
  clientCheckpointId : Option String
  nonempty : 0 < sizeBytes

structure ResumablePartRequest where
  partNumber : ℕ
  offset : ℕ
  sizeBytes : ℕ
  etag : String
  sha256 : Option String
  numbered : 1 ≤ partNumber
  nonempty : 0 < sizeBytes

structure UploadCompletePart where
  partNumber : ℕ
  etag : String
  sizeBytes : ℕ
  numbered : 1 ≤ partNumber
  nonempty : 0 < sizeBytes

structure UploadCompleteRequest where
  uploadSessionId : Option Id
  objectKey : Option String
  etag : Option String
  sizeBytes : Option ℕ
  parts : List UploadCompletePart

/-- A completion without a body. -/
def UploadCompleteRequest.none : UploadCompleteRequest := ⟨.none, .none, .none, .none, []⟩

def allowedImageMimeTypes : List String := ["image/jpeg", "image/png", "image/webp"]
def allowedVideoMimeTypes : List String := ["video/mp4", "video/quicktime", "video/webm"]

section Intents
variable (settings : MediaSettings) (now : Time)

def pendingAttachment (incidentId deviceId : Id) : Attachment :=
  { incidentId := incidentId
    reportId := none
    directedAnswerId := none
    uploaderDeviceId := deviceId
    metadataStatus := .pending
    malwareScanStatus := .pending
    mimeType := none
    sha256 := none
    perceptualHash := none
    sourceClusterId := none
    visionStatus := "pending"
    visionSummary := none
    sanitizedPath := none
    width := none
    height := none
    createdAt := now }

def createImageIntent (db : MediaDb) (deviceId : Id) (payload : ImageIntentRequest) :
    Result MediaDb := do
  require (payload.sizeBytes ≤ settings.maxImageBytes)
    ⟨413, "IMAGE_TOO_LARGE", "图片超过大小限制", [("max_bytes", .nat settings.maxImageBytes)]⟩
  require (payload.mimeType ∈ allowedImageMimeTypes)
    ⟨415, "UNSUPPORTED_IMAGE_TYPE", "仅支持 JPEG、PNG 和 WebP", []⟩
  pure { db with
    attachments := db.attachments.insert (pendingAttachment now payload.incidentId deviceId)
    uploads := db.uploads.insert
      { fileName := payload.fileName
        declaredMimeType := payload.mimeType
        mediaType := .image
        storageProvider := .localProxy
        objectKey := none
        etag := none
        sizeBytes := payload.sizeBytes
        expectedSha256 := payload.sha256
        durationMs := none
        originalPath := none
        policySnapshot := none
        rejectionReason := none
        uploadExpiresAt := now + minutes settings.uploadIntentMinutes
        uploadedAt := none } }

def mediaPolicy : Dict :=
  [("version", .str settings.mediaPolicyVersion),
    ("max_file_size_bytes", .nat settings.mediaMaxFileSizeBytes),
    ("max_report_total_bytes", .nat settings.mediaMaxReportTotalBytes),
    ("max_attachment_count", .nat settings.mediaMaxAttachmentCount),
    ("max_video_duration_ms", .nat settings.mediaMaxVideoDurationMs),
    ("max_parallel_uploads", .nat settings.mediaMaxParallelUploads),
    ("quota_remaining_bytes", .nat settings.mediaMaxReportTotalBytes)]

/-- `PurePath.suffix`: from the last dot on, which is neither the first nor the last character. -/
def pathSuffix (name : List Char) : List Char :=
  let tail := (name.reverse.takeWhile (· ≠ '.')).reverse
  if tail.length + 1 < name.length && tail ≠ [] then '.' :: tail else []

def objectSuffix (text : TextLib) (fileName mimeType : String) : String :=
  let suffix := (pathSuffix fileName.toList).flatMap text.lower
  if suffix ≠ [] && suffix.length ≤ 12 && suffix.all fun c => text.isAlnum c || c = '.' then
    String.ofList suffix
  else
    ([("image/jpeg", ".jpg"), ("image/png", ".png"), ("image/webp", ".webp"),
      ("video/mp4", ".mp4"), ("video/quicktime", ".mov"), ("video/webm", ".webm")].lookup
        mimeType).getD ".bin"

def checkMediaType (payload : MediaIntentRequest) : Result Unit :=
  match payload.mediaType with
  | .image =>
    require (payload.mimeType ∈ allowedImageMimeTypes)
      ⟨415, "UNSUPPORTED_IMAGE_TYPE", "仅支持 JPEG、PNG 和 WebP", []⟩
  | .video => do
    require (settings.enableVideoUpload = true) ⟨501, "VIDEO_UPLOAD_DISABLED", "视频上传尚未开放", []⟩
    require (payload.mimeType ∈ allowedVideoMimeTypes)
      ⟨415, "UNSUPPORTED_VIDEO_TYPE", "仅支持 MP4、MOV 和 WebM 视频", []⟩
    require (payload.durationMs.all (· ≤ settings.mediaMaxVideoDurationMs))
      ⟨413, "VIDEO_DURATION_EXCEEDED", "视频时长超过当前技术策略",
        [("max_video_duration_ms", .nat settings.mediaMaxVideoDurationMs)]⟩

/-- The quota of active sessions is checked here and nowhere else. -/
def createMediaIntent (text : TextLib) (db : MediaDb) (deviceId : Id) (payload : MediaIntentRequest) :
    Result MediaDb := do
  checkMediaType settings payload
  require (payload.sizeBytes ≤ settings.mediaMaxFileSizeBytes)
    ⟨413, "MEDIA_TOO_LARGE", "文件超过当前技术策略",
      [("max_file_size_bytes", .nat settings.mediaMaxFileSizeBytes)]⟩
  require (db.liveSessions now deviceId < settings.mediaSingleDeviceActiveSessions)
    ⟨429, "MEDIA_ACTIVE_SESSION_LIMIT", "当前设备未完成上传会话过多",
      [("max_active_sessions", .nat settings.mediaSingleDeviceActiveSessions)]⟩
  pure { db with
    attachments := db.attachments.insert (pendingAttachment now payload.incidentId deviceId)
    uploads := db.uploads.insert
      { fileName := payload.fileName
        declaredMimeType := payload.mimeType
        mediaType := payload.mediaType
        storageProvider := settings.mediaStorageProvider
        objectKey := some ("quarantine/incidents/" ++ toString payload.incidentId ++ "/attachments/" ++
          toString db.uploads.size ++ objectSuffix text payload.fileName payload.mimeType)
        etag := none
        sizeBytes := payload.sizeBytes
        expectedSha256 := payload.sha256
        durationMs := payload.durationMs
        originalPath := none
        policySnapshot := some (mediaPolicy settings)
        rejectionReason := none
        uploadExpiresAt := now + seconds settings.qiniuUploadTokenTtlSeconds
        uploadedAt := none } }

end Intents

section Sessions
variable (settings : MediaSettings) (now : Time)

/-- What `create_resumable_session` checks; a checkpoint is used once for an attachment. -/
def checkResumable (db : MediaDb) (m : Media) (deviceId : Id) (payload : ResumableSessionRequest) :
    Result Unit := do
  require (m.attachment.uploaderDeviceId = deviceId)
    (forbidden "ATTACHMENT_ACCESS_DENIED" "无权访问其他设备的附件")
  require (m.upload.uploadedAt = none)
    (conflictError "UPLOAD_ALREADY_FINISHED" "该附件内容已经上传" [])
  require (m.upload.sizeBytes = payload.sizeBytes ∧ m.upload.expectedSha256 = payload.sha256)
    (unprocessable "UPLOAD_FINGERPRINT_MISMATCH" "上传会话文件指纹不匹配")
  require (payload.clientCheckpointId.all fun checkpoint =>
      (db.sessions.find fun s =>
        s.attachmentId = m.id && s.clientCheckpointId = some checkpoint).isNone)
    internalError

def newSession (m : Media) (deviceId : Id) (payload : ResumableSessionRequest) (drawn : UploadToken) :
    MediaUploadSession :=
  { attachmentId := m.id
    residentDeviceId := deviceId
    provider := m.upload.storageProvider
    objectKey := m.upload.objectKey.getD ""
    uploadTokenFingerprint := drawn.fingerprint
    tokenExpiresAt := now + seconds settings.qiniuUploadTokenTtlSeconds
    chunkSizeBytes := settings.mediaRecommendedChunkSizeBytes
    maxParallelUploads := settings.mediaMaxParallelUploads
    expectedSizeBytes := payload.sizeBytes
    expectedSha256 := payload.sha256
    confirmedBytes := 0
    clientCheckpointId := payload.clientCheckpointId
    status := .active
    policySnapshot := m.upload.policySnapshot.getD (mediaPolicy settings)
    expiresAt := now + hours settings.mediaUploadSessionHours
    abortedAt := none }

def createResumableSession (db : MediaDb) (m : Media) (deviceId : Id)
    (payload : ResumableSessionRequest) (drawn : UploadToken) : Result MediaDb := do
  checkResumable db m deviceId payload
  pure { db with sessions := db.sessions.insert (newSession settings now m deviceId payload drawn) }

def notActive (message : String) : ApiError := conflictError "UPLOAD_SESSION_NOT_ACTIVE" message []

def MediaUploadPart.matches (p : MediaUploadPart) (payload : ResumablePartRequest) : Bool :=
  p.offset = payload.offset && p.sizeBytes = payload.sizeBytes && p.etag = payload.etag &&
    p.sha256 = payload.sha256

def newPart (sessionId : Id) (payload : ResumablePartRequest) : MediaUploadPart :=
  ⟨sessionId, payload.partNumber, payload.offset, payload.sizeBytes, payload.etag, payload.sha256⟩

/-- A part number is recorded once; whether the ranges of two parts overlap is not looked at. -/
def recordResumablePart (db : MediaDb) (sessionId : Id) (loaded : MediaUploadSession)
    (payload : ResumablePartRequest) : Result MediaDb := do
  require (loaded.status = .active) (notActive "上传会话不可写入分片")
  require (payload.offset + payload.sizeBytes ≤ loaded.expectedSizeBytes)
    (unprocessable "UPLOAD_PART_OUT_OF_RANGE" "分片范围超出文件大小")
  match db.parts.find fun p =>
      p.uploadSessionId = sessionId && p.partNumber = payload.partNumber with
  | some (_, existing) =>
    require (existing.matches payload = true)
      (conflictError "UPLOAD_PART_CONFLICT" "同一分片号已有不同检查点" [])
    pure db
  | none =>
    let db := { db with parts := db.parts.insert (newPart sessionId payload) }
    pure (db.saveSession sessionId loaded
      { loaded with confirmedBytes := db.confirmedSize sessionId })

/-- `missing_parts` of the session payload. -/
def missingParts (db : MediaDb) (sessionId : Id) (s : MediaUploadSession) : List (ℕ × ℕ) :=
  if s.expectedSizeBytes = 0 then []
  else
    let covered := ((db.partsOf sessionId).map (·.range)).dedup
    Ranges.gapsFrom s.expectedSizeBytes 0 (covered.insertionSort Ranges.Range.le)

def MediaUploadPart.payload (p : MediaUploadPart) : Json :=
  .obj [("part_number", .nat p.partNumber), ("offset", .nat p.offset),
    ("size_bytes", .nat p.sizeBytes), ("etag", .str p.etag), ("sha256", .opt .str p.sha256)]

/-- `_session_parts_payload` -/
def sessionPartsPayload (parts : List MediaUploadPart) : List Json :=
  (parts.insertionSort fun p q => p.partNumber ≤ q.partNumber).map (·.payload)

def missingPart (gap : ℕ × ℕ) : Json := .obj [("offset", .nat gap.1), ("size_bytes", .nat gap.2)]

def resumableSessionPayload (uploadHost : String) (db : MediaDb) (sessionId : Id)
    (s : MediaUploadSession) (uploadToken : Option String) : Dict :=
  [("session_id", .ref sessionId),
    ("attachment_id", .ref s.attachmentId),
    ("provider", .str s.provider.value),
    ("object_key", .str s.objectKey),
    ("status", .str s.status.value),
    ("chunk_size_bytes", .nat s.chunkSizeBytes),
    ("max_parallel_uploads", .nat s.maxParallelUploads),
    ("confirmed_bytes", .nat s.confirmedBytes),
    ("confirmed_parts", .arr (sessionPartsPayload (db.partsOf sessionId))),
    ("missing_parts", .arr ((missingParts db sessionId s).map missingPart)),
    ("policy", .obj s.policySnapshot),
    ("token_expires_at", .time s.tokenExpiresAt),
    ("expires_at", .time s.expiresAt)] ++
  match uploadToken with
  | none => []
  | some token =>
    [("upload", .obj
      [("mode", .str "resumable"),
        ("method", .str "KODO_RESUMABLE_V2"),
        ("url", .str uploadHost),
        ("fields", .obj [("token", .str token), ("key", .str s.objectKey)])])]

/-- `expires_at` was read back from the database, the current time has its zone. -/
def renewResumableSession (db : MediaDb) (sessionId : Id) (loaded : MediaUploadSession)
    (drawn : UploadToken) : Result MediaDb := do
  require (loaded.status = .active) (notActive "上传会话不可续签")
  let expired ← Datetime.lt (.naive loaded.expiresAt) (.aware now)
  require (expired = false) ⟨410, "UPLOAD_SESSION_EXPIRED", "上传会话已过期", []⟩
  pure (db.saveSession sessionId loaded
    { loaded with
      uploadTokenFingerprint := drawn.fingerprint
      tokenExpiresAt := now + seconds settings.qiniuUploadTokenTtlSeconds })

/-- The body of `delete_resumable_session`. -/
def deleteResumableSession (db : MediaDb) (sessionId : Id) (loaded : MediaUploadSession) : MediaDb :=
  if loaded.status = .aborted then db
  else
    db.saveSession sessionId loaded { loaded with status := .aborted, abortedAt := some now }

end Sessions

section Completion
variable (settings : MediaSettings) (now : Time)

/-- A finished session need only hold parts whose sizes add up to the declared size. -/
def closeSession (db : MediaDb) (m : Media) (payload : UploadCompleteRequest) : Result MediaDb :=
  match payload.uploadSessionId with
  | none => pure db
  | some sessionId => do
    let s ← found ((db.sessions.get sessionId).filter fun s =>
        s.attachmentId = m.id && s.status = .active)
      ⟨404, "UPLOAD_SESSION_NOT_FOUND", "上传会话不存在或不可用", []⟩
    let storedSize := db.confirmedSize sessionId
    let declaredSize := (payload.parts.map (·.sizeBytes)).sum
    require (storedSize = m.upload.sizeBytes ∧ (declaredSize = 0 ∨ declaredSize = storedSize))
      (unprocessable "UPLOAD_PARTS_INCOMPLETE" "上传分片尚未完整确认")
    pure (db.saveSession sessionId s { s with status := .completed })

def mediaJob (task : MediaTask) (attachmentId : Id) : Job MediaPayload :=
  .enqueued now settings.jobMaxAttempts ⟨task, attachmentId⟩

/-- The attachment as a completed remote upload leaves it, to be processed again. -/
def Media.received (m : Media) (etag : Option String) : Media :=
  { m with
    attachment := { m.attachment with
      sha256 := some m.upload.expectedSha256
      metadataStatus := .pending
      malwareScanStatus := .pending }
    upload := { m.upload with
      etag := etag
      uploadedAt := some now
      originalPath := m.upload.objectKey } }

def completeRemoteUpload (db : MediaDb) (m : Media) (payload : UploadCompleteRequest) :
    Result MediaDb := do
  require (∀ declared ∈ m.upload.objectKey, ∀ key ∈ payload.objectKey,
      declared ≠ "" → key ≠ "" → declared = key)
    (unprocessable "UPLOAD_OBJECT_KEY_MISMATCH" "对象 Key 与上传意图不一致")
  require (∀ size ∈ payload.sizeBytes, size = m.upload.sizeBytes)
    (unprocessable "UPLOAD_SIZE_MISMATCH" "上传内容大小与声明不一致")
  let db ← closeSession db m payload
  let db := db.saveMedia m (m.received now payload.etag)
  pure { db with jobs := db.jobs.insert (mediaJob settings now .mediaProcess m.id) }

/-- One live job processes a local upload. -/
def queueProcessing (db : MediaDb) (m : Media) : Result MediaDb := do
  require (m.upload.uploadedAt ≠ none ∧ m.upload.originalPath.any (· ≠ "") = true)
    (conflictError "UPLOAD_NOT_FINISHED" "请先上传图片二进制内容" [])
  match db.jobs.find fun j => j.payload = ⟨.attachmentProcess, m.id⟩ && j.isLive with
  | some _ => pure db
  | none =>
    pure { db with jobs := db.jobs.insert (mediaJob settings now .attachmentProcess m.id) }

/-- The body of `complete_upload`. -/
def completeUpload (db : MediaDb) (m : Media) (payload : UploadCompleteRequest) : Result MediaDb :=
  if m.upload.storageProvider = .localProxy then queueProcessing settings now db m
  else completeRemoteUpload settings now db m payload

def finishSessions (db : MediaDb) (attachmentId : Id) : MediaDb :=
  { db with sessions := db.sessions.sweep fun s =>
      if s.attachmentId = attachmentId && s.status = .active then { s with status := .completed }
      else s }

/-- The body of `qiniu_upload_callback` under the lock. -/
def finishByCallback (db : MediaDb) (m : Media) (objectKey : String) (etag : Option String)
    (size : Option ℕ) : Result MediaDb := do
  let db ← completeRemoteUpload settings now db m ⟨none, some objectKey, etag, size, []⟩
  pure (finishSessions db m.id)

end Completion
end CrisisMosaic
