import CrisisMosaic.ConflictRoutes
import CrisisMosaic.Jobs
import CrisisMosaic.Ranges.Coverage
import CrisisMosaic.Relational.WriteBack

/-!
# Uploads: rows and settings

An attachment row is kept in two tables with the same keys: `Attachment` has the
columns the reports and answers read, `Upload` those of the upload itself. A
datetime read back from SQLite has no zone.
-/

namespace CrisisMosaic
open Relational

/-- A Python `datetime`. -/
inductive Datetime
  | aware (t : Time)
  | naive (t : Time)

/-- `<` on datetimes; comparing an aware with a naive one is a `TypeError`. -/
def Datetime.lt : Datetime → Datetime → Result Bool
  | .aware s, .aware t => pure (s < t)
  | .naive s, .naive t => pure (s < t)
  | _, _ => throw internalError

inductive MediaType
  | image | video
  deriving DecidableEq

inductive StorageProvider
  | localProxy | qiniuKodoMock | qiniuKodo
  deriving DecidableEq

def StorageProvider.value : StorageProvider → String
  | .localProxy => "local_proxy"
  | .qiniuKodoMock => "qiniu_kodo_mock"
  | .qiniuKodo => "qiniu_kodo"

structure MediaSettings where
  mediaStorageProvider : StorageProvider
  enableVideoUpload : Bool
  maxImageBytes : ℕ
  uploadIntentMinutes : ℤ
  mediaPolicyVersion : String
  mediaMaxFileSizeBytes : ℕ
  mediaMaxReportTotalBytes : ℕ
  mediaMaxAttachmentCount : ℕ
  mediaMaxVideoDurationMs : ℕ
  mediaMaxParallelUploads : ℕ
  mediaRecommendedChunkSizeBytes : ℕ
  mediaUploadSessionHours : ℤ
  mediaSingleDeviceActiveSessions : ℕ
  qiniuUploadTokenTtlSeconds : ℤ
  jobMaxAttempts : ℕ
  jobLeaseSeconds : ℤ

structure Upload where
  fileName : String
  declaredMimeType : String
  mediaType : MediaType
  storageProvider : StorageProvider
  objectKey : Option String
  etag : Option String
  sizeBytes : ℕ
  expectedSha256 : String
  durationMs : Option ℕ
  originalPath : Option String
  policySnapshot : Option Dict
  rejectionReason : Option String
  uploadExpiresAt : Time
  uploadedAt : Option Time

inductive SessionStatus
  | active | completed | aborted
  deriving DecidableEq

def SessionStatus.value : SessionStatus → String
  | .active => "active"
  | .completed => "completed"
  | .aborted => "aborted"

structure MediaUploadSession where
  attachmentId : Id
  residentDeviceId : Id
  provider : StorageProvider
  objectKey : String
  uploadTokenFingerprint : String
  tokenExpiresAt : Time
  chunkSizeBytes : ℕ
  maxParallelUploads : ℕ
  expectedSizeBytes : ℕ
  expectedSha256 : String
  confirmedBytes : ℕ
  clientCheckpointId : Option String
  status : SessionStatus
  policySnapshot : Dict
  expiresAt : Time
  abortedAt : Option Time

structure MediaUploadPart where
  uploadSessionId : Id
  partNumber : ℕ
  offset : ℕ
  sizeBytes : ℕ
  etag : String
  sha256 : Option String

def MediaUploadPart.range (p : MediaUploadPart) : Ranges.Range := (p.offset, p.offset + p.sizeBytes)

inductive MediaTask
  /-- `attachment.process` -/
  | attachmentProcess
  /-- `media.process` -/
  | mediaProcess
  deriving DecidableEq

structure MediaPayload where
  task : MediaTask
  attachmentId : Id
  deriving DecidableEq

structure MediaDb where
  attachments : Table Attachment
  uploads : Table Upload
  sessions : Table MediaUploadSession
  parts : Table MediaUploadPart
  jobs : Table (Job MediaPayload)

def MediaDb.empty : MediaDb := ⟨.empty, .empty, .empty, .empty, .empty⟩

namespace MediaUploadSession

/-- The columns requests assign to, written back over the row as it is now. -/
def save (loaded new stored : MediaUploadSession) : MediaUploadSession :=
  { stored with
    uploadTokenFingerprint :=
      written loaded.uploadTokenFingerprint new.uploadTokenFingerprint stored.uploadTokenFingerprint
    tokenExpiresAt := written loaded.tokenExpiresAt new.tokenExpiresAt stored.tokenExpiresAt
    confirmedBytes := written loaded.confirmedBytes new.confirmedBytes stored.confirmedBytes
    status := written loaded.status new.status stored.status
    abortedAt := written loaded.abortedAt new.abortedAt stored.abortedAt }

/-- Active and not past its expiry, as the database compares them. -/
def isLive (now : Time) (s : MediaUploadSession) : Bool := s.status = .active && now < s.expiresAt

end MediaUploadSession

def Upload.save (loaded new stored : Upload) : Upload :=
  { stored with
    etag := written loaded.etag new.etag stored.etag
    durationMs := written loaded.durationMs new.durationMs stored.durationMs
    originalPath := written loaded.originalPath new.originalPath stored.originalPath
    rejectionReason := written loaded.rejectionReason new.rejectionReason stored.rejectionReason
    uploadedAt := written loaded.uploadedAt new.uploadedAt stored.uploadedAt }

def Attachment.save (loaded new stored : Attachment) : Attachment :=
  { stored with
    metadataStatus := written loaded.metadataStatus new.metadataStatus stored.metadataStatus
    malwareScanStatus :=
      written loaded.malwareScanStatus new.malwareScanStatus stored.malwareScanStatus
    mimeType := written loaded.mimeType new.mimeType stored.mimeType
    sha256 := written loaded.sha256 new.sha256 stored.sha256
    perceptualHash := written loaded.perceptualHash new.perceptualHash stored.perceptualHash
    visionStatus := written loaded.visionStatus new.visionStatus stored.visionStatus
    visionSummary := written loaded.visionSummary new.visionSummary stored.visionSummary
    sanitizedPath := written loaded.sanitizedPath new.sanitizedPath stored.sanitizedPath
    width := written loaded.width new.width stored.width
    height := written loaded.height new.height stored.height }

/-- Both halves of an attachment row, as one request loaded them. -/
structure Media where
  id : Id
  attachment : Attachment
  upload : Upload

namespace MediaDb

def media (db : MediaDb) (id : Id) : Result Media := do
  let a ← found (db.attachments.get id) ⟨404, "ATTACHMENT_NOT_FOUND", "附件不存在", []⟩
  let u ← found (db.uploads.get id) ⟨404, "ATTACHMENT_NOT_FOUND", "附件不存在", []⟩
  pure ⟨id, a, u⟩

def saveMedia (db : MediaDb) (loaded new : Media) : MediaDb :=
  { db with
    attachments := db.attachments.modify loaded.id (Attachment.save loaded.attachment new.attachment)
    uploads := db.uploads.modify loaded.id (Upload.save loaded.upload new.upload) }

def saveSession (db : MediaDb) (id : Id) (loaded new : MediaUploadSession) : MediaDb :=
  { db with sessions := db.sessions.modify id (MediaUploadSession.save loaded new) }

def partIds (db : MediaDb) (sessionId : Id) : List Id :=
  db.parts.select fun p => p.uploadSessionId = sessionId

def partsOf (db : MediaDb) (sessionId : Id) : List MediaUploadPart :=
  (db.partIds sessionId).filterMap db.parts.get

def confirmedSize (db : MediaDb) (sessionId : Id) : ℕ :=
  ((db.partsOf sessionId).map (·.sizeBytes)).sum

def liveSessions (db : MediaDb) (now : Time) (deviceId : Id) : ℕ :=
  (db.sessions.select fun s => s.residentDeviceId = deviceId && s.isLive now).length

end MediaDb
end CrisisMosaic
