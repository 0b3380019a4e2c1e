import CrisisMosaic.Announcements
import CrisisMosaic.Relational.Acyclic

/-!
# Clusters of duplicate attachments

The processing of a quarantined picture looks up the oldest ready attachment of the incident
with its digest or its perceptual hash, names it as the original and joins its cluster; a
picture without one starts a cluster. The processing of remote media does none of that.
-/

namespace CrisisMosaic
open Relational Relation

/-- The columns `duplicate_of_attachment_id` and `source_cluster_id` of an attachment. -/
structure DuplicateLinks where
  duplicateOf : Option Id
  sourceClusterId : Option Id

structure ClusterState where
  uploads : UploadState
  links : Id → DuplicateLinks

/-- Equal hashes; an absent hash equals none. -/
def Attachment.SameContent (a b : Attachment) : Prop :=
  (a.sha256 ≠ none ∧ a.sha256 = b.sha256) ∨
    (a.perceptualHash ≠ none ∧ a.perceptualHash = b.perceptualHash)

instance (a b : Attachment) : Decidable (a.SameContent b) := by
  unfold Attachment.SameContent
  infer_instance

namespace MediaDb
variable (db : MediaDb)

/-- The ready attachments with the digest or the perceptual hash of a picture. -/
def duplicates (id incidentId : Id) (sha256 perceptualHash : String) : List Id :=
  db.attachments.select (fun a => a.incidentId = incidentId && a.metadataStatus = .ready &&
    (a.sha256 = some sha256 || a.perceptualHash = some perceptualHash)) |>.filter (· ≠ id)

def createdAt (id : Id) : Time := (db.attachments.get id).elim 0 (·.createdAt)

/-- The first by time of creation. -/
def oldest : List Id → Option Id
  | [] => none
  | id :: ids =>
    match oldest ids with
    | none => some id
    | some other => if db.createdAt id ≤ db.createdAt other then some id else some other

def oldestDuplicate (id incidentId : Id) (sha256 perceptualHash : String) : Option Id :=
  db.oldest (db.duplicates id incidentId sha256 perceptualHash)

end MediaDb

/-- The end of `process_attachment`. -/
def assignCluster (links : Id → DuplicateLinks) (id : Id) (duplicate : Option Id) :
    Id → DuplicateLinks :=
  match duplicate with
  | some original =>
    let cluster := (links original).sourceClusterId.getD original
    Function.update (Function.update links id ⟨some original, some cluster⟩) original
      { links original with sourceClusterId := some cluster }
  | none => Function.update links id { links id with sourceClusterId := some id }

section System
variable (settings : MediaSettings) (text : TextLib)

def clusterLinks (c : ClusterState) : UploadStep → Id → DuplicateLinks
  | .execute (.read sha256 (.image i)) _ =>
    match c.uploads.worker with
    | .executing _ .attachmentProcess m =>
      if (processAttachment m (.read sha256 (.image i))).2.isNone then
        assignCluster c.links m.id
          (c.uploads.db.oldestDuplicate m.id m.attachment.incidentId sha256 i.perceptualHash)
      else c.links
    | _ => c.links
  | _ => c.links

def clusterStep (c : ClusterState) (x : UploadStep) : ClusterState :=
  ⟨uploadStep settings text c.uploads x, clusterLinks c x⟩

end System

namespace ClusterState

def initial (now : Time) : ClusterState := ⟨.initial now, fun _ => ⟨none, none⟩⟩

def NamesOriginal (c : ClusterState) (i j : Id) : Prop := (c.links i).duplicateOf = some j

def SameCluster (c : ClusterState) (i j : Id) : Prop :=
  (c.links i).sourceClusterId ≠ none ∧ (c.links i).sourceClusterId = (c.links j).sourceClusterId

/-- Ready attachments of one incident with the same content are in one cluster, and no attachment
is its own duplicate, directly or through others. -/
structure Clustered (c : ClusterState) : Prop where
  shared : ∀ i j a b, c.uploads.db.attachments.get i = some a →
    c.uploads.db.attachments.get j = some b → i ≠ j → a.incidentId = b.incidentId →
    a.metadataStatus = .ready → b.metadataStatus = .ready → a.SameContent b → c.SameCluster i j
  acyclic : Acyclic c.NamesOriginal

/-- Every other ready attachment with the declared digest is in the cluster of this one. -/
def Gathered (c : ClusterState) (m : Media) : Prop :=
  ∀ j b, c.uploads.db.attachments.get j = some b → j ≠ m.id →
    b.incidentId = m.attachment.incidentId → b.metadataStatus = .ready →
    b.sha256 = some m.upload.expectedSha256 → c.SameCluster m.id j

end ClusterState

/-- The digest of the row a remote attachment is processed into is not dropped: it is dropped for
a picture that is too large to be verified. -/
def Media.KeepsDigest (settings : MediaSettings) (m : Media) (row : Attachment) : Prop :=
  if m.upload.storageProvider = .qiniuKodo ∧ m.upload.mediaType = .image then
    settings.maxImageBytes < m.upload.sizeBytes → m.attachment.sha256 = none ∧ row.sha256 ≠ none
  else row.sha256 ≠ none

/-- The attachment to which a waiting request writes the declared digest and leaves its status. -/
def Waiting.writesDigest : Waiting → Option Media
  | .content m _ _ => some m
  | .complete m _ | .callback m _ _ _ => if m.attachment.metadataStatus = .pending then some m else none
  | _ => none

/-- A remote attachment that becomes ready, or gets back its digest while it is ready, joins its
duplicates nowhere, so they are in its cluster already. A local one joins the oldest of its
duplicates: if one of them is remote, the others are with the oldest; and the oldest is not a
duplicate of it. -/
structure Gathers (settings : MediaSettings) (text : TextLib) (c : ClusterState) (x : UploadStep) :
    Prop where
  remote : ∀ file remote job m row, x = .execute file remote →
    c.uploads.worker = .executing job .mediaProcess m →
    ClearsTask settings m file remote .mediaProcess →
    c.uploads.db.attachments.get m.id = some row → m.KeepsDigest settings row → c.Gathered m
  late : ∀ i w m row t, x = .serve i → c.uploads.waiting.get i = some (some w) →
    w.writesDigest = some m → m.upload.storageProvider ≠ .localProxy →
    c.uploads.db.attachments.get m.id = some row → row.metadataStatus = .ready →
    m.attachment.sha256 = none →
    serveRequest settings text c.uploads.now c.uploads.db w = .ok t → c.Gathered m
  locals : ∀ sha256 i remote job m original, x = .execute (.read sha256 (.image i)) remote →
    c.uploads.worker = .executing job .attachmentProcess m →
    ClearsTask settings m (.read sha256 (.image i)) remote .attachmentProcess →
    c.uploads.db.oldestDuplicate m.id m.attachment.incidentId sha256 i.perceptualHash =
      some original →
    ((∃ j ∈ c.uploads.db.duplicates m.id m.attachment.incidentId sha256 i.perceptualHash,
        ∃ u, c.uploads.db.uploads.get j = some u ∧ u.storageProvider ≠ .localProxy) →
      ∀ j ∈ c.uploads.db.duplicates m.id m.attachment.incidentId sha256 i.perceptualHash,
        j ≠ original → c.SameCluster original j) ∧
    ¬ ReflTransGen c.NamesOriginal original m.id

/-- The perceptual hash is a function of the content. -/
def HashesContent (phash : String → String) (x : UploadStep) : Prop :=
  ∀ sha256 i remote, x = .execute (.read sha256 (.image i)) remote → i.perceptualHash = phash sha256

end CrisisMosaic
