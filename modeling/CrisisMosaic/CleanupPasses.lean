import CrisisMosaic.ContactDeadlines
import CrisisMosaic.ErasedIncidents
import CrisisMosaic.Idempotency
import CrisisMosaic.Realtime
import CrisisMosaic.Relational.Outcomes
import CrisisMosaic.Sessions

/-!
# Cleanup passes

A whole pass of `cleanup_retention_once`, with the files it removes and what it counts. Deleted rows leave
their ids behind.
-/

namespace CrisisMosaic
open Relational

/-! ## The rows and the files -/

/-- A row of `report_attachments`. -/
structure AttachmentRow where
  incidentId : Id
  reportId : Option Id
  directedAnswerId : Option Id
  uploaderDeviceId : Id
  fileName : String
  declaredMimeType : String
  mediaType : String
  clientSource : Option String
  storageProvider : String
  bucket : Option String
  objectKey : Option String
  etag : Option String
  mimeType : Option String
  sizeBytes : ℕ
  expectedSha256 : String
  sha256 : Option String
  perceptualHash : Option String
  duplicateOfAttachmentId : Option Id
  sourceClusterId : Option String
  originalPath : Option String
  sanitizedPath : Option String
  thumbnailPath : Option String
  width : Option ℕ
  height : Option ℕ
  durationMs : Option ℕ
  coverPath : Option String
  previewPath : Option String
  transcriptStatus : Option String
  transcriptText : Option String
  transcodeStatus : Option String
  keyframeStatus : Option String
  processingProgress : ℕ
  policySnapshot : Option Dict
  capturedAt : Option Time
  exifData : Option Dict
  metadataStatus : String
  malwareScanStatus : String
  ocrStatus : String
  visionStatus : String
  ocrText : Option String
  visionSummary : Option String
  rejectionReason : Option String
  uploadExpiresAt : Time
  uploadedAt : Option Time
  createdAt : Time

/-- A row of `audit_logs`. -/
structure AuditLogRow where
  incidentId : Option Id
  actorType : String
  actorId : Option Id
  action : String
  resourceType : String
  resourceId : Option Id
  requestId : Option String
  details : Option Dict
  createdAt : Time

abbrev FilePath := List String

/-- What stands at a path. -/
inductive FileKind
  | file (removable : Bool)
  | other

abbrev FileTree := FilePath → Option FileKind

structure RetentionStore where
  rows : ResidentDb
  contacts : Table StoredContact
  attachments : Table AttachmentRow
  idempotencyRecords : IdempotencyRecords
  refreshSessions : Table (Option RefreshSession)
  outboxEvents : Table (Option OutboxRow)
  auditLogs : Table (Option AuditLogRow)
  files : FileTree

structure RetentionCleanupResult where
  idempotencyRecordsDeleted : ℕ := 0
  refreshSessionsDeleted : ℕ := 0
  outboxEventsDeleted : ℕ := 0
  auditLogsDeleted : ℕ := 0
  incidentsAnonymized : ℕ := 0
  reportsAnonymized : ℕ := 0
  reporterContactsAnonymized : ℕ := 0
  reportRevisionsAnonymized : ℕ := 0
  attachmentsAnonymized : ℕ := 0
  directedAnswersAnonymized : ℕ := 0
  answerRevisionsAnonymized : ℕ := 0
  fragmentsAnonymized : ℕ := 0
  conflictEvidenceAnonymized : ℕ := 0
  aiAnalysesAnonymized : ℕ := 0
  mapFeaturesRemoved : ℕ := 0
  filesDeleted : ℕ := 0
  unsafeStoragePathsSkipped : ℕ := 0

/-- `resolve` is `Path.resolve`. -/
structure CleanupEnv extends RetentionEnv where
  storageRoot : String
  resolve : String → FilePath
  realtimeReplayHours : ℤ
  auditRetentionDays : ℤ

def retentionReason : String := "RETENTION_EXPIRED"

def anonymizeAttachment (a : AttachmentRow) : AttachmentRow :=
  { a with
    fileName := retentionMarker
    mimeType := none
    sizeBytes := 0
    expectedSha256 := String.ofList (List.replicate 64 '0')
    sha256 := none
    perceptualHash := none
    duplicateOfAttachmentId := none
    sourceClusterId := none
    originalPath := none
    sanitizedPath := none
    thumbnailPath := none
    bucket := none
    objectKey := none
    etag := none
    width := none
    height := none
    durationMs := none
    coverPath := none
    previewPath := none
    capturedAt := none
    exifData := none
    metadataStatus := "expired"
    malwareScanStatus := "expired"
    ocrStatus := "expired"
    visionStatus := "expired"
    ocrText := none
    visionSummary := none
    transcriptStatus := some "expired"
    transcriptText := none
    transcodeStatus := some "expired"
    keyframeStatus := some "expired"
    policySnapshot := none
    rejectionReason := some retentionReason
    uploadedAt := none }

/-! What counts as anonymised already. -/

def Report.alreadyAnonymized (r : Report) : Bool :=
  r.deletedAt.isSome && r.contentOriginal = retentionMarker && r.contentDisplay = retentionMarker

def AttachmentRow.alreadyAnonymized (a : AttachmentRow) : Bool :=
  a.rejectionReason = some retentionReason && a.originalPath.isNone && a.sanitizedPath.isNone &&
    a.thumbnailPath.isNone

def DirectedAnswer.alreadyAnonymized (a : DirectedAnswer) : Bool := a.answerText = retentionMarker

def FragmentRow.alreadyAnonymized (f : FragmentRow) : Bool :=
  f.status = "expired" && f.description = retentionMarker

/-- Only features of the kinds the pass selects are removed. -/
def FeatureRow.alreadyRemoved (f : FeatureRow) : Bool :=
  !f.isProjected || (f.isDeleted && f.position.isNone && f.publicData = [] && f.privateData = [])

/-- A contact on hold is passed over. -/
def StoredContact.alreadyAnonymized (c : StoredContact) : Bool := c.legalHold || c.anonymizedAt.isSome

section Pass
variable (env : CleanupEnv) (now stamped : Time)

/-- `_delete_selected` -/
def deleteSelected {α : Type} (p : α → Bool) (t : Table (Option α)) : Table (Option α) × ℕ :=
  (t.sweep fun row => if row.any p then none else row, (t.select (·.any p)).length)

/-- `none` for a path that does not lie below the storage root. -/
def safeStorageFile (path : String) : Option FilePath :=
  let root := env.resolve env.storageRoot
  let candidate := env.resolve path
  if candidate = root ∨ ¬ root <+: candidate then none else some candidate

def quarantinePath (id : Id) : String := env.storageRoot ++ "/quarantine/" ++ env.pii.idText id ++ ".upload"

def attachmentPaths (id : Id) (a : AttachmentRow) : List String :=
  a.originalPath.toList ++ a.sanitizedPath.toList ++ a.thumbnailPath.toList ++ [quarantinePath env id]

/-- The paths of the attachments of an incident. -/
def RetentionStore.storedPaths (s : RetentionStore) (incidentId : Id) : List String :=
  (s.attachments.select (·.incidentId = incidentId)).flatMap fun id =>
    (s.attachments.get id).elim [] (attachmentPaths env id)

/-- `unlink` raises where the file cannot be removed. -/
def removeCandidate (x : FileTree × RetentionCleanupResult) (candidate : FilePath) :
    Result (FileTree × RetentionCleanupResult) :=
  let (files, result) := x
  match files candidate with
  | none => pure (files, result)
  | some .other =>
      pure (files, { result with unsafeStoragePathsSkipped := result.unsafeStoragePathsSkipped + 1 })
  | some (.file false) => throw internalError
  | some (.file true) =>
      pure (Function.update files candidate none, { result with filesDeleted := result.filesDeleted + 1 })

/-- `_remove_attachment_files` -/
def removeAttachmentFiles (paths : List String) (files : FileTree) (result : RetentionCleanupResult) :
    Result (FileTree × RetentionCleanupResult) :=
  let skipped := (paths.filter fun path => (safeStorageFile env path).isNone).length
  (paths.filterMap (safeStorageFile env)).dedup.foldlM removeCandidate
    (files, { result with unsafeStoragePathsSkipped := result.unsafeStoragePathsSkipped + skipped })

/-- `_anonymize_incident`, with the count of the incidents. -/
def cleanupIncident (x : RetentionStore × RetentionCleanupResult) (incidentId : Id) :
    Result (RetentionStore × RetentionCleanupResult) := do
  let (s, result) := x
  let o := s.rows.owners
  let reports := (unerased (fun r => some r.incidentId) Report.alreadyAnonymized s.rows.reports incidentId).length
  let contacts :=
    (unerased (fun c => some c.incidentId) StoredContact.alreadyAnonymized s.contacts incidentId).length
  let revisions := (unerased (fun r => o.report r.reportId) (fun r => isRetentionExpired r.snapshot)
    s.rows.revisions incidentId).length
  let (files, result) ← removeAttachmentFiles env (s.storedPaths env incidentId) s.files result
  let attachments :=
    (unerased (fun a => some a.incidentId) AttachmentRow.alreadyAnonymized s.attachments incidentId).length
  let answers := (unerased (fun a => o.question a.questionId) DirectedAnswer.alreadyAnonymized
    s.rows.answers incidentId).length
  let answerRevisions := (unerased (fun r => o.answer r.answerId) (fun r => isRetentionExpired r.snapshot)
    s.rows.answerRevisions incidentId).length
  let fragments :=
    (unerased (fun f => some f.incidentId) FragmentRow.alreadyAnonymized s.rows.fragments incidentId).length
  let evidence := (unerased (fun e => o.conflict e.conflictId) (fun e => isRetentionExpired e.snapshot)
    s.rows.evidence incidentId).length
  let analyses := (unerased (fun a => some a.incidentId) (fun a => isRetentionExpired a.inputSnapshot)
    s.rows.analyses incidentId).length
  let features :=
    (unerased (fun f => some f.incidentId) FeatureRow.alreadyRemoved s.rows.features incidentId).length
  let changed := [reports, contacts, revisions, attachments, answers, answerRevisions, fragments, evidence,
    analyses, features].any (· ≠ 0)
  pure (
    { s with
      rows := anonymizeIncident env.toEnv now stamped s.rows incidentId
      contacts := anonymizeContacts now env.contactDigest s.contacts incidentId
      attachments := eraseOwned (fun a => some a.incidentId) anonymizeAttachment s.attachments incidentId
      files := files },
    { result with
      reportsAnonymized := result.reportsAnonymized + reports
      reporterContactsAnonymized := result.reporterContactsAnonymized + contacts
      reportRevisionsAnonymized := result.reportRevisionsAnonymized + revisions
      attachmentsAnonymized := result.attachmentsAnonymized + attachments
      directedAnswersAnonymized := result.directedAnswersAnonymized + answers
      answerRevisionsAnonymized := result.answerRevisionsAnonymized + answerRevisions
      fragmentsAnonymized := result.fragmentsAnonymized + fragments
      conflictEvidenceAnonymized := result.conflictEvidenceAnonymized + evidence
      aiAnalysesAnonymized := result.aiAnalysesAnonymized + analyses
      mapFeaturesRemoved := result.mapFeaturesRemoved + features
      incidentsAnonymized := result.incidentsAnonymized + if changed then 1 else 0 })

/-- The deletions and the contacts of a pass. -/
def RetentionStore.expire (s : RetentionStore) : RetentionStore × RetentionCleanupResult :=
  let (idempotencyRecords, records) := deleteSelected (·.expiresAt ≤ now) s.idempotencyRecords
  let (refreshSessions, sessions) := deleteSelected (·.expiresAt ≤ now) s.refreshSessions
  let (outboxEvents, events) :=
    deleteSelected (fun r => r.publishedAt.any (· ≤ now - hours env.realtimeReplayHours)) s.outboxEvents
  let (auditLogs, logs) := deleteSelected (·.createdAt ≤ now - days env.auditRetentionDays) s.auditLogs
  ({ s with
      idempotencyRecords := idempotencyRecords
      refreshSessions := refreshSessions
      outboxEvents := outboxEvents
      auditLogs := auditLogs
      contacts := expireContacts now env.contactDigest s.contacts },
    { idempotencyRecordsDeleted := records
      refreshSessionsDeleted := sessions
      outboxEventsDeleted := events
      auditLogsDeleted := logs
      reporterContactsAnonymized := (s.contacts.select fun c => c.IsDue now).length })

/-- `cleanup_retention_once` -/
def RetentionStore.cleanup (s : RetentionStore) : Result (RetentionStore × RetentionCleanupResult) :=
  (s.rows.expired (now - days env.piiSettings.businessRetentionDays)).foldlM (cleanupIncident env now stamped)
    (s.expire env now)

end Pass

/-! ## Rows that are anonymised -/

section Rows
variable {now stamped : Time}

theorem anonymizeReport_flushed (r : Report) :
    anonymizeReport now (eraseReport now stamped r) = eraseReport now stamped r :=
  mark_flushed (fun r : Report => { r with updatedAt := stamped }) (anonymizeReport now) (fun _ => rfl)
    (fun _ => rfl) r

theorem anonymizeAnswer_flushed (a : DirectedAnswer) :
    anonymizeAnswer (eraseAnswer stamped a) = eraseAnswer stamped a :=
  mark_flushed (fun a : DirectedAnswer => { a with updatedAt := stamped }) anonymizeAnswer (fun _ => rfl)
    (fun _ => rfl) a

theorem anonymizeFragment_flushed (f : FragmentRow) :
    anonymizeFragment (eraseFragment stamped f) = eraseFragment stamped f :=
  mark_flushed (fun f : FragmentRow => { f with updatedAt := stamped }) anonymizeFragment (fun _ => rfl)
    (fun _ => rfl) f

theorem anonymizeFeature_flushed (f : FeatureRow) (hf : (eraseFeature stamped f).isProjected = true) :
    anonymizeFeature (eraseFeature stamped f) = eraseFeature stamped f := by
  have hkind : f.isProjected = true := by
    rwa [FeatureRow.isProjected, (eraseFeature_kept f).2] at hf
  rw [eraseFeature, if_pos hkind]
  exact mark_flushed (fun f : FeatureRow => { f with updatedAt := stamped }) anonymizeFeature (fun _ => rfl)
    (fun _ => rfl) f

theorem report_alreadyAnonymized {r : Report} (h : anonymizeReport now r = r) : r.alreadyAnonymized = true := by
  rw [← h]
  rfl

theorem attachment_alreadyAnonymized {a : AttachmentRow} (h : anonymizeAttachment a = a) :
    a.alreadyAnonymized = true := by
  rw [← h]
  rfl

theorem answer_alreadyAnonymized {a : DirectedAnswer} (h : anonymizeAnswer a = a) :
    a.alreadyAnonymized = true := by
  rw [← h]
  rfl

theorem fragment_alreadyAnonymized {f : FragmentRow} (h : anonymizeFragment f = f) :
    f.alreadyAnonymized = true := by
  rw [← h]
  rfl

theorem feature_alreadyRemoved {f : FeatureRow} (h : f.isProjected = true → anonymizeFeature f = f) :
    f.alreadyRemoved = true := by
  unfold FeatureRow.alreadyRemoved
  cases hf : f.isProjected with
  | false => rfl
  | true =>
    rw [← h hf]
    rfl

theorem eraseFeature_of_marked {f : FeatureRow} (h : f.isProjected = true → anonymizeFeature f = f) :
    eraseFeature stamped f = f := by
  unfold eraseFeature
  split_ifs with hf
  · exact flushed_of_marked (h hf)
  · rfl

theorem eraseUnless_flagged {α : Type} {flagged : α → Bool} {mark : α → α} (hflag : ∀ a, flagged (mark a) = true)
    (a : α) : flagged (eraseUnless flagged mark a) = true := by
  unfold eraseUnless
  split_ifs with ha
  · exact ha
  · exact hflag a

theorem eraseRevision_flagged (r : ReportRevision) : isRetentionExpired (eraseRevision r).snapshot = true :=
  @eraseUnless_flagged _ (fun r => isRetentionExpired r.snapshot) markRevision (fun _ => rfl) r

theorem eraseAnswerRevision_flagged (r : DirectedAnswerRevision) :
    isRetentionExpired (eraseAnswerRevision r).snapshot = true :=
  @eraseUnless_flagged _ (fun r => isRetentionExpired r.snapshot) markAnswerRevision (fun _ => rfl) r

theorem eraseEvidence_flagged (env : Env) (e : ConflictEvidence) :
    isRetentionExpired (eraseEvidence env e).snapshot = true :=
  @eraseUnless_flagged _ (fun e => isRetentionExpired e.snapshot) (markEvidence env) (fun _ => rfl) e

theorem eraseAnalysis_flagged (env : Env) (a : AiAnalysis) :
    isRetentionExpired (eraseAnalysis env now a).inputSnapshot = true :=
  @eraseUnless_flagged _ (fun a => isRetentionExpired a.inputSnapshot) (markAnalysis env now) (fun _ => rfl) a

theorem anonymizeAttachment_idem (a : AttachmentRow) :
    anonymizeAttachment (anonymizeAttachment a) = anonymizeAttachment a := rfl

theorem eraseUnless_of_flagged {α : Type} {flagged : α → Bool} {mark : α → α} {a : α} (h : flagged a = true) :
    eraseUnless flagged mark a = a := if_pos h

end Rows

/-! ## Files -/

section Files
variable (env : CleanupEnv)

/-- The files at the paths of the attachments lie below the storage root and can be removed. -/
def RetentionStore.PathsRemovable (s : RetentionStore) : Prop :=
  ∀ id a, s.attachments.get id = some a → ∀ path ∈ attachmentPaths env id a,
    ∃ c, safeStorageFile env path = some c ∧ ∀ kind ∈ s.files c, kind = .file true

variable {env}

theorem removeCandidate_file {files : FileTree} {c : FilePath} (h : ∀ kind ∈ files c, kind = .file true)
    (result : RetentionCleanupResult) : ∃ files' result', removeCandidate (files, result) c = .ok (files', result') ∧
      files' c = none ∧ ∀ d, files' d = files d ∨ files' d = none := by
  cases hc : files c with
  | none => exact ⟨files, result, by simp only [removeCandidate, hc]; rfl, hc, fun d => Or.inl rfl⟩
  | some kind =>
    rw [h kind hc] at hc
    refine ⟨_, _, by simp only [removeCandidate, hc]; rfl, Function.update_self .., ?_⟩
    intro d
    by_cases hd : d = c
    · rw [hd, Function.update_self]
      exact Or.inr rfl
    · rw [Function.update_of_ne hd]
      exact Or.inl rfl

/-- Removable files are removed, and no others. -/
theorem removeAttachmentFiles_removes {paths : List String} {files : FileTree}
    (h : ∀ path ∈ paths, ∃ c, safeStorageFile env path = some c ∧ ∀ kind ∈ files c, kind = .file true)
    (result : RetentionCleanupResult) :
    ∃ files' result', removeAttachmentFiles env paths files result = .ok (files', result') ∧
      (∀ path ∈ paths, ∀ c ∈ safeStorageFile env path, files' c = none) ∧
        ∀ d, files' d = files d ∨ files' d = none := by
  have hstep : ∀ c ∈ (paths.filterMap (safeStorageFile env)).dedup, ∀ x : FileTree × RetentionCleanupResult,
      (∀ d, x.1 d = files d ∨ x.1 d = none) → ∃ y, removeCandidate x c = .ok y ∧
        (∀ d, y.1 d = files d ∨ y.1 d = none) ∧ y.1 c = none ∧ ∀ d, x.1 d = none → y.1 d = none := by
    rintro c hc ⟨files₁, result₁⟩ hinv
    dsimp only at hinv
    obtain ⟨path, hpath, hcandidate⟩ := List.mem_filterMap.mp (List.mem_dedup.mp hc)
    obtain ⟨c', hsafe, hkind⟩ := h path hpath
    obtain rfl := Option.some.inj (hsafe.symm.trans hcandidate)
    have hkind₁ : ∀ kind ∈ files₁ c', kind = .file true := by
      intro kind hk
      rcases hinv c' with hsame | hnone
      · exact hkind kind (hsame ▸ hk)
      · rw [hnone] at hk
        exact nomatch hk
    obtain ⟨files₂, result₂, hok, hgone, hshrink⟩ := removeCandidate_file hkind₁ result₁
    refine ⟨(files₂, result₂), hok, ?_, hgone, ?_⟩
    · intro d
      rcases hshrink d with hsame | hnone
      · exact (hinv d).imp hsame.trans hsame.trans
      · exact Or.inr hnone
    · intro d hd
      rcases hshrink d with hsame | hnone
      · exact hsame.trans hd
      · exact hnone
  obtain ⟨⟨files', result'⟩, hok, hshrinks, hgone, -⟩ :=
    foldlM_settles (fun c (x : FileTree × RetentionCleanupResult) => x.1 c = none) hstep
      (s := (files, { result with unsafeStoragePathsSkipped := result.unsafeStoragePathsSkipped +
        (paths.filter fun path => (safeStorageFile env path).isNone).length })) fun d => Or.inl rfl
  refine ⟨files', result', hok, ?_, hshrinks⟩
  intro path hpath c hc
  exact hgone c (List.mem_dedup.mpr (List.mem_filterMap.mpr ⟨path, hpath, hc⟩))

/-- There is nothing to remove any more, and nothing to count. -/
theorem removeAttachmentFiles_gone {paths : List String} {files : FileTree}
    (h : ∀ path ∈ paths, ∃ c, safeStorageFile env path = some c ∧ files c = none)
    (result : RetentionCleanupResult) : removeAttachmentFiles env paths files result = .ok (files, result) := by
  have hskipped : paths.filter (fun path => (safeStorageFile env path).isNone) = [] := by
    rw [List.filter_eq_nil_iff]
    intro path hpath
    obtain ⟨c, hc, -⟩ := h path hpath
    rw [hc]
    exact Bool.false_ne_true
  rw [removeAttachmentFiles, hskipped]
  refine foldlM_settled (fun c (x : FileTree × RetentionCleanupResult) => x.1 c = none) ?_ ?_
  · rintro ⟨files₁, result₁⟩ c hc
    dsimp only at hc
    simp only [removeCandidate, hc]
    rfl
  · intro c hc
    obtain ⟨path, hpath, hcandidate⟩ := List.mem_filterMap.mp (List.mem_dedup.mp hc)
    obtain ⟨c', hsafe, hgone⟩ := h path hpath
    obtain rfl := Option.some.inj (hsafe.symm.trans hcandidate)
    exact hgone

end Files

/-! ## Incidents -/

section Incidents
variable (env : CleanupEnv) (now stamped : Time)

/-- Nothing is left to do for the incident. -/
structure RetentionStore.Settled (i : Id) (s : RetentionStore) : Prop where
  reports : OwnedAll (fun r => some r.incidentId) (fun r => anonymizeReport now r = r) i s.rows.reports
  contacts : OwnedAll (fun c => some c.incidentId) (fun c => c.alreadyAnonymized = true) i s.contacts
  revisions : OwnedAll (fun r => s.rows.owners.report r.reportId)
    (fun r => isRetentionExpired r.snapshot = true) i s.rows.revisions
  attachments : OwnedAll (fun a => some a.incidentId) (fun a => anonymizeAttachment a = a) i s.attachments
  answers : OwnedAll (fun a => s.rows.owners.question a.questionId) (fun a => anonymizeAnswer a = a) i
    s.rows.answers
  answerRevisions : OwnedAll (fun r => s.rows.owners.answer r.answerId)
    (fun r => isRetentionExpired r.snapshot = true) i s.rows.answerRevisions
  fragments : OwnedAll (fun f => some f.incidentId) (fun f => anonymizeFragment f = f) i s.rows.fragments
  evidence : OwnedAll (fun e => s.rows.owners.conflict e.conflictId)
    (fun e => isRetentionExpired e.snapshot = true) i s.rows.evidence
  analyses : OwnedAll (fun a => some a.incidentId) (fun a => isRetentionExpired a.inputSnapshot = true) i
    s.rows.analyses
  features : OwnedAll (fun f => some f.incidentId) (fun f => f.isProjected = true → anonymizeFeature f = f) i
    s.rows.features
  files : ∀ path ∈ s.storedPaths env i, ∃ c, safeStorageFile env path = some c ∧ s.files c = none

variable {env now stamped}

theorem anonymizeContacts_of_settled {digest : Id → String} {contacts : Table StoredContact} {i : Id}
    (h : OwnedAll (fun c => some c.incidentId) (fun c => c.alreadyAnonymized = true) i contacts) :
    anonymizeContacts now digest contacts i = contacts := by
  apply rewrite_eq_self
  intro k c hc
  split_ifs with howned
  · rw [Bool.and_eq_true, decide_eq_true_eq, Bool.not_eq_true'] at howned
    have hdone := h k c hc (congrArg some howned.1)
    change (c.legalHold || c.anonymizedAt.isSome) = true at hdone
    rw [howned.2, Bool.false_or] at hdone
    rw [anonymizeReporterContact, if_pos hdone]
  · rfl

theorem RetentionStore.Settled.rows {i : Id} {s : RetentionStore} (h : s.Settled env now i) :
    anonymizeIncident env.toEnv now stamped s.rows i = s.rows := by
  have hreports : anonymizeReports now stamped s.rows.reports i = s.rows.reports := by
    rw [anonymizeReports_eq]
    exact h.reports.eraseOwned_eq _ fun _ hr => flushed_of_marked hr
  have hrevisions := h.revisions.eraseOwned_eq eraseRevision fun _ hr => eraseUnless_of_flagged hr
  have hanswers := h.answers.eraseOwned_eq (eraseAnswer stamped) fun _ ha => flushed_of_marked ha
  have hanswerRevisions :=
    h.answerRevisions.eraseOwned_eq eraseAnswerRevision fun _ hr => eraseUnless_of_flagged hr
  have hfragments := h.fragments.eraseOwned_eq (eraseFragment stamped) fun _ hf => flushed_of_marked hf
  have hevidence :=
    h.evidence.eraseOwned_eq (eraseEvidence env.toEnv) fun _ he => eraseUnless_of_flagged he
  have hanalyses :=
    h.analyses.eraseOwned_eq (eraseAnalysis env.toEnv now) fun _ ha => eraseUnless_of_flagged ha
  have hfeatures := h.features.eraseOwned_eq (eraseFeature stamped) fun _ hf => eraseFeature_of_marked hf
  unfold anonymizeIncident
  dsimp only
  rw [hreports, hrevisions, hanswers, hanswerRevisions, hfragments, hevidence, hanalyses, hfeatures]

/-- A settled incident is passed over. -/
theorem cleanupIncident_of_settled {i : Id} {s : RetentionStore} (h : s.Settled env now i)
    (result : RetentionCleanupResult) :
    cleanupIncident env now stamped (s, result) i = .ok (s, result) := by
  have hreports := h.reports.unerased_eq_nil fun _ hr => report_alreadyAnonymized hr
  have hcontacts := h.contacts.unerased_eq_nil fun _ hc => hc
  have hrevisions := h.revisions.unerased_eq_nil fun _ hr => hr
  have hattachments := h.attachments.unerased_eq_nil fun _ ha => attachment_alreadyAnonymized ha
  have hanswers := h.answers.unerased_eq_nil fun _ ha => answer_alreadyAnonymized ha
  have hanswerRevisions := h.answerRevisions.unerased_eq_nil fun _ hr => hr
  have hfragments := h.fragments.unerased_eq_nil fun _ hf => fragment_alreadyAnonymized hf
  have hevidence := h.evidence.unerased_eq_nil fun _ he => he
  have hanalyses := h.analyses.unerased_eq_nil fun _ ha => ha
  have hfeatures := h.features.unerased_eq_nil fun _ hf => feature_alreadyRemoved hf
  have hfiles := removeAttachmentFiles_gone h.files result
  have hattachmentRows := h.attachments.eraseOwned_eq anonymizeAttachment fun _ ha => ha
  simp only [cleanupIncident, hreports, hcontacts, hrevisions, hattachments, hanswers, hanswerRevisions,
    hfragments, hevidence, hanalyses, hfeatures, hfiles, h.rows, hattachmentRows,
    anonymizeContacts_of_settled h.contacts]
  rfl

/-! What a step does to the contacts and to the paths of attachments. -/

theorem mem_anonymizeContacts {digest : Id → String} {contacts : Table StoredContact} {i : Id} {k : ℕ}
    {c : StoredContact} (h : (anonymizeContacts now digest contacts i).get k = some c) :
    c.alreadyAnonymized = true ∨ contacts.get k = some c ∧ (c.incidentId = i → c.legalHold = true) := by
  rw [anonymizeContacts, Table.get_rewrite] at h
  obtain ⟨c₀, hc₀, rfl⟩ := Option.map_eq_some_iff.mp h
  by_cases howned : (decide (c₀.incidentId = i) && !c₀.legalHold) = true
  · rw [if_pos howned, StoredContact.alreadyAnonymized, anonymizeReporterContact_anonymized, Bool.or_true]
    exact Or.inl rfl
  · rw [if_neg howned]
    refine Or.inr ⟨hc₀, fun hi => ?_⟩
    simpa [hi] using howned

theorem ownedAll_anonymizeContacts (digest : Id → String) (contacts : Table StoredContact) (i : Id) :
    OwnedAll (fun c => some c.incidentId) (fun c => c.alreadyAnonymized = true) i
      (anonymizeContacts now digest contacts i) := by
  intro k c hc hi
  rcases mem_anonymizeContacts hc with hdone | ⟨-, hheld⟩
  · exact hdone
  · show (c.legalHold || _) = true
    rw [hheld (Option.some.inj hi), Bool.true_or]

theorem anonymizeContacts_keeps {digest : Id → String} {contacts : Table StoredContact} {j : Id}
    (h : OwnedAll (fun c => some c.incidentId) (fun c => c.alreadyAnonymized = true) j contacts) (i : Id) :
    OwnedAll (fun c => some c.incidentId) (fun c => c.alreadyAnonymized = true) j
      (anonymizeContacts now digest contacts i) := by
  intro k c hc hj
  rcases mem_anonymizeContacts hc with hdone | ⟨hget, -⟩
  · exact hdone
  · exact h k c hget hj

theorem mem_storedPaths {s : RetentionStore} {i : Id} {path : String} : path ∈ s.storedPaths env i ↔
    ∃ id a, s.attachments.get id = some a ∧ a.incidentId = i ∧ path ∈ attachmentPaths env id a := by
  rw [RetentionStore.storedPaths, List.mem_flatMap]
  constructor
  · rintro ⟨id, hid, hpath⟩
    obtain ⟨a, ha, hi⟩ := Table.mem_select.mp hid
    rw [ha] at hpath
    exact ⟨id, a, ha, of_decide_eq_true hi, hpath⟩
  · rintro ⟨id, a, ha, hi, hpath⟩
    refine ⟨id, Table.mem_select.mpr ⟨a, ha, decide_eq_true hi⟩, ?_⟩
    rw [ha]
    exact hpath

variable (env) in
/-- Anonymised attachments keep their incident, and of their paths the one in quarantine. -/
theorem erased_attachment {attachments : Table AttachmentRow} {i id : Id} {a : AttachmentRow}
    (h : (eraseOwned (fun a => some a.incidentId) anonymizeAttachment attachments i).get id = some a) :
    ∃ a₀, attachments.get id = some a₀ ∧ a.incidentId = a₀.incidentId ∧
      ∀ path ∈ attachmentPaths env id a, path ∈ attachmentPaths env id a₀ := by
  rw [eraseOwned, Table.get_sweep] at h
  obtain ⟨a₀, ha₀, rfl⟩ := Option.map_eq_some_iff.mp h
  refine ⟨a₀, ha₀, ?_, ?_⟩
  · split_ifs <;> rfl
  · intro path hpath
    split_ifs at hpath
    · exact List.mem_append_right _ hpath
    · exact hpath

/-- The store after the incident, but for the files. -/
def RetentionStore.without (env : CleanupEnv) (now stamped : Time) (s : RetentionStore) (i : Id)
    (files : FileTree) : RetentionStore :=
  { s with
    rows := anonymizeIncident env.toEnv now stamped s.rows i
    contacts := anonymizeContacts now env.contactDigest s.contacts i
    attachments := eraseOwned (fun a => some a.incidentId) anonymizeAttachment s.attachments i
    files := files }

variable (stamped) in
theorem cleanupIncident_ok {s : RetentionStore} (h : s.PathsRemovable env) (i : Id)
    (result : RetentionCleanupResult) : ∃ files' result',
      cleanupIncident env now stamped (s, result) i = .ok (s.without env now stamped i files', result') ∧
        (∀ path ∈ s.storedPaths env i, ∃ c, safeStorageFile env path = some c ∧ files' c = none) ∧
          ∀ d, files' d = s.files d ∨ files' d = none := by
  have hpaths : ∀ path ∈ s.storedPaths env i,
      ∃ c, safeStorageFile env path = some c ∧ ∀ kind ∈ s.files c, kind = .file true := by
    intro path hpath
    obtain ⟨id, a, ha, -, hmem⟩ := mem_storedPaths.mp hpath
    exact h id a ha path hmem
  obtain ⟨files', result₁, hok, hgone, hshrinks⟩ := removeAttachmentFiles_removes hpaths result
  obtain ⟨result', hcompletes⟩ : ∃ result',
      cleanupIncident env now stamped (s, result) i = .ok (s.without env now stamped i files', result') := by
    simp only [cleanupIncident, hok]
    exact ⟨_, rfl⟩
  refine ⟨files', result', hcompletes, fun path hpath => ?_, hshrinks⟩
  obtain ⟨c, hc, -⟩ := hpaths path hpath
  exact ⟨c, hc, hgone path hpath c hc⟩

theorem without_storedPaths {s : RetentionStore} {i j : Id} {files : FileTree} {path : String}
    (h : path ∈ (s.without env now stamped i files).storedPaths env j) : path ∈ s.storedPaths env j := by
  obtain ⟨id, a, ha, hj, hmem⟩ := mem_storedPaths.mp h
  obtain ⟨a₀, ha₀, hincident, hsubset⟩ := erased_attachment env ha
  exact mem_storedPaths.mpr ⟨id, a₀, ha₀, hincident.symm.trans hj, hsubset path hmem⟩

theorem RetentionStore.PathsRemovable.without {s : RetentionStore} (h : s.PathsRemovable env) {files : FileTree}
    (hshrinks : ∀ d, files d = s.files d ∨ files d = none) (i : Id) :
    (s.without env now stamped i files).PathsRemovable env := by
  intro id a ha path hpath
  obtain ⟨a₀, ha₀, -, hsubset⟩ := erased_attachment env ha
  obtain ⟨c, hc, hkind⟩ := h id a₀ ha₀ path (hsubset path hpath)
  refine ⟨c, hc, fun kind hk => ?_⟩
  change kind ∈ files c at hk
  rcases hshrinks c with hsame | hnone
  · exact hkind kind (hsame ▸ hk)
  · rw [hnone] at hk
    exact nomatch hk

theorem settled_without {s : RetentionStore} {i : Id} {files : FileTree}
    (hgone : ∀ path ∈ s.storedPaths env i, ∃ c, safeStorageFile env path = some c ∧ files c = none) :
    (s.without env now stamped i files).Settled env now i := by
  have howners : (s.without env now stamped i files).rows.owners = s.rows.owners :=
    anonymizeIncident_owners s.rows i
  constructor
  · show OwnedAll _ _ i (anonymizeReports now stamped s.rows.reports i)
    rw [anonymizeReports_eq]
    exact ownedAll_eraseOwned_self anonymizeReport_flushed _ i
  · exact ownedAll_anonymizeContacts _ _ i
  · rw [howners]
    exact ownedAll_eraseOwned_self eraseRevision_flagged _ i
  · exact ownedAll_eraseOwned_self anonymizeAttachment_idem _ i
  · rw [howners]
    exact ownedAll_eraseOwned_self anonymizeAnswer_flushed _ i
  · rw [howners]
    exact ownedAll_eraseOwned_self eraseAnswerRevision_flagged _ i
  · exact ownedAll_eraseOwned_self anonymizeFragment_flushed _ i
  · rw [howners]
    exact ownedAll_eraseOwned_self (eraseEvidence_flagged env.toEnv) _ i
  · exact ownedAll_eraseOwned_self (eraseAnalysis_flagged env.toEnv) _ i
  · exact ownedAll_eraseOwned_self anonymizeFeature_flushed _ i
  · exact fun path hpath => hgone path (without_storedPaths hpath)

/-- Other incidents that are settled stay so. -/
theorem RetentionStore.Settled.without {s : RetentionStore} {i j : Id} (h : s.Settled env now j)
    {files : FileTree} (hshrinks : ∀ d, files d = s.files d ∨ files d = none) :
    (s.without env now stamped i files).Settled env now j := by
  have howners : (s.without env now stamped i files).rows.owners = s.rows.owners :=
    anonymizeIncident_owners s.rows i
  constructor
  · show OwnedAll _ _ j (anonymizeReports now stamped s.rows.reports i)
    rw [anonymizeReports_eq]
    exact h.reports.eraseOwned anonymizeReport_flushed i
  · exact anonymizeContacts_keeps h.contacts i
  · rw [howners]
    exact h.revisions.eraseOwned eraseRevision_flagged i
  · exact h.attachments.eraseOwned anonymizeAttachment_idem i
  · rw [howners]
    exact h.answers.eraseOwned anonymizeAnswer_flushed i
  · rw [howners]
    exact h.answerRevisions.eraseOwned eraseAnswerRevision_flagged i
  · exact h.fragments.eraseOwned anonymizeFragment_flushed i
  · rw [howners]
    exact h.evidence.eraseOwned (eraseEvidence_flagged env.toEnv) i
  · exact h.analyses.eraseOwned (eraseAnalysis_flagged env.toEnv) i
  · exact h.features.eraseOwned anonymizeFeature_flushed i
  · intro path hpath
    obtain ⟨c, hc, hnone⟩ := h.files path (without_storedPaths hpath)
    refine ⟨c, hc, ?_⟩
    rcases hshrinks c with hsame | hgone
    · exact hsame.trans hnone
    · exact hgone

end Incidents

/-! ## The whole pass -/

section Passes
variable {env : CleanupEnv} {now stamped : Time}

theorem deleteSelected_again {α : Type} (p : α → Bool) (t : Table (Option α)) :
    deleteSelected p (deleteSelected p t).1 = ((deleteSelected p t).1, 0) := by
  have hrest : (deleteSelected p t).1.All fun _ row => row.any p = false := by
    intro i row hrow
    rw [deleteSelected, Table.get_sweep] at hrow
    obtain ⟨row₀, -, rfl⟩ := Option.map_eq_some_iff.mp hrow
    split_ifs with hp
    · rfl
    · exact Bool.eq_false_iff.mpr hp
  have hsame : (deleteSelected p t).1.sweep (fun row => if row.any p then none else row) =
      (deleteSelected p t).1 := by
    apply sweep_eq_self
    intro i row hrow
    rw [hrest i row hrow, if_neg Bool.false_ne_true]
  have hnone : (deleteSelected p t).1.select (·.any p) = [] := by
    rw [List.eq_nil_iff_forall_not_mem]
    intro i hi
    obtain ⟨row, hrow, hp⟩ := Table.mem_select.mp hi
    rw [hrest i row hrow] at hp
    exact nomatch hp
  exact Prod.ext hsame (congrArg List.length hnone)

/-- No contact is due. -/
def NoneDue (now : Time) (contacts : Table StoredContact) : Prop := contacts.All fun _ c => ¬ c.IsDue now

theorem not_isDue_anonymized {digest : Id → String} (i : Id) (c : StoredContact) :
    ¬ (anonymizeReporterContact now digest i c).IsDue now := by
  intro hdue
  have hdone := @anonymizeReporterContact_anonymized now digest i c
  rw [hdue.2.2] at hdone
  exact nomatch hdone

theorem expireContacts_noneDue (digest : Id → String) (contacts : Table StoredContact) :
    NoneDue now (expireContacts now digest contacts) := by
  intro i c hc
  rw [expireContacts, Table.get_rewrite] at hc
  obtain ⟨c₀, -, rfl⟩ := Option.map_eq_some_iff.mp hc
  split_ifs with hdue
  · exact not_isDue_anonymized i c₀
  · exact hdue

theorem NoneDue.anonymizeContacts {digest : Id → String} {contacts : Table StoredContact}
    (h : NoneDue now contacts) (i : Id) :
    NoneDue now (CrisisMosaic.anonymizeContacts now digest contacts i) := by
  intro k c hc
  rw [CrisisMosaic.anonymizeContacts, Table.get_rewrite] at hc
  obtain ⟨c₀, hc₀, rfl⟩ := Option.map_eq_some_iff.mp hc
  split_ifs
  · exact not_isDue_anonymized k c₀
  · exact h k c₀ hc₀

theorem NoneDue.expireContacts_eq {contacts : Table StoredContact} (h : NoneDue now contacts)
    (digest : Id → String) : expireContacts now digest contacts = contacts ∧
      contacts.select (fun c => c.IsDue now) = [] := by
  constructor
  · apply rewrite_eq_self
    intro i c hc
    rw [if_neg (h i c hc)]
  · rw [List.eq_nil_iff_forall_not_mem]
    intro i hi
    obtain ⟨c, hc, hdue⟩ := Table.mem_select.mp hi
    exact h i c hc (of_decide_eq_true hdue)

/-- What the steps of a pass leave as the deletions and the deadlines of contacts made it. -/
structure RetentionStore.Follows (now : Time) (s t : RetentionStore) : Prop where
  incidents : t.rows.incidents = s.rows.incidents
  closedAt : t.rows.closedAt = s.rows.closedAt
  idempotencyRecords : t.idempotencyRecords = s.idempotencyRecords
  refreshSessions : t.refreshSessions = s.refreshSessions
  outboxEvents : t.outboxEvents = s.outboxEvents
  auditLogs : t.auditLogs = s.auditLogs
  contacts : NoneDue now t.contacts

variable (stamped) in
theorem cleanup_settles {s : RetentionStore} (h : s.PathsRemovable env) : ∃ t result,
    s.cleanup env now stamped = .ok (t, result) ∧ (s.expire env now).1.Follows now t ∧
      ∀ i ∈ s.rows.expired (now - days env.piiSettings.businessRetentionDays), t.Settled env now i := by
  have hstep : ∀ i ∈ s.rows.expired (now - days env.piiSettings.businessRetentionDays),
      ∀ x : RetentionStore × RetentionCleanupResult,
        x.1.PathsRemovable env ∧ (s.expire env now).1.Follows now x.1 → ∃ y,
          cleanupIncident env now stamped x i = .ok y ∧
            (y.1.PathsRemovable env ∧ (s.expire env now).1.Follows now y.1) ∧ y.1.Settled env now i ∧
              ∀ j, x.1.Settled env now j → y.1.Settled env now j := by
    rintro i - ⟨u, result⟩ ⟨hpaths, hfollows⟩
    obtain ⟨files', result', hok, hgone, hshrinks⟩ := cleanupIncident_ok stamped hpaths i result
    refine ⟨_, hok, ⟨hpaths.without hshrinks i, ?_⟩, settled_without hgone, fun j hj => hj.without hshrinks⟩
    exact ⟨hfollows.incidents, hfollows.closedAt, hfollows.idempotencyRecords, hfollows.refreshSessions,
      hfollows.outboxEvents, hfollows.auditLogs, hfollows.contacts.anonymizeContacts i⟩
  have hstart : (s.expire env now).1.PathsRemovable env ∧
      (s.expire env now).1.Follows now (s.expire env now).1 :=
    ⟨h, rfl, rfl, rfl, rfl, rfl, rfl, expireContacts_noneDue _ _⟩
  obtain ⟨⟨t, result⟩, hok, ⟨-, hfollows⟩, hsettled, -⟩ :=
    foldlM_settles (fun i (x : RetentionStore × RetentionCleanupResult) => x.1.Settled env now i) hstep hstart
  exact ⟨t, result, hok, hfollows, hsettled⟩

/-- After a pass there is nothing to delete, and no contact is due. -/
theorem RetentionStore.Follows.expire {s t : RetentionStore} (h : (s.expire env now).1.Follows now t) :
    t.expire env now = (t, {}) := by
  obtain ⟨hcontacts, hselected⟩ := h.contacts.expireContacts_eq env.contactDigest
  have hrecords := deleteSelected_again (fun r : IdempotencyRecord => r.expiresAt ≤ now) s.idempotencyRecords
  have hsessions := deleteSelected_again (fun r : RefreshSession => r.expiresAt ≤ now) s.refreshSessions
  have hevents := deleteSelected_again
    (fun r : OutboxRow => r.publishedAt.any (· ≤ now - hours env.realtimeReplayHours)) s.outboxEvents
  have hlogs := deleteSelected_again (fun r : AuditLogRow => r.createdAt ≤ now - days env.auditRetentionDays)
    s.auditLogs
  rw [show (deleteSelected _ s.idempotencyRecords).1 = t.idempotencyRecords from h.idempotencyRecords.symm] at hrecords
  rw [show (deleteSelected _ s.refreshSessions).1 = t.refreshSessions from h.refreshSessions.symm] at hsessions
  rw [show (deleteSelected _ s.outboxEvents).1 = t.outboxEvents from h.outboxEvents.symm] at hevents
  rw [show (deleteSelected _ s.auditLogs).1 = t.auditLogs from h.auditLogs.symm] at hlogs
  rw [RetentionStore.expire]
  dsimp only
  rw [hrecords, hsessions, hevents, hlogs, hcontacts, hselected]
  rfl

/-! The tables of the pass are those of the partial passes of other modules. -/

theorem cleanup_rows {s t : RetentionStore} {result : RetentionCleanupResult}
    (h : s.cleanup env now stamped = .ok (t, result)) : t.rows = anonymizeExpired env.toEnv now stamped
      (now - days env.piiSettings.businessRetentionDays) s.rows := by
  refine foldlM_projected (f := fun x : RetentionStore × RetentionCleanupResult => x.1.rows) ?_ h
  rintro x i y hy
  simp only [cleanupIncident, bind_ok, pure_ok] at hy
  obtain ⟨_, -, rfl⟩ := hy
  rfl

theorem cleanup_contacts {s t : RetentionStore} {result : RetentionCleanupResult}
    (h : s.cleanup env now stamped = .ok (t, result)) {r : RetainedState} (hcontacts : r.contacts = s.contacts)
    (hincidents : r.db.feed.incidents = s.rows.incidents) (hclosedAt : r.closedAt = s.rows.closedAt) (rest : Db) :
    t.contacts = (cleanupRetentionOnce env.toRetentionEnv r now stamped rest).contacts := by
  have hloop := foldlM_projected (f := fun x : RetentionStore × RetentionCleanupResult => x.1.contacts)
    (g := anonymizeContacts now env.contactDigest) (by
      rintro x i y hy
      simp only [cleanupIncident, bind_ok, pure_ok] at hy
      obtain ⟨_, -, rfl⟩ := hy
      rfl) h
  rw [cleanupRetentionOnce, RetainedState.expired, hcontacts, hincidents, hclosedAt]
  exact hloop

theorem cleanup_deletions {s t : RetentionStore} {result : RetentionCleanupResult}
    (hpaths : s.PathsRemovable env) (h : s.cleanup env now stamped = .ok (t, result)) :
    t.idempotencyRecords = s.idempotencyRecords.deleteExpired now ∧
      ∀ db : AuthDb, db.refreshSessions = s.refreshSessions →
        (db.deleteExpiredSessions now).refreshSessions = t.refreshSessions := by
  obtain ⟨t', result', hok, hfollows, -⟩ := cleanup_settles stamped hpaths
  obtain ⟨rfl, -⟩ := Prod.mk.inj (Except.ok.inj (hok.symm.trans h))
  refine ⟨hfollows.idempotencyRecords, fun db hdb => ?_⟩
  rw [hfollows.refreshSessions, AuthDb.deleteExpiredSessions, hdb]
  rfl

end Passes

/-- A second pass at the same time finds nothing to do: it leaves every table and every file as the first
has left them, and counts nothing. -/
theorem second_pass_changes_nothing (env : CleanupEnv) (now stamped stamped' : Time) (s : RetentionStore)
    (h : s.PathsRemovable env) : ∃ t result, s.cleanup env now stamped = .ok (t, result) ∧
      t.cleanup env now stamped' = .ok (t, {}) := by
  obtain ⟨t, result, hok, hfollows, hsettled⟩ := cleanup_settles stamped h
  refine ⟨t, result, hok, ?_⟩
  have hexpired : t.rows.expired = s.rows.expired := by
    funext cutoff
    rw [ResidentDb.expired, hfollows.incidents, hfollows.closedAt]
    rfl
  rw [RetentionStore.cleanup, hfollows.expire, hexpired]
  refine foldlM_settled (fun i (x : RetentionStore × RetentionCleanupResult) => x.1.Settled env now i) ?_ hsettled
  exact fun x i hx => cleanupIncident_of_settled hx x.2

namespace Sample

def cleanupEnv : CleanupEnv where
  toRetentionEnv := retention
  storageRoot := "/storage"
  resolve path := if path = "/storage" then ["storage"] else ["storage", path]
  realtimeReplayHours := 24
  auditRetentionDays := 365

def storedPhoto : AttachmentRow :=
  ⟨0, some 0, none, 0, "a.jpg", "image/jpeg", "image", none, "local_proxy", none, none, none, some "image/jpeg", 1,
    "", none, none, none, none, some "a.jpg", none, none, none, none, none, none, none, none, none, none, none, 0,
    none, none, none, "ready", "clean", "done", "done", none, none, none, 0, some 0, 0⟩

/-- A closed incident with one report, its contact and a photo. -/
def closedStore : RetentionStore :=
  let s := retainedRun retention unretained [posted]
  { rows := ⟨⟨[{ incident with status := .closed }]⟩, ⟨[some 0]⟩, .empty, .empty, s.db.reports, .empty, .empty,
      .empty, .empty, .empty, .empty, .empty⟩
    contacts := s.contacts
    attachments := ⟨[storedPhoto]⟩
    idempotencyRecords := .empty
    refreshSessions := .empty
    outboxEvents := .empty
    auditLogs := .empty
    files := fun path => if path = ["storage", "a.jpg"] then some (.file true) else none }

theorem closedStore_removable : closedStore.PathsRemovable cleanupEnv := by
  have hsafe : ((attachmentPaths cleanupEnv 0 storedPhoto).all fun path =>
      (safeStorageFile cleanupEnv path).isSome) = true := by decide +kernel
  intro id a ha path hpath
  cases id with
  | succ id => exact nomatch ha
  | zero =>
    obtain rfl := Option.some.inj ha
    obtain ⟨c, hc⟩ := Option.isSome_iff_exists.mp (List.all_eq_true.mp hsafe path hpath)
    refine ⟨c, hc, fun kind hk => ?_⟩
    change kind ∈ (if c = ["storage", "a.jpg"] then some (FileKind.file true) else none) at hk
    split_ifs at hk
    · exact (Option.some.inj hk).symm
    · exact nomatch hk

end Sample
open Sample

theorem closed_incident_is_cleaned_once : ∃ t result,
    closedStore.cleanup cleanupEnv (days 200) (days 200) = .ok (t, result) ∧
      t.cleanup cleanupEnv (days 200) (days 201) = .ok (t, {}) :=
  second_pass_changes_nothing cleanupEnv (days 200) (days 200) (days 201) closedStore closedStore_removable

/-- The first of them overwrites a report, its contact and a photo, whose file it removes. -/
example : (match closedStore.cleanup cleanupEnv (days 200) (days 200) with
    | .ok (_, r) => [r.incidentsAnonymized, r.reportsAnonymized, r.reporterContactsAnonymized,
        r.attachmentsAnonymized, r.filesDeleted, r.unsafeStoragePathsSkipped]
    | .error _ => []) = [1, 1, 1, 1, 1, 0] := by decide +kernel

end CrisisMosaic
