import CrisisMosaic.Events
import CrisisMosaic.MapFeatures

/-!
# Conflict evidence

A row of evidence cites one version of a source. Citing a source again revives
the row of its present version or supersedes the older rows of the case.
-/

namespace CrisisMosaic
open Relational

def optStr : Option String → Json := .opt .str
def optRef : Option Id → Json := .opt .ref
def optTime : Option Time → Json := .opt .time

/-- A non-empty optional text, `bool(value)`. -/
def truthy (s : Option String) : Bool := s.any fun v => !v.isEmpty

def fragmentSnapshot (id : Id) (f : InformationFragment) : Dict :=
  [("id", .ref id), ("revision", .nat f.revision), ("source_type", .str f.sourceType.text),
    ("source_ref_id", optRef f.sourceRefId), ("topic", .str f.topic),
    ("claim_key", optStr f.claimKey), ("claim_value", optStr f.claimValue),
    ("label", .str f.label), ("description", .str f.description)] ++ f.place.entries ++
  [("confidence", .num f.confidence), ("observed_at", optTime f.observedAt),
    ("received_at", .time f.receivedAt)]

def reportEvidenceSnapshot (id : Id) (r : Report) : Dict :=
  [("id", .ref id), ("revision", .nat r.revision), ("category", .str r.category.text),
    ("content_original", .str r.contentOriginal), ("content_display", .str r.contentDisplay)] ++
  r.place.entries ++ [("created_at", .time r.createdAt)]

def noTextVisionPrefix : String := "[vision_policy:no_text_v1]\n"

def safeVisionSummary (summary : Option String) : Option String :=
  summary.bind fun s =>
    if s.startsWith noTextVisionPrefix then some (String.ofList (s.toList.drop noTextVisionPrefix.length))
    else none

def attachmentEvidenceSnapshot (id : Id) (a : Attachment) : Dict :=
  [("id", .ref id), ("revision", .nat 1), ("report_id", optRef a.reportId),
    ("mime_type", optStr a.mimeType), ("sha256", optStr a.sha256),
    ("perceptual_hash", optStr a.perceptualHash),
    ("vision_summary", optStr (safeVisionSummary a.visionSummary)),
    ("malware_scan_status", .str a.malwareScanStatus.text), ("created_at", .time a.createdAt)]

def answerEvidenceSnapshot (id : Id) (a : DirectedAnswer) : Dict :=
  [("id", .ref id), ("revision", .nat a.revision), ("question_id", .ref a.questionId),
    ("semantic_value", .str a.semanticValue), ("answer_text", .str a.answerText),
    ("observed_latitude", .opt (fun q : Latitude => .num q) a.observedLatitude),
    ("observed_longitude", .opt (fun q : Longitude => .num q) a.observedLongitude),
    ("observed_coordinate_system",
      .opt (fun s : CoordinateSystem => .str s.text) a.observedCoordinateSystem),
    ("updated_at", .time a.updatedAt)]

structure EvidenceReference where
  kind : EvidenceKind
  sourceId : Id
  sourceRevision : Option ℕ

/-- The tables an evidence reference can point into, besides the fragments. -/
structure Sources where
  reports : Table Report
  attachments : Table Attachment
  questions : Table DirectedQuestion
  answers : Table DirectedAnswer

/-- A source as `evidence_snapshot` reads it. -/
structure SourceVersion where
  revision : ℕ
  clusterId : Option String
  snapshot : Dict

def crossIncidentEvidence : ApiError := unprocessable "CROSS_INCIDENT_EVIDENCE" "证据不属于当前事件"

section Snapshot
variable (sources : Sources) (fragments : Table InformationFragment)

def sourceVersion (kind : EvidenceKind) (id incidentId : Id) : Result SourceVersion :=
  match kind with
  | .fragment => do
      let f ← found (fragments.get id) (notFound "evidence source")
      require (f.incidentId = incidentId) crossIncidentEvidence
      pure ⟨f.revision, f.sourceClusterId, fragmentSnapshot id f⟩
  | .report => do
      let r ← found (sources.reports.get id) (notFound "evidence source")
      require (r.incidentId = incidentId) crossIncidentEvidence
      pure ⟨r.revision, none, reportEvidenceSnapshot id r⟩
  | .attachment => do
      let a ← found (sources.attachments.get id) (notFound "evidence source")
      require (a.incidentId = incidentId) crossIncidentEvidence
      require (a.isReady = true) (unprocessable "ATTACHMENT_NOT_READY" "图片证据尚未通过安全处理")
      pure ⟨1, a.sourceClusterId, attachmentEvidenceSnapshot id a⟩
  | .answer => do
      let a ← found (sources.answers.get id) (notFound "evidence source")
      require ((sources.questions.get a.questionId).any fun q => q.incidentId = incidentId)
        crossIncidentEvidence
      pure ⟨a.revision, none, answerEvidenceSnapshot id a⟩

def evidenceSnapshot (reference : EvidenceReference) (incidentId : Id) : Result SourceVersion := do
  let version ← sourceVersion sources fragments reference.kind reference.sourceId incidentId
  require (reference.sourceRevision.all (· = version.revision))
    (conflictError "EVIDENCE_REVISION_CONFLICT" "evidence source revision is no longer current"
      [("current_revision", .nat version.revision), ("source_id", .ref reference.sourceId)])
  pure version

/-- The revision a source has now. -/
def sourceRevision (kind : EvidenceKind) (id : Id) : Option ℕ :=
  match kind with
  | .fragment => (fragments.get id).map (·.revision)
  | .report => (sources.reports.get id).map (·.revision)
  | .attachment => (sources.attachments.get id).map fun _ => 1
  | .answer => (sources.answers.get id).map (·.revision)

theorem evidenceSnapshot_revision {reference : EvidenceReference} {incidentId : Id}
    {version : SourceVersion}
    (h : evidenceSnapshot sources fragments reference incidentId = .ok version) :
    sourceRevision sources fragments reference.kind reference.sourceId = some version.revision := by
  simp only [evidenceSnapshot, bind_ok, require_ok, pure_ok] at h
  obtain ⟨v, hv, -, -, rfl⟩ := h
  unfold sourceVersion at hv
  unfold sourceRevision
  cases hk : reference.kind <;> simp only [hk, bind_ok, found_ok, require_ok, pure_ok] at hv ⊢
  · obtain ⟨f, hf, -, -, rfl⟩ := hv
    simp [hf]
  · obtain ⟨r, hr, -, -, rfl⟩ := hv
    simp [hr]
  · obtain ⟨a, ha, -, -, -, -, rfl⟩ := hv
    simp [ha]
  · obtain ⟨a, ha, -, -, rfl⟩ := hv
    simp [ha]

end Snapshot

namespace ConflictEvidence

/-- The row cites this source for this case. -/
def cites (conflictId : Id) (kind : EvidenceKind) (sourceId : Id) (e : ConflictEvidence) : Bool :=
  e.conflictId = conflictId && e.kind = kind && e.sourceId = sourceId

theorem cites_iff {conflictId sourceId : Id} {kind : EvidenceKind} {e : ConflictEvidence} :
    e.cites conflictId kind sourceId = true ↔
      e.conflictId = conflictId ∧ e.kind = kind ∧ e.sourceId = sourceId := by
  simp [cites, and_assoc]

end ConflictEvidence

section Adding
variable (env : Env) (now : Time)

/-- One turn of the loop of `add_evidence`, once the source has been read. -/
def citeSource (evidence : Table ConflictEvidence) (conflictId : Id) (kind : EvidenceKind)
    (sourceId : Id) (version : SourceVersion) : Table ConflictEvidence × Id :=
  match evidence.first fun e =>
      e.cites conflictId kind sourceId && e.sourceRevision = version.revision with
  | some i => (evidence.modify i fun e => { e with isCurrent := true }, i)
  | none =>
      let evidence := evidence.sweep fun e =>
        if e.cites conflictId kind sourceId && e.isCurrent then { e with isCurrent := false } else e
      (evidence.insert
        { conflictId := conflictId
          kind := kind
          sourceId := sourceId
          sourceRevision := version.revision
          sourceClusterId := version.clusterId
          snapshot := version.snapshot
          snapshotSha256 := env.canonicalSha256 (.obj version.snapshot)
          isCurrent := true
          addedAt := now }, evidence.size)

def addEvidence (sources : Sources) (fragments : Table InformationFragment)
    (conflictId incidentId : Id) :
    List EvidenceReference → Table ConflictEvidence → Result (Table ConflictEvidence × List Id)
  | [], evidence => pure (evidence, [])
  | reference :: references, evidence => do
      let version ← evidenceSnapshot sources fragments reference incidentId
      let (evidence, item) :=
        citeSource env now evidence conflictId reference.kind reference.sourceId version
      let (evidence, added) ← addEvidence sources fragments conflictId incidentId references evidence
      pure (evidence, item :: added)

end Adding

/-- What adding evidence to a case does to one row, given the present revision of each source
and which sources are cited. -/
inductive EvidenceChange (revision : EvidenceKind → Id → Option ℕ)
    (cited : EvidenceKind → Id → Prop) (conflictId : Id) :
    Option ConflictEvidence → ConflictEvidence → Prop
  | same (e) : EvidenceChange revision cited conflictId (some e) e
  | revived (e : ConflictEvidence) : e.conflictId = conflictId → cited e.kind e.sourceId →
      revision e.kind e.sourceId = some e.sourceRevision →
      EvidenceChange revision cited conflictId (some e) { e with isCurrent := true }
  | superseded (e : ConflictEvidence) : e.conflictId = conflictId → cited e.kind e.sourceId →
      e.isCurrent = true → revision e.kind e.sourceId ≠ some e.sourceRevision →
      EvidenceChange revision cited conflictId (some e) { e with isCurrent := false }
  | added (e : ConflictEvidence) : e.conflictId = conflictId → cited e.kind e.sourceId →
      e.isCurrent = true → revision e.kind e.sourceId = some e.sourceRevision →
      EvidenceChange revision cited conflictId none e

abbrev EvidenceAdded (revision : EvidenceKind → Id → Option ℕ)
    (cited : EvidenceKind → Id → Prop) (conflictId : Id) : Table ConflictEvidence →
    Table ConflictEvidence → Prop :=
  Table.Evolves (EvidenceChange revision cited conflictId)

section Spec
variable {revision : EvidenceKind → Id → Option ℕ} {cited : EvidenceKind → Id → Prop}
  {conflictId : Id}

theorem EvidenceChange.mono {cited' : EvidenceKind → Id → Prop} {o : Option ConflictEvidence}
    {e : ConflictEvidence} (hc : ∀ k s, cited k s → cited' k s)
    (h : EvidenceChange revision cited conflictId o e) :
    EvidenceChange revision cited' conflictId o e := by
  cases h with
  | same => exact .same e
  | revived e h₁ h₂ h₃ => exact .revived e h₁ (hc _ _ h₂) h₃
  | superseded e h₁ h₂ h₃ h₄ => exact .superseded e h₁ (hc _ _ h₂) h₃ h₄
  | added _ h₁ h₂ h₃ h₄ => exact .added e h₁ (hc _ _ h₂) h₃ h₄

/-- A row that was just made current cites the present version, so nothing later in the same
addition supersedes it. -/
theorem EvidenceChange.trans {o : Option ConflictEvidence} {e f : ConflictEvidence}
    (h : EvidenceChange revision cited conflictId o e)
    (k : EvidenceChange revision cited conflictId (some e) f) :
    EvidenceChange revision cited conflictId o f := by
  cases k with
  | same => exact h
  | revived _ k₁ k₂ k₃ =>
    cases h with
    | same => exact .revived e k₁ k₂ k₃
    | revived e h₁ h₂ h₃ => exact .revived e h₁ h₂ h₃
    | superseded e h₁ h₂ h₃ h₄ => exact absurd k₃ h₄
    | added _ h₁ h₂ h₃ h₄ => exact .added _ h₁ h₂ rfl h₄
  | superseded _ k₁ k₂ k₃ k₄ =>
    cases h with
    | same => exact .superseded e k₁ k₂ k₃ k₄
    | revived e h₁ h₂ h₃ => exact absurd h₃ k₄
    | superseded e h₁ h₂ h₃ h₄ => exact nomatch k₃
    | added _ h₁ h₂ h₃ h₄ => exact absurd h₄ k₄

theorem EvidenceAdded.trans {a b c : Table ConflictEvidence}
    (h : EvidenceAdded revision cited conflictId a b)
    (k : EvidenceAdded revision cited conflictId b c) :
    EvidenceAdded revision cited conflictId a c :=
  Table.Evolves.trans (fun _ _ _ h k => EvidenceChange.trans h k) h k

theorem EvidenceAdded.mono {cited' : EvidenceKind → Id → Prop} {a b : Table ConflictEvidence}
    (hc : ∀ k s, cited k s → cited' k s) (h : EvidenceAdded revision cited conflictId a b) :
    EvidenceAdded revision cited' conflictId a b :=
  Table.Evolves.mono (fun _ _ h => EvidenceChange.mono hc h) h

theorem citeSource_added (env : Env) (now : Time) (evidence : Table ConflictEvidence)
    {kind : EvidenceKind} {sourceId : Id} {version : SourceVersion}
    (hv : revision kind sourceId = some version.revision) :
    EvidenceAdded revision (fun k s => k = kind ∧ s = sourceId) conflictId evidence
      (citeSource env now evidence conflictId kind sourceId version).1 := by
  unfold citeSource
  split
  · next i hi =>
    obtain ⟨e, he, hp⟩ := Table.first_some hi
    simp only [Bool.and_eq_true, ConflictEvidence.cites_iff, decide_eq_true_eq] at hp
    obtain ⟨⟨hc, hk, hs⟩, hr⟩ := hp
    refine ⟨fun j f hf => ?_, by simp⟩
    rcases Table.get_modify_cases hf with ⟨rfl, g, hg, rfl⟩ | ⟨-, hf⟩
    · obtain rfl : e = g := Option.some.inj (he.symm.trans hg)
      rw [he]
      exact .revived e hc ⟨hk, hs⟩ (by rw [hk, hs, hv, hr])
    · exact hf ▸ .same f
  · next hi =>
    refine ⟨fun j f hf => ?_, by simp⟩
    rcases Table.get_insert_cases hf with ⟨rfl, rfl⟩ | hf
    · rw [Table.size_sweep, Table.get_size]
      exact .added _ rfl ⟨rfl, rfl⟩ rfl hv
    · rw [Table.get_sweep] at hf
      obtain ⟨g, hg, rfl⟩ := Option.map_eq_some_iff.mp hf
      rw [hg]
      by_cases hp : g.cites conflictId kind sourceId && g.isCurrent
      · rw [if_pos hp]
        simp only [Bool.and_eq_true, ConflictEvidence.cites_iff] at hp
        obtain ⟨⟨hc, hk, hs⟩, hcur⟩ := hp
        refine .superseded g hc ⟨hk, hs⟩ hcur ?_
        rw [hk, hs, hv]
        intro hr
        have hno := Table.first_none hi hg
        simp [ConflictEvidence.cites, hc, hk, hs, Option.some.inj hr] at hno
      · rw [if_neg hp]
        exact .same g

theorem addEvidence_added {env : Env} {now : Time} {sources : Sources}
    {fragments : Table InformationFragment} {incidentId : Id} :
    ∀ {references : List EvidenceReference} {evidence evidence' : Table ConflictEvidence}
      {added : List Id},
      addEvidence env now sources fragments conflictId incidentId references evidence
        = .ok (evidence', added) →
      EvidenceAdded (sourceRevision sources fragments)
        (fun k s => ∃ r ∈ references, k = r.kind ∧ s = r.sourceId) conflictId evidence evidence' := by
  intro references
  induction references with
  | nil =>
    intro evidence evidence' added h
    obtain ⟨rfl, -⟩ : evidence = evidence' ∧ [] = added := by
      simpa [addEvidence, pure, Except.pure] using h
    exact Table.Evolves.refl .same evidence
  | cons reference references ih =>
    intro evidence evidence' added h
    simp only [addEvidence, bind_ok, pure_ok, Prod.exists, Prod.mk.injEq] at h
    obtain ⟨version, hv, mid, ids, hmid, rfl, -⟩ := h
    have hrev := evidenceSnapshot_revision sources fragments hv
    refine EvidenceAdded.trans ((citeSource_added env now evidence hrev).mono ?_)
      ((ih hmid).mono ?_)
    · rintro k s ⟨rfl, rfl⟩
      exact ⟨reference, by simp, rfl, rfl⟩
    · rintro k s ⟨r, hr, hk⟩
      exact ⟨r, by simp [hr], hk⟩

/-- When every cited version is already on the case, nothing is added or superseded. -/
theorem addEvidence_existing {env : Env} {now : Time} {sources : Sources}
    {fragments : Table InformationFragment} {incidentId : Id} :
    ∀ {references : List EvidenceReference} {evidence evidence' : Table ConflictEvidence}
      {added : List Id},
      addEvidence env now sources fragments conflictId incidentId references evidence
        = .ok (evidence', added) →
      (∀ r ∈ references, ∃ i e, evidence.get i = some e ∧
        e.cites conflictId r.kind r.sourceId = true ∧
        sourceRevision sources fragments r.kind r.sourceId = some e.sourceRevision) →
      ∀ i e', evidence'.get i = some e' → ∃ e, evidence.get i = some e ∧
        (e' = e ∨ e' = { e with isCurrent := true } ∧ e.conflictId = conflictId ∧
          (∃ r ∈ references, e.kind = r.kind ∧ e.sourceId = r.sourceId) ∧
          sourceRevision sources fragments e.kind e.sourceId = some e.sourceRevision) := by
  intro references
  induction references with
  | nil =>
    intro evidence evidence' added h _ i e he
    obtain ⟨rfl, -⟩ : evidence = evidence' ∧ [] = added := by
      simpa [addEvidence, pure, Except.pure] using h
    exact ⟨e, he, Or.inl rfl⟩
  | cons reference references ih =>
    intro evidence evidence' added h hex i e' he'
    simp only [addEvidence, bind_ok, pure_ok, Prod.exists, Prod.mk.injEq] at h
    obtain ⟨version, hv, mid, ids, hmid, rfl, -⟩ := h
    have hrev := evidenceSnapshot_revision sources fragments hv
    obtain ⟨j, f, hf, hcf, hrf⟩ := hex reference (by simp)
    cases hfirst : evidence.first fun e =>
        e.cites conflictId reference.kind reference.sourceId &&
          e.sourceRevision = version.revision with
    | none =>
      have hno := Table.first_none hfirst hf
      rw [hrev] at hrf
      simp [hcf, Option.some.inj hrf] at hno
    | some k =>
      obtain ⟨g, hg, hp⟩ := Table.first_some hfirst
      simp only [Bool.and_eq_true, ConflictEvidence.cites_iff, decide_eq_true_eq] at hp
      obtain ⟨⟨hgc, hgk, hgs⟩, hgr⟩ := hp
      simp only [citeSource, hfirst] at hmid
      have hmidex : ∀ r ∈ references, ∃ i e,
          (evidence.modify k fun e => { e with isCurrent := true }).get i = some e ∧
          e.cites conflictId r.kind r.sourceId = true ∧
          sourceRevision sources fragments r.kind r.sourceId = some e.sourceRevision := by
        intro r hr
        obtain ⟨l, e, he, hce, hre⟩ := hex r (by simp [hr])
        refine ⟨l, if k = l then { e with isCurrent := true } else e, ?_, ?_, ?_⟩
        · rw [Table.get_modify, he]
          split_ifs <;> rfl
        · split_ifs <;> exact hce
        · split_ifs <;> exact hre
      obtain ⟨e₁, he₁, hstep⟩ := ih hmid hmidex i e' he'
      have hgrev : sourceRevision sources fragments g.kind g.sourceId = some g.sourceRevision := by
        rw [hgk, hgs, hrev, hgr]
      rcases Table.get_modify_cases he₁ with ⟨rfl, g', hg', rfl⟩ | ⟨-, he₁⟩
      · obtain rfl : g = g' := Option.some.inj (hg.symm.trans hg')
        refine ⟨g, hg, Or.inr ⟨?_, hgc, ⟨reference, by simp, hgk, hgs⟩, hgrev⟩⟩
        rcases hstep with rfl | ⟨rfl, -⟩ <;> rfl
      · refine ⟨e₁, he₁, hstep.imp_right ?_⟩
        rintro ⟨h₁, h₂, ⟨r, hr, h₃⟩, h₄⟩
        exact ⟨h₁, h₂, ⟨r, by simp [hr], h₃⟩, h₄⟩

end Spec
end CrisisMosaic
