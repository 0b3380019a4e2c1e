import CrisisMosaic.MapFeatures
import CrisisMosaic.Relational.VersionChain

/-!
# Fact records

Both writers of a fact, a decision and the automatic move to `under_review`,
close the current version, append the next one and mirror it in the record.
-/

namespace CrisisMosaic
open Relational

structure VersionDraft where
  status : FactStatus
  isPublic : Bool
  statement : String
  confidence : Option ℚ
  sourceConflictId : Id
  sourceAnalysisId : Option Id
  contextSnapshot : Option Dict
  acceptedEvidenceIds : List Id
  decisionSnapshot : Dict
  decidedBy : Option Id

def factVersioning : Versioning FactVersion where
  owner v := v.factRecordId
  revision v := v.revision
  previous v := v.previousVersionId
  isOpen v := v.validTo = none

def FactVersion.close (now : Time) (v : FactVersion) : FactVersion := { v with validTo := some now }

theorem FactVersion.close_closing (now : Time) : factVersioning.Closing (FactVersion.close now) where
  owner _ := rfl
  revision _ := rfl
  previous _ := rfl
  closed _ := by simp [factVersioning, FactVersion.close]

namespace Facts

def isFor (incidentId : Id) (factKey : String) (r : FactRecord) : Bool :=
  r.incidentId = incidentId && r.factKey = factKey

theorem isFor_iff {incidentId : Id} {factKey : String} {r : FactRecord} :
    isFor incidentId factKey r = true ↔ r.incidentId = incidentId ∧ r.factKey = factKey := by
  simp [isFor]

def lookup (facts : Facts) (incidentId : Id) (factKey : String) : Option (Id × FactRecord) :=
  facts.records.find (isFor incidentId factKey)

def currentVersion (facts : Facts) (r : FactRecord) : Option FactVersion :=
  r.currentVersionId.bind facts.versions.get

def nextVersion (now : Time) (id : Id) (record : FactRecord) (draft : VersionDraft) : FactVersion :=
  { factRecordId := id
    previousVersionId := record.currentVersionId
    revision := record.currentRevision + 1
    status := draft.status
    statement := draft.statement
    confidence := draft.confidence
    sourceConflictId := some draft.sourceConflictId
    sourceAnalysisId := draft.sourceAnalysisId
    contextSnapshot := draft.contextSnapshot
    acceptedEvidenceIds := draft.acceptedEvidenceIds
    decisionSnapshot := draft.decisionSnapshot
    validFrom := now
    validTo := none
    decidedBy := draft.decidedBy }

def mirror (facts : Facts) (now : Time) (record : FactRecord) (draft : VersionDraft)
    (r : FactRecord) : FactRecord :=
  { r with
    status := draft.status
    isPublic := draft.isPublic
    currentRevision := record.currentRevision + 1
    currentVersionId := some facts.versions.size
    updatedAt := now }

def appendVersion (facts : Facts) (now : Time) (id : Id) (record : FactRecord)
    (draft : VersionDraft) : Facts where
  records := facts.records.modify id (facts.mirror now record draft)
  versions := Relational.appendVersion (FactVersion.close now) facts.versions
    record.currentVersionId (nextVersion now id record draft)

/-- The version chain of every record, and the record's copy of its head. -/
structure WellFormed (facts : Facts) : Prop where
  chained : ∀ {id r}, facts.records.get id = some r →
    factVersioning.Chain facts.versions id r.currentVersionId r.currentRevision
  versioned : ∀ {id r}, facts.records.get id = some r → 0 < r.currentRevision
  mirrored : ∀ {id r v}, facts.records.get id = some r → facts.currentVersion r = some v →
    r.status = v.status
  owned : ∀ {k v}, facts.versions.get k = some v → v.factRecordId < facts.records.size
  keyUnique : ∀ {id id' r r'}, facts.records.get id = some r → facts.records.get id' = some r' →
    r.incidentId = r'.incidentId → r.factKey = r'.factKey → id = id'

theorem wellFormed_empty : WellFormed ⟨.empty, .empty⟩ where
  chained := fun h => by simp at h
  versioned := fun h => by simp at h
  mirrored := fun h => by simp at h
  owned := fun h => by simp at h
  keyUnique := fun h => by simp at h

theorem WellFormed.currentVersion {facts : Facts} (h : facts.WellFormed) {id : Id}
    {r : FactRecord} (hr : facts.records.get id = some r) :
    ∃ k v, r.currentVersionId = some k ∧ facts.versions.get k = some v ∧ v.factRecordId = id ∧
      v.revision = r.currentRevision := by
  obtain ⟨k, v, hk, hv, ho, hrev⟩ := (h.chained hr).head_some (h.versioned hr)
  exact ⟨k, v, hk, hv, ho, hrev⟩

theorem lookup_some {facts : Facts} {incidentId : Id} {factKey : String} {id : Id}
    {r : FactRecord} (h : facts.lookup incidentId factKey = some (id, r)) :
    facts.records.get id = some r ∧ r.incidentId = incidentId ∧ r.factKey = factKey := by
  obtain ⟨hr, hp⟩ := Table.find_some h
  exact ⟨hr, isFor_iff.mp hp⟩

theorem WellFormed.lookup_eq {facts : Facts} (h : facts.WellFormed) {id : Id} {r : FactRecord}
    (hr : facts.records.get id = some r) :
    facts.lookup r.incidentId r.factKey = some (id, r) := by
  refine Table.find_eq hr (isFor_iff.mpr ⟨rfl, rfl⟩) fun j s hs hp => ?_
  obtain ⟨hi, hk⟩ := isFor_iff.mp hp
  exact h.keyUnique hs hr hi hk

theorem lookup_none {facts : Facts} {incidentId : Id} {factKey : String}
    (h : facts.lookup incidentId factKey = none) {id : Id} {r : FactRecord}
    (hr : facts.records.get id = some r) : ¬ (r.incidentId = incidentId ∧ r.factKey = factKey) := by
  intro hk
  have := Table.find_none h hr
  rw [isFor_iff.mpr hk] at this
  exact Bool.noConfusion this

section Append
variable {facts : Facts} {id : Id} {record : FactRecord} (now : Time) (draft : VersionDraft)

theorem get_appendRecord {j : Id} {r : FactRecord}
    (h : (facts.appendVersion now id record draft).records.get j = some r) :
    (id = j ∧ ∃ s, facts.records.get j = some s ∧ r = facts.mirror now record draft s) ∨
      (id ≠ j ∧ facts.records.get j = some r) :=
  Table.get_modify_cases h

theorem get_appendRecord_self {r : FactRecord} (h : facts.records.get id = some r) :
    (facts.appendVersion now id record draft).records.get id
      = some (facts.mirror now record draft r) := by
  simp [appendVersion, h]

theorem get_appendRecord_of_ne {j : Id} (h : j ≠ id) :
    (facts.appendVersion now id record draft).records.get j = facts.records.get j :=
  Table.get_modify_of_ne _ _ h.symm

theorem get_appendVersion_size :
    (facts.appendVersion now id record draft).versions.get facts.versions.size
      = some (nextVersion now id record draft) :=
  Relational.get_appendVersion_new _ _ _ _

/-- Well formed but for the record `id`, which may have no version yet. -/
structure Ready (facts : Facts) (id : Id) : Prop where
  chained : ∀ {j r}, facts.records.get j = some r →
    factVersioning.Chain facts.versions j r.currentVersionId r.currentRevision
  versioned : ∀ {j r}, facts.records.get j = some r → j ≠ id → 0 < r.currentRevision
  mirrored : ∀ {j r v}, facts.records.get j = some r → j ≠ id → facts.currentVersion r = some v →
    r.status = v.status
  owned : ∀ {k v}, facts.versions.get k = some v → v.factRecordId < facts.records.size
  keyUnique : ∀ {j j' r r'}, facts.records.get j = some r → facts.records.get j' = some r' →
    r.incidentId = r'.incidentId → r.factKey = r'.factKey → j = j'

theorem WellFormed.ready (h : facts.WellFormed) (id : Id) : facts.Ready id where
  chained := h.chained
  versioned := fun hr _ => h.versioned hr
  mirrored := fun hr _ => h.mirrored hr
  owned := h.owned
  keyUnique := h.keyUnique

/-- A record that is about to get its first version. -/
theorem WellFormed.insert (h : facts.WellFormed) (hversion : record.currentVersionId = none)
    (hrev : record.currentRevision = 0)
    (hkey : ∀ j r, facts.records.get j = some r →
      ¬ (r.incidentId = record.incidentId ∧ r.factKey = record.factKey)) :
    Ready { facts with records := facts.records.insert record } facts.records.size where
  chained := by
    intro j r hj
    rcases Table.get_insert_cases hj with ⟨rfl, rfl⟩ | hj
    · rw [hversion, hrev]
      exact Versioning.Chain.empty fun k v hk (ho : v.factRecordId = facts.records.size) =>
        absurd (h.owned hk) (Nat.not_lt.mpr ho.ge)
    · exact h.chained hj
  versioned := by
    intro j r hj hne
    rcases Table.get_insert_cases hj with ⟨heq, -⟩ | hj
    · exact absurd heq hne
    · exact h.versioned hj
  mirrored := by
    intro j r v hj hne hv
    rcases Table.get_insert_cases hj with ⟨heq, -⟩ | hj
    · exact absurd heq hne
    · exact h.mirrored hj hv
  owned := by
    intro k v hk
    rw [Table.size_insert]
    exact (h.owned hk).trans (Nat.lt_succ_self _)
  keyUnique := by
    intro j j' r r' hj hj' hi hk
    rcases Table.get_insert_cases hj with ⟨rfl, rfl⟩ | hr <;>
      rcases Table.get_insert_cases hj' with ⟨rfl, rfl⟩ | hr'
    · rfl
    · exact absurd ⟨hi.symm, hk.symm⟩ (hkey _ _ hr')
    · exact absurd ⟨hi, hk⟩ (hkey _ _ hr)
    · exact h.keyUnique hr hr' hi hk

theorem Ready.head (h : facts.Ready id) (hr : facts.records.get id = some record) {k : Id}
    {u : FactVersion} (hk : record.currentVersionId = some k) (hu : facts.versions.get k = some u) :
    u.factRecordId = id := by
  have hc := h.chained hr
  rcases Nat.eq_zero_or_pos record.currentRevision with h0 | hpos
  · rw [hc.head_none h0] at hk
    exact nomatch hk
  · obtain ⟨l, w, hl, hw, ho, -⟩ := hc.head_some hpos
    obtain rfl : k = l := Option.some.inj (hk.symm.trans hl)
    exact Option.some.inj (hw.symm.trans hu) ▸ ho

/-- The version of a record that was not appended to is untouched. -/
theorem Ready.appendVersion_currentVersion (h : facts.Ready id)
    (hr : facts.records.get id = some record) {j : Id} {s : FactRecord}
    (hs : facts.records.get j = some s) (hj : id ≠ j) :
    (facts.appendVersion now id record draft).currentVersion s = facts.currentVersion s := by
  obtain ⟨k, v, hk, hv, ho, -⟩ := (h.chained hs).head_some (h.versioned hs hj.symm)
  have hkl : record.currentVersionId ≠ some k :=
    fun hkl => hj ((h.head hr hkl hv).symm.trans ho)
  simp only [Facts.currentVersion, hk, Option.bind_some, appendVersion]
  rw [Relational.get_appendVersion_old _ hv, if_neg hkl, hv]

theorem WellFormed.appendVersion_currentVersion (h : facts.WellFormed)
    (hr : facts.records.get id = some record) {j : Id} {s : FactRecord}
    (hs : facts.records.get j = some s) (hj : id ≠ j) :
    (facts.appendVersion now id record draft).currentVersion s = facts.currentVersion s :=
  (h.ready id).appendVersion_currentVersion now draft hr hs hj

theorem Ready.appendVersion (h : facts.Ready id) (hr : facts.records.get id = some record) :
    (facts.appendVersion now id record draft).WellFormed where
  chained := by
    intro j r hj
    rcases get_appendRecord now draft hj with ⟨rfl, s, hs, rfl⟩ | ⟨hne, hj⟩
    · exact (h.chained hr).append_self (FactVersion.close_closing now) rfl rfl rfl rfl
    · exact (h.chained hj).append_other (FactVersion.close_closing now) hne
        (fun k u hk hu => h.head hr hk hu) hne
  versioned := by
    intro j r hj
    rcases get_appendRecord now draft hj with ⟨rfl, s, hs, rfl⟩ | ⟨hne, hj⟩
    · exact Nat.succ_pos _
    · exact h.versioned hj hne.symm
  mirrored := by
    intro j r v hj hv
    rcases get_appendRecord now draft hj with ⟨rfl, s, hs, rfl⟩ | ⟨hne, hj⟩
    · have hnew : (facts.appendVersion now id record draft).versions.get facts.versions.size
          = some v := hv
      rw [get_appendVersion_size] at hnew
      exact Option.some.inj hnew ▸ rfl
    · rw [h.appendVersion_currentVersion now draft hr hj hne] at hv
      exact h.mirrored hj hne.symm hv
  owned := by
    intro k v hk
    rw [Facts.appendVersion, Table.size_modify]
    rcases Relational.get_appendVersion hk with ⟨-, rfl⟩ | ⟨u, hu, hc⟩
    · exact Table.lt_size hr
    · have hs := ((FactVersion.close_closing now).same hc).1
      exact (show v.factRecordId = u.factRecordId from hs) ▸ h.owned hu
  keyUnique := by
    have key : ∀ {j r}, (facts.appendVersion now id record draft).records.get j = some r →
        ∃ s, facts.records.get j = some s ∧ s.incidentId = r.incidentId ∧ s.factKey = r.factKey := by
      intro j r hj
      rcases get_appendRecord now draft hj with ⟨rfl, s, hs, rfl⟩ | ⟨hne, hj⟩
      · exact ⟨s, hs, rfl, rfl⟩
      · exact ⟨r, hj, rfl, rfl⟩
    intro j j' r r' hj hj' hi hk
    obtain ⟨s, hs, hsi, hsk⟩ := key hj
    obtain ⟨s', hs', hsi', hsk'⟩ := key hj'
    exact h.keyUnique hs hs' (by rw [hsi, hsi', hi]) (by rw [hsk, hsk', hk])

theorem WellFormed.appendVersion (h : facts.WellFormed) (hr : facts.records.get id = some record) :
    (facts.appendVersion now id record draft).WellFormed :=
  (h.ready id).appendVersion now draft hr

end Append
end Facts

/-- The facts together with their projection, which `mark_fact_under_review` keeps in step. -/
structure FactBoard where
  facts : Facts
  features : Table MapFeature

def reviewFactFeature (now : Time) (features : Table MapFeature) (incidentId factId : Id)
    (revision : ℕ) : Table MapFeature :=
  match features.first (MapFeature.isFor incidentId .fact factId) with
  | some i => features.modify i fun f =>
      { f with
        status := .fact .underReview
        revision := revision
        publicData := []
        privateData := Dict.merge f.privateData [("fact_revision", .nat revision)]
        updatedAt := now }
  | none => features

def reviewDraft (previous : Option FactVersion) (conflictId : Id) (conflict : ConflictCase)
    (reason : String) : VersionDraft :=
  { status := .underReview
    isPublic := false
    statement := previous.elim "New evidence requires review" (·.statement)
    confidence := previous.bind (·.confidence)
    sourceConflictId := conflictId
    sourceAnalysisId := none
    contextSnapshot := some [("reason", .str reason), ("conflict_revision", .nat conflict.revision)]
    acceptedEvidenceIds := []
    decisionSnapshot := [("automatic_transition", .str "under_review")]
    decidedBy := none }

namespace FactBoard

def review (board : FactBoard) (now : Time) (conflictId : Id) (conflict : ConflictCase)
    (reason : String) (id : Id) (record : FactRecord) : FactBoard where
  facts := board.facts.appendVersion now id record
    (reviewDraft (board.facts.currentVersion record) conflictId conflict reason)
  features := reviewFactFeature now board.features conflict.incidentId id
    (record.currentRevision + 1)

def markFactUnderReview (board : FactBoard) (now : Time) (conflictId : Id)
    (conflict : ConflictCase) (reason : String) : FactBoard × Option Id :=
  match board.facts.lookup conflict.incidentId conflict.factKey with
  | none => (board, none)
  | some (id, record) =>
      if record.status = .underReview then (board, some id)
      else (board.review now conflictId conflict reason id record, some id)

/-- Everything a transaction without a decision does to the facts: reviews, and changes of the
projection that do not concern them. -/
inductive Reviewed : FactBoard → FactBoard → Prop
  | refl (a) : Reviewed a a
  | review {a b : FactBoard} (now : Time) (conflictId : Id) (conflict : ConflictCase)
      (reason : String) {id : Id} {record : FactRecord} :
      Reviewed a b → b.facts.lookup conflict.incidentId conflict.factKey = some (id, record) →
      record.status ≠ .underReview →
      Reviewed a (b.review now conflictId conflict reason id record)
  | silent {a b : FactBoard} {features : Table MapFeature} :
      Reviewed a b → FactSilent b.features features → Reviewed a { b with features := features }

theorem Reviewed.trans {a b c : FactBoard} (h : Reviewed a b) (k : Reviewed b c) :
    Reviewed a c := by
  induction k with
  | refl => exact h
  | review now conflictId conflict reason _ hl hs ih =>
    exact .review now conflictId conflict reason ih hl hs
  | silent _ hf ih => exact .silent ih hf

theorem markFactUnderReview_reviewed (board : FactBoard) (now : Time) (conflictId : Id)
    (conflict : ConflictCase) (reason : String) :
    Reviewed board (board.markFactUnderReview now conflictId conflict reason).1 := by
  unfold markFactUnderReview
  split
  · exact .refl board
  · next id record hl =>
    split_ifs with hs
    · exact .refl board
    · exact .review now conflictId conflict reason (.refl board) hl hs

theorem Reviewed.wellFormed {a b : FactBoard} (h : Reviewed a b) (ha : a.facts.WellFormed) :
    b.facts.WellFormed := by
  induction h with
  | refl => exact ha
  | review now conflictId conflict reason _ hl _ ih =>
    exact ih.appendVersion now _ (Facts.lookup_some hl).1
  | silent _ _ ih => exact ih

/-- A fact that is not under review after such a transaction was not touched by it. -/
theorem Reviewed.untouched {a b : FactBoard} (h : Reviewed a b) (ha : a.facts.WellFormed)
    {id : Id} {r : FactRecord} (hr : b.facts.records.get id = some r)
    (hs : r.status ≠ .underReview) :
    a.facts.records.get id = some r ∧ a.facts.currentVersion r = b.facts.currentVersion r := by
  induction h with
  | refl => exact ⟨hr, rfl⟩
  | silent _ _ ih => exact ih hr
  | review now conflictId conflict reason hab hl hne ih =>
    have hwf := hab.wellFormed ha
    rcases Facts.get_appendRecord now _ hr with ⟨rfl, s, -, rfl⟩ | ⟨hj, hr'⟩
    · exact absurd rfl hs
    · obtain ⟨h₁, h₂⟩ := ih hr'
      refine ⟨h₁, h₂.trans ?_⟩
      exact (hwf.appendVersion_currentVersion now _ (Facts.lookup_some hl).1 hr' hj).symm

theorem Reviewed.size {a b : FactBoard} (h : Reviewed a b) :
    b.facts.records.size = a.facts.records.size := by
  induction h with
  | refl => rfl
  | silent _ _ ih => exact ih
  | review _ _ _ _ _ _ _ ih => exact (Table.size_modify _ _ _).trans ih

/-- The records of such a transaction are the old ones, moved to review at most. -/
theorem Reviewed.record {a b : FactBoard} (h : Reviewed a b) {id : Id} {r : FactRecord}
    (hr : b.facts.records.get id = some r) :
    ∃ s, a.facts.records.get id = some s ∧ s.incidentId = r.incidentId ∧ s.factKey = r.factKey ∧
      (r.status = s.status ∨ r.status = .underReview) := by
  induction h generalizing r with
  | refl => exact ⟨r, hr, rfl, rfl, Or.inl rfl⟩
  | silent _ _ ih => exact ih hr
  | review now conflictId conflict reason _ hl _ ih =>
    rcases Facts.get_appendRecord now _ hr with ⟨rfl, s, hs, rfl⟩ | ⟨-, hr'⟩
    · obtain ⟨u, hu, hui, huk, -⟩ := ih hs
      exact ⟨u, hu, hui, huk, Or.inr rfl⟩
    · exact ih hr'

end FactBoard

namespace Facts

/-- The fact of a key, if there is one, is under review. -/
def UnderReview (facts : Facts) (incidentId : Id) (factKey : String) : Prop :=
  ∀ id r, facts.records.get id = some r → r.incidentId = incidentId → r.factKey = factKey →
    r.status = .underReview

/-- The fact of a key is under review or accepts none of this evidence. -/
def Disowns (facts : Facts) (incidentId : Id) (factKey : String) (evidenceIds : List Id) : Prop :=
  ∀ id r v, facts.records.get id = some r → r.incidentId = incidentId → r.factKey = factKey →
    r.status ≠ .underReview → facts.currentVersion r = some v →
    ∀ e ∈ v.acceptedEvidenceIds, e ∉ evidenceIds

theorem UnderReview.disowns {facts : Facts} {incidentId : Id} {factKey : String}
    (h : facts.UnderReview incidentId factKey) (evidenceIds : List Id) :
    facts.Disowns incidentId factKey evidenceIds :=
  fun id r _ hr hi hk hs _ => absurd (h id r hr hi hk) hs

end Facts

namespace FactBoard

theorem Reviewed.underReview {a b : FactBoard} (h : Reviewed a b) {incidentId : Id}
    {factKey : String} (ha : a.facts.UnderReview incidentId factKey) :
    b.facts.UnderReview incidentId factKey := by
  intro id r hr hi hk
  obtain ⟨s, hs, hsi, hsk, hst | hst⟩ := h.record hr
  · rw [hst]
    exact ha id s hs (hsi.trans hi) (hsk.trans hk)
  · exact hst

theorem Reviewed.disowns {a b : FactBoard} (h : Reviewed a b) (hwf : a.facts.WellFormed)
    {incidentId : Id} {factKey : String} {evidenceIds : List Id}
    (ha : a.facts.Disowns incidentId factKey evidenceIds) :
    b.facts.Disowns incidentId factKey evidenceIds := by
  intro id r v hr hi hk hs hv
  obtain ⟨hr', hv'⟩ := h.untouched hwf hr hs
  exact ha id r v hr' hi hk hs (hv'.trans hv)

/-- Afterwards the fact of the case, if there is one, is under review. -/
theorem markFactUnderReview_underReview {board : FactBoard} (hwf : board.facts.WellFormed)
    (now : Time) (conflictId : Id) (conflict : ConflictCase) (reason : String) :
    (board.markFactUnderReview now conflictId conflict reason).1.facts.UnderReview
      conflict.incidentId conflict.factKey := by
  intro id r hr hi hk
  unfold markFactUnderReview at hr
  split at hr
  · next hl => exact absurd ⟨hi, hk⟩ (Facts.lookup_none hl hr)
  · next id' record hl =>
    obtain ⟨hrec, hri, hrk⟩ := Facts.lookup_some hl
    split_ifs at hr with hs
    · obtain rfl := hwf.keyUnique hr hrec (hi.trans hri.symm) (hk.trans hrk.symm)
      rw [hr] at hrec
      exact Option.some.inj hrec ▸ hs
    · rcases Facts.get_appendRecord now _ hr with ⟨rfl, s, hs, rfl⟩ | ⟨hj, hr'⟩
      · rfl
      · exact absurd (hwf.keyUnique hrec hr' (hri.trans hi.symm) (hrk.trans hk.symm)) hj

end FactBoard
end CrisisMosaic
