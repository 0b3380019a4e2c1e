import CrisisMosaic.Reachable
import CrisisMosaic.Relational.Guarded

/-!
# The revision of a case

Every operation that changes the current evidence of a case moves its revision.
A decision is made for a revision, so it disposes of the evidence that was
current when that revision was read.
-/

namespace CrisisMosaic
open Relational Store

namespace Store

def caseRevision (s : Store) (c : Id) : Option ℕ := (s.cases.get c).map (·.revision)

def currentSet (s : Store) (c : Id) : Set Id := {i | i ∈ currentEvidence s.evidence c}

abbrev EvidenceGuarded : Store → Store → Prop := Guarded caseRevision currentSet

variable {b t : Store}

theorem evidenceGuarded_iff : b.EvidenceGuarded t ↔ ∀ c x, b.cases.get c = some x →
    ∃ y, t.cases.get c = some y ∧ x.revision ≤ y.revision ∧
      (y.revision = x.revision → t.currentSet c = b.currentSet c) := by
  constructor
  · intro h c x hx
    obtain ⟨m, hm, hle, hsame⟩ := h c x.revision (by rw [caseRevision, hx]; rfl)
    obtain ⟨y, hy, rfl⟩ := Option.map_eq_some_iff.mp hm
    exact ⟨y, hy, hle, hsame⟩
  · intro h c n hn
    obtain ⟨x, hx, rfl⟩ := Option.map_eq_some_iff.mp hn
    obtain ⟨y, hy, hle, hsame⟩ := h c x hx
    exact ⟨y.revision, by rw [caseRevision, hy]; rfl, hle, hsame⟩

/-- A step that leaves the evidence as it is. -/
theorem evidenceGuarded_of_kept (he : t.evidence = b.evidence)
    (hc : ∀ c x, b.cases.get c = some x → ∃ y, t.cases.get c = some y ∧ x.revision ≤ y.revision) :
    b.EvidenceGuarded t := by
  refine evidenceGuarded_iff.mpr fun c x hx => ?_
  obtain ⟨y, hy, hle⟩ := hc c x hx
  exact ⟨y, hy, hle, fun _ => by rw [currentSet, currentSet, he]⟩

theorem Works.evidenceGuarded {asked : Asked} {reopens : Id → Prop} (h : b.Works asked reopens t) :
    b.EvidenceGuarded t := by
  refine evidenceGuarded_iff.mpr fun c x hx => ?_
  obtain ⟨y, hy, hxy⟩ := h.cases.get_some hx
  exact ⟨y, hy, ConflictCase.Progress.revision hxy,
    fun hr => Set.ext (h.sameEvidence c x y hx hy hr)⟩

end Store

section Steps
variable {env : Env} {db : Db} {op : Op} {o : Outcome}

theorem Restated.evidenceGuarded {b t : Store} {id : Id} {status : CaseStatus}
    (h : Restated b t id status) : b.EvidenceGuarded t := by
  refine evidenceGuarded_of_kept h.evidence fun c x hx => ⟨_, h.case hx, ?_⟩
  split_ifs <;> exact le_rfl

theorem AnalysisStep.evidenceGuarded {b t : Store} (h : AnalysisStep b t) : b.EvidenceGuarded t := by
  cases h with
  | quiet k => exact evidenceGuarded_of_kept k.evidence fun c x hx => ⟨x, k.cases ▸ hx, le_rfl⟩
  | answered _ _ _ _ _ hr _ => exact hr.evidenceGuarded
  | released _ _ hr _ => exact hr.evidenceGuarded

theorem Decision.evidenceGuarded {now : Time} {s t : Store} {id : Id} {payload : DecisionRequest}
    {x : ConflictCase} {ready : Facts} {factId : Id} {record : FactRecord} {draft : VersionDraft}
    (h : Decision env now s t id payload x ready factId record draft) : s.EvidenceGuarded t := by
  obtain ⟨decidedBy, resolution, hcases⟩ := h.cases
  refine evidenceGuarded_of_kept h.evidence fun c y hy => ?_
  rw [hcases, Table.get_modify, hy]
  split_ifs with hc
  · subst hc
    obtain rfl : x = y := Option.some.inj (h.case.symm.trans hy)
    exact ⟨_, rfl, ConflictCase.resolveCase_revision_le now x decidedBy resolution true⟩
  · exact ⟨y, rfl, le_rfl⟩

theorem Effect.evidenceGuarded (h : Effect env db op o) :
    db.toStore.EvidenceGuarded o.db.toStore := by
  cases h with
  | worked hw _ _ _ => exact hw.evidenceGuarded
  | decided _ hd _ _ => exact hd.evidenceGuarded
  | requested _ hr _ _ =>
    obtain ⟨status, -, hr⟩ := hr.status
    exact hr.evidenceGuarded
  | analysed ha _ _ => exact ha.evidenceGuarded

theorem step_evidenceGuarded (env : Env) (db : Db) (op : Op) (hs : db.toStore.Sound) :
    db.toStore.EvidenceGuarded (step env db op).toStore :=
  step_cases (P := fun t : Db => db.toStore.EvidenceGuarded t.toStore) (.refl _)
    fun _ ho => (transact_effect ho hs).evidenceGuarded

theorem run_evidenceGuarded (env : Env) {db : Db} (hs : db.toStore.Sound) (ops : List Op) :
    db.toStore.EvidenceGuarded (runFrom env db ops).toStore :=
  Guarded.run (fun t : Db => caseRevision t.toStore) (fun t : Db => currentSet t.toStore)
    (I := fun t : Db => t.toStore.Sound)
    (fun t op ht => step_sound env t op ht) (fun t op ht => step_evidenceGuarded env t op ht) hs ops

/-- An accepted decision was made for the revision the case has, and for all of its current
evidence. -/
theorem transact_decides {c : Id} {payload : DecisionRequest} (h : transact env db op = .ok o)
    (hd : op.decides db c payload) : ∃ x, db.cases.get c = some x ∧ x.revision = payload.revision ∧
      ∀ i, i ∈ payload.submittedIds ↔ i ∈ db.toStore.currentSet c := by
  obtain ⟨now, actor, header, call⟩ := op
  cases call with
  | submitConflictDecision conflict p =>
    obtain ⟨rfl, x, hx⟩ := hd
    obtain ⟨t, ht, -⟩ := map_ok.mp h
    obtain ⟨id, y, hy, z, ready, factId, record, draft, hdec⟩ := submitConflictDecision_spec ht
    obtain ⟨rfl, rfl⟩ := Prod.mk.inj (Except.ok.inj (hx.symm.trans hy))
    exact ⟨z, hdec.case, hdec.revision, hdec.disposed⟩
  | _ => exact hd.elim

end Steps

end CrisisMosaic
