import CrisisMosaic.LedgerSteps
import CrisisMosaic.Reachable

/-!
# Current evidence

The current row of a source in a case cites the latest revision the case has of
that source, and there is at most one.
-/

namespace CrisisMosaic
open Relational

namespace ConflictEvidence

/-- The rows cite one source for one case. -/
def SameSource (e f : ConflictEvidence) : Prop :=
  f.conflictId = e.conflictId ∧ f.kind = e.kind ∧ f.sourceId = e.sourceId

theorem sameSource_of_cites {e f : ConflictEvidence} {c id : Id} {kind : EvidenceKind}
    (he : e.cites c kind id = true) (hf : f.cites c kind id = true) : e.SameSource f := by
  obtain ⟨h₁, h₂, h₃⟩ := cites_iff.mp he
  obtain ⟨k₁, k₂, k₃⟩ := cites_iff.mp hf
  exact ⟨k₁.trans h₁.symm, k₂.trans h₂.symm, k₃.trans h₃.symm⟩

theorem SameSource.cites {e f : ConflictEvidence} (h : e.SameSource f) {c id : Id}
    {kind : EvidenceKind} (he : e.cites c kind id = true) : f.cites c kind id = true := by
  obtain ⟨h₁, h₂, h₃⟩ := cites_iff.mp he
  exact cites_iff.mpr ⟨h.1.trans h₁, h.2.1.trans h₂, h.2.2.trans h₃⟩

theorem SameSource.symm {e f : ConflictEvidence} (h : e.SameSource f) : f.SameSource e :=
  ⟨h.1.symm, h.2.1.symm, h.2.2.symm⟩

end ConflictEvidence

namespace Ledger

/-- No row is of a revision to come, each revision is cited once, and a current row is of the
largest one. -/
structure Dated (l : Ledger) : Prop where
  bounded : ∀ i e, l.evidence.get i = some e → e.sourceRevision ≤ l.latest e.kind e.sourceId
  unique : ∀ i j e f, l.evidence.get i = some e → l.evidence.get j = some f → e.SameSource f →
    f.sourceRevision = e.sourceRevision → j = i
  current : ∀ i j e f, l.evidence.get i = some e → l.evidence.get j = some f → e.SameSource f →
    e.isCurrent = true → f.sourceRevision ≤ e.sourceRevision

namespace Dated
variable {l : Ledger}

/-- Rows keep their source and revision, and one becomes current only if it is of the latest. -/
theorem rewrite (h : l.Dated) {evidence : Table ConflictEvidence}
    (hrow : ∀ i e, evidence.get i = some e → ∃ d, l.evidence.get i = some d ∧ d.SameSource e ∧
      e.sourceRevision = d.sourceRevision ∧
      (e.isCurrent = true → d.isCurrent = true ∨ d.sourceRevision = l.latest d.kind d.sourceId)) :
    ({ l with evidence := evidence } : Ledger).Dated where
  bounded := by
    intro i e he
    obtain ⟨d, hd, hs, hr, -⟩ := hrow i e he
    rw [hr, hs.2.1, hs.2.2]
    exact h.bounded i d hd
  unique := by
    intro i j e f he hf hef hr
    obtain ⟨d, hd, hs, hdr, -⟩ := hrow i e he
    obtain ⟨g, hg, ht, hgr, -⟩ := hrow j f hf
    have hdg : d.SameSource g := ⟨ht.1.symm.trans (hef.1.trans hs.1),
      ht.2.1.symm.trans (hef.2.1.trans hs.2.1), ht.2.2.symm.trans (hef.2.2.trans hs.2.2)⟩
    exact h.unique i j d g hd hg hdg (by omega)
  current := by
    intro i j e f he hf hef hc
    obtain ⟨d, hd, hs, hdr, hcur⟩ := hrow i e he
    obtain ⟨g, hg, ht, hgr, -⟩ := hrow j f hf
    have hdg : d.SameSource g := ⟨ht.1.symm.trans (hef.1.trans hs.1),
      ht.2.1.symm.trans (hef.2.1.trans hs.2.1), ht.2.2.symm.trans (hef.2.2.trans hs.2.2)⟩
    rw [hdr, hgr]
    rcases hcur hc with hc | hlatest
    · exact h.current i j d g hd hg hdg hc
    · rw [hlatest, ← hdg.2.1, ← hdg.2.2]
      exact h.bounded j g hg

/-- A row of the latest revision is added, after those of its source were retired. -/
theorem insert (h : l.Dated) {e : ConflictEvidence} (hr : e.sourceRevision = l.latest e.kind e.sourceId)
    (hnew : ∀ i f, l.evidence.get i = some f → e.SameSource f → f.isCurrent = false ∧
      f.sourceRevision ≠ e.sourceRevision) :
    ({ l with evidence := l.evidence.insert e } : Ledger).Dated where
  bounded := by
    intro i f hf
    rcases Table.get_insert_cases hf with ⟨-, rfl⟩ | hf
    · exact hr.le
    · exact h.bounded i f hf
  unique := by
    intro i j d f hd hf hdf hrev
    rcases Table.get_insert_cases hd with ⟨rfl, rfl⟩ | hd' <;>
      rcases Table.get_insert_cases hf with ⟨rfl, rfl⟩ | hf'
    · rfl
    · exact absurd hrev (hnew j f hf' hdf).2
    · exact absurd hrev.symm (hnew i d hd' hdf.symm).2
    · exact h.unique i j d f hd' hf' hdf hrev
  current := by
    intro i j d f hd hf hdf hc
    rcases Table.get_insert_cases hd with ⟨rfl, rfl⟩ | hd' <;>
      rcases Table.get_insert_cases hf with ⟨rfl, rfl⟩ | hf'
    · exact le_rfl
    · rw [hr, ← hdf.2.1, ← hdf.2.2]
      exact h.bounded j f hf'
    · exact absurd hc (by simp [(hnew i d hd' hdf.symm).1])
    · exact h.current i j d f hd' hf' hdf hc

theorem cite (h : l.Dated) (env : Env) (now : Time) (c : Id) (kind : EvidenceKind) (id : Id)
    {version : SourceVersion} (hv : version.revision = l.latest kind id) :
    ({ l with evidence := (citeSource env now l.evidence c kind id version).1 } : Ledger).Dated := by
  unfold citeSource
  cases hfirst : l.evidence.first fun e =>
      e.cites c kind id && e.sourceRevision = version.revision with
  | some i =>
    obtain ⟨e, he, hp⟩ := Table.first_some hfirst
    simp only [Bool.and_eq_true, ConflictEvidence.cites_iff, decide_eq_true_eq] at hp
    obtain ⟨⟨-, rfl, rfl⟩, hr⟩ := hp
    refine h.rewrite fun j f hf => ?_
    rcases Table.get_modify_cases hf with ⟨rfl, d, hd, rfl⟩ | ⟨-, hf⟩
    · obtain rfl : e = d := Option.some.inj (he.symm.trans hd)
      exact ⟨e, he, ⟨rfl, rfl, rfl⟩, rfl, fun _ => Or.inr (hr.trans hv)⟩
    · exact ⟨f, hf, ⟨rfl, rfl, rfl⟩, rfl, Or.inl⟩
  | none =>
    have hretired : ({ l with
        evidence := l.evidence.sweep fun e =>
          if e.cites c kind id && e.isCurrent then { e with isCurrent := false } else e } :
            Ledger).Dated := by
      refine h.rewrite fun j f hf => ?_
      rw [Table.get_sweep] at hf
      obtain ⟨d, hd, rfl⟩ := Option.map_eq_some_iff.mp hf
      refine ⟨d, hd, ?_⟩
      split_ifs
      · exact ⟨⟨rfl, rfl, rfl⟩, rfl, fun hc => nomatch hc⟩
      · exact ⟨⟨rfl, rfl, rfl⟩, rfl, Or.inl⟩
    refine hretired.insert hv fun i f hf hsame => ?_
    rw [Table.get_sweep] at hf
    obtain ⟨d, hd, rfl⟩ := Option.map_eq_some_iff.mp hf
    have hcited : d.cites c kind id = true := by
      refine ConflictEvidence.cites_iff.mpr ?_
      split_ifs at hsame <;> exact hsame
    have hno := Table.first_none hfirst hd
    rw [hcited, Bool.true_and, decide_eq_false_iff_not] at hno
    rw [hcited, Bool.true_and]
    cases hc : d.isCurrent with
    | true => exact ⟨rfl, hno⟩
    | false => exact ⟨hc, hno⟩

end Dated

theorem Dated.moves {base l : Ledger} (h : base.Dated) (hm : Moves base l) : l.Dated := by
  induction hm with
  | start => exact h
  | sources _ hle ih =>
    exact ⟨fun i e he => (ih.bounded i e he).trans (hle _ _), ih.unique, ih.current⟩
  | cited _ hv ih => exact ih.cite _ _ _ _ _ hv
  | withdrawn _ ih =>
    refine ih.rewrite fun i e he => ?_
    obtain ⟨d, hd, ⟨-, rfl⟩ | ⟨-, rfl⟩⟩ := get_invalidateFragmentEvidence he
    · exact ⟨d, hd, ⟨rfl, rfl, rfl⟩, rfl, fun hc => nomatch hc⟩
    · exact ⟨e, hd, ⟨rfl, rfl, rfl⟩, rfl, Or.inl⟩
  | briefs _ _ ih => exact ⟨ih.bounded, ih.unique, ih.current⟩
  | opened _ _ ih => exact ⟨ih.bounded, ih.unique, ih.current⟩
  | extended _ _ _ ih => exact ⟨ih.bounded, ih.unique, ih.current⟩
  | marked _ _ _ ih => exact ⟨ih.bounded, ih.unique, ih.current⟩
  | reopened _ _ _ ih => exact ⟨ih.bounded, ih.unique, ih.current⟩
  | closed _ _ ih => exact ⟨ih.bounded, ih.unique, ih.current⟩

end Ledger

section Runs
variable {env : Env} {db : Db} {op : Op} {o : Outcome}

/-- Deciding and analysing leave the evidence as it is. -/
structure Judged (db db' : Db) : Prop where
  evidence : db'.evidence = db.evidence
  fragments : RevisionsGrow db.fragments db'.fragments
  reports : db'.reports = db.reports
  answers : db'.answers = db.answers

theorem Restated.judged {db : Db} {t : Store} {id : Id} {status : CaseStatus}
    (h : Restated db.toStore t id status) : Judged db { db with toStore := t } :=
  ⟨h.evidence, h.fragments ▸ .refl _, rfl, rfl⟩

theorem AnalysisStep.judged {db : Db} {t : Store} (h : AnalysisStep db.toStore t) :
    Judged db { db with toStore := t } := by
  cases h with
  | quiet k => exact ⟨k.evidence, k.fragments ▸ .refl _, rfl, rfl⟩
  | answered _ _ _ _ _ hr _ => exact hr.judged
  | released _ _ hr _ => exact hr.judged

theorem handle_judged (h : handle env db op = .ok o) (hop : op.call.judges = true) : Judged db o.db := by
  obtain ⟨now, actor, header, call⟩ := op
  cases call with
  | submitConflictDecision conflict payload =>
    obtain ⟨t, ht, rfl⟩ := map_ok.mp h
    obtain ⟨id, x, -, y, ready, factId, record, draft, hdec⟩ := submitConflictDecision_spec ht
    exact ⟨hdec.evidence, .of_step hdec.fragmentStep, rfl, rfl⟩
  | requestAnalysis conflict incident revision requested =>
    obtain ⟨r, hr, rfl⟩ := map_ok.mp h
    obtain ⟨id, x, -, hreq, hreports⟩ := requestAnalysis_spec hr
    obtain ⟨status, -, hres⟩ := hreq.status
    refine ⟨hres.evidence, hres.fragments ▸ .refl _, hreports, ?_⟩
    simp only [requestAnalysis, bind_ok, pure_ok, Prod.exists] at hr
    obtain ⟨-, -, -, -, -, -, -, -, -, s, jobs, -, -, -, -, -, rfl⟩ := hr
    rfl
  | startAnalysis analysis =>
    obtain ⟨t, ht, rfl⟩ := map_ok.mp h
    exact (AnalysisStep.quiet (startAnalysis_spec ht)).judged
  | completeAnalysis analysis output confidence seenStale =>
    obtain ⟨t, ht, rfl⟩ := map_ok.mp h
    exact (completeAnalysis_spec ht).judged
  | failAnalysis analysis error =>
    obtain ⟨t, ht, rfl⟩ := map_ok.mp h
    exact (failAnalysis_spec ht).judged
  | retryAnalysis analysis =>
    obtain ⟨r, hr, rfl⟩ := map_ok.mp h
    obtain ⟨hq, -⟩ := retryAnalysis_spec hr
    simp only [retryAnalysis, bind_ok, pure_ok] at hr
    obtain ⟨a, -, -, -, -, -, -, -, -, -, rfl⟩ := hr
    exact ⟨hq.evidence, hq.fragments ▸ .refl _, rfl, rfl⟩
  | _ => cases hop

theorem Ledger.Dated.judged {db db' : Db} (h : db.ledger.Dated) (hj : Judged db db') :
    db'.ledger.Dated := by
  have hrow : ∀ i e, db'.evidence.get i = some e → db.evidence.get i = some e := by
    rw [hj.evidence]
    exact fun _ _ he => he
  have hreports : db.reports.Grows (·.revision) db'.reports := hj.reports ▸ .refl _
  have hanswers : db.answers.Grows (·.revision) db'.answers := hj.answers ▸ .refl _
  have hlatest : ∀ kind id, db.ledger.latest kind id ≤ db'.ledger.latest kind id :=
    latestRevision_mono hj.fragments hreports hanswers
  exact
    { bounded := fun i e he => (h.bounded i e (hrow i e he)).trans
        (hlatest e.kind e.sourceId)
      unique := fun i j e f he hf => h.unique i j e f (hrow i e he) (hrow j f hf)
      current := fun i j e f he hf => h.current i j e f (hrow i e he) (hrow j f hf) }

theorem step_dated (env : Env) (db : Db) (op : Op) (h : db.ledger.Dated) :
    (step env db op).ledger.Dated := by
  have hbegin : db.begin.ledger.Dated := h
  refine step_cases (P := fun t : Db => t.ledger.Dated) h fun o ho => ?_
  cases hop : op.call.judges with
  | false => exact hbegin.moves (handle_moves ho hop)
  | true => exact hbegin.judged (handle_judged ho hop)

/-- In every reachable state a current row of evidence is of the largest revision its case has of
its source, and no other row of that source in the case is current. -/
theorem current_evidence_is_latest (env : Env) (incidents : Table Incident)
    (devices : Table AnonymousDevice) (attachments : Table Attachment) (ops : List Op) :
    let evidence := (reached env incidents devices attachments ops).evidence
    ∀ i e, evidence.get i = some e → e.isCurrent = true →
      ∀ j f, evidence.get j = some f → f.conflictId = e.conflictId → f.kind = e.kind →
        f.sourceId = e.sourceId → f.sourceRevision ≤ e.sourceRevision ∧ (f.isCurrent = true → j = i) := by
  have hinitial : (Db.initial incidents devices attachments).ledger.Dated :=
    ⟨fun _ _ h => (nomatch h), fun _ _ _ _ h => (nomatch h), fun _ _ _ _ h => (nomatch h)⟩
  have hdated : (reached env incidents devices attachments ops).ledger.Dated :=
    run_invariant (step env) (I := fun t : Db => t.ledger.Dated)
      (fun t op ht _ => step_dated env t op ht) hinitial (along_true (step env) _ ops)
  intro evidence i e he hc j f hf hcase hkind hsource
  have hsame : e.SameSource f := ⟨hcase, hkind, hsource⟩
  have hle := hdated.current i j e f he hf hsame hc
  refine ⟨hle, fun hfc => ?_⟩
  exact hdated.unique i j e f he hf hsame (hle.antisymm (hdated.current j i f e hf he hsame.symm hfc))

end Runs
end CrisisMosaic
