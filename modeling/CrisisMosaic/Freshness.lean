import CrisisMosaic.Judging

/-!
# Fresh analyses

A succeeded analysis that is not marked stale was made for the present revision of
its case, unless a case is decided while it has one or the worker finishes late
with a row that was queued again.
-/

namespace CrisisMosaic
open Relational

/-- The case of the analysis is stored, and a fresh answer is about its present revision. -/
def AiAnalysis.FreshIn (cases : Table ConflictCase) (a : AiAnalysis) : Prop :=
  ∃ c x, a.target = some c ∧ cases.get c = some x ∧ a.incidentId = x.incidentId ∧
    (a.status = .succeeded → a.isStale = false → a.inputVersion = x.revision)

def Ledger.Fresh (l : Ledger) : Prop :=
  ∀ i a, l.analyses.get i = some a → a.analysisType = .conflictAnalysis → a.FreshIn l.cases

namespace AiAnalysis
variable {cases : Table ConflictCase} {a b : AiAnalysis}

/-- The answer is taken back, or is the same answer as before. -/
theorem FreshIn.rewrite (h : a.FreshIn cases) (hr : a.SameRequest b)
    (hs : b.status = .succeeded → b.isStale = false → a.status = .succeeded ∧ a.isStale = false) :
    b.FreshIn cases := by
  obtain ⟨c, x, hc, hx, hi, hfresh⟩ := h
  refine ⟨c, x, hr.target.trans hc, hx, hr.incidentId.trans hi, fun hsucc hstale => ?_⟩
  rw [hr.inputVersion]
  exact hfresh (hs hsucc hstale).1 (hs hsucc hstale).2

/-- A case keeps its incident and revision, whatever else is written to it. -/
theorem FreshIn.recase (h : a.FreshIn cases) (c : Id) {f : ConflictCase → ConflictCase}
    (hf : ∀ x, cases.get c = some x → (f x).incidentId = x.incidentId ∧ (f x).revision = x.revision) :
    a.FreshIn (cases.modify c f) := by
  obtain ⟨d, x, hd, hx, hi, hfresh⟩ := h
  by_cases hc : c = d
  · subst hc
    obtain ⟨hfi, hfr⟩ := hf x hx
    exact ⟨c, f x, hd, by simp [hx], hi.trans hfi.symm, fun hs ht => (hfresh hs ht).trans hfr.symm⟩
  · exact ⟨d, x, hd, by rw [Table.get_modify_of_ne _ _ hc, hx], hi, hfresh⟩

theorem FreshIn.released {cases' : Table ConflictCase} (h : a.FreshIn cases)
    (hr : ReleasedFrom cases cases') : a.FreshIn cases' := by
  rcases hr with rfl | ⟨c, x, hx, -, rfl⟩
  · exact h
  · exact h.recase c fun _ _ => ⟨rfl, rfl⟩

theorem case?_of_target {c : Id} {x : ConflictCase} (hc : a.target = some c)
    (hx : cases.get c = some x) : a.case? cases = some (c, x) := by
  rw [AiAnalysis.target] at hc
  simp [AiAnalysis.case?, hc, hx]

/-- A row of the analyses after those of the case `c` were marked. -/
theorem get_staleFor {analyses : Table AiAnalysis} {now : Time} {c incidentId i : Id}
    {reason : String} (h : (staleFor analyses now c incidentId reason).get i = some a) :
    ∃ b, analyses.get i = some b ∧ b.SameRequest a ∧ a.status = b.status ∧
      (a.isStale = false → b.isStale = false ∧ ¬ (b.concerns c = true ∧ b.incidentId = incidentId)) := by
  rw [staleFor, Table.get_sweep] at h
  obtain ⟨b, hb, rfl⟩ := Option.map_eq_some_iff.mp h
  refine ⟨b, hb, ?_⟩
  by_cases hmark : (b.concerns c && b.incidentId = incidentId && !b.isStale) = true
  · rw [if_pos hmark]
    exact ⟨⟨rfl, rfl, rfl, rfl, rfl⟩, rfl, fun hs => nomatch hs⟩
  · rw [if_neg hmark]
    refine ⟨⟨rfl, rfl, rfl, rfl, rfl⟩, rfl, fun hs => ⟨hs, fun hcon => hmark ?_⟩⟩
    simp [hcon, hs]

/-- The revision of a case moves and its analyses are marked. -/
theorem FreshIn.moved {analyses : Table AiAnalysis} {now : Time} {c i : Id} {x : ConflictCase}
    {f : ConflictCase → ConflictCase} {reason : String}
    (h : ∀ i b, analyses.get i = some b → b.analysisType = .conflictAnalysis → b.FreshIn cases)
    (hx : cases.get c = some x) (hf : (f x).incidentId = x.incidentId)
    (ha : (staleFor analyses now c x.incidentId reason).get i = some a)
    (ht : a.analysisType = .conflictAnalysis) : a.FreshIn (cases.modify c f) := by
  obtain ⟨b, hb, hsame, hstatus, hmark⟩ := get_staleFor ha
  have hbt : b.analysisType = .conflictAnalysis := hsame.analysisType ▸ ht
  obtain ⟨d, y, hd, hy, hi, hfresh⟩ := h i b hb hbt
  by_cases hc : c = d
  · subst hc
    obtain rfl : x = y := Option.some.inj (hx.symm.trans hy)
    have hconcerns : b.concerns c = true := concerns_iff_target.mpr ⟨hbt, hd⟩
    exact ⟨c, f x, hsame.target.trans hd, by simp [hx], (hsame.incidentId.trans hi).trans hf.symm,
      fun _ hs => absurd ⟨hconcerns, hi⟩ (hmark hs).2⟩
  · refine ⟨d, y, hsame.target.trans hd, by rw [Table.get_modify_of_ne _ _ hc, hy],
      hsame.incidentId.trans hi, fun hsucc hs => ?_⟩
    rw [hsame.inputVersion]
    exact hfresh (hstatus ▸ hsucc) (hmark hs).1

end AiAnalysis

/-- The operation neither decides a case with a fresh answer nor completes, as seen stale before it
was queued again, an analysis whose case has moved. -/
def Call.KeepsFresh (l : Ledger) : Call → Prop
  | .submitConflictDecision conflict _ => ∀ c x i a, getCase l.cases conflict = .ok (c, x) →
      l.analyses.get i = some a → a.concerns c = true → a.status = .succeeded → a.isStale = true
  | .completeAnalysis i _ _ seenStale => ∀ a, l.analyses.get i = some a → seenStale = true →
      a.isStale = false → isOutdated a (a.case? l.cases) = false
  | _ => True

namespace Ledger.Fresh
open AiAnalysis
variable {base l m : Ledger}

theorem moves (h : base.Fresh) (hm : Moves base l) : l.Fresh := by
  induction hm with
  | start => exact h
  | sources _ _ ih => exact ih
  | cited _ _ ih => exact ih
  | withdrawn _ ih => exact ih
  | briefs _ hsame ih => exact fun i a ha ht => ih i a ((hsame i a ht).mpr ha) ht
  | opened _ _ ih =>
    intro i a ha ht
    obtain ⟨c, x, hc, hx, hfresh⟩ := ih i a ha ht
    exact ⟨c, x, hc, Table.get_insert_of_some _ hx, hfresh⟩
  | extended _ hx hf ih => exact fun i a ha ht => FreshIn.moved ih hx (by rw [hf]; rfl) ha ht
  | marked _ _ _ ih =>
    intro i a ha ht
    obtain ⟨b, hb, hsame, hstatus, hmark⟩ := get_staleFor ha
    exact (ih i b hb (hsame.analysisType ▸ ht)).rewrite hsame
      fun hsucc hs => ⟨hstatus ▸ hsucc, (hmark hs).1⟩
  | reopened _ hx _ ih => exact fun i a ha ht => FreshIn.moved ih hx rfl ha ht
  | @closed _ c x now bump _ _ hx ih =>
    cases bump with
    | true => exact fun i a ha ht => FreshIn.moved ih hx rfl ha ht
    | false =>
      intro i a ha ht
      refine (ih i a ha ht).recase c fun y hy => ?_
      obtain rfl : x = y := Option.some.inj (hx.symm.trans hy)
      exact ⟨rfl, rfl⟩

theorem judges {env : Env} {call : Call} (h : l.Fresh) (hj : l.Judges env m call)
    (hk : call.KeepsFresh l) : m.Fresh := by
  cases hj with
  | @decided conflict payload c x now decidedBy resolution hcase hcases hsame =>
    have hx := getCase_some hcase
    intro i a ha ht
    have hold := (hsame i a ht).mpr ha
    obtain ⟨d, y, hd, hy, hi, hfresh⟩ := h i a hold ht
    rw [hcases]
    by_cases hc : c = d
    · subst hc
      obtain rfl : x = y := Option.some.inj (hx.symm.trans hy)
      refine ⟨c, resolveCase now x decidedBy resolution true, hd, by simp [hx], hi, fun hsucc hs => ?_⟩
      have hstale := hk c x i a hcase hold (concerns_iff_target.mpr ⟨ht, hd⟩) hsucc
      simp [hs] at hstale
    · exact ⟨d, y, hd, by rw [Table.get_modify_of_ne _ _ hc, hy], hi, hfresh⟩
  | @answered _ c _ x _ _ hx _ _ _ hcases hsame =>
    intro i a ha ht
    rw [hcases]
    exact (h i a ((hsame i a ht).mpr ha) ht).recase c fun _ _ => ⟨rfl, rfl⟩
  | @queued _ c x _ _ _ _ hx _ hcases hsame =>
    intro i a ha ht
    rw [hcases]
    rcases Table.get_insert_cases ((hsame i a ht).mpr ha) with ⟨-, rfl⟩ | hold
    · exact ⟨c, { x with status := .analyzing }, rfl, by simp [hx], rfl, fun hs => nomatch hs⟩
    · exact (h i a hold ht).recase c fun _ _ => ⟨rfl, rfl⟩
  | @undone _ i a b _ ha hab hb _ hcases hsame =>
    intro j d hd ht
    rcases Table.get_modify_cases ((hsame j d ht).mpr hd) with ⟨rfl, -, -, rfl⟩ | ⟨-, hold⟩
    · exact ((h i a ha (hab.analysisType ▸ ht)).rewrite hab fun hs => absurd hs hb).released hcases
    · exact (h j d hold ht).released hcases
  | @completed _ c i x a b ha _ hab hb hstale htarget hx hrev hcases hsame =>
    intro j d hd ht
    rw [hcases]
    rcases Table.get_modify_cases ((hsame j d ht).mpr hd) with ⟨rfl, -, -, rfl⟩ | ⟨-, hold⟩
    · obtain ⟨c', y, hc', hy, hi, -⟩ := h i a ha (hab.analysisType ▸ ht)
      obtain rfl : c = c' := Option.some.inj (htarget.symm.trans hc')
      obtain rfl : x = y := Option.some.inj (hx.symm.trans hy)
      exact ⟨c, { x with status := .analysisReady }, hab.target.trans htarget, by simp [hx],
        hab.incidentId.trans hi, fun _ _ => hab.inputVersion.trans hrev.symm⟩
    · exact (h j d hold ht).recase c fun _ _ => ⟨rfl, rfl⟩
  | @overtaken i a now output confidence seenStale ha hstale hcases hsame =>
    intro j d hd ht
    rcases Table.get_modify_cases ((hsame j d ht).mpr hd) with ⟨rfl, -, -, rfl⟩ | ⟨-, hold⟩
    · suffices hfresh : (completedAnalysis now a output confidence seenStale
          (isOutdated a (a.case? l.cases))).FreshIn l.cases from hfresh.released hcases
      obtain ⟨c, x, hc, hx, hi, -⟩ := h i a ha ht
      refine ⟨c, x, hc, hx, hi, fun _ hs => ?_⟩
      have hcase : a.case? l.cases = some (c, x) := case?_of_target hc hx
      simp only [completedAnalysis, Bool.or_eq_false_iff] at hs
      obtain ⟨hrow, hmarked⟩ := hs
      -- the row is fresh after the answer, so the worker saw no drift or could not record it
      have hout : isOutdated a (a.case? l.cases) = false := by
        cases seenStale with
        | true => exact hk a ha rfl hrow
        | false => simpa using hmarked
      rw [hcase] at hout
      have hrev : x.revision = a.inputVersion := by simpa [isOutdated] using hout
      exact hrev.symm
    · exact (h j d hold ht).released hcases

end Ledger.Fresh

section Runs
variable {env : Env} {db : Db} {op : Op}

/-- What the operation would make of the answers, if it is accepted. -/
def KeepsAnswersFresh (env : Env) (db : Db) (op : Op) : Prop :=
  ∀ o, transact env db op = .ok o → op.call.KeepsFresh db.ledger

theorem step_fresh (h : db.ledger.Fresh) (hk : KeepsAnswersFresh env db op) :
    (step env db op).ledger.Fresh := by
  have hbegin : db.begin.ledger.Fresh := h
  refine step_cases (P := fun t : Db => t.ledger.Fresh) h fun o ho => ?_
  cases hop : op.call.judges with
  | false => exact hbegin.moves (handle_moves ho hop)
  | true => exact hbegin.judges (handle_judges ho hop) (hk o ho)

/-- If no case is decided while it has a fresh answer and no late worker overlooks that its case has
moved, every succeeded analysis that is not marked stale is about the present revision of its case. -/
theorem fresh_analyses_are_about_present_revision (env : Env) (incidents : Table Incident)
    (devices : Table AnonymousDevice) (attachments : Table Attachment) (ops : List Op)
    (hkeep : Along (step env) (KeepsAnswersFresh env)
      (Db.initial incidents devices attachments) ops) :
    let s := reached env incidents devices attachments ops
    ∀ i a, s.feed.analyses.get i = some a → a.analysisType = .conflictAnalysis →
      a.status = .succeeded → a.isStale = false →
        ∃ c x, a.target = some c ∧ s.cases.get c = some x ∧ a.inputVersion = x.revision := by
  intro s i a ha ht hsucc hs
  have hinitial : (Db.initial incidents devices attachments).ledger.Fresh := fun _ _ h => nomatch h
  have hfresh : s.ledger.Fresh := run_invariant (step env) (I := fun t : Db => t.ledger.Fresh)
    (fun t op ht hop => step_fresh ht hop) hinitial hkeep
  obtain ⟨c, x, hc, hx, -, hrev⟩ := hfresh i a ha ht
  exact ⟨c, x, hc, hx, hrev hsucc hs⟩

namespace Sample

/-- A case is opened, and an analysis of it is requested and answered. -/
def analyzed : List Op :=
  [⟨0, admin, none, .createFragment (.id 0) (fragment none none 0)⟩,
    ⟨0, admin, none, .createFragment (.id 0) (fragment none none 0)⟩,
    ⟨1, admin, none, .createConflict (.id 0) conflict⟩,
    ⟨2, admin, none, .requestAnalysis (.id 0) none 1 []⟩,
    ⟨3, admin, none, .startAnalysis 0⟩,
    ⟨4, admin, none, .completeAnalysis 0 [] 0 false⟩]

end Sample

theorem answered_analysis_is_fresh : ∃ a c x,
    (Sample.reached Sample.analyzed).feed.analyses.get 0 = some a ∧ a.target = some c ∧
      (Sample.reached Sample.analyzed).cases.get c = some x ∧ a.inputVersion = x.revision := by
  obtain ⟨a, ha, h⟩ := (Option.any_eq_true _ _).mp
    (show ((Sample.reached Sample.analyzed).feed.analyses.get 0).any (fun a =>
      a.analysisType = .conflictAnalysis ∧ a.status = .succeeded ∧ a.isStale = false) = true by
        decide +kernel)
  obtain ⟨ht, hsucc, hs⟩ := of_decide_eq_true h
  have hkeep : Along (step Sample.env) (KeepsAnswersFresh Sample.env) Sample.initial Sample.analyzed :=
    ⟨fun _ _ => trivial, fun _ _ => trivial, fun _ _ => trivial, fun _ _ => trivial,
      fun _ _ => trivial, fun _ _ _ _ hseen => (nomatch hseen), trivial⟩
  obtain ⟨c, x, hc, hx, hrev⟩ :=
    fresh_analyses_are_about_present_revision _ _ _ _ _ hkeep 0 a ha ht hsucc hs
  exact ⟨a, c, x, ha, hc, hx, hrev⟩

/-- The answered case is decided. -/
def decidedAfterAnswer : List Op :=
  Sample.analyzed ++
    [⟨5, Sample.admin, none, .submitConflictDecision (.id 0) (Sample.decision ⟨.current, Sample.current_allowed⟩)⟩]

theorem decided_case_keeps_fresh_answer : ∃ a x,
    (Sample.reached decidedAfterAnswer).feed.analyses.get 0 = some a ∧
      (a.analysisType = .conflictAnalysis ∧ a.status = .succeeded ∧ a.isStale = false ∧
        a.target = some 0) ∧
      (Sample.reached decidedAfterAnswer).cases.get 0 = some x ∧
        a.inputVersion = 1 ∧ x.revision = 2 := by
  obtain ⟨a, ha, hrow⟩ := (Option.any_eq_true _ _).mp
    (show ((Sample.reached decidedAfterAnswer).feed.analyses.get 0).any (fun a =>
      (a.analysisType = .conflictAnalysis ∧ a.status = .succeeded ∧ a.isStale = false ∧
        a.target = some 0) ∧ a.inputVersion = 1) = true by decide +kernel)
  obtain ⟨x, hx, hrev⟩ := (Option.any_eq_true _ _).mp
    (show ((Sample.reached decidedAfterAnswer).cases.get 0).any (fun x => x.revision = 2) = true by
      decide +kernel)
  obtain ⟨hfresh, hversion⟩ := of_decide_eq_true hrow
  exact ⟨a, x, ha, hfresh, hx, hversion, of_decide_eq_true hrev⟩

end Runs
end CrisisMosaic
