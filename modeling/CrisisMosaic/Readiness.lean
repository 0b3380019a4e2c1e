import CrisisMosaic.Freshness
import CrisisMosaic.UnsettledCases

/-!
# Ready cases

A case with the status `analysis_ready` has an answer about its present revision,
unless it is revised while it stays ready: the analyses are then marked, the
revision moves, and the status stays. A worker that runs its only answered analysis
once more has the same effect.
-/

namespace CrisisMosaic
open Relational AiAnalysis

theorem AiAnalysis.concerns_unique {a : AiAnalysis} {c d : Id} (hc : a.concerns c = true)
    (hd : a.concerns d = true) : c = d :=
  Option.some.inj ((concerns_iff_target.mp hc).2.symm.trans (concerns_iff_target.mp hd).2)

namespace Moves
variable {base l : Ledger} {c i : Id} {x₀ x : ConflictCase} {a : AiAnalysis}

theorem staleFor_kept {analyses : Table AiAnalysis} {now : Time} {d incidentId : Id} {reason : String}
    (ha : analyses.get i = some a) (hc : a.concerns c = true) (hne : d ≠ c) :
    (staleFor analyses now d incidentId reason).get i = some a := by
  have hother : a.concerns d = false := by
    by_contra h
    exact hne (concerns_unique (by simpa using h) hc)
  simp [staleFor, ha, hother]

/-- A case whose revision stayed keeps its analyses. -/
theorem kept (h : Moves base l) (hx₀ : base.cases.get c = some x₀) :
    ∀ {x}, l.cases.get c = some x → x.revision = x₀.revision →
      ∀ i a, base.analyses.get i = some a → a.concerns c = true → l.analyses.get i = some a := by
  have hmoved : ∀ {m : Ledger} {d : Id} {y : ConflictCase} {f : ConflictCase → ConflictCase}
      {now : Time} {reason : String}, Moves base m → m.cases.get d = some y →
      y.revision < (f y).revision →
      (∀ {x}, m.cases.get c = some x → x.revision = x₀.revision →
        ∀ i a, base.analyses.get i = some a → a.concerns c = true → m.analyses.get i = some a) →
      ∀ {x}, (m.cases.modify d f).get c = some x → x.revision = x₀.revision →
        ∀ i a, base.analyses.get i = some a → a.concerns c = true →
          (staleFor m.analyses now d y.incidentId reason).get i = some a := by
    intro m d y f now reason hm hy hlt ih x hx hrev i a ha hc
    rcases Table.get_modify_cases hx with ⟨rfl, z, hz, rfl⟩ | ⟨hne, hx⟩
    · obtain rfl : y = z := Option.some.inj (hy.symm.trans hz)
      obtain ⟨w, hw, -, hle⟩ := hm.case hx₀
      obtain rfl : y = w := Option.some.inj (hy.symm.trans hw)
      omega
    · exact staleFor_kept (ih hx hrev i a ha hc) hc hne
  induction h with
  | start => exact fun _ _ i a ha _ => ha
  | sources _ _ ih => exact ih
  | briefs _ hsame ih =>
    exact fun hx hrev i a ha hc => (hsame i a (concerns_iff_target.mp hc).1).mp (ih hx hrev i a ha hc)
  | cited _ _ ih => exact ih
  | withdrawn _ ih => exact ih
  | opened hm _ ih =>
    intro x hx hrev
    obtain ⟨y, hy, -⟩ := hm.case hx₀
    obtain rfl := Option.some.inj ((Table.get_insert_of_some _ hy).symm.trans hx)
    exact ih hy hrev
  | extended hm hy hf ih => exact hmoved hm hy (by rw [hf]; exact Nat.lt_succ_self _) ih
  | @marked m d y now reason hm hy hlt ih =>
    intro x hx hrev i a ha hc
    refine staleFor_kept (ih hx hrev i a ha hc) hc ?_
    rintro rfl
    obtain rfl := Option.some.inj (hx.symm.trans hy)
    exact absurd hrev (hlt x₀ hx₀).ne'
  | reopened hm hy _ ih => exact hmoved (f := reopen) hm hy (Nat.lt_succ_self _) ih
  | @closed m d y now bump reason hm hy ih =>
    cases bump with
    | true =>
      intro x hx hrev
      exact hmoved (f := fun _ => autoResolved now y true) hm hy (Nat.lt_succ_self _) ih hx hrev
    | false =>
      intro x hx hrev
      rcases Table.get_modify_cases hx with ⟨rfl, z, hz, rfl⟩ | ⟨-, hx⟩
      · exact ih hy hrev
      · exact ih hx hrev

/-- No move makes a case ready. -/
theorem ready (h : Moves base l) : ∀ {x}, l.cases.get c = some x → x.status = .analysisReady →
    ∃ x₀, base.cases.get c = some x₀ ∧ x₀.status = .analysisReady := by
  have hmodify : ∀ {m : Ledger} {d : Id} {f : ConflictCase → ConflictCase},
      (∀ y, m.cases.get d = some y → (f y).status = .analysisReady → y.status = .analysisReady) →
      (∀ {x}, m.cases.get c = some x → x.status = .analysisReady →
        ∃ x₀, base.cases.get c = some x₀ ∧ x₀.status = .analysisReady) →
      ∀ {x}, (m.cases.modify d f).get c = some x → x.status = .analysisReady →
        ∃ x₀, base.cases.get c = some x₀ ∧ x₀.status = .analysisReady := by
    intro m d f hf ih x hx hs
    rcases Table.get_modify_cases hx with ⟨rfl, z, hz, rfl⟩ | ⟨-, hx⟩
    · exact ih hz (hf z hz hs)
    · exact ih hx hs
  induction h with
  | start => exact fun hx hs => ⟨_, hx, hs⟩
  | sources _ _ ih => exact ih
  | briefs _ _ ih => exact ih
  | cited _ _ ih => exact ih
  | withdrawn _ ih => exact ih
  | opened _ hopened ih =>
    intro x hx hs
    rcases Table.get_insert_cases hx with ⟨-, rfl⟩ | hx
    · rw [hopened] at hs
      exact nomatch hs
    · exact ih hx hs
  | @extended m d y f now reason _ hy hf ih =>
    intro x hx hs
    refine hmodify (f := f) (fun z hz hs => ?_) ih hx hs
    obtain rfl : y = z := Option.some.inj (hy.symm.trans hz)
    rw [hf] at hs
    exact hs
  | marked _ _ _ ih => exact ih
  | reopened _ _ _ ih => exact hmodify (f := reopen) (fun _ _ hs => nomatch hs) ih
  | @closed _ _ y now bump _ _ _ ih =>
    exact hmodify (f := fun _ => autoResolved now y bump) (fun _ _ hs => nomatch hs) ih

end Moves

section Marks
variable {base m n : Ledger}

/-- The case is past the revision it had at the start. -/
def Ledger.Past (base l : Ledger) (c : Id) : Prop :=
  ∀ x₀, base.cases.get c = some x₀ → ∃ x, l.cases.get c = some x ∧ x₀.revision < x.revision

/-- Each analysis of `n` is one of `m`, and it is marked only if its case moved. -/
def Ledger.MarksMoved (base m n : Ledger) : Prop :=
  ∀ i a, n.analyses.get i = some a → a.analysisType = .conflictAnalysis →
    ∃ b, m.analyses.get i = some b ∧ b.SameRequest a ∧
      (a.isStale = true → b.isStale = true ∨ ∀ c, a.concerns c = true → base.Past n c)

namespace Ledger.MarksMoved

theorem of_same (h : SameAnalyses m.analyses n.analyses) : MarksMoved base m n :=
  fun i a ha ht => ⟨a, (h i a ht).mpr ha, .refl a, Or.inl⟩

theorem of_stale {d incidentId : Id} {now : Time} {reason : String} (hpast : base.Past n d)
    (hn : n.analyses = staleFor m.analyses now d incidentId reason) : MarksMoved base m n := by
  intro i a ha _
  rw [hn, staleFor, Table.get_sweep] at ha
  obtain ⟨b, hb, rfl⟩ := Option.map_eq_some_iff.mp ha
  refine ⟨b, hb, ?_⟩
  by_cases hcon : (b.concerns d && b.incidentId = incidentId && !b.isStale) = true
  · rw [if_pos hcon]
    simp only [Bool.and_eq_true] at hcon
    refine ⟨⟨rfl, rfl, rfl, rfl, rfl⟩, fun _ => Or.inr fun c hc => ?_⟩
    exact concerns_unique hcon.1.1 (show b.concerns c = true from hc) ▸ hpast
  · rw [if_neg hcon]
    exact ⟨.refl b, Or.inl⟩

theorem trans (h : MarksMoved base base m) (k : MarksMoved base m n)
    (hgrow : m.cases.Grows (·.revision) n.cases) : MarksMoved base base n := by
  intro i a ha ht
  obtain ⟨b, hb, hba, hstale⟩ := k i a ha ht
  have hbt : b.analysisType = .conflictAnalysis := hba.analysisType ▸ ht
  obtain ⟨d, hd, hdb, hstale'⟩ := h i b hb hbt
  refine ⟨d, hd, hdb.trans hba, fun hs => ?_⟩
  rcases hstale hs with hs | hpast
  · refine (hstale' hs).imp_right fun hpast c hc x₀ hx₀ => ?_
    have hbc : b.concerns c = true :=
      concerns_iff_target.mpr ⟨hbt, hba.target.symm.trans (concerns_iff_target.mp hc).2⟩
    obtain ⟨x, hx, hlt⟩ := hpast c hbc x₀ hx₀
    obtain ⟨y, hy, hle⟩ := hgrow c x hx
    exact ⟨y, hy, hlt.trans_le hle⟩
  · exact Or.inr hpast

end Ledger.MarksMoved

theorem Moves.past {l : Ledger} {c : Id} {y z : ConflictCase} (hm : Moves base m)
    (hy : m.cases.get c = some y) (hz : l.cases.get c = some z) (hlt : y.revision < z.revision) :
    base.Past l c := by
  intro x₀ hx₀
  obtain ⟨w, hw, -, hle⟩ := hm.case hx₀
  obtain rfl := Option.some.inj (hy.symm.trans hw)
  exact ⟨z, hz, hle.trans_lt hlt⟩

theorem Moves.marksMoved {l : Ledger} (h : Moves base l) : base.MarksMoved base l := by
  induction h with
  | start => exact .of_same (.refl _)
  | sources _ _ ih => exact ih
  | briefs _ hs ih => exact ih.trans (.of_same hs) (.refl _)
  | cited _ _ ih => exact ih
  | withdrawn _ ih => exact ih
  | opened _ _ ih => exact ih.trans (.of_same (.refl _)) (.insert _ _)
  | @extended m d y f now reason hm hy hf ih =>
    have hgrow : m.cases.Grows (·.revision) (m.cases.modify d f) := by
      refine .modify _ fun z hz => ?_
      obtain rfl : y = z := Option.some.inj (hy.symm.trans hz)
      rw [hf]
      exact Nat.le_succ _
    have hget : (m.cases.modify d f).get d = some (bumpRevision y) := by simp [hy, hf]
    exact ih.trans (.of_stale (hm.past hy hget (Nat.lt_succ_self _)) rfl) hgrow
  | @marked m d y now reason hm hy hlt ih =>
    exact ih.trans (.of_stale (fun x₀ hx₀ => ⟨y, hy, hlt x₀ hx₀⟩) rfl) (.refl _)
  | @reopened m d y now reason hm hy _ ih =>
    have hget : (m.cases.modify d reopen).get d = some (reopen y) := by simp [hy]
    exact ih.trans (.of_stale (hm.past hy hget (Nat.lt_succ_self _)) rfl)
      (.modify _ fun _ _ => Nat.le_succ _)
  | @closed m d y now bump reason hm hy ih =>
    have hgrow : m.cases.Grows (·.revision) (m.cases.modify d fun _ => autoResolved now y bump) := by
      refine .modify _ fun z hz => ?_
      obtain rfl : y = z := Option.some.inj (hy.symm.trans hz)
      exact ConflictCase.resolveCase_revision_le now y none _ bump
    cases bump with
    | true =>
      have hget : (m.cases.modify d fun _ => autoResolved now y true).get d =
          some (autoResolved now y true) := by simp [hy]
      exact ih.trans (.of_stale (hm.past hy hget (Nat.lt_succ_self _)) rfl) hgrow
    | false => exact ih.trans (.of_same (.refl _)) hgrow

end Marks

namespace AiAnalysis

/-- The analysis answers the case at its present revision. -/
def Supports (a : AiAnalysis) (c : Id) (x : ConflictCase) : Prop :=
  a.concerns c = true ∧ a.status = .succeeded ∧ a.isStale = false ∧ a.inputVersion = x.revision

/-- The case of the analysis is stored at its revision or a later one, a later one if the analysis is
marked, and the hash is that of a context which describes the case at its revision. -/
structure AgedIn (env : Env) (cases : Table ConflictCase) (a : AiAnalysis) (c : Id) : Prop where
  target : a.target = some c
  case : ∃ x, cases.get c = some x ∧ a.inputVersion ≤ x.revision ∧
    (a.isStale = true → a.inputVersion < x.revision)
  context : ∃ context : Dict, ∃ y : ConflictCase, context.Describes c y ∧
    y.revision = a.inputVersion ∧ a.contextSha256 = some (env.canonicalSha256 (.obj context))

variable {env : Env} {cases cases' : Table ConflictCase} {a b : AiAnalysis} {c : Id}

theorem AgedIn.grow (h : a.AgedIn env cases c) (hg : cases.Grows (·.revision) cases') :
    a.AgedIn env cases' c where
  target := h.target
  case := by
    obtain ⟨x, hx, hle, hlt⟩ := h.case
    obtain ⟨y, hy, hxy⟩ := hg c x hx
    exact ⟨y, hy, hle.trans hxy, fun hs => (hlt hs).trans_le hxy⟩
  context := h.context

theorem AgedIn.rewrite (h : a.AgedIn env cases c) (hr : a.SameRequest b)
    (hs : b.isStale = true → a.isStale = true ∨
      ∀ x, cases.get c = some x → a.inputVersion < x.revision) : b.AgedIn env cases c where
  target := hr.target.trans h.target
  case := by
    obtain ⟨x, hx, hle, hlt⟩ := h.case
    rw [hr.inputVersion]
    exact ⟨x, hx, hle, fun hb => (hs hb).elim hlt fun hall => hall x hx⟩
  context := by
    obtain ⟨context, y, hd, hy, hh⟩ := h.context
    exact ⟨context, y, hd, hy.trans hr.inputVersion.symm, hr.contextSha256.trans hh⟩

end AiAnalysis

/-- Every analysis is of an earlier or the present revision of its case. -/
def Ledger.Aged (env : Env) (l : Ledger) : Prop :=
  ∀ i a, l.analyses.get i = some a → a.analysisType = .conflictAnalysis →
    ∃ c, a.AgedIn env l.cases c

/-- Every ready case has an answer about its present revision. -/
def Ledger.Readied (l : Ledger) : Prop :=
  ∀ c x, l.cases.get c = some x → x.status = .analysisReady →
    ∃ i a, l.analyses.get i = some a ∧ a.Supports c x

namespace ReleasedFrom
variable {a b : Table ConflictCase}

theorem grows (h : ReleasedFrom a b) : a.Grows (·.revision) b := by
  rcases h with rfl | ⟨c, x, -, -, rfl⟩
  · exact .refl _
  · exact .modify _ fun _ _ => le_rfl

/-- A case that was let go is not ready. -/
theorem ready {c : Id} {x : ConflictCase} (h : ReleasedFrom a b) (hx : b.get c = some x)
    (hs : x.status = .analysisReady) : a.get c = some x := by
  rcases h with rfl | ⟨d, y, -, -, rfl⟩
  · exact hx
  · rcases Table.get_modify_cases hx with ⟨rfl, z, -, rfl⟩ | ⟨-, hx⟩
    · exact nomatch hs
    · exact hx

end ReleasedFrom

namespace Ledger.Aged
variable {env : Env} {base l m : Ledger}

theorem moves (h : base.Aged env) (hm : Moves base l) : l.Aged env := by
  intro i a ha ht
  obtain ⟨b, hb, hsame, hstale⟩ := hm.marksMoved i a ha ht
  obtain ⟨c, hc⟩ := h i b hb (hsame.analysisType ▸ ht)
  have hgrow : base.cases.Grows (·.revision) l.cases := fun d y hy => by
    obtain ⟨z, hz, -, hle⟩ := hm.case hy
    exact ⟨z, hz, hle⟩
  have hconcerns : a.concerns c = true :=
    concerns_iff_target.mpr ⟨ht, hsame.target.trans hc.target⟩
  refine ⟨c, (hc.grow hgrow).rewrite hsame fun hs => (hstale hs).imp_right fun hpast x hx => ?_⟩
  obtain ⟨x₀, hx₀, hle, -⟩ := hc.case
  obtain ⟨y, hy, hlt⟩ := hpast c hconcerns x₀ hx₀
  obtain rfl := Option.some.inj (hx.symm.trans hy)
  exact hle.trans_lt hlt

theorem judges {call : Call} (h : l.Aged env) (hj : l.Judges env m call) : m.Aged env := by
  have hkept : l.cases.Grows (·.revision) m.cases → SameAnalyses l.analyses m.analyses →
      m.Aged env := by
    intro hg hs i a ha ht
    obtain ⟨c, hc⟩ := h i a ((hs i a ht).mpr ha) ht
    exact ⟨c, hc.grow hg⟩
  have hrewritten : ∀ {i a b}, l.analyses.get i = some a → a.SameRequest b →
      (b.isStale = true → a.isStale = true ∨ ∀ c x, a.target = some c → l.cases.get c = some x →
        a.inputVersion ≤ x.revision → a.inputVersion < x.revision) →
      l.cases.Grows (·.revision) m.cases →
      SameAnalyses (l.analyses.modify i fun _ => b) m.analyses → m.Aged env := by
    intro i a b ha hab hstale hg hs j d hd ht
    rcases Table.get_modify_cases ((hs j d ht).mpr hd) with ⟨rfl, -, -, rfl⟩ | ⟨-, hold⟩
    · obtain ⟨c, hc⟩ := h i a ha (hab.analysisType ▸ ht)
      refine ⟨c, (hc.rewrite hab fun hs => (hstale hs).imp_right fun hall x hx => ?_).grow hg⟩
      obtain ⟨y, hy, hle, -⟩ := hc.case
      obtain rfl := Option.some.inj (hx.symm.trans hy)
      exact hall c x hc.target hx hle
    · obtain ⟨c, hc⟩ := h j d hold ht
      exact ⟨c, hc.grow hg⟩
  cases hj with
  | @decided _ _ c x now decidedBy resolution hcase hcases hs =>
    refine hkept (hcases ▸ .modify _ fun y hy => ?_) hs
    obtain rfl := Option.some.inj ((getCase_some hcase).symm.trans hy)
    exact Nat.le_succ _
  | answered _ _ _ _ hcases hs => exact hkept (hcases ▸ .modify _ fun _ _ => le_rfl) hs
  | @queued _ c x _ _ context _ hx hd hcases hs =>
    have hgrow : l.cases.Grows (·.revision) m.cases := hcases ▸ .modify _ fun _ _ => le_rfl
    intro i a ha ht
    rcases Table.get_insert_cases ((hs i a ht).mpr ha) with ⟨-, rfl⟩ | hold
    · refine ⟨c, AgedIn.grow ?_ hgrow⟩
      exact ⟨rfl, ⟨x, hx, le_rfl, fun hs => nomatch hs⟩, context, x, hd, rfl, rfl⟩
    · obtain ⟨d, hd⟩ := h i a hold ht
      exact ⟨d, hd.grow hgrow⟩
  | undone _ ha hab _ hstale hcases hs =>
    exact hrewritten ha hab (fun hb => Or.inl (hstale hb)) hcases.grows hs
  | completed ha _ hab _ hstale _ _ _ hcases hs =>
    exact hrewritten ha hab (fun hb => Or.inl (hstale ▸ hb)) (hcases ▸ .modify _ fun _ _ => le_rfl) hs
  | @overtaken i a now output confidence seenStale ha _ hcases hs =>
    have hsame : a.SameRequest (completedAnalysis now a output confidence seenStale
        (isOutdated a (a.case? l.cases))) := ⟨rfl, rfl, rfl, rfl, rfl⟩
    refine hrewritten ha hsame (fun hb => ?_) hcases.grows hs
    simp only [completedAnalysis, Bool.or_eq_true, Bool.and_eq_true] at hb
    refine hb.imp_right fun hout c x hc hx hle => ?_
    have hmoved := hout.1
    rw [case?_of_target hc hx] at hmoved
    have hne : x.revision ≠ a.inputVersion := by simpa [isOutdated] using hmoved
    omega

end Ledger.Aged

/-- Contexts with one hash describe the same case at the same revision. -/
def Env.SeparatesContexts (env : Env) : Prop :=
  ∀ (a b : Dict) (c d : Id) (x y : ConflictCase), a.Describes c x → b.Describes d y →
    env.canonicalSha256 (.obj a) = env.canonicalSha256 (.obj b) → c = d ∧ x.revision = y.revision

/-- The operation takes back the only analysis that answers the case. -/
def Call.Unanswers (l : Ledger) (call : Call) (c : Id) (x : ConflictCase) : Prop :=
  ∃ i, call.undoes = some i ∧ ∀ j a, l.analyses.get j = some a → a.Supports c x → j = i

namespace Ledger.Readied
variable {env : Env} {base l m : Ledger}

theorem moves (h : base.Readied) (hm : Moves base l)
    (hk : ∀ c, KeepsReady base.cases l.cases c) : l.Readied := by
  intro c x hx hs
  obtain ⟨x₀, hx₀, hs₀⟩ := hm.ready hx hs
  obtain ⟨i, a, ha, hc, hsucc, hfresh, hrev⟩ := h c x₀ hx₀ hs₀
  have hsame := hk c x₀ x hx₀ hs₀ hx hs
  exact ⟨i, a, hm.kept hx₀ hx hsame i a ha hc, hc, hsucc, hfresh, hrev.trans hsame.symm⟩

theorem judges {call : Call} (h : l.Readied) (hl : l.Aged env) (hhash : env.SeparatesContexts)
    (hj : l.Judges env m call)
    (hk : ∀ c x, l.cases.get c = some x → x.status = .analysisReady → ¬ call.Unanswers l c x) :
    m.Readied := by
  have hkept : ∀ {c x}, SameAnalyses l.analyses m.analyses → l.cases.get c = some x →
      x.status = .analysisReady → ∃ i a, m.analyses.get i = some a ∧ a.Supports c x := by
    intro c x hsame hx hs
    obtain ⟨i, a, ha, hsup⟩ := h c x hx hs
    exact ⟨i, a, (hsame i a (concerns_iff_target.mp hsup.1).1).mp ha, hsup⟩
  -- a row other than the rewritten one still supports its case
  have hother : ∀ {i j a b c x}, SameAnalyses (l.analyses.modify i fun _ => b) m.analyses →
      l.analyses.get j = some a → a.Supports c x → j ≠ i →
      ∃ i a, m.analyses.get i = some a ∧ a.Supports c x := by
    intro i j a b c x hsame ha hsup hne
    refine ⟨j, a, (hsame j a (concerns_iff_target.mp hsup.1).1).mp ?_, hsup⟩
    rw [Table.get_modify_of_ne _ _ hne.symm, ha]
  cases hj with
  | decided _ hcases hsame =>
    intro d y hy hs
    rw [hcases] at hy
    rcases Table.get_modify_cases hy with ⟨rfl, z, -, rfl⟩ | ⟨-, hy⟩
    · exact nomatch hs
    · exact hkept hsame hy hs
  | @answered _ c i x a context hx ha hctx hd hcases hsame =>
    intro d y hy hs
    rw [hcases] at hy
    rcases Table.get_modify_cases hy with ⟨rfl, z, hz, rfl⟩ | ⟨-, hy⟩
    · obtain rfl := Option.some.inj (hx.symm.trans hz)
      simp only [sameContext, Bool.and_eq_true, Bool.not_eq_true', decide_eq_true_eq] at hctx
      obtain ⟨⟨⟨⟨⟨ht, hsucc⟩, hfresh⟩, hsha⟩, -⟩, -⟩ := hctx
      obtain ⟨e, he⟩ := hl i a ha ht
      obtain ⟨own, w, how, hw, hown⟩ := he.context
      obtain ⟨rfl, hrev⟩ := hhash _ _ _ _ _ _ hd how (Option.some.inj (hsha.symm.trans hown))
      exact ⟨i, a, (hsame i a ht).mp ha, concerns_iff_target.mpr ⟨ht, he.target⟩, hsucc, hfresh,
        hw.symm.trans hrev.symm⟩
    · exact hkept hsame hy hs
  | @queued _ c x _ _ _ _ hx _ hcases hsame =>
    intro d y hy hs
    rw [hcases] at hy
    rcases Table.get_modify_cases hy with ⟨rfl, z, -, rfl⟩ | ⟨-, hy⟩
    · exact nomatch hs
    · obtain ⟨i, a, ha, hsup⟩ := h d y hy hs
      exact ⟨i, a, (hsame i a (concerns_iff_target.mp hsup.1).1).mp
        (Table.get_insert_of_some _ ha), hsup⟩
  | @undone _ i a b hundoes ha hab hb _ hcases hsame =>
    intro c x hx hs
    have hold := hcases.ready hx hs
    have hmore : ∃ j a, l.analyses.get j = some a ∧ a.Supports c x ∧ j ≠ i := by
      by_contra hnone
      refine hk c x hold hs ⟨i, hundoes, fun j a ha hsup => ?_⟩
      by_contra hne
      exact hnone ⟨j, a, ha, hsup, hne⟩
    obtain ⟨j, a, ha, hsup, hne⟩ := hmore
    exact hother hsame ha hsup hne
  | @completed _ c i x a b ha ht hab hb hstale htarget hx hrev hcases hsame =>
    have hbt : b.analysisType = .conflictAnalysis := hab.analysisType.trans ht
    have hrow : m.analyses.get i = some b := (hsame i b hbt).mp (by simp [ha])
    have hanswers : b.Supports c x := by
      obtain ⟨d, hd⟩ := hl i a ha ht
      obtain rfl : c = d := Option.some.inj (htarget.symm.trans hd.target)
      obtain ⟨y, hy, -, hlt⟩ := hd.case
      obtain rfl := Option.some.inj (hx.symm.trans hy)
      have hfresh : a.isStale = false := by
        by_contra hmarked
        have := hlt (by simpa using hmarked)
        omega
      exact ⟨concerns_iff_target.mpr ⟨hbt, hab.target.trans htarget⟩, hb, hstale.trans hfresh,
        hab.inputVersion.trans hrev.symm⟩
    intro d y hy hs
    rw [hcases] at hy
    rcases Table.get_modify_cases hy with ⟨rfl, z, hz, rfl⟩ | ⟨hne, hy⟩
    · obtain rfl := Option.some.inj (hx.symm.trans hz)
      exact ⟨i, b, hrow, hanswers⟩
    · obtain ⟨j, a', ha', hsup⟩ := h d y hy hs
      refine hother hsame ha' hsup ?_
      rintro rfl
      obtain rfl := Option.some.inj (ha.symm.trans ha')
      exact hne (concerns_unique (concerns_iff_target.mpr ⟨ht, htarget⟩) hsup.1)
  | @overtaken i a now output confidence seenStale ha _ hcases hsame =>
    intro c x hx hs
    have hold := hcases.ready hx hs
    obtain ⟨j, a', ha', hsup⟩ := h c x hold hs
    by_cases hj : j = i
    · subst hj
      obtain rfl := Option.some.inj (ha.symm.trans ha')
      obtain ⟨hc, -, hfresh, hrev⟩ := hsup
      have htarget := (concerns_iff_target.mp hc).2
      -- the row answers the present revision, so the worker finds no drift
      have hpresent : isOutdated a (a.case? l.cases) = false := by
        rw [case?_of_target htarget hold]
        simp [isOutdated, hrev]
      rw [hpresent] at hsame
      obtain ⟨b, hb⟩ : ∃ b, b = completedAnalysis now a output confidence seenStale false := ⟨_, rfl⟩
      rw [← hb] at hsame
      have hanswers : b.Supports c x := by
        rw [hb]
        exact ⟨hc, rfl, by simp [completedAnalysis, hfresh], hrev⟩
      exact ⟨j, b, (hsame j b (concerns_iff_target.mp hanswers.1).1).mp (by simp [ha]), hanswers⟩
    · exact hother hsame ha' hsup hj

end Ledger.Readied

section Runs
variable {env : Env} {db : Db} {op : Op}

/-- If it is accepted, the operation neither revises a ready case without closing it nor takes back
the only analysis that answers one. -/
def KeepsReadyCases (env : Env) (db : Db) (op : Op) : Prop :=
  ∀ o, transact env db op = .ok o → ∀ c x, db.cases.get c = some x → x.status = .analysisReady →
    ¬ op.Revises env db c ∧ ¬ op.call.Unanswers db.ledger c x

theorem KeepsReadyCases.of_none
    (h : (db.cases.rows.all fun x => x.status ≠ .analysisReady) = true) : KeepsReadyCases env db op := by
  intro o _ c x hx hs
  have hother := List.all_eq_true.mp h x (List.mem_of_getElem? hx)
  simp [hs] at hother

theorem step_readied (hhash : env.SeparatesContexts) (h : db.ledger.Aged env ∧ db.ledger.Readied)
    (hk : KeepsReadyCases env db op) :
    (step env db op).ledger.Aged env ∧ (step env db op).ledger.Readied := by
  have hbegin : db.begin.ledger.Aged env ∧ db.begin.ledger.Readied := h
  refine step_cases (P := fun t : Db => t.ledger.Aged env ∧ t.ledger.Readied) h fun o ho => ?_
  cases hop : op.call.judges with
  | false =>
    have hm := handle_moves ho hop
    refine ⟨hbegin.1.moves hm, hbegin.2.moves hm fun c x y hx hs hy ht => ?_⟩
    have hrevises : ¬ op.Revises env db.begin c := (hk o ho c x hx hs).1
    exact handle_keepsReady ho hop hrevises x y hx hs hy ht
  | true =>
    have hj := handle_judges ho hop
    exact ⟨hbegin.1.judges hj, hbegin.2.judges hbegin.1 hhash hj fun c x hx hs => (hk o ho c x hx hs).2⟩

/-- If contexts with one hash describe one revision of one case, and no operation revises a ready
case without closing it or takes back its only answer, then every ready case has a succeeded analysis
that is not marked stale and is about its present revision. -/
theorem ready_cases_are_answered (env : Env) (hhash : env.SeparatesContexts)
    (incidents : Table Incident) (devices : Table AnonymousDevice) (attachments : Table Attachment)
    (ops : List Op)
    (hkeep : Along (step env) (KeepsReadyCases env) (Db.initial incidents devices attachments) ops) :
    let s := reached env incidents devices attachments ops
    ∀ c x, s.cases.get c = some x → x.status = .analysisReady →
      ∃ i a, s.feed.analyses.get i = some a ∧ a.analysisType = .conflictAnalysis ∧
        a.target = some c ∧ a.status = .succeeded ∧ a.isStale = false ∧
        a.inputVersion = x.revision := by
  intro s c x hx hs
  have hinitial : (Db.initial incidents devices attachments).ledger.Aged env ∧
      (Db.initial incidents devices attachments).ledger.Readied :=
    ⟨fun _ _ h => (nomatch h), fun _ _ h => (nomatch h)⟩
  have hready : s.ledger.Aged env ∧ s.ledger.Readied :=
    run_invariant (step env) (I := fun t : Db => t.ledger.Aged env ∧ t.ledger.Readied)
      (fun t op ht hop => step_readied hhash ht hop) hinitial hkeep
  obtain ⟨i, a, ha, hc, hsucc, hfresh, hrev⟩ := hready.2 c x hx hs
  obtain ⟨ht, htarget⟩ := concerns_iff_target.mp hc
  exact ⟨i, a, ha, ht, htarget, hsucc, hfresh, hrev⟩

end Runs

namespace Sample

/-- What the context says of its case, one mark for each unit of the identifier and the revision. -/
def contextMarks (context : Json) : String :=
  match context with
  | .obj d =>
      match Dict.get d "conflict" with
      | some (.obj conflict) =>
          match Dict.get conflict "id", Dict.get conflict "revision" with
          | some (.ref c), some (.num revision) =>
              String.ofList (List.replicate c 'i' ++ List.replicate revision.num.toNat 'r')
          | _, _ => ""
      | _ => ""
  | _ => ""

/-- The deployment with a hash that tells the cases and their revisions apart. -/
def hashingEnv : Env := { env with canonicalSha256 := contextMarks }

theorem hashingEnv_separatesContexts : hashingEnv.SeparatesContexts := by
  rintro a b c d x y ⟨p, hp, hpi, hpr⟩ ⟨q, hq, hqi, hqr⟩ h
  simp only [hashingEnv, contextMarks, hp, hpi, hpr, hq, hqi, hqr, Json.nat, Rat.num_natCast,
    Int.toNat_natCast, String.ofList_inj] at h
  have hcount := fun k => congrArg (List.count k) h
  have hi := hcount 'i'
  have hr := hcount 'r'
  simp [List.count_replicate] at hi hr
  exact ⟨hi, hr⟩

end Sample

theorem answered_case_is_ready : ∃ i a x,
    (runFrom Sample.hashingEnv Sample.initial Sample.analyzed).cases.get 0 = some x ∧
      x.status = .analysisReady ∧
      (runFrom Sample.hashingEnv Sample.initial Sample.analyzed).feed.analyses.get i = some a ∧
      a.inputVersion = x.revision := by
  obtain ⟨x, hx, h⟩ := (Option.any_eq_true _ _).mp
    (show ((runFrom Sample.hashingEnv Sample.initial Sample.analyzed).cases.get 0).any (fun x =>
      x.status = .analysisReady) = true by decide +kernel)
  have hready : x.status = .analysisReady := of_decide_eq_true h
  have hkeep : Along (step Sample.hashingEnv) (KeepsReadyCases Sample.hashingEnv) Sample.initial
      Sample.analyzed :=
    ⟨.of_none (by decide +kernel), .of_none (by decide +kernel), .of_none (by decide +kernel),
      .of_none (by decide +kernel), .of_none (by decide +kernel), .of_none (by decide +kernel), trivial⟩
  obtain ⟨i, a, ha, -, -, -, -, hrev⟩ := ready_cases_are_answered _
    Sample.hashingEnv_separatesContexts _ _ _ _ hkeep 0 x hx hready
  exact ⟨i, a, x, hx, hready, ha, hrev⟩

/-- Evidence is appended to the case after the analysis was answered. -/
def appendedAfterAnswer : List Op :=
  Sample.analyzed ++
    [⟨5, Sample.admin, none, .createFragment (.id 0) (Sample.fragment none none 0)⟩,
      ⟨6, Sample.admin, none, .appendConflictEvidence (.id 0) 1 [⟨.fragment, 2, none⟩]⟩]

theorem extended_case_stays_ready : ∃ x,
    (Sample.reached appendedAfterAnswer).cases.get 0 = some x ∧ x.status = .analysisReady ∧
      ¬ ∃ i a, (Sample.reached appendedAfterAnswer).feed.analyses.get i = some a ∧
        a.status = .succeeded ∧ a.isStale = false ∧ a.inputVersion = x.revision := by
  obtain ⟨x, hx, h⟩ := (Option.any_eq_true _ _).mp
    (show ((Sample.reached appendedAfterAnswer).cases.get 0).any (fun x =>
      x.status = .analysisReady) = true by decide +kernel)
  refine ⟨x, hx, of_decide_eq_true h, ?_⟩
  rintro ⟨i, a, ha, -, hfresh, -⟩
  have hstale : ((Sample.reached appendedAfterAnswer).feed.analyses.rows.all (·.isStale)) = true := by
    decide +kernel
  have hmem := List.mem_of_getElem? ha
  rw [List.all_eq_true.mp hstale a hmem] at hfresh
  exact nomatch hfresh

end CrisisMosaic
