import CrisisMosaic.System

/-!
# The ledger of the cases

Cases, their analyses and their evidence, with the present revision of every
source. `Moves` lists the single writes that transactions other than decisions
and analyses are made of; an invariant of the ledger is checked once for each.
-/

namespace CrisisMosaic
open Relational

structure Ledger where
  cases : Table ConflictCase
  analyses : Table AiAnalysis
  evidence : Table ConflictEvidence
  /-- The present revision of a source; an attachment has only one. -/
  latest : EvidenceKind → Id → ℕ

def latestRevision (sources : Sources) (fragments : Table InformationFragment) :
    EvidenceKind → Id → ℕ
  | .fragment, id => (fragments.get id).elim 0 (·.revision)
  | .report, id => (sources.reports.get id).elim 0 (·.revision)
  | .attachment, _ => 1
  | .answer, id => (sources.answers.get id).elim 0 (·.revision)

theorem latestRevision_of_some {sources : Sources} {fragments : Table InformationFragment}
    {kind : EvidenceKind} {id revision : ℕ}
    (h : sourceRevision sources fragments kind id = some revision) :
    latestRevision sources fragments kind id = revision := by
  cases kind with
  | attachment =>
    obtain ⟨-, -, rfl⟩ := Option.map_eq_some_iff.mp h
    rfl
  | fragment | report | answer =>
    obtain ⟨x, hx, rfl⟩ := Option.map_eq_some_iff.mp h
    simp [latestRevision, hx]

def Store.ledger (s : Store) (sources : Sources) : Ledger :=
  ⟨s.cases, s.feed.analyses, s.evidence, latestRevision sources s.fragments⟩

def Db.ledger (db : Db) : Ledger := db.toStore.ledger db.sources

section Analyses

/-- The rows of the conflict analyses are the same. -/
def SameAnalyses (a b : Table AiAnalysis) : Prop :=
  ∀ i x, x.analysisType = .conflictAnalysis → (a.get i = some x ↔ b.get i = some x)

theorem SameAnalyses.refl (a : Table AiAnalysis) : SameAnalyses a a := fun _ _ _ => Iff.rfl

theorem SameAnalyses.trans {a b c : Table AiAnalysis} (h : SameAnalyses a b) (k : SameAnalyses b c) :
    SameAnalyses a c := fun i x hx => (h i x hx).trans (k i x hx)

theorem AiAnalysis.concerns_iff {a : AiAnalysis} {c : Id} : a.concerns c = true ↔
    a.analysisType = .conflictAnalysis ∧ (a.inputSnapshot.get "conflict_id").any (Json.isRef c) = true := by
  simp [concerns]

def staleFor (analyses : Table AiAnalysis) (now : Time) (conflictId incidentId : Id)
    (reason : String) : Table AiAnalysis :=
  analyses.sweep fun a =>
    if a.concerns conflictId && a.incidentId = incidentId && !a.isStale then
      { a with isStale := true, staleAt := some now, staleReason := some reason }
    else a

namespace Feed

theorem append_sameAnalyses (feed : Feed) (now : Time) (incidentId : Id) (e : Event) :
    SameAnalyses feed.analyses (feed.append now incidentId e).analyses := .refl _

theorem staleBriefs_sameAnalyses (feed : Feed) (now : Time) (incidentId : Id) (reason : String) :
    SameAnalyses feed.analyses (feed.staleBriefs now incidentId reason).analyses := by
  unfold staleBriefs
  have hbriefs : ∀ i ∈ feed.analyses.select (isCurrentBrief incidentId (feed.dataRevision incidentId)),
      ∃ a, feed.analyses.get i = some a ∧ a.analysisType ≠ .conflictAnalysis := by
    intro i hi
    obtain ⟨a, ha, hp⟩ := Table.mem_select.mp hi
    refine ⟨a, ha, fun ht => ?_⟩
    simp [isCurrentBrief, ht] at hp
  generalize feed.analyses.select _ = ids at hbriefs
  induction ids generalizing feed with
  | nil => exact .refl _
  | cons id ids ih =>
    have hone : SameAnalyses feed.analyses (feed.staleBrief now incidentId reason id).analyses := by
      intro i x hx
      obtain ⟨a, ha, ht⟩ := hbriefs id List.mem_cons_self
      simp only [staleBrief, append]
      rw [Table.get_modify]
      split_ifs with hi
      · subst hi
        simp only [ha, Option.map_some, Option.some.injEq]
        constructor
        · rintro rfl
          exact absurd hx ht
        · rintro rfl
          exact absurd hx ht
      · rfl
    refine hone.trans (ih _ fun i hi => ?_)
    obtain ⟨a, ha, ht⟩ := hbriefs i (List.mem_cons_of_mem _ hi)
    simp only [staleBrief, append]
    rw [Table.get_modify, ha]
    split_ifs
    · exact ⟨_, rfl, ht⟩
    · exact ⟨a, rfl, ht⟩

theorem emitEvent_sameAnalyses (feed : Feed) (now : Time) (incidentId : Id) (e : Event) :
    SameAnalyses feed.analyses (feed.emitEvent now incidentId e).analyses := by
  have hdata : ∀ f : Feed, (f.touchData incidentId e.resourceType).analyses = f.analyses := by
    intro f
    unfold touchData
    split_ifs <;> rfl
  have hmap : ∀ f : Feed, (f.touchMap incidentId e.resourceType).analyses = f.analyses := by
    intro f
    unfold touchMap
    split_ifs <;> rfl
  have htouched : ((((feed.append now incidentId e).touchData incidentId e.resourceType).touchMap
      incidentId e.resourceType).analyses) = feed.analyses := by
    rw [hmap, hdata]
    rfl
  have hstale := fun reason => staleBriefs_sameAnalyses (((feed.append now incidentId e).touchData
    incidentId e.resourceType).touchMap incidentId e.resourceType) now incidentId reason
  rw [htouched] at hstale
  unfold emitEvent
  dsimp only
  split_ifs
  · exact hstale _
  · exact htouched ▸ .refl _
  · exact hstale _
  · exact htouched ▸ .refl _

end Feed

theorem SpotBoard.Draws.sameAnalyses {env : Env} {now : Time} {a b : SpotBoard}
    (h : a.Draws env now b) : SameAnalyses a.feed.analyses b.feed.analyses := by
  induction h with
  | refl => exact .refl _
  | save _ _ _ ih => exact ih
  | retire _ _ _ ih => exact ih
  | add _ _ ih => exact ih
  | @announce c _ incidentId id eventType payload ih =>
    refine ih.trans ?_
    unfold SpotBoard.announce
    split
    · exact c.feed.emitEvent_sameAnalyses now incidentId _
    · exact .refl _

end Analyses

/-- What a transaction that neither decides nor analyses a case makes of the ledger. -/
inductive Moves (base : Ledger) : Ledger → Prop
  | start : Moves base base
  | sources {l : Ledger} {latest : EvidenceKind → Id → ℕ} : Moves base l →
      (∀ k i, l.latest k i ≤ latest k i) → Moves base { l with latest := latest }
  | briefs {l : Ledger} {analyses : Table AiAnalysis} : Moves base l →
      SameAnalyses l.analyses analyses → Moves base { l with analyses := analyses }
  | cited {l : Ledger} {env : Env} {now : Time} {c : Id} {kind : EvidenceKind} {id : Id}
      {version : SourceVersion} : Moves base l → version.revision = l.latest kind id →
      Moves base { l with evidence := (citeSource env now l.evidence c kind id version).1 }
  | withdrawn {l : Ledger} {id : Id} : Moves base l →
      Moves base { l with evidence := invalidateFragmentEvidence l.evidence id }
  | opened {l : Ledger} {x : ConflictCase} : Moves base l → x.status = .opened →
      Moves base { l with cases := l.cases.insert x }
  | extended {l : Ledger} {c : Id} {x : ConflictCase} {f : ConflictCase → ConflictCase} {now : Time}
      {reason : String} : Moves base l → l.cases.get c = some x → f x = bumpRevision x →
      Moves base { l with
        cases := l.cases.modify c f
        analyses := staleFor l.analyses now c x.incidentId reason }
  /-- The analyses of a case that has moved in the same transaction are marked once more. -/
  | marked {l : Ledger} {c : Id} {x : ConflictCase} {now : Time} {reason : String} : Moves base l →
      l.cases.get c = some x →
      (∀ x₀, base.cases.get c = some x₀ → x₀.revision < x.revision) →
      Moves base { l with analyses := staleFor l.analyses now c x.incidentId reason }
  | reopened {l : Ledger} {c : Id} {x : ConflictCase} {now : Time} {reason : String} : Moves base l →
      l.cases.get c = some x → x.status = .resolved →
      Moves base { l with
        cases := l.cases.modify c reopen
        analyses := staleFor l.analyses now c x.incidentId reason }
  | closed {l : Ledger} {c : Id} {x : ConflictCase} {now : Time} {bump : Bool} {reason : String} :
      Moves base l → l.cases.get c = some x →
      Moves base { l with
        cases := l.cases.modify c fun _ => autoResolved now x bump
        analyses := if bump then staleFor l.analyses now c x.incidentId reason else l.analyses }

namespace Moves
variable {base l : Ledger}

/-- No case is lost; it keeps its incident and its revision never decreases. -/
theorem case (h : Moves base l) {c : Id} {x₀ : ConflictCase} (hx : base.cases.get c = some x₀) :
    ∃ x, l.cases.get c = some x ∧ x.incidentId = x₀.incidentId ∧ x₀.revision ≤ x.revision := by
  have hmodify : ∀ {cases : Table ConflictCase} {d : Id} {y : ConflictCase}
      {f : ConflictCase → ConflictCase}, cases.get d = some y →
      (f y).incidentId = y.incidentId → y.revision ≤ (f y).revision →
      (∃ x, cases.get c = some x ∧ x.incidentId = x₀.incidentId ∧ x₀.revision ≤ x.revision) →
      ∃ x, (cases.modify d f).get c = some x ∧ x.incidentId = x₀.incidentId ∧
        x₀.revision ≤ x.revision := by
    rintro cases d y f hy hi hr ⟨x, hx, hxi, hxr⟩
    by_cases hd : d = c
    · subst hd
      obtain rfl : y = x := Option.some.inj (hy.symm.trans hx)
      exact ⟨f y, by simp [hy], hi.trans hxi, hxr.trans hr⟩
    · exact ⟨x, by rw [Table.get_modify_of_ne _ _ hd, hx], hxi, hxr⟩
  induction h with
  | start => exact ⟨x₀, hx, rfl, le_rfl⟩
  | sources _ _ ih => exact ih
  | briefs _ _ ih => exact ih
  | cited _ _ ih => exact ih
  | withdrawn _ ih => exact ih
  | opened _ _ ih =>
    obtain ⟨x, hx, h⟩ := ih
    exact ⟨x, Table.get_insert_of_some _ hx, h⟩
  | extended _ hy hf ih => exact hmodify hy (by rw [hf]; rfl) (by rw [hf]; exact Nat.le_succ _) ih
  | marked _ _ _ ih => exact ih
  | reopened _ hy _ ih => exact hmodify hy rfl (Nat.le_succ _) ih
  | @closed _ _ y now bump _ _ hy ih =>
    refine hmodify hy rfl ?_ ih
    simp only [autoResolved, resolveCase]
    split_ifs <;> omega

end Moves
end CrisisMosaic
