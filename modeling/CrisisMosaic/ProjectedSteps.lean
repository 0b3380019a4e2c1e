import CrisisMosaic.LedgerSteps
import CrisisMosaic.ProjectedRows
import CrisisMosaic.RouteSteps
import CrisisMosaic.Settlement

/-!
# Steps of the projection

What each operation on a store makes stale, and what it projects again.
-/

namespace CrisisMosaic
open Relational Originals

theorem citesNow_first {evidence : Table ConflictEvidence} {c k : Id} (h : CitesNow evidence c k) :
    (evidence.first fun e => e.cites c .fragment k && e.isCurrent).isSome = true := by
  obtain ⟨i, e, he, hcites, hcurrent⟩ := h
  cases hfirst : evidence.first fun e => e.cites c .fragment k && e.isCurrent with
  | some _ => rfl
  | none =>
    have hnone := Table.first_none hfirst he
    rw [hcites, hcurrent] at hnone
    exact nomatch hnone

namespace Store

def originals (s : Store) (spots : Table BlindSpot) : Originals := ⟨s.fragments, s.cases, spots⟩

/-- The map shows the rows of the store and the blind spots beside it, but for the stale keys. -/
def ShownBut (s : Store) (spots : Table BlindSpot) (stale : Set FeatureKey) : Prop :=
  (s.originals spots).ShownBut stale s.features

namespace ShownBut
variable {s t : Store} {spots : Table BlindSpot} {S T : Set FeatureKey} {env : Env} {now : Time}

theorem mono (h : s.ShownBut spots S) (hS : S ⊆ T) : s.ShownBut spots T := Originals.ShownBut.mono h hS

theorem emit (h : s.ShownBut spots S) (now : Time) (i : Id) (e : Event) :
    (s.emit now i e).ShownBut spots S := h

theorem projectCase {id : Id} {x : ConflictCase} (h : s.ShownBut spots S)
    (hx : s.cases.get id = some x) (env : Env) (now : Time) :
    (s.projectCase env now id x).ShownBut spots (S \ {x.key id}) :=
  Originals.ShownBut.case h hx s.fragments s.evidence

theorem review (h : s.ShownBut spots S) (now : Time) (id : Id) (x : ConflictCase) (reason : String) :
    (s.withBoard (s.board.markFactUnderReview now id x reason).1).ShownBut spots S := by
  unfold FactBoard.markFactUnderReview
  split
  · exact h
  · split_ifs
    · exact h
    · exact Originals.ShownBut.reviewed h now x.incidentId _ _

theorem insertCase (h : s.ShownBut spots S) (x : ConflictCase) :
    { s with cases := s.cases.insert x }.ShownBut spots S :=
  Originals.ShownBut.cases_changed h subset_rfl fun _ y hy =>
    ⟨y, Table.get_insert_of_some x hy, rfl, Or.inr ⟨rfl, rfl⟩⟩

theorem updateCase {id : Id} {f : ConflictCase → ConflictCase} (h : s.ShownBut spots S) (hS : S ⊆ T)
    (hf : ∀ x, s.cases.get id = some x → (f x).incidentId = x.incidentId ∧ x.key id ∈ T) :
    (s.updateCase id f).ShownBut spots T := by
  apply Originals.ShownBut.cases_changed h hS
  intro j x hx
  have hx : s.cases.get j = some x := hx
  by_cases hj : id = j
  · subst hj
    exact ⟨f x, by simp [Store.updateCase, hx], (hf x hx).1, Or.inl (hf x hx).2⟩
  · exact ⟨x, (Table.get_modify_of_ne _ _ hj).trans hx, rfl, Or.inr ⟨rfl, rfl⟩⟩

theorem insertFragment (h : s.ShownBut spots S) (f : InformationFragment) :
    { s with fragments := s.fragments.insert f }.ShownBut spots S :=
  Originals.ShownBut.fragments_changed h subset_rfl fun _ g hg _ =>
    ⟨g, Table.get_insert_of_some f hg, rfl, rfl, Or.inr ⟨rfl, rfl⟩⟩

theorem modifyFragment {id : Id} {f : InformationFragment → InformationFragment}
    (h : s.ShownBut spots S) (hS : S ⊆ T)
    (hf : ∀ g, s.fragments.get id = some g → g.sourceType ≠ .residentReport →
      (f g).incidentId = g.incidentId ∧ (f g).sourceType = g.sourceType ∧ g.key id ∈ T) :
    { s with fragments := s.fragments.modify id f }.ShownBut spots T := by
  apply Originals.ShownBut.fragments_changed h hS
  intro j g hg hres
  have hg : s.fragments.get j = some g := hg
  by_cases hj : id = j
  · subst hj
    obtain ⟨hi, htype, hT⟩ := hf g hg hres
    exact ⟨f g, by simp [hg], hi, htype, Or.inl hT⟩
  · exact ⟨g, by rw [Table.get_modify_of_ne _ _ hj, hg], rfl, rfl, Or.inr ⟨rfl, rfl⟩⟩

section Detection
variable {sources : Sources} {call : ConflictCall} {id : Id} {opened : Bool}

theorem openCase {t : Store} {existed : Bool} (h : s.ShownBut spots S)
    (ho : openCase env now s call = (t, id, opened, existed)) (hS : S ⊆ T)
    (hcase : ⟨call.incidentId, .conflict, id⟩ ∈ T) :
    t.ShownBut spots T ∧ t.fragments = s.fragments ∧
      ∃ y, t.cases.get id = some y ∧ y.incidentId = call.incidentId := by
  rcases openCase_cases env now s call with ⟨-, hc⟩ | ⟨c, x, hfind, hx, ⟨-, hc⟩ | ⟨-, hc⟩⟩ <;>
    obtain ⟨rfl, rfl, -, -⟩ := (hc.symm.trans ho)
  · exact ⟨(h.insertCase _).mono hS, rfl, freshCase now call, by simp, rfl⟩
  · have hi := findCandidate_incident hfind hx
    have hreopened : (s.updateCase id reopen).ShownBut spots T := by
      apply h.updateCase hS
      intro y hy
      obtain rfl := Option.some.inj (hx.symm.trans hy)
      exact ⟨rfl, by rwa [ConflictCase.key, hi]⟩
    have hget : (reopenStructured now s id x).cases.get id = some (reopen x) := by
      simp [reopenStructured, Store.updateCase, Store.withBoard, hx]
    exact ⟨hreopened.review now id (reopen x) "conflict_reopened", rfl, reopen x, hget, hi⟩
  · exact ⟨h.mono hS, rfl, x, hx, findCandidate_incident hfind hx⟩

theorem extendCase {x : ConflictCase} (h : s.ShownBut spots S) (hx : s.cases.get id = some x)
    (hS : S ⊆ T) (hcase : x.key id ∈ T) (i : Id) (reason : String) :
    (extendCase now s id i reason).ShownBut spots T := by
  apply h.updateCase hS (f := bumpRevision)
  intro y hy
  obtain rfl := Option.some.inj (hx.symm.trans hy)
  exact ⟨rfl, hcase⟩

/-- Of the fragments of a contradiction only those not yet in conflict become stale. -/
theorem setConflict (h : s.ShownBut spots S) (ids : List Id) (hS : S ⊆ T)
    (hids : ∀ k ∈ ids, ∀ f, s.fragments.get k = some f → f.sourceType ≠ .residentReport →
      f.status = .conflict ∨ f.key k ∈ T) :
    { s with fragments := setFragmentStatus now s.fragments .conflict ids }.ShownBut spots T := by
  have hdrawn := setFragmentStatus_drawn now ids s.fragments
  apply Originals.ShownBut.fragments_changed h hS
  intro k f hf hres
  have hf : s.fragments.get k = some f := hf
  obtain ⟨g, hg, hcontent, hrevision, hstatus⟩ := hdrawn.right_of_some hf
  refine ⟨g, hg, by rw [hcontent], by rw [hcontent], ?_⟩
  by_cases hk : k ∈ ids
  · rcases hids k hk f hf hres with hconflict | hT
    · rw [hconflict, or_self] at hstatus
      exact Or.inr ⟨hstatus.trans hconflict.symm, hrevision⟩
    · exact Or.inl hT
  · rw [setFragmentStatus_undrawn now .conflict ids s.fragments hk] at hg
    obtain rfl := Option.some.inj (hf.symm.trans hg)
    exact Or.inr ⟨rfl, rfl⟩

theorem findOrOpen {t : Store} (h : s.ShownBut spots S)
    (hok : findOrOpenStructuredConflict env now sources s call = .ok (t, id, opened)) (hS : S ⊆ T)
    (hcase : ⟨call.incidentId, .conflict, id⟩ ∈ T)
    (hpeers : ∀ k ∈ call.fragments, ∀ f, s.fragments.get k = some f →
      f.sourceType ≠ .residentReport → f.status = .conflict ∨ f.key k ∈ T) :
    t.ShownBut spots T ∧ ∃ y, t.cases.get id = some y ∧ y.incidentId = call.incidentId := by
  simp only [findOrOpenStructuredConflict, bind_ok, pure_ok, Prod.exists, Prod.mk.injEq] at hok
  obtain ⟨m, c, o, existed, ho⟩ : ∃ m c o e, CrisisMosaic.openCase env now s call = (m, c, o, e) :=
    ⟨_, _, _, _, rfl⟩
  rw [ho] at hok
  obtain ⟨evidence, added, -, rfl, rfl, rfl⟩ := hok
  obtain ⟨hm, hfragments, y, hy, hi⟩ := h.openCase ho hS hcase
  rw [← hfragments] at hpeers
  dsimp only
  split_ifs
  · have hext : (CrisisMosaic.extendCase now { m with evidence := evidence } c call.incidentId
        "evidence_updated").ShownBut spots T :=
      extendCase (s := { m with evidence := evidence }) hm hy subset_rfl (by rwa [ConflictCase.key, hi])
        _ _
    refine ⟨hext.setConflict call.fragments subset_rfl hpeers, bumpRevision y, ?_, hi⟩
    simp [CrisisMosaic.extendCase, Store.updateCase, hy]
  · exact ⟨setConflict (s := { m with evidence := evidence }) hm call.fragments subset_rfl hpeers,
      y, hy, hi⟩

end Detection
section Replace
variable {id : Id}

theorem replaceFragment {f g : InformationFragment} (h : s.ShownBut spots S)
    (hf : s.fragments.get id = some f) (hi : g.incidentId = f.incidentId)
    (htype : g.sourceType = f.sourceType) :
    { s with
      fragments := s.fragments.modify id fun _ => g
      features := upsertFragmentMapFeature env now s.features id g }.ShownBut spots S := by
  have hkey : g.key id = f.key id := by rw [InformationFragment.key, hi, InformationFragment.key]
  have hmoved : { s with fragments := s.fragments.modify id fun _ => g }.ShownBut spots
      (S ∪ {k | g.sourceType ≠ SourceType.residentReport ∧ k = g.key id}) := by
    apply h.modifyFragment Set.subset_union_left
    intro e he hres
    obtain rfl := Option.some.inj (hf.symm.trans he)
    exact ⟨hi, htype, Or.inr ⟨htype ▸ hres, hkey.symm⟩⟩
  have hget : (s.fragments.modify id fun _ => g).get id = some g := by simp [hf]
  apply Originals.ShownBut.fragment hmoved hget
  rintro k (hk | hk)
  · exact Or.inr hk
  · exact Or.inl hk

theorem replaceCase {x y : ConflictCase} (h : s.ShownBut spots S) (hx : s.cases.get id = some x)
    (hi : y.incidentId = x.incidentId) (hS : S ⊆ T) (hkey : x.key id ∈ T) :
    { s with cases := s.cases.modify id fun _ => y }.ShownBut spots T := by
  apply h.updateCase hS (f := fun _ => y)
  intro z hz
  obtain rfl := Option.some.inj (hx.symm.trans hz)
  exact ⟨hi, hkey⟩

end Replace

section Reconcile
variable {id i : Id} {x : ConflictCase}

theorem settleFragment (h : s.ShownBut spots S) (k : Id) :
    (settleFragment env now s k).ShownBut spots S := by
  unfold CrisisMosaic.settleFragment
  split
  · next f hf =>
    dsimp only
    split_ifs
    · exact h.replaceFragment hf rfl rfl
    · exact h
  · exact h

theorem closeCase (h : s.ShownBut spots {x.key id}) (hx : s.cases.get id = some x) (bump : Bool) :
    (closeCase now s id x bump).ShownBut spots ∅ := by
  have hmoved := h.replaceCase (y := autoResolved now x bump) hx rfl subset_rfl rfl
  have hget : (s.cases.modify id fun _ => autoResolved now x bump).get id =
      some (autoResolved now x bump) := by simp [hx]
  exact Originals.ShownBut.mono (Originals.ShownBut.hideCase hmoved hget) fun _ hk => hk.2 hk.1

theorem settleCase (h : s.ShownBut spots {x.key id}) (hx : s.cases.get id = some x) (bump : Bool) :
    (settleCase env now i s id x bump).ShownBut spots ∅ := by
  unfold CrisisMosaic.settleCase
  dsimp only
  split_ifs
  · exact (h.projectCase hx env now).mono fun _ hk => hk.2 hk.1
  · exact Originals.ShownBut.mono (Originals.ShownBut.hideCase h hx) fun _ hk => hk.2 hk.1
  · exact List.foldlRecOn (motive := fun s => Store.ShownBut s spots ∅) _ _ (h.closeCase hx bump)
      fun _ hs k _ => settleFragment hs k

theorem withdrawFromCase (h : s.ShownBut spots ∅) (hx : s.cases.get id = some x) (now : Time)
    (i : Id) (w : Withdrawal) :
    ∃ y, (withdrawFromCase now i s id x w).cases.get id = some y ∧
      (withdrawFromCase now i s id x w).ShownBut spots {y.key id} := by
  obtain ⟨y, hy⟩ : ∃ y, y = if x.revision = w.revision then bumpRevision x else x := ⟨_, rfl⟩
  have hi : y.incidentId = x.incidentId := by
    rw [hy]
    split_ifs <;> rfl
  have hmoved : { s with cases := s.cases.modify id fun _ => y }.ShownBut spots {y.key id} :=
    h.replaceCase hx hi (Set.empty_subset _) (by rw [ConflictCase.key, ConflictCase.key, hi]; rfl)
  have hget : (s.cases.modify id fun _ => y).get id = some y := by simp [hx]
  unfold CrisisMosaic.withdrawFromCase reviewAcceptingFact
  rw [← hy]
  dsimp only
  split
  · exact ⟨y, hget, hmoved⟩
  · exact ⟨y, hget, hmoved.review now id y "accepted_evidence_withdrawn"⟩

theorem reconcileCase (h : s.ShownBut spots ∅) (withdrawn : List Withdrawal) (id : Id) :
    (reconcileCase env now i withdrawn s id).ShownBut spots ∅ := by
  unfold CrisisMosaic.reconcileCase
  dsimp only
  cases hw : withdrawn.find? fun w => w.conflictId = id with
  | none =>
    dsimp only
    cases hx : s.cases.get id with
    | none => exact h
    | some x => exact settleCase (h.mono (Set.empty_subset _)) hx true
  | some w =>
    cases hx : s.cases.get id with
    | none => simpa [hx] using h
    | some x =>
      obtain ⟨y, hy, hm⟩ := h.withdrawFromCase hx now i w
      dsimp only
      rw [hy]
      exact hm.settleCase hy false

theorem reconcileConflicts (h : s.ShownBut spots ∅) (withdrawn : List Withdrawal) (ids : List Id) :
    (reconcileConflicts env now i withdrawn s ids).ShownBut spots ∅ :=
  List.foldlRecOn (motive := fun s => Store.ShownBut s spots ∅) _ _ h
    fun _ hs k _ => reconcileCase hs withdrawn k

end Reconcile

section Publish
variable {i id : Id}

theorem publishFragment (h : s.ShownBut spots S) (id : Id) (eventType : String) :
    (publishFragment env now s i id eventType).ShownBut spots S := by
  unfold CrisisMosaic.publishFragment
  split
  · exact h
  · next f hf => exact Originals.ShownBut.fragment h hf fun _ hk => Or.inr hk

/-- The fragment is projected again if the case cites it. -/
def projectCitation (env : Env) (now : Time) (s : Store) (conflictId : Id)
    (features : Table MapFeature) (id : Id) : Table MapFeature :=
  match s.fragments.get id with
  | some f =>
      if (s.evidence.first fun e => e.cites conflictId .fragment id && e.isCurrent).isSome then
        upsertFragmentMapFeature env now features id f
      else features
  | none => features

/-- The fragments a case cites are projected again. -/
theorem projectCited (h : s.ShownBut spots S) (env : Env) (now : Time) (conflictId : Id)
    (hS : ∀ key ∈ S, (∃ k f, s.fragments.get k = some f ∧ f.sourceType ≠ .residentReport ∧
      CitesNow s.evidence conflictId k ∧ key = f.key k) ∨ key ∈ T) :
    { s with features := projectCited env now s conflictId }.ShownBut spots T := by
  have hfold : ∀ (ids : List Id) (S : Set FeatureKey) (features : Table MapFeature),
      (s.originals spots).ShownBut S features →
      (∀ key ∈ S, (∃ k ∈ ids, ∃ f, s.fragments.get k = some f ∧ f.sourceType ≠ .residentReport ∧
        CitesNow s.evidence conflictId k ∧ key = f.key k) ∨ key ∈ T) →
      (s.originals spots).ShownBut T (ids.foldl (projectCitation env now s conflictId) features) := by
    intro ids
    induction ids with
    | nil =>
      intro S features h hS
      apply h.mono
      intro key hkey
      rcases hS key hkey with ⟨k, hk, -⟩ | hT
      · cases hk
      · exact hT
    | cons k ids ih =>
      intro S features h hS
      rw [List.foldl_cons]
      -- once the head is projected only the rest of the list is still to come
      have hrest : ∀ key ∈ S, (∀ f, s.fragments.get k = some f → f.sourceType ≠ .residentReport →
            CitesNow s.evidence conflictId k → key ≠ f.key k) →
          (∃ j ∈ ids, ∃ f, s.fragments.get j = some f ∧ f.sourceType ≠ .residentReport ∧
            CitesNow s.evidence conflictId j ∧ key = f.key j) ∨ key ∈ T := by
        intro key hkey hne
        rcases hS key hkey with ⟨j, hj, f, hf, hres, hcites, heq⟩ | hT
        · rcases List.mem_cons.mp hj with rfl | hj
          · exact absurd heq (hne f hf hres hcites)
          · exact Or.inl ⟨j, hj, f, hf, hres, hcites, heq⟩
        · exact Or.inr hT
      cases hf : s.fragments.get k with
      | none =>
        have hhead : projectCitation env now s conflictId features k = features := by
          unfold projectCitation
          rw [hf]
        rw [hhead]
        apply ih S features h
        intro key hkey
        exact hrest key hkey fun f hget => by cases hf.symm.trans hget
      | some f =>
        by_cases hcites : CitesNow s.evidence conflictId k
        · have hhead : projectCitation env now s conflictId features k =
              upsertFragmentMapFeature env now features k f := by
            unfold projectCitation
            rw [hf]
            exact if_pos (citesNow_first hcites)
          rw [hhead]
          apply ih {key | key ∈ S ∧ ¬ (f.sourceType ≠ .residentReport ∧ key = f.key k)}
          · apply Originals.ShownBut.fragment h hf
            intro key hkey
            by_cases hown : f.sourceType ≠ .residentReport ∧ key = f.key k
            · exact Or.inl hown
            · exact Or.inr ⟨hkey, hown⟩
          · rintro key ⟨hkey, hown⟩
            apply hrest key hkey
            intro g hg hres _ heq
            obtain rfl := Option.some.inj (hf.symm.trans hg)
            exact hown ⟨hres, heq⟩
        · have hskip : ∀ key ∈ S, _ := fun key hkey => hrest key hkey fun _ _ _ hc => absurd hc hcites
          have hhead : projectCitation env now s conflictId features k = features ∨
              projectCitation env now s conflictId features k = upsertFragmentMapFeature env now features k f := by
            unfold projectCitation
            rw [hf]
            dsimp only
            split_ifs
            · exact Or.inr rfl
            · exact Or.inl rfl
          rcases hhead with hhead | hhead <;> rw [hhead]
          · exact ih S features h hskip
          · exact ih S _ (Originals.ShownBut.fragment h hf fun _ hk => Or.inr hk) hskip
  apply hfold _ S s.features h
  intro key hkey
  rcases hS key hkey with ⟨k, f, hf, hrest⟩ | hT
  · exact Or.inl ⟨k, Table.mem_select.mpr ⟨f, hf, rfl⟩, f, hf, hrest⟩
  · exact Or.inr hT

/-- A detected contradiction is shown once its case and everything the case cites is projected. -/
theorem publishDetected {x : ConflictCase} (hx : s.cases.get id = some x)
    (h : s.ShownBut spots ({x.key id} ∪ {key | ∃ k f, s.fragments.get k = some f ∧
      f.sourceType ≠ .residentReport ∧ CitesNow s.evidence id k ∧ key = f.key k}))
    (opened announced : Bool) :
    (publishDetected env now s i id opened announced).ShownBut spots ∅ := by
  unfold CrisisMosaic.publishDetected
  rw [hx]
  have hshown := ((h.projectCase hx env now).projectCited env now id (T := ∅)) (by
      rintro key ⟨hkey | hkey, hne⟩
      · exact absurd hkey hne
      · exact Or.inl hkey)
  dsimp only
  split_ifs <;> exact hshown

theorem publishConflict {d : Detection} {x : ConflictCase} (hx : s.cases.get d.conflictId = some x)
    (h : s.ShownBut spots S) :
    (Questions.publishConflict env now s i d).ShownBut spots (S \ {x.key d.conflictId}) := by
  unfold Questions.publishConflict
  rw [hx]
  exact h.projectCase hx env now

theorem publishOperatorFragment {f : InformationFragment} (h : s.ShownBut spots S)
    (hf : s.fragments.get id = some f)
    (hS : ∀ k ∈ S, f.sourceType ≠ .residentReport ∧ k = f.key id ∨ k ∈ T) :
    (Questions.publishOperatorFragment env now s i id).ShownBut spots T := by
  unfold Questions.publishOperatorFragment
  rw [hf]
  exact Originals.ShownBut.fragment h hf hS

end Publish

section Routes
variable {sources : Sources} {actor : Actor} {header : Option Ref} {conflictId : Ref}

theorem disposeFragment (h : s.ShownBut spots S) (payload : DecisionRequest)
    (evidence : Table ConflictEvidence) (evidenceId : Id) :
    (disposeFragment now env payload evidence s evidenceId).ShownBut spots S := by
  unfold CrisisMosaic.disposeFragment
  split
  · next e _ =>
    by_cases hkind : e.kind = .fragment
    · rw [if_pos hkind]
      split
      · next f hf => exact h.replaceFragment hf rfl rfl
      · exact h
    · rwa [if_neg hkind]
  · exact h

theorem decideConflict {id : Id} {payload : DecisionRequest} (h : s.ShownBut spots ∅)
    (hok : decideConflict now env actor s id payload = .ok t) : t.ShownBut spots ∅ := by
  simp only [CrisisMosaic.decideConflict, bind_ok, found_ok, pure_ok, Prod.exists] at hok
  obtain ⟨x, hx, -, -, -, -, -, -, analysis, -, facts, factId, record, created, -, rfl⟩ := hok
  have hresolved := fun y hi => h.replaceCase (y := y) hx hi (Set.empty_subset {x.key id}) rfl
  have hproject : ∀ y, y.incidentId = x.incidentId → Originals.ShownBut
      ⟨s.fragments, s.cases.modify id fun _ => y, spots⟩ ∅
      (upsertConflictMapFeature env now s.features s.fragments s.evidence id y) := by
    intro y hi
    have hget : (s.cases.modify id fun _ => y).get id = some y := by simp [hx]
    apply Originals.ShownBut.mono (Originals.ShownBut.case (hresolved y hi) hget _ _)
    rintro k ⟨hk, hne⟩
    exact hne (hk.trans (by rw [ConflictCase.key, ConflictCase.key, hi]))
  apply Originals.ShownBut.published _ rfl
  exact List.foldlRecOn (motive := fun s => Store.ShownBut s spots ∅) _ _ (hproject _ rfl)
    fun _ hs k _ => disposeFragment hs payload _ k

theorem submitConflictDecision {payload : DecisionRequest} (h : s.ShownBut spots ∅)
    (hok : submitConflictDecision env now s actor header conflictId payload = .ok t) :
    t.ShownBut spots ∅ := by
  simp only [CrisisMosaic.submitConflictDecision, bind_ok, Prod.exists] at hok
  obtain ⟨-, -, id, x, -, -, -, hok⟩ := hok
  exact h.decideConflict hok

theorem createConflict {incidentId : Ref} {payload : ConflictCreate} (h : s.ShownBut spots ∅)
    (hok : createConflict env now sources s actor header incidentId payload = .ok t) :
    t.ShownBut spots ∅ := by
  simp only [CrisisMosaic.createConflict, bind_ok, pure_ok, Prod.exists] at hok
  obtain ⟨-, -, -, -, i, -, -, -, -, evidence, added, -, rfl⟩ := hok
  obtain ⟨x, hx⟩ : ∃ x, x = manualCase now i payload := ⟨_, rfl⟩
  rw [← hx]
  have hinserted : { s with cases := s.cases.insert x, evidence := evidence }.ShownBut spots ∅ :=
    h.insertCase x
  have hget : (s.cases.insert x).get s.cases.size = some x := Table.get_insert_size _ _
  exact (hinserted.projectCase hget env now).mono fun _ hk => hk.1

theorem appendEvidence {id : Id} {x : ConflictCase} {references : List EvidenceReference}
    {reason : String} {added : List Id} (h : s.ShownBut spots S) (hx : s.cases.get id = some x)
    (hok : appendEvidence env now sources s id x references reason = .ok (t, added)) :
    t.ShownBut spots (S ∪ {x.key id}) ∧ t.cases.get id = some (bumpRevision x) := by
  simp only [CrisisMosaic.appendEvidence, bind_ok, pure_ok, Prod.exists, Prod.mk.injEq] at hok
  obtain ⟨evidence, ids, -, rfl, -⟩ := hok
  constructor
  · exact extendCase (s := { s with evidence := evidence }) h hx Set.subset_union_left
      (Set.mem_union_right S (Set.mem_singleton _)) _ _
  · simp [CrisisMosaic.extendCase, Store.updateCase, hx]

theorem appendConflictEvidence {revision : ℕ} {references : List EvidenceReference}
    (h : s.ShownBut spots ∅)
    (hok : appendConflictEvidence env now sources s actor header conflictId revision references
      = .ok t) : t.ShownBut spots ∅ := by
  simp only [CrisisMosaic.appendConflictEvidence, bind_ok, pure_ok, Prod.exists] at hok
  obtain ⟨-, -, id, x, hcase, -, -, -, -, -, -, -, m, added, hm, rfl⟩ := hok
  obtain ⟨hshown, hget⟩ := h.appendEvidence (getCase_some hcase) hm
  apply (hshown.projectCase hget env now).mono
  rintro k ⟨hk | hk, hne⟩
  · exact hk
  · exact hne hk

theorem reopenConflict {revision : ℕ} {reason : String} (h : s.ShownBut spots ∅)
    (hok : reopenConflict env now s actor header conflictId revision reason = .ok t) :
    t.ShownBut spots ∅ := by
  simp only [CrisisMosaic.reopenConflict, bind_ok, pure_ok, Prod.exists] at hok
  obtain ⟨-, -, id, x, hcase, -, -, -, -, -, -, -, -, -, rfl⟩ := hok
  have hx := getCase_some hcase
  have hreopened : (s.updateCase id reopen).ShownBut spots {x.key id} := by
    apply h.updateCase (Set.empty_subset _)
    intro y hy
    obtain rfl := Option.some.inj (hx.symm.trans hy)
    exact ⟨rfl, rfl⟩
  have hget : (s.updateCase id reopen).cases.get id = some (reopen x) := by simp [Store.updateCase, hx]
  have hreviewed := hreopened.review now id (reopen x) "conflict_reopened"
  have hshown := (hreviewed.projectCase hget env now).mono (T := ∅) fun _ hk => hk.2 hk.1
  unfold reopenCase
  dsimp only
  split <;> exact hshown

end Routes

section Analysis
variable {id : Id} {x : ConflictCase}

/-- A change of the status of a case, projected. -/
theorem setCaseStatus (h : s.ShownBut spots S) (hx : s.cases.get id = some x) (status : CaseStatus) :
    ((setCaseStatus s id status).projectCase env now id { x with status := status }).ShownBut spots
      S := by
  have hset : (CrisisMosaic.setCaseStatus s id status).ShownBut spots (S ∪ {x.key id}) := by
    apply h.updateCase Set.subset_union_left (f := fun x => { x with status := status })
    intro y hy
    obtain rfl := Option.some.inj (hx.symm.trans hy)
    exact ⟨rfl, Or.inr rfl⟩
  have hget : (CrisisMosaic.setCaseStatus s id status).cases.get id =
      some { x with status := status } := by simp [CrisisMosaic.setCaseStatus, Store.updateCase, hx]
  apply (hset.projectCase hget env now).mono
  rintro k ⟨hk | hk, hne⟩
  · exact hk
  · exact absurd hk hne

theorem retarget {a : AiAnalysis} (h : s.ShownBut spots S) (status : CaseStatus) :
    (retarget env now s (a.case? s.cases) status).ShownBut spots S := by
  unfold CrisisMosaic.retarget
  cases hcase : a.case? s.cases with
  | none => exact h
  | some t =>
    obtain ⟨id, x⟩ := t
    simp only [AiAnalysis.case?, Option.bind_eq_some_iff, Option.map_eq_some_iff, Prod.mk.injEq] at hcase
    obtain ⟨_, -, y, hy, rfl, rfl⟩ := hcase
    exact h.setCaseStatus hy status

theorem releaseCase {a : AiAnalysis} (h : s.ShownBut spots S) :
    (releaseCase env now s (a.case? s.cases)).ShownBut spots S := by
  unfold CrisisMosaic.releaseCase
  split_ifs
  · exact h.retarget .opened
  · exact h

theorem completeAnalysis {output : Dict} {confidence : ℚ} {seenStale : Bool}
    (h : s.ShownBut spots S) (hok : completeAnalysis env now s id output confidence seenStale = .ok t) :
    t.ShownBut spots S := by
  simp only [CrisisMosaic.completeAnalysis, bind_ok, pure_ok] at hok
  obtain ⟨a, -, i, -, rfl⟩ := hok
  split_ifs
  · exact releaseCase (s := s.writeAnalysis id _) h
  · exact retarget (s := s.writeAnalysis id _) h .analysisReady

theorem failAnalysis {error : ApiError} (h : s.ShownBut spots S)
    (hok : failAnalysis env now s id error = .ok t) : t.ShownBut spots S := by
  simp only [CrisisMosaic.failAnalysis, bind_ok] at hok
  obtain ⟨a, -, hok⟩ := hok
  split_ifs at hok
  · exact pure_ok.mp hok ▸ h
  · exact pure_ok.mp hok ▸ releaseCase (s := s.writeAnalysis id _) h

end Analysis
end ShownBut
end Store
end CrisisMosaic
