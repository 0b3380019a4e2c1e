import Mathlib
import CrisisMosaic.Reachable
import CrisisMosaic.ResidentFragments
import CrisisMosaic.UnsettledCases

/-!
# Conflicts between resident reports

While only reports are operated on, all evidence is of their fragments, and a row
that may be current shows its fragment as it is. A case that is left open or
reopened is one its current evidence still contradicts itself in.
-/

namespace CrisisMosaic
open Relational

/-- The text library leaves the letters from `a` to `z` alone. -/
structure TextLib.PlainLowercase (lib : TextLib) : Prop where
  casefold : ∀ c : Char, c.isLower = true → lib.casefold c = [c]
  lower : ∀ c : Char, c.isLower = true → lib.lower c = [c]
  space : ∀ c : Char, c.isLower = true → lib.isSpace c = false

section Words
variable {lib : TextLib} {s : String}

theorem flatMap_lowercase {f : Char → List Char} (hf : ∀ c : Char, c.isLower = true → f c = [c])
    {cs : List Char} (hcs : cs.all Char.isLower = true) : cs.flatMap f = cs := by
  induction cs with
  | nil => rfl
  | cons c cs ih =>
    simp only [List.all_cons, Bool.and_eq_true] at hcs
    rw [List.flatMap_cons, hf c hcs.1, ih hcs.2]
    rfl

theorem casefold_lowercase (h : lib.PlainLowercase) (hs : s.toList.all Char.isLower = true) :
    casefold lib s = s.toList := flatMap_lowercase h.casefold hs

theorem dropWhile_lowercase (h : lib.PlainLowercase) {cs : List Char}
    (hcs : cs.all Char.isLower = true) : cs.dropWhile lib.isSpace = cs := by
  cases cs with
  | nil => rfl
  | cons c cs =>
    simp only [List.all_cons, Bool.and_eq_true] at hcs
    simp [h.space c hcs.1]

theorem isUnknown_lowercase (h : lib.PlainLowercase) (hs : s.toList.all Char.isLower = true) :
    isUnknown lib s = decide (s = "unknown") := by
  have hrev : s.toList.reverse.all Char.isLower = true := by rw [List.all_reverse, hs]
  rw [isUnknown, strip, dropWhile_lowercase h hs, dropWhile_lowercase h hrev, List.reverse_reverse,
    flatMap_lowercase h.lower hs, decide_eq_decide]
  exact String.toList_inj

theorem concreteValues_lowercase {v : String} (hv : v ∈ concreteValues) :
    v.toList.all Char.isLower = true := by
  revert v
  decide

end Words

namespace InformationFragment

/-- What `_evidence_source_identity` gives for a row that shows the fragment. -/
def identity (f : InformationFragment) (ref : Id) : String × String ⊕ String × Id :=
  if truthy f.sourceClusterId then .inl ("cluster", f.sourceClusterId.getD "")
  else .inr (f.sourceType.text, ref)

end InformationFragment

namespace ConflictEvidence
variable {e : ConflictEvidence} {f g : InformationFragment} {env : Env}

/-- The row shows the source and the claim of the fragment. -/
structure Shows (e : ConflictEvidence) (f : InformationFragment) : Prop where
  cluster : e.sourceClusterId = f.sourceClusterId
  claim : (e.snapshot.get "claim_value").bind Json.asStr = f.claimValue
  sourceType : (e.snapshot.get "source_type").bind Json.asStr = some f.sourceType.text
  sourceRef : (e.snapshot.get "source_ref_id").bind Json.asRef = f.sourceRefId

theorem Shows.reclassify (h : e.Shows f) (hfg : f.SameContent g) : e.Shows g := by
  rw [InformationFragment.SameContent] at hfg
  rw [hfg]
  exact ⟨h.cluster, h.claim, h.sourceType, h.sourceRef⟩

theorem shows_snapshot {id : Id} (hcluster : e.sourceClusterId = f.sourceClusterId)
    (hsnapshot : e.snapshot = fragmentSnapshot id f) : e.Shows f where
  cluster := hcluster
  claim := by
    rw [hsnapshot]
    change (some (optStr f.claimValue)).bind Json.asStr = f.claimValue
    cases f.claimValue <;> rfl
  sourceType := by
    rw [hsnapshot]
    rfl
  sourceRef := by
    rw [hsnapshot]
    change (some (optRef f.sourceRefId)).bind Json.asRef = f.sourceRefId
    cases f.sourceRefId <;> rfl

theorem Shows.identity_eq (h : e.Shows f) {ref : Id} (href : f.sourceRefId = some ref) :
    evidenceSourceIdentity e = f.identity ref := by
  unfold evidenceSourceIdentity InformationFragment.identity
  rw [h.cluster, h.sourceType, h.sourceRef, href]

theorem Shows.claim_eq (h : e.Shows f) (hkind : e.kind = .fragment) :
    comparableClaim env e = f.claimValue.filter fun v => casefold env.text v ≠ "unknown".toList := by
  rw [comparableClaim, if_pos hkind, h.claim]

/-- The row is evidence of a fragment, and shows it unless a later version is known. -/
structure Mirrors (fragments : Table InformationFragment) (e : ConflictEvidence) : Prop where
  kind : e.kind = .fragment
  fragment : ∃ f, fragments.get e.sourceId = some f ∧ e.sourceRevision ≤ f.revision ∧
    (e.isCurrent = true ∨ e.sourceRevision = f.revision → e.Shows f)

variable {fragments fragments' : Table InformationFragment} {k : Id}

theorem Mirrors.reclassify (h : e.Mirrors fragments)
    (hf : fragments.Related InformationFragment.Reclassified fragments') : e.Mirrors fragments' where
  kind := h.kind
  fragment := by
    obtain ⟨f, hget, hle, hshows⟩ := h.fragment
    obtain ⟨g, hg, hc, hrev, -⟩ := hf.right_of_some hget
    refine ⟨g, hg, hle.trans hrev, fun hcase => (hshows ?_).reclassify hc⟩
    rcases hcase with hcur | heq
    · exact Or.inl hcur
    · exact Or.inr (by omega)

/-- A row of another fragment, or one that is not current, does not notice the rewriting. -/
theorem Mirrors.rewrite (h : e.Mirrors fragments)
    (hother : ∀ j f, j ≠ k → fragments.get j = some f → fragments'.get j = some f)
    (hself : ∀ f, fragments.get k = some f → ∃ g, fragments'.get k = some g ∧
      (g = f ∨ f.revision < g.revision))
    (hcurrent : e.isCurrent = true → e.sourceId ≠ k) : e.Mirrors fragments' where
  kind := h.kind
  fragment := by
    obtain ⟨f, hget, hle, hshows⟩ := h.fragment
    by_cases hk : e.sourceId = k
    · obtain ⟨g, hg, rfl | hlt⟩ := hself f (hk ▸ hget)
      · exact ⟨g, hk ▸ hg, hle, hshows⟩
      · refine ⟨g, hk ▸ hg, hle.trans hlt.le, fun hcase => ?_⟩
        rcases hcase with hcur | heq
        · exact absurd hk (hcurrent hcur)
        · omega
    · exact ⟨f, hother _ f hk hget, hle, hshows⟩

end ConflictEvidence

/-- Every row of evidence is of a fragment of `fragments`. -/
abbrev Mirrored (fragments : Table InformationFragment) (evidence : Table ConflictEvidence) : Prop :=
  evidence.All fun _ e => e.Mirrors fragments

namespace Mirrored
variable {env : Env} {now : Time} {fragments fragments' : Table InformationFragment}
  {evidence evidence' : Table ConflictEvidence} {c k : Id}

theorem reclassify (h : Mirrored fragments evidence)
    (hf : fragments.Related InformationFragment.Reclassified fragments') :
    Mirrored fragments' evidence :=
  fun i e he => (h i e he).reclassify hf

/-- The evidence of a fragment is taken out and the fragment rewritten. -/
theorem invalidate (h : Mirrored fragments evidence)
    (hother : ∀ j f, j ≠ k → fragments.get j = some f → fragments'.get j = some f)
    (hself : ∀ f, fragments.get k = some f → ∃ g, fragments'.get k = some g ∧
      (g = f ∨ f.revision < g.revision)) :
    Mirrored fragments' (invalidateFragmentEvidence evidence k) := by
  intro i e he
  obtain ⟨d, hd, ⟨hmine, rfl⟩ | ⟨hother', rfl⟩⟩ := get_invalidateFragmentEvidence he
  · have hm : ConflictEvidence.Mirrors fragments { d with isCurrent := false } := by
      obtain ⟨hkind, f, hf, hle, hshows⟩ := h i d hd
      refine ⟨hkind, f, hf, hle, fun hcase => ?_⟩
      obtain ⟨h₁, h₂, h₃, h₄⟩ := hshows (hcase.imp_left fun hno => nomatch hno)
      exact ⟨h₁, h₂, h₃, h₄⟩
    exact hm.rewrite hother hself fun hno => nomatch hno
  · refine (h i e hd).rewrite hother hself fun hcur hk => ?_
    rw [isFragmentEvidence_iff.mpr ⟨(h i e hd).kind, hk, hcur⟩] at hother'
    exact nomatch hother'

theorem cite (h : Mirrored fragments evidence) {f : InformationFragment}
    (hf : fragments.get k = some f) :
    Mirrored fragments (citeSource env now evidence c .fragment k
      ⟨f.revision, f.sourceClusterId, fragmentSnapshot k f⟩).1 := by
  unfold citeSource
  cases hfirst : evidence.first fun e =>
      e.cites c .fragment k && e.sourceRevision = f.revision with
  | some j =>
    obtain ⟨g, hg, hp⟩ := Table.first_some hfirst
    simp only [Bool.and_eq_true, ConflictEvidence.cites_iff, decide_eq_true_eq] at hp
    obtain ⟨⟨-, -, hgs⟩, hgr⟩ := hp
    refine Table.All.modify h fun e he hm => ?_
    obtain rfl : g = e := Option.some.inj (hg.symm.trans he)
    obtain ⟨hkind, f', hf', hle, hshows⟩ := hm
    obtain rfl : f' = f := Option.some.inj (hf'.symm.trans (hgs ▸ hf))
    obtain ⟨h₁, h₂, h₃, h₄⟩ := hshows (Or.inr hgr)
    exact ⟨hkind, f', hf', hle, fun _ => ⟨h₁, h₂, h₃, h₄⟩⟩
  | none =>
    refine Table.All.insert (Table.All.sweep h fun i e hm => ?_) ?_
    · split_ifs
      · obtain ⟨hkind, f', hf', hle, hshows⟩ := hm
        refine ⟨hkind, f', hf', hle, fun hcase => ?_⟩
        obtain ⟨h₁, h₂, h₃, h₄⟩ := hshows (hcase.imp_left fun hno => nomatch hno)
        exact ⟨h₁, h₂, h₃, h₄⟩
      · exact hm
    · exact ⟨rfl, f, hf, le_rfl, fun _ => ConflictEvidence.shows_snapshot rfl rfl⟩

theorem add {sources : Sources} {incidentId : Id} {references : List EvidenceReference}
    (hkinds : ∀ r ∈ references, r.kind = .fragment) :
    ∀ {evidence evidence' : Table ConflictEvidence} {added : List Id}, Mirrored fragments evidence →
      addEvidence env now sources fragments c incidentId references evidence = .ok (evidence', added) →
      Mirrored fragments evidence' := by
  induction references with
  | nil =>
    intro evidence evidence' added h hadd
    obtain ⟨rfl, -⟩ := Prod.mk.inj (pure_ok.mp hadd)
    exact h
  | cons r references ih =>
    intro evidence evidence' added h hadd
    simp only [addEvidence, evidenceSnapshot, bind_ok, pure_ok, Prod.exists, Prod.mk.injEq] at hadd
    obtain ⟨version, ⟨version', hv, -, -, rfl⟩, mid, ids, hmid, rfl, -⟩ := hadd
    rw [hkinds r List.mem_cons_self] at hv hmid
    simp only [sourceVersion, bind_ok, found_ok, pure_ok] at hv
    obtain ⟨f, hf, -, -, rfl⟩ := hv
    exact ih (fun r hr => hkinds r (List.mem_cons_of_mem _ hr)) (h.cite hf) hmid

end Mirrored

/-- No case is closed, and one that is not resolved is contested. -/
structure Standing (env : Env) (s : Store) : Prop where
  closed : ∀ c x, s.cases.get c = some x → x.status ≠ .closed
  contested : ∀ c x, s.cases.get c = some x → x.status ≠ .resolved → contested env s.evidence c = true

/-- What report operations keep. -/
structure StandsOnReports (env : Env) (db : Db) : Prop where
  resident : Resident env db.reports db.fragments
  mirrored : Mirrored db.fragments db.evidence
  standing : Standing env db.toStore

section Steps
variable {env : Env} {now : Time} {db : Db} {op : Op} {o : Outcome} {s t : Store} {u : FragmentUpsert}

theorem Op.upsert_some (h : op.upsert env db = some u) :
    ∃ id r, op.storedReport env db = some (id, r) ∧
      u = upsertReportFragment env op.now db.fragments id r := by
  unfold Op.upsert at h
  split_ifs at h
  obtain ⟨⟨id, r⟩, hr, rfl⟩ := Option.map_eq_some_iff.mp h
  exact ⟨id, r, hr, rfl⟩

theorem Mirrored.upsert (h : Mirrored db.fragments db.evidence) (id : Id) (r : Report) :
    let u := upsertReportFragment env now db.fragments id r
    Mirrored u.fragments (u.gone.elim db.evidence (invalidateFragmentEvidence db.evidence)) := by
  dsimp only
  rcases upsertReportFragment_cases env now db.fragments id r with
    ⟨g, -, hu, -⟩ | ⟨k, f, hf, -, ⟨hu, -⟩ | ⟨g, hg, hu⟩⟩ <;> rw [hu]
  · intro i e he
    obtain ⟨hkind, f, hf, hshows⟩ := h i e he
    exact ⟨hkind, f, Table.get_insert_of_some g hf, hshows⟩
  · exact h
  · refine h.invalidate (fun j e hj he => ?_) fun e he => ⟨g, by simp [he], Or.inr ?_⟩
    · exact (Table.get_modify_of_ne _ _ hj.symm).trans he
    · obtain rfl : f = e := Option.some.inj (hf.symm.trans he)
      simp [hg, refresh, observe]

theorem Mirrored.called {sources : Sources} {call : ConflictCall} {c : Id}
    (h : Mirrored s.fragments s.evidence) (hc : Called env now sources s t call c)
    (hcall : ∀ k ∈ call.fragments, ∀ f, s.fragments.get k = some f → f.status ≠ .withdrawn) :
    Mirrored t.fragments t.evidence := by
  obtain ⟨ids, hadd⟩ := hc.added
  refine (Mirrored.add (fun r hr => ?_) h hadd).reclassify (hc.reclassified hcall)
  obtain ⟨k, -, rfl⟩ := mem_fragmentReferences.mp hr
  rfl

theorem Mirrored.reconciled {ids : List Id} (h : Mirrored s.fragments s.evidence)
    (hr : Reconciled env ids s t) : Mirrored t.fragments t.evidence := by
  rw [hr.evidence]
  exact h.reclassify hr.reclassified

theorem ReportCourse.mirrored (h : ReportCourse env db op o)
    (hm : Mirrored db.fragments db.evidence) : Mirrored o.db.fragments o.db.evidence := by
  cases h with
  | @observed u hu hcourse =>
    obtain ⟨id, r, -, rfl⟩ := Op.upsert_some hu
    obtain ⟨hself, hstatus, -⟩ := upsert_spec env op.now db.fragments id r
    have hbegun : ∀ {s : Store}, Begun db (upsertReportFragment env op.now db.fragments id r) s →
        Mirrored s.fragments s.evidence := fun hb => by
      rw [hb.fragments, hb.evidence]
      exact hm.upsert id r
    cases hdetection : o.detection with
    | none =>
      rw [hdetection] at hcourse
      cases hcourse with
      | unchanged _ hb => exact hbegun hb
      | undisputed _ hb _ _ hr => exact (hbegun hb).reconciled hr
    | some d =>
      rw [hdetection] at hcourse
      cases hcourse with
      | disputed _ hb hcall hd _ hr =>
        rw [← hb.fragments] at hcall hself
        exact ((hbegun hb).called hd (detectedCall_fragments hcall hself hstatus)).reconciled hr
  | deactivated _ hcourse _ =>
    cases hdropped : op.dropped env db with
    | none =>
      rw [hdropped] at hcourse
      cases hcourse with
      | absent hq =>
        have hf : o.db.fragments = db.fragments := hq.fragments
        have he : o.db.evidence = db.evidence := hq.evidence
        rw [hf, he]
        exact hm
    | some p =>
      rw [hdropped] at hcourse
      cases hcourse with
      | @withdrawn k f s ids hf _ hfr he _ hr =>
        refine Mirrored.reconciled (s := s) ?_ hr
        rw [hfr, he]
        refine hm.invalidate (fun j e hj hje => ?_) fun e hke => ⟨_, by simp [hke]; rfl, ?_⟩
        · exact (Table.get_modify_of_ne _ _ hj.symm).trans hje
        · obtain rfl : f = e := Option.some.inj (hf.symm.trans hke)
          unfold withdrawFragment
          split_ifs
          · exact Or.inl rfl
          · exact Or.inr (Nat.lt_succ_self _)
  | untouched _ hq _ =>
    have hf : o.db.fragments = db.fragments := hq.fragments
    have he : o.db.evidence = db.evidence := hq.evidence
    rw [hf, he]
    exact hm

/-- A case that does not cite the fragment at present does not notice that its evidence is taken out. -/
theorem contested_invalidate {evidence : Table ConflictEvidence} {c k : Id}
    (h : ¬ CitesNow evidence c k) :
    contested env (invalidateFragmentEvidence evidence k) c = contested env evidence c := by
  refine contested_congr fun i e hc hcur => ⟨fun he => ?_, fun he => ?_⟩
  · obtain ⟨d, hd, ⟨-, rfl⟩ | ⟨-, rfl⟩⟩ := get_invalidateFragmentEvidence he
    · exact nomatch hcur
    · exact hd
  · have hother : isFragmentEvidence k e = false := by
      by_contra hmine
      obtain ⟨hkind, hk, -⟩ := isFragmentEvidence_iff.mp (by simpa using hmine)
      exact h ⟨i, e, he, ConflictEvidence.cites_iff.mpr ⟨hc, hkind, hk⟩, hcur⟩
    simp [invalidateFragmentEvidence, he, hother]

/-- Every case is standing but for those `ids` that are to be reconciled. -/
structure StandingBut (env : Env) (ids : List Id) (s : Store) : Prop where
  closed : ∀ c x, s.cases.get c = some x → x.status ≠ .closed
  contested : ∀ c x, c ∉ ids → s.cases.get c = some x → x.status ≠ .resolved →
    contested env s.evidence c = true
  stored : ∀ c ∈ ids, (s.cases.get c).isSome = true

theorem StandingBut.reconciled {ids : List Id} (h : StandingBut env ids s)
    (hr : Reconciled env ids s t) : Standing env t := by
  have hold : ∀ c y, t.cases.get c = some y → c ∈ ids →
      ∃ x, s.cases.get c = some x ∧ y.status = settledStatus env s.evidence c x.status := by
    intro c y hy hc
    obtain ⟨x, hx⟩ := Option.isSome_iff_exists.mp (h.stored c hc)
    obtain ⟨y', hy', hs⟩ := hr.settled c hc x hx
    exact ⟨x, hx, Option.some.inj (hy.symm.trans hy') ▸ hs⟩
  refine ⟨fun c y hy hclosed => ?_, fun c y hy hopen => ?_⟩ <;> by_cases hc : c ∈ ids
  · obtain ⟨x, hx, hs⟩ := hold c y hy hc
    rw [hclosed, settledStatus] at hs
    split_ifs at hs
    exact h.closed c x hx hs.symm
  · exact h.closed c y ((hr.others c hc).symm.trans hy) hclosed
  · obtain ⟨x, hx, hs⟩ := hold c y hy hc
    rw [hr.evidence]
    by_contra hno
    rw [settledStatus, (Bool.not_eq_true _).mp hno] at hs
    split_ifs at hs with hfinal
    · simp only [Bool.false_or, Bool.or_eq_true, decide_eq_true_eq] at hfinal
      exact hfinal.elim (fun hres => hopen (hs.trans hres)) (h.closed c x hx)
    · exact hopen hs
  · rw [hr.evidence]
    exact h.contested c y hc ((hr.others c hc).symm.trans hy) hopen

theorem LosesEvidence.stored {gone : Option Id} {c : Id} (h : LosesEvidence db gone c) :
    (db.cases.get c).isSome = true := by
  obtain ⟨-, -, -, hsome⟩ := h
  exact hsome

/-- Taking out the evidence of a fragment leaves the other cases standing. -/
theorem Standing.losing (h : Standing env db.toStore) (gone : Option Id) {ids : List Id}
    (hids : ∀ c, c ∈ ids ↔ LosesEvidence db gone c) (hcases : s.cases = db.cases)
    (hevidence : s.evidence = gone.elim db.evidence (invalidateFragmentEvidence db.evidence)) :
    StandingBut env ids s where
  closed := fun c x hx => h.closed c x (hcases ▸ hx)
  contested := by
    intro c x hc hx hopen
    rw [hcases] at hx
    rw [hevidence]
    cases gone with
    | none => exact h.contested c x hx hopen
    | some k =>
      rw [Option.elim_some, contested_invalidate]
      · exact h.contested c x hx hopen
      · exact fun hcites => hc ((hids c).mpr ⟨k, rfl, hcites, by rw [hx]; rfl⟩)
  stored := fun c hc => hcases ▸ ((hids c).mp hc).stored

theorem StandingBut.called {ids ids' : List Id} {sources : Sources} {call : ConflictCall} {c : Id}
    (h : StandingBut env ids s) (hc : Called env now sources s t call c)
    (hids : ∀ d, d ∈ ids' ↔ d ∈ ids ∨ d = c) : StandingBut env ids' t := by
  obtain ⟨y, hy, -, hclosed⟩ := hc.case
  obtain ⟨added, hadd⟩ := hc.added
  refine ⟨fun d x hx hd => ?_, fun d x hd hx hopen => ?_, fun d hd => ?_⟩
  · by_cases hdc : d = c
    · subst hdc
      obtain rfl := Option.some.inj (hy.symm.trans hx)
      obtain ⟨z, hz, hzc⟩ := hclosed hd
      exact h.closed d z hz hzc
    · exact h.closed d x (hc.others d hdc ▸ hx) hd
  · rw [hids, not_or] at hd
    rw [(addEvidence_added hadd).contested_eq hd.2]
    exact h.contested d x hd.1 (hc.others d hd.2 ▸ hx) hopen
  · by_cases hdc : d = c
    · rw [hdc, hy]
      rfl
    · rw [hc.others d hdc]
      exact h.stored d (((hids d).mp hd).resolve_right hdc)

theorem Standing.untouched (h : Standing env s) (q : s.Untouched t) : Standing env t where
  closed := fun c x hx => h.closed c x (q.cases ▸ hx)
  contested := fun c x hx => q.evidence ▸ h.contested c x (q.cases ▸ hx)

theorem gone_of_unchanged (h : u.changed = false) : u.gone = none := by
  simp [FragmentUpsert.gone, h]

theorem ReportCourse.standing (h : ReportCourse env db op o) (hs : Standing env db.toStore) :
    Standing env o.db.toStore := by
  cases h with
  | @observed u _ hcourse =>
    cases hdetection : o.detection with
    | none =>
      rw [hdetection] at hcourse
      cases hcourse with
      | unchanged hchanged hb =>
        have hevidence : o.db.evidence = db.evidence := by
          have he := hb.evidence
          rw [gone_of_unchanged hchanged] at he
          exact he
        have hcases : o.db.cases = db.cases := hb.cases
        exact ⟨fun c x hx => hs.closed c x (hcases ▸ hx),
          fun c x hx => hevidence ▸ hs.contested c x (hcases ▸ hx)⟩
      | undisputed _ hb _ hids hr => exact (hs.losing _ hids hb.cases hb.evidence).reconciled hr
    | some d =>
      rw [hdetection] at hcourse
      cases hcourse with
      | disputed _ hb _ hd hids hr =>
        obtain ⟨lost, hlost⟩ : ∃ lost : List Id, ∀ c, c ∈ lost ↔ LosesEvidence db u.gone c :=
          ⟨_, fun c => mem_lostEvidence⟩
        refine StandingBut.reconciled ((hs.losing _ hlost hb.cases hb.evidence).called hd fun c => ?_) hr
        rw [hids, hlost]
  | deactivated _ hcourse _ =>
    cases hdropped : op.dropped env db with
    | none =>
      rw [hdropped] at hcourse
      cases hcourse with
      | absent hq => exact hs.untouched hq
    | some p =>
      rw [hdropped] at hcourse
      cases hcourse with
      | @withdrawn k f s ids _ hcases _ he hids hr =>
        exact (hs.losing (some k) hids hcases he).reconciled hr
  | untouched _ hq _ => exact hs.untouched hq

theorem StandsOnReports.stages (h : StandsOnReports env db) (hstages : ReportStages env db op o) :
    StandsOnReports env o.db where
  resident := hstages.resident h.resident
  mirrored := hstages.course.mirrored h.mirrored
  standing := hstages.course.standing h.standing

end Steps

section Runs
variable (env : Env) (incidents : Table Incident) (devices : Table AnonymousDevice)
  (attachments : Table Attachment)

theorem step_standsOnReports {db : Db} {op : Op} (h : StandsOnReports env db)
    (hop : op.call.isReportOperation = true) : StandsOnReports env (step env db op) := by
  refine step_cases h fun o ho => ?_
  have hbegin : StandsOnReports env db.begin := 
    ⟨h.resident, h.mirrored, h.standing.closed, h.standing.contested⟩
  exact hbegin.stages (handle_stages ho hop)

theorem initial_standsOnReports : StandsOnReports env (Db.initial incidents devices attachments) where
  resident := ⟨fun _ _ h => (nomatch h), fun _ _ _ _ h => (nomatch h)⟩
  mirrored := fun _ _ h => nomatch h
  standing := ⟨fun _ _ h => (nomatch h), fun _ _ h => (nomatch h)⟩

/-- Only report operations are made. -/
abbrev OnReports (ops : List Op) : Prop := ∀ op ∈ ops, op.call.isReportOperation = true

theorem along_onReports {ops : List Op} (hops : OnReports ops) :
    ∀ db, Along (step env) (fun _ op => op.call.isReportOperation = true) db ops := by
  induction ops with
  | nil => exact fun _ => trivial
  | cons op ops ih =>
    intro db
    exact ⟨hops op List.mem_cons_self, ih (fun op hop => hops op (List.mem_cons_of_mem _ hop)) _⟩

theorem reached_standsOnReports {ops : List Op} (hops : OnReports ops) :
    StandsOnReports env (reached env incidents devices attachments ops) :=
  run_invariant (step env) (fun _ _ h hop => step_standsOnReports env h hop)
    (initial_standsOnReports env incidents devices attachments) (along_onReports env hops _)

end Runs

section Sources
variable {env : Env} {db : Db} {e e' : ConflictEvidence} {f g : InformationFragment}

/-- Two fragments of different reports share a source exactly when they have one identity. -/
theorem fragmentsShareSource_iff {ref ref' : Id} (hf : f.sourceRefId = some ref)
    (hg : g.sourceRefId = some ref') (hne : ref ≠ ref') :
    fragmentsShareSource f g = true ↔ f.identity ref = g.identity ref' := by
  unfold fragmentsShareSource InformationFragment.identity
  have hrefs : f.sourceRefId ≠ g.sourceRefId := by
    rw [hf, hg]
    exact fun h => hne (Option.some.inj h)
  by_cases hfc : truthy f.sourceClusterId = true <;> by_cases hgc : truthy g.sourceClusterId = true
  · obtain ⟨a, ha⟩ : ∃ a, f.sourceClusterId = some a := by
      cases h : f.sourceClusterId with
      | none => simp [h, truthy] at hfc
      | some a => exact ⟨a, rfl⟩
    obtain ⟨b, hb⟩ : ∃ b, g.sourceClusterId = some b := by
      cases h : g.sourceClusterId with
      | none => simp [h, truthy] at hgc
      | some b => exact ⟨b, rfl⟩
    rw [ha] at hfc ⊢
    rw [hb] at hgc ⊢
    simp [hfc, hgc]
  · simp [hfc, hgc, hrefs]
  · simp [hfc, hgc, hrefs]
  · simp [hfc, hgc, hrefs, hne]

/-- The fragments make different concrete claims, and no source is behind both. -/
structure InformationFragment.Contradicts (f g : InformationFragment) : Prop where
  values : ∃ v ∈ concreteValues, ∃ w ∈ concreteValues, f.claimValue = some v ∧
    g.claimValue = some w ∧ v ≠ w
  sources : fragmentsShareSource f g = false

/-- Under a resident deployment two rows disagree just as the fragments they show contradict. -/
theorem Resident.disagree_iff (h : Resident env db.reports db.fragments)
    (htext : env.text.PlainLowercase) (he : e.Mirrors db.fragments) (he' : e'.Mirrors db.fragments)
    (hcur : e.isCurrent = true) (hcur' : e'.isCurrent = true)
    (hf : db.fragments.get e.sourceId = some f) (hg : db.fragments.get e'.sourceId = some g) :
    Disagree env e e' ↔ f.Contradicts g := by
  obtain ⟨f', hf', -, hshows⟩ := he.fragment
  obtain ⟨g', hg', -, hshows'⟩ := he'.fragment
  obtain rfl := Option.some.inj (hf.symm.trans hf')
  obtain rfl := Option.some.inj (hg.symm.trans hg')
  replace hshows := hshows (Or.inl hcur)
  replace hshows' := hshows' (Or.inl hcur')
  obtain ⟨id, r, -, hof, -⟩ := h.reported _ f hf
  obtain ⟨id', r', -, hof', -⟩ := h.reported _ g hg
  -- a claim is comparable just when it is concrete
  have hclaim : ∀ {x : InformationFragment} {v : String}, x.HasClaim →
      (x.claimValue.filter (fun v => casefold env.text v ≠ "unknown".toList) = some v ↔
        x.claimValue = some v ∧ v ∈ concreteValues) := by
    intro x v hx
    rw [Option.filter_eq_some_iff, decide_eq_true_eq]
    refine and_congr_right fun hv => ⟨fun hne => ?_, fun hmem heq => ?_⟩
    · rcases hx with ⟨-, hnone⟩ | ⟨w, hw, hvalue, -⟩
      · exact nomatch hv.symm.trans hnone
      · obtain rfl := Option.some.inj (hw.symm.trans hv)
        refine hvalue.resolve_left fun hunknown => hne ?_
        rw [hunknown]
        exact casefold_lowercase htext (by decide)
    · rw [casefold_lowercase htext (concreteValues_lowercase hmem)] at heq
      rw [String.toList_inj.mp heq] at hmem
      exact absurd hmem (by decide)
  have hidentity := hshows.identity_eq hof.sourceRef
  have hidentity' := hshows'.identity_eq hof'.sourceRef
  unfold Disagree
  rw [hshows.claim_eq he.kind, hshows'.claim_eq he'.kind, hidentity, hidentity']
  constructor
  · rintro ⟨v, w, hv, hw, hne, hsource⟩
    rw [hclaim hof.claim] at hv
    rw [hclaim hof'.claim] at hw
    have hids : id ≠ id' := by
      rintro rfl
      have hk := h.unique _ _ _ _ hf hg (hof.sourceRef.trans hof'.sourceRef.symm)
      rw [← hk, hf] at hg
      obtain rfl := Option.some.inj hg
      exact hsource rfl
    refine ⟨⟨v, hv.2, w, hw.2, hv.1, hw.1, hne⟩, ?_⟩
    rw [← Bool.not_eq_true, fragmentsShareSource_iff hof.sourceRef hof'.sourceRef hids]
    exact hsource
  · rintro ⟨⟨v, hv, w, hw, hfv, hgw, hne⟩, hsource⟩
    have hids : id ≠ id' := by
      rintro rfl
      have hk := h.unique _ _ _ _ hf hg (hof.sourceRef.trans hof'.sourceRef.symm)
      rw [← hk, hf] at hg
      obtain rfl := Option.some.inj hg
      exact hne (Option.some.inj (hfv.symm.trans hgw))
    refine ⟨v, w, (hclaim hof.claim).mpr ⟨hfv, hv⟩, (hclaim hof'.claim).mpr ⟨hgw, hw⟩, hne, ?_⟩
    rw [← Bool.not_eq_true, fragmentsShareSource_iff hof.sourceRef hof'.sourceRef hids] at hsource
    exact hsource

theorem StandsOnReports.contested_iff (h : StandsOnReports env db) (htext : env.text.PlainLowercase)
    (c : Id) : contested env db.evidence c = true ↔ ∃ k l f g, CitesNow db.evidence c k ∧
      db.fragments.get k = some f ∧ CitesNow db.evidence c l ∧ db.fragments.get l = some g ∧
      f.Contradicts g := by
  rw [CrisisMosaic.contested_iff]
  constructor
  · rintro (⟨i, e, he, -, -, hkind⟩ | ⟨i, j, e, e', he, he', hc, hc', hcur, hcur', hd⟩)
    · exact absurd (h.mirrored i e he).kind hkind
    · have hm := h.mirrored i e he
      have hm' := h.mirrored j e' he'
      obtain ⟨f, hf, -⟩ := hm.fragment
      obtain ⟨g, hg, -⟩ := hm'.fragment
      exact ⟨e.sourceId, e'.sourceId, f, g,
        ⟨i, e, he, ConflictEvidence.cites_iff.mpr ⟨hc, hm.kind, rfl⟩, hcur⟩, hf,
        ⟨j, e', he', ConflictEvidence.cites_iff.mpr ⟨hc', hm'.kind, rfl⟩, hcur'⟩, hg,
        (h.resident.disagree_iff htext hm hm' hcur hcur' hf hg).mp hd⟩
  · rintro ⟨k, l, f, g, ⟨i, e, he, hcites, hcur⟩, hf, ⟨j, e', he', hcites', hcur'⟩, hg, hfg⟩
    obtain ⟨hc, -, rfl⟩ := ConflictEvidence.cites_iff.mp hcites
    obtain ⟨hc', -, rfl⟩ := ConflictEvidence.cites_iff.mp hcites'
    refine Or.inr ⟨i, j, e, e', he, he', hc, hc', hcur, hcur', ?_⟩
    exact (h.resident.disagree_iff htext (h.mirrored i e he) (h.mirrored j e' he') hcur hcur' hf hg).mpr hfg

end Sources

/-- While only reports are operated on, a case that is neither resolved nor closed currently cites
two fragments of different sources with different concrete values. -/
theorem unresolved_cases_have_contradicting_reports (env : Env) (htext : env.text.PlainLowercase)
    (incidents : Table Incident) (devices : Table AnonymousDevice) (attachments : Table Attachment)
    (ops : List Op) (hops : OnReports ops) :
    let db := reached env incidents devices attachments ops
    ∀ c x, db.cases.get c = some x → x.status ≠ .resolved → x.status ≠ .closed →
      ∃ k l f g, CitesNow db.evidence c k ∧ db.fragments.get k = some f ∧
        CitesNow db.evidence c l ∧ db.fragments.get l = some g ∧ f.Contradicts g := by
  intro db c x hx hopen _
  have h := reached_standsOnReports env incidents devices attachments hops
  exact (h.contested_iff htext c).mp (h.standing.contested c x hx hopen)

namespace Sample

theorem text_plainLowercase : text.PlainLowercase := by
  have hlower : ∀ c : Char, c.isLower = true → c.toLower = c := by
    intro c hc
    simp [Char.isLower] at hc
    simp [Char.toLower]
    grind
  refine ⟨fun c hc => by simp [text, hlower c hc], fun c hc => by simp [text, hlower c hc], ?_⟩
  intro c hc
  simp only [text, decide_eq_false_iff_not]
  rintro rfl
  exact absurd hc (by decide)

def roadReport (content : String) : ReportCreate :=
  { waterReport with category := .road, contentOriginal := content }

/-- Two residents disagree about the road. -/
def disputedRoad : List Op :=
  [⟨0, resident, none, .postReport (.id 0) (roadReport "road closed") (.ok none) (.ok ())⟩,
    ⟨1, neighbour, none, .postReport (.id 0) (roadReport "road passable") (.ok none) (.ok ())⟩]

theorem disputedRoad_onReports : OnReports disputedRoad := by
  intro op hop
  simp only [disputedRoad, List.mem_cons, List.not_mem_nil, or_false] at hop
  rcases hop with rfl | rfl <;> rfl

end Sample

open Sample in
theorem disputed_road_has_contradicting_reports :
    ∃ k l f g, CitesNow (Sample.reached disputedRoad).evidence 0 k ∧
      (Sample.reached disputedRoad).fragments.get k = some f ∧
      CitesNow (Sample.reached disputedRoad).evidence 0 l ∧
      (Sample.reached disputedRoad).fragments.get l = some g ∧ f.Contradicts g := by
  obtain ⟨x, hx, hopen⟩ := (Option.any_eq_true _ _).mp (show ((Sample.reached disputedRoad).cases.get 0).any
    (fun x => x.status ≠ .resolved && x.status ≠ .closed) = true by decide +kernel)
  simp only [Bool.and_eq_true, decide_eq_true_eq] at hopen
  exact unresolved_cases_have_contradicting_reports Sample.env text_plainLowercase _ _ _ disputedRoad
    disputedRoad_onReports 0 x hx hopen.1 hopen.2

end CrisisMosaic
