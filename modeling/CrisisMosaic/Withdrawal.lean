import CrisisMosaic.Reachable

/-!
# Reports that no longer count

Each fragment of a resident report belongs to an existing report and is the only
one it has. While the report is deleted or invalid the fragment is withdrawn, and
a withdrawn fragment is current evidence of no case. Two requests break this: an
edit of a report that is already invalid observes it again, and an operator may
cite a withdrawn fragment by hand.
-/

namespace CrisisMosaic
open Relational Store

namespace InformationFragment

/-- The fragment a resident's report is observed through. -/
structure ObservedFrom (f : InformationFragment) (reportId : Id) : Prop where
  sourceType : f.sourceType = .residentReport
  sourceRef : f.sourceRefId = some reportId

/-- What a calm step leaves of a resident's fragment. -/
theorem Calm.observedFrom {o : Option InformationFragment} {g : InformationFragment} {reportId : Id}
    (h : Calm o g) (hg : g.ObservedFrom reportId) : ∃ f, o = some f ∧ f.ObservedFrom reportId ∧
      f.incidentId = g.incidentId ∧ (g.status = .withdrawn ↔ f.status = .withdrawn) := by
  cases o with
  | none => exact absurd hg.sourceType h.2
  | some f =>
    exact ⟨f, rfl, ⟨h.1.sourceType.symm.trans hg.sourceType, h.1.sourceRef.symm.trans hg.sourceRef⟩,
      h.1.incident.symm, h.2⟩

end InformationFragment

theorem observedFrom_of_isReportFragment {incidentId reportId : Id} {f : InformationFragment}
    (h : isReportFragment incidentId reportId f = true) :
    f.ObservedFrom reportId ∧ f.incidentId = incidentId := by
  obtain ⟨hi, ht, hr⟩ := isReportFragment_iff.mp h
  exact ⟨⟨ht, hr⟩, hi⟩

structure ReportFragments (reports : Table Report) (fragments : Table InformationFragment) :
    Prop where
  reported : ∀ k f, fragments.get k = some f → f.sourceType = .residentReport →
    ∃ id r, f.ObservedFrom id ∧ reports.get id = some r ∧ r.incidentId = f.incidentId
  unique : ∀ k l f g id, fragments.get k = some f → fragments.get l = some g →
    f.ObservedFrom id → g.ObservedFrom id → k = l
  dead : ∀ k f id r, fragments.get k = some f → f.ObservedFrom id → reports.get id = some r →
    r.isLive = false → f.status = .withdrawn

namespace ReportFragments
variable {reports reports' : Table Report} {fragments fragments' : Table InformationFragment}
  {id k : Id}

theorem report (h : ReportFragments reports fragments) {f : InformationFragment}
    (hf : fragments.get k = some f) (hid : f.ObservedFrom id) :
    ∃ r, reports.get id = some r ∧ r.incidentId = f.incidentId := by
  obtain ⟨id', r, hid', hr, hi⟩ := h.reported k f hf hid.sourceType
  obtain rfl := Option.some.inj (hid.sourceRef.symm.trans hid'.sourceRef)
  exact ⟨r, hr, hi⟩

/-- A fragment that names the report is its fragment. -/
theorem isReportFragment (h : ReportFragments reports fragments) {f : InformationFragment} {r : Report}
    (hf : fragments.get k = some f) (hid : f.ObservedFrom id) (hr : reports.get id = some r) :
    isReportFragment r.incidentId id f = true := by
  obtain ⟨r', hr', hi⟩ := h.report hf hid
  obtain rfl := Option.some.inj (hr.symm.trans hr')
  exact isReportFragment_iff.mpr ⟨hi.symm, hid.sourceType, hid.sourceRef⟩

theorem calm (h : ReportFragments reports fragments) (hf : CalmFragments fragments fragments')
    (hr : ∀ i r, reports.get i = some r → ∃ r', reports'.get i = some r' ∧ r'.incidentId = r.incidentId)
    (hd : ∀ i r', reports'.get i = some r' → r'.isLive = false →
      (∃ r, reports.get i = some r ∧ r.isLive = false) ∨
        ∀ j f, fragments.get j = some f → ¬ f.ObservedFrom i) :
    ReportFragments reports' fragments' where
  reported := by
    intro j g hg ht
    have hcalm := hf.rows j g hg
    cases ho : fragments.get j with
    | none =>
      rw [ho] at hcalm
      exact absurd ht hcalm.2
    | some f =>
      rw [ho] at hcalm
      obtain ⟨i, r, hi, hget, hinc⟩ := h.reported j f ho (hcalm.1.sourceType.symm.trans ht)
      obtain ⟨r', hr', hinc'⟩ := hr i r hget
      exact ⟨i, r', ⟨ht, hcalm.1.sourceRef.trans hi.sourceRef⟩, hr',
        hinc'.trans (hinc.trans hcalm.1.incident.symm)⟩
  unique := by
    intro j l f g i hj hl hfi hgi
    obtain ⟨f₀, hf₀, hfi₀, -⟩ := (hf.rows j f hj).observedFrom hfi
    obtain ⟨g₀, hg₀, hgi₀, -⟩ := (hf.rows l g hl).observedFrom hgi
    exact h.unique j l f₀ g₀ i hf₀ hg₀ hfi₀ hgi₀
  dead := by
    intro j g i r' hg hgi hr' hlive
    obtain ⟨f, ho, hfi, -, hw⟩ := (hf.rows j g hg).observedFrom hgi
    rcases hd i r' hr' hlive with ⟨r, hget, hdead⟩ | hno
    · exact hw.mpr (h.dead j f i r ho hfi hget hdead)
    · exact absurd hfi (hno j f ho)

/-- The report `id` is written, its fragment becomes `k`, and no other fragment changes. -/
theorem touch (h : ReportFragments reports fragments) {r' : Report} {g : InformationFragment}
    (hr : reports'.get id = some r') (hinc : ∀ r, reports.get id = some r → r'.incidentId = r.incidentId)
    (hrest : ∀ i r, i ≠ id → (reports'.get i = some r ↔ reports.get i = some r))
    (hf : ∀ j f, j ≠ k → fragments'.get j = some f → InformationFragment.Calm (fragments.get j) f)
    (hg : fragments'.get k = some g) (hsource : CrisisMosaic.isReportFragment r'.incidentId id g = true)
    (hdead : r'.isLive = false → g.status = .withdrawn)
    (hbefore : (∀ j f, fragments.get j = some f →
        CrisisMosaic.isReportFragment r'.incidentId id f = false) ∨
      ∃ f, fragments.get k = some f ∧ CrisisMosaic.isReportFragment r'.incidentId id f = true) :
    ReportFragments reports' fragments' := by
  obtain ⟨hgid, hginc⟩ := observedFrom_of_isReportFragment hsource
  -- no other fragment was observed from the report
  have hother : ∀ j f, j ≠ k → fragments.get j = some f → ¬ f.ObservedFrom id := by
    intro j f hj hget hid
    obtain ⟨r, hr₀, -⟩ := h.report hget hid
    have hof := hinc r hr₀ ▸ h.isReportFragment hget hid hr₀
    rcases hbefore with hno | ⟨f', hf', hof'⟩
    · exact Bool.noConfusion (hof.symm.trans (hno j f hget))
    · exact hj (h.unique j k f f' id hget hf' hid (observedFrom_of_isReportFragment hof').1)
  have hold : ∀ j f i, fragments'.get j = some f → f.ObservedFrom i →
      (j = k ∧ f = g ∧ i = id) ∨ (j ≠ k ∧ i ≠ id ∧ ∃ f₀, fragments.get j = some f₀ ∧
        f₀.ObservedFrom i ∧ f₀.incidentId = f.incidentId ∧
          (f.status = .withdrawn ↔ f₀.status = .withdrawn)) := by
    intro j f i hget hi
    by_cases hj : j = k
    · subst hj
      obtain rfl := Option.some.inj (hg.symm.trans hget)
      exact Or.inl ⟨rfl, rfl, Option.some.inj (hi.sourceRef.symm.trans hgid.sourceRef)⟩
    · obtain ⟨f₀, hf₀, hi₀, hrest'⟩ := (hf j f hj hget).observedFrom hi
      refine Or.inr ⟨hj, ?_, f₀, hf₀, hi₀, hrest'⟩
      rintro rfl
      exact hother j f₀ hj hf₀ hi₀
  exact
    { reported := by
        intro j f hget ht
        by_cases hj : j = k
        · subst hj
          obtain rfl := Option.some.inj (hg.symm.trans hget)
          exact ⟨id, r', hgid, hr, hginc.symm⟩
        · have hcalm := hf j f hj hget
          cases ho : fragments.get j with
          | none =>
            rw [ho] at hcalm
            exact absurd ht hcalm.2
          | some f₀ =>
            rw [ho] at hcalm
            obtain ⟨i, r, hi, hget', hinc'⟩ := h.reported j f₀ ho (hcalm.1.sourceType.symm.trans ht)
            have hne : i ≠ id := fun he => hother j f₀ hj ho (he ▸ hi)
            exact ⟨i, r, ⟨ht, hcalm.1.sourceRef.trans hi.sourceRef⟩, (hrest i r hne).mpr hget',
              hinc'.trans hcalm.1.incident.symm⟩
      unique := by
        intro j l f f' i hj hl hfi hfi'
        rcases hold j f i hj hfi with ⟨rfl, -, rfl⟩ | ⟨-, hne, f₀, hf₀, hi₀, -⟩ <;>
          rcases hold l f' i hl hfi' with ⟨rfl, -, hi⟩ | ⟨-, hne', g₀, hg₀, hi₀', -⟩
        · rfl
        · exact absurd rfl hne'
        · exact absurd hi hne
        · exact h.unique j l f₀ g₀ i hf₀ hg₀ hi₀ hi₀'
      dead := by
        intro j f i r hj hfi hget hlive
        rcases hold j f i hj hfi with ⟨-, rfl, rfl⟩ | ⟨-, hne, f₀, hf₀, hi₀, -, hw⟩
        · obtain rfl := Option.some.inj (hr.symm.trans hget)
          exact hdead hlive
        · exact hw.mpr (h.dead j f₀ i r hf₀ hi₀ ((hrest i r hne).mp hget) hlive) }

end ReportFragments

section Steps
variable {db db' : Db} {patched : Id → Prop}

theorem ReportsStep.reportFragments (h : ReportsStep db db' patched)
    (hi : ReportFragments db.reports db.fragments)
    (hlive : ∀ id r, patched id → db.reports.get id = some r → r.isLive = true) :
    ReportFragments db'.reports db'.fragments := by
  cases h with
  | kept hr hf =>
    rw [hr]
    exact hi.calm hf (fun i r hget => ⟨r, hget, rfl⟩) fun i r hget hd => Or.inl ⟨r, hget, hd⟩
  | @edited id r r' hget hinc hsame hr hf =>
    rw [hr]
    refine hi.calm hf (fun i s hs => ?_) fun i s hs hd => Or.inl ?_
    · by_cases hid : id = i
      · subst hid
        obtain rfl := Option.some.inj (hget.symm.trans hs)
        exact ⟨r', by simp [hget], hinc⟩
      · exact ⟨s, by rwa [Table.get_modify_of_ne _ _ hid], rfl⟩
    · rcases Table.get_modify_cases hs with ⟨rfl, s₀, hs₀, rfl⟩ | ⟨-, hs⟩
      · exact ⟨r, hget, hsame ▸ hd⟩
      · exact ⟨s, hs, hd⟩
  | @posted r k hl hr hobs =>
    obtain ⟨g, hg, hsource, hstatus⟩ := hobs.observed
    rw [hr]
    refine hi.touch (Table.get_insert_size _ _) (fun s hs => nomatch (Table.get_size _).symm.trans hs)
      (fun i s hne => by rw [Table.get_insert, if_neg hne]) hobs.others hg hsource
      (fun hd => absurd hl (by simp [hd])) hobs.before
  | @observed id k r r' hget hinc hl hr hobs =>
    obtain ⟨g, hg, hsource, hstatus⟩ := hobs.observed
    have hl' : r'.isLive = true := hl.elim (fun h => h) fun h => h.2.trans (hlive id r h.1 hget)
    have hnew : (db.reports.modify id fun _ => r').get id = some r' := by simp [hget]
    rw [hr]
    refine hi.touch hnew (fun s hs => ?_)
      (fun i s hne => by rw [Table.get_modify_of_ne _ _ hne.symm]) hobs.others hg hsource
      (fun hd => absurd hl' (by simp [hd])) hobs.before
    exact Option.some.inj (hget.symm.trans hs) ▸ hinc
  | @dropped id r r' hget hinc hdead hr hw =>
    have hnew : (db.reports.modify id fun _ => r').get id = some r' := by simp [hget]
    rw [hr]
    have hrest : ∀ i s, i ≠ id → ((db.reports.modify id fun _ => r').get i = some s ↔
        db.reports.get i = some s) := fun i s hne => by rw [Table.get_modify_of_ne _ _ hne.symm]
    cases hw with
    | absent hno heq =>
      rw [heq]
      refine hi.calm (.refl .refl _) (fun i s hs => ?_) fun i s hs hd => ?_
      · by_cases hid : id = i
        · subst hid
          obtain rfl := Option.some.inj (hget.symm.trans hs)
          exact ⟨r', hnew, hinc⟩
        · exact ⟨s, (hrest i s (Ne.symm hid)).mpr hs, rfl⟩
      · by_cases hid : i = id
        · subst hid
          refine Or.inr fun j f hf hof => ?_
          have hyes := hi.isReportFragment hf hof hget
          rw [← hinc, hno j f hf] at hyes
          exact nomatch hyes
        · exact Or.inl ⟨s, (hrest i s hid).mp hs, hd⟩
    | @found k f g hf hof hg hfg hw hothers =>
      obtain ⟨h₁, h₂, h₃⟩ := isReportFragment_iff.mp hof
      refine hi.touch hnew (fun s hs => ?_) hrest hothers hg
        (isReportFragment_iff.mpr ⟨hfg.incident.trans h₁, hfg.sourceType.trans h₂,
          hfg.sourceRef.trans h₃⟩) (fun _ => hw) (Or.inr ⟨f, hf, hof⟩)
      exact Option.some.inj (hget.symm.trans hs) ▸ hinc

end Steps

section Silence

/-- No withdrawn fragment is current evidence. -/
def Store.WithdrawnSilent (s : Store) : Prop :=
  ∀ i e f, s.evidence.get i = some e → e.isCurrent = true → e.kind = .fragment →
    s.fragments.get e.sourceId = some f → f.status ≠ .withdrawn

theorem Store.Works.withdrawnSilent {b t : Store} {asked : Asked} {reopens : Id → Prop}
    (h : b.Works asked reopens t) (hb : b.Sound) (hi : b.WithdrawnSilent)
    (hcalm : ∀ k, asked.cites k → CalmFragments b.fragments t.fragments)
    (hcites : ∀ k f, asked.cites k → b.fragments.get k = some f → f.status ≠ .withdrawn) :
    t.WithdrawnSilent := by
  intro i e g he hcur hk hg hw
  have hcited : ¬ asked.cites e.sourceId := by
    intro hc
    have hrow := (hcalm _ hc).rows _ g hg
    cases hf : b.fragments.get e.sourceId with
    | none =>
      rw [hf] at hrow
      exact hrow.1 hw
    | some f =>
      rw [hf] at hrow
      exact hcites _ f hc hf (hrow.2.mp hw)
  have hrow := h.evidence i e he
  generalize hd : b.evidence.get i = o at hrow
  cases hrow with
  | kept =>
    obtain ⟨f, hf, -⟩ := hb.upToDate i e hd hk
    exact (h.silent i e f g he hcur hk hf hg hw).elim (hi i e f hd hcur hk hf) hcited
  | lost _ _ _ _ _ => exact nomatch hcur
  | gained d _ _ hc =>
    obtain ⟨g', hg', -, hasked⟩ := hc hk
    exact hcited (hasked (Option.some.inj (hg'.symm.trans hg) ▸ hw))
  | added _ _ _ hc =>
    obtain ⟨g', hg', -, hasked⟩ := hc hk
    exact hcited (hasked (Option.some.inj (hg'.symm.trans hg) ▸ hw))

/-- Disposing of current evidence touches no withdrawn fragment. -/
theorem Decision.calmFragments {env : Env} {now : Time} {s t : Store} {id : Id}
    {payload : DecisionRequest} {x : ConflictCase} {ready : Facts} {factId : Id}
    {record : FactRecord} {draft : VersionDraft}
    (h : Decision env now s t id payload x ready factId record draft) (hi : s.WithdrawnSilent) :
    CalmFragments s.fragments t.fragments where
  rows := by
    intro k g hg
    obtain ⟨f, hf, rfl | ⟨⟨i, e, he, hcur, hk, rfl⟩, hfg⟩⟩ := h.fragments k g hg
    · exact hf ▸ .refl g
    · rw [hf]
      exact ⟨hfg.follows, iff_of_false hfg.status (hi i e f he hcur hk hf)⟩
  size := h.size.ge

theorem Restated.withdrawnSilent {b t : Store} {id : Id} {status : CaseStatus}
    (h : Restated b t id status) (hi : b.WithdrawnSilent) : t.WithdrawnSilent := by
  unfold WithdrawnSilent
  rwa [h.evidence, h.fragments]

end Silence

section Effects
variable {env : Env} {db : Db} {op : Op} {o : Outcome}

/-- Withdrawn fragments are those of reports that no longer count, and none is evidence. -/
structure Withdrawn (db : Db) : Prop where
  reports : ReportFragments db.reports db.fragments
  silent : db.toStore.WithdrawnSilent

/-- No edit observes a report that is invalid, and no request cites a withdrawn fragment. -/
def KeepsWithdrawn (env : Env) (db : Db) (op : Op) : Prop :=
  ∀ o, transact env db op = .ok o →
    (∀ id r, op.patches id → db.reports.get id = some r → r.isLive = true) ∧
      ∀ k f, (op.asked env db).cites k → db.fragments.get k = some f → f.status ≠ .withdrawn

theorem AnalysisStep.withdrawn {t : Db} (h : AnalysisStep db.toStore t.toStore)
    (hr : t.reports = db.reports) (hi : Withdrawn db) : Withdrawn t := by
  cases h with
  | quiet k =>
    refine ⟨hr ▸ k.fragments ▸ hi.reports, ?_⟩
    unfold WithdrawnSilent
    rw [k.evidence, k.fragments]
    exact hi.silent
  | answered _ _ _ _ _ hs _ =>
    exact ⟨hr ▸ hs.fragments ▸ hi.reports, hs.withdrawnSilent hi.silent⟩
  | released _ _ hs _ => exact ⟨hr ▸ hs.fragments ▸ hi.reports, hs.withdrawnSilent hi.silent⟩

theorem Effect.withdrawn (h : Effect env db op o) (hs : db.toStore.Sound) (hi : Withdrawn db)
    (hpatch : ∀ id r, op.patches id → db.reports.get id = some r → r.isLive = true)
    (hcite : ∀ k f, (op.asked env db).cites k → db.fragments.get k = some f →
      f.status ≠ .withdrawn) : Withdrawn o.db := by
  cases h with
  | worked hw hr hcalm _ =>
    exact ⟨hr.reportFragments hi.reports hpatch, hw.withdrawnSilent hs hi.silent hcalm hcite⟩
  | decided _ hd hr _ =>
    have hcalm := hd.calmFragments hi.silent
    refine ⟨?_, fun i e g he hcur hk hg hw => ?_⟩
    · rw [hr]
      exact hi.reports.calm hcalm (fun i r hget => ⟨r, hget, rfl⟩) fun i r hget hdead =>
        Or.inl ⟨r, hget, hdead⟩
    · rw [hd.evidence] at he
      obtain ⟨f, hf, -⟩ := hs.upToDate i e he hk
      obtain ⟨g', hg', hfg⟩ := hcalm.get_some hf
      obtain rfl := Option.some.inj (hg'.symm.trans hg)
      exact hi.silent i e f he hcur hk hf (hfg.2.mp hw)
  | requested _ hr hreports _ =>
    obtain ⟨status, -, hrestate⟩ := hr.status
    exact ⟨hreports ▸ hrestate.fragments ▸ hi.reports, hrestate.withdrawnSilent hi.silent⟩
  | analysed ha hreports _ => exact ha.withdrawn hreports hi

theorem step_withdrawn (env : Env) (db : Db) (op : Op) (hs : db.toStore.Sound) (hi : Withdrawn db)
    (hop : KeepsWithdrawn env db op) : Withdrawn (step env db op) :=
  step_cases hi fun o ho => (transact_effect ho hs).withdrawn
    ⟨hs.facts, hs.upToDate, hs.withdrawn⟩ ⟨hi.reports, hi.silent⟩ (hop o ho).1 (hop o ho).2

end Effects

theorem initial_withdrawn (incidents : Table Incident) (devices : Table AnonymousDevice)
    (attachments : Table Attachment) : Withdrawn (Db.initial incidents devices attachments) where
  reports :=
    { reported := fun _ _ h => nomatch (Table.get_empty _).symm.trans h
      unique := fun _ _ _ _ _ h => nomatch (Table.get_empty _).symm.trans h
      dead := fun _ _ _ _ h => nomatch (Table.get_empty _).symm.trans h }
  silent := fun _ _ _ h => nomatch (Table.get_empty _).symm.trans h

/-- In a run that edits no invalid report and cites no withdrawn fragment, the fragment of a
report that is deleted or invalid is withdrawn and is current evidence of no case. -/
theorem dead_reports_are_not_evidence (env : Env) (incidents : Table Incident)
    (devices : Table AnonymousDevice) (attachments : Table Attachment) (ops : List Op)
    (hops : Along (step env) (KeepsWithdrawn env) (Db.initial incidents devices attachments) ops) :
    let s := reached env incidents devices attachments ops
    ∀ id r k f, s.reports.get id = some r → (r.deletedAt.isSome = true ∨ r.status = .invalid) →
      s.fragments.get k = some f → f.sourceType = .residentReport → f.sourceRefId = some id →
      f.status = .withdrawn ∧ ∀ i e, s.evidence.get i = some e → e.kind = .fragment →
        e.sourceId = k → e.isCurrent = false := by
  intro s id r k f hr hdead hf ht hsrc
  have hinv := (run_invariant (step env) (I := fun t : Db => t.toStore.Sound ∧ Withdrawn t)
    (fun t op ht hop => ⟨step_sound env t op ht.1, step_withdrawn env t op ht.1 ht.2 hop⟩)
    ⟨initial_sound incidents devices attachments, initial_withdrawn incidents devices attachments⟩
    hops).2
  have hlive : r.isLive = false := by
    rcases hdead with h | h
    · simp [Report.isLive, Option.isSome_iff_ne_none.mp h]
    · simp [Report.isLive, h]
  have hw : f.status = .withdrawn := hinv.reports.dead k f id r hf ⟨ht, hsrc⟩ hr hlive
  refine ⟨hw, fun i e he hk hid => ?_⟩
  by_contra hcur
  exact hinv.silent i e f he (by simpa using hcur) hk (hid ▸ hf) hw

/-- A resident reports and an operator marks the report invalid. -/
def markedInvalid : List Op :=
  [⟨0, Sample.resident, none, .postReport (.id 0) Sample.waterReport (.ok none) (.ok ())⟩,
    ⟨1, Sample.admin, none, .patchReportStatus 0 1 .invalid⟩]

theorem marked_invalid_report_is_withdrawn : ∃ r f,
    (Sample.reached markedInvalid).reports.get 0 = some r ∧ r.status = .invalid ∧
      (Sample.reached markedInvalid).fragments.get 0 = some f ∧ f.status = .withdrawn := by
  obtain ⟨r, hr, hs⟩ := (Option.any_eq_true _ _).mp
    (show ((Sample.reached markedInvalid).reports.get 0).any (fun r => r.status = .invalid) = true by
      decide +kernel)
  obtain ⟨f, hf, h⟩ := (Option.any_eq_true _ _).mp
    (show ((Sample.reached markedInvalid).fragments.get 0).any (fun f => f.sourceType = .residentReport ∧
      f.sourceRefId = some 0) = true by decide +kernel)
  obtain ⟨ht, hsrc⟩ := of_decide_eq_true h
  have hops : Along (step Sample.env) (KeepsWithdrawn Sample.env) Sample.initial markedInvalid :=
    ⟨fun _ _ => ⟨fun _ _ h => h.elim, fun _ _ h => h.elim⟩,
      fun _ _ => ⟨fun _ _ h => h.elim, fun _ _ h => h.elim⟩, trivial⟩
  exact ⟨r, f, hr, of_decide_eq_true hs, hf,
    (dead_reports_are_not_evidence _ _ _ _ markedInvalid hops 0 r 0 f hr (Or.inr (of_decide_eq_true hs))
      hf ht hsrc).1⟩

/-- Afterwards the resident edits the text of the report. -/
def editedInvalid : List Op :=
  markedInvalid ++ [⟨2, Sample.resident, none,
    .patchReport 0 ⟨2, none, none, some (some "y"), none, none, none, none, none⟩ (.ok none)⟩]

theorem edited_invalid_report_is_evidence : ∃ r f,
    (Sample.reached editedInvalid).reports.get 0 = some r ∧ r.status = .invalid ∧
      (Sample.reached editedInvalid).fragments.get 0 = some f ∧ f.sourceType = .residentReport ∧
      f.sourceRefId = some 0 ∧ f.status ≠ .withdrawn := by
  obtain ⟨r, hr, hs⟩ := (Option.any_eq_true _ _).mp
    (show ((Sample.reached editedInvalid).reports.get 0).any (fun r => r.status = .invalid) = true by
      decide +kernel)
  obtain ⟨f, hf, h⟩ := (Option.any_eq_true _ _).mp
    (show ((Sample.reached editedInvalid).fragments.get 0).any (fun f => f.sourceType = .residentReport ∧
      f.sourceRefId = some 0 ∧ f.status ≠ .withdrawn) = true by decide +kernel)
  exact ⟨r, f, hr, of_decide_eq_true hs, hf, of_decide_eq_true h⟩

end CrisisMosaic
