import CrisisMosaic.Relational.Recorded
import CrisisMosaic.StandingCases

/-!
# Detected contradictions between resident reports

Detection runs only for the fragment that is written anew. It puts every fragment
it finds into one case, and later operations take them out again only when they
rewrite or withdraw one of the two.
-/

namespace CrisisMosaic
open Relational

namespace Op
variable (env : Env) (db : Db) (op : Op)

/-- The fragment the operation writes anew. -/
def written : List Id := (((op.upsert env db).filter (·.changed)).map (·.id)).toList

/-- The fragment detection ran for, if the operation is accepted. -/
def detectionRuns : List Id := if (transact env db op).toOption.isSome then op.written env db else []

end Op

section Contends
variable {env : Env} {f g f' g' : InformationFragment}

/-- What the detection run for `g` compares, besides the status of `f`. -/
structure Contends (env : Env) (g f : InformationFragment) : Prop where
  incident : f.incidentId = g.incidentId
  topic : f.topic = g.topic
  claims : f.Contradicts g
  window : |g.time - f.time| ≤ hours env.settings.conflictWindowHours
  place : likelySamePlace env f.place g.place = true

theorem Contends.of_content (h : Contends env g' f') (hf : f.SameContent f') (hg : g.SameContent g') :
    Contends env g f := by
  rw [InformationFragment.SameContent] at hf hg
  rw [hf, hg] at h
  exact ⟨h.incident, h.topic, ⟨h.claims.values, h.claims.sources⟩, h.window, h.place⟩

theorem fragmentsShareSource_comm (f g : InformationFragment) :
    fragmentsShareSource f g = fragmentsShareSource g f := by
  unfold fragmentsShareSource
  by_cases hf : truthy f.sourceClusterId = true <;> by_cases hg : truthy g.sourceClusterId = true
  · simp [hf, hg, eq_comm]
  · simp only [hf, hg]
    grind
  · simp only [hf, hg]
    grind
  · simp only [hf, hg]
    grind

/-- Two places can match only where there is something to compare. -/
theorem likelySamePlace_located {candidate current : Place}
    (h : likelySamePlace env candidate current = true) :
    ((current.position env.math).isSome ||
      !(normalizeAddress env.text current.locationText).isEmpty) = true := by
  unfold likelySamePlace at h
  split at h
  · next hhere _ => simp [hhere]
  · unfold addressesLikelySame at h
    dsimp only at h
    split_ifs at h with hempty
    · simp only [Bool.or_eq_true, not_or] at hempty
      simp [hempty.2]
    all_goals
      simp only [Bool.or_eq_true, not_or] at hempty
      simp [hempty.2]

theorem isKnown_concrete (htext : env.text.PlainLowercase) {v : String} (hv : v ∈ concreteValues) :
    isKnown env (some v) = true := by
  have hne : v ≠ "unknown" := by
    rintro rfl
    exact absurd hv (by decide)
  have htruthy : truthy (some v) = true := by
    revert v
    decide
  simp [isKnown, htruthy, isUnknown_lowercase htext (concreteValues_lowercase hv), hne]

/-- The run finds the fragment unless it is withdrawn. -/
theorem Contends.found (h : Contends env g f) (htext : env.text.PlainLowercase) (hclaim : g.HasClaim)
    (hw : f.status ≠ .withdrawn) (hr : f.status ≠ .resolved) :
    isComparable env g = true ∧ contradicts env g f = true := by
  obtain ⟨v, hv, w, hw', hfv, hgw, hne⟩ := h.claims.values
  have hkey : truthy g.claimKey = true := by
    rcases hclaim with ⟨-, hnone⟩ | ⟨-, -, -, hkey⟩
    · exact nomatch hgw.symm.trans hnone
    · exact hkey
  have hstatus : f.status = .normal ∨ f.status = .conflict := by
    cases hs : f.status with
    | normal => exact Or.inl rfl
    | conflict => exact Or.inr rfl
    | resolved => exact absurd hs hr
    | withdrawn => exact absurd hs hw
  constructor
  · simp only [isComparable, hkey, hgw, isKnown_concrete htext hw', Bool.true_and]
    exact likelySamePlace_located h.place
  · have hsource : fragmentsShareSource g f = false := by
      rw [fragmentsShareSource_comm]
      exact h.claims.sources
    simp [contradicts, h.incident, h.topic, hfv, hgw, hne, hstatus, hsource, isKnown_concrete htext hv,
      h.window, h.place]

/-- A fragment that is found is in the call, with the one that was looked for. -/
theorem detectedCall_found {fragments : Table InformationFragment} {k l : Id}
    (hcomparable : isComparable env g = true) (hf : fragments.get k = some f)
    (hc : contradicts env g f = true) (hk : k ≠ l) :
    ∃ call, detectedCall env fragments l g = some call ∧ k ∈ call.fragments ∧ l ∈ call.fragments := by
  have hmem : k ∈ matchingFragments env fragments l g := by
    simp only [matchingFragments, List.mem_filter, Table.mem_select, decide_eq_true_eq]
    exact ⟨⟨f, hf, hc⟩, hk⟩
  have hnonempty : (matchingFragments env fragments l g).isEmpty = false := by
    simpa using List.ne_nil_of_mem hmem
  refine ⟨detectionCall l g (matchingFragments env fragments l g), ?_, ?_, ?_⟩
  · simp [detectedCall, hcomparable, hnonempty]
  · exact List.mem_append_left _ hmem
  · exact List.mem_append_right _ (List.mem_singleton_self l)

end Contends

/-- A case that is not resolved cites both fragments at present. -/
def SharedCase (s : Store) (k l : Id) : Prop :=
  ∃ c x, s.cases.get c = some x ∧ x.status ≠ .resolved ∧ CitesNow s.evidence c k ∧
    CitesNow s.evidence c l

/-- Fragments that contend share a case, as the later detection run compares them. -/
structure NoneMissed (env : Env) (db : Db) (runs : List Id) : Prop where
  covered : ∀ k f, db.fragments.get k = some f → k ∈ runs
  shared : ∀ k l f g, db.fragments.get k = some f → db.fragments.get l = some g → k ≠ l →
    f.status ≠ .withdrawn → g.status ≠ .withdrawn → LastRecorded k l runs → Contends env g f →
    SharedCase db.toStore k l

section Steps
variable {env : Env} {now : Time} {db : Db} {op : Op} {o : Outcome} {s t : Store} {u : FragmentUpsert}
  {k l : Id}

theorem SharedCase.reconciled {ids : List Id} (h : SharedCase s k l) (hr : Reconciled env ids s t)
    (hcontested : ∀ c, CitesNow t.evidence c k → CitesNow t.evidence c l →
      contested env t.evidence c = true) : SharedCase t k l := by
  obtain ⟨c, x, hx, hopen, hk, hl⟩ := h
  rw [← hr.evidence] at hk hl
  by_cases hc : c ∈ ids
  · obtain ⟨y, hy, hs⟩ := hr.settled c hc x hx
    have hkept := hcontested c hk hl
    rw [hr.evidence] at hkept
    rw [settledStatus, hkept] at hs
    exact ⟨c, y, hy, hs ▸ hopen, hk, hl⟩
  · exact ⟨c, x, (hr.others c hc).trans hx, hopen, hk, hl⟩

theorem SharedCase.called {sources : Sources} {call : ConflictCall} {d : Id} (h : SharedCase s k l)
    (hc : Called env now sources s t call d) : SharedCase t k l := by
  obtain ⟨c, x, hx, hopen, hk, hl⟩ := h
  have hk' := (hc.cites c k).mpr (Or.inl hk)
  have hl' := (hc.cites c l).mpr (Or.inl hl)
  by_cases hd : c = d
  · obtain ⟨y, hy, hyopen, -⟩ := hc.case
    exact ⟨c, y, hd ▸ hy, hyopen, hk', hl'⟩
  · exact ⟨c, x, (hc.others c hd).trans hx, hopen, hk', hl'⟩

/-- Taking out the evidence of a third fragment leaves the two in their case. -/
theorem SharedCase.losing (gone : Option Id) (h : SharedCase db.toStore k l)
    (hcases : s.cases = db.cases)
    (hevidence : s.evidence = gone.elim db.evidence (invalidateFragmentEvidence db.evidence))
    (hk : gone ≠ some k) (hl : gone ≠ some l) : SharedCase s k l := by
  obtain ⟨c, x, hx, hopen, hck, hcl⟩ := h
  refine ⟨c, x, hcases ▸ hx, hopen, ?_, ?_⟩
  all_goals
    rw [hevidence]
    cases gone with
    | none => assumption
    | some j =>
      rw [Option.elim_some, citesNow_invalidate]
      exact ⟨by assumption, fun he => by simp_all⟩

/-- Detection puts the two fragments into one case. -/
theorem SharedCase.detected {sources : Sources} {call : ConflictCall} {d : Id}
    (hc : Called env now sources s t call d) (hk : k ∈ call.fragments) (hl : l ∈ call.fragments) :
    SharedCase t k l := by
  obtain ⟨y, hy, hopen, -⟩ := hc.case
  exact ⟨d, y, hy, hopen, (hc.cites d k).mpr (Or.inr ⟨rfl, hk⟩), (hc.cites d l).mpr (Or.inr ⟨rfl, hl⟩)⟩

theorem gone_or_fresh (now : Time) (fragments : Table InformationFragment) (id : Id) (r : Report) :
    let u := upsertReportFragment env now fragments id r
    (∀ k f, k ≠ u.id → u.fragments.get k = some f → fragments.get k = some f) ∧
      (u.changed = false → u.fragments = fragments) ∧ (∀ k, k ≠ u.id → u.gone ≠ some k) := by
  dsimp only
  rcases upsertReportFragment_cases env now fragments id r with
    ⟨g, -, hu, -⟩ | ⟨k, f, hf, -, ⟨hu, -⟩ | ⟨g, -, hu⟩⟩ <;> rw [hu]
  · refine ⟨fun k f hk hf => ?_, fun h => (by cases h), fun k _ => by simp [FragmentUpsert.gone]⟩
    rwa [Table.get_insert, if_neg hk] at hf
  · exact ⟨fun _ _ _ hf => hf, fun _ => rfl, fun k _ => by simp [FragmentUpsert.gone]⟩
  · refine ⟨fun j e hj he => ?_, fun h => (by cases h), fun j hj => ?_⟩
    · rwa [Table.get_modify_of_ne _ _ (Ne.symm hj)] at he
    · simp [FragmentUpsert.gone, Ne.symm hj]

/-- Observing a report leaves no contention out. -/
theorem ObservationCourse.shared {id : Id} {r : Report} {detection : Option Detection}
    (h : ObservationCourse env now db (upsertReportFragment env now db.fragments id r) t detection)
    (htext : env.text.PlainLowercase) (hold : StandsOnReports env db) {reports : Table Report}
    (hnew : Resident env reports t.fragments)
    (hcontested : ∀ c k l f g, t.fragments.get k = some f → t.fragments.get l = some g →
      f.Contradicts g → CitesNow t.evidence c k → CitesNow t.evidence c l →
      contested env t.evidence c = true)
    {runs : List Id} (hruns : NoneMissed env db runs) {f g : InformationFragment}
    (hf : t.fragments.get k = some f) (hg : t.fragments.get l = some g) (hkl : k ≠ l)
    (hfw : f.status ≠ .withdrawn) (hgw : g.status ≠ .withdrawn) (hc : Contends env g f)
    (hlast : let u := upsertReportFragment env now db.fragments id r
      LastRecorded k l (if u.changed then u.id :: runs else runs)) : SharedCase t k l := by
  obtain ⟨hself, hstatus, -⟩ := upsert_spec env now db.fragments id r
  obtain ⟨hothers, hsame, hgone⟩ := @gone_or_fresh env now db.fragments id r
  have hcourse := h.reclassified hself hstatus
  obtain ⟨f₀, hf₀, hff⟩ := hcourse.left_of_some hf
  obtain ⟨g₀, hg₀, hgg⟩ := hcourse.left_of_some hg
  have hc₀ := hc.of_content hff.1 hgg.1
  have hfw₀ := mt hff.withdrawn_iff.mpr hfw
  have hgw₀ := mt hgg.withdrawn_iff.mpr hgw
  have hcase := hcontested
  replace hcontested := fun c => hcase c k l f g hf hg hc.claims
  obtain ⟨i, q, -, hof, -⟩ := hnew.reported l g hg
  have hclaim : g₀.HasClaim := by
    have hclaim := hof.claim
    rw [hgg.1] at hclaim
    exact hclaim
  generalize upsertReportFragment env now db.fragments id r = u at *
  -- the run for the fragment that is written finds the other one
  have hfound : l = u.id → ∃ call, detectedCall env u.fragments u.id u.fragment = some call ∧
      k ∈ call.fragments ∧ l ∈ call.fragments := by
    rintro rfl
    obtain rfl := Option.some.inj (hself.symm.trans hg₀)
    obtain ⟨i₀, q₀, -, hof₀, -⟩ := hold.resident.reported k f₀ (hothers k f₀ hkl hf₀)
    obtain ⟨hcomparable, hcontradicts⟩ := hc₀.found htext hclaim hfw₀ hof₀.status
    exact detectedCall_found hcomparable hf₀ hcontradicts hkl
  -- both were there before, unless one of them is the one that was written
  have hbefore : k ≠ u.id → l ≠ u.id → LastRecorded k l runs → SharedCase db.toStore k l := fun hk hl hlast =>
    hruns.shared k l f₀ g₀ (hothers k f₀ hk hf₀) (hothers l g₀ hl hg₀) hkl hfw₀ hgw₀ hlast hc₀
  cases h with
  | unchanged hchanged hb =>
    simp only [hchanged, Bool.false_eq_true, if_false] at hlast
    rw [hsame hchanged] at hf₀ hg₀
    refine (hruns.shared k l f₀ g₀ hf₀ hg₀ hkl hfw₀ hgw₀ hlast hc₀).losing _ hb.cases hb.evidence ?_ ?_ <;>
    · rw [gone_of_unchanged hchanged]
      nofun
  | undisputed hchanged hb hcall hids hr =>
    simp only [hchanged, if_true, lastRecorded_cons hkl] at hlast
    rcases hlast with hl | ⟨hk, hl, hlast⟩
    · obtain ⟨call, hsome, -⟩ := hfound hl.symm
      exact nomatch hcall.symm.trans hsome
    · exact ((hbefore (Ne.symm hk) (Ne.symm hl) hlast).losing _ hb.cases hb.evidence (hgone k (Ne.symm hk))
        (hgone l (Ne.symm hl))).reconciled hr hcontested
  | disputed hchanged hb hcall hd hids hr =>
    simp only [hchanged, if_true, lastRecorded_cons hkl] at hlast
    rcases hlast with hl | ⟨hk, hl, hlast⟩
    · obtain ⟨call', hsome, hk, hl⟩ := hfound hl.symm
      obtain rfl := Option.some.inj (hcall.symm.trans hsome)
      exact (SharedCase.detected hd hk hl).reconciled hr hcontested
    · exact (((hbefore (Ne.symm hk) (Ne.symm hl) hlast).losing _ hb.cases hb.evidence (hgone k (Ne.symm hk))
        (hgone l (Ne.symm hl))).called hd).reconciled hr hcontested

theorem Op.written_of_upsert (h : op.upsert env db = some u) :
    op.written env db = if u.changed then [u.id] else [] := by
  unfold Op.written
  rw [h]
  cases hu : u.changed <;> simp [hu]

theorem Op.written_of_not_observes (h : op.observes db = false) : op.written env db = [] := by
  simp [Op.written, Op.upsert, h]

variable {runs : List Id}

theorem NoneMissed.covers {id : Id} {r : Report} (hruns : NoneMissed env db runs) {f : InformationFragment}
    (hf : (upsertReportFragment env now db.fragments id r).fragments.get k = some f) :
    let u := upsertReportFragment env now db.fragments id r
    k ∈ if u.changed then u.id :: runs else runs := by
  obtain ⟨hothers, hsame, -⟩ := @gone_or_fresh env now db.fragments id r
  dsimp only at *
  split_ifs with hchanged
  · by_cases hk : k = (upsertReportFragment env now db.fragments id r).id
    · exact hk ▸ List.mem_cons_self
    · exact List.mem_cons_of_mem _ (hruns.covered k f (hothers k f hk hf))
  · rw [hsame ((Bool.not_eq_true _).mp hchanged)] at hf
    exact hruns.covered k f hf

theorem NoneMissed.untouched (hruns : NoneMissed env db runs) (q : db.toStore.Untouched o.db.toStore) :
    NoneMissed env o.db runs := by
  have hfragments : o.db.fragments = db.fragments := q.fragments
  have hcases : o.db.cases = db.cases := q.cases
  have hevidence : o.db.evidence = db.evidence := q.evidence
  refine ⟨fun k f hf => hruns.covered k f (hfragments ▸ hf), fun k l f g hf hg hkl hfw hgw hlast hc => ?_⟩
  rw [hfragments] at hf hg
  rw [SharedCase, hcases, hevidence]
  exact hruns.shared k l f g hf hg hkl hfw hgw hlast hc

theorem NoneMissed.course (hruns : NoneMissed env db runs) (h : ReportCourse env db op o)
    (htext : env.text.PlainLowercase) (hold : StandsOnReports env db) (hnew : StandsOnReports env o.db) :
    NoneMissed env o.db (op.written env db ++ runs) := by
  have hcontested : ∀ c k l f g, o.db.fragments.get k = some f → o.db.fragments.get l = some g →
      f.Contradicts g → CitesNow o.db.evidence c k → CitesNow o.db.evidence c l →
      contested env o.db.evidence c = true := fun c k l f g hf hg hfg hk hl =>
    (hnew.contested_iff htext c).mpr ⟨k, l, f, g, hk, hf, hl, hg, hfg⟩
  cases h with
  | @observed u hu hcourse =>
    obtain ⟨id, r, -, rfl⟩ := Op.upsert_some hu
    have hwritten : op.written env db ++ runs =
        if (upsertReportFragment env op.now db.fragments id r).changed then
          (upsertReportFragment env op.now db.fragments id r).id :: runs else runs := by
      rw [Op.written_of_upsert hu]
      split_ifs <;> rfl
    obtain ⟨hself, hstatus, -⟩ := upsert_spec env op.now db.fragments id r
    rw [hwritten]
    refine ⟨fun k f hf => ?_, fun k l f g hf hg hkl hfw hgw hlast hc => ?_⟩
    · obtain ⟨f₀, hf₀, -⟩ := (hcourse.reclassified hself hstatus).left_of_some hf
      exact hruns.covers hf₀
    · exact hcourse.shared htext hold hnew.resident hcontested hruns hf hg hkl hfw hgw hc hlast
  | deactivated hdeactivates hcourse _ =>
    rw [Op.written_of_not_observes (Op.not_observes_of_deactivates hdeactivates), List.nil_append]
    cases hdropped : op.dropped env db with
    | none =>
      rw [hdropped] at hcourse
      cases hcourse with
      | absent q => exact hruns.untouched q
    | some p =>
      rw [hdropped] at hcourse
      cases hcourse with
      | @withdrawn j e s ids he hcases hfr hevidence hids hr =>
        have hback : ∀ k f, o.db.fragments.get k = some f → f.status ≠ .withdrawn →
            k ≠ j ∧ ∃ f₀, db.fragments.get k = some f₀ ∧ f₀.Reclassified f := by
          intro k f hf hfw
          obtain ⟨f₀, hf₀, hff⟩ := hr.reclassified.left_of_some hf
          rw [hfr] at hf₀
          rcases Table.get_modify_cases hf₀ with ⟨-, -, -, rfl⟩ | ⟨hne, hf₀⟩
          · exact absurd (hff.withdrawn_iff.mpr (withdrawFragment_status op.now e)) hfw
          · exact ⟨Ne.symm hne, f₀, hf₀, hff⟩
        refine ⟨fun k f hf => ?_, fun k l f g hf hg hkl hfw hgw hlast hc => ?_⟩
        · obtain ⟨f₀, hf₀, -⟩ := hr.reclassified.left_of_some hf
          rw [hfr] at hf₀
          rcases Table.get_modify_cases hf₀ with ⟨rfl, f₁, hf₁, -⟩ | ⟨-, hf₀⟩
          · exact hruns.covered _ f₁ hf₁
          · exact hruns.covered k f₀ hf₀
        · obtain ⟨hkj, f₀, hf₀, hff⟩ := hback k f hf hfw
          obtain ⟨hlj, g₀, hg₀, hgg⟩ := hback l g hg hgw
          have hshared := hruns.shared k l f₀ g₀ hf₀ hg₀ hkl (mt hff.withdrawn_iff.mpr hfw)
            (mt hgg.withdrawn_iff.mpr hgw) hlast (hc.of_content hff.1 hgg.1)
          refine (hshared.losing (some j) hcases hevidence ?_ ?_).reconciled hr
            fun c => hcontested c k l f g hf hg hc.claims
          · exact fun heq => hkj (Option.some.inj heq).symm
          · exact fun heq => hlj (Option.some.inj heq).symm
  | untouched hobserves q _ =>
    rw [Op.written_of_not_observes hobserves, List.nil_append]
    exact hruns.untouched q

end Steps

section Runs
variable (env : Env) (incidents : Table Incident) (devices : Table AnonymousDevice)
  (attachments : Table Attachment)

theorem step_noneMissed (htext : env.text.PlainLowercase) {db : Db} {op : Op} {runs : List Id}
    (h : StandsOnReports env db ∧ NoneMissed env db runs) (hop : op.call.isReportOperation = true) :
    StandsOnReports env (step env db op) ∧
      NoneMissed env (step env db op) (op.detectionRuns env db ++ runs) := by
  refine ⟨step_standsOnReports env h.1 hop, ?_⟩
  unfold Op.detectionRuns
  cases ho : transact env db op with
  | error e =>
    have hsame : step env db op = db := by simp [step, ho, Functor.map, Except.map]
    rw [hsame]
    exact h.2
  | ok o =>
    have hnew := step_standsOnReports env h.1 hop
    rw [step_of_ok ho] at hnew ⊢
    have hbegin : StandsOnReports env db.begin :=
      ⟨h.1.resident, h.1.mirrored, h.1.standing.closed, h.1.standing.contested⟩
    have hnone : NoneMissed env db.begin _ := ⟨h.2.covered, h.2.shared⟩
    exact hnone.course (handle_course ho hop) htext hbegin hnew

theorem reached_noneMissed (htext : env.text.PlainLowercase) {ops : List Op} (hops : OnReports ops) :
    NoneMissed env (reached env incidents devices attachments ops)
      (records (step env) (Op.detectionRuns env) (Db.initial incidents devices attachments) ops) :=
  (records_invariant (step env) (Op.detectionRuns env)
    (I := fun db runs => StandsOnReports env db ∧ NoneMissed env db runs)
    (fun _ _ _ h hop => step_noneMissed env htext h hop)
    ⟨initial_standsOnReports env incidents devices attachments,
      fun _ _ h => (nomatch h), fun _ _ _ _ h => (nomatch h)⟩
    (along_onReports env hops _)).2

end Runs
/-- The report a fragment was made from. -/
def Db.reportOf (db : Db) (f : InformationFragment) : Option Report := f.sourceRefId.bind db.reports.get

/-- The devices reports come from. -/
def Db.reporters (db : Db) : Set Id := {d | ∃ i r, db.reports.get i = some r ∧ r.reporterDeviceId = d}

/-- The fragments `f` of `r` and `g` of `s` are in conflict, as the detection run of `g` evaluates
their times and places. -/
structure Clash (env : Env) (r s : Report) (f g : InformationFragment) : Prop where
  live : r.isLive = true ∧ s.isLive = true
  devices : r.reporterDeviceId ≠ s.reporterDeviceId
  incident : f.incidentId = g.incidentId
  topic : f.topic = g.topic
  claimed : f.claimValue ≠ none ∧ g.claimValue ≠ none
  known : f.claimValue ≠ some "unknown" ∧ g.claimValue ≠ some "unknown"
  different : f.claimValue ≠ g.claimValue
  window : |g.time - f.time| ≤ hours env.settings.conflictWindowHours
  place : likelySamePlace env f.place g.place = true

section Clash
variable {env : Env} {db : Db} {r s : Report} {f g : InformationFragment} {k l : Id}

theorem Resident.of_reportOf (h : Resident env db.reports db.fragments) (hf : db.fragments.get k = some f)
    (hr : db.reportOf f = some r) : ∃ i, db.reports.get i = some r ∧ f.IsOf env i r ∧
      (r.isLive = true → f.status ≠ .withdrawn) := by
  obtain ⟨i, r', hi, hof, hlive⟩ := h.reported k f hf
  rw [Db.reportOf, hof.sourceRef, Option.bind_some, hi] at hr
  obtain rfl := Option.some.inj hr
  exact ⟨i, hi, hof, hlive⟩

theorem InformationFragment.HasClaim.concrete (h : f.HasClaim) (hsome : f.claimValue ≠ none)
    (hknown : f.claimValue ≠ some "unknown") : ∃ v ∈ concreteValues, f.claimValue = some v := by
  rcases h with ⟨-, hnone⟩ | ⟨v, hv, hvalue, -⟩
  · exact absurd hnone hsome
  · refine ⟨v, hvalue.resolve_left ?_, hv⟩
    rintro rfl
    exact hknown hv

/-- Reports of devices with different pseudonyms are different sources. -/
theorem Clash.contends (h : Clash env r s f g) {i j : Id} (hf : f.IsOf env i r) (hg : g.IsOf env j s)
    (hi : db.reports.get i = some r) (hj : db.reports.get j = some s)
    (hpseudonyms : Set.InjOn (reporterCluster env) db.reporters) : Contends env g f := by
  have hclusters : reporterCluster env r.reporterDeviceId ≠ reporterCluster env s.reporterDeviceId :=
    fun heq => h.devices (hpseudonyms ⟨i, r, hi, rfl⟩ ⟨j, s, hj, rfl⟩ heq)
  have hids : i ≠ j := by
    rintro rfl
    exact h.devices (congrArg Report.reporterDeviceId (Option.some.inj (hi.symm.trans hj)))
  obtain ⟨v, hv, hfv⟩ := hf.claim.concrete h.claimed.1 h.known.1
  obtain ⟨w, hw, hgw⟩ := hg.claim.concrete h.claimed.2 h.known.2
  have hne : v ≠ w := fun heq => h.different (by rw [hfv, hgw, heq])
  refine ⟨h.incident, h.topic, ⟨⟨v, hv, w, hw, hfv, hgw, hne⟩, ?_⟩, h.window, h.place⟩
  rw [← Bool.not_eq_true, fragmentsShareSource_iff hf.sourceRef hg.sourceRef hids]
  intro hidentity
  unfold InformationFragment.identity at hidentity
  rw [hf.cluster, hg.cluster] at hidentity
  split_ifs at hidentity
  · exact hclusters (by simpa using hidentity)
  · simp only [Sum.inr.injEq, Prod.mk.injEq] at hidentity
    exact hids hidentity.2

end Clash

namespace Sample

/-- Two devices with the pseudonyms a keyed hash gives them. -/
def pseudonymEnv : Env :=
  { env with
    hmac := fun _ device => if device = 0 then "b613679a0814d9ec772f95d778c35fc5ff1697c493715653c6c712144292c5ad"
      else "5feceb66ffc86f38d952786c6d696c79c2dbc239dd4e91b46729d73a27fb57e9" }

end Sample

end CrisisMosaic
