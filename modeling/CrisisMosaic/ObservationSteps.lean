import CrisisMosaic.ReportObservations
import CrisisMosaic.Transactions

/-!
# What observing a report does

Processing leaves the report with one fragment that is not withdrawn;
deactivating leaves it with none that is not. Both are transactions that work on
the store in the sense of `Store.Works`.
-/

namespace CrisisMosaic
open Relational

/-- The cases a detection opened. -/
def openedBy (detection : Option Detection) (c : Id) : Prop :=
  ∃ d, detection = some d ∧ c = d.conflictId ∧ d.opened = true

theorem openedBy_none : openedBy none = fun _ => False := by
  funext c
  simp [openedBy]

/-- The detection was made while the cases and facts were those of `s`. -/
structure Detection.Of (env : Env) (now : Time) (s : Store) (d : Detection) : Prop where
  made : ∃ sources, callFindOrOpen env now sources d.before d.call = .ok d
  cases : d.before.cases = s.cases
  facts : d.before.facts = s.facts

/-- Afterwards `k` is the fragment of the report, and it is not withdrawn. -/
structure Observes (reportId incidentId : Id) (k : Id) (a b : Table InformationFragment) : Prop where
  others : ∀ j g, j ≠ k → b.get j = some g → InformationFragment.Calm (a.get j) g
  observed : ∃ g, b.get k = some g ∧ isReportFragment incidentId reportId g = true ∧
    g.status ≠ .withdrawn
  before : (∀ j f, a.get j = some f → isReportFragment incidentId reportId f = false) ∨
    ∃ f, a.get k = some f ∧ isReportFragment incidentId reportId f = true

/-- Afterwards the fragment of the report, if it has one, is withdrawn. -/
inductive Withdraws (reportId incidentId : Id) (a b : Table InformationFragment) : Prop
  | absent : (∀ j f, a.get j = some f → isReportFragment incidentId reportId f = false) → b = a →
      Withdraws reportId incidentId a b
  | found {k : Id} {f g : InformationFragment} : a.get k = some f →
      isReportFragment incidentId reportId f = true → b.get k = some g → f.Follows g →
      g.status = .withdrawn →
      (∀ j h, j ≠ k → b.get j = some h → InformationFragment.Calm (a.get j) h) →
      Withdraws reportId incidentId a b

section Upsert
variable (env : Env) (now : Time) (fragments : Table InformationFragment) (reportId : Id)
  (report : Report)

/-- The three ways an upsert goes. -/
theorem upsertReportFragment_cases :
    let u := upsertReportFragment env now fragments reportId report
    (∃ g, g = observe env reportId report (newFragment now) ∧
        u = ⟨fragments.insert g, fragments.size, g, true, true⟩ ∧
        ∀ j f, fragments.get j = some f → isReportFragment report.incidentId reportId f = false) ∨
      ∃ k f, fragments.get k = some f ∧ isReportFragment report.incidentId reportId f = true ∧
        (u = ⟨fragments, k, f, false, false⟩ ∧ f.status ≠ .withdrawn ∧
            observe env reportId report f = f ∨
          ∃ g, g = refresh env now reportId report f ∧
            u = ⟨fragments.modify k fun _ => g, k, g, false, true⟩) := by
  unfold upsertReportFragment
  cases hfind : fragments.find (isReportFragment report.incidentId reportId) with
  | none => exact Or.inl ⟨_, rfl, rfl, fun j f hf => Table.find_none hfind hf⟩
  | some r =>
    obtain ⟨k, f⟩ := r
    obtain ⟨hf, hp⟩ := Table.find_some hfind
    refine Or.inr ⟨k, f, hf, hp, ?_⟩
    dsimp only
    split_ifs with hsame
    · exact Or.inl ⟨rfl, hsame⟩
    · exact Or.inr ⟨_, rfl, rfl⟩

theorem refresh_status (f : InformationFragment) :
    (refresh env now reportId report f).status ≠ .withdrawn := by
  simp only [refresh]
  split_ifs with h
  · decide
  · simp only [Bool.or_eq_true, decide_eq_true_eq, not_or] at h
    exact h.1

theorem refresh_source (f : InformationFragment) :
    isReportFragment report.incidentId reportId (refresh env now reportId report f) = true :=
  isReportFragment_iff.mpr ⟨rfl, rfl, rfl⟩

variable {fragments reportId report}

theorem refresh_follows {f : InformationFragment}
    (h : isReportFragment report.incidentId reportId f = true) :
    f.Follows (refresh env now reportId report f) := by
  obtain ⟨hi, ht, hr⟩ := isReportFragment_iff.mp h
  exact ⟨hi.symm, ht.symm, hr.symm, Nat.le_succ _⟩

/-- The fragment whose evidence the upsert makes stale. -/
def FragmentUpsert.gone (u : FragmentUpsert) : Option Id :=
  if u.changed && !u.created then some u.id else none

theorem upsert_spec (fragments : Table InformationFragment) (reportId : Id) (report : Report) :
    let u := upsertReportFragment env now fragments reportId report
    u.fragments.get u.id = some u.fragment ∧ u.fragment.status ≠ .withdrawn ∧
      fragments.Evolves Store.FragmentStep u.fragments ∧
      (∀ f g, u.gone = some u.id → fragments.get u.id = some f → u.fragments.get u.id = some g →
        f.revision < g.revision) ∧
      ∀ t : Table InformationFragment, CalmFragments u.fragments t →
        Observes reportId report.incidentId u.id fragments t := by
  have hcalm : ∀ {a t : Table InformationFragment} {k : Id} {g : InformationFragment},
      a.get k = some g → isReportFragment report.incidentId reportId g = true →
      g.status ≠ .withdrawn → CalmFragments a t → ∃ g', t.get k = some g' ∧
        isReportFragment report.incidentId reportId g' = true ∧ g'.status ≠ .withdrawn := by
    intro a t k g hg hp hs ht
    obtain ⟨g', hg', hfg, hw⟩ := ht.get_some hg
    obtain ⟨h₁, h₂, h₃⟩ := isReportFragment_iff.mp hp
    exact ⟨g', hg', isReportFragment_iff.mpr ⟨hfg.incident.trans h₁, hfg.sourceType.trans h₂,
      hfg.sourceRef.trans h₃⟩, fun h => hs (hw.mp h)⟩
  rcases upsertReportFragment_cases env now fragments reportId report with
    ⟨g, rfl, hu, hno⟩ | ⟨k, f, hf, hp, ⟨hu, hs, -⟩ | ⟨g, rfl, hu⟩⟩
  · have hsource : isReportFragment report.incidentId reportId
        (observe env reportId report (newFragment now)) = true :=
      isReportFragment_iff.mpr ⟨rfl, rfl, rfl⟩
    have hstatus : (observe env reportId report (newFragment now)).status ≠ .withdrawn := by
      simp [observe, newFragment]
    rw [hu]
    refine ⟨Table.get_insert_size _ _, hstatus,
      (Table.Evolves.refl Store.FragmentStep.refl _).insert fun h => absurd h hstatus, ?_, ?_⟩
    · intro f g hg
      simp [FragmentUpsert.gone] at hg
    · intro t ht
      refine ⟨fun j h hj hh => ?_, hcalm (Table.get_insert_size _ _) hsource hstatus ht, Or.inl hno⟩
      have := ht.rows j h hh
      rwa [Table.get_insert, if_neg hj] at this
  · rw [hu]
    refine ⟨hf, hs, .refl Store.FragmentStep.refl _, fun _ _ hg => by simp [FragmentUpsert.gone] at hg,
      fun t ht => ⟨fun j h _ hh => ht.rows j h hh, hcalm hf hp hs ht, Or.inr ⟨f, hf, hp⟩⟩⟩
  · have hs := refresh_status env now reportId report f
    have hnew : (fragments.modify k fun _ => refresh env now reportId report f).get k =
        some (refresh env now reportId report f) := by simp [hf]
    rw [hu]
    refine ⟨hnew, hs, ?_, ?_, ?_⟩
    · refine (Table.Evolves.refl Store.FragmentStep.refl _).modify fun f' hf' _ => ?_
      obtain rfl : f = f' := Option.some.inj (hf.symm.trans hf')
      rw [hf]
      exact ⟨refresh_follows env now hp, fun hr => by simp [refresh] at hr, fun h => absurd h hs⟩
    · intro f' g' _ hf' hg'
      obtain rfl : f = f' := Option.some.inj (hf.symm.trans hf')
      rw [← Option.some.inj (hnew.symm.trans hg')]
      exact Nat.lt_succ_self _
    · intro t ht
      refine ⟨fun j h hj hh => ?_, hcalm hnew (refresh_source env now reportId report f) hs ht,
        Or.inr ⟨f, hf, hp⟩⟩
      have := ht.rows j h hh
      rwa [Table.get_modify_of_ne _ _ (Ne.symm hj)] at this

end Upsert

section Quiet
variable (env : Env) (now : Time)
open Store

theorem withSpotBoard_quiet (db : Db) {b : SpotBoard} (h : db.spotBoard.Quiet b) :
    db.toStore.Quiet (db.withSpotBoard b).toStore :=
  ⟨h.features, h.analyses, rfl, rfl, rfl, rfl⟩

theorem deactivateSpots_quiet (db : Db) (incidentId fragmentId : Id) (f : InformationFragment)
    (reason : String) :
    db.toStore.Quiet (deactivateSpots env now db incidentId fragmentId f reason).toStore :=
  withSpotBoard_quiet db
    (deactivateAutomaticBlindSpots_draws env now incidentId _ _ fragmentId f reason _).quiet

theorem scheduleBlindSpot_quiet (db : Db) (incidentId fragmentId : Id) (f : InformationFragment) :
    db.toStore.Quiet (scheduleBlindSpot env now db incidentId fragmentId f).toStore := by
  unfold scheduleBlindSpot
  dsimp only
  split_ifs
  · exact withSpotBoard_quiet { db with jobs := _ }
      (runReportBlindSpotDetection_draws env now _ _ _ incidentId fragmentId _ _ _).quiet
  · exact .refl db.toStore
  · exact .refl db.toStore

theorem publishFragment_quiet (s : Store) (incidentId fragmentId : Id) (eventType : String) :
    s.Quiet (publishFragment env now s incidentId fragmentId eventType) := by
  unfold publishFragment
  split
  · exact .refl s
  · exact (features_quiet s (upsertFragmentMapFeature_factSilent env now _ _ _)).trans
      (emit_quiet _ now incidentId _)

theorem projectCited_factSilent (s : Store) (conflictId : Id) :
    FactSilent s.features (projectCited env now s conflictId) := by
  unfold projectCited
  refine FactSilent.foldl (fun features id => ?_) _ s.features
  split
  · split_ifs
    · exact upsertFragmentMapFeature_factSilent env now features id _
    · exact .refl features
  · exact .refl features

theorem publishDetected_quiet (s : Store) (incidentId conflictId : Id) (opened announced : Bool) :
    s.Quiet (publishDetected env now s incidentId conflictId opened announced) := by
  unfold publishDetected
  split
  · exact .refl s
  · next x _ =>
    have hcase := features_quiet s (upsertConflictMapFeature_factSilent env now s.features s.fragments
      s.evidence conflictId x)
    have hcited := hcase.trans (features_quiet _ (projectCited_factSilent env now _ conflictId))
    cases announced with
    | true => exact hcited.trans (emit_quiet _ now incidentId _)
    | false => exact hcited

end Quiet

section Settle
variable (env : Env) (now : Time) (incidentId : Id) (asked : Asked) {b s v : Store} {gone : Option Id}
  {reopens : Id → Prop}
open Store

/-- What the rewriting withdrew from the cases. -/
def lostEvidence (b : Store) (gone : Option Id) : List Withdrawal :=
  gone.elim [] (withdrawals b.cases b.evidence)

theorem lostEvidence_from (b : Store) (gone : Option Id) :
    WithdrawnFrom b.cases (lostEvidence b gone) := by
  cases gone with
  | none => exact ⟨fun _ hw => (nomatch hw), fun _ hw => (nomatch hw)⟩
  | some k => exact withdrawals_from b.cases b.evidence k

/-- Reconciling every case that lost evidence ends the transaction. -/
theorem reconcileConflicts_settles (hm : b.Rewrites gone s) (hwf : s.facts.WellFormed)
    (hv : s.Advances reopens v) (hsize : s.evidence.size ≤ v.evidence.size)
    (hrows : ∀ t : Store, t.evidence = v.evidence → v.board.Reviewed t.board → v.Grows t →
      CalmFragments s.fragments t.fragments →
      ∀ i e, t.evidence.get i = some e → RowStep s t asked i (s.evidence.get i) e)
    (ids : List Id) (hids : ∀ w ∈ lostEvidence b gone, w.conflictId ∈ ids) :
    b.Settles gone s asked reopens
      (reconcileConflicts env now incidentId (lostEvidence b gone) v ids) := by
  have hw : WithdrawnFrom s.cases (lostEvidence b gone) := hm.cases ▸ lostEvidence_from b gone
  obtain ⟨h₁, h₂, h₃, h₄, h₅⟩ := reconcileConflicts_advances env now incidentId hv hwf hw ids
  refine ⟨h₁, hrows _ h₂ h₃ h₄ h₁.fragments, hsize.trans (by rw [h₂]), ?_⟩
  rintro k rfl w hw'
  obtain ⟨hy, hd⟩ := h₅ w hw' (hids w hw')
  exact ⟨hy, fun x hx => hd x (hm.cases ▸ hx)⟩

theorem settleObservation_settles (hm : b.Rewrites gone s) (hs : s.Sound) {fragmentId : Id}
    {f : InformationFragment} {sources : Sources} {detection : Option Detection}
    (hdetect : detectStructuredFragmentConflict env now sources s fragmentId f = .ok detection)
    (hf : s.fragments.get fragmentId = some f) (hstatus : f.status ≠ .withdrawn) (created : Bool) :
    b.Settles gone s asked (openedBy detection)
      (settleObservation env now s incidentId fragmentId created (lostEvidence b gone) detection) := by
  have hlost : ∀ w ∈ lostEvidence b gone, w.conflictId ∈ (lostEvidence b gone).map (·.conflictId) :=
    fun w hw => List.mem_map_of_mem hw
  unfold settleObservation
  cases detection with
  | none =>
    have hq := publishFragment_quiet env now s incidentId fragmentId
      (if created then "fragment.created" else "fragment.updated")
    refine reconcileConflicts_settles env now incidentId asked hm hs.facts (hq.advances _)
      (by rw [hq.evidence]) (fun t ht _ _ _ i e he => ?_) _ hlost
    rw [ht, hq.evidence] at he
    exact he ▸ .kept e
  | some d =>
    obtain ⟨hids, hcall⟩ := detect_spec hdetect hs.facts hf hstatus
    have hq := (publishFragment_quiet env now d.after incidentId fragmentId
      (if created then "fragment.created" else "fragment.updated")).trans
        (publishDetected_quiet env now _ incidentId d.conflictId d.opened
          (d.opened || !((lostEvidence b gone).map (·.conflictId)).contains d.conflictId))
    have hadv : s.Advances (openedBy (some d)) d.after :=
      hcall.advances.mono fun c hc => ⟨d, rfl, hc.1, hc.2⟩
    refine reconcileConflicts_settles env now incidentId asked hm hs.facts (hadv.quiet hq)
      ?_ (fun t ht hb hg hfr => ?_) _ fun w hw => List.mem_append_left _ (hlost w hw)
    · rw [hq.evidence]
      exact hcall.added.size
    · exact rows_of_call hs.upToDate hids hcall (ht.trans hq.evidence)
        ((hq.advances fun _ => False).board.trans hb) (hq.grows.trans hg) hfr

end Settle

section Process
variable (env : Env) (now : Time)
open Store

/-- The rewriting half of processing a report. -/
def observedStore (db : Db) (u : FragmentUpsert) : Store :=
  { db.toStore with
    fragments := u.fragments
    evidence := u.gone.elim db.evidence (invalidateFragmentEvidence db.evidence) }

theorem observedStore_rewrites (db : Db) (reportId : Id) (report : Report) :
    let u := upsertReportFragment env now db.fragments reportId report
    db.toStore.Rewrites u.gone (observedStore db u) := by
  obtain ⟨hstored, hstatus, hstep, hpast, hobs⟩ := upsert_spec env now db.fragments reportId report
  exact
    { features := .refl _
      analyses := .refl _
      cases := rfl
      facts := rfl
      fragments := hstep
      evidence := rfl
      past := by
        intro k f g hk hf hg
        have hid : (upsertReportFragment env now db.fragments reportId report).id = k := by
          unfold FragmentUpsert.gone at hk
          split_ifs at hk
          exact Option.some.inj hk
        subst hid
        exact Or.inl (hpast f g hk hf hg)
      withdrew := by
        intro k f g hf hg hw
        by_cases hid : k = (upsertReportFragment env now db.fragments reportId report).id
        · subst hid
          exact absurd (Option.some.inj (hstored.symm.trans hg) ▸ hw) hstatus
        · have hcalm := (hobs _ (.refl .refl _)).others k g hid hg
          rw [hf] at hcalm
          exact Or.inl (hcalm.2.mp hw) }

/-- The store the detection is made on. -/
def beforeDetection (db : Db) (incidentId : Id) (u : FragmentUpsert) : Db :=
  let db := { db with fragments := u.fragments }
  let db := if u.changed && !u.created then
    deactivateSpots env now
      { db with evidence := invalidateFragmentEvidence db.evidence u.id }
      incidentId u.id u.fragment "source_report_updated"
    else db
  scheduleBlindSpot env now db incidentId u.id u.fragment

theorem beforeDetection_quiet (db : Db) (incidentId : Id) (u : FragmentUpsert) :
    (observedStore db u).Quiet (beforeDetection env now db incidentId u).toStore := by
  refine Quiet.trans ?_ (scheduleBlindSpot_quiet env now _ incidentId u.id u.fragment)
  unfold observedStore FragmentUpsert.gone
  by_cases hstale : (u.changed && !u.created) = true
  · rw [if_pos hstale, if_pos hstale]
    exact deactivateSpots_quiet env now { db with
      fragments := u.fragments
      evidence := invalidateFragmentEvidence db.evidence u.id } incidentId u.id u.fragment _
  · rw [if_neg hstale, if_neg hstale]
    exact .refl _

theorem deactivateSpots_reports (db : Db) (incidentId fragmentId : Id) (f : InformationFragment)
    (reason : String) :
    (deactivateSpots env now db incidentId fragmentId f reason).reports = db.reports := rfl

theorem scheduleBlindSpot_reports (db : Db) (incidentId fragmentId : Id)
    (f : InformationFragment) :
    (scheduleBlindSpot env now db incidentId fragmentId f).reports = db.reports := by
  unfold scheduleBlindSpot
  dsimp only
  split_ifs <;> rfl

theorem beforeDetection_reports (db : Db) (incidentId : Id) (u : FragmentUpsert) :
    (beforeDetection env now db incidentId u).reports = db.reports := by
  unfold beforeDetection
  dsimp only
  rw [scheduleBlindSpot_reports]
  split_ifs <;> rfl

theorem processReportObservation_eq (db : Db) (reportId : Id) (report : Report) :
    processReportObservation env now db reportId report =
      let u := upsertReportFragment env now db.fragments reportId report
      let db₁ := beforeDetection env now db report.incidentId u
      if !u.changed then pure (db₁, none)
      else (do
        let detection ← detectStructuredFragmentConflict env now db₁.sources db₁.toStore u.id u.fragment
        let s := settleObservation env now db₁.toStore report.incidentId u.id u.created
          (lostEvidence db.toStore u.gone) detection
        let db₂ := { db₁ with toStore := s }
        pure (db₂.withSpotBoard (resolveAutomaticBlindSpots env now report.incidentId u.id u.fragment
          detection.isSome db₂.spotBoard), detection)) := by
  unfold processReportObservation beforeDetection lostEvidence FragmentUpsert.gone
  dsimp only
  by_cases hstale : ((upsertReportFragment env now db.fragments reportId report).changed &&
      !(upsertReportFragment env now db.fragments reportId report).created) = true
  · simp only [if_pos hstale]
    rfl
  · simp only [if_neg hstale]
    rfl

/-- What a transaction that observed a report did. -/
structure Observed (env : Env) (now : Time) (db db' : Db) (reportId incidentId : Id)
    (detection : Option Detection) : Prop where
  works : db.toStore.Works .nothing (openedBy detection) db'.toStore
  fragment : ∃ k, Observes reportId incidentId k db.fragments db'.fragments
  reports : db'.reports = db.reports
  detected : ∀ d, detection = some d → d.Of env now db.toStore

theorem processReportObservation_spec {db db' : Db} {reportId : Id} {report : Report}
    {detection : Option Detection}
    (h : processReportObservation env now db reportId report = .ok (db', detection))
    (hs : db.toStore.Sound) :
    Observed env now db db' reportId report.incidentId detection := by
  obtain ⟨hstored, hstatus, -, -, hobs⟩ := upsert_spec env now db.fragments reportId report
  have hrw := observedStore_rewrites env now db reportId report
  rw [processReportObservation_eq] at h
  dsimp only at h hrw hstored hstatus hobs
  generalize upsertReportFragment env now db.fragments reportId report = u at *
  have hq := beforeDetection_quiet env now db report.incidentId u
  have hreports := beforeDetection_reports env now db report.incidentId u
  have hmid := hrw.quiet hq
  generalize beforeDetection env now db report.incidentId u = db₁ at *
  have hfrag : db₁.fragments = u.fragments := hq.fragments
  cases hchanged : u.changed with
  | false =>
    simp only [hchanged, Bool.not_false, if_true, pure_ok, Prod.mk.injEq] at h
    obtain ⟨rfl, rfl⟩ := h
    have hgone : u.gone = none := by simp [FragmentUpsert.gone, hchanged]
    rw [hgone] at hmid
    exact
      { works := hmid.works hs.upToDate (.refl _ _ _)
        fragment := ⟨u.id, hobs _ (hfrag ▸ .refl .refl _)⟩
        reports := hreports
        detected := fun _ hd => by cases hd }
  | true =>
    simp only [hchanged, Bool.not_true, Bool.false_eq_true, if_false, bind_ok, pure_ok,
      Prod.mk.injEq] at h
    obtain ⟨det, hdet, rfl, rfl⟩ := h
    have hset := settleObservation_settles env now report.incidentId .nothing hmid
      (hmid.sound hs) hdet (hfrag ▸ hstored) hstatus u.created
    have hlast := withSpotBoard_quiet { db₁ with
      toStore := settleObservation env now db₁.toStore report.incidentId u.id u.created
        (lostEvidence db.toStore u.gone) det } (resolveAutomaticBlindSpots_draws env now
          report.incidentId u.id u.fragment det.isSome _).quiet
    have hend := hset.quiet hlast
    exact
      { works := hmid.works hs.upToDate hend
        fragment := ⟨u.id, hobs _ (hfrag ▸ hend.advances.fragments)⟩
        reports := hreports
        detected := by
          rintro d rfl
          obtain ⟨call, -, hmade⟩ := detect_ok hdet
          obtain ⟨hc, hb, -⟩ := callFindOrOpen_ok hmade
          exact ⟨⟨db₁.sources, by rw [hb, hc]; exact hmade⟩, by rw [hb]; exact hmid.cases,
            by rw [hb]; exact hmid.facts⟩ }

theorem withdrawFragment_status (f : InformationFragment) :
    (withdrawFragment now f).status = .withdrawn := by
  unfold withdrawFragment
  split_ifs with h
  · exact h
  · rfl

theorem withdrawFragment_follows (f : InformationFragment) : f.Follows (withdrawFragment now f) := by
  unfold withdrawFragment
  split_ifs
  · exact .refl f
  · exact ⟨rfl, rfl, rfl, Nat.le_succ _⟩

/-- The rewriting half of deactivating a report with the fragment `f`. -/
def withdrawnStore (db : Db) (id : Id) (f : InformationFragment) : Db :=
  { db with
    evidence := invalidateFragmentEvidence db.evidence id
    jobs := cancelBlindSpotJobs now db.jobs id none
    fragments := db.fragments.modify id fun _ => withdrawFragment now f
    features := upsertFragmentMapFeature env now db.features id (withdrawFragment now f) }

theorem withdrawnStore_rewrites {db : Db} {id : Id} {f : InformationFragment}
    (hf : db.fragments.get id = some f) (ht : f.sourceType = .residentReport) :
    db.toStore.Rewrites (some id) (withdrawnStore env now db id f).toStore where
  features := upsertFragmentMapFeature_factSilent env now _ _ _
  analyses := .refl _
  cases := rfl
  facts := rfl
  fragments := by
    refine (Table.Evolves.refl FragmentStep.refl _).modify fun g hg _ => ?_
    obtain rfl : f = g := Option.some.inj (hf.symm.trans hg)
    rw [hf]
    have hfollows := withdrawFragment_follows now f
    exact ⟨hfollows, fun _ _ => withdrawFragment_status now f,
      fun _ => Or.inr (hfollows.sourceType.trans ht)⟩
  evidence := rfl
  past := by
    intro k f' g hk hf' hg
    obtain rfl := Option.some.inj hk
    simp only [withdrawnStore, Table.get_modify_self, hf, Option.map_some, Option.some.injEq] at hg
    exact Or.inr (hg ▸ withdrawFragment_status now f)
  withdrew := by
    intro k f' g hf' hg hw
    rcases Table.get_modify_cases hg with ⟨rfl, -⟩ | ⟨-, hg⟩
    · exact Or.inr rfl
    · exact Or.inl (Option.some.inj (hf'.symm.trans hg) ▸ hw)

/-- What a transaction that deactivated a report did. -/
structure Deactivated (db db' : Db) (reportId incidentId : Id) : Prop where
  works : db.toStore.Works .nothing (fun _ => False) db'.toStore
  fragment : Withdraws reportId incidentId db.fragments db'.fragments
  reports : db'.reports = db.reports

theorem deactivateReportObservation_spec {db : Db} (hs : db.toStore.Sound) (reportId : Id)
    (report : Report) (reason : String) :
    Deactivated db (deactivateReportObservation env now db reportId report reason) reportId
      report.incidentId := by
  unfold deactivateReportObservation
  dsimp only
  cases hfind : db.fragments.find (isReportFragment report.incidentId reportId) with
  | none =>
    exact
      { works := Works.refl hs _ _
        fragment := .absent (fun j f hf => Table.find_none hfind hf) rfl
        reports := rfl }
  | some r =>
    obtain ⟨id, f⟩ := r
    obtain ⟨hf, hp⟩ := Table.find_some hfind
    have hrw := withdrawnStore_rewrites env now hf (isReportFragment_iff.mp hp).2.1
    have hq := deactivateSpots_quiet env now (withdrawnStore env now db id f) report.incidentId id
      (withdrawFragment now f) reason
    have hmid := hrw.quiet hq
    have hset := reconcileConflicts_settles env now report.incidentId .nothing hmid
      (hmid.sound hs).facts (.refl (fun _ => False) _) le_rfl
      (fun t ht _ _ _ i e he => (by rw [ht] at he; exact he ▸ .kept e))
      ((lostEvidence db.toStore (some id)).map (·.conflictId)) (fun w hw => List.mem_map_of_mem hw)
    exact
      { works := hmid.works hs.upToDate (hset.quiet (emit_quiet _ now report.incidentId _))
        fragment := by
          have hcalm := hset.advances.fragments
          have hfrag : (deactivateSpots env now (withdrawnStore env now db id f) report.incidentId id
              (withdrawFragment now f) reason).fragments =
              db.fragments.modify id fun _ => withdrawFragment now f := hq.fragments
          rw [hfrag] at hcalm
          obtain ⟨g, hg, hfg, hw⟩ := hcalm.get_some (i := id) (a := withdrawFragment now f) (by simp [hf])
          refine .found hf hp hg ((withdrawFragment_follows now f).trans hfg)
            (hw.mpr (withdrawFragment_status now f)) fun j h hj hh => ?_
          have := hcalm.rows j h hh
          rwa [Table.get_modify_of_ne _ _ (Ne.symm hj)] at this
        reports := rfl }

end Process
end CrisisMosaic
