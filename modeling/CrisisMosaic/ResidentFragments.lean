import CrisisMosaic.SettledReports

/-!
# The fragments of resident reports

While only reports are operated on, every fragment is the one fragment of a stored
report. It carries the pseudonym of the reporter and a claim of the extraction, and
it is withdrawn only while its report is deleted or invalid.
-/

namespace CrisisMosaic
open Relational

/-- The values `extract_structured_claim` gives besides `unknown`. -/
def concreteValues : List String := ["blocked", "passable", "absent", "present"]

/-- The value is `unknown` or concrete, and the key is not empty. -/
def StructuredClaim.IsExtracted (c : StructuredClaim) : Prop :=
  (c.value = "unknown" ∨ c.value ∈ concreteValues) ∧ truthy (some c.key) = true

theorem passabilityClaim_extracted (env : Env) (locationText : String) {value : String}
    (h : value = "unknown" ∨ value ∈ concreteValues) :
    (passabilityClaim env locationText value).IsExtracted :=
  ⟨h, by simp [truthy, passabilityClaim, roadFactKey]⟩

theorem floodingClaim_extracted (env : Env) (locationText : String) {value : String}
    (h : value = "unknown" ∨ value ∈ concreteValues) :
    (floodingClaim env locationText value).IsExtracted :=
  ⟨h, by simp [truthy, floodingClaim, roadFloodingFactKey]⟩

theorem extractStructuredClaim_extracted {env : Env} {r : Report} {c : StructuredClaim}
    (h : extractStructuredClaim env r = some c) : c.IsExtracted := by
  have hpass := fun {v : String} => @passabilityClaim_extracted env r.place.locationText v
  have hflood := fun {v : String} => @floodingClaim_extracted env r.place.locationText v
  unfold extractStructuredClaim at h
  extract_lets body search passability floodingIs blocked passable absent present at h
  clear_value search blocked passable absent present
  split_ifs at h <;> obtain rfl := Option.some.inj h
  · exact hflood (Or.inl rfl)
  · exact hpass (Or.inl rfl)
  · exact hpass (Or.inr (by simp [concreteValues]))
  · exact hpass (Or.inr (by simp [concreteValues]))
  · exact hflood (Or.inr (by simp [concreteValues]))
  · exact hflood (Or.inr (by simp [concreteValues]))
  · exact hflood (Or.inl rfl)
  · exact hpass (Or.inl rfl)

/-- The pseudonym of a device on the fragments of its reports. -/
def reporterCluster (env : Env) (device : Id) : String :=
  String.ofList ((env.hmac env.settings.installationIdPepper device).toList.take 36)

namespace InformationFragment

/-- The claim is one the extraction makes, or there is none. -/
def HasClaim (f : InformationFragment) : Prop :=
  f.claimKey = none ∧ f.claimValue = none ∨ ∃ v, f.claimValue = some v ∧
    (v = "unknown" ∨ v ∈ concreteValues) ∧ truthy f.claimKey = true

/-- The fragment of the report `id` with the row `r`. -/
structure IsOf (env : Env) (id : Id) (r : Report) (f : InformationFragment) : Prop where
  sourceType : f.sourceType = .residentReport
  sourceRef : f.sourceRefId = some id
  incident : f.incidentId = r.incidentId
  cluster : f.sourceClusterId = some (reporterCluster env r.reporterDeviceId)
  claim : f.HasClaim
  status : f.status ≠ .resolved

/-- The content is the same, and a status is moved between normal and conflict only. -/
def Reclassified (f g : InformationFragment) : Prop :=
  f.SameContent g ∧ f.revision ≤ g.revision ∧
    (g.status = f.status ∨ f.status ≠ .withdrawn ∧ (g.status = .normal ∨ g.status = .conflict))

variable {f g h : InformationFragment} {env : Env} {id : Id} {r : Report}

theorem Reclassified.refl (f : InformationFragment) : f.Reclassified f :=
  ⟨.refl f, le_rfl, Or.inl rfl⟩

theorem Reclassified.trans (a : f.Reclassified g) (b : g.Reclassified h) : f.Reclassified h := by
  refine ⟨a.1.trans b.1, a.2.1.trans b.2.1, ?_⟩
  rcases a.2.2 with hsame | ⟨hf, hg⟩
  · rw [← hsame]
    exact b.2.2
  · rcases b.2.2 with hsame | ⟨-, hh⟩
    · exact Or.inr ⟨hf, hsame ▸ hg⟩
    · exact Or.inr ⟨hf, hh⟩

theorem Freed.reclassified (a : f.Freed g) : f.Reclassified g := by
  rcases a with rfl | ⟨hf, hg, hr, hc⟩
  · exact .refl g
  · exact ⟨hc, by omega, Or.inr ⟨by simp [hf], Or.inl hg⟩⟩

theorem Reclassified.withdrawn_iff (a : f.Reclassified g) :
    g.status = .withdrawn ↔ f.status = .withdrawn := by
  rcases a.2.2 with hsame | ⟨hf, hg⟩
  · rw [hsame]
  · refine iff_of_false (fun hw => ?_) hf
    rw [hw] at hg
    exact hg.elim nofun nofun

theorem IsOf.of_report {r' : Report} (a : f.IsOf env id r) (hinc : r'.incidentId = r.incidentId)
    (hrep : r'.reporterDeviceId = r.reporterDeviceId) : f.IsOf env id r' :=
  { a with incident := a.incident.trans hinc.symm, cluster := by rw [hrep]; exact a.cluster }

theorem IsOf.withdraw (a : f.IsOf env id r) (now : Time) : (withdrawFragment now f).IsOf env id r := by
  unfold withdrawFragment
  split_ifs
  · exact a
  · exact { a with status := by simp }

/-- Only the content and whether the fragment is withdrawn or resolved count. -/
theorem IsOf.reclassify (a : f.IsOf env id r) (b : f.Reclassified g) : g.IsOf env id r := by
  obtain ⟨hc, -, hs⟩ := b
  have hstatus : g.status ≠ .resolved := by
    rcases hs with hsame | ⟨-, hg⟩
    · exact hsame ▸ a.status
    · exact hg.elim (fun h => by simp [h]) fun h => by simp [h]
  rw [SameContent] at hc
  rw [hc]
  exact ⟨a.sourceType, a.sourceRef, a.incident, a.cluster, a.claim, hstatus⟩

end InformationFragment

theorem observe_isOf (env : Env) (id : Id) (r : Report) {f : InformationFragment}
    (hstatus : f.status ≠ .resolved) : (observe env id r f).IsOf env id r where
  sourceType := rfl
  sourceRef := rfl
  incident := rfl
  cluster := rfl
  claim := by
    unfold observe InformationFragment.HasClaim
    cases hc : extractStructuredClaim env r with
    | none => exact Or.inl ⟨rfl, rfl⟩
    | some c =>
      obtain ⟨hvalue, hkey⟩ := extractStructuredClaim_extracted hc
      exact Or.inr ⟨c.value, rfl, hvalue, hkey⟩
  status := hstatus

theorem refresh_isOf (env : Env) (now : Time) (id : Id) (r : Report) {f : InformationFragment}
    (hstatus : f.status ≠ .resolved) : (refresh env now id r f).IsOf env id r := by
  refine { observe_isOf env id r hstatus with status := ?_ }
  unfold refresh
  dsimp only
  split_ifs
  · simp
  · exact hstatus

/-- Every fragment is the only one of a stored report, and counts while the report does. -/
structure Resident (env : Env) (reports : Table Report) (fragments : Table InformationFragment) :
    Prop where
  reported : ∀ k f, fragments.get k = some f → ∃ id r, reports.get id = some r ∧ f.IsOf env id r ∧
    (r.isLive = true → f.status ≠ .withdrawn)
  unique : ∀ k l f g, fragments.get k = some f → fragments.get l = some g →
    f.sourceRefId = g.sourceRefId → k = l

namespace Resident
variable {env : Env} {now : Time} {db m : Db} {reports : Table Report}
  {fragments fragments' : Table InformationFragment} {id : Id} {r : Report}

theorem reclassify (h : Resident env reports fragments)
    (hf : fragments.Related InformationFragment.Reclassified fragments') :
    Resident env reports fragments' where
  reported := by
    intro k g hg
    obtain ⟨f, hf₀, hfg⟩ := hf.left_of_some hg
    obtain ⟨id, r, hr, hof, hlive⟩ := h.reported k f hf₀
    exact ⟨id, r, hr, hof.reclassify hfg, fun hl hw => hlive hl (hfg.withdrawn_iff.mp hw)⟩
  unique := by
    intro k l g g' hg hg' href
    obtain ⟨f, hf₀, hfg⟩ := hf.left_of_some hg
    obtain ⟨f', hf', hfg'⟩ := hf.left_of_some hg'
    refine h.unique k l f f' hf₀ hf' ?_
    rw [hfg.1, hfg'.1] at href
    exact href

/-- A fragment that refers to the report is the one its observation finds. -/
theorem of_ref (h : Resident env db.reports fragments) (hs : Stores db id r m) {k : Id}
    {f : InformationFragment} (hf : fragments.get k = some f) (href : f.sourceRefId = some id) :
    isReportFragment r.incidentId id f = true ∧ f.IsOf env id r ∧
      ∃ r₀, db.reports.get id = some r₀ ∧ (r₀.isLive = true → f.status ≠ .withdrawn) := by
  obtain ⟨i, r₀, hr₀, hof, hlive⟩ := h.reported k f hf
  obtain rfl : i = id := Option.some.inj (hof.sourceRef.symm.trans href)
  obtain ⟨r', hr', hinc, hrep⟩ := hs.kept hr₀
  obtain rfl := Option.some.inj (hs.get_self.symm.trans hr')
  exact ⟨isReportFragment_iff.mpr ⟨hof.incident.trans hinc.symm, hof.sourceType, href⟩,
    hof.of_report hinc hrep, r₀, hr₀, hlive⟩

/-- The report is stored, and only its own fragment is rewritten. -/
theorem store (h : Resident env db.reports fragments) (hs : Stores db id r m)
    (hold : ∀ k f, fragments'.get k = some f → f.sourceRefId ≠ some id → fragments.get k = some f)
    (hown : ∀ k f, fragments'.get k = some f → f.sourceRefId = some id →
      f.IsOf env id r ∧ (r.isLive = true → f.status ≠ .withdrawn))
    (hunique : ∀ k l f g, fragments'.get k = some f → fragments'.get l = some g →
      f.sourceRefId = some id → g.sourceRefId = some id → k = l) :
    Resident env m.reports fragments' where
  reported := by
    intro k f hf
    by_cases href : f.sourceRefId = some id
    · obtain ⟨hof, hlive⟩ := hown k f hf href
      exact ⟨id, r, hs.get_self, hof, hlive⟩
    · obtain ⟨i, s, hi, hof, hlive⟩ := h.reported k f (hold k f hf href)
      have hne : i ≠ id := fun he => href (he ▸ hof.sourceRef)
      exact ⟨i, s, (hs.get_of_ne hne).trans hi, hof, hlive⟩
  unique := by
    intro k l f g hf hg href
    by_cases hid : f.sourceRefId = some id
    · exact hunique k l f g hf hg hid (href ▸ hid)
    · exact h.unique k l f g (hold k f hf hid) (hold l g hg (href ▸ hid)) href

/-- The report is stored, and the row of its fragment, if it has one, is rewritten in place. -/
theorem rewrite (h : Resident env db.reports fragments) (hs : Stores db id r m) {k : Id}
    {f g : InformationFragment} (hf : fragments.get k = some f) (href : f.sourceRefId = some id)
    (hg : g.IsOf env id r) (hlive : r.isLive = true → g.status ≠ .withdrawn) :
    Resident env m.reports (fragments.modify k fun _ => g) := by
  have hkey : ∀ j e, (fragments.modify k fun _ => g).get j = some e → e.sourceRefId = some id → j = k := by
    intro j e he hid
    rcases Table.get_modify_cases he with ⟨rfl, -⟩ | ⟨-, he⟩
    · rfl
    · exact h.unique j k e f he hf (hid.trans href.symm)
  refine h.store hs (fun j e he hid => ?_) (fun j e he hid => ?_) fun i j e e' he he' hid hid' =>
    (hkey i e he hid).trans (hkey j e' he' hid').symm
  · rcases Table.get_modify_cases he with ⟨-, -, -, rfl⟩ | ⟨-, he⟩
    · exact absurd hg.sourceRef hid
    · exact he
  · obtain rfl := hkey j e he hid
    rw [Table.get_modify_self, hf, Option.map_some, Option.some.injEq] at he
    exact he ▸ ⟨hg, hlive⟩

/-- The report is stored and its fragment stays as it is. -/
theorem keep (h : Resident env db.reports fragments) (hs : Stores db id r m)
    (hlive : ∀ k f, fragments.get k = some f → f.sourceRefId = some id → r.isLive = true →
      f.status ≠ .withdrawn) : Resident env m.reports fragments :=
  h.store hs (fun _ _ hf _ => hf)
    (fun k f hf href => ⟨(h.of_ref hs hf href).2.1, hlive k f hf href⟩)
    fun k l f g hf hg href href' => h.unique k l f g hf hg (href.trans href'.symm)

theorem observed (h : Resident env db.reports fragments) (hs : Stores db id r m) :
    Resident env m.reports (upsertReportFragment env now fragments id r).fragments := by
  rcases upsertReportFragment_cases env now fragments id r with
    ⟨g, rfl, hu, hno⟩ | ⟨k, f, hf, hp, ⟨hu, hlive, hsame⟩ | ⟨g, rfl, hu⟩⟩
  · have hfresh : ∀ k f, fragments.get k = some f → f.sourceRefId ≠ some id := by
      intro k f hf href
      have hp := (h.of_ref hs hf href).1
      rw [hno k f hf] at hp
      exact nomatch hp
    have hkey : ∀ k f, (fragments.insert (observe env id r (newFragment now))).get k = some f →
        f.sourceRefId = some id → k = fragments.size ∧ f = observe env id r (newFragment now) := by
      intro k f hf href
      rcases Table.get_insert_cases hf with hnew | hf
      · exact hnew
      · exact absurd href (hfresh k f hf)
    rw [hu]
    refine h.store hs (fun k f hf hne => ?_) (fun k f hf href => ?_) fun k l f g hf hg href href' =>
      (hkey k f hf href).1.trans (hkey l g hg href').1.symm
    · rcases Table.get_insert_cases hf with ⟨-, rfl⟩ | hf
      · exact absurd rfl hne
      · exact hf
    · obtain ⟨-, rfl⟩ := hkey k f hf href
      exact ⟨observe_isOf env id r (by simp [newFragment]), by simp [observe, newFragment]⟩
  · rw [hu]
    refine h.keep hs fun j g hg href _ => ?_
    obtain rfl := h.unique j k g f hg hf (href.trans (isReportFragment_iff.mp hp).2.2.symm)
    exact Option.some.inj (hf.symm.trans hg) ▸ hlive
  · rw [hu]
    have href := (isReportFragment_iff.mp hp).2.2
    refine h.rewrite hs hf href (refresh_isOf env now id r (h.of_ref hs hf href).2.1.status) ?_
    exact fun _ => refresh_status env now id r f

theorem withdrawn (h : Resident env db.reports fragments) (hs : Stores db id r m)
    (hlive : r.isLive = false) {k : Id} {f : InformationFragment} (hf : fragments.get k = some f)
    (hp : isReportFragment r.incidentId id f = true) :
    Resident env m.reports (fragments.modify k fun _ => withdrawFragment now f) := by
  have href := (isReportFragment_iff.mp hp).2.2
  refine h.rewrite hs hf href ((h.of_ref hs hf href).2.1.withdraw now) fun hl => ?_
  rw [hlive] at hl
  exact nomatch hl

end Resident

section Steps
variable {env : Env} {now : Time} {db db' : Db} {op : Op} {o : Outcome} {s t : Store}

/-- Fragments that count may be put into a conflict. -/
theorem Called.reclassified {sources : Sources} {call : ConflictCall} {c : Id}
    (h : Called env now sources s t call c)
    (hcall : ∀ k ∈ call.fragments, ∀ f, s.fragments.get k = some f → f.status ≠ .withdrawn) :
    s.fragments.Related InformationFragment.Reclassified t.fragments := by
  intro k
  by_cases hk : k ∈ call.fragments
  · have hr := h.fragments k
    generalize hf : s.fragments.get k = x, t.fragments.get k = y at hr
    cases hr with
    | none => exact .none
    | @some f g hfg =>
      refine .some ⟨hfg.1, hfg.2.1.ge, hfg.2.2.imp_right fun hg => ⟨hcall k hk f hf, Or.inr hg⟩⟩
  · rw [h.undrawn k hk]
    exact Table.Related.refl .refl s.fragments k

theorem Reconciled.reclassified {ids : List Id} (h : Reconciled env ids s t) :
    s.fragments.Related InformationFragment.Reclassified t.fragments := by
  intro k
  have hr := h.fragments k
  generalize s.fragments.get k = x, t.fragments.get k = y at hr
  cases hr with
  | none => exact .none
  | some hfg => exact .some hfg.reclassified

/-- What follows the rewriting of a fragment moves fragments in and out of conflicts only. -/
theorem ObservationCourse.reclassified {u : FragmentUpsert} {detection : Option Detection}
    (h : ObservationCourse env now db u t detection) (hu : u.fragments.get u.id = some u.fragment)
    (hstatus : u.fragment.status ≠ .withdrawn) :
    u.fragments.Related InformationFragment.Reclassified t.fragments := by
  cases h with
  | unchanged _ hb => exact hb.fragments ▸ .refl .refl _
  | undisputed _ hb _ _ hr => exact hb.fragments ▸ hr.reclassified
  | disputed _ hb hcall hd _ hr =>
    rw [← hb.fragments] at hcall hu ⊢
    exact .trans (fun _ _ _ => .trans)
      (hd.reclassified (detectedCall_fragments hcall hu hstatus)) hr.reclassified

theorem processReportObservation_reports {id : Id} {r : Report} {detection : Option Detection}
    (h : processReportObservation env now db id r = .ok (db', detection)) : db'.reports = db.reports := by
  rw [processReportObservation_eq] at h
  dsimp only at h
  split_ifs at h
  · obtain ⟨rfl, -⟩ := Prod.mk.inj (pure_ok.mp h)
    exact beforeDetection_reports env now db _ _
  · simp only [bind_ok, pure_ok, Prod.mk.injEq] at h
    obtain ⟨-, -, rfl, -⟩ := h
    exact beforeDetection_reports env now db _ _

theorem deactivateReportObservation_reports (db : Db) (id : Id) (r : Report) (reason : String) :
    (deactivateReportObservation env now db id r reason).reports = db.reports := by
  unfold deactivateReportObservation
  dsimp only
  split <;> rfl

theorem runBlindSpotJob_reports {job : Id} (h : runBlindSpotJob env now db job = .ok db') :
    db'.reports = db.reports := by
  simp only [runBlindSpotJob, bind_ok] at h
  obtain ⟨j, -, -, -, h⟩ := h
  split_ifs at h
  · rw [← pure_ok.mp h]
  · split at h
    · rw [← pure_ok.mp h]
      rfl
    · exact absurd h throw_ok

theorem ReportStages.resident (h : ReportStages env db op o)
    (hr : Resident env db.reports db.fragments) : Resident env o.db.reports o.db.fragments := by
  cases h with
  | @observed id r m t _ _ hs _ hp hsame =>
    have hm : Resident env m.reports (upsertReportFragment env op.now db.fragments id r).fragments :=
      hr.observed hs
    obtain ⟨hu, hstatus, -⟩ := upsert_spec env op.now db.fragments id r
    have hcourse := (processReportObservation_course hp).before hsame.store
    have hfragments : m.fragments = db.fragments := hs.store.fragments
    rw [hfragments] at hcourse
    rw [hsame.reports, processReportObservation_reports hp]
    exact hm.reclassify (hcourse.reclassified hu hstatus)
  | @deactivated id r m reason _ _ hs hlive hsame _ =>
    have hcourse := ((deactivateReportObservation_course m id r reason).after hs.store).before hsame.store
    have hfragments : m.fragments = db.fragments := hs.store.fragments
    rw [hfragments] at hcourse
    rw [hsame.reports, deactivateReportObservation_reports]
    cases hfind : db.fragments.find (isReportFragment r.incidentId id) with
    | none =>
      rw [hfind] at hcourse
      cases hcourse with
      | absent hq =>
        have hsame : o.db.fragments = db.fragments := hq.fragments
        rw [hsame]
        exact hr.keep hs fun _ _ _ _ hl => nomatch hlive.symm.trans hl
    | some p =>
      obtain ⟨k, f⟩ := p
      obtain ⟨hf, hp⟩ := Table.find_some hfind
      rw [hfind] at hcourse
      cases hcourse with
      | withdrawn _ _ hfr _ _ hrec => exact (hr.withdrawn hs hlive hf hp).reclassify (hfr ▸ hrec.reclassified)
  | @edited id r r₀ m _ _ hs hget hlive hsame _ =>
    have hfragments : o.db.fragments = db.fragments := hsame.store.fragments.trans hs.store.fragments
    rw [hsame.reports, hfragments]
    refine hr.keep hs fun k f hf href hl => ?_
    obtain ⟨-, -, r', hr', hkept⟩ := hr.of_ref hs hf href
    obtain rfl := Option.some.inj (hget.symm.trans hr')
    exact hkept (hlive ▸ hl)
  | detected _ hrun _ =>
    have hfragments : o.db.fragments = db.fragments := (runBlindSpotJob_untouched hrun).fragments
    rw [runBlindSpotJob_reports hrun, hfragments]
    exact hr
  | untouched _ _ hsame _ =>
    have hfragments : o.db.fragments = db.fragments := hsame.store.fragments
    rw [hsame.reports, hfragments]
    exact hr

end Steps
end CrisisMosaic
