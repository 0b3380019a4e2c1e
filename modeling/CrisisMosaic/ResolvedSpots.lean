import CrisisMosaic.OpenSpots

/-!
# Resolved blind spots and their resolver

An automatic blind spot that is resolved by a fragment names it. What a turn
makes of the spot when the resolver changes depends on the fragments near it,
on the recorded origin, and on what earlier turns left in the scope.
-/

namespace CrisisMosaic
open Relational

section Rows
variable (env : Env) (reports : Table Report)

/-- Two places are one, as the source compares them in either order. -/
def samePlace (a b : Place) : Bool := sameLocation env a b || sameLocation env b a

/-- The fragment counts and answers the claim of the spot where the spot is. -/
def answersHere (spot : BlindSpot) (f : InformationFragment) : Bool :=
  reportFragmentIsActive reports f && isConcrete f.claimValue && f.claimKey = some spot.claimKey &&
    samePlace env spot.place f.place

/-- The spot shows the answer of the fragment, or that the answers conflict. -/
def showsAnswer (spot : BlindSpot) (f : InformationFragment) : Bool :=
  spot.resolutionValue = f.claimValue || spot.resolutionValue = some "conflicting_evidence"

/-- The resolver of the spot, while it is resolved, answers it as the spot shows. -/
def BlindSpot.Supported (fragments : Table InformationFragment) (b : BlindSpot) : Prop :=
  b.status = .resolved → ∀ k, b.resolver = some k → ∃ f, fragments.get k = some f ∧
    f.incidentId = b.incidentId ∧ answersHere env reports b f = true ∧ showsAnswer b f = true

end Rows

namespace BlindSpot
variable {env : Env} {reports reports' : Table Report} {fragments fragments' : Table InformationFragment}
  {gone : Option Id} {a b : BlindSpot} {k : Id} {f : InformationFragment}

theorem Supported.of_open (h : b.status ≠ .resolved) : b.Supported env reports fragments :=
  fun hres => absurd hres h

theorem supported_by (hr : b.resolver = some k) (hf : fragments.get k = some f)
    (hinc : f.incidentId = b.incidentId) (hanswers : answersHere env reports b f = true)
    (hshows : showsAnswer b f = true) : b.Supported env reports fragments := by
  intro _ j hj
  obtain rfl := Option.some.inj (hr.symm.trans hj)
  exact ⟨f, hf, hinc, hanswers, hshows⟩

theorem SameGap.answersHere_eq (h : a.SameGap b) (f : InformationFragment) :
    answersHere env reports b f = answersHere env reports a f := by
  unfold answersHere
  rw [h.claimKey, h.place]

theorem Supported.of_view (h : a.Supported env reports fragments) (hgap : a.SameGap b)
    (hview : b.view = a.view) : b.Supported env reports fragments := by
  obtain ⟨hstatus, hvalue, -, hresolver⟩ := View.mk.inj hview
  intro hres k hk
  obtain ⟨f, hf, hinc, hanswers, hshows⟩ := h (hstatus ▸ hres) k (hresolver ▸ hk)
  refine ⟨f, hf, hinc.trans hgap.incident.symm, (hgap.answersHere_eq f).trans hanswers, ?_⟩
  unfold showsAnswer at hshows ⊢
  rw [hvalue]
  exact hshows

theorem Supported.carried (h : a.Supported env reports fragments)
    (hc : Carried reports reports' fragments fragments' gone)
    (hkept : a.status = .resolved → ∀ k, a.resolver = some k → gone ≠ some k) :
    a.Supported env reports' fragments' := by
  intro hres k hk
  obtain ⟨f, hf, hinc, hanswers, hshows⟩ := h hres k hk
  obtain ⟨g, hg, -, hsame⟩ := hc.rows k f hf
  obtain ⟨rfl, hactive⟩ := hsame (hkept hres k hk)
  refine ⟨g, hg, hinc, ?_, hshows⟩
  unfold answersHere at hanswers ⊢
  simp only [Bool.and_eq_true] at hanswers ⊢
  exact ⟨⟨⟨hactive hanswers.1.1.1, hanswers.1.1.2⟩, hanswers.1.2⟩, hanswers.2⟩

theorem Supported.reclassified (h : a.Supported env reports fragments)
    (hr : fragments.Related InformationFragment.Reclassified fragments') :
    a.Supported env reports fragments' := by
  intro hres k hk
  obtain ⟨f, hf, hinc, hanswers, hshows⟩ := h hres k hk
  obtain ⟨g, hg, hfg⟩ := hr.right_of_some hf
  have hsame := hfg.1
  rw [InformationFragment.SameContent] at hsame
  refine ⟨g, hg, by rw [hsame]; exact hinc, ?_, ?_⟩
  · unfold answersHere at hanswers ⊢
    rw [hfg.active_eq reports, hsame]
    exact hanswers
  · unfold showsAnswer at hshows ⊢
    rw [hsame]
    exact hshows

end BlindSpot

section Turns
variable {env : Env} {now : Time} {incidentId k : Id} {reports reports' : Table Report}
  {fragments fragments' : Table InformationFragment} {f : InformationFragment} {reason : String}
  {a b : BlindSpot} {w : Rewriting}
open BlindSpot

/-- The turn of the spot for the written fragment leaves it a resolver that answers it, or none. -/
structure TurnsSoundly (env : Env) (w : Rewriting) (a : BlindSpot) : Prop where
  /-- A resolver that is neither replaced nor given up still answers. -/
  stranded : a.resolver = some w.id → a.status = .resolved →
    stillResolves env w.reports a w.fragment = false →
    NoneNearby env a.incidentId w.reports w.fragments w.id a isConcrete →
    originStillUnknown w.reports w.fragments a = false →
    answersHere env w.reports a w.fragment = true ∧ showsAnswer a w.fragment = true
  /-- An origin that answers the claim answers it here. -/
  answered : a.origin = some w.id → a.isOpen = true → answersClaim w.reports w.fragment a = true →
    samePlace env a.place w.fragment.place = true
  /-- A spot that is retired has no resolver left from before. -/
  retired : a.origin = some w.id → a.isOpen = true → stillUnknownHere env w.reports w.fragment a = false →
    answersClaim w.reports w.fragment a = false →
    NoneNearby env a.incidentId w.reports w.fragments w.id a (fun v => v = some "unknown") →
    a.resolver = none

/-- What a resolved spot shows is a concrete value. -/
theorem concrete_of_showsAnswer (hanswers : answersHere env reports a f = true)
    (hshows : showsAnswer a f = true) : isConcrete a.resolutionValue = true := by
  simp only [showsAnswer, Bool.or_eq_true, decide_eq_true_eq] at hshows
  simp only [answersHere, Bool.and_eq_true] at hanswers
  rcases hshows with hsame | hconflict
  · exact hsame ▸ hanswers.1.1.2
  · rw [hconflict]
    decide

theorem answersHere_of_stillResolves (hvalue : isConcrete a.resolutionValue = true)
    (h : stillResolves env reports a f = true) :
    answersHere env reports a f = true ∧ showsAnswer a f = true := by
  simp only [stillResolves, Bool.and_eq_true, decide_eq_true_eq] at h
  obtain ⟨⟨⟨⟨-, hkey⟩, hsame⟩, hactive⟩, hnear⟩ := h
  simp [answersHere, showsAnswer, samePlace, hactive, hvalue, hkey, hnear, hsame]

theorem BlindSpot.Supported.turned (h : a.Supported env reports fragments)
    (hc : Carried reports w.reports fragments w.fragments (some w.id))
    (hk : w.fragments.get w.id = some w.fragment) (hauto : a.isAutomatic = true)
    (hsound : a.incidentId = w.fragment.incidentId → TurnsSoundly env w a)
    (hturn : Turned env w.fragment.incidentId w.reports w.fragments w.id w.fragment reason a b) :
    b.Supported env w.reports w.fragments := by
  unfold Turned at hturn
  split_ifs at hturn with hhere
  · obtain ⟨hgap, hturn⟩ := hturn
    have hsound := hsound hhere.1
    have hinc : w.fragment.incidentId = b.incidentId := hhere.1.symm.trans hgap.incident.symm
    generalize hview : b.view = v at hturn
    have hstatus : b.status = v.status := hview ▸ rfl
    have hvalue : b.resolutionValue = v.value := hview ▸ rfl
    have hresolver : b.resolver = v.resolver := hview ▸ rfl
    have hat : ∀ {c g}, v.resolver = some c → w.fragments.get c = some g → g.incidentId = b.incidentId →
        answersHere env w.reports a g = true → (v.value = g.claimValue ∨ showsAnswer a g = true ∧
          v.value = a.resolutionValue) → b.Supported env w.reports w.fragments := by
      intro c g hvr hg hginc hanswers hshows
      refine supported_by (hresolver.trans hvr) hg hginc ((hgap.answersHere_eq g).trans hanswers) ?_
      unfold showsAnswer at hshows ⊢
      rw [hvalue]
      rcases hshows with hsame | ⟨hshows, hsame⟩
      · simp [hsame]
      · rw [hsame]
        exact hshows
    cases hturn with
    | kept hstill _ =>
      by_cases hr : a.resolver = some w.id ∧ a.status = .resolved
      · obtain ⟨f, -, -, hanswers, hshows⟩ := h hr.2 _ hr.1
        have hstill := answersHere_of_stillResolves (concrete_of_showsAnswer hanswers hshows)
          (hstill hr.1 hr.2)
        exact hat hr.1 hk hinc hstill.1 (Or.inr ⟨hstill.2, rfl⟩)
      · refine (h.carried hc fun hres j hj hgone => hr ⟨?_, hres⟩).of_view hgap hview
        rw [hj, Option.some.inj hgone]
    | stranded hr hres hstill hnone horigin =>
      obtain ⟨hanswers, hshows⟩ := hsound.stranded hr hres hstill (hhere.1 ▸ hnone) horigin
      exact hat hr hk hinc hanswers (Or.inr ⟨hshows, rfl⟩)
    | handedOver c _ hres hmem hconcrete =>
      obtain ⟨g, hg, hginc, hkey, hactive, hnear, -⟩ := mem_activeNearby hmem
      have hclaim : claimValueOf w.fragments c = g.claimValue := by
        unfold claimValueOf
        rw [hg]
        rfl
      rw [hclaim] at hconcrete
      refine hat rfl hg (hginc.trans hinc) ?_ (Or.inl hclaim)
      simp [answersHere, samePlace, hactive, hconcrete, hkey, hnear]
    | reopened => exact .of_open (by simp [hstatus])
    | unknownHere _ hopen _ => exact .of_open (hstatus ▸ isOpen_iff.mp hopen)
    | answered ho hopen _ hanswers =>
      have hplace := hsound.answered ho hopen hanswers
      simp only [answersClaim, Bool.and_eq_true, decide_eq_true_eq] at hanswers
      refine hat rfl hk hinc ?_ (Or.inl rfl)
      simp [answersHere, hanswers.1.1, hanswers.1.2, hanswers.2, hplace]
    | rehomed c _ hopen _ _ => exact .of_open (hstatus ▸ isOpen_iff.mp hopen)
    | retired ho hopen hunknown hanswers hnone =>
      intro _ k hk
      exact nomatch (hsound.retired ho hopen hunknown hanswers (hhere.1 ▸ hnone)).symm.trans
        (hresolver.symm.trans hk)
  · subst hturn
    intro hres k hk'
    obtain ⟨f, hf, hinc, -⟩ := h hres k hk'
    obtain ⟨g, hg, hginc, -⟩ := hc.rows k f hf
    refine h.carried hc (fun _ j hj hgone => hhere ⟨?_, hauto⟩) hres k hk'
    obtain rfl := Option.some.inj (hk'.symm.trans hj)
    obtain rfl := Option.some.inj hgone
    obtain rfl := Option.some.inj (hk.symm.trans hg)
    exact (hginc.trans hinc).symm

/-- The turn of the spot for the written fragment leaves it open, where that does not count. -/
def LeftOpen (env : Env) (w : Rewriting) (a : BlindSpot) : Prop :=
  if a.isOpen then a.origin = some w.id →
    ¬ NoneNearby env a.incidentId w.reports w.fragments w.id a fun v => v = some "unknown"
  else a.resolver = some w.id ∧ NoneNearby env a.incidentId w.reports w.fragments w.id a isConcrete ∧
    originStillUnknown w.reports w.fragments a = true

theorem Turned.leftOpen (hconcrete : isConcrete w.fragment.claimValue = true)
    (hopen : b.isOpen = true)
    (hinc : a.incidentId = w.fragment.incidentId) (hauto : a.isAutomatic = true)
    (hturn : Turned env w.fragment.incidentId w.reports w.fragments w.id w.fragment reason a b) :
    LeftOpen env w a := by
  unfold Turned at hturn
  rw [if_pos ⟨hinc, hauto⟩] at hturn
  obtain ⟨-, hturn⟩ := hturn
  unfold LeftOpen
  generalize hview : b.view = v at hturn
  have hstatus : b.status = v.status := hview ▸ rfl
  rw [isOpen_iff, hstatus] at hopen
  cases hturn with
  | kept _ hidle =>
    have hopen := isOpen_iff.mpr hopen
    rw [if_pos hopen]
    exact fun ho => absurd ((hidle ho).symm.trans hopen) nofun
  | stranded _ hres _ _ _ => exact absurd hres hopen
  | handedOver _ _ hres _ _ => exact absurd hres hopen
  | reopened hr hres _ hnone hunknown =>
    rw [if_neg fun h => isOpen_iff.mp h hres, hinc]
    exact ⟨hr, hnone, hunknown⟩
  | unknownHere _ _ hunknown =>
    simp only [stillUnknownHere, Bool.and_eq_true, decide_eq_true_eq] at hunknown
    rw [hunknown.1.1.2] at hconcrete
    exact absurd hconcrete (by decide)
  | answered | retired => exact absurd rfl hopen
  | rehomed c _ hopen' hmem hvalue =>
    rw [if_pos hopen', hinc]
    intro _ hnone
    have hno := hnone c hmem
    simp [hvalue] at hno

end Turns

section Operations
variable {env : Env} {db : Db} {op : Op} {o : Outcome}

/-- The operation observes a report that does not count, and its fragment answers the open spot. -/
def Op.AnswersUncounted (env : Env) (db : Db) (op : Op) (a : BlindSpot) : Prop :=
  ∃ id r, op.storedReport env db = some (id, r) ∧ op.observes db = true ∧ r.isLive = false ∧
    let u := upsertReportFragment env op.now db.fragments id r
    u.changed = true ∧ truthy u.fragment.claimKey = true ∧ isConcrete u.fragment.claimValue = true ∧
      spotFor env u.fragment.incidentId u.fragment a = true ∧
      match op.rewrites env db with
      | some w => LeftOpen env w a
      | none => a.isOpen = true

/-- The written fragment is explicitly uncertain, and the detection that follows at once comes to
the spot `i`, which it leaves open. -/
structure FoundAtOnce (env : Env) (db : Db) (op : Op) (w : Rewriting) (i : Id) : Prop where
  observes : op.observes db = true
  uncertain : isExplicitlyUncertain env w.fragment = true
  gap : HasGap db.feed.incidents w.reports w.fragments w.fragment.incidentId w.id w.fragment.revision
    w.fragment
  due : w.fragment.receivedAt ≤ op.now
  unanswered : gapIsAnswered env w.reports w.fragments w.id w.fragment = false
  found : db.blindSpots.first (spotFor env w.fragment.incidentId w.fragment) = some i

/-- The operation turns each spot soundly or finds it open at once, and no report that does not
count answers one. -/
def Op.KeepsResolvers (env : Env) (db : Db) (op : Op) : Prop :=
  db.blindSpots.All fun i a => a.isAutomatic = true →
    (∀ w, op.rewrites env db = some w → a.incidentId = w.fragment.incidentId →
      TurnsSoundly env w a ∨ FoundAtOnce env db op w i) ∧ ¬ op.AnswersUncounted env db a

/-- The operation keeps the resolvers, if it is accepted. -/
def KeepsResolvers (env : Env) (db : Db) (op : Op) : Prop :=
  ∀ o, transact env db op = .ok o → op.KeepsResolvers env db

/-- Every automatic spot that is resolved has its resolver. -/
def AllSupported (env : Env) (reports : Table Report) (fragments : Table InformationFragment)
    (spots : Table BlindSpot) : Prop :=
  spots.All fun _ b => b.isAutomatic = true → b.Supported env reports fragments

/-- A report that does not count finds no spot its fragment answers. -/
def NoneAnswered (env : Env) (db : Db) (op : Op) (spots : Table BlindSpot) : Prop :=
  ∀ id r, op.storedReport env db = some (id, r) → op.observes db = true → r.isLive = false →
    let u := upsertReportFragment env op.now db.fragments id r
    u.changed = true → truthy u.fragment.claimKey = true → isConcrete u.fragment.claimValue = true →
      spots.All fun _ b => resolvesSpot env u.fragment.incidentId u.fragment b = false

theorem resolvesSpot_iff {incidentId : Id} {f : InformationFragment} {b : BlindSpot} :
    resolvesSpot env incidentId f b = true ↔ spotFor env incidentId f b = true ∧ b.isOpen = true ∧
      b.isAutomatic = true := by
  unfold resolvesSpot spotFor
  simp only [Bool.and_eq_true]
  tauto

theorem Turned.same {incidentId k : Id} {reports : Table Report} {fragments : Table InformationFragment}
    {f : InformationFragment} {reason : String} {a b : BlindSpot}
    (h : Turned env incidentId reports fragments k f reason a b) : a.SameGap b := by
  unfold Turned at h
  split_ifs at h
  · exact h.1
  · exact h ▸ .refl a

theorem BlindSpot.SameGap.spotFor_eq {a b : BlindSpot} (h : a.SameGap b) (incidentId : Id)
    (f : InformationFragment) : spotFor env incidentId f b = spotFor env incidentId f a := by
  unfold spotFor
  rw [h.incident, h.claimKey, h.place]

/-- The claim of an observed report that counts supports the spots it answers. -/
theorem supported_observed {id : Id} {r : Report} {reports : Table Report} {conflicted : Bool}
    {a b : BlindSpot} (hr : reports.get id = some r) (hlive : r.isLive = true)
    (hconcrete : isConcrete (upsertReportFragment env op.now db.fragments id r).fragment.claimValue = true)
    (hspot : let u := upsertReportFragment env op.now db.fragments id r
      spotFor env u.fragment.incidentId u.fragment a = true) (hgap : a.SameGap b)
    (hview : let u := upsertReportFragment env op.now db.fragments id r
      b.view = ⟨.resolved, resolutionValue u.fragment conflicted, a.origin, some u.id⟩) :
    b.Supported env reports (upsertReportFragment env op.now db.fragments id r).fragments := by
  obtain ⟨hk, hstatus, -⟩ := upsert_spec env op.now db.fragments id r
  obtain ⟨-, -, href⟩ := isReportFragment_iff.mp (@upsert_isReportFragment env op.now db.fragments id r)
  obtain ⟨-, hvalue, -, hresolver⟩ := BlindSpot.View.mk.inj hview
  dsimp only at *
  generalize upsertReportFragment env op.now db.fragments id r = u at *
  simp only [spotFor, Bool.and_eq_true, decide_eq_true_eq] at hspot
  have hactive : reportFragmentIsActive reports u.fragment = true :=
    active_iff.mpr ⟨hstatus, fun _ => ⟨id, r, href, hr, hlive⟩⟩
  refine BlindSpot.supported_by hresolver hk (hspot.1.1.symm.trans hgap.incident.symm) ?_ ?_
  · rw [hgap.answersHere_eq]
    simp [answersHere, samePlace, hactive, hconcrete, hspot.1.2.symm, hspot.2]
  · unfold showsAnswer resolutionValue at *
    rw [hvalue]
    cases conflicted <;> simp

/-- Detection leaves a spot as it is or open. -/
theorem Detected.row {now : Time} {incidents : Table Incident} {reports : Table Report}
    {fragments : Table InformationFragment} {incidentId k revision : ℕ} {dueAt : Option Time}
    {spots spots' : Table BlindSpot} {i : Id} {b : BlindSpot}
    (h : Detected env now incidents reports fragments incidentId k revision dueAt spots spots')
    (hb : spots'.get i = some b) : spots.get i = some b ∨ b.status ≠ .resolved := by
  cases h with
  | noGap | early | settled | present => exact Or.inl hb
  | reopened _ _ _ _ _ _ hview =>
    rcases Table.get_modify_cases hb with ⟨-, -, -, rfl⟩ | ⟨-, hb⟩
    · refine Or.inr ?_
      rw [(BlindSpot.View.mk.inj hview).1]
      simp
    · exact Or.inl hb
  | created _ _ _ _ _ _ _ hview =>
    rcases Table.get_insert_cases hb with ⟨-, rfl⟩ | hb
    · refine Or.inr ?_
      rw [(BlindSpot.View.mk.inj hview).1]
      simp
    · exact Or.inl hb

/-- The spot the detection comes to is open afterwards. -/
theorem FoundAtOnce.isOpen {w : Rewriting} {i : Id} {b : BlindSpot} {spots spots' : Table BlindSpot}
    (h : FoundAtOnce env db op w i) (hgap : db.blindSpots.Related BlindSpot.SameGap spots)
    (hd : DetectedNext env db op w spots spots') (hb : spots'.get i = some b)
    (hauto : b.isAutomatic = true) : b.status ≠ .resolved := by
  unfold DetectedNext at hd
  rw [if_pos ⟨h.observes, h.gap.claimValue, h.uncertain⟩] at hd
  obtain ⟨feed, hfeed, hd⟩ := hd
  have hselect := hgap.select_eq (p := spotFor env w.fragment.incidentId w.fragment)
    (q := spotFor env w.fragment.incidentId w.fragment) fun _ _ _ _ _ hab => (hab.spotFor_eq _ _).symm
  have hfirst : spots.first (spotFor env w.fragment.incidentId w.fragment) = some i := by
    unfold Table.first
    rw [← hselect]
    exact h.found
  have hstored : ∀ {f}, HasGap feed.incidents w.reports w.fragments w.fragment.incidentId w.id
      w.fragment.revision f → f = w.fragment := fun hf =>
    Option.some.inj (hf.stored.symm.trans h.gap.stored)
  have hat : ∀ {j x}, spots.find (spotFor env w.fragment.incidentId w.fragment) = some (j, x) → j = i := by
    intro j x hfind
    unfold Table.find at hfind
    rw [hfirst, Option.bind_some, Option.map_eq_some_iff] at hfind
    obtain ⟨_, -, heq⟩ := hfind
    exact (Prod.mk.inj heq).1.symm
  cases hd with
  | noGap hno => exact absurd { h.gap with active := (hfeed.active _).trans h.gap.active } (hno w.fragment)
  | early f _ hearly => exact absurd (hearly _ rfl) (not_lt.mpr h.due)
  | settled f hf hanswered =>
    rw [hstored hf, h.unanswered] at hanswered
    exact nomatch hanswered
  | present f hf hfind hpresent =>
    rw [hstored hf] at hfind
    obtain ⟨hx, -⟩ := Table.find_some hfind
    obtain rfl := hat hfind
    obtain rfl := Option.some.inj (hx.symm.trans hb)
    exact BlindSpot.isOpen_iff.mp (hpresent.resolve_left fun hno => nomatch hno.symm.trans hauto)
  | reopened f hf hfind _ _ _ hview =>
    rw [hstored hf] at hfind
    obtain rfl := hat hfind
    obtain ⟨hx, -⟩ := Table.find_some hfind
    rw [Table.get_modify_self, hx, Option.map_some] at hb
    obtain rfl := Option.some.inj hb
    rw [(BlindSpot.View.mk.inj hview).1]
    simp
  | created f hf hfind =>
    rw [hstored hf] at hfind
    obtain ⟨x, hx, hp⟩ := Table.first_some hfirst
    exact absurd ((Table.find_none hfind hx).symm.trans hp) nofun

theorem SpotStages.supported (h : SpotStages env db op o) (hr : Resident env db.reports db.fragments)
    (hkeeps : op.KeepsResolvers env db) (hdb : AllSupported env db.reports db.fragments db.blindSpots) :
    AllSupported env o.db.reports o.db.fragments o.db.blindSpots := by
  refine (h.keeps (I := fun reports fragments spots => AllSupported env reports fragments spots ∧
    NoneAnswered env db op spots) hr ⟨?_, ?_, ?_, ?_, ?_⟩).1
  · exact fun h hre => ⟨fun i b hb hauto => (h.1 i b hb hauto).reclassified hre, h.2⟩
  · refine fun hnone hc => ⟨fun i b hb hauto => (hdb i b hb hauto).carried hc fun _ _ _ => nofun, ?_⟩
    intro id r hstored hobserves hdead u hchanged hkey hconcrete i a ha
    rw [← Bool.not_eq_true, resolvesSpot_iff]
    rintro ⟨hspot, hopen, hauto⟩
    refine (hkeeps i a ha hauto).2 ⟨id, r, hstored, hobserves, hdead, hchanged, hkey, hconcrete, hspot, ?_⟩
    rw [hnone]
    exact hopen
  · intro w reason spots spots' hw hc hk hturned hd
    constructor
    · intro i b hb hauto
      have hgap : db.blindSpots.Related BlindSpot.SameGap spots := hturned.mono fun _ _ hab => hab.same
      have hrow : ∀ {a}, spots.get i = some a → a.isAutomatic = true → a.Supported env w.reports w.fragments ∨
          FoundAtOnce env db op w i := by
        intro a ha hauto
        obtain ⟨a₀, ha₀, hab⟩ := hturned.left_of_some ha
        have hauto₀ := hab.same.automatic.symm.trans hauto
        by_cases hinc : a₀.incidentId = w.fragment.incidentId
        · refine ((hkeeps i a₀ ha₀ hauto₀).1 w hw hinc).imp_left fun hsound => ?_
          exact (hdb i a₀ ha₀ hauto₀).turned hc hk hauto₀ (fun _ => hsound) hab
        · exact Or.inl ((hdb i a₀ ha₀ hauto₀).turned hc hk hauto₀ (fun h => absurd h hinc) hab)
      have hsame : spots.get i = some b ∨ b.status ≠ .resolved := by
        unfold DetectedNext at hd
        split_ifs at hd
        · obtain ⟨feed, -, hd⟩ := hd
          exact hd.row hb
        · exact Or.inl (hd ▸ hb)
      rcases hsame with hsame | hopen
      · rcases hrow hsame hauto with hsupported | hfound
        · exact hsupported
        · exact .of_open (hfound.isOpen hgap hd hb hauto)
      · exact .of_open hopen
    · intro id r hstored hobserves hdead u hchanged hkey hconcrete i b hb
      have hfragment : w.fragment = u.fragment := by
        rw [Op.rewrites_observed hstored hobserves, Option.map_eq_some_iff] at hw
        obtain ⟨k, -, rfl⟩ := hw
        rfl
      rw [hfragment.symm] at hconcrete hkey ⊢
      have hsame : spots' = spots := by
        unfold DetectedNext at hd
        rw [if_neg] at hd
        · exact hd
        · rintro ⟨-, hunknown, -⟩
          rw [hunknown] at hconcrete
          exact absurd hconcrete (by decide)
      rw [← Bool.not_eq_true, resolvesSpot_iff]
      rintro ⟨hspot, hopen, hauto⟩
      obtain ⟨a, ha, hab⟩ := hturned.left_of_some (hsame ▸ hb)
      have hauto := hab.same.automatic.symm.trans hauto
      rw [hab.same.spotFor_eq] at hspot
      refine (hkeeps i a ha hauto).2 ⟨id, r, hstored, hobserves, hdead, hchanged, ?_⟩
      rw [hfragment] at hkey hconcrete hspot
      refine ⟨hkey, hconcrete, hspot, ?_⟩
      rw [hw]
      simp only [spotFor, Bool.and_eq_true, decide_eq_true_eq] at hspot
      exact Turned.leftOpen (hfragment ▸ hconcrete) hopen (hfragment ▸ hspot.1.1) hauto hab
  · intro incidents reports fragments incidentId k revision dueAt spots spots' h hunknown hd
    constructor
    · intro i b hb hauto
      rcases hd.row hb with hsame | hopen
      · exact h.1 i b hsame hauto
      · exact .of_open hopen
    · intro id r hstored _ _ u _ _ hconcrete
      rw [hunknown id r hstored] at hconcrete
      exact absurd hconcrete (by decide)
  · intro id r spots spots' hstored hobserves hself u hchanged h hans
    constructor
    · intro i b hb hauto
      obtain ⟨a, ha, hab⟩ := hans.left_of_some hb
      unfold Answered at hab
      split_ifs at hab with hcond
      · obtain ⟨hgap, hview⟩ := hab
        cases hlive : r.isLive with
        | true => exact supported_observed hself hlive hcond.2.1 (resolvesSpot_iff.mp hcond.2.2).1 hgap hview
        | false =>
          exact absurd hcond.2.2 ((Bool.not_eq_true _).mpr
            (h.2 id r hstored hobserves hlive hchanged hcond.1 hcond.2.1 i a ha))
      · exact h.1 i b (hab ▸ ha) hauto
    · intro id' r' hstored' hobserves' hdead u' hchanged' hkey hconcrete i b hb
      obtain ⟨a, ha, hab⟩ := hans.left_of_some hb
      have hno := h.2 id' r' hstored' hobserves' hdead hchanged' hkey hconcrete i a ha
      unfold Answered at hab
      split_ifs at hab with hcond
      · obtain ⟨rfl, rfl⟩ := Prod.mk.inj (Option.some.inj (hstored.symm.trans hstored'))
        exact absurd hcond.2.2 ((Bool.not_eq_true _).mpr hno)
      · exact hab ▸ hno

end Operations

section Runs
variable {env : Env} {db : Db} {op : Op}

/-- An operation on a report that counts is harmless where the fragment it rewrites is no origin and
still supports what it resolved. -/
theorem KeepsResolvers.of_stable (h : ((op.storedReport env db).all (fun p => p.2.isLive) &&
    (op.rewrites env db).all fun w => db.blindSpots.rows.all fun a => a.origin ≠ some w.id &&
      (a.resolver ≠ some w.id || stillResolves env w.reports a w.fragment)) = true) :
    KeepsResolvers env db op := by
  intro o _ i a ha _
  obtain ⟨hlive, h⟩ := (Bool.and_eq_true _ _).mp h
  constructor
  · intro w hw _
    rw [hw, Option.all_some, List.all_eq_true] at h
    have hrow := h a (List.mem_of_getElem? ha)
    simp only [Bool.and_eq_true, Bool.or_eq_true, decide_eq_true_eq] at hrow
    refine Or.inl ⟨fun hr _ hstill => ?_, fun ho => absurd ho hrow.1, fun ho => absurd ho hrow.1⟩
    exact absurd ((hrow.2.resolve_left fun hne => hne hr).symm.trans hstill) nofun
  · rintro ⟨id, r, hr, -, hdead, -⟩
    rw [hr, Option.all_some] at hlive
    exact nomatch hlive.symm.trans hdead

/-- The blind spots are supported by resident fragments. -/
structure SpotsSupported (env : Env) (db : Db) : Prop where
  stands : StandsOnReports env db
  supported : AllSupported env db.reports db.fragments db.blindSpots

theorem step_spotsSupported (h : SpotsSupported env db) (hop : op.call.isReportOperation = true)
    (hkeeps : KeepsResolvers env db op) : SpotsSupported env (step env db op) := by
  refine ⟨step_standsOnReports env h.stands hop, ?_⟩
  refine step_cases (P := fun t : Db => AllSupported env t.reports t.fragments t.blindSpots) h.supported
    fun o ho => ?_
  have hresident : Resident env db.begin.reports db.begin.fragments := h.stands.resident
  have hbegin : op.KeepsResolvers env db.begin := by
    intro i a ha hauto
    obtain ⟨hturns, hanswers⟩ := hkeeps o ho i a ha hauto
    refine ⟨fun w hw hinc => (hturns w hw hinc).imp_right fun hf => ?_, hanswers⟩
    exact ⟨hf.observes, hf.uncertain, hf.gap, hf.due, hf.unanswered, hf.found⟩
  exact (handle_stages ho hop).spots.supported hresident hbegin h.supported

theorem initial_spotsSupported (incidents : Table Incident) (devices : Table AnonymousDevice)
    (attachments : Table Attachment) : SpotsSupported env (Db.initial incidents devices attachments) :=
  ⟨initial_standsOnReports env incidents devices attachments, fun _ _ h => nomatch h⟩

/-- While only reports are operated on, and every step keeps the resolvers, the fragment a resolved
automatic spot names counts, answers the claim at the place of the spot, and has the value the spot
shows, unless that is a conflict. -/
theorem resolved_spots_have_an_active_resolver (env : Env) (incidents : Table Incident)
    (devices : Table AnonymousDevice) (attachments : Table Attachment) (ops : List Op)
    (hops : OnReports ops)
    (hkeeps : Along (step env) (KeepsResolvers env) (Db.initial incidents devices attachments) ops) :
    let db := reached env incidents devices attachments ops
    ∀ i b k, db.blindSpots.get i = some b → b.isAutomatic = true → b.status = .resolved →
      b.resolver = some k → ∃ f, db.fragments.get k = some f ∧
        reportFragmentIsActive db.reports f = true ∧ isConcrete f.claimValue = true ∧
        f.claimKey = some b.claimKey ∧ samePlace env b.place f.place = true ∧
        (b.resolutionValue = f.claimValue ∨ b.resolutionValue = some "conflicting_evidence") := by
  intro db i b k hb hauto hres hk
  have h : SpotsSupported env db := run_invariant (step env)
    (fun t op ht hc => step_spotsSupported ht hc.1 hc.2)
    (initial_spotsSupported incidents devices attachments)
    ((along_and _).mpr ⟨along_onReports env hops _, hkeeps⟩)
  obtain ⟨f, hf, -, hanswers, hshows⟩ := h.supported i b hb hauto hres k hk
  simp only [answersHere, Bool.and_eq_true, decide_eq_true_eq] at hanswers
  simp only [showsAnswer, Bool.or_eq_true, decide_eq_true_eq] at hshows
  exact ⟨f, hf, hanswers.1.1.1, hanswers.1.1.2, hanswers.1.2, hanswers.2, hshows⟩

namespace Sample

/-- One resident asks about a road, another answers and words the answer anew. -/
def answerReworded : List Op :=
  [⟨0, resident, none, .postReport (.id 0) (roadReport "road unknown") (.ok none) (.ok ())⟩,
    ⟨1, neighbour, none, .postReport (.id 0) (roadReport "road closed") (.ok none) (.ok ())⟩,
    ⟨2, neighbour, none, .patchReport 1 ⟨1, none, none, some (some "road blocked"), none, none, none, none, none⟩
      (.ok none)⟩]

/-- One resident asks about a road, another answers, and both take back what they said. -/
def bothWithdrawn : List Op :=
  answerWithdrawn.take 2 ++ [⟨2, resident, none, .deleteReport 0 1⟩, ⟨3, neighbour, none, .deleteReport 1 1⟩]

end Sample

open Sample in
theorem reworded_answer_is_an_active_resolver :
    let db := Sample.reached answerReworded
    ∃ b k, db.blindSpots.get 0 = some b ∧ b.status = .resolved ∧ b.resolver = some k ∧
      ∃ f, db.fragments.get k = some f ∧ reportFragmentIsActive db.reports f = true ∧
        isConcrete f.claimValue = true ∧ f.claimKey = some b.claimKey ∧
        samePlace Sample.env b.place f.place = true ∧
        (b.resolutionValue = f.claimValue ∨ b.resolutionValue = some "conflicting_evidence") := by
  intro db
  have hkeeps : Along (step Sample.env) (KeepsResolvers Sample.env) Sample.initial answerReworded :=
    ⟨.of_stable (by decide +kernel), .of_stable (by decide +kernel), .of_stable (by decide +kernel), trivial⟩
  have hops : OnReports answerReworded := by
    intro op hop
    simp only [answerReworded, List.mem_cons, List.not_mem_nil, or_false] at hop
    rcases hop with rfl | rfl | rfl <;> rfl
  obtain ⟨b, hb, h⟩ := (Option.any_eq_true _ _).mp
    (show (db.blindSpots.get 0).any (fun b => b.isAutomatic && decide (b.status = .resolved) &&
      b.resolver.isSome) = true by decide +kernel)
  simp only [Bool.and_eq_true, decide_eq_true_eq, Option.isSome_iff_exists] at h
  obtain ⟨⟨hauto, hres⟩, k, hk⟩ := h
  have h := resolved_spots_have_an_active_resolver Sample.env _ _ _ answerReworded hops hkeeps
  rw [Sample.reached_eq] at h
  exact ⟨b, k, hb, hres, hk, h 0 b k hb hauto hres hk⟩

open Sample in
theorem withdrawn_question_keeps_a_withdrawn_answer :
    let db := Sample.reached bothWithdrawn
    OnReports bothWithdrawn ∧ ∃ b k, db.blindSpots.get 0 = some b ∧ b.isAutomatic = true ∧
      b.status = .resolved ∧ b.resolver = some k ∧ ¬ ∃ f, db.fragments.get k = some f ∧
        reportFragmentIsActive db.reports f = true := by
  intro db
  refine ⟨fun op hop => ?_, ?_⟩
  · simp only [bothWithdrawn, answerWithdrawn, List.take_succ_cons, List.take_zero, List.cons_append,
      List.nil_append, List.mem_cons, List.not_mem_nil, or_false] at hop
    rcases hop with rfl | rfl | rfl | rfl <;> rfl
  obtain ⟨b, hb, h⟩ := (Option.any_eq_true _ _).mp
    (show (db.blindSpots.get 0).any (fun b => b.isAutomatic && decide (b.status = .resolved) &&
      decide (b.resolver = some 1) && (db.fragments.get 1).all fun f =>
        !reportFragmentIsActive db.reports f) = true by decide +kernel)
  simp only [Bool.and_eq_true, decide_eq_true_eq] at h
  obtain ⟨⟨⟨hauto, hres⟩, hk⟩, hdead⟩ := h
  refine ⟨b, 1, hb, hauto, hres, hk, ?_⟩
  rintro ⟨f, hf, hactive⟩
  rw [hf] at hdead
  simp [hactive] at hdead

end Runs
end CrisisMosaic
