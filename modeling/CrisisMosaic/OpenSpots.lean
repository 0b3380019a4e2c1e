import CrisisMosaic.SpotCourses
import CrisisMosaic.StandingCases

/-!
# Open blind spots and their origin

An automatic blind spot that is open names the fragment that leaves its claim
unknown. Handing over and detection choose such a fragment; reopening takes the
recorded origin, whatever its claim has become.
-/

namespace CrisisMosaic
open Relational

namespace BlindSpot
variable {reports reports' : Table Report} {fragments fragments' : Table InformationFragment}
  {gone : Option Id} {a b : BlindSpot} {k : Id} {f : InformationFragment}

/-- The spot was opened, or last taken over, for the fragment `k`. -/
structure OpenedFor (fragments : Table InformationFragment) (b : BlindSpot) (k : Id)
    (f : InformationFragment) : Prop where
  origin : b.origin = some k
  stored : fragments.get k = some f
  incident : f.incidentId = b.incidentId

/-- The fragment counts and leaves the claim of the spot unknown. -/
structure LeftOpenBy (reports : Table Report) (b : BlindSpot) (f : InformationFragment) : Prop where
  active : reportFragmentIsActive reports f = true
  claimValue : f.claimValue = some "unknown"
  claimKey : f.claimKey = some b.claimKey

/-- The spot has an origin, which leaves it open while it is open. -/
structure Founded (reports : Table Report) (fragments : Table InformationFragment) (b : BlindSpot) :
    Prop where
  origin : ∃ k f, b.OpenedFor fragments k f
  gap : b.isOpen = true → ∀ k f, b.OpenedFor fragments k f → b.LeftOpenBy reports f

theorem OpenedFor.unique {j : Id} {g : InformationFragment} (h : b.OpenedFor fragments k f)
    (h' : b.OpenedFor fragments j g) : j = k ∧ g = f := by
  obtain rfl := Option.some.inj (h.origin.symm.trans h'.origin)
  exact ⟨rfl, Option.some.inj (h'.stored.symm.trans h.stored)⟩

theorem OpenedFor.carried (h : b.OpenedFor fragments k f)
    (hc : Carried reports reports' fragments fragments' gone) : ∃ g, b.OpenedFor fragments' k g ∧
      (gone ≠ some k → g = f ∧ (reportFragmentIsActive reports f = true →
        reportFragmentIsActive reports' f = true)) := by
  obtain ⟨g, hg, hinc, hsame⟩ := hc.rows k f h.stored
  exact ⟨g, ⟨h.origin, hg, hinc.trans h.incident⟩, hsame⟩

theorem founded_at (horigin : b.origin = some k) (hf : fragments.get k = some f)
    (hinc : f.incidentId = b.incidentId) (hgap : b.isOpen = true → b.LeftOpenBy reports f) :
    b.Founded reports fragments where
  origin := ⟨k, f, horigin, hf, hinc⟩
  gap := by
    intro hopen j g hg
    obtain ⟨-, rfl⟩ := OpenedFor.unique ⟨horigin, hf, hinc⟩ hg
    exact hgap hopen

namespace Founded

theorem carried (h : a.Founded reports fragments) (hc : Carried reports reports' fragments fragments' gone)
    (hkept : a.isOpen = true → ∀ k, a.origin = some k → gone ≠ some k) :
    a.Founded reports' fragments' := by
  obtain ⟨k, f, hk⟩ := h.origin
  obtain ⟨g, hg, hsame⟩ := hk.carried hc
  refine founded_at hg.origin hg.stored hg.incident fun hopen => ?_
  obtain ⟨rfl, hactive⟩ := hsame (hkept hopen k hk.origin)
  have hgap := h.gap hopen k g hk
  exact ⟨hactive hgap.active, hgap.claimValue, hgap.claimKey⟩

theorem of_view (h : a.Founded reports fragments) (hgap : a.SameGap b) (hview : b.view = a.view) :
    b.Founded reports fragments := by
  obtain ⟨hstatus, -, horigin, -⟩ := View.mk.inj hview
  obtain ⟨k, f, hk⟩ := h.origin
  refine founded_at (horigin.trans hk.origin) hk.stored (hk.incident.trans hgap.incident.symm) ?_
  intro hopen
  rw [isOpen_iff, hstatus, ← isOpen_iff] at hopen
  obtain ⟨hactive, hvalue, hkey⟩ := h.gap hopen k f hk
  exact ⟨hactive, hvalue, hkey.trans (congrArg some hgap.claimKey.symm)⟩

/-- A spot that is resolved keeps its origin, whatever that says. -/
theorem resolved (h : a.Founded reports fragments)
    (hc : Carried reports reports' fragments fragments' gone) (hgap : a.SameGap b)
    (horigin : b.origin = a.origin) (hres : b.status = .resolved) : b.Founded reports' fragments' := by
  obtain ⟨k, f, hk⟩ := h.origin
  obtain ⟨g, hg, -⟩ := hk.carried hc
  refine founded_at (horigin.trans hg.origin) hg.stored (hg.incident.trans hgap.incident.symm) ?_
  exact fun hopen => absurd hres (isOpen_iff.mp hopen)

/-- Reclassifying a fragment changes neither its claim nor whether it counts. -/
theorem reclassified (h : a.Founded reports fragments)
    (hr : fragments.Related InformationFragment.Reclassified fragments') :
    a.Founded reports fragments' := by
  obtain ⟨k, f, hk⟩ := h.origin
  obtain ⟨g, hg, hfg⟩ := hr.right_of_some hk.stored
  have hsame := hfg.1
  rw [InformationFragment.SameContent] at hsame
  refine founded_at hk.origin hg (by rw [hsame]; exact hk.incident) fun hopen => ?_
  obtain ⟨hactive, hvalue, hkey⟩ := h.gap hopen k f hk
  refine ⟨(hfg.active_eq reports).trans hactive, ?_, ?_⟩ <;> rw [hsame]
  · exact hvalue
  · exact hkey

end Founded
end BlindSpot

section Steps
open BlindSpot
variable {env : Env} {now : Time} {incidentId k : Id} {reports reports' : Table Report}
  {fragments fragments' : Table InformationFragment} {f : InformationFragment} {reason : String}
  {a b : BlindSpot}

/-- The spot would be reopened for the withdrawal of `k`, and only for an origin that still asks
for its claim. -/
def ReopensSoundly (env : Env) (reports : Table Report) (fragments : Table InformationFragment) (k : Id)
    (f : InformationFragment) (a : BlindSpot) : Prop :=
  a.resolver = some k → a.status = .resolved → stillResolves env reports a f = false →
    NoneNearby env a.incidentId reports fragments k a isConcrete →
    ∀ j g, a.OpenedFor fragments j g → g.claimValue = some "unknown" →
      reportFragmentIsActive reports g = true → g.claimKey = some a.claimKey

theorem BlindSpot.Founded.turned (h : a.Founded reports fragments)
    (hc : Carried reports reports' fragments fragments' (some k)) (hk : fragments'.get k = some f)
    (hinc : f.incidentId = incidentId) (hauto : a.isAutomatic = true)
    (hsound : a.incidentId = incidentId → ReopensSoundly env reports' fragments' k f a)
    (hturn : Turned env incidentId reports' fragments' k f reason a b) :
    b.Founded reports' fragments' := by
  unfold Turned at hturn
  split_ifs at hturn with hhere
  · obtain ⟨hinc', -⟩ := hhere
    obtain ⟨hgap, hturn⟩ := hturn
    have hfinc : f.incidentId = b.incidentId := hinc.trans (hinc'.symm.trans hgap.incident.symm)
    have hkey : ∀ {g : InformationFragment}, g.claimKey = some a.claimKey → g.claimKey = some b.claimKey :=
      fun hg => hg.trans (congrArg some hgap.claimKey.symm)
    have hkept : (a.origin = some k → a.isOpen = false) → b.view = a.view →
        b.Founded reports' fragments' := by
      refine fun hidle hview => (h.carried hc fun hopen j hj hgone => ?_).of_view hgap hview
      obtain rfl := Option.some.inj hgone
      exact absurd ((hidle hj).symm.trans hopen) nofun
    generalize hview : b.view = v at hturn
    have horigin : b.origin = v.origin := hview ▸ rfl
    have hstatus : b.status = v.status := hview ▸ rfl
    cases hturn with
    | kept _ hidle => exact hkept hidle hview
    | stranded _ hres _ _ _ => exact h.resolved hc hgap horigin (hstatus.trans hres)
    | handedOver c _ hres _ _ => exact h.resolved hc hgap horigin (hstatus.trans hres)
    | reopened hr hres hstill hnone hunknown =>
      obtain ⟨j, g, hj⟩ := h.origin
      obtain ⟨g', hg', -⟩ := hj.carried hc
      have hg : g'.claimValue = some "unknown" ∧ reportFragmentIsActive reports' g' = true := by
        have horig : (a.scope.get "origin_fragment_id").bind Json.asRef = some j := hj.origin
        unfold originStillUnknown at hunknown
        rw [horig, Option.bind_some, hg'.stored] at hunknown
        simpa using hunknown
      refine founded_at (horigin.trans hg'.origin) hg'.stored (hg'.incident.trans hgap.incident.symm) ?_
      exact fun _ => ⟨hg.2, hg.1, hkey (hsound hinc' hr hres hstill (hinc' ▸ hnone) j g' hg' hg.1 hg.2)⟩
    | unknownHere ho hopen hunknown =>
      simp only [stillUnknownHere, Bool.and_eq_true, decide_eq_true_eq] at hunknown
      obtain ⟨⟨⟨hclaim, hvalue⟩, hactive⟩, -⟩ := hunknown
      exact founded_at (horigin.trans ho) hk hfinc fun _ => ⟨hactive, hvalue, hkey hclaim⟩
    | answered _ _ _ _ => exact h.resolved hc hgap horigin hstatus
    | rehomed c _ hopen hmem hvalue =>
      obtain ⟨g, hg, hginc, hclaim, hactive, -, -⟩ := mem_activeNearby hmem
      have hvalue : g.claimValue = some "unknown" := by
        unfold claimValueOf at hvalue
        rw [hg] at hvalue
        exact hvalue
      exact founded_at horigin hg (hginc.trans (hinc.symm.trans hfinc)) fun _ =>
        ⟨hactive, hvalue, hkey hclaim⟩
    | retired _ _ _ _ _ => exact h.resolved hc hgap horigin hstatus
  · subst hturn
    obtain ⟨j, g, hj⟩ := h.origin
    obtain ⟨g', hg', hsame⟩ := hj.carried hc
    refine h.carried hc fun _ i hi hgone => hhere ⟨?_, hauto⟩
    obtain rfl := Option.some.inj hgone
    obtain rfl := Option.some.inj (hg'.origin.symm.trans hi)
    obtain rfl := Option.some.inj (hk.symm.trans hg'.stored)
    exact hg'.incident.symm.trans hinc

theorem BlindSpot.Founded.answered {conflicted : Bool} (h : a.Founded reports fragments)
    (hanswered : Answered env incidentId k f conflicted a b) : b.Founded reports fragments := by
  unfold Answered at hanswered
  split_ifs at hanswered
  · obtain ⟨hgap, hview⟩ := hanswered
    obtain ⟨hstatus, -, horigin, -⟩ := View.mk.inj hview
    exact h.resolved (.refl reports fragments none) hgap horigin hstatus
  · exact hanswered ▸ h

/-- Every automatic spot has its origin. -/
def AllFounded (reports : Table Report) (fragments : Table InformationFragment) (spots : Table BlindSpot) :
    Prop := spots.All fun _ b => b.isAutomatic = true → b.Founded reports fragments

/-- The fragment detection runs for leaves the spot it opens open. -/
theorem HasGap.founded {incidents : Table Incident} {revision : ℕ}
    (h : HasGap incidents reports fragments incidentId k revision f) (horigin : b.origin = some k)
    (hinc : b.incidentId = incidentId) (hkey : some b.claimKey = f.claimKey) :
    b.Founded reports fragments := by
  refine founded_at horigin h.stored (h.incident.trans hinc.symm) fun _ => ⟨?_, h.claimValue, hkey.symm⟩
  obtain ⟨r, hr, hlive⟩ := (Option.any_eq_true _ _).mp h.live
  obtain ⟨i, hi, hr⟩ := Option.bind_eq_some_iff.mp hr
  refine active_iff.mpr ⟨fun hw => ?_, fun _ => ⟨i, r, hi, hr, hlive⟩⟩
  have hstatus := h.status
  rw [hw] at hstatus
  exact hstatus.elim nofun nofun

theorem AllFounded.detected {incidents : Table Incident} {revision : ℕ} {dueAt : Option Time}
    {spots spots' : Table BlindSpot} (h : AllFounded reports fragments spots)
    (hd : Detected env now incidents reports fragments incidentId k revision dueAt spots spots') :
    AllFounded reports fragments spots' := by
  cases hd with
  | noGap | early | settled | present => exact h
  | reopened f hf hfind hauto _ hgap hview =>
    obtain ⟨-, hspot⟩ := Table.find_some hfind
    refine Table.All.modify h fun _ _ _ _ => hf.founded (congrArg View.origin hview) ?_ ?_ <;>
      simp only [spotFor, Bool.and_eq_true, decide_eq_true_eq] at hspot
    · exact hgap.incident.trans hspot.1.1
    · exact hgap.claimKey ▸ hspot.1.2
  | created f hf _ hauto hinc hkey _ hview =>
    exact Table.All.insert h fun _ => hf.founded (congrArg View.origin hview) hinc hkey

end Steps

section Runs
variable {env : Env} {now : Time} {db : Db} {op : Op} {o : Outcome}

/-- If it is accepted, the operation reopens no spot for an origin that now makes another claim. -/
def KeepsOrigins (env : Env) (db : Db) (op : Op) : Prop :=
  ∀ o, transact env db op = .ok o → ∀ w, op.rewrites env db = some w →
    db.blindSpots.All fun _ a => a.isAutomatic = true → a.incidentId = w.fragment.incidentId →
      ReopensSoundly env w.reports w.fragments w.id w.fragment a

/-- Origins that all make the claim of their spots are no danger. -/
theorem KeepsOrigins.of_keys (h : ((op.rewrites env db).all fun w => db.blindSpots.rows.all fun a =>
    (a.origin.bind w.fragments.get).all fun g => g.claimKey = some a.claimKey) = true) :
    KeepsOrigins env db op := by
  intro o _ w hw i a ha _ _ _ _ _ _ j g hg _ _
  rw [hw, Option.all_some, List.all_eq_true] at h
  have hkey := h a (List.mem_of_getElem? ha)
  rw [hg.origin, Option.bind_some, hg.stored] at hkey
  simpa using hkey

theorem AllFounded.reclassified {reports : Table Report} {fragments fragments' : Table InformationFragment}
    {spots : Table BlindSpot} (h : AllFounded reports fragments spots)
    (hr : fragments.Related InformationFragment.Reclassified fragments') :
    AllFounded reports fragments' spots :=
  fun i b hb hauto => (h i b hb hauto).reclassified hr

theorem AllFounded.turned {incidentId k : Id} {reports reports' : Table Report}
    {fragments fragments' : Table InformationFragment} {f : InformationFragment} {reason : String}
    {spots spots' : Table BlindSpot} (h : AllFounded reports fragments spots)
    (hc : Carried reports reports' fragments fragments' (some k)) (hk : fragments'.get k = some f)
    (hinc : f.incidentId = incidentId)
    (hsound : spots.All fun _ a => a.isAutomatic = true → a.incidentId = f.incidentId →
      ReopensSoundly env reports' fragments' k f a)
    (hturn : spots.Related (Turned env incidentId reports' fragments' k f reason) spots') :
    AllFounded reports' fragments' spots' := by
  intro i b hb hauto
  obtain ⟨a, ha, hab⟩ := hturn.left_of_some hb
  have hauto' : a.isAutomatic = true := by
    unfold Turned at hab
    split_ifs at hab with hhere
    · exact hhere.2
    · exact hab ▸ hauto
  refine (h i a ha hauto').turned hc hk hinc hauto' (fun hhere => ?_) hab
  exact hsound i a ha hauto' (hhere.trans hinc.symm)

theorem AllFounded.answered {incidentId k : Id} {f : InformationFragment} {conflicted : Bool}
    {reports : Table Report} {fragments : Table InformationFragment} {spots spots' : Table BlindSpot}
    (h : AllFounded reports fragments spots)
    (ha : spots.Related (Answered env incidentId k f conflicted) spots') :
    AllFounded reports fragments spots' := by
  intro i b hb hauto
  obtain ⟨a, ha, hab⟩ := ha.left_of_some hb
  refine (h i a ha ?_).answered hab
  unfold Answered at hab
  split_ifs at hab
  · exact hab.1.automatic ▸ hauto
  · exact hab ▸ hauto

theorem SpotStages.founded (h : SpotStages env db op o) (hr : Resident env db.reports db.fragments)
    (hkeeps : ∀ w, op.rewrites env db = some w → db.blindSpots.All fun _ a => a.isAutomatic = true →
      a.incidentId = w.fragment.incidentId → ReopensSoundly env w.reports w.fragments w.id w.fragment a)
    (hdb : AllFounded db.reports db.fragments db.blindSpots) :
    AllFounded o.db.reports o.db.fragments o.db.blindSpots := by
  refine h.keeps hr ⟨fun h => h.reclassified, ?_, ?_, fun h _ hd => h.detected hd,
    fun _ _ _ _ h hans => h.answered hans⟩
  · exact fun _ hc i b hb hauto => (hdb i b hb hauto).carried hc fun _ _ _ => nofun
  · intro w reason spots spots' hw hc hk hturned hd
    have hspots := hdb.turned hc hk rfl (hkeeps w hw) hturned
    unfold DetectedNext at hd
    split_ifs at hd
    · obtain ⟨feed, -, hd⟩ := hd
      exact hspots.detected hd
    · exact hd ▸ hspots

/-- The blind spots are founded on resident fragments. -/
structure SpotsFounded (env : Env) (db : Db) : Prop where
  stands : StandsOnReports env db
  founded : AllFounded db.reports db.fragments db.blindSpots

theorem step_spotsFounded (h : SpotsFounded env db) (hop : op.call.isReportOperation = true)
    (hkeeps : KeepsOrigins env db op) : SpotsFounded env (step env db op) := by
  refine ⟨step_standsOnReports env h.stands hop, ?_⟩
  refine step_cases (P := fun t : Db => AllFounded t.reports t.fragments t.blindSpots) h.founded fun o ho => ?_
  have hresident : Resident env db.begin.reports db.begin.fragments := h.stands.resident
  exact (handle_stages ho hop).spots.founded hresident (hkeeps o ho) h.founded

theorem initial_spotsFounded (incidents : Table Incident) (devices : Table AnonymousDevice)
    (attachments : Table Attachment) : SpotsFounded env (Db.initial incidents devices attachments) :=
  ⟨initial_standsOnReports env incidents devices attachments, fun _ _ h => nomatch h⟩

/-- While only reports are operated on, and no spot is reopened for an origin that makes another
claim, every open automatic blind spot has a counting origin that leaves its claim unknown. -/
theorem open_spots_have_an_unknown_origin (env : Env) (incidents : Table Incident)
    (devices : Table AnonymousDevice) (attachments : Table Attachment) (ops : List Op)
    (hops : OnReports ops)
    (hkeeps : Along (step env) (KeepsOrigins env) (Db.initial incidents devices attachments) ops) :
    let db := reached env incidents devices attachments ops
    ∀ i b, db.blindSpots.get i = some b → b.isAutomatic = true → b.isOpen = true →
      ∃ k f, b.origin = some k ∧ db.fragments.get k = some f ∧
        reportFragmentIsActive db.reports f = true ∧ f.claimValue = some "unknown" ∧
        f.claimKey = some b.claimKey := by
  intro db i b hb hauto hopen
  have h : SpotsFounded env db := run_invariant (step env) (fun t op ht hc => step_spotsFounded ht hc.1 hc.2)
    (initial_spotsFounded incidents devices attachments) ((along_and _).mpr ⟨along_onReports env hops _, hkeeps⟩)
  have hfounded := h.founded i b hb hauto
  obtain ⟨k, f, hk⟩ := hfounded.origin
  have hgap := hfounded.gap hopen k f hk
  exact ⟨k, f, hk.origin, hk.stored, hgap.active, hgap.claimValue, hgap.claimKey⟩

namespace Sample

/-- One resident asks about a road, another answers and takes the answer back. -/
def answerWithdrawn : List Op :=
  [⟨0, resident, none, .postReport (.id 0) (roadReport "road unknown") (.ok none) (.ok ())⟩,
    ⟨1, neighbour, none, .postReport (.id 0) (roadReport "road closed") (.ok none) (.ok ())⟩,
    ⟨3, neighbour, none, .deleteReport 1 1⟩]

theorem answerWithdrawn_onReports : OnReports answerWithdrawn := by
  intro op hop
  simp only [answerWithdrawn, List.mem_cons, List.not_mem_nil, or_false] at hop
  rcases hop with rfl | rfl | rfl <;> rfl

/-- In between, the question is moved to another road. -/
def questionMoved : List Op :=
  answerWithdrawn.take 2 ++
    [⟨2, resident, none, .patchReport 0 ⟨1, none, none, none, none,
      some (some ⟨"b", none, none, none, "manual", none, none, none, unplaced, no_system⟩), none, none, none⟩
      (.ok none)⟩] ++ answerWithdrawn.drop 2

end Sample

open Sample in
theorem withdrawn_answer_leaves_an_unknown_origin :
    let db := Sample.reached answerWithdrawn
    ∃ b, db.blindSpots.get 0 = some b ∧ b.isOpen = true ∧ ∃ k f, b.origin = some k ∧
      db.fragments.get k = some f ∧ reportFragmentIsActive db.reports f = true ∧
      f.claimValue = some "unknown" ∧ f.claimKey = some b.claimKey := by
  intro db
  have hkeeps : Along (step Sample.env) (KeepsOrigins Sample.env) Sample.initial answerWithdrawn :=
    ⟨.of_keys (by decide +kernel), .of_keys (by decide +kernel), .of_keys (by decide +kernel), trivial⟩
  obtain ⟨b, hb, hopen⟩ := (Option.any_eq_true _ _).mp
    (show (db.blindSpots.get 0).any (fun b => b.isAutomatic && b.isOpen) = true by decide +kernel)
  rw [Bool.and_eq_true] at hopen
  have h := open_spots_have_an_unknown_origin Sample.env _ _ _ answerWithdrawn answerWithdrawn_onReports hkeeps
  rw [Sample.reached_eq] at h
  exact ⟨b, hb, hopen.2, h 0 b hb hopen.1 hopen.2⟩

open Sample in
theorem moved_question_reopens_the_old_road :
    let db := Sample.reached questionMoved
    OnReports questionMoved ∧ ∃ b, db.blindSpots.get 0 = some b ∧ b.isAutomatic = true ∧
      b.isOpen = true ∧ ¬ ∃ k f, b.origin = some k ∧ db.fragments.get k = some f ∧
        reportFragmentIsActive db.reports f = true ∧ f.claimValue = some "unknown" ∧
        f.claimKey = some b.claimKey := by
  intro db
  refine ⟨fun op hop => ?_, ?_⟩
  · simp only [questionMoved, answerWithdrawn, List.take_succ_cons, List.take_zero, List.drop_succ_cons,
      List.drop_zero, List.cons_append, List.nil_append, List.mem_cons, List.not_mem_nil, or_false] at hop
    rcases hop with rfl | rfl | rfl | rfl <;> rfl
  obtain ⟨b, hb, h⟩ := (Option.any_eq_true _ _).mp
    (show (db.blindSpots.get 0).any (fun b => b.isAutomatic && b.isOpen &&
      (b.origin.bind db.fragments.get).all fun f => f.claimKey ≠ some b.claimKey) = true by decide +kernel)
  simp only [Bool.and_eq_true] at h
  refine ⟨b, hb, h.1.1, h.1.2, ?_⟩
  rintro ⟨k, f, hk, hf, -, -, hkey⟩
  have hall := h.2
  rw [hk, Option.bind_some, hf] at hall
  simp [hkey] at hall

end Runs
end CrisisMosaic
