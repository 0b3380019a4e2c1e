import CrisisMosaic.LostDetections
import CrisisMosaic.ResolvedSpots

/-!
# What covers an unknown report

A fragment whose claim is unknown is covered by a concrete one of the same claim and place that is
not older, or by an open blind spot there. A detection that looks into the gap finds a cover or
leaves one.
-/

namespace CrisisMosaic
open Relational

/-- The places are the same, or near each other as the source compares them in either order. -/
def Place.IsAt (env : Env) (a b : Place) : Prop := b = a ∨ samePlace env a b = true

namespace InformationFragment

/-- `g` says what `f` leaves unknown, at the same place and no earlier. -/
structure IsAnsweredBy (env : Env) (reports : Table Report) (f g : InformationFragment) : Prop where
  incident : g.incidentId = f.incidentId
  claimKey : g.claimKey = f.claimKey
  concrete : isConcrete g.claimValue = true
  active : reportFragmentIsActive reports g = true
  place : f.place.IsAt env g.place
  later : f.receivedAt ≤ g.receivedAt

/-- The spot is for gaps in the reports, and about the claim of the fragment at its place. -/
structure IsSpottedBy (env : Env) (f : InformationFragment) (b : BlindSpot) : Prop where
  automatic : b.isAutomatic = true
  incident : b.incidentId = f.incidentId
  claimKey : f.claimKey = some b.claimKey
  place : f.place.IsAt env b.place

def HasAnswer (env : Env) (reports : Table Report) (fragments : Table InformationFragment)
    (f : InformationFragment) : Prop :=
  ∃ l g, fragments.get l = some g ∧ f.IsAnsweredBy env reports g

def HasOpenSpot (env : Env) (spots : Table BlindSpot) (f : InformationFragment) : Prop :=
  ∃ i b, spots.get i = some b ∧ f.IsSpottedBy env b ∧ b.isOpen = true

/-- What the fragment leaves unknown is answered, or a spot about it is open. -/
def Covered (env : Env) (reports : Table Report) (fragments : Table InformationFragment)
    (spots : Table BlindSpot) (f : InformationFragment) : Prop :=
  f.HasAnswer env reports fragments ∨ f.HasOpenSpot env spots

section Covers
variable {env : Env} {reports : Table Report} {fragments fragments' : Table InformationFragment}
  {spots spots' : Table BlindSpot} {f g h : InformationFragment} {a b : BlindSpot}

theorem IsAnsweredBy.reclassified (hg : f.IsAnsweredBy env reports g) (hc : g.Reclassified h) :
    f.IsAnsweredBy env reports h := by
  have hactive := hc.active_eq reports
  have hsame := hc.1
  rw [SameContent] at hsame
  refine ⟨?_, ?_, ?_, hactive.trans hg.active, ?_, ?_⟩ <;> rw [hsame]
  · exact hg.incident
  · exact hg.claimKey
  · exact hg.concrete
  · exact hg.place
  · exact hg.later

theorem HasAnswer.reclassified (hf : f.HasAnswer env reports fragments)
    (hc : fragments.Related Reclassified fragments') : f.HasAnswer env reports fragments' := by
  obtain ⟨l, g, hg, hanswered⟩ := hf
  obtain ⟨h, hh, hgh⟩ := hc.right_of_some hg
  exact ⟨l, h, hh, hanswered.reclassified hgh⟩

theorem IsSpottedBy.sameGap (ha : f.IsSpottedBy env a) (hgap : a.SameGap b) : f.IsSpottedBy env b where
  automatic := hgap.automatic.trans ha.automatic
  incident := hgap.incident.trans ha.incident
  claimKey := ha.claimKey.trans (congrArg some hgap.claimKey.symm)
  place := hgap.place ▸ ha.place

theorem Covered.reclassified (hf : f.Covered env reports fragments spots)
    (hc : fragments.Related Reclassified fragments') : f.Covered env reports fragments' spots :=
  hf.imp_left fun hanswer => hanswer.reclassified hc

/-- What covers a fragment covers another one of the same content. -/
theorem Covered.sameContent (hf : f.Covered env reports fragments spots) (hsame : f.SameContent g) :
    g.Covered env reports fragments spots := by
  rw [SameContent] at hsame
  rw [hsame]
  refine hf.imp ?_ ?_
  · rintro ⟨l, h, hh, hanswered⟩
    exact ⟨l, h, hh, ⟨hanswered.incident, hanswered.claimKey, hanswered.concrete, hanswered.active,
      hanswered.place, hanswered.later⟩⟩
  · rintro ⟨i, b, hb, hspot, hopen⟩
    exact ⟨i, b, hb, ⟨hspot.automatic, hspot.incident, hspot.claimKey, hspot.place⟩, hopen⟩

end Covers
end InformationFragment

open InformationFragment

/-- Every blind spot is for gaps in the reports. -/
def AllAutomatic (spots : Table BlindSpot) : Prop := spots.All fun _ b => b.isAutomatic = true

section Detection
variable {env : Env} {now : Time} {incidents : Table Incident} {reports : Table Report}
  {fragments : Table InformationFragment} {incidentId k revision : ℕ} {due : Option Time} {dueAt : Time}
  {spots spots' : Table BlindSpot} {f : InformationFragment} {i : Id} {a b : BlindSpot}

/-- A detection closes no spot. -/
theorem Detected.keeps_row (h : Detected env now incidents reports fragments incidentId k revision
    due spots spots') (ha : spots.get i = some a) :
    ∃ b, spots'.get i = some b ∧ a.SameGap b ∧ (a.isOpen = true → b.isOpen = true) := by
  cases h with
  | noGap | early | settled | present => exact ⟨a, ha, .refl a, id⟩
  | @reopened _ j x y _ hfind _ hclosed hgap _ =>
    by_cases hji : j = i
    · subst hji
      obtain rfl := Option.some.inj ((Table.find_some hfind).1.symm.trans ha)
      exact ⟨y, by simp [ha], hgap, fun hopen => absurd (hclosed.symm.trans hopen) (by decide)⟩
    · exact ⟨a, (Table.get_modify_of_ne _ _ hji).trans ha, .refl a, id⟩
  | created => exact ⟨a, Table.get_insert_of_some _ ha, .refl a, id⟩

theorem InformationFragment.HasOpenSpot.detected (hf : f.HasOpenSpot env spots)
    (h : Detected env now incidents reports fragments incidentId k revision due spots spots') :
    f.HasOpenSpot env spots' := by
  obtain ⟨i, a, ha, hspot, hopen⟩ := hf
  obtain ⟨b, hb, hgap, hkept⟩ := h.keeps_row ha
  exact ⟨i, b, hb, hspot.sameGap hgap, hkept hopen⟩

theorem Detected.automatic (h : Detected env now incidents reports fragments incidentId k revision
    due spots spots') (hspots : AllAutomatic spots) : AllAutomatic spots' := by
  cases h with
  | noGap | early | settled | present => exact hspots
  | reopened _ _ _ hauto _ hgap _ => exact Table.All.modify hspots fun _ _ _ => hgap.automatic.trans hauto
  | created _ _ _ hauto _ _ _ _ => exact Table.All.insert hspots hauto

theorem spotted_of_spotFor (hauto : b.isAutomatic = true) (hinc : f.incidentId = incidentId)
    (h : spotFor env incidentId f b = true) : f.IsSpottedBy env b := by
  simp only [spotFor, Bool.and_eq_true, decide_eq_true_eq] at h
  exact ⟨hauto, h.1.1.trans hinc.symm, h.1.2.symm, Or.inr (by simp [samePlace, h.2])⟩

/-- What detection finds is an answer. -/
theorem answer_of_gapIsAnswered
    (h : gapIsAnswered env reports fragments k f = true) : f.HasAnswer env reports fragments := by
  simp only [gapIsAnswered, ne_eq, decide_not, Bool.not_eq_true', decide_eq_false_iff_not] at h
  obtain ⟨l, hl⟩ := List.exists_mem_of_ne_nil _ h
  obtain ⟨g, hg, hanswers⟩ := Table.mem_select.mp (List.mem_filter.mp hl).1
  simp only [Bool.and_eq_true, decide_eq_true_eq] at hanswers
  obtain ⟨⟨⟨⟨⟨hinc, hkey⟩, hconcrete⟩, hlater⟩, hactive⟩, hplace⟩ := hanswers
  exact ⟨l, g, hg, hinc, hkey, hconcrete, hactive, Or.inr (by simp [samePlace, hplace]), hlater⟩

/-- A detection that looks into a gap finds a cover or leaves one. -/
theorem Detected.covers (h : Detected env now incidents reports fragments incidentId k revision
    (some dueAt) spots spots') (hspots : AllAutomatic spots)
    (hgap : HasGap incidents reports fragments incidentId k revision f) (hdue : dueAt ≤ now) :
    f.Covered env reports fragments spots' := by
  have hsame : ∀ {g}, HasGap incidents reports fragments incidentId k revision g → g = f := fun hg =>
    Option.some.inj (hg.stored.symm.trans hgap.stored)
  cases h with
  | noGap hnone => exact absurd hgap (hnone f)
  | early _ _ hearly => exact absurd hdue (not_le.mpr (hearly dueAt rfl))
  | settled g hg hanswered =>
    obtain rfl := hsame hg
    exact Or.inl (answer_of_gapIsAnswered hanswered)
  | present g hg hfind hpresent =>
    obtain rfl := hsame hg
    obtain ⟨hx, hspot⟩ := Table.find_some hfind
    have hauto := hspots _ _ hx
    have hopen := hpresent.resolve_left fun hmanual => absurd (hauto.symm.trans hmanual) (by decide)
    exact Or.inr ⟨_, _, hx, spotted_of_spotFor hauto hg.incident hspot, hopen⟩
  | @reopened g i x y hg hfind hauto _ hxy hview =>
    obtain rfl := hsame hg
    obtain ⟨hx, hspot⟩ := Table.find_some hfind
    have hstatus : y.status = .reopened := congrArg BlindSpot.View.status hview
    have hopen : y.isOpen = true := BlindSpot.isOpen_iff.mpr (by rw [hstatus]; decide)
    refine Or.inr ⟨i, y, by simp [hx], ?_, hopen⟩
    exact (spotted_of_spotFor hauto hg.incident hspot).sameGap hxy
  | @created g y hg _ hauto hinc hkey hplace hview =>
    obtain rfl := hsame hg
    have hstatus : y.status = .opened := congrArg BlindSpot.View.status hview
    have hopen : y.isOpen = true := BlindSpot.isOpen_iff.mpr (by rw [hstatus]; decide)
    refine Or.inr ⟨spots.size, y, Table.get_insert_size _ _, ?_, hopen⟩
    exact ⟨hauto, hinc.trans hg.incident.symm, hkey.symm, Or.inl hplace⟩

end Detection
end CrisisMosaic

/-!
## The covers a request leaves

A request withdraws or rewrites the fragment of one report, which takes that answer away and turns
the spots that name it, and a concrete claim answers the spots around it. What covers another gap
after the request is read from the state before it.
-/

namespace CrisisMosaic
open Relational InformationFragment

/-- The turn of the spot for the written fragment leaves it open. -/
inductive TurnsOpen (env : Env) (w : Rewriting) (a : BlindSpot) : Prop
  | aside : a.isOpen = true → (a.incidentId = w.fragment.incidentId → a.origin ≠ some w.id) →
      TurnsOpen env w a
  | unknownHere : a.isOpen = true → stillUnknownHere env w.reports w.fragment a = true → TurnsOpen env w a
  | rehomed : a.isOpen = true → answersClaim w.reports w.fragment a = false →
      ¬ NoneNearby env w.fragment.incidentId w.reports w.fragments w.id a (fun v => v = some "unknown") →
      TurnsOpen env w a
  | reopened : a.incidentId = w.fragment.incidentId → a.resolver = some w.id → a.status = .resolved →
      stillResolves env w.reports a w.fragment = false →
      NoneNearby env w.fragment.incidentId w.reports w.fragments w.id a isConcrete →
      originStillUnknown w.reports w.fragments a = true → TurnsOpen env w a

namespace Op

/-- The claim that the request leaves in the fragment of its report answers the spot. -/
def answersSpot (env : Env) (db : Db) (op : Op) (b : BlindSpot) : Bool :=
  (op.upsert env db).any fun u => u.changed && truthy u.fragment.claimKey &&
    isConcrete u.fragment.claimValue && spotFor env u.fragment.incidentId u.fragment b

/-- The written fragment is explicitly uncertain, and the detection that follows at once finds no
answer to it. -/
structure LooksAtOnce (env : Env) (db : Db) (op : Op) (w : Rewriting) : Prop where
  observes : op.observes db = true
  uncertain : isExplicitlyUncertain env w.fragment = true
  gap : HasGap db.feed.incidents w.reports w.fragments w.fragment.incidentId w.id w.fragment.revision
    w.fragment
  due : w.fragment.receivedAt ≤ op.now
  unanswered : gapIsAnswered env w.reports w.fragments w.id w.fragment = false

/-- A spot about the fragment is open after the request. -/
inductive LeavesSpot (env : Env) (db : Db) (op : Op) (f : InformationFragment) : Prop
  | aside {i : Id} {b : BlindSpot} : op.rewrites env db = none → db.blindSpots.get i = some b →
      f.IsSpottedBy env b → b.isOpen = true → op.answersSpot env db b = false → LeavesSpot env db op f
  | turned {w : Rewriting} {i : Id} {b : BlindSpot} : op.rewrites env db = some w →
      db.blindSpots.get i = some b → f.IsSpottedBy env b → TurnsOpen env w b →
      op.answersSpot env db b = false → LeavesSpot env db op f
  | found {w : Rewriting} {i : Id} {b : BlindSpot} : op.rewrites env db = some w →
      op.LooksAtOnce env db w → db.blindSpots.first (spotFor env w.fragment.incidentId w.fragment) = some i →
      db.blindSpots.get i = some b → f.IsSpottedBy env b → LeavesSpot env db op f
  | opened {w : Rewriting} : op.rewrites env db = some w → op.LooksAtOnce env db w →
      db.blindSpots.first (spotFor env w.fragment.incidentId w.fragment) = none →
      f.incidentId = w.fragment.incidentId → f.claimKey = w.fragment.claimKey →
      f.place.IsAt env w.fragment.place → LeavesSpot env db op f

/-- The fragment is covered after the request: by an answer that the request does not write, by
the claim the request leaves, or by an open spot. -/
inductive LeavesCover (env : Env) (db : Db) (op : Op) (f : InformationFragment) : Prop
  | kept {l : Id} {g : InformationFragment} : db.fragments.get l = some g →
      f.IsAnsweredBy env db.reports g → (∀ w, op.rewrites env db = some w → w.id ≠ l) →
      LeavesCover env db op f
  | answers {id : Id} {r : Report} {u : FragmentUpsert} : op.storedReport env db = some (id, r) →
      op.upsert env db = some u → f.IsAnsweredBy env (storeRow db.reports id r) u.fragment →
      LeavesCover env db op f
  | spotted : op.LeavesSpot env db f → LeavesCover env db op f

end Op

section Turns
variable {env : Env} {w : Rewriting} {reason : String} {a b : BlindSpot}

theorem Turned.turnsOpen (hauto : a.isAutomatic = true) (h : TurnsOpen env w a)
    (hturn : Turned env w.fragment.incidentId w.reports w.fragments w.id w.fragment reason a b) :
    a.SameGap b ∧ b.isOpen = true := by
  unfold Turned at hturn
  split_ifs at hturn with hhere
  · refine ⟨hturn.1, ?_⟩
    obtain ⟨-, hturn⟩ := hturn
    generalize hview : b.view = v at hturn
    have hstatus : b.status = v.status := hview ▸ rfl
    rw [BlindSpot.isOpen_iff, hstatus]
    by_cases hopen : a.isOpen = true
    · have hne := BlindSpot.isOpen_iff.mp hopen
      cases hturn with
      | kept | stranded | handedOver | unknownHere | rehomed => exact hne
      | reopened => simp
      | answered horigin _ hgone hanswers =>
        cases h with
        | aside _ hidle => exact absurd horigin (hidle hhere.1)
        | unknownHere _ hstill => exact absurd (hgone.symm.trans hstill) (by decide)
        | rehomed _ hno _ => exact absurd (hno.symm.trans hanswers) (by decide)
        | reopened _ _ hres => exact absurd hres hne
      | retired horigin _ hgone _ hnone =>
        cases h with
        | aside _ hidle => exact absurd horigin (hidle hhere.1)
        | unknownHere _ hstill => exact absurd (hgone.symm.trans hstill) (by decide)
        | rehomed _ _ hsome => exact absurd hnone hsome
        | reopened _ _ hres => exact absurd hres hne
    · cases h with
      | aside hopen' | unknownHere hopen' | rehomed hopen' => exact absurd hopen' hopen
      | reopened _ hresolver hres hstill hnone horigin =>
        cases hturn with
        | kept hkept _ => exact absurd (hstill.symm.trans (hkept hresolver hres)) (by decide)
        | stranded _ _ _ _ hno => exact absurd (hno.symm.trans horigin) (by decide)
        | handedOver c _ _ hmem hconcrete => exact absurd ((hnone c hmem).symm.trans hconcrete) (by decide)
        | reopened => simp
        | unknownHere _ hopen' | answered _ hopen' | rehomed _ _ hopen' | retired _ hopen' =>
          exact absurd hopen' hopen
  · subst hturn
    refine ⟨.refl _, ?_⟩
    cases h with
    | aside hopen | unknownHere hopen | rehomed hopen => exact hopen
    | reopened hinc => exact absurd ⟨hinc, hauto⟩ hhere

theorem Answered.same {incidentId k : Id} {f : InformationFragment} {conflicted : Bool}
    (h : Answered env incidentId k f conflicted a b) : a.SameGap b := by
  unfold Answered at h
  split_ifs at h
  · exact h.1
  · exact h ▸ .refl a

theorem AllAutomatic.related {spots spots' : Table BlindSpot} (h : AllAutomatic spots)
    (hgap : spots.Related BlindSpot.SameGap spots') : AllAutomatic spots' := by
  intro i b hb
  obtain ⟨a, ha, hab⟩ := hgap.left_of_some hb
  exact hab.automatic.trans (h i a ha)

end Turns

section Requests
variable {env : Env} {db : Db} {op : Op} {o : Outcome} {w : Rewriting} {f g : InformationFragment}
  {a b : BlindSpot} {spots spots' : Table BlindSpot} {i k revision : ℕ}

theorem DetectedNext.keeps_row (h : DetectedNext env db op w spots spots') (ha : spots.get i = some a) :
    ∃ b, spots'.get i = some b ∧ a.SameGap b ∧ (a.isOpen = true → b.isOpen = true) := by
  unfold DetectedNext at h
  split_ifs at h
  · obtain ⟨feed, -, hd⟩ := h
    exact hd.keeps_row ha
  · exact ⟨a, h ▸ ha, .refl a, id⟩

theorem DetectedNext.automatic (h : DetectedNext env db op w spots spots') (hspots : AllAutomatic spots) :
    AllAutomatic spots' := by
  unfold DetectedNext at h
  split_ifs at h
  · obtain ⟨feed, -, hd⟩ := h
    exact hd.automatic hspots
  · exact h ▸ hspots

theorem SpotStages.automatic (h : SpotStages env db op o) (hr : Resident env db.reports db.fragments)
    (hdb : AllAutomatic db.blindSpots) : AllAutomatic o.db.blindSpots := by
  refine h.keeps (I := fun _ _ spots => AllAutomatic spots) hr ⟨fun h _ => h, fun _ _ => hdb, ?_, ?_, ?_⟩
  · intro w reason spots spots' _ _ _ hturned hd
    exact hd.automatic (hdb.related (hturned.mono fun _ _ hab => hab.same))
  · exact fun h _ hd => hd.automatic h
  · exact fun _ _ _ _ h hanswered => h.related (hanswered.mono fun _ _ hab => hab.same)

theorem Op.answersSpot_eq (h : a.SameGap b) : op.answersSpot env db b = op.answersSpot env db a := by
  unfold Op.answersSpot
  simp only [h.spotFor_eq]

/-- An unknown claim answers no spot. -/
theorem Op.LooksAtOnce.answers_none (h : op.LooksAtOnce env db w) (hw : op.rewrites env db = some w)
    (b : BlindSpot) : op.answersSpot env db b = false := by
  unfold Op.answersSpot
  cases hu : op.upsert env db with
  | none => rfl
  | some u =>
    obtain ⟨id, r, hr, rfl⟩ := Op.upsert_some hu
    rw [Op.rewrites_observed hr h.observes, Option.map_eq_some_iff] at hw
    obtain ⟨k, -, rfl⟩ := hw
    have hunknown := h.gap.claimValue
    dsimp only at hunknown
    rw [Option.any_some, hunknown, (by decide : isConcrete (some "unknown") = false)]
    simp

/-- The spot that the immediate detection opens. -/
theorem Op.LooksAtOnce.opens (h : op.LooksAtOnce env db w)
    (hfirst : db.blindSpots.first (spotFor env w.fragment.incidentId w.fragment) = none)
    (hgap : db.blindSpots.Related BlindSpot.SameGap spots) (hd : DetectedNext env db op w spots spots') :
    ∃ i b, spots'.get i = some b ∧ b.isAutomatic = true ∧ b.incidentId = w.fragment.incidentId ∧
      some b.claimKey = w.fragment.claimKey ∧ b.place = w.fragment.place ∧ b.isOpen = true := by
  unfold DetectedNext at hd
  rw [if_pos ⟨h.observes, h.gap.claimValue, h.uncertain⟩] at hd
  obtain ⟨feed, hfeed, hd⟩ := hd
  have hselect := hgap.select_eq (p := spotFor env w.fragment.incidentId w.fragment)
    (q := spotFor env w.fragment.incidentId w.fragment) fun _ _ _ _ _ hab => (hab.spotFor_eq _ _).symm
  have hnone : ∀ {p}, spots.find (spotFor env w.fragment.incidentId w.fragment) ≠ some p := by
    intro p hfind
    unfold Table.find Table.first at hfind
    unfold Table.first at hfirst
    rw [← hselect, hfirst] at hfind
    cases hfind
  have hstored : ∀ {f}, HasGap feed.incidents w.reports w.fragments w.fragment.incidentId w.id
      w.fragment.revision f → f = w.fragment := fun hf =>
    Option.some.inj (hf.stored.symm.trans h.gap.stored)
  cases hd with
  | noGap hno => exact absurd { h.gap with active := (hfeed.active _).trans h.gap.active } (hno w.fragment)
  | early f _ hearly => exact absurd (hearly _ rfl) (not_lt.mpr h.due)
  | settled f hf hanswered =>
    rw [hstored hf, h.unanswered] at hanswered
    cases hanswered
  | present f hf hfind => exact absurd (hstored hf ▸ hfind) hnone
  | reopened f hf hfind => exact absurd (hstored hf ▸ hfind) hnone
  | @created f y hf _ hauto hinc hkey hplace hview =>
    obtain rfl := hstored hf
    refine ⟨spots.size, y, Table.get_insert_size _ _, hauto, hinc, hkey, hplace, ?_⟩
    have hstatus : y.status = .opened := congrArg BlindSpot.View.status hview
    exact BlindSpot.isOpen_iff.mpr (by rw [hstatus]; decide)

/-- A spot about the fragment is open, and the claim of the request does not answer it. -/
def Op.LeftSpot (env : Env) (db : Db) (op : Op) (f : InformationFragment) (spots : Table BlindSpot) : Prop :=
  ∃ i b, spots.get i = some b ∧ f.IsSpottedBy env b ∧ b.isOpen = true ∧ op.answersSpot env db b = false

theorem Op.LeftSpot.keep (h : op.LeftSpot env db f spots)
    (hkept : ∀ {i a}, spots.get i = some a →
      ∃ b, spots'.get i = some b ∧ a.SameGap b ∧ (a.isOpen = true → b.isOpen = true)) :
    op.LeftSpot env db f spots' := by
  obtain ⟨i, a, ha, hspot, hopen, hno⟩ := h
  obtain ⟨b, hb, hgap, hbopen⟩ := hkept ha
  exact ⟨i, b, hb, hspot.sameGap hgap, hbopen hopen, (Op.answersSpot_eq hgap).trans hno⟩

theorem Op.LeavesSpot.turn {reason : String} (h : op.LeavesSpot env db f) (hw : op.rewrites env db = some w)
    (hturned : db.blindSpots.Related
      (Turned env w.fragment.incidentId w.reports w.fragments w.id w.fragment reason) spots)
    (hd : DetectedNext env db op w spots spots') : op.LeftSpot env db f spots' := by
  have hgap : db.blindSpots.Related BlindSpot.SameGap spots := hturned.mono fun _ _ hab => hab.same
  cases h with
  | aside hnone => cases hnone.symm.trans hw
  | @turned w' i a hw' ha hspot hopen hno =>
    obtain rfl := Option.some.inj (hw'.symm.trans hw)
    obtain ⟨b, hb, hturn⟩ := hturned.right_of_some ha
    obtain ⟨hab, hbopen⟩ := hturn.turnsOpen hspot.automatic hopen
    have hleft : op.LeftSpot env db f spots :=
      ⟨i, b, hb, hspot.sameGap hab, hbopen, (Op.answersSpot_eq hab).trans hno⟩
    exact hleft.keep hd.keeps_row
  | @found w' i a hw' hlooks hfirst ha hspot =>
    obtain rfl := Option.some.inj (hw'.symm.trans hw)
    obtain ⟨b, hb, hab⟩ := hgap.right_of_some ha
    obtain ⟨c, hc, hbc, -⟩ := hd.keeps_row hb
    have hfound : FoundAtOnce env db op w' i :=
      ⟨hlooks.observes, hlooks.uncertain, hlooks.gap, hlooks.due, hlooks.unanswered, hfirst⟩
    have hcspot := (hspot.sameGap hab).sameGap hbc
    have hopen := BlindSpot.isOpen_iff.mpr (hfound.isOpen hgap hd hc hcspot.automatic)
    exact ⟨i, c, hc, hcspot, hopen, hlooks.answers_none hw c⟩
  | @opened w' hw' hlooks hfirst hinc hkey hplace =>
    obtain rfl := Option.some.inj (hw'.symm.trans hw)
    obtain ⟨i, b, hb, hauto, hbinc, hbkey, hbplace, hopen⟩ := hlooks.opens hfirst hgap hd
    refine ⟨i, b, hb, ⟨hauto, hbinc.trans hinc.symm, hkey.trans hbkey.symm, ?_⟩, hopen,
      hlooks.answers_none hw b⟩
    exact hbplace ▸ hplace

theorem Op.LeavesSpot.hasOpenSpot (h : op.LeavesSpot env db f) (hs : SpotStages env db op o)
    (hr : Resident env db.reports db.fragments) : f.HasOpenSpot env o.db.blindSpots := by
  suffices hleft : op.LeftSpot env db f o.db.blindSpots by
    obtain ⟨i, b, hb, hspot, hopen, -⟩ := hleft
    exact ⟨i, b, hb, hspot, hopen⟩
  refine hs.keeps (I := fun _ _ spots => op.LeftSpot env db f spots) hr ⟨fun h _ => h, ?_, ?_, ?_, ?_⟩
  · intro reports' fragments' hnone _
    cases h with
    | aside _ hb hspot hopen hno => exact ⟨_, _, hb, hspot, hopen, hno⟩
    | turned hw | found hw | opened hw => cases hnone.symm.trans hw
  · exact fun hw _ _ hturned hd => h.turn hw hturned hd
  · exact fun h _ hd => h.keep hd.keeps_row
  · rintro id r spots spots' hstored hobserves - u hchanged ⟨i, a, ha, hspot, hopen, hno⟩ hanswered
    obtain ⟨b, hb, hab⟩ := hanswered.right_of_some ha
    unfold Answered at hab
    rw [if_neg] at hab
    · subst hab
      exact ⟨i, b, hb, hspot, hopen, hno⟩
    · rintro ⟨hkey, hconcrete, hresolves⟩
      have hu : op.upsert env db = some u := by simp [Op.upsert, hobserves, hstored, u]
      have hanswers : op.answersSpot env db a = true := by
        simp [Op.answersSpot, hu, hchanged, hkey, hconcrete, (resolvesSpot_iff.mp hresolves).1]
      exact absurd (hno.symm.trans hanswers) (by decide)

theorem InformationFragment.IsAnsweredBy.carried {reports reports' : Table Report}
    {fragments fragments' : Table InformationFragment} {gone : Option Id} {l : Id}
    (h : f.IsAnsweredBy env reports g) (hg : fragments.get l = some g)
    (hc : Carried reports reports' fragments fragments' gone) (hne : gone ≠ some l) :
    f.HasAnswer env reports' fragments' := by
  obtain ⟨g', hg', -, hsame⟩ := hc.rows l g hg
  obtain ⟨rfl, hactive⟩ := hsame hne
  exact ⟨l, g', hg', { h with active := hactive h.active }⟩

/-- What is observed is in the tables, and what the source does to the spots after that. -/
theorem ReportStages.observation {id : Id} {r : Report} (h : ReportStages env db op o)
    (hr : op.storedReport env db = some (id, r)) (hobserves : op.observes db = true) :
    let u := upsertReportFragment env op.now db.fragments id r
    o.db.reports = storeRow db.reports id r ∧ u.fragments.Related Reclassified o.db.fragments ∧
      ∃ feed : Feed, db.feed.SameStatuses feed ∧ ObservedSpots env op.now feed.incidents
        (storeRow db.reports id r) r.incidentId u o.detection.isSome db.blindSpots o.db.blindSpots := by
  have hidle : op.deactivates = true → False := fun hd =>
    absurd ((Op.not_observes_of_deactivates hd).symm.trans hobserves) (by decide)
  have hno : op.observes db = false → False := fun hn => absurd (hn.symm.trans hobserves) (by decide)
  cases h with
  | @observed id' r' m t hr' _ hs _ hp hsame =>
    obtain ⟨rfl, rfl⟩ := Prod.mk.inj (Option.some.inj (hr'.symm.trans hr))
    obtain ⟨feed, hfeed, hspots⟩ := processReportObservation_spots hp
    obtain ⟨hu, hstatus, -⟩ := upsert_spec env op.now db.fragments id' r'
    have hcourse := (processReportObservation_course hp).before hsame.store
    have hfragments : m.fragments = db.fragments := hs.store.fragments
    rw [hfragments] at hcourse hspots
    rw [hs.blindSpots, ← hsame.blindSpots, hs.reports_eq] at hspots
    refine ⟨?_, hcourse.reclassified hu hstatus, feed, hs.incidents.trans hfeed, hspots⟩
    exact (hsame.reports.trans (processReportObservation_reports hp)).trans hs.reports_eq
  | deactivated _ hdeactivates => exact (hidle hdeactivates).elim
  | edited hn | untouched hn => exact (hno hn).elim
  | detected hcall => exact (hno (by simp [Op.observes, hcall])).elim

theorem Op.upsert_observes {u : FragmentUpsert} (h : op.upsert env db = some u) : op.observes db = true := by
  unfold Op.upsert at h
  split_ifs at h with hobserves
  exact hobserves

theorem Op.LeavesCover.covered (h : op.LeavesCover env db f) (hs : ReportStages env db op o)
    (hr : Resident env db.reports db.fragments) : f.Covered env o.db.reports o.db.fragments o.db.blindSpots := by
  cases h with
  | @kept l g hg hanswered hne =>
    refine Or.inl (hs.spots.keeps (I := fun reports fragments _ => f.HasAnswer env reports fragments) hr
      ⟨fun h => h.reclassified, ?_, ?_, fun h _ _ => h, fun _ _ _ _ h _ => h⟩)
    · exact fun _ hc => hanswered.carried hg hc fun hl => by cases hl
    · exact fun hw hc _ _ _ => hanswered.carried hg hc fun hl => hne _ hw (Option.some.inj hl)
  | @answers id r u hstored hu hanswered =>
    have hobserves := Op.upsert_observes hu
    obtain ⟨id', r', hstored', rfl⟩ := Op.upsert_some hu
    obtain ⟨rfl, rfl⟩ := Prod.mk.inj (Option.some.inj (hstored.symm.trans hstored'))
    obtain ⟨hreports, hfragments, -⟩ := hs.observation hstored hobserves
    obtain ⟨hself, -⟩ := upsert_spec env op.now db.fragments id r
    rw [hreports]
    exact Or.inl (HasAnswer.reclassified ⟨_, _, hself, hanswered⟩ hfragments)
  | spotted hspot => exact Or.inr (hspot.hasOpenSpot hs.spots hr)

theorem mem_looksInto {now dueAt : Time} {b : SpotBoard} {reports : Table Report}
    {fragments : Table InformationFragment} {incidentId l : ℕ} {x : Id × ℕ}
    (h : x ∈ looksInto now b reports fragments incidentId l revision dueAt) :
    x = (l, revision) ∧ dueAt ≤ now ∧
      ∃ f, HasGap b.feed.incidents reports fragments incidentId l revision f := by
  unfold looksInto at h
  split_ifs at h with hlooks
  · simp only [Bool.and_eq_true, decide_eq_true_eq] at hlooks
    obtain ⟨f, hf, hreport⟩ := (Option.any_eq_true _ _).mp hlooks.1
    obtain ⟨p, hp⟩ := Option.isSome_iff_exists.mp hreport
    exact ⟨List.mem_singleton.mp h, hlooks.2, f, gapReport_some hf hp⟩
  · exact absurd h List.not_mem_nil

/-- The fragment the request has looked into is covered. -/
theorem ReportStages.looked_covered (h : ReportStages env db op o) (hauto : AllAutomatic db.blindSpots)
    (hlooks : (k, revision) ∈ op.looks env db) :
    ∃ g, o.db.fragments.get k = some g ∧ revision ≤ g.revision ∧
      g.Covered env o.db.reports o.db.fragments o.db.blindSpots := by
  obtain ⟨id, r, u, hr, hu⟩ : ∃ id r u, op.storedReport env db = some (id, r) ∧ op.upsert env db = some u := by
    unfold Op.looks at hlooks
    split at hlooks
    · exact ⟨_, _, _, ‹_›, ‹_›⟩
    · exact absurd hlooks List.not_mem_nil
  have hobserves := Op.upsert_observes hu
  obtain ⟨hreports, hfragments, feed, hfeed, hspots⟩ := h.observation hr hobserves
  obtain ⟨hself, -⟩ := upsert_spec env op.now db.fragments id r
  rw [Op.looks_observed hr hobserves] at hlooks
  generalize upsertReportFragment env op.now db.fragments id r = u at *
  split_ifs at hlooks with hunknown
  · obtain ⟨heq, hdue, f, hgap⟩ := mem_looksInto hlooks
    obtain ⟨rfl, rfl⟩ := Prod.mk.inj heq
    obtain rfl := Option.some.inj (hself.symm.trans hgap.stored)
    obtain ⟨g, hg, hfg⟩ := hfragments.right_of_some hself
    refine ⟨g, hg, hfg.2.1, ?_⟩
    rw [hreports]
    refine Covered.sameContent (Covered.reclassified ?_ hfragments) hfg.1
    cases hspots with
    | mk b c hturned hdetected hanswered =>
      rw [if_pos hunknown] at hdetected
      have hb : AllAutomatic b := by
        split_ifs at hturned
        · exact hauto.related (hturned.mono fun _ _ hab => hab.same)
        · exact hturned ▸ hauto
      have hgap' : HasGap feed.incidents (storeRow db.reports id r) u.fragments r.incidentId u.id
          u.fragment.revision u.fragment := { hgap with active := (hfeed.active _).trans hgap.active }
      refine (hdetected.covers hb hgap' hdue).imp_right fun hspot => ?_
      split_ifs at hanswered
      · -- an unknown claim answers nothing
        obtain ⟨i, a, ha, hspot, hopen⟩ := hspot
        obtain ⟨d, hd, had⟩ := hanswered.right_of_some ha
        unfold Answered at had
        rw [if_neg fun h => absurd h.2.1 (by rw [hunknown.1]; decide)] at had
        exact ⟨i, d, hd, had ▸ hspot, had ▸ hopen⟩
      · exact hanswered ▸ hspot
  · exact absurd hlooks List.not_mem_nil

/-- What is written over has a revision of its own. -/
theorem ReportStages.rewritten_counts (h : ReportStages env db op o) (hw : op.rewrites env db = some w)
    (hf : db.fragments.get w.id = some f) (hf' : o.db.fragments.get w.id = some f) : f.status = .withdrawn := by
  by_contra hactive
  cases h.spots with
  | @observed id r m feed hr hobserves _ _ _ _ hfragments _ =>
    obtain ⟨hself, -⟩ := upsert_spec env op.now db.fragments id r
    obtain ⟨-, hcounted⟩ := upsert_written env op.now db.fragments id r
    rw [Op.rewrites_observed hr hobserves, Option.map_eq_some_iff] at hw
    generalize upsertReportFragment env op.now db.fragments id r = u at *
    obtain ⟨k, hgone, rfl⟩ := hw
    unfold FragmentUpsert.gone at hgone
    split_ifs at hgone with hstale
    obtain rfl := Option.some.inj hgone
    have hlt := hcounted ((Bool.and_eq_true _ _).mp hstale).1 f hf
    obtain ⟨g, hg, hgf⟩ := hfragments.right_of_some hself
    obtain rfl := Option.some.inj (hf'.symm.trans hg)
    exact absurd hlt (not_lt.mpr hgf.2.1)
  | @withdrawn id k r e m reason hr hobserves hdeactivates _ _ _ hfind hfragments _ =>
    rw [Op.rewrites_withdrawn hr hobserves hdeactivates hfind] at hw
    obtain rfl := Option.some.inj hw
    obtain ⟨g, hg, hgf⟩ := hfragments.left_of_some hf'
    rcases Table.get_modify_cases hg with ⟨-, -, -, rfl⟩ | ⟨hne, -⟩
    · exact hactive (hgf.withdrawn_iff.mpr (withdrawFragment_status op.now e))
    · exact absurd rfl hne
  | stored hnone | untouched hnone => cases hnone.symm.trans hw
  | detected hcall =>
    have hnone : op.rewrites env db = none := by
      refine Op.rewrites_of_idle ?_ ?_
      · simp [Op.observes, hcall]
      · simp [Op.deactivates, hcall]
    cases hnone.symm.trans hw

end Requests
end CrisisMosaic
