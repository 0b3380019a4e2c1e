import CrisisMosaic.DetectionRuns

/-!
# Which of two fragments comes first

The detection compares the fragment it runs for with those already stored. All its tests
but one give the same answer when the two change places: the ratio of two addresses
depends on which one comes first.
-/

namespace CrisisMosaic
open Relational

section Addresses
variable (lib : TextLib)

/-- What `_addresses_likely_same` says of two normalised addresses without their ratio. -/
def addressVerdict (a b : List Char) : Option Bool :=
  if a = [] ∨ b = [] then some false
  else if a = b then some true
  else if addressNumbers lib a ≠ [] ∧ addressNumbers lib b ≠ [] ∧
      ∀ run ∈ addressNumbers lib a, run ∉ addressNumbers lib b then some false
  else if 6 ≤ min a.length b.length ∧ (a <:+: b ∨ b <:+: a) then some true
  else none

theorem addressVerdict_comm (a b : List Char) : addressVerdict lib a b = addressVerdict lib b a := by
  have hnumbers : (addressNumbers lib a ≠ [] ∧ addressNumbers lib b ≠ [] ∧
      ∀ run ∈ addressNumbers lib a, run ∉ addressNumbers lib b) ↔
      (addressNumbers lib b ≠ [] ∧ addressNumbers lib a ≠ [] ∧
        ∀ run ∈ addressNumbers lib b, run ∉ addressNumbers lib a) := by
    constructor
    · rintro ⟨ha, hb, hdisjoint⟩
      exact ⟨hb, ha, fun run hrun hrun' => hdisjoint run hrun' hrun⟩
    · rintro ⟨hb, ha, hdisjoint⟩
      exact ⟨ha, hb, fun run hrun hrun' => hdisjoint run hrun' hrun⟩
  have hinside : (6 ≤ min a.length b.length ∧ (a <:+: b ∨ b <:+: a)) ↔
      (6 ≤ min b.length a.length ∧ (b <:+: a ∨ a <:+: b)) := by
    rw [min_comm, or_comm]
  unfold addressVerdict
  exact if_congr or_comm rfl (if_congr eq_comm rfl (if_congr hnumbers rfl (if_congr hinside rfl rfl)))

/-- Of two different addresses only the shorter can lie inside the other. -/
theorem shorter_infix_iff {a b : List Char} (hne : a ≠ b) :
    (if a.length ≤ b.length then a <:+: b else b <:+: a) ↔ a <:+: b ∨ b <:+: a := by
  have hlonger : ∀ {x y : List Char}, x.length ≤ y.length → y <:+: x → x = y := by
    intro x y hle hinside
    exact (hinside.eq_of_length (le_antisymm hinside.length_le hle)).symm
  split_ifs with hle
  · exact ⟨Or.inl, fun h => h.resolve_right fun hinside => hne (hlonger hle hinside)⟩
  · refine ⟨Or.inr, fun h => h.resolve_left fun hinside => hne ?_⟩
    exact (hlonger (le_of_not_ge hle) hinside).symm

theorem addressesLikelySame_eq (first second : String) :
    addressesLikelySame lib first second =
      (addressVerdict lib (normalizeAddress lib first) (normalizeAddress lib second)).getD
        (decide (0.72 ≤ similarity (normalizeAddress lib first) (normalizeAddress lib second))) := by
  unfold addressesLikelySame addressVerdict
  generalize normalizeAddress lib first = a, normalizeAddress lib second = b
  simp only [Bool.or_eq_true, List.isEmpty_iff]
  by_cases hempty : a = [] ∨ b = []
  · rw [if_pos hempty, if_pos hempty]
    rfl
  rw [if_neg hempty, if_neg hempty]
  by_cases heq : a = b
  · rw [if_pos heq, if_pos heq]
    rfl
  rw [if_neg heq, if_neg heq]
  have hnumbers : (!(addressNumbers lib a).isEmpty && !(addressNumbers lib b).isEmpty &&
      (addressNumbers lib a).all fun run => !(addressNumbers lib b).contains run) = true ↔
      addressNumbers lib a ≠ [] ∧ addressNumbers lib b ≠ [] ∧
        ∀ run ∈ addressNumbers lib a, run ∉ addressNumbers lib b := by
    simp [and_assoc]
  simp only [hnumbers]
  by_cases hdisjoint : addressNumbers lib a ≠ [] ∧ addressNumbers lib b ≠ [] ∧
      ∀ run ∈ addressNumbers lib a, run ∉ addressNumbers lib b
  · rw [if_pos hdisjoint, if_pos hdisjoint]
    rfl
  rw [if_neg hdisjoint, if_neg hdisjoint]
  have hinside : (decide (6 ≤ (if a.length ≤ b.length then (a, b) else (b, a)).1.length) &&
      decide ((if a.length ≤ b.length then (a, b) else (b, a)).1 <:+:
        (if a.length ≤ b.length then (a, b) else (b, a)).2)) = true ↔
      6 ≤ min a.length b.length ∧ (a <:+: b ∨ b <:+: a) := by
    rw [Bool.and_eq_true, decide_eq_true_eq, decide_eq_true_eq, ← shorter_infix_iff heq]
    split_ifs with hle
    · rw [min_eq_left hle]
    · rw [min_eq_right (le_of_not_ge hle)]
  by_cases hpart : 6 ≤ min a.length b.length ∧ (a <:+: b ∨ b <:+: a)
  · rw [if_pos hpart]
    exact if_pos (hinside.mpr hpart)
  · rw [if_neg hpart]
    exact if_neg fun h => hpart (hinside.mp h)

/-- The order of two addresses matters only where their ratio decides and is on the two sides
of the bound. -/
theorem addressesLikelySame_comm_iff (first second : String) :
    addressesLikelySame lib first second = addressesLikelySame lib second first ↔
      (addressVerdict lib (normalizeAddress lib first) (normalizeAddress lib second) = none →
        (0.72 ≤ similarity (normalizeAddress lib first) (normalizeAddress lib second) ↔
          0.72 ≤ similarity (normalizeAddress lib second) (normalizeAddress lib first))) := by
  rw [addressesLikelySame_eq, addressesLikelySame_eq,
    addressVerdict_comm lib (normalizeAddress lib second)]
  cases addressVerdict lib (normalizeAddress lib first) (normalizeAddress lib second) with
  | none => simp only [Option.getD_none, decide_eq_decide, true_implies]
  | some verdict => simp only [Option.getD_some, reduceCtorEq, false_implies]

end Addresses

theorem haversineM_comm {m : MathLib} (hsin : ∀ x, m.sin (-x) = -m.sin x) (p q : Point) :
    haversineM m p q = haversineM m q p := by
  have hlat : m.sin ((radians m q.latitude - radians m p.latitude) / 2) ^ 2 =
      m.sin ((radians m p.latitude - radians m q.latitude) / 2) ^ 2 := by
    rw [← neg_sub, neg_div, hsin, neg_sq]
  have hlon : m.sin (radians m (q.longitude - p.longitude) / 2) ^ 2 =
      m.sin (radians m (p.longitude - q.longitude) / 2) ^ 2 := by
    have hneg : radians m (q.longitude - p.longitude) / 2 =
        -(radians m (p.longitude - q.longitude) / 2) := by
      unfold radians
      ring
    rw [hneg, hsin, neg_sq]
  simp only [haversineM, hlat, hlon, mul_comm (m.cos (radians m p.latitude))]

section Detection
variable (env : Env)

/-- Both fragments have positions, within `conflict_radius_m` of each other. -/
def closeBy (p q : Place) : Bool :=
  match p.position env.math, q.position env.math with
  | some here, some there =>
    decide (haversineM env.math here.wgs84 there.wgs84 ≤ env.settings.conflictRadiusM)
  | _, _ => false

/-- The tests of the detection besides the places: one incident and topic, two values, two
sources, and times within the window. -/
def comparedTogether (f g : InformationFragment) : Bool :=
  f.incidentId = g.incidentId && f.topic = g.topic && f.claimValue ≠ g.claimValue &&
    !fragmentsShareSource f g &&
    decide (|f.time - g.time| ≤ hours env.settings.conflictWindowHours)

/-- A key and a value that is not unknown. -/
structure InformationFragment.Concrete (f : InformationFragment) : Prop where
  key : truthy f.claimKey = true
  value : isKnown env f.claimValue = true

/-- The detection that runs for a fragment finds the one stored under the other key. -/
def DetectsMatch (fragments : Table InformationFragment) (id : Id) (f : InformationFragment)
    (other : Id) : Prop :=
  ∃ call, detectedCall env fragments id f = some call ∧ other ∈ call.fragments ∧ other ≠ id

variable {env} {f g : InformationFragment}

theorem closeBy_comm (hsin : ∀ x, env.math.sin (-x) = -env.math.sin x) (p q : Place) :
    closeBy env p q = closeBy env q p := by
  unfold closeBy
  cases p.position env.math with
  | none => cases q.position env.math <;> rfl
  | some here =>
    cases q.position env.math with
    | none => rfl
    | some there => simp only [haversineM_comm hsin]

theorem likelySamePlace_eq (candidate current : Place) :
    likelySamePlace env candidate current = (closeBy env current candidate ||
      addressesLikelySame env.text candidate.locationText current.locationText) := by
  unfold likelySamePlace closeBy
  cases current.position env.math with
  | none => rfl
  | some here => cases candidate.position env.math <;> rfl

theorem comparedTogether_comm (f g : InformationFragment) :
    comparedTogether env f g = comparedTogether env g f := by
  unfold comparedTogether
  rw [fragmentsShareSource_comm, abs_sub_comm, Bool.eq_iff_iff]
  simp only [Bool.and_eq_true, decide_eq_true_eq, eq_comm (a := f.incidentId),
    eq_comm (a := f.topic), ne_comm (a := f.claimValue)]

/-- Among fragments with concrete claims a match needs the common tests and the place. -/
theorem contradicts_iff (hg : g.Concrete env) (hnormal : g.status = .normal) :
    contradicts env f g = true ↔
      comparedTogether env f g = true ∧ likelySamePlace env g.place f.place = true := by
  have hsome : g.claimValue.isSome = true := by
    have hknown := hg.value
    cases hvalue : g.claimValue with
    | none =>
      rw [hvalue] at hknown
      exact nomatch hknown
    | some v => rfl
  unfold contradicts comparedTogether
  simp only [Bool.and_eq_true, decide_eq_true_eq, Bool.or_eq_true, hsome, hnormal, hg.value,
    true_or, and_true]
  constructor
  · rintro ⟨⟨⟨⟨⟨hincident, htopic⟩, hvalue⟩, hsource⟩, htime⟩, hplace⟩
    exact ⟨⟨⟨⟨⟨hincident.symm, htopic.symm⟩, hvalue.symm⟩, hsource⟩, htime⟩, hplace⟩
  · rintro ⟨⟨⟨⟨⟨hincident, htopic⟩, hvalue⟩, hsource⟩, htime⟩, hplace⟩
    exact ⟨⟨⟨⟨⟨hincident.symm, htopic.symm⟩, hvalue.symm⟩, hsource⟩, htime⟩, hplace⟩

/-- A fragment whose place is likely that of another has somewhere to be compared. -/
theorem isComparable_of_likelySamePlace (hf : f.Concrete env) {candidate : Place}
    (hplace : likelySamePlace env candidate f.place = true) : isComparable env f = true := by
  unfold isComparable
  rw [hf.key, hf.value, Bool.true_and, Bool.true_and, Bool.or_eq_true]
  rw [likelySamePlace_eq, Bool.or_eq_true] at hplace
  rcases hplace with hclose | haddress
  · left
    unfold closeBy at hclose
    split at hclose
    · next here _ hhere _ =>
      rw [hhere]
      rfl
    · exact nomatch hclose
  · right
    unfold addressesLikelySame at haddress
    by_contra hempty
    rw [Bool.not_eq_true, Bool.not_eq_false'] at hempty
    simp only [hempty, Bool.or_true, if_true, Bool.false_eq_true] at haddress

theorem detectsMatch_iff {fragments : Table InformationFragment} {id other : Id} (hne : id ≠ other)
    (hf : f.Concrete env) (hother : fragments.get other = some g) (hg : g.Concrete env)
    (hnormal : g.status = .normal) :
    DetectsMatch env fragments id f other ↔
      comparedTogether env f g = true ∧ likelySamePlace env g.place f.place = true := by
  rw [← contradicts_iff hg hnormal]
  have hmem : other ∈ matchingFragments env fragments id f ↔ contradicts env f g = true := by
    simp only [matchingFragments, List.mem_filter, Table.mem_select, decide_eq_true_eq]
    constructor
    · rintro ⟨⟨g', hg', hmatch⟩, -⟩
      obtain rfl := Option.some.inj (hother.symm.trans hg')
      exact hmatch
    · exact fun h => ⟨⟨g, hother, h⟩, hne.symm⟩
  constructor
  · rintro ⟨call, hcall, hin, -⟩
    unfold detectedCall at hcall
    dsimp only at hcall
    split_ifs at hcall with hdetected
    obtain rfl := Option.some.inj hcall
    rcases List.mem_append.mp hin with hin | hin
    · exact hmem.mp hin
    · exact absurd (List.mem_singleton.mp hin).symm hne
  · intro hmatch
    have hin := hmem.mpr hmatch
    have hcomparable := isComparable_of_likelySamePlace hf ((contradicts_iff hg hnormal).mp hmatch).2
    have hnonempty : (matchingFragments env fragments id f).isEmpty = false :=
      List.isEmpty_eq_false_iff.mpr (List.ne_nil_of_mem hin)
    refine ⟨detectionCall id f (matchingFragments env fragments id f), ?_,
      List.mem_append_left _ hin, hne.symm⟩
    unfold detectedCall
    simp only [hcomparable, hnonempty, Bool.not_false, Bool.and_self, if_true]

end Detection

namespace Sample

def claim (source : Id) (value address : String) : InformationFragment :=
  { incidentId := 0
    sourceType := .residentReport
    sourceRefId := some source
    sourceClusterId := none
    topic := "road"
    claimKey := some "road.passable"
    claimValue := some value
    label := "road"
    description := ""
    place := ⟨address, none, none, none⟩
    status := .normal
    confidence := 1
    observedAt := none
    receivedAt := 0
    revision := 1
    createdAt := 0
    updatedAt := 0 }

end Sample

end CrisisMosaic
