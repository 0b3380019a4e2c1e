import CrisisMosaic.RetentionRuns

/-!
# Negated roads

The matches of a pattern with what stands before them, and the road reports all of whose passable phrases
are negated.
-/

namespace CrisisMosaic

/-! ## All matches of a pattern -/

/-- `before` is the text before the match, its last character first. -/
structure Found where
  before : List Char
  matched : List Char

namespace Pattern
variable (lib : TextLib)

/-- The search goes on where a match ends. -/
def matchesFrom (p : Pattern) : ℕ → List Char → List Char → List Found
  | fuel + 1, before, c :: cs =>
      match (ends lib p (before.head?, c :: cs)).head? with
      | some (_, rest) =>
          let matched := (c :: cs).take (cs.length + 1 - rest.length)
          if matched = [] then matchesFrom p fuel (c :: before) cs
          else ⟨before, matched⟩ :: matchesFrom p fuel (matched.reverse ++ before) rest
      | none => matchesFrom p fuel (c :: before) cs
  | _, _, _ => []

/-- `pattern.finditer(s)` for a pattern with no empty match. -/
def allMatches (p : Pattern) (s : List Char) : List Found := matchesFrom lib p s.length [] s

/-- No match of the pattern is empty. -/
def Consumes (p : Pattern) : Prop := ∀ at_, ∀ e ∈ ends lib p at_, e.2.length < at_.2.length

/-- Matches do not go back. -/
def Advances (p : Pattern) : Prop := ∀ at_, ∀ e ∈ ends lib p at_, e.2.length ≤ at_.2.length

variable {lib}

theorem litEnd_length {chars : List Char} {at_ e : Cursor} (h : e ∈ litEnd lib chars at_) :
    e.2.length + chars.length = at_.2.length := by
  induction chars generalizing at_ with
  | nil => rw [List.mem_singleton.mp h, List.length_nil, Nat.add_zero]
  | cons c cs ih =>
    obtain ⟨prev, s⟩ := at_
    cases s with
    | nil => exact absurd h List.not_mem_nil
    | cons d ds =>
      rw [litEnd] at h
      split_ifs at h
      · have hlength := ih h
        simp only [List.length_cons] at hlength ⊢
        omega
      · exact absurd h List.not_mem_nil

theorem gapEnds_length {n : ℕ} {at_ e : Cursor} (h : e ∈ gapEnds n at_) : e.2.length ≤ at_.2.length := by
  induction n generalizing at_ with
  | zero => rw [List.mem_singleton.mp h]
  | succ n ih =>
    obtain ⟨prev, s⟩ := at_
    cases s with
    | nil => rw [List.mem_singleton.mp h]
    | cons c cs =>
      rw [gapEnds] at h
      rcases List.mem_append.mp h with h | h
      · split_ifs at h
        · exact absurd h List.not_mem_nil
        · exact (ih h).trans (Nat.le_succ _)
      · rw [List.mem_singleton.mp h]

theorem wordEnds_length {prev : Option Char} {s : List Char} {e : Cursor} (h : e ∈ wordEnds lib prev s) :
    e.2.length ≤ s.length := by
  induction s generalizing prev with
  | nil => rw [List.mem_singleton.mp h]
  | cons c cs ih =>
    rw [wordEnds] at h
    rcases List.mem_append.mp h with h | h
    · split_ifs at h
      · exact (ih h).trans (Nat.le_succ _)
      · exact absurd h List.not_mem_nil
    · rw [List.mem_singleton.mp h]

theorem advances (p : Pattern) : Advances lib p := by
  induction p with
  | lit chars =>
    intro at_ e he
    have hlength := litEnd_length he
    omega
  | gap limit => exact fun at_ e he => gapEnds_length he
  | wordRun => exact fun at_ e he => wordEnds_length he
  | boundary =>
    intro at_ e he
    rw [ends] at he
    split_ifs at he
    · exact absurd he List.not_mem_nil
    · rw [List.mem_singleton.mp he]
  | notAfter c =>
    intro at_ e he
    rw [ends] at he
    split_ifs at he
    · exact absurd he List.not_mem_nil
    · rw [List.mem_singleton.mp he]
  | seq p q hp hq =>
    intro at_ e he
    obtain ⟨m, hm, he⟩ := List.mem_flatMap.mp he
    exact (hq m e he).trans (hp at_ m hm)
  | alt p q hp hq =>
    intro at_ e he
    rcases List.mem_append.mp he with he | he
    · exact hp at_ e he
    · exact hq at_ e he

theorem consumes_text {s : String} (h : s.toList ≠ []) : Consumes lib (text s) := by
  intro at_ e he
  have hlength := litEnd_length he
  have hpos := List.length_pos_of_ne_nil h
  omega

theorem Consumes.seq {p : Pattern} (hp : Consumes lib p) (q : Pattern) : Consumes lib (.seq p q) := by
  intro at_ e he
  obtain ⟨m, hm, he⟩ := List.mem_flatMap.mp he
  exact (advances q m e he).trans_lt (hp at_ m hm)

theorem Consumes.after {q : Pattern} (hq : Consumes lib q) (p : Pattern) : Consumes lib (.seq p q) := by
  intro at_ e he
  obtain ⟨m, hm, he⟩ := List.mem_flatMap.mp he
  exact (hq m e he).trans_le (advances p at_ m hm)

theorem Consumes.alt {p q : Pattern} (hp : Consumes lib p) (hq : Consumes lib q) :
    Consumes lib (.alt p q) := by
  intro at_ e he
  rcases List.mem_append.mp he with he | he
  · exact hp at_ e he
  · exact hq at_ e he

theorem consumes_oneOf {p : Pattern} {ps : List Pattern} (hp : Consumes lib p)
    (hps : ∀ q ∈ ps, Consumes lib q) : Consumes lib (oneOf p ps) := by
  induction ps generalizing p with
  | nil => exact hp
  | cons q ps ih =>
    exact ih (hp.alt (hps q List.mem_cons_self)) fun r hr => hps r (List.mem_cons_of_mem _ hr)

theorem Consumes.near {p : Pattern} (hp : Consumes lib p) (n : ℕ) (q : Pattern) : Consumes lib (near p n q) :=
  hp.seq _

theorem Consumes.whole {p : Pattern} (hp : Consumes lib p) : Consumes lib (whole p) := (hp.seq _).after _

theorem consumes_words {w : String} {ws : List String} (hw : w.toList ≠ []) (hws : ∀ v ∈ ws, v.toList ≠ []) :
    Consumes lib (words w ws) := by
  apply consumes_oneOf (consumes_text hw)
  intro q hq
  obtain ⟨v, hv, rfl⟩ := List.mem_map.mp hq
  exact consumes_text (hws v hv)

/-- There is a match exactly if the search finds one. -/
theorem matchesFrom_ne_nil_iff {p : Pattern} (hp : Consumes lib p) {fuel : ℕ} {before s : List Char}
    (hfuel : s.length ≤ fuel) : matchesFrom lib p fuel before s ≠ [] ↔ searchFrom lib p before.head? s = true := by
  induction s generalizing fuel before with
  | nil =>
    have hnone : ends lib p (before.head?, []) = [] := by
      rw [List.eq_nil_iff_forall_not_mem]
      exact fun e he => absurd (hp _ e he) (Nat.not_lt_zero _)
    have hempty : matchesFrom lib p fuel before [] = [] := by cases fuel <;> rfl
    rw [hempty, searchFrom, hnone]
    exact iff_of_false (fun h => h rfl) Bool.false_ne_true
  | cons c cs ih =>
    obtain ⟨fuel, rfl⟩ : ∃ n, fuel = n + 1 := ⟨fuel - 1, by rw [List.length_cons] at hfuel; omega⟩
    have hrest : cs.length ≤ fuel := by
      rw [List.length_cons] at hfuel
      omega
    rw [matchesFrom, searchFrom]
    cases hends : ends lib p (before.head?, c :: cs) with
    | nil => exact ih hrest
    | cons e es =>
      have hlt : e.2.length < cs.length + 1 := by
        apply hp (before.head?, c :: cs) e
        rw [hends]
        exact List.mem_cons_self
      have hmatched : (c :: cs).take (cs.length + 1 - e.2.length) ≠ [] := by
        rw [ne_eq, List.take_eq_nil_iff, not_or]
        exact ⟨by omega, List.cons_ne_nil _ _⟩
      simp only [List.head?_cons, if_neg hmatched]
      exact iff_of_true (List.cons_ne_nil _ _) rfl

theorem allMatches_ne_nil_iff {p : Pattern} (hp : Consumes lib p) {s : List Char} :
    allMatches lib p s ≠ [] ↔ search lib p s = true :=
  matchesFrom_ne_nil_iff hp le_rfl

end Pattern

/-! ## Negated phrases -/

open Pattern

theorem consumes_roadPassable (lib : TextLib) : Consumes lib roadPassable := by
  have hpassing : Consumes lib (oneOf (.seq (.notAfter '不') (text "可"))
      (["可以", "能够", "仍可", "尚可", "恢复", "正常", "缓慢"].map text)) := by
    apply consumes_oneOf ((consumes_text (by decide)).after _)
    intro q hq
    obtain ⟨v, hv, rfl⟩ := List.mem_map.mp hq
    have hall : ∀ v ∈ ["可以", "能够", "仍可", "尚可", "恢复", "正常", "缓慢"], v.toList ≠ [] := by decide
    exact consumes_text (hall v hv)
  have hroad : Consumes lib roadOrBridge := consumes_words (by decide) (by decide)
  have henglish : Consumes lib (words "passable" ["open to traffic"]) := consumes_words (by decide) (by decide)
  apply consumes_oneOf (hpassing.near 8 _)
  intro q hq
  rcases List.mem_pair.mp hq with rfl | rfl
  · exact hroad.near 8 _
  · exact henglish.whole

def negations : List String := ["未", "尚未", "没有", "并未", "无法", "不能"]

/-- A negation stands right before the match. -/
def Found.Negated (m : Found) : Prop := ∃ n ∈ negations, n.toList.reverse <+: m.before

instance (m : Found) : Decidable m.Negated := inferInstanceAs (Decidable (∃ n ∈ negations, _))

section Roads
variable (env : Env) (r : Report)

/-- The text the claims are read from. -/
def Report.roadText (r : Report) : List Char := (r.contentOriginal ++ "\n" ++ r.contentDisplay).toList

def passablePhrases : List Found := allMatches env.text roadPassable r.roadText

def SaysPassable : Prop :=
  ∃ claim, extractStructuredClaim env r = some claim ∧ claim.topic = "road_passability" ∧ claim.value = "passable"

/-- The text also says that the road is blocked, doubts that it is flooded, or doubts something else about
a road. -/
def OtherwiseDecided : Prop :=
  search env.text roadBlocked r.roadText = true ∨ search env.text roadFloodUncertain r.roadText = true ∨
    (search env.text roadUncertain r.roadText = true ∧ search env.text roadTopic r.roadText = true)

variable {env r}

/-- The claim of the branches, in the order in which they are tried. -/
theorem extractStructuredClaim_road (hroad : r.category = .road) : extractStructuredClaim env r =
    if search env.text roadFloodUncertain r.roadText = true then
      some (floodingClaim env r.place.locationText "unknown")
    else if search env.text roadUncertain r.roadText = true ∧ search env.text roadTopic r.roadText = true then
      some (passabilityClaim env r.place.locationText "unknown")
    else if search env.text roadBlocked r.roadText ≠ search env.text roadPassable r.roadText then
      some (passabilityClaim env r.place.locationText
        (if search env.text roadBlocked r.roadText = true then "blocked" else "passable"))
    else if (roadFloodAbsent.search env.text r.roadText) ≠
        flooding.search env.text (roadFloodAbsent.remove env.text r.roadText) then
      some (floodingClaim env r.place.locationText
        (if roadFloodAbsent.search env.text r.roadText = true then "absent" else "present"))
    else if (roadFloodAbsent.search env.text r.roadText ||
        flooding.search env.text (roadFloodAbsent.remove env.text r.roadText)) = true then
      some (floodingClaim env r.place.locationText "unknown")
    else if (search env.text roadBlocked r.roadText || search env.text roadPassable r.roadText ||
        search env.text roadRisk r.roadText) = true then
      some (passabilityClaim env r.place.locationText "unknown")
    else none := by
  rw [extractStructuredClaim, if_neg (not_not_intro hroad)]
  simp only [← Bool.and_eq_true]
  rfl

/-- Only one branch of the extraction answers with the value. -/
theorem saysPassable_iff (hroad : r.category = .road) :
    SaysPassable env r ↔ search env.text roadPassable r.roadText = true ∧ ¬ OtherwiseDecided env r := by
  have hflooding (value : String) : (floodingClaim env r.place.locationText value).topic ≠ "road_passability" := by
    show "road_flooding" ≠ "road_passability"
    decide
  have hblocked : "blocked" ≠ "passable" := by decide
  have hunknown : "unknown" ≠ "passable" := by decide
  rw [SaysPassable, extractStructuredClaim_road hroad, OtherwiseDecided]
  by_cases hwater : search env.text roadFloodUncertain r.roadText = true
  · rw [if_pos hwater]
    refine iff_of_false ?_ fun h => h.2 (Or.inr (Or.inl hwater))
    rintro ⟨claim, hclaim, htopic, -⟩
    rw [← Option.some.inj hclaim] at htopic
    exact hflooding _ htopic
  by_cases hdoubt : search env.text roadUncertain r.roadText = true ∧ search env.text roadTopic r.roadText = true
  · rw [if_neg hwater, if_pos hdoubt]
    refine iff_of_false ?_ fun h => h.2 (Or.inr (Or.inr hdoubt))
    rintro ⟨claim, hclaim, -, hvalue⟩
    rw [← Option.some.inj hclaim] at hvalue
    exact hunknown hvalue
  rw [if_neg hwater, if_neg hdoubt]
  by_cases hsame : search env.text roadBlocked r.roadText = search env.text roadPassable r.roadText
  · rw [if_neg (not_not_intro hsame)]
    refine iff_of_false ?_ fun h => h.2 (Or.inl (hsame.trans h.1))
    rintro ⟨claim, hclaim, htopic, hvalue⟩
    have hwaterClaim (value : String) : some (floodingClaim env r.place.locationText value) ≠ some claim := by
      intro hclaim
      rw [← Option.some.inj hclaim] at htopic
      exact hflooding value htopic
    split_ifs at hclaim
    · exact hwaterClaim _ hclaim
    · exact hwaterClaim _ hclaim
    · exact hwaterClaim _ hclaim
    · rw [← Option.some.inj hclaim] at hvalue
      exact hunknown hvalue
  · rw [if_pos hsame]
    cases hblock : search env.text roadBlocked r.roadText with
    | true =>
      refine iff_of_false ?_ fun h => h.2 (Or.inl rfl)
      rintro ⟨claim, hclaim, -, hvalue⟩
      rw [if_pos rfl] at hclaim
      rw [← Option.some.inj hclaim] at hvalue
      exact hblocked hvalue
    | false =>
      have hpassable : search env.text roadPassable r.roadText = true := by
        rw [hblock] at hsame
        exact Bool.eq_true_of_not_eq_false fun h => hsame h.symm
      refine iff_of_true ⟨_, rfl, rfl, rfl⟩ ⟨hpassable, ?_⟩
      rintro (h | h | h)
      · exact Bool.false_ne_true h
      · exact hwater h
      · exact hdoubt h

end Roads

/-- A road report whose passable phrases are all negated is not taken as passable exactly if it has no such
phrase, one that is not negated, or something else that decides. -/
theorem negated_roads_are_not_passable_iff (env : Env) (r : Report) (hroad : r.category = .road) :
    ((∀ m ∈ passablePhrases env r, m.Negated) → ¬ SaysPassable env r) ↔
      passablePhrases env r = [] ∨ (∃ m ∈ passablePhrases env r, ¬ m.Negated) ∨ OtherwiseDecided env r := by
  have hphrases : passablePhrases env r ≠ [] ↔ search env.text roadPassable r.roadText = true :=
    allMatches_ne_nil_iff (consumes_roadPassable env.text)
  rw [saysPassable_iff hroad, ← hphrases]
  constructor
  · intro h
    by_contra hnot
    rw [not_or, not_or] at hnot
    obtain ⟨hsome, hall, hundecided⟩ := hnot
    refine h (fun m hm => ?_) ⟨hsome, hundecided⟩
    by_contra hplain
    exact hall ⟨m, hm, hplain⟩
  · rintro (hnone | ⟨m, hm, hplain⟩ | hdecided) hall ⟨hsome, hundecided⟩
    · exact hsome hnone
    · exact hplain (hall m hm)
    · exact hundecided hdecided

namespace Sample

/-- The posted report as one about a road, with another text. -/
def reportSaying (content : String) : Option Report :=
  ((retainedRun retention unretained [posted]).db.reports.get 0).map fun r =>
    { r with category := .road, contentOriginal := content, contentDisplay := content }

end Sample
open Sample

/-- A road that is closed and cannot be passed. -/
theorem closed_road_is_not_passable : ∃ r, reportSaying "道路封闭，不能正常通行" = some r ∧
    ((∀ m ∈ passablePhrases env r, m.Negated) → ¬ SaysPassable env r) := by
  have hblocked : ((reportSaying "道路封闭，不能正常通行").any fun r =>
      r.category = .road && search env.text roadBlocked r.roadText) = true := by decide +kernel
  obtain ⟨r, hr, hfacts⟩ := (Option.any_eq_true _ _).mp hblocked
  rw [Bool.and_eq_true, decide_eq_true_eq] at hfacts
  exact ⟨r, hr, (negated_roads_are_not_passable_iff env r hfacts.1).mpr (Or.inr (Or.inr (Or.inl hfacts.2)))⟩

/-- A road that is not passable yet is taken as passable. -/
theorem road_not_yet_passable_is_passable : ∃ r, reportSaying "道路尚未恢复通行" = some r ∧ r.category = .road ∧
    passablePhrases env r ≠ [] ∧ (∀ m ∈ passablePhrases env r, m.Negated) ∧ SaysPassable env r := by
  have hall : ((reportSaying "道路尚未恢复通行").any fun r =>
      r.category = .road && (passablePhrases env r).length = 2 && (passablePhrases env r).all (·.Negated) &&
        (extractStructuredClaim env r).any fun claim =>
          claim.topic = "road_passability" && claim.value = "passable") = true := by decide +kernel
  obtain ⟨r, hr, hfacts⟩ := (Option.any_eq_true _ _).mp hall
  simp only [Bool.and_eq_true, decide_eq_true_eq] at hfacts
  obtain ⟨⟨⟨hroad, hlength⟩, hnegated⟩, hclaim⟩ := hfacts
  refine ⟨r, hr, hroad, ?_, ?_, ?_⟩
  · intro hnone
    rw [hnone] at hlength
    exact nomatch hlength
  · exact fun m hm => of_decide_eq_true (List.all_eq_true.mp hnegated m hm)
  · obtain ⟨claim, hclaim, hvalue⟩ := (Option.any_eq_true _ _).mp hclaim
    rw [Bool.and_eq_true, decide_eq_true_eq, decide_eq_true_eq] at hvalue
    exact ⟨claim, hclaim, hvalue.1, hvalue.2⟩

end CrisisMosaic
