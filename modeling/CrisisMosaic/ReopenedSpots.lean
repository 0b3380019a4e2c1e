import CrisisMosaic.RouteSteps
import CrisisMosaic.Reachable

/-!
# Which answers reopen a resolved blind spot

A blind spot is resolved by the answers to one of its questions or by a report. Whether an
answer reopens it is decided by the answers to the question it belongs to, alone: they must
agree and be enough.
-/

namespace CrisisMosaic.Questions
open Relational

/-- The values that count among the answers to a question. -/
def countedValues (text : TextLib) (answers : List DirectedAnswer) (questionId : Id) : List String :=
  (answers.filter fun a => a.questionId = questionId && !isUnknown text a.semanticValue).map
    (·.semanticValue)

/-- There are enough values, and all are the same. -/
structure Agreed (values : List String) (minimum : ℕ) : Prop where
  nonempty : values ≠ []
  same : ∀ v ∈ values, ∀ w ∈ values, v = w
  enough : minimum ≤ values.length

/-- The answers of all but the device. -/
def otherAnswers (answers : Table DirectedAnswer) (questionId deviceId : Id) : List DirectedAnswer :=
  match answers.find (isAnswerOf questionId deviceId) with
  | none => answers.rows
  | some (id, _) => answers.rows.eraseIdx id

def countedValue (text : TextLib) (value : String) : List String :=
  if isUnknown text value then [] else [value]

section Consensus
variable {values : List String} {minimum : ℕ}

theorem Agreed.perm {others : List String} (hperm : values.Perm others) (h : Agreed values minimum) :
    Agreed others minimum where
  nonempty := fun hnil => h.nonempty (hperm.trans (hnil ▸ .refl _)).eq_nil
  same := fun v hv w hw => h.same v (hperm.mem_iff.mpr hv) w (hperm.mem_iff.mpr hw)
  enough := hperm.length_eq ▸ h.enough

theorem length_dedup_le_one : values.dedup.length ≤ 1 ↔ ∀ v ∈ values, ∀ w ∈ values, v = w := by
  have hcard := Finset.card_le_one (s := values.toFinset)
  rw [List.card_toFinset] at hcard
  simpa only [List.mem_toFinset] using hcard

theorem mostCommon_same {v : String} (hne : values ≠ []) (hsame : ∀ w ∈ values, w = v) :
    mostCommon values = some (v, values.length) := by
  have hcount : values.count v = values.length := List.count_eq_length.mpr fun w hw => (hsame w hw).symm
  have hpos : 0 < values.length := List.length_pos_iff.mpr hne
  -- the value becomes the best one at once and stays it
  have hfold : ∀ l : List String, (∀ w ∈ l, w = v) → ∀ best,
      best = none ∨ best = some (v, values.length) →
      l.foldl (fun best w => if best.elim 0 (·.2) < values.count w then some (w, values.count w)
        else best) best = if l = [] then best else some (v, values.length) := by
    intro l hl
    induction l with
    | nil => exact fun best _ => rfl
    | cons w l ih =>
      intro best hbest
      rw [List.foldl_cons, hl w List.mem_cons_self, hcount, if_neg (List.cons_ne_nil _ _)]
      have hrest := ih (fun x hx => hl x (List.mem_cons_of_mem _ hx)) (some (v, values.length)) (Or.inr rfl)
      rw [ite_self] at hrest
      rcases hbest with rfl | rfl
      · rw [Option.elim_none, if_pos hpos]
        exact hrest
      · rw [Option.elim_some, if_neg (lt_irrefl _)]
        exact hrest
  rw [mostCommon, hfold values hsame none (Or.inl rfl), if_neg hne]

theorem mostCommon_eq_none : mostCommon values = none ↔ values = [] := by
  have hkept : ∀ (l : List String) (best : Option (String × ℕ)), best ≠ none →
      l.foldl (fun best w => if best.elim 0 (·.2) < values.count w then some (w, values.count w)
        else best) best ≠ none := by
    intro l
    induction l with
    | nil => exact fun _ h => h
    | cons w l ih =>
      intro best hbest
      rw [List.foldl_cons]
      apply ih
      split_ifs
      · exact Option.some_ne_none _
      · exact hbest
  constructor
  · intro hnone
    by_contra hne
    obtain ⟨w, l, hl⟩ := List.exists_cons_of_ne_nil hne
    have hpos : 0 < values.count w := List.count_pos_iff.mpr (hl ▸ List.mem_cons_self)
    unfold mostCommon at hnone
    have hfirst := hkept l (some (w, values.count w)) (Option.some_ne_none _)
    apply hfirst
    rw [← hnone]
    conv_rhs => rw [show List.foldl _ none values = List.foldl _ none (w :: l) from congrArg _ hl]
    rw [List.foldl_cons, Option.elim_none, if_pos hpos]
  · rintro rfl
    rfl

end Consensus

section Judging
variable {env : Env} {now : Time} {db : Db} {questionId fragmentId : Id} {admitted : Admitted}

theorem judgeAnswer_cases {created : Bool} {v : Verdict}
    (h : judgeAnswer env now db questionId fragmentId admitted created = .ok v) :
    (1 < (validAnswerConsensus env.text db.answers questionId).2.2.length ∧
      disagree env now db questionId admitted = .ok v) ∨
    ((validAnswerConsensus env.text db.answers questionId).2.2.length ≤ 1 ∧ ∃ s conflictId,
      v = agree now { db with toStore := s } questionId fragmentId admitted
        (validAnswerConsensus env.text db.answers questionId).1
        (validAnswerConsensus env.text db.answers questionId).2.1 conflictId) := by
  unfold judgeAnswer at h
  dsimp only at h
  by_cases hmany : 1 < (validAnswerConsensus env.text db.answers questionId).2.2.length
  · rw [if_pos hmany] at h
    exact Or.inl ⟨hmany, h⟩
  · rw [if_neg hmany] at h
    split_ifs at h
    · obtain ⟨⟨s, conflictId⟩, -, h⟩ := bind_ok.mp h
      exact Or.inr ⟨not_lt.mp hmany, s, conflictId, (pure_ok.mp h).symm⟩
    · obtain ⟨⟨s, conflictId⟩, -, h⟩ := bind_ok.mp h
      exact Or.inr ⟨not_lt.mp hmany, s, conflictId, (pure_ok.mp h).symm⟩

theorem disagree_reopens {v : Verdict} (h : disagree env now db questionId admitted = .ok v)
    (hresolved : admitted.blind.status = .resolved) : v.blind.status = .opened := by
  unfold disagree at h
  simp only [bind_ok, pure_ok] at h
  obtain ⟨d, -, rfl⟩ := h
  simp only [hresolved, if_true, BlindSpot.settle]

theorem agree_resolved_iff (consensus : Option String) (count : ℕ) (conflictId : Option Id)
    (hresolved : admitted.blind.status = .resolved) :
    (agree now db questionId fragmentId admitted consensus count conflictId).blind.status = .resolved ↔
      consensus.isSome = true ∧ admitted.blind.minValidAnswers ≤ count := by
  unfold agree
  dsimp only
  by_cases hsettled : consensus.isSome = true ∧ admitted.blind.minValidAnswers ≤ count
  · rw [if_pos hsettled]
    simp only [hsettled, and_self, iff_true]
    split_ifs
    · rfl
    · exact hresolved
  · rw [if_neg hsettled, if_pos hresolved]
    simp only [hsettled, iff_false, BlindSpot.settle]
    nofun

/-- A resolved blind spot stays resolved just when the answers to the question are agreed. -/
theorem judgeAnswer_resolved_iff {created : Bool} {v : Verdict}
    (h : judgeAnswer env now db questionId fragmentId admitted created = .ok v)
    (hresolved : admitted.blind.status = .resolved) :
    v.blind.status = .resolved ↔
      Agreed (countedValues env.text db.answers.rows questionId) admitted.blind.minValidAnswers := by
  obtain ⟨values, hvalues⟩ : ∃ vs, vs = countedValues env.text db.answers.rows questionId := ⟨_, rfl⟩
  rw [← hvalues]
  unfold countedValues at hvalues
  have hnone : values = [] → validAnswerConsensus env.text db.answers questionId = (none, 0, []) := by
    intro hnil
    unfold validAnswerConsensus
    dsimp only
    rw [← hvalues, mostCommon_eq_none.mpr hnil]
  have hsame : ∀ {value}, values ≠ [] → (∀ w ∈ values, w = value) →
      validAnswerConsensus env.text db.answers questionId =
        (some value, values.length, values.dedup) := by
    intro value hne hall
    unfold validAnswerConsensus
    dsimp only
    rw [← hvalues, mostCommon_same hne hall]
  rcases judgeAnswer_cases h with ⟨hmany, hv⟩ | ⟨hone, s, conflictId, rfl⟩
  · rw [disagree_reopens hv hresolved]
    refine iff_of_false (by rintro ⟨⟩) fun hagreed => ?_
    obtain ⟨value, hvalue⟩ := List.exists_mem_of_ne_nil _ hagreed.nonempty
    rw [hsame hagreed.nonempty fun w hw => hagreed.same w hw value hvalue] at hmany
    exact absurd hmany (not_lt.mpr (length_dedup_le_one.mpr hagreed.same))
  · rw [agree_resolved_iff _ _ _ hresolved]
    by_cases hnil : values = []
    · rw [hnone hnil]
      exact iff_of_false (fun h => absurd h.1 Bool.false_ne_true) fun hagreed => hagreed.nonempty hnil
    · have hdedup : ∀ v ∈ values, ∀ w ∈ values, v = w := by
        rw [← length_dedup_le_one]
        unfold validAnswerConsensus at hone
        dsimp only at hone
        rw [← hvalues] at hone
        cases hmost : mostCommon values with
        | none => exact absurd (mostCommon_eq_none.mp hmost) hnil
        | some best => rw [hmost] at hone; exact hone
      obtain ⟨value, hvalue⟩ := List.exists_mem_of_ne_nil _ hnil
      rw [hsame hnil fun w hw => hdedup w hw value hvalue]
      constructor
      · exact fun hcount => ⟨hnil, hdedup, hcount.2⟩
      · exact fun hagreed => ⟨rfl, hagreed.enough⟩

end Judging

section Counting
variable {text : TextLib} {questionId : Id}

theorem countedValues_cons (a : DirectedAnswer) (answers : List DirectedAnswer)
    (ha : a.questionId = questionId) :
    countedValues text (a :: answers) questionId =
      countedValue text a.semanticValue ++ countedValues text answers questionId := by
  unfold countedValues countedValue
  rw [List.filter_cons]
  by_cases hunknown : isUnknown text a.semanticValue = true
  · rw [if_pos hunknown, if_neg (by simp [hunknown]), List.nil_append]
  · rw [if_neg hunknown, if_pos (by simp [hunknown, ha])]
    rfl

theorem countedValues_perm (text : TextLib) (questionId : Id) {answers others : List DirectedAnswer}
    (h : answers.Perm others) :
    (countedValues text answers questionId).Perm (countedValues text others questionId) :=
  (h.filter _).map _

/-- After an answer is stored, it counts beside the answers of the others. -/
theorem countedValues_stored (text : TextLib) {now : Time} {answers : Table DirectedAnswer} {deviceId : Id}
    {payload : DirectedAnswerPut} {admitted : Admitted} {stored : StoredAnswer}
    (h : storeAnswer now answers questionId deviceId payload admitted = .ok stored) :
    (countedValues text stored.answers.rows questionId).Perm
      (countedValue text admitted.semanticValue ++
        countedValues text (otherAnswers answers questionId deviceId) questionId) := by
  unfold storeAnswer at h
  unfold otherAnswers
  cases hfind : answers.find (isAnswerOf questionId deviceId) with
  | none =>
    simp only [hfind, bind_ok, pure_ok] at h
    obtain ⟨-, -, rfl⟩ := h
    obtain ⟨a, ha⟩ : ∃ a, a = writeAnswer now payload admitted (firstAnswer now questionId deviceId) :=
      ⟨_, rfl⟩
    have hperm : (answers.insert a).rows.Perm (a :: answers.rows) := List.perm_append_singleton _ _
    have hcounted := countedValues_perm text questionId hperm
    rw [countedValues_cons a _ (ha ▸ rfl)] at hcounted
    subst ha
    exact hcounted
  | some r =>
    obtain ⟨id, a⟩ := r
    simp only [hfind, bind_ok, pure_ok] at h
    obtain ⟨-, -, rfl⟩ := h
    obtain ⟨hget, hof⟩ := Table.find_some hfind
    have hquestion : a.questionId = questionId := by
      simp only [isAnswerOf, Bool.and_eq_true, decide_eq_true_eq] at hof
      exact hof.1
    obtain ⟨b, hb⟩ : ∃ b, b = writeAnswer now payload admitted { a with revision := a.revision + 1 } :=
      ⟨_, rfl⟩
    have hset : (answers.modify id fun _ => b).rows = answers.rows.set id b := by
      apply List.ext_getElem?
      intro i
      simp only [Table.modify, List.getElem?_modify, List.getElem?_set']
      split_ifs with hi
      · cases answers.rows[i]? <;> rfl
      · cases answers.rows[i]? <;> rfl
    have hperm : (answers.modify id fun _ => b).rows.Perm (b :: answers.rows.eraseIdx id) :=
      hset ▸ List.set_perm_cons_eraseIdx (Table.lt_size hget) b
    have hcounted := countedValues_perm text questionId hperm
    rw [countedValues_cons b _ (hb ▸ hquestion)] at hcounted
    subst hb
    exact hcounted

end Counting

/-- What the chosen option says. -/
def answeredValue (q : DirectedQuestion) (payload : DirectedAnswerPut) : Option String :=
  (q.options.find? fun o => o.id = payload.optionId).map fun o => orText o.semanticValue o.id

/-- There is a resolution, and the answer repeats it or is unknown and replaces no answer that
counts. -/
def Restates (text : TextLib) (answers : Table DirectedAnswer) (questionId deviceId : Id)
    (value : String) (resolution : Option String) : Prop :=
  resolution.isSome = true ∧ (resolution = some value ∨ (isUnknown text value = true ∧
    ∀ id a, answers.find (isAnswerOf questionId deviceId) = some (id, a) →
      isUnknown text a.semanticValue = true))

theorem announceAnswer_blindSpots (now : Time) (db : Db) (questionId deviceId : Id)
    (stored : StoredAnswer) (fragmentId : Id) (f : InformationFragment) (admitted : Admitted)
    (v : Verdict) :
    (announceAnswer now db questionId deviceId stored fragmentId f admitted v).blindSpots =
      db.blindSpots := by
  unfold announceAnswer
  cases v.changed <;> rfl

theorem projectVerdict_blindSpots (env : Env) (now : Time) (v : Verdict) (spotId fragmentId : Id)
    (f : InformationFragment) :
    (projectVerdict env now v spotId fragmentId f).blindSpots =
      v.db.blindSpots.modify spotId fun _ => v.blind := by
  unfold projectVerdict
  dsimp only
  split <;> rfl

theorem judgeAnswer_blindSpots {env : Env} {now : Time} {db : Db} {questionId fragmentId : Id}
    {admitted : Admitted} {created : Bool} {v : Verdict}
    (h : judgeAnswer env now db questionId fragmentId admitted created = .ok v) :
    v.db.blindSpots = db.blindSpots := by
  rcases judgeAnswer_cases h with ⟨-, hv⟩ | ⟨-, s, conflictId, rfl⟩
  · unfold disagree at hv
    simp only [bind_ok, pure_ok] at hv
    obtain ⟨d, -, rfl⟩ := hv
    rfl
  · unfold agree
    dsimp only
    split_ifs <;> rfl

/-- An answer that restates the resolution of its blind spot leaves it resolved just when the
answers to the question, this one among them, agree and are enough. -/
theorem restating_answer_keeps_resolution_iff (env : Env) (now : Time) (db : Db) (actor : Actor)
    (header : Option Ref) (questionId : Id) (payload : DirectedAnswerPut) {o : AnswerOutcome}
    {q : DirectedQuestion} {blind : BlindSpot} {value : String}
    (hok : putMyAnswer env now db actor header questionId payload = .ok o)
    (hq : db.questions.get questionId = some q) (hvalue : answeredValue q payload = some value)
    (hblind : db.blindSpots.get q.blindSpotId = some blind) (hresolved : blind.status = .resolved) :
    (Restates env.text db.answers questionId actor.subjectId value blind.resolutionValue →
      ∃ b, o.db.blindSpots.get q.blindSpotId = some b ∧ b.status = .resolved) ↔
    (Restates env.text db.answers questionId actor.subjectId value blind.resolutionValue →
      Agreed (countedValue env.text value ++
        countedValues env.text (otherAnswers db.answers questionId actor.subjectId) questionId)
        blind.minValidAnswers) := by
  refine imp_congr_right fun _ => ?_
  simp only [putMyAnswer, bind_ok, pure_ok, found_ok] at hok
  obtain ⟨admitted, hadmit, stored, hstore, attachments, -, v, hv, f, -, rfl⟩ := hok
  obtain ⟨hq', hblind', option, hoption, hvalue'⟩ := admitAnswer_spec hadmit
  obtain rfl := Option.some.inj (hq.symm.trans hq')
  obtain rfl := Option.some.inj (hblind.symm.trans hblind')
  have hsame : admitted.semanticValue = value := by
    rw [hvalue']
    rw [answeredValue, hoption] at hvalue
    exact Option.some.inj hvalue
  have hget : (announceAnswer now (projectVerdict env now v admitted.question.blindSpotId
      (upsertAnswerFragment now db.fragments stored.id payload admitted).2 f) questionId
      actor.subjectId stored (upsertAnswerFragment now db.fragments stored.id payload admitted).2 f
      admitted v).blindSpots.get admitted.question.blindSpotId = some v.blind := by
    rw [announceAnswer_blindSpots, projectVerdict_blindSpots, judgeAnswer_blindSpots hv,
      Table.get_modify_self, hblind]
    rfl
  have hcounted := countedValues_stored env.text hstore
  rw [hsame] at hcounted
  have hjudged := judgeAnswer_resolved_iff hv hresolved
  constructor
  · rintro ⟨b, hb, hstays⟩
    obtain rfl := Option.some.inj (hget.symm.trans hb)
    exact (hjudged.mp hstays).perm hcounted
  · intro hagreed
    exact ⟨v.blind, hget, hjudged.mpr (hagreed.perm hcounted.symm)⟩

end CrisisMosaic.Questions

namespace CrisisMosaic.Sample
open Questions

/-- Is the road open? -/
def roadSpot : BlindSpotCreate :=
  { latitude := none
    longitude := none
    coordinateSystem := none
    paired := unplaced
    systemGiven := no_system
    claimKey := "road.passable"
    title := "road"
    locationText := "a"
    scopeType := "incident"
    scopeData := none
    severity := .medium
    routeImpactCount := 0
    minValidAnswers := none }

def roadQuestion : DirectedQuestionCreate :=
  { blindSpotId := 0
    title := "open?"
    locationText := "a"
    targetGeometry := none
    routeImpactCount := 0
    options := [⟨"yes", "yes", none⟩, ⟨"no", "no", none⟩, ⟨"unknown", "unknown", none⟩]
    expiresAt := none
    enough := by decide
    distinct := by decide }

def answer (option : String) (revision : ℕ) : DirectedAnswerPut :=
  { latitude := none
    longitude := none
    coordinateSystem := none
    paired := unplaced
    systemGiven := no_system
    optionId := option
    revision := revision
    answerText := none
    attachmentIds := []
    distinct := List.nodup_nil }

/-- Two questions about one blind spot. -/
def twoQuestions : List Op :=
  [⟨0, admin, none, .createBlindSpot (.id 0) roadSpot⟩,
    ⟨0, admin, none, .createQuestion (.id 0) roadQuestion⟩,
    ⟨0, admin, none, .createQuestion (.id 0) roadQuestion⟩,
    ⟨1, admin, none, .publishQuestion 0 1⟩, ⟨1, admin, none, .publishQuestion 1 1⟩]

/-- Both residents answer the first question, which resolves the blind spot. -/
def answeredYes : List Op :=
  twoQuestions ++ [⟨2, resident, none, .putMyAnswer 0 (answer "yes" 0)⟩,
    ⟨3, neighbour, none, .putMyAnswer 0 (answer "yes" 0)⟩]

def spotIs (db : Db) (status : BlindSpotStatus) (value : Option String) : Bool :=
  (db.blindSpots.get 0).any fun b => b.status = status && b.resolutionValue = value

end CrisisMosaic.Sample

namespace CrisisMosaic.Questions

/-- The first question is answered once more as it was. -/
theorem repeated_answer_keeps_resolution : ∃ o b,
    putMyAnswer Sample.env 4 (Sample.reached Sample.answeredYes) Sample.resident none 0
      (Sample.answer "yes" 1) = .ok o ∧ o.db.blindSpots.get 0 = some b ∧ b.status = .resolved := by
  have hsome : (putMyAnswer Sample.env 4 (Sample.reached Sample.answeredYes) Sample.resident none 0
      (Sample.answer "yes" 1)).toOption.isSome = true := by decide +kernel
  obtain ⟨q, hq⟩ : ∃ q, (Sample.reached Sample.answeredYes).questions.get 0 = some q := ⟨_, rfl⟩
  obtain ⟨blind, hblind⟩ : ∃ b, (Sample.reached Sample.answeredYes).blindSpots.get 0 = some b :=
    ⟨_, rfl⟩
  have hspot : q.blindSpotId = 0 ∧ answeredValue q (Sample.answer "yes" 1) = some "yes" := by
    obtain rfl := Option.some.inj hq
    exact ⟨rfl, by decide +kernel⟩
  have hresolved : blind.status = .resolved ∧ blind.resolutionValue = some "yes" ∧
      blind.minValidAnswers = 2 := by
    obtain rfl := Option.some.inj hblind
    exact ⟨by decide +kernel, by decide +kernel, by decide +kernel⟩
  cases hok : putMyAnswer Sample.env 4 (Sample.reached Sample.answeredYes) Sample.resident none 0
      (Sample.answer "yes" 1) with
  | error e =>
    rw [hok] at hsome
    exact nomatch hsome
  | ok o =>
    have hstays := (restating_answer_keeps_resolution_iff Sample.env 4
      (Sample.reached Sample.answeredYes) Sample.resident none 0 (Sample.answer "yes" 1) hok hq
      hspot.2 (hspot.1 ▸ hblind) hresolved.1).mpr (fun _ => by
        rw [hresolved.2.2]
        exact ⟨by decide +kernel, by decide +kernel, by decide +kernel⟩)
        ⟨by rw [hresolved.2.1]; rfl, Or.inl hresolved.2.1⟩
    rw [hspot.1] at hstays
    obtain ⟨b, hb, hbr⟩ := hstays
    exact ⟨o, b, rfl, hb, hbr⟩

/-- The same answer to the other question is the only one there, and reopens the blind spot; so
does an unknown one. -/
theorem restating_answers_reopen :
    Sample.spotIs (Sample.reached Sample.answeredYes) .resolved (some "yes") = true ∧
    (∀ value ∈ ["yes", "unknown"], Restates Sample.text (Sample.reached Sample.answeredYes).answers 1 0
      value (some "yes")) ∧
    Sample.spotIs (Sample.reached (Sample.answeredYes ++
      [⟨4, Sample.resident, none, .putMyAnswer 1 (Sample.answer "yes" 0)⟩])) .opened none = true ∧
    Sample.spotIs (Sample.reached (Sample.answeredYes ++
      [⟨4, Sample.resident, none, .putMyAnswer 1 (Sample.answer "unknown" 0)⟩])) .opened none = true := by
  have hnone : ((Sample.reached Sample.answeredYes).answers.find (isAnswerOf 1 0)).isNone = true := by
    decide +kernel
  refine ⟨by decide +kernel, ?_, by decide +kernel, by decide +kernel⟩
  intro value hvalue
  simp only [List.mem_cons, List.not_mem_nil, or_false] at hvalue
  rcases hvalue with rfl | rfl
  · exact ⟨rfl, Or.inl rfl⟩
  · refine ⟨rfl, Or.inr ⟨by decide +kernel, fun id a hfind => ?_⟩⟩
    rw [hfind] at hnone
    exact nomatch hnone

end CrisisMosaic.Questions
