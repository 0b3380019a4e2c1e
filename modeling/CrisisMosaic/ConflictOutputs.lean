import CrisisMosaic.Basic
import CrisisMosaic.Relational.Fallible

/-!
# Outputs of conflict analyses

What becomes of an output of the model that has passed the schema. An output that refers to
other evidence than it was given is replaced by one that decides nothing.
-/

namespace CrisisMosaic
open Relational

/-! ## The schema -/

inductive EvidenceVerdict
  | supported | likely | uncertain | contradicted

structure EvidenceAssessment where
  evidenceId : String
  authenticityScore : ℚ
  credibilityScore : ℚ
  verdict : EvidenceVerdict
  reason : String
  extractedFacts : List String

structure EvidenceAssessment.Valid (a : EvidenceAssessment) : Prop where
  authenticity : 0 ≤ a.authenticityScore ∧ a.authenticityScore ≤ 1
  credibility : 0 ≤ a.credibilityScore ∧ a.credibilityScore ≤ 1
  reason : 1 ≤ a.reason.length ∧ a.reason.length ≤ 2000
  facts : a.extractedFacts.length ≤ 30

structure ConflictAnalysisOutput where
  recommendedEvidenceId : String
  suggestedConclusion : String
  reasoningSummary : String
  confidence : ℚ
  evidenceAssessments : List EvidenceAssessment
  warnings : List String

structure ConflictAnalysisOutput.Valid (o : ConflictAnalysisOutput) : Prop where
  conclusion : 1 ≤ o.suggestedConclusion.length ∧ o.suggestedConclusion.length ≤ 1000
  reasoning : 1 ≤ o.reasoningSummary.length ∧ o.reasoningSummary.length ≤ 2000
  confidence : 0 ≤ o.confidence ∧ o.confidence ≤ 1
  assessments : 1 ≤ o.evidenceAssessments.length ∧ o.evidenceAssessments.length ≤ 500
  each : ∀ a ∈ o.evidenceAssessments, a.Valid
  warnings : o.warnings.length ≤ 30

instance (a : EvidenceAssessment) : Decidable a.Valid :=
  decidable_of_iff ((0 ≤ a.authenticityScore ∧ a.authenticityScore ≤ 1) ∧
      (0 ≤ a.credibilityScore ∧ a.credibilityScore ≤ 1) ∧
        (1 ≤ a.reason.length ∧ a.reason.length ≤ 2000) ∧ a.extractedFacts.length ≤ 30)
    ⟨fun h => ⟨h.1, h.2.1, h.2.2.1, h.2.2.2⟩,
      fun h => ⟨h.authenticity, h.credibility, h.reason, h.facts⟩⟩

instance (o : ConflictAnalysisOutput) : Decidable o.Valid :=
  decidable_of_iff ((1 ≤ o.suggestedConclusion.length ∧ o.suggestedConclusion.length ≤ 1000) ∧
      (1 ≤ o.reasoningSummary.length ∧ o.reasoningSummary.length ≤ 2000) ∧
        (0 ≤ o.confidence ∧ o.confidence ≤ 1) ∧
          (1 ≤ o.evidenceAssessments.length ∧ o.evidenceAssessments.length ≤ 500) ∧
            (∀ a ∈ o.evidenceAssessments, a.Valid) ∧ o.warnings.length ≤ 30)
    ⟨fun h => ⟨h.1, h.2.1, h.2.2.1, h.2.2.2.1, h.2.2.2.2.1, h.2.2.2.2.2⟩,
      fun h => ⟨h.conclusion, h.reasoning, h.confidence, h.assessments, h.each, h.warnings⟩⟩

/-- What the post-processing raises. Only the first is an error of the service; the schema raises value
errors. -/
inductive PostError
  | api (e : ApiError)
  | valueError
  | typeError

abbrev PostResult := Except PostError

/-- The constructor of the schema. -/
def ConflictAnalysisOutput.checked (o : ConflictAnalysisOutput) : PostResult ConflictAnalysisOutput := do
  require o.Valid .valueError
  pure o

/-! ## Warnings and references -/

def humanConfirmationWarning : String := "AI 只提供辅助判断，最终结论必须由指挥人员确认。"
def invalidReferenceWarning : String :=
  "AI 返回的证据引用与当前证据清单不一致，本次结果已按保守策略降级。"

/-- The warning speaks of the decision that a human has to make. -/
def Confirms (warning : String) : Prop :=
  "AI 只提供辅助判断".toList <:+: warning.toList ∧ "指挥人员确认".toList <:+: warning.toList

instance (warning : String) : Decidable (Confirms warning) := inferInstanceAs (Decidable (_ ∧ _))

/-- `_ensure_conflict_human_confirmation_warning` -/
def ensureConflictHumanConfirmationWarning (o : ConflictAnalysisOutput) : ConflictAnalysisOutput :=
  if ∃ w ∈ o.warnings, Confirms w then o
  else if 30 ≤ o.warnings.length then
    { o with warnings := o.warnings.dropLast ++ [humanConfirmationWarning] }
  else { o with warnings := o.warnings ++ [humanConfirmationWarning] }

/-- Why the references of an output are refused. -/
inductive ReferenceError
  | duplicate
  | unknown (ids : Finset String)
  | omitted (ids : Finset String)
  | unconfirmed

def ConflictAnalysisOutput.assessmentIds (o : ConflictAnalysisOutput) : List String :=
  o.evidenceAssessments.map (·.evidenceId)

def ConflictAnalysisOutput.validateEvidenceRefs (o : ConflictAnalysisOutput) (allowed : Finset String) :
    Except ReferenceError Unit := do
  let referenced := o.assessmentIds.toFinset
  require o.assessmentIds.Nodup .duplicate
  let recommended : Finset String :=
    if o.recommendedEvidenceId = "" then ∅ else {o.recommendedEvidenceId}
  let unknown := (referenced ∪ recommended) \ allowed
  require (unknown = ∅) (.unknown unknown)
  let omitted := allowed \ referenced
  require (omitted = ∅) (.omitted omitted)
  require (∃ w ∈ o.warnings, Confirms w) .unconfirmed

/-! ## The fallback -/

/-- What a loop over a value sees. The characters of a text and the keys of an object are no
objects, and the other scalars cannot be iterated. -/
def Json.iterated : Json → Option (List Json)
  | .arr items => some items
  | .null | .bool _ | .num _ => none
  | _ => some []

/-- The identifiers of the objects among the items. -/
def itemIds (items : List Json) : List Json :=
  items.filterMap fun item => item.asDict.map fun d => (d.get "id").getD .null

/-- Lists and objects cannot be looked up in a set. -/
def Json.hashable : Json → Bool
  | .arr _ | .obj _ => false
  | _ => true

/-- How identifiers and times are spelled. -/
structure Spelling where
  id : Id → String
  time : Time → String

def Spelling.text (spelling : Spelling) : Json → Option String
  | .str s => some s
  | .ref i => some (spelling.id i)
  | .time t => some (spelling.time t)
  | _ => none

section Postprocessing
variable (spelling : Spelling)

def appendEvidenceId (allowed : Finset String) (ids : List String) (id : String) : List String :=
  if id ∈ allowed ∧ id ∉ ids then ids ++ [id] else ids

/-- The allowed identifiers in the order of their first occurrence. -/
def orderedEvidenceIds (allowed : Finset String) (items : List Json) : List String :=
  ((itemIds items).filterMap spelling.text).foldl (appendEvidenceId allowed) []

def unassessedReason : String := "AI 返回的证据引用无效，未采纳自动评估，需人工复核。"
def fallbackConclusion : String := "现有证据不足，无法形成可靠结论，建议人工复核。"
def fallbackReasoning : String :=
  "AI 返回的证据引用与当前冲突证据清单不一致，服务端已拒绝引用并按全部当前证据回退为待人工复核。"

def fallbackAssessment (evidenceId : String) : EvidenceAssessment :=
  ⟨evidenceId, 1 / 2, 0, .uncertain, unassessedReason, []⟩

def fallbackOutput (o : ConflictAnalysisOutput) (ordered : List String) : ConflictAnalysisOutput where
  recommendedEvidenceId := ""
  suggestedConclusion := fallbackConclusion
  reasoningSummary := fallbackReasoning
  confidence := min o.confidence (1 / 5)
  evidenceAssessments := ordered.map fallbackAssessment
  warnings := [invalidReferenceWarning, humanConfirmationWarning]

/-- `_conflict_reference_fallback` -/
def conflictReferenceFallback (o : ConflictAnalysisOutput) (payload : Dict) (allowed : Finset String) :
    PostResult ConflictAnalysisOutput := do
  let items ← found (((payload.get "evidence").getD (.arr [])).iterated) .typeError
  let ordered := orderedEvidenceIds spelling allowed items
  require (ordered.toFinset = allowed)
    (.api ⟨500, "AI_CONTEXT_INVALID", "AI 冲突上下文与允许证据清单不一致", []⟩)
  (fallbackOutput o ordered).checked

/-- The identifiers are looked up for the debug log before the fallback. -/
def logAllowedIds (payload : Dict) : PostResult Unit := do
  let items ← found (((payload.get "evidence").getD (.arr [])).iterated) .typeError
  require ((itemIds items).all Json.hashable = true) .typeError

/-- The end of `_invoke_structured`, with `reference_valid`. -/
def postprocessConflict (o : ConflictAnalysisOutput) (payload : Dict) (allowed : Finset String) :
    PostResult (ConflictAnalysisOutput × Bool) :=
  let o := ensureConflictHumanConfirmationWarning o
  match o.validateEvidenceRefs allowed with
  | .ok () => pure (o, true)
  | .error _ => do
    logAllowedIds payload
    let fallback ← conflictReferenceFallback spelling o payload allowed
    match fallback.validateEvidenceRefs allowed with
    | .ok () => pure (fallback, false)
    | .error _ => throw .valueError

end Postprocessing

/-! ## Listed identifiers -/

section Listed
variable {spelling : Spelling} {allowed : Finset String} {items : List Json}

/-- Every allowed identifier is that of an object among the items. -/
def Lists (spelling : Spelling) (items : List Json) (allowed : Finset String) : Prop :=
  ∀ id ∈ allowed, ∃ j ∈ itemIds items, spelling.text j = some id

theorem mem_appendEvidenceId {ids : List String} {id other : String} :
    other ∈ appendEvidenceId allowed ids id ↔ other ∈ ids ∨ other = id ∧ id ∈ allowed := by
  unfold appendEvidenceId
  by_cases h : id ∈ allowed ∧ id ∉ ids
  · rw [if_pos h]
    simp [h.1]
  · rw [if_neg h]
    constructor
    · exact Or.inl
    · rintro (hold | ⟨rfl, hallowed⟩)
      · exact hold
      · by_contra hnew
        exact h ⟨hallowed, hnew⟩

theorem appendEvidenceId_nodup {ids : List String} (h : ids.Nodup) (id : String) :
    (appendEvidenceId allowed ids id).Nodup := by
  unfold appendEvidenceId
  by_cases hid : id ∈ allowed ∧ id ∉ ids
  · rw [if_pos hid]
    exact List.nodup_append.mpr ⟨h, List.nodup_singleton id, fun a ha b hb hab =>
      hid.2 (List.mem_singleton.mp hb ▸ hab ▸ ha)⟩
  · rwa [if_neg hid]

theorem mem_foldl_appendEvidenceId {listed ids : List String} {other : String} :
    other ∈ listed.foldl (appendEvidenceId allowed) ids ↔
      other ∈ ids ∨ other ∈ listed ∧ other ∈ allowed := by
  induction listed generalizing ids with
  | nil => simp
  | cons id listed ih =>
    rw [List.foldl_cons, ih, mem_appendEvidenceId, List.mem_cons]
    constructor
    · rintro ((h | ⟨rfl, h⟩) | h)
      · exact .inl h
      · exact .inr ⟨.inl rfl, h⟩
      · exact .inr ⟨.inr h.1, h.2⟩
    · rintro (h | ⟨rfl | h, ha⟩)
      · exact .inl (.inl h)
      · exact .inl (.inr ⟨rfl, ha⟩)
      · exact .inr ⟨h, ha⟩

theorem foldl_appendEvidenceId_nodup (listed : List String) {ids : List String} (h : ids.Nodup) :
    (listed.foldl (appendEvidenceId allowed) ids).Nodup := by
  induction listed generalizing ids with
  | nil => exact h
  | cons id listed ih => exact ih (appendEvidenceId_nodup h id)

theorem orderedEvidenceIds_nodup (spelling : Spelling) (allowed : Finset String) (items : List Json) :
    (orderedEvidenceIds spelling allowed items).Nodup :=
  foldl_appendEvidenceId_nodup _ List.nodup_nil

theorem mem_orderedEvidenceIds {id : String} : id ∈ orderedEvidenceIds spelling allowed items ↔
    (∃ j ∈ itemIds items, spelling.text j = some id) ∧ id ∈ allowed := by
  simp [orderedEvidenceIds, mem_foldl_appendEvidenceId]

/-- The list is complete just when the items name every allowed identifier. -/
theorem orderedEvidenceIds_eq_iff :
    (orderedEvidenceIds spelling allowed items).toFinset = allowed ↔ Lists spelling items allowed := by
  constructor
  · intro h id hid
    rw [← h, List.mem_toFinset, mem_orderedEvidenceIds] at hid
    exact hid.1
  · intro h
    ext id
    rw [List.mem_toFinset, mem_orderedEvidenceIds]
    exact ⟨And.right, fun hid => ⟨h id hid, hid⟩⟩

theorem orderedEvidenceIds_length (h : Lists spelling items allowed) :
    (orderedEvidenceIds spelling allowed items).length = allowed.card := by
  rw [← List.toFinset_card_of_nodup (orderedEvidenceIds_nodup spelling allowed items),
    orderedEvidenceIds_eq_iff.mpr h]

end Listed

/-! ## Sound outputs -/

/-- The assessments are of the allowed evidence, and the recommendation is one of it or none. -/
def ConflictAnalysisOutput.Refers (o : ConflictAnalysisOutput) (allowed : Finset String) : Prop :=
  (o.assessmentIds.Nodup ∧ o.assessmentIds.toFinset = allowed) ∧
    (o.recommendedEvidenceId = "" ∨ o.recommendedEvidenceId ∈ allowed)

instance (o : ConflictAnalysisOutput) (allowed : Finset String) : Decidable (o.Refers allowed) :=
  inferInstanceAs (Decidable (_ ∧ _))

section Outputs
variable {o : ConflictAnalysisOutput} {allowed : Finset String}

theorem validateEvidenceRefs_ok {u : Unit} : o.validateEvidenceRefs allowed = .ok u ↔
    o.Refers allowed ∧ ∃ w ∈ o.warnings, Confirms w := by
  have hsub : (o.assessmentIds.toFinset ∪ (if o.recommendedEvidenceId = "" then ∅ else
      {o.recommendedEvidenceId})) \ allowed = ∅ ↔ o.assessmentIds.toFinset ⊆ allowed ∧
        (o.recommendedEvidenceId = "" ∨ o.recommendedEvidenceId ∈ allowed) := by
    rw [Finset.sdiff_eq_empty_iff_subset, Finset.union_subset_iff]
    by_cases h : o.recommendedEvidenceId = "" <;> simp [h]
  have hset : o.assessmentIds.toFinset = allowed ↔
      o.assessmentIds.toFinset ⊆ allowed ∧ allowed ⊆ o.assessmentIds.toFinset := subset_antisymm_iff
  simp only [ConflictAnalysisOutput.validateEvidenceRefs, bind_ok, require_ok, exists_const, hsub,
    Finset.sdiff_eq_empty_iff_subset, ConflictAnalysisOutput.Refers, hset]
  constructor
  · rintro ⟨hnodup, ⟨hknown, hrec⟩, hall, hw⟩
    exact ⟨⟨⟨hnodup, hknown, hall⟩, hrec⟩, hw⟩
  · rintro ⟨⟨⟨hnodup, hknown, hall⟩, hrec⟩, hw⟩
    exact ⟨hnodup, ⟨hknown, hrec⟩, hall, hw⟩

theorem confirms_humanConfirmationWarning : Confirms humanConfirmationWarning := by
  decide +kernel

/-- Only the warnings change, and one of them speaks of the human decision. -/
theorem ensureWarning_spec (o : ConflictAnalysisOutput) :
    ∃ ws, ensureConflictHumanConfirmationWarning o = { o with warnings := ws } ∧
      (∃ w ∈ ws, Confirms w) ∧ (o.warnings.length ≤ 30 → ws.length ≤ 30) := by
  unfold ensureConflictHumanConfirmationWarning
  by_cases hw : ∃ w ∈ o.warnings, Confirms w
  · rw [if_pos hw]
    exact ⟨o.warnings, rfl, hw, id⟩
  rw [if_neg hw]
  by_cases hfull : 30 ≤ o.warnings.length
  · rw [if_pos hfull]
    refine ⟨_, rfl, ⟨_, List.mem_append_right _ (List.mem_singleton_self _),
      confirms_humanConfirmationWarning⟩, fun h => ?_⟩
    rw [List.length_append, List.length_dropLast, List.length_singleton]
    omega
  · rw [if_neg hfull]
    refine ⟨_, rfl, ⟨_, List.mem_append_right _ (List.mem_singleton_self _),
      confirms_humanConfirmationWarning⟩, fun _ => ?_⟩
    rw [List.length_append, List.length_singleton]
    omega

theorem ensureWarning_refs_ok {u : Unit} :
    (ensureConflictHumanConfirmationWarning o).validateEvidenceRefs allowed = .ok u ↔
      o.Refers allowed := by
  obtain ⟨ws, ho, hw, -⟩ := ensureWarning_spec o
  rw [ho, validateEvidenceRefs_ok]
  exact ⟨fun h => h.1, fun h => ⟨h, hw⟩⟩

theorem ensureWarning_valid (ho : o.Valid) : (ensureConflictHumanConfirmationWarning o).Valid := by
  obtain ⟨ws, heq, -, hlen⟩ := ensureWarning_spec o
  rw [heq]
  exact { ho with warnings := hlen ho.warnings }

theorem fallbackOutput_assessmentIds (o : ConflictAnalysisOutput) (ordered : List String) :
    (fallbackOutput o ordered).assessmentIds = ordered := by
  change (ordered.map fallbackAssessment).map (·.evidenceId) = ordered
  rw [List.map_map]
  exact List.map_id' ordered

theorem fallbackAssessment_valid (id : String) : (fallbackAssessment id).Valid where
  authenticity := by norm_num [fallbackAssessment]
  credibility := by norm_num [fallbackAssessment]
  reason := by
    change 1 ≤ unassessedReason.length ∧ unassessedReason.length ≤ 2000
    decide +kernel
  facts := Nat.zero_le _

/-- Only the number of assessments can break the schema. -/
theorem fallbackOutput_valid_iff (ho : o.Valid) (ordered : List String) :
    (fallbackOutput o ordered).Valid ↔ 1 ≤ ordered.length ∧ ordered.length ≤ 500 := by
  constructor
  · intro h
    have hlen := h.assessments
    rwa [fallbackOutput, List.length_map] at hlen
  · intro h
    exact
      { conclusion := by
          change 1 ≤ fallbackConclusion.length ∧ fallbackConclusion.length ≤ 1000
          decide +kernel
        reasoning := by
          change 1 ≤ fallbackReasoning.length ∧ fallbackReasoning.length ≤ 2000
          decide +kernel
        confidence := ⟨le_min ho.confidence.1 (by norm_num), (min_le_left _ _).trans ho.confidence.2⟩
        assessments := by rwa [fallbackOutput, List.length_map]
        each := by
          intro a ha
          obtain ⟨id, -, rfl⟩ := List.mem_map.mp ha
          exact fallbackAssessment_valid id
        warnings := by
          change 2 ≤ 30
          omega }

theorem fallbackOutput_refers {spelling : Spelling} {items : List Json}
    (h : Lists spelling items allowed) (o : ConflictAnalysisOutput) :
    (fallbackOutput o (orderedEvidenceIds spelling allowed items)).Refers allowed := by
  refine ⟨?_, .inl rfl⟩
  rw [fallbackOutput_assessmentIds]
  exact ⟨orderedEvidenceIds_nodup spelling allowed items, orderedEvidenceIds_eq_iff.mpr h⟩

theorem confirms_fallback (o : ConflictAnalysisOutput) (ordered : List String) :
    ∃ w ∈ (fallbackOutput o ordered).warnings, Confirms w :=
  ⟨humanConfirmationWarning, List.mem_cons_of_mem _ (List.mem_singleton_self _),
    confirms_humanConfirmationWarning⟩

end Outputs

/-! ## Accepted and refused outputs -/

/-- What the caller may rely on: an error of the service, or an output that decides nothing on other
evidence than it was given. -/
def Sound (allowed : Finset String) : PostResult (ConflictAnalysisOutput × Bool) → Prop
  | .ok (out, referenceValid) => out.Valid ∧ out.Refers allowed ∧
      ((∃ w ∈ out.warnings, Confirms w) ∧ out.warnings.length ≤ 30) ∧
        (referenceValid = false → out.confidence ≤ 1 / 5)
  | .error e => ∃ a, e = .api a

/-- The evidence of a payload can be walked through for the log and the fallback, and the fallback
either finds that it is not the allowed evidence or makes an output of it that the schema takes. -/
def FallsBack (spelling : Spelling) (payload : Dict) (allowed : Finset String) : Prop :=
  ∃ items, ((payload.get "evidence").getD (.arr [])).iterated = some items ∧
    (∀ j ∈ itemIds items, j.hashable = true) ∧
      (Lists spelling items allowed → 1 ≤ allowed.card ∧ allowed.card ≤ 500)

section Soundness
variable {spelling : Spelling} {o : ConflictAnalysisOutput} {payload : Dict} {allowed : Finset String}

theorem postprocessConflict_refers (h : o.Refers allowed) :
    postprocessConflict spelling o payload allowed =
      .ok (ensureConflictHumanConfirmationWarning o, true) := by
  have hrefs : (ensureConflictHumanConfirmationWarning o).validateEvidenceRefs allowed = .ok () :=
    ensureWarning_refs_ok.mpr h
  unfold postprocessConflict
  dsimp only
  rw [hrefs]
  rfl

theorem sound_of_refers (ho : o.Valid) (h : o.Refers allowed) :
    Sound allowed (postprocessConflict spelling o payload allowed) := by
  rw [postprocessConflict_refers h]
  obtain ⟨ws, heq, hw, hlen⟩ := ensureWarning_spec o
  refine ⟨ensureWarning_valid ho, ?_, ?_, fun hfalse => nomatch hfalse⟩
  · rw [heq]
    exact h
  · rw [heq]
    exact ⟨hw, hlen ho.warnings⟩

theorem logAllowedIds_eq {items : List Json}
    (hitems : ((payload.get "evidence").getD (.arr [])).iterated = some items) :
    logAllowedIds payload =
      if ∀ j ∈ itemIds items, j.hashable = true then .ok () else .error .typeError := by
  unfold logAllowedIds
  rw [hitems]
  by_cases h : ∀ j ∈ itemIds items, j.hashable = true
  · rw [if_pos h]
    exact if_pos (List.all_eq_true.mpr h)
  · rw [if_neg h]
    exact if_neg (mt List.all_eq_true.mp h)

theorem logAllowedIds_of_none (h : ((payload.get "evidence").getD (.arr [])).iterated = none) :
    logAllowedIds payload = .error .typeError := by
  unfold logAllowedIds
  rw [h]
  rfl

theorem conflictReferenceFallback_unlisted {items : List Json} (o : ConflictAnalysisOutput)
    (hitems : ((payload.get "evidence").getD (.arr [])).iterated = some items)
    (hlists : ¬ Lists spelling items allowed) :
    ∃ a, conflictReferenceFallback spelling o payload allowed = .error (.api a) := by
  unfold conflictReferenceFallback
  rw [hitems]
  dsimp only [found, bind, Except.bind]
  rw [require, if_neg (mt orderedEvidenceIds_eq_iff.mp hlists)]
  exact ⟨_, rfl⟩

/-- The fallback for the listed evidence is an output just when the schema takes it. -/
theorem conflictReferenceFallback_listed {items : List Json} (ho : o.Valid)
    (hitems : ((payload.get "evidence").getD (.arr [])).iterated = some items)
    (hlists : Lists spelling items allowed) :
    conflictReferenceFallback spelling o payload allowed =
      if 1 ≤ allowed.card ∧ allowed.card ≤ 500 then
        .ok (fallbackOutput o (orderedEvidenceIds spelling allowed items)) else .error .valueError := by
  have hvalid := fallbackOutput_valid_iff ho (orderedEvidenceIds spelling allowed items)
  rw [orderedEvidenceIds_length hlists] at hvalid
  unfold conflictReferenceFallback
  rw [hitems]
  dsimp only [found, bind, Except.bind]
  rw [require, if_pos (orderedEvidenceIds_eq_iff.mpr hlists)]
  dsimp only [ConflictAnalysisOutput.checked]
  by_cases hcard : 1 ≤ allowed.card ∧ allowed.card ≤ 500
  · rw [if_pos hcard, require, if_pos (hvalid.mpr hcard)]
    rfl
  · rw [if_neg hcard, require, if_neg (mt hvalid.mp hcard)]
    rfl

/-- Refused references lead to the log and to the fallback. -/
theorem postprocessConflict_refused (h : ¬ o.Refers allowed) :
    postprocessConflict spelling o payload allowed = (do
      logAllowedIds payload
      let fallback ← conflictReferenceFallback spelling (ensureConflictHumanConfirmationWarning o)
        payload allowed
      match fallback.validateEvidenceRefs allowed with
      | .ok () => pure (fallback, false)
      | .error _ => throw .valueError) := by
  unfold postprocessConflict
  dsimp only
  cases hrefs : (ensureConflictHumanConfirmationWarning o).validateEvidenceRefs allowed with
  | ok u => exact absurd (ensureWarning_refs_ok.mp hrefs) h
  | error e => rfl

/-- The fallback is sound when the schema takes it. -/
theorem sound_fallback {ordered : List String} (hvalid : (fallbackOutput o ordered).Valid)
    (hrefers : (fallbackOutput o ordered).Refers allowed) :
    Sound allowed (.ok (fallbackOutput o ordered, false)) :=
  ⟨hvalid, hrefers, ⟨confirms_fallback o ordered, hvalid.warnings⟩, fun _ => min_le_right _ _⟩

theorem sound_refused_iff (ho : o.Valid) (h : ¬ o.Refers allowed) :
    Sound allowed (postprocessConflict spelling o payload allowed) ↔
      FallsBack spelling payload allowed := by
  rw [postprocessConflict_refused h]
  cases hitems : ((payload.get "evidence").getD (.arr [])).iterated with
  | none =>
    rw [logAllowedIds_of_none hitems]
    exact ⟨fun ⟨_, ha⟩ => (nomatch ha), fun ⟨_, hi, _⟩ => (nomatch hitems.symm.trans hi)⟩
  | some items =>
    have hfalls : FallsBack spelling payload allowed ↔ (∀ j ∈ itemIds items, j.hashable = true) ∧
        (Lists spelling items allowed → 1 ≤ allowed.card ∧ allowed.card ≤ 500) := by
      unfold FallsBack
      rw [hitems]
      simp
    rw [hfalls, logAllowedIds_eq hitems]
    by_cases hhash : ∀ j ∈ itemIds items, j.hashable = true
    · rw [if_pos hhash]
      by_cases hlists : Lists spelling items allowed
      · rw [conflictReferenceFallback_listed (ensureWarning_valid ho) hitems hlists]
        by_cases hcard : 1 ≤ allowed.card ∧ allowed.card ≤ 500
        · rw [if_pos hcard]
          have hrefers := fallbackOutput_refers hlists (ensureConflictHumanConfirmationWarning o)
          have hvalid := (fallbackOutput_valid_iff (ensureWarning_valid ho)
            (orderedEvidenceIds spelling allowed items)).mpr (by rwa [orderedEvidenceIds_length hlists])
          have hrefs := (validateEvidenceRefs_ok (u := ())).mpr ⟨hrefers, confirms_fallback _ _⟩
          dsimp only [bind, Except.bind]
          rw [hrefs]
          exact ⟨fun _ => ⟨hhash, fun _ => hcard⟩, fun _ => sound_fallback hvalid hrefers⟩
        · rw [if_neg hcard]
          exact ⟨fun ⟨_, ha⟩ => (nomatch ha), fun hc => absurd (hc.2 hlists) hcard⟩
      · obtain ⟨a, ha⟩ := conflictReferenceFallback_unlisted
          (ensureConflictHumanConfirmationWarning o) hitems hlists
        rw [ha]
        exact ⟨fun _ => ⟨hhash, fun hl => absurd hl hlists⟩, fun _ => ⟨a, rfl⟩⟩
    · rw [if_neg hhash]
      exact ⟨fun ⟨_, ha⟩ => (nomatch ha), fun hc => absurd hc.1 hhash⟩

theorem conflict_output_is_sound_iff (spelling : Spelling) (o : ConflictAnalysisOutput) (payload : Dict)
    (allowed : Finset String) (ho : o.Valid) :
    Sound allowed (postprocessConflict spelling o payload allowed) ↔
      o.Refers allowed ∨ FallsBack spelling payload allowed := by
  by_cases h : o.Refers allowed
  · exact ⟨fun _ => .inl h, fun _ => sound_of_refers ho h⟩
  · rw [sound_refused_iff ho h]
    exact ⟨.inr, fun hor => hor.resolve_left h⟩

end Soundness

namespace Sample

def hexSpelling : Spelling := ⟨fun i => String.ofList (Nat.toDigits 16 i), fun t => toString t⟩

/-- One evidence is assessed and recommended. -/
def assessedEvidence : ConflictAnalysisOutput where
  recommendedEvidenceId := "1f"
  suggestedConclusion := "道路可通行"
  reasoningSummary := "现场照片清晰"
  confidence := 9 / 10
  evidenceAssessments := [⟨"1f", 9 / 10, 4 / 5, .supported, "照片与描述一致", []⟩]
  warnings := []

/-- What a retention pass leaves of the context of a queued analysis. -/
def expiredContext : Dict := [("retention_expired", .bool true)]

end Sample

theorem assessed_evidence_is_sound :
    Sound {"1f"} (postprocessConflict Sample.hexSpelling Sample.assessedEvidence
      [("evidence", .arr [.obj [("id", .ref 31)]])] {"1f"}) :=
  (conflict_output_is_sound_iff Sample.hexSpelling Sample.assessedEvidence _ {"1f"}
    (by decide +kernel)).mpr (.inl (by decide +kernel))

/-- Without allowed evidence the fallback has no assessment, which its own schema refuses. -/
theorem expired_context_is_not_declared : Sample.assessedEvidence.Valid ∧
    postprocessConflict Sample.hexSpelling Sample.assessedEvidence Sample.expiredContext ∅ =
      .error .valueError ∧
    ¬ Sound ∅ (postprocessConflict Sample.hexSpelling Sample.assessedEvidence
      Sample.expiredContext ∅) := by
  have hresult : postprocessConflict Sample.hexSpelling Sample.assessedEvidence
      Sample.expiredContext ∅ = .error .valueError := by
    have hitems : ((Sample.expiredContext.get "evidence").getD (.arr [])).iterated = some [] := rfl
    rw [postprocessConflict_refused (by decide +kernel), logAllowedIds_eq hitems,
      conflictReferenceFallback_listed (ensureWarning_valid (by decide +kernel)) hitems
        (fun _ h => absurd h (Finset.notMem_empty _))]
    rfl
  refine ⟨by decide +kernel, hresult, ?_⟩
  rw [hresult]
  exact fun ⟨_, ha⟩ => nomatch ha

end CrisisMosaic
