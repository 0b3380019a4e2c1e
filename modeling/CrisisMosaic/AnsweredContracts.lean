import Mathlib.Data.String.Basic
import CrisisMosaic.AnalysisJobs
import CrisisMosaic.AnalysisWrites
import CrisisMosaic.ConflictOutputs
import CrisisMosaic.Contacts
import CrisisMosaic.Refinements
import CrisisMosaic.Relational.Recorded

/-!
# Answers of the model provider

A request to the provider whose answer has to be a text that the schema of an output accepts. An answer that it
refuses is sent back once to be repaired. What is accepted is then held against what the model was given.
-/

namespace CrisisMosaic
open Relational

/-- What comes of a request to the provider: `httpx` errors and bodies that are no JSON, any other exception, or a
body. -/
inductive ProviderReply
  | timeout
  | failed
  | raised
  | body (j : Json)

/-- The second request has the text that was refused and the identifiers that may be used. -/
inductive ProviderCall
  | ask
  | repair (invalidContent : String) (allowed : Finset String)

/-- An error of the service, or any other exception. -/
inductive InvocationError
  | api (e : ApiError)
  | raised

abbrev Invocation := Except InvocationError

def modelTimedOut : ApiError := ⟨504, "AI_MODEL_TIMEOUT", "AI 服务响应超时", []⟩
def serviceUnavailable : ApiError := ⟨503, "AI_SERVICE_UNAVAILABLE", "AI 服务调用失败", []⟩
def outputSchemaInvalid : ApiError := ⟨502, "AI_OUTPUT_SCHEMA_INVALID", "AI 返回结果未通过结构校验", []⟩
def processingFailed : ApiError := ⟨503, "AI_PROCESSING_FAILED", "AI 分析处理失败", []⟩

/-! ## Texts -/

section Texts
variable (lib : TextLib)

def rstrip (s : List Char) : List Char := (s.reverse.dropWhile lib.isSpace).reverse

/-- The text between the fences, if there is a second one at the end. -/
def fenced (s : List Char) : Option (List Char) :=
  let body := rstrip lib s
  if ['`', '`', '`'] <:+ body then some (rstrip lib (body.take (body.length - 3))) else none

/-- `_strip_json_fences` -/
def stripJsonFences (content : String) : String :=
  let s := content.toList
  match s.dropWhile lib.isSpace with
  | '`' :: '`' :: '`' :: rest =>
    let inner := if ['j', 's', 'o', 'n'] <+: rest then rest.drop 4 else rest
    match fenced lib (inner.dropWhile lib.isSpace) with
    | some body => String.ofList body
    | none => content
  | _ => content

end Texts

/-- `body["choices"][0]["message"]["content"]` -/
def messageContent (body : Json) : Option Json := do
  let d ← body.asDict
  let choices ← d.get "choices"
  let choice ← match choices with
    | .arr (choice :: _) => choice.asDict
    | _ => none
  let message ← (choice.get "message").bind Json.asDict
  message.get "content"

/-- The text of a content; the parts of a list are joined. -/
def contentText (str : Json → String) : Json → Option String
  | .arr items => some (String.join (items.filterMap fun item =>
      item.asDict.map fun d => str ((d.get "text").getD (.str ""))))
  | .str s => some s
  | .ref i => some (str (.ref i))
  | .time t => some (str (.time t))
  | _ => none

/-- What the schema makes of a JSON text, strictly or not; outputs are what it can make. -/
structure OutputModel (α : Type) where
  validateJson : Bool → String → Option α

/-- `model_validate_json`: the configuration of the outputs is strict. -/
def OutputModel.modelValidateJson {α : Type} (model : OutputModel α) (strict : Option Bool) (s : String) : Option α :=
  model.validateJson (strict.getD true) s

section Invocations
variable {α : Type} (model : OutputModel α) (str : Json → String) (lib : TextLib)

/-- The text of the first answer; the usage is read from the body before it. -/
def firstContent : ProviderReply → Invocation String
  | .timeout => .error (.api modelTimedOut)
  | .failed => .error (.api serviceUnavailable)
  | .raised => .error .raised
  | .body (.obj d) => found ((messageContent (.obj d)).bind (contentText str)) (.api serviceUnavailable)
  | .body _ => .error .raised

/-- The text of a repaired answer. -/
def repairedContent : ProviderReply → Invocation String
  | .timeout => .error (.api modelTimedOut)
  | .failed => .error (.api serviceUnavailable)
  | .raised => .error .raised
  | .body j => found ((messageContent j).bind (contentText str)) (.api serviceUnavailable)

/-- `_repair_structured_output` -/
def repairStructuredOutput (reply : ProviderReply) : Invocation α := do
  let content ← repairedContent str reply
  found (model.modelValidateJson (some true) (stripJsonFences lib content)) (.api outputSchemaInvalid)

/-- `_invoke_structured` up to the output, with the requests that it makes. -/
def invokeStructured (allowed : Finset String) (first repair : ProviderReply) : Invocation α × List ProviderCall :=
  match firstContent str first with
  | .error e => (.error e, [.ask])
  | .ok content =>
    match model.modelValidateJson (some true) (stripJsonFences lib content) with
    | some output => (.ok output, [.ask])
    | none =>
      -- meant to be lenient, but for the configuration of the outputs
      match model.modelValidateJson none (stripJsonFences lib content) with
      | some output => (.ok output, [.ask])
      | none => (repairStructuredOutput model str lib repair, [.ask, .repair content allowed])

end Invocations

/-! ## Command briefs -/

structure BriefRecommendation where
  text : Bounded 1 500
  severity : Priority
  sourceRefs : {l : List String // 1 ≤ l.length ∧ l.length ≤ 20 ∧ l.Nodup}

structure CommandBriefOutput where
  headline : Bounded 1 100
  summary : Bounded 1 1000
  recommendations : {l : List BriefRecommendation // l.length ≤ 10}
  confidence : {q : ℚ // 0 ≤ q ∧ q ≤ 1}

def Json.strs (l : List String) : Json := .arr (l.map .str)

def BriefRecommendation.dump (r : BriefRecommendation) : Json :=
  .obj [("text", .str r.text.val), ("severity", .str r.severity.text), ("source_refs", .strs r.sourceRefs.val)]

def CommandBriefOutput.dump (o : CommandBriefOutput) : Dict :=
  [("headline", .str o.headline.val), ("summary", .str o.summary.val),
    ("recommendations", .arr (o.recommendations.val.map BriefRecommendation.dump)),
    ("confidence", .num o.confidence.val)]

def briefCollections : List String :=
  ["urgent_reports", "recent_reports", "open_conflicts", "blind_spots", "current_facts", "recent_changes"]

/-- The sources of the items of a collection, if it can be iterated. -/
def collectionRefs (str : Json → String) (context : Dict) (collection : String) : Option (List String) :=
  (((context.get collection).getD (.arr [])).iterated).map fun items =>
    items.filterMap fun item => ((item.asDict.bind fun d => d.get "source_ref").filter Questions.isTruthy).map str

/-- What a brief may refer to. -/
def allowedSourceRefs (str : Json → String) (context : Dict) : Option (Finset String) :=
  (briefCollections.mapM (collectionRefs str context)).map fun refs => insert "incident:current" refs.flatten.toFinset

def CommandBriefOutput.sourceRefs (o : CommandBriefOutput) : Finset String :=
  (o.recommendations.val.flatMap (·.sourceRefs.val)).toFinset

/-- `validate_source_refs`, with the error that is made of it. -/
def CommandBriefOutput.validateSourceRefs (str : Json → String) (o : CommandBriefOutput) (allowed : Finset String) :
    Result Unit :=
  let unknown := o.sourceRefs \ allowed
  require (unknown = ∅) ⟨502, "AI_OUTPUT_REFERENCE_INVALID",
    "AI output referenced unknown sources: " ++ str (.strs (unknown.sort (· ≤ ·))), []⟩

/-- The text that is searched. -/
def CommandBriefOutput.text (o : CommandBriefOutput) : List Char :=
  o.headline.val.toList ++ '\n' :: o.summary.val.toList ++
    '\n' :: (List.intercalate ['\n'] (o.recommendations.val.map fun r => r.text.val.toList))

/-- `_validate_command_brief_contract` -/
def validateCommandBriefContract (lib : TextLib) (o : CommandBriefOutput) : Result Unit := do
  require (hasPii lib o.text = false ∧ (completionPhrases.all fun phrase => !occursIn phrase o.text) = true)
    (factIntegrityFailed "AI 态势简报输出包含敏感明文或完成态处置表述")
  require (o.recommendations.val ≠ [] ∨ o.headline.val = "当前信息不足")
    (factIntegrityFailed "AI 态势简报在无建议时未标注信息不足")

end CrisisMosaic

/-!
## What the worker stores of the answers

The worker asks the provider about the analysis it holds. Whatever the provider sends back, an answer that is stored
refers to what the analysis was given and keeps to its contract, and the requests are paid for by the attempts of
the job.
-/

namespace CrisisMosaic
open Relational

def EvidenceVerdict.text : EvidenceVerdict → String
  | .supported => "supported"
  | .likely => "likely"
  | .uncertain => "uncertain"
  | .contradicted => "contradicted"

def EvidenceAssessment.dump (a : EvidenceAssessment) : Json :=
  .obj [("evidence_id", .str a.evidenceId), ("authenticity_score", .num a.authenticityScore),
    ("credibility_score", .num a.credibilityScore), ("verdict", .str a.verdict.text), ("reason", .str a.reason),
    ("extracted_facts", .strs a.extractedFacts)]

def ConflictAnalysisOutput.dump (o : ConflictAnalysisOutput) : Dict :=
  [("recommended_evidence_id", .str o.recommendedEvidenceId), ("suggested_conclusion", .str o.suggestedConclusion),
    ("reasoning_summary", .str o.reasoningSummary), ("confidence", .num o.confidence),
    ("evidence_assessments", .arr (o.evidenceAssessments.map EvidenceAssessment.dump)),
    ("warnings", .strs o.warnings)]

structure AnswerEnv extends Env where
  analysis : AnalysisSettings
  conflictModel : OutputModel {o : ConflictAnalysisOutput // o.Valid}
  briefModel : OutputModel CommandBriefOutput

namespace AnswerEnv
variable (env : AnswerEnv)

def spelling : Spelling := ⟨fun i => env.str (.ref i), fun t => env.str (.time t)⟩

/-- The evidence that the request was about; the identifiers are texts. -/
def allowedEvidence (snapshot : Dict) : Invocation (Finset String) := do
  let items ← found (((snapshot.get "allowed_evidence_ids").getD (.arr [])).iterated) .raised
  pure (items.filterMap env.spelling.text).toFinset

def ofResult {α : Type} : Result α → Invocation α
  | .ok a => .ok a
  | .error e => .error (.api e)

def ofPost {α : Type} : PostResult α → Invocation α
  | .ok a => .ok a
  | .error (.api e) => .error (.api e)
  | .error _ => .error .raised

/-- What is stored of an output. -/
def checkedConflict (a : AiAnalysis) (allowed : Finset String) (o : {o : ConflictAnalysisOutput // o.Valid}) :
    Invocation (Dict × ℚ) := do
  let (output, _) ← ofPost (postprocessConflict env.spelling o.val (a.contextPackage.getD []) allowed)
  pure (output.dump, output.confidence)

def checkedBrief (allowed : Finset String) (o : CommandBriefOutput) : Invocation (Dict × ℚ) := do
  ofResult (o.validateSourceRefs env.str allowed)
  ofResult (validateCommandBriefContract env.text o)
  pure (o.dump, o.confidence.val)

/-- The images of the evidence are read before the provider is asked. -/
def answerConflict (a : AiAnalysis) (images : Invocation Unit) (first repair : ProviderReply) :
    Invocation (Dict × ℚ) × List ProviderCall :=
  match (do let allowed ← env.allowedEvidence a.inputSnapshot; images; pure allowed) with
  | .error e => (.error e, [])
  | .ok allowed =>
    let (answer, calls) := invokeStructured env.conflictModel env.str env.text allowed first repair
    (answer.bind (env.checkedConflict a allowed), calls)

def answerBrief (a : AiAnalysis) (first repair : ProviderReply) : Invocation (Dict × ℚ) × List ProviderCall :=
  match allowedSourceRefs env.str a.context with
  | none => (.error .raised, [])
  | some allowed =>
    let (answer, calls) := invokeStructured env.briefModel env.str env.text allowed first repair
    (answer.bind (env.checkedBrief allowed), calls)

/-- `process_analysis` between the start and the end of an analysis, with the requests that it makes. -/
def answer (a : AiAnalysis) (images : Invocation Unit) (first repair : ProviderReply) :
    Invocation (Dict × ℚ) × List ProviderCall :=
  if env.settings.aiConfigured then
    match a.analysisType with
    | .conflictAnalysis => env.answerConflict a images first repair
    | .commandBrief => env.answerBrief a first repair
    | _ => (.error (.api (unprocessable "ANALYSIS_TYPE_UNSUPPORTED" "不支持的 AI 分析类型")), [])
  else (.error (.api (unavailable env.settings)), [])

end AnswerEnv

/-- The error that a failed analysis is left with. -/
def InvocationError.stored : InvocationError → ApiError
  | .api e => e
  | .raised => processingFailed

/-- The worker answers as the provider does; all else happens as before. -/
inductive AnswerTurn
  | turn (x : AnalysisTurn)
  | answer (images : Invocation Unit) (first repair : ProviderReply) (target : Option (Id × ConflictCase))
  /-- The process ends after some of the requests, or the exception is not recorded. -/
  | lost (images : Invocation Unit) (first repair : ProviderReply) (made : ℕ) (error : Option ApiError)

section Turns
variable (env : AnswerEnv) (s : AnalysisState)

/-- The end of an execution whose answer is given. -/
def answeredTurn (a : AiAnalysis) (answer : Invocation (Dict × ℚ)) (target : Option (Id × ConflictCase)) :
    AnalysisTurn :=
  match answer with
  | .error e => .fail e.stored target
  | .ok (output, confidence) =>
    if (s.feed.incidents.get a.incidentId).isSome then .complete output confidence target
    else .fail ⟨404, "INCIDENT_NOT_FOUND", "事件不存在", []⟩ target

/-- The step of the analyses that a turn is; nobody but the provider ends an execution with an answer. -/
def AnswerTurn.base : AnswerTurn → AnalysisTurn
  | .turn (.complete _ _ _) | .turn (.fail _ _) => .tick 0
  | .turn x => x
  | .answer images first repair target =>
    match s.worker with
    | .running _ _ a => answeredTurn s a (env.answer a images first repair).1 target
    | _ => .tick 0
  | .lost _ _ _ _ error =>
    match s.worker, error with
    | .running _ _ _, some e => .abort e
    | .running _ _ _, none => .restart
    | _, _ => .tick 0

def answerStep (x : AnswerTurn) : AnalysisState := analysisStep env.toEnv env.analysis s (x.base env s)

/-- The requests of an execution, with the job that they are made for. -/
def workerCalls (images : Invocation Unit) (first repair : ProviderReply) : List (Id × ProviderCall) :=
  match s.worker with
  | .running job _ a => (env.answer a images first repair).2.map fun c => (job, c)
  | _ => []

def providerCalls : AnswerTurn → List (Id × ProviderCall)
  | .turn _ => []
  | .answer images first repair _ => workerCalls env s images first repair
  | .lost images first repair made _ => (workerCalls env s images first repair).take made

end Turns

def answerRun (env : AnswerEnv) (now : Time) (incidents : Table Incident) (steps : List AnswerTurn) : AnalysisState :=
  run (answerStep env) (.initial now incidents) steps

/-! ## Answers -/

section Invoked
variable {α : Type} {model : OutputModel α} {str : Json → String} {lib : TextLib} {allowed : Finset String}
  {first repair : ProviderReply}

/-- One request, or a second one when the schema refuses the text that came back. -/
theorem invokeStructured_calls :
    (invokeStructured model str lib allowed first repair).2 = [.ask] ∨
      ∃ content, firstContent str first = .ok content ∧
        model.modelValidateJson (some true) (stripJsonFences lib content) = none ∧
        (invokeStructured model str lib allowed first repair).2 = [.ask, .repair content allowed] := by
  unfold invokeStructured
  cases hcontent : firstContent str first with
  | error e => exact Or.inl rfl
  | ok content =>
    dsimp only
    cases hstrict : model.modelValidateJson (some true) (stripJsonFences lib content) with
    | some output => exact Or.inl rfl
    | none =>
      -- the second parse is as strict as the first
      have hlenient : model.modelValidateJson none (stripJsonFences lib content) = none := hstrict
      refine Or.inr ⟨content, rfl, hstrict, ?_⟩
      dsimp only
      rw [hlenient]

theorem invokeStructured_length : (invokeStructured model str lib allowed first repair).2.length ≤ 2 := by
  rcases @invokeStructured_calls α model str lib allowed first repair with h | ⟨content, -, -, h⟩ <;> simp [h]

end Invoked

section Answers
variable {env : AnswerEnv} {a : AiAnalysis} {images : Invocation Unit} {first repair : ProviderReply} {d : Dict}
  {c : ℚ}

variable (env) in
/-- The answer is an output that keeps to what the analysis was given and to its contract. -/
def AiAnalysis.Obeys (a : AiAnalysis) (d : Dict) : Prop :=
  match a.analysisType with
  | .conflictAnalysis => ∃ (allowed : Finset String) (o : ConflictAnalysisOutput),
      env.allowedEvidence a.inputSnapshot = .ok allowed ∧ d = o.dump ∧ o.Valid ∧ o.Refers allowed ∧
        ∃ w ∈ o.warnings, Confirms w
  | .commandBrief => ∃ (allowed : Finset String) (o : CommandBriefOutput),
      allowedSourceRefs env.str a.context = some allowed ∧ d = o.dump ∧ o.sourceRefs ⊆ allowed ∧
        hasPii env.text o.text = false ∧ (∀ phrase ∈ completionPhrases, occursIn phrase o.text = false) ∧
          (o.recommendations.val = [] → o.headline.val = "当前信息不足")
  | .reportRefinement => False

theorem ofResult_ok {α : Type} {x : Result α} {b : α} : AnswerEnv.ofResult x = .ok b ↔ x = .ok b := by
  cases x <;> simp [AnswerEnv.ofResult]

theorem ofPost_ok {α : Type} {x : PostResult α} {b : α} : AnswerEnv.ofPost x = .ok b ↔ x = .ok b := by
  cases x with
  | ok b => simp [AnswerEnv.ofPost]
  | error e => cases e <;> simp [AnswerEnv.ofPost]

/-- What the post-processing lets through. -/
theorem postprocessConflict_ok {spelling : Spelling} {o out : ConflictAnalysisOutput} {payload : Dict}
    {allowed : Finset String} {valid : Bool} (ho : o.Valid)
    (h : postprocessConflict spelling o payload allowed = .ok (out, valid)) :
    out.Valid ∧ out.Refers allowed ∧ ∃ w ∈ out.warnings, Confirms w := by
  by_cases hrefers : o.Refers allowed
  · have hsound : Sound allowed (postprocessConflict spelling o payload allowed) := sound_of_refers ho hrefers
    rw [h] at hsound
    exact ⟨hsound.1, hsound.2.1, hsound.2.2.1.1⟩
  · rw [postprocessConflict_refused hrefers] at h
    simp only [bind_ok] at h
    obtain ⟨-, -, fallback, hfallback, hchecked⟩ := h
    have hvalid : fallback.Valid := by
      simp only [conflictReferenceFallback, ConflictAnalysisOutput.checked, bind_ok, require_ok, pure_ok] at hfallback
      obtain ⟨items, -, -, -, -, hvalid, rfl⟩ := hfallback
      exact hvalid
    cases hrefs : fallback.validateEvidenceRefs allowed with
    | error e =>
      rw [hrefs] at hchecked
      cases hchecked
    | ok u =>
      rw [hrefs, pure_ok, Prod.mk.injEq] at hchecked
      obtain ⟨rfl, -⟩ := hchecked
      obtain ⟨hrefers, hw⟩ := validateEvidenceRefs_ok.mp hrefs
      exact ⟨hvalid, hrefers, hw⟩

theorem answerConflict_obeys (htype : a.analysisType = .conflictAnalysis)
    (h : (env.answerConflict a images first repair).1 = .ok (d, c)) : a.Obeys env d := by
  unfold AiAnalysis.Obeys
  rw [htype]
  dsimp only
  unfold AnswerEnv.answerConflict at h
  cases hallowed : (do let allowed ← env.allowedEvidence a.inputSnapshot; images; pure allowed :
      Invocation (Finset String)) with
  | error e =>
    rw [hallowed] at h
    cases h
  | ok allowed =>
    rw [hallowed] at h
    obtain ⟨o, -, hchecked⟩ := bind_ok.mp h
    simp only [AnswerEnv.checkedConflict, bind_ok, ofPost_ok, pure_ok, Prod.exists, Prod.mk.injEq] at hchecked
    obtain ⟨out, valid, hout, rfl, rfl⟩ := hchecked
    simp only [bind_ok, pure_ok] at hallowed
    obtain ⟨allowed', hread, -, -, rfl⟩ := hallowed
    obtain ⟨hvalid, hrefers, hw⟩ := postprocessConflict_ok o.property hout
    exact ⟨allowed', out, hread, rfl, hvalid, hrefers, hw⟩

theorem answerBrief_obeys (htype : a.analysisType = .commandBrief)
    (h : (env.answerBrief a first repair).1 = .ok (d, c)) : a.Obeys env d := by
  unfold AiAnalysis.Obeys
  rw [htype]
  dsimp only
  unfold AnswerEnv.answerBrief at h
  cases hallowed : allowedSourceRefs env.str a.context with
  | none =>
    rw [hallowed] at h
    cases h
  | some allowed =>
    rw [hallowed] at h
    obtain ⟨o, -, hchecked⟩ := bind_ok.mp h
    simp only [AnswerEnv.checkedBrief, CommandBriefOutput.validateSourceRefs, validateCommandBriefContract, bind_ok,
      ofResult_ok, require_ok, pure_ok, Prod.mk.injEq] at hchecked
    obtain ⟨-, hrefs, -, ⟨-, ⟨hpii, hphrases⟩, hempty⟩, rfl, -⟩ := hchecked
    refine ⟨allowed, o, rfl, rfl, Finset.sdiff_eq_empty_iff_subset.mp hrefs, hpii, ?_, ?_⟩
    · intro phrase hphrase
      exact Bool.not_eq_true' _ ▸ List.all_eq_true.mp hphrases phrase hphrase
    · exact fun hnone => hempty.resolve_left (not_not_intro hnone)

theorem answer_obeys (h : (env.answer a images first repair).1 = .ok (d, c)) : a.Obeys env d := by
  unfold AnswerEnv.answer at h
  by_cases hconfigured : env.settings.aiConfigured = true
  · rw [if_pos hconfigured] at h
    cases htype : a.analysisType with
    | conflictAnalysis =>
      rw [htype] at h
      exact answerConflict_obeys htype h
    | commandBrief =>
      rw [htype] at h
      exact answerBrief_obeys htype h
    | reportRefinement =>
      rw [htype] at h
      cases h
  · rw [if_neg hconfigured] at h
    cases h

theorem answer_length : (env.answer a images first repair).2.length ≤ 2 := by
  unfold AnswerEnv.answer
  by_cases hconfigured : env.settings.aiConfigured = true
  · rw [if_pos hconfigured]
    cases a.analysisType with
    | conflictAnalysis =>
      change (env.answerConflict a images first repair).2.length ≤ 2
      unfold AnswerEnv.answerConflict
      split
      · exact Nat.zero_le _
      · exact invokeStructured_length
    | commandBrief =>
      change (env.answerBrief a first repair).2.length ≤ 2
      unfold AnswerEnv.answerBrief
      split
      · exact Nat.zero_le _
      · exact invokeStructured_length
    | reportRefinement => exact Nat.zero_le _
  · rw [if_neg hconfigured]
    exact Nat.zero_le _

end Answers
end CrisisMosaic
