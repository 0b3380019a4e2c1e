import CrisisMosaic.JsonEquality
import CrisisMosaic.System
import CrisisMosaic.UploadRecords

/-!
# Report refinements

A resident asks the model to tidy a report text and submits the report with the answer. The
analyses of this kind are kept apart from the others: only `refine_report` writes them, and
nothing runs them again.
-/

namespace CrisisMosaic
open Relational

inductive RiskTag
  | trappedPeople | missingPeople | injuredPeople | severeBleeding | unconsciousPerson
  | breathingDifficulty | elderly | child | pregnantPerson | disabledPerson | risingWater
  | rapidCurrent | deepFlooding | buildingCollapse | landslide | fire | electricHazard | gasLeak
  | roadBlocked | bridgeDamage | medicalShortage | drinkingWaterShortage | foodShortage
  | unsafeShelter | communicationOutage
  deriving DecidableEq

def RiskTag.text : RiskTag → String
  | .trappedPeople => "trapped_people" | .missingPeople => "missing_people"
  | .injuredPeople => "injured_people" | .severeBleeding => "severe_bleeding"
  | .unconsciousPerson => "unconscious_person" | .breathingDifficulty => "breathing_difficulty"
  | .elderly => "elderly" | .child => "child" | .pregnantPerson => "pregnant_person"
  | .disabledPerson => "disabled_person" | .risingWater => "rising_water"
  | .rapidCurrent => "rapid_current" | .deepFlooding => "deep_flooding"
  | .buildingCollapse => "building_collapse" | .landslide => "landslide" | .fire => "fire"
  | .electricHazard => "electric_hazard" | .gasLeak => "gas_leak" | .roadBlocked => "road_blocked"
  | .bridgeDamage => "bridge_damage" | .medicalShortage => "medical_shortage"
  | .drinkingWaterShortage => "drinking_water_shortage" | .foodShortage => "food_shortage"
  | .unsafeShelter => "unsafe_shelter" | .communicationOutage => "communication_outage"

structure ReportRefinementRequest where
  incidentId : Id
  category : Category
  content : String
  locationText : String
  attachmentIds : List Id
  /-- `report_id` and `report_revision` come together. -/
  report : Option (Id × ℕ)
  content_bounds : 1 ≤ content.length ∧ content.length ≤ 300
  location_bounds : 1 ≤ locationText.length ∧ locationText.length ≤ 300
  distinct : attachmentIds.Nodup
  numbered : ∀ r ∈ report, 1 ≤ r.2

structure ReportRefinementOutput where
  refinedContent : String
  riskHint : String
  suggestUrgent : Bool
  detectedRiskTags : List RiskTag
  confidence : ℚ
  refined_bounds : 1 ≤ refinedContent.length ∧ refinedContent.length ≤ 5000
  hint_bound : riskHint.length ≤ 1000
  tags_bound : detectedRiskTags.length ≤ 20
  tags_distinct : detectedRiskTags.Nodup
  confidence_bounds : 0 ≤ confidence ∧ confidence ≤ 1

/-- `model_dump(mode="json")` -/
def ReportRefinementOutput.dump (o : ReportRefinementOutput) : Dict :=
  [("refined_content", .str o.refinedContent), ("risk_hint", .str o.riskHint),
    ("suggest_urgent", .bool o.suggestUrgent),
    ("detected_risk_tags", .arr (o.detectedRiskTags.map fun t => .str t.text)),
    ("confidence", .num o.confidence)]

def MediaType.text : MediaType → String
  | .image => "image" | .video => "video"

/-! ## The request -/

section Context
variable (attachments : Table Attachment) (uploads : Table Upload)

/-- What of an attachment a refinement is bound to. -/
def attachmentEntry (id : Id) : Dict :=
  let a := attachments.get id
  let u := uploads.get id
  [("attachment_id", .ref id), ("media_type", .opt (fun u : Upload => .str u.mediaType.text) u),
    ("sha256", optStr (a.bind (·.sha256))), ("storage_etag", optStr (u.bind (·.etag))),
    ("size_bytes", .opt (fun u : Upload => .nat u.sizeBytes) u)]

/-- `_report_attachment_context`; `details` is what the model is shown of the media. -/
def reportAttachmentContext (details : Id → Dict) (id : Id) : Dict :=
  attachmentEntry attachments uploads id ++ details id

/-- `_report_input_payload` -/
def reportInputPayload (request : ReportRefinementRequest) (attachments : Option (List Dict)) : Dict :=
  [("request_context", .obj
      ([("incident_id", .ref request.incidentId), ("language", .str "zh-CN"),
        ("timezone", .str "Asia/Shanghai")] ++
        match request.report with
        | some (id, revision) => [("report_id", .ref id), ("report_revision", .nat revision)]
        | none => [])),
    ("report", .obj
      [("category", .str request.category.text), ("content", .str request.content),
        ("location_text", .str request.locationText)])] ++
    match attachments with
    | some items => [("attachments", .arr (items.map .obj))]
    | none => []

end Context

/-! ## The answer -/

section Contract
variable (lib : TextLib)

/-- `re.search` of `(?<!\d)1[3-9]\d{9}(?!\d)` at the beginning of a text. -/
def mobileAt (previous : Option Char) (s : List Char) : Bool :=
  !previous.any lib.isDecimal &&
    match s with
    | '1' :: c :: rest => '3' ≤ c && c ≤ '9' && 9 ≤ rest.length && (rest.take 9).all lib.isDecimal &&
        !(rest.drop 9).head?.any lib.isDecimal
    | _ => false

def isAsciiAlnum (c : Char) : Bool :=
  ('A' ≤ c && c ≤ 'Z') || ('a' ≤ c && c ≤ 'z') || ('0' ≤ c && c ≤ '9')

/-- The same of `(?<![A-Za-z0-9])\d{17}[\dXx](?![A-Za-z0-9])`. -/
def nationalIdAt (previous : Option Char) (s : List Char) : Bool :=
  !previous.any isAsciiAlnum && 18 ≤ s.length && (s.take 17).all lib.isDecimal &&
    (s.drop 17).head?.any (fun c => lib.isDecimal c || c = 'X' || c = 'x') &&
      !(s.drop 18).head?.any isAsciiAlnum

def hasPii (s : List Char) : Bool :=
  let rec search (previous : Option Char) : List Char → Bool
    | [] => mobileAt lib previous [] || nationalIdAt lib previous []
    | c :: s => mobileAt lib previous (c :: s) || nationalIdAt lib previous (c :: s) ||
        search (some c) s
  search none s

/-- `term in text` -/
def occursIn (term : String) (s : List Char) : Bool := s.tails.any term.toList.isPrefixOf

def completionPhrases : List String :=
  ["已通知", "已经通知", "已派遣", "已经派遣", "已核实", "已经核实", "已封路", "已经封路", "已救援",
    "已经救援", "已解决", "已经解决", "已完成处置"]

def protectedTerms : List String :=
  ["没有", "未发现", "不能", "尚未", "不是", "可能", "好像", "大约", "听说", "无法确认", "正在", "已经",
    "刚刚", "曾经"]

/-- Where `str.splitlines` ends a line. -/
def isLineBreak (c : Char) : Bool :=
  c.toNat ∈ [0x0a, 0x0b, 0x0c, 0x0d, 0x1c, 0x1d, 0x1e, 0x85, 0x2028, 0x2029]

def strippedLines (s : List Char) : List (List Char) :=
  ((s.splitOnP isLineBreak).map (strip lib)).filter fun line => !line.isEmpty

def factIntegrityFailed (message : String) : ApiError :=
  ⟨502, "AI_OUTPUT_FACT_INTEGRITY_FAILED", message, []⟩

theorem chars_lawful : LawfulBEq (List Char) := inferInstance

attribute [local instance] chars_lawful in
/-- `_validate_report_refinement_contract` -/
def validateReportRefinementContract (request : ReportRefinementRequest)
    (output : ReportRefinementOutput) : Result Unit := do
  let refined := output.refinedContent.toList
  let text := refined ++ '\n' :: output.riskHint.toList
  require (hasPii lib text = false) (factIntegrityFailed "AI 上报整理输出包含敏感明文")
  require (completionPhrases.all fun phrase => !occursIn phrase text)
    (factIntegrityFailed "AI 上报整理输出包含完成态处置表述")
  require ("【位置】".toList ++ strip lib request.locationText.toList ∈ strippedLines lib refined)
    (factIntegrityFailed "AI 上报整理输出未保留确认位置")
  require (protectedTerms.all fun term => !occursIn term request.content.toList || occursIn term refined)
    (factIntegrityFailed "AI 上报整理输出遗漏受保护限定词")

end Contract

/-! ## The use of an answer -/

def RiskTag.immediateDanger : List RiskTag :=
  [.trappedPeople, .missingPeople, .injuredPeople, .severeBleeding, .unconsciousPerson,
    .breathingDifficulty, .risingWater, .rapidCurrent, .deepFlooding, .buildingCollapse, .landslide,
    .fire, .electricHazard, .gasLeak, .bridgeDamage]

def RiskTag.operational : List RiskTag :=
  [.roadBlocked, .medicalShortage, .drinkingWaterShortage, .foodShortage, .unsafeShelter,
    .communicationOutage]

/-- A list of strings, if it is one. -/
def Json.asStrings : Json → Option (List String)
  | .arr items => items.mapM Json.asStr
  | _ => none

/-- `ai_priority_from_refinement` -/
def aiPriorityFromRefinement (analysis : Option AiAnalysis) : Option Priority :=
  (analysis.bind (·.output)).map fun output =>
    match output.get "confidence", (output.get "detected_risk_tags").bind Json.asStrings with
    | some (.num confidence), some raw =>
      let isIn (tags : List RiskTag) (s : String) : Bool := (tags.map RiskTag.text).contains s
      let riskTags := raw.filter (isIn (RiskTag.immediateDanger ++ RiskTag.operational))
      if confidence < 3 / 4 ∨ riskTags = [] then .low
      else if (output.get "suggest_urgent").any Json.isTrue ∧ 17 / 20 ≤ confidence ∧
          riskTags.any (isIn RiskTag.immediateDanger) then .high
      else .medium
    | _, _ => .low

structure RefinementTables where
  attachments : Table Attachment
  uploads : Table Upload
  refinements : Table AiAnalysis

/-- Which report a refinement is used for. -/
structure RefinementUse where
  reportId : Option Id := none
  reportRevision : Option ℕ := none
  boundReportId : Option Id := none
  useStoredReportContext : Bool := false

namespace AiAnalysis

/-- `context_package or input_snapshot` -/
def context (a : AiAnalysis) : Dict :=
  match a.contextPackage with
  | some (entry :: entries) => entry :: entries
  | _ => a.inputSnapshot

def isLegacyTextRefinement (a : AiAnalysis) (attachmentIds : List Id) : Bool :=
  a.promptVersion = "cm-report-refinement-v1.0.0" && a.contextSha256.isNone &&
    a.contextPackage.isNone && attachmentIds.isEmpty && (a.context.get "attachments").isNone &&
      ((a.context.get "request_context").bind Json.asDict).any fun request =>
        (request.get "report_id").isNone && (request.get "report_revision").isNone

end AiAnalysis

section Validation

def refinementInvalid (message : String) : ApiError := unprocessable "AI_REFINEMENT_INVALID" message

/-- The entries of an attachment that are compared; a missing one is null. -/
def comparedEntry (item : Dict) : Dict :=
  ["attachment_id", "media_type", "sha256", "storage_etag", "size_bytes"].map fun key =>
    (key, (item.get key).getD .null)

/-- `load_bindable_attachments` for the caller: attachments are uploaded by devices, and the id of
an account is that of no device. -/
def loadOwnAttachments (attachments : Table Attachment) (incidentId : Id) (actor : Actor)
    (boundReportId : Option Id) (ids : List Id) : Result Unit :=
  match actor.subjectType with
  | .device => loadBindableAttachments attachments incidentId actor.subjectId boundReportId ids
  | .account => loadAttachments attachments (fun _ => false) ids

/-- Ids compare as the strings they stand for. -/
def attachmentKey (item : Dict) : ℕ := ((item.get "attachment_id").bind Json.asRef).elim 0 (· + 1)

def sortedEntries (items : List Dict) : List Dict :=
  items.insertionSort fun a b => attachmentKey a ≤ attachmentKey b

def Json.items : Option Json → List Dict
  | some (.arr items) => items.filterMap Json.asDict
  | _ => []

/-- `validate_report_refinement` for a given analysis. -/
def checkedRefinement (env : Env) (t : RefinementTables) (actor : Actor)
    (analysisId incidentId : Id) (category : Category) (content locationText : String)
    (attachmentIds : List Id) (use : RefinementUse) : Result AiAnalysis := do
  let invalid := refinementInvalid "AI 上报整理结果不存在、未成功或已失效"
  let analysis ← found (t.refinements.get analysisId) invalid
  require (analysis.analysisType = .reportRefinement ∧ analysis.incidentId = incidentId ∧
    analysis.status = .succeeded ∧ analysis.isStale = false) invalid
  require (¬ (actor.isResident = true ∧ analysis.createdById ≠ actor.subjectId))
    (forbidden "AI_REFINEMENT_ACCESS_DENIED" "无权使用其他设备的 AI 建议")
  let context := analysis.context
  require (analysis.isLegacyTextRefinement attachmentIds = true ∨
      analysis.contextSha256 = some (env.canonicalSha256 (.obj context)))
    (refinementInvalid "AI 上报整理上下文完整性校验失败")
  loadOwnAttachments t.attachments incidentId actor (use.boundReportId <|> use.reportId) attachmentIds
  let expected := sortedEntries (attachmentIds.map (attachmentEntry t.attachments t.uploads))
  let actual := sortedEntries ((Json.items (context.get "attachments")).map comparedEntry)
  let report ← found ((context.get "report").bind Json.asDict)
    (refinementInvalid "AI 上报整理上下文结构无效")
  let request ← found ((context.get "request_context").bind Json.asDict)
    (refinementInvalid "AI 上报整理上下文结构无效")
  -- what a report of this identity would have put into the context
  let reportId := if use.useStoredReportContext then (request.get "report_id").filter (·.asRef.isSome)
    else use.reportId.map .ref
  let reportRevision := if use.useStoredReportContext then
      (request.get "report_revision").filter fun v => (Questions.number v).isSome
    else use.reportRevision.map .nat
  let present (v : Option Json) : Option Json := v.filter fun v => decide (v ≠ .null)
  require (report.get "category" = some (.str category.text) ∧
      (report.get "content" = some (.str content) ∨
        (analysis.output.bind fun o : Dict => o.get "refined_content") = some (.str content)) ∧
      report.get "location_text" = some (.str locationText) ∧ actual = expected ∧
      present (request.get "report_id") = reportId ∧
      present (request.get "report_revision") = reportRevision)
    (unprocessable "AI_REFINEMENT_CONTEXT_MISMATCH"
      "AI 上报整理结果与当前正文、位置或附件不一致，请重新分析")
  pure analysis

end Validation
end CrisisMosaic
