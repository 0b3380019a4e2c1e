import CrisisMosaic.AnsweredContracts
import CrisisMosaic.MapView
import CrisisMosaic.ModelImages
import CrisisMosaic.RejectedAttachments

/-!
# What readers are shown of pictures

The worker asks the provider what an image that it has checked shows. The answer is kept in the
vision columns under a prefix; a summary without the prefix is not shown to anybody.
-/

namespace CrisisMosaic
open Relational

/-! ## Media evidence -/

inductive ReadStatus
  | readable | partiallyReadable | unreadable
deriving DecidableEq

def ReadStatus.text : ReadStatus → String
  | .readable => "readable"
  | .partiallyReadable => "partially_readable"
  | .unreadable => "unreadable"

structure MediaObservation where
  frameRef : String
  timeOffsetSeconds : Option {q : ℚ // 0 ≤ q}
  fact : {s : String // 1 ≤ s.length}
  confidence : {q : ℚ // 0 ≤ q ∧ q ≤ 1}

abbrev AtMost (n : ℕ) (α : Type) := {l : List α // l.length ≤ n}

structure MediaEvidenceExtractionOutput where
  evidenceId : {s : String // 1 ≤ s.length}
  readStatus : ReadStatus
  modality : MediaType
  observations : AtMost 50 MediaObservation
  locationClues : AtMost 20 String
  timeClues : AtMost 20 String
  riskSignals : AtMost 20 String
  manipulationSignals : AtMost 20 String
  summary : Bounded 0 2000
  limitations : AtMost 20 String
  confidence : {q : ℚ // 0 ≤ q ∧ q ≤ 1}

/-- `f"{value:.2f}"` of a value that is not negative -/
def fixed2 (q : ℚ) : String :=
  let n := (roundHalfEven (q * 100)).toNat
  toString (n / 100) ++ "." ++ toString (n % 100 / 10) ++ toString (n % 10)

namespace MediaEvidenceExtractionOutput
variable (o : MediaEvidenceExtractionOutput)

/-- `_media_evidence_text` -/
def text : String :=
  "\n".intercalate ([o.evidenceId.val, o.summary.val] ++ o.locationClues.val ++ o.timeClues.val ++ o.riskSignals.val ++
    o.manipulationSignals.val ++ o.limitations.val ++ o.observations.val.map (·.fact.val))

/-- An output about something that could not be read observes nothing. -/
def ObservesNothing : Prop :=
  o.observations.val = [] ∧ o.locationClues.val = [] ∧ o.timeClues.val = [] ∧ o.riskSignals.val = [] ∧
    o.manipulationSignals.val = []

instance : Decidable o.ObservesNothing :=
  inferInstanceAs (Decidable (o.observations.val = [] ∧ o.locationClues.val = [] ∧ o.timeClues.val = [] ∧
    o.riskSignals.val = [] ∧ o.manipulationSignals.val = []))

/-- A heading with the parts that it has, if any. -/
def clues (heading : String) (parts : List String) : List String :=
  if parts = [] then [] else [heading ++ "；".intercalate parts]

def observationLine (item : MediaObservation) : String :=
  "- " ++ item.fact.val ++ "（frame_ref=" ++ item.frameRef ++ ", confidence=" ++ fixed2 item.confidence.val ++ "）"

def sections : List String :=
  ["读取状态：" ++ o.readStatus.text, "媒体类型：" ++ o.modality.text,
    "摘要：" ++ if o.summary.val = "" then "无可审计摘要" else o.summary.val] ++
  (if o.observations.val = [] then [] else
    ["画面观察：\n" ++ "\n".intercalate (o.observations.val.map observationLine)]) ++
  clues "位置线索：" o.locationClues.val ++ clues "时间线索：" o.timeClues.val ++
  clues "风险信号：" o.riskSignals.val ++ clues "可见异常：" o.manipulationSignals.val ++
  clues "局限性：" o.limitations.val ++ ["置信度：" ++ fixed2 o.confidence.val]

end MediaEvidenceExtractionOutput

/-- A text that a field with these bounds accepts. -/
def Bounded.check (low high : ℕ) (s : String) : Option (Bounded low high) :=
  if h : low ≤ s.length ∧ s.length ≤ high then some ⟨s, h⟩ else none

def maxVisionSummary : ℕ := 3000

section Contracts
variable (lib : TextLib) (str : Json → String)

/-- Neither personal data nor a phrase of completion. -/
def Publishable (s : String) : Prop :=
  hasPii lib s.toList = false ∧ ∀ phrase ∈ completionPhrases, occursIn phrase s.toList = false

instance (s : String) : Decidable (Publishable lib s) :=
  inferInstanceAs (Decidable (hasPii lib s.toList = false ∧
    ∀ phrase ∈ completionPhrases, occursIn phrase s.toList = false))

def mediaTextRefused : ApiError := factIntegrityFailed "AI 媒体提取输出包含敏感明文或完成态表述"

/-- `_validate_media_evidence_contract` -/
def validateMediaEvidenceContract (id : Id) (mediaType : MediaType) (o : MediaEvidenceExtractionOutput) :
    Result Unit := do
  require (o.evidenceId.val = str (.ref id))
    ⟨502, "AI_OUTPUT_REFERENCE_INVALID", "AI 媒体提取输出引用了错误的证据 ID", []⟩
  require (o.modality = mediaType) (factIntegrityFailed "AI 媒体提取输出改变了媒体类型")
  require (o.readStatus = .unreadable → o.ObservesNothing)
    (factIntegrityFailed "AI 媒体提取输出在 unreadable 状态下仍给出观察结论")
  require (Publishable lib o.text) mediaTextRefused

/-- `_media_evidence_to_attachment_output`: the field accepts what is made for it. -/
def mediaEvidenceToAttachmentOutput (o : MediaEvidenceExtractionOutput) : Invocation (Bounded 1 maxVisionSummary) :=
  found (Bounded.check 1 maxVisionSummary (noTextVisionPrefix ++
    truncateText ("\n".intercalate o.sections) (maxVisionSummary - noTextVisionPrefix.length))) .raised

/-- `_validate_attachment_enrichment_contract` -/
def validateAttachmentEnrichmentContract (output : Bounded 1 maxVisionSummary) : Result Unit :=
  require (Publishable lib output.val) mediaTextRefused

end Contracts

/-! ## Enrichment -/

structure VisionEnv extends Env where
  media : MediaSettings
  evidenceModel : OutputModel MediaEvidenceExtractionOutput

def fakeSummary : String := "测试图片已安全解码，未配置真实视觉内容。"

/-- The name of the class of an exception; `other` is that of one which is no error of the service. -/
def InvocationError.className (other : String) : InvocationError → String
  | .api _ => "ApiError"
  | .raised => other

/-- The bytes of an image, or where they are kept; the file there may not be readable. -/
inductive ImageSource
  | bytes
  | file (sanitizedPath : String) (readable : Bool)

namespace VisionEnv
variable (env : VisionEnv)

/-- The summary that is made of the provider's answer. -/
def mediaSummary (id : Id) (mediaType : MediaType) (first repair : ProviderReply) : Invocation String := do
  let o ← (invokeStructured env.evidenceModel env.str env.text ∅ first repair).1
  AnswerEnv.ofResult (validateMediaEvidenceContract env.text env.str id mediaType o)
  let output ← mediaEvidenceToAttachmentOutput o
  AnswerEnv.ofResult (validateAttachmentEnrichmentContract env.text output)
  pure output.val

/-- `enrich_attachment`: what the vision columns are left with, and what is raised. -/
def enrichAttachment (id : Id) (mediaType : MediaType) (summary : Option String) (image : ImageSource)
    (first repair : ProviderReply) : Enrichment × Option InvocationError :=
  if env.settings.aiConfigured = false then (⟨"unavailable", summary⟩, none)
  else if env.settings.aiProvider = "fake" then (⟨"succeeded", some (noTextVisionPrefix ++ fakeSummary)⟩, none)
  else
    match image with
    | .file "" _ => (⟨"failed", summary⟩, none)
    | .file _ false => (⟨"failed", summary⟩, some .raised)
    | _ =>
      match env.mediaSummary id mediaType first repair with
      | .error e => (⟨"failed", summary⟩, some e)
      | .ok shown => (⟨"succeeded", some shown⟩, none)

/-- What the processing makes of it: a failure never rejects safe evidence. -/
def enriched (other : String) : Enrichment × Option InvocationError → Enrichment
  | (e, none) => e
  | (_, some error) => ⟨"failed", some ("AI enrichment unavailable: " ++ error.className other)⟩

end VisionEnv

/-! ## The worker -/

def Sanitized.enriched (e : Enrichment) : Sanitized → Sanitized
  | .image i => .image { i with enrichment := e }
  | x => x

def QuarantinedFile.enriched (e : Enrichment) : QuarantinedFile → QuarantinedFile
  | .read sha256 sanitized => .read sha256 (sanitized.enriched e)
  | file => file

def RemoteObject.enriched (e : Enrichment) (o : RemoteObject) : RemoteObject := { o with enrichment := e }

/-- Where the sanitized image is kept. -/
def QuarantinedFile.sanitizedPath : QuarantinedFile → String
  | .read _ (.image i) => i.path
  | _ => ""

/-- The provider is asked about a picture while it is processed; all else happens as before. -/
inductive VisionTurn
  | turn (x : UploadStep)
  | execute (file : QuarantinedFile) (remote : RemoteObject) (readable : Bool) (other : String)
      (first repair : ProviderReply)

section Turns
variable (env : VisionEnv) (s : UploadState)

/-- What the provider's answers leave in the vision columns of the attachment that is processed. -/
def taskEnrichment (task : MediaTask) (m : Media) (file : QuarantinedFile) (readable : Bool) (other : String)
    (first repair : ProviderReply) : Enrichment :=
  match task with
  | .attachmentProcess => VisionEnv.enriched other (env.enrichAttachment m.id m.upload.mediaType
      m.attachment.visionSummary (.file file.sanitizedPath readable) first repair)
  | .mediaProcess => VisionEnv.enriched other (env.enrichAttachment m.id m.upload.mediaType none .bytes first repair)

def VisionTurn.base : VisionTurn → UploadStep
  | .turn (.execute _ _) => .tick 0
  | .turn x => x
  | .execute file remote readable other first repair =>
    match s.worker with
    | .executing _ task m =>
      let e := taskEnrichment env task m file readable other first repair
      .execute (file.enriched e) (remote.enriched e)
    | _ => .tick 0

def visionStep (x : VisionTurn) : UploadState := uploadStep env.media env.text s (x.base env s)

end Turns

def visionRun (env : VisionEnv) (now : Time) (steps : List VisionTurn) : UploadState :=
  run (visionStep env) (.initial now) steps

end CrisisMosaic
