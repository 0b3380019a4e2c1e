import CrisisMosaic.Reachable
import CrisisMosaic.RefinedReports

/-!
# Submitting a report with a granted refinement

The refinement endpoint takes the texts as they are sent, the report schema strips and bounds
them, and the submission compares them exactly.
-/

namespace CrisisMosaic
open Relational

/-! ## The schema of a new report -/

/-- Pydantic's `str_strip_whitespace` and the bound on accuracies. -/
structure SchemaLib where
  isWhite : Char → Bool
  maxLocationAccuracyM : ℚ

structure RawLocation where
  text : String
  latitude : Option ℚ
  longitude : Option ℚ
  accuracyM : Option ℚ
  source : String
  provider : Option String
  coordinateSystem : Option CoordinateSystem
  observedAt : Option Time

structure RawReportCreate where
  category : Category
  contentOriginal : String
  contentDisplay : Option String
  location : RawLocation
  isUrgent : Bool
  aiRefinementId : Option Id
  attachmentIds : List Id

section Schema
variable (lib : SchemaLib)

def SchemaLib.trim (s : String) : String :=
  String.ofList ((s.toList.dropWhile lib.isWhite).reverse.dropWhile lib.isWhite).reverse

/-- A string field with `min_length=1`. -/
def SchemaLib.bounded (limit : ℕ) (s : String) : Option String :=
  let t := lib.trim s
  if 1 ≤ t.length ∧ t.length ≤ limit then some t else none

def SchemaLib.optional (limit : ℕ) : Option String → Option (Option String)
  | none => some none
  | some s => (lib.bounded limit s).map some

namespace RawLocation

/-- The checks of `ReportLocation` that are not about its text. -/
def isValid (l : RawLocation) : Prop :=
  l.latitude.isSome = l.longitude.isSome ∧ (l.latitude.isSome → l.coordinateSystem.isSome) ∧
    (l.source = "gps" → l.accuracyM.isSome) ∧
    ∀ a ∈ l.accuracyM, 0 < a ∧ a ≤ lib.maxLocationAccuracyM

instance (l : RawLocation) : Decidable (l.isValid lib) :=
  inferInstanceAs (Decidable (_ ∧ _ ∧ _ ∧ _))

def parse (l : RawLocation) : Option ReportLocation := do
  let text ← lib.bounded 300 l.text
  if h : l.isValid lib then
    some ⟨text, l.latitude, l.longitude, l.accuracyM, l.source, l.provider, l.coordinateSystem,
      l.observedAt, h.1, h.2.1⟩
  else none

end RawLocation

namespace RawReportCreate

def parse (raw : RawReportCreate) : Option ReportCreate := do
  let content ← lib.bounded 300 raw.contentOriginal
  let display ← lib.optional 300 raw.contentDisplay
  let location ← raw.location.parse lib
  if h : raw.attachmentIds.Nodup then
    some ⟨raw.category, content, display, location, raw.isUrgent, raw.aiRefinementId,
      raw.attachmentIds, h⟩
  else none

/-- The fields beside the content, the location text and the attachments are acceptable. -/
def RestValid (raw : RawReportCreate) : Prop :=
  raw.location.isValid lib ∧ ∀ display ∈ raw.contentDisplay, (lib.bounded 300 display).isSome

theorem bounded_eq_some {limit : ℕ} {s t : String} (h : lib.bounded limit s = some t) :
    t = lib.trim s ∧ 1 ≤ t.length ∧ t.length ≤ limit := by
  unfold SchemaLib.bounded at h
  dsimp only at h
  split_ifs at h with hbounds
  obtain rfl := Option.some.inj h
  exact ⟨rfl, hbounds⟩

theorem bounded_of {limit : ℕ} {s : String}
    (h : 1 ≤ (lib.trim s).length ∧ (lib.trim s).length ≤ limit) :
    lib.bounded limit s = some (lib.trim s) := by
  unfold SchemaLib.bounded
  dsimp only
  rw [if_pos h]

theorem parse_eq_some {raw : RawReportCreate} {p : ReportCreate} (h : raw.parse lib = some p) :
    p.category = raw.category ∧ p.contentOriginal = lib.trim raw.contentOriginal ∧
      p.location.text = lib.trim raw.location.text ∧ p.aiRefinementId = raw.aiRefinementId ∧
      p.attachmentIds = raw.attachmentIds ∧
      (1 ≤ p.contentOriginal.length ∧ p.contentOriginal.length ≤ 300) := by
  simp only [parse, RawLocation.parse, Option.bind_eq_bind, Option.bind_eq_some_iff] at h
  obtain ⟨content, hcontent, display, -, location, ⟨text, htext, hlocation⟩, h⟩ := h
  split_ifs at hlocation h
  obtain rfl := Option.some.inj hlocation
  obtain rfl := Option.some.inj h
  obtain ⟨rfl, hbounds⟩ := bounded_eq_some lib hcontent
  exact ⟨rfl, rfl, (bounded_eq_some lib htext).1, rfl, rfl, hbounds⟩

theorem parse_isSome {raw : RawReportCreate} (hrest : raw.RestValid lib)
    (hdistinct : raw.attachmentIds.Nodup)
    (hcontent : 1 ≤ (lib.trim raw.contentOriginal).length ∧
      (lib.trim raw.contentOriginal).length ≤ 300)
    (htext : 1 ≤ (lib.trim raw.location.text).length ∧ (lib.trim raw.location.text).length ≤ 300) :
    ∃ p, raw.parse lib = some p := by
  obtain ⟨hlocation, hdisplay⟩ := hrest
  have hoptional : ∃ display, lib.optional 300 raw.contentDisplay = some display := by
    cases hd : raw.contentDisplay with
    | none => exact ⟨none, rfl⟩
    | some s =>
      obtain ⟨d, hbounded⟩ := Option.isSome_iff_exists.mp (hdisplay s hd)
      exact ⟨some d, by rw [SchemaLib.optional, hbounded]; rfl⟩
  obtain ⟨display, hoptional⟩ := hoptional
  simp only [parse, RawLocation.parse, bounded_of lib hcontent, bounded_of lib htext, dif_pos hlocation,
    dif_pos hdistinct, hoptional, Option.bind_eq_bind, Option.bind_some]
  exact ⟨_, rfl⟩

end RawReportCreate
end Schema

/-! ## The comparison -/

theorem attachmentKey_entry (attachments : Table Attachment) (uploads : Table Upload) (id : Id) :
    attachmentKey (attachmentEntry attachments uploads id) = id + 1 := rfl

/-- The details of the media are not compared. -/
theorem comparedEntry_context (attachments : Table Attachment) (uploads : Table Upload)
    (details : Id → Dict) (id : Id) :
    comparedEntry (reportAttachmentContext attachments uploads details id) =
      attachmentEntry attachments uploads id := rfl

theorem sortedEntries_attachments (attachments : Table Attachment) (uploads : Table Upload)
    (ids : List Id) :
    sortedEntries (ids.map (attachmentEntry attachments uploads)) =
      (ids.insertionSort (· ≤ ·)).map (attachmentEntry attachments uploads) := by
  symm
  apply List.map_insertionSort
  intro i _ j _
  rw [attachmentKey_entry, attachmentKey_entry]
  exact Nat.succ_le_succ_iff.symm

/-- Two orders of the same attachments are one when sorted. -/
theorem sortedEntries_perm {attachments attachments' : Table Attachment} {uploads uploads' : Table Upload}
    {ids ids' : List Id} (hperm : ids'.Perm ids)
    (hsame : ∀ i ∈ ids, attachments'.get i = attachments.get i ∧ uploads'.get i = uploads.get i) :
    sortedEntries (ids'.map (attachmentEntry attachments' uploads')) =
      sortedEntries (ids.map (attachmentEntry attachments uploads)) := by
  rw [sortedEntries_attachments, sortedEntries_attachments]
  have hsorted : ids'.insertionSort (· ≤ ·) = ids.insertionSort (· ≤ ·) := by
    apply List.Perm.eq_of_pairwise' (List.pairwise_insertionSort _ _) (List.pairwise_insertionSort _ _)
    exact ((List.perm_insertionSort _ _).trans hperm).trans (List.perm_insertionSort _ _).symm
  rw [hsorted]
  apply List.map_congr_left
  intro i hi
  obtain ⟨ha, hu⟩ := hsame i ((List.mem_insertionSort _).mp hi)
  rw [attachmentEntry, attachmentEntry, ha, hu]

/-! ## The agreement -/

section Granted
variable {env : RefinementEnv} {s t : RefinedState} {now later : Time} {actor : Actor}
  {header : Option Ref} {request : ReportRefinementRequest} {details : Id → Dict}
  {output : ReportRefinementOutput} {a : AiAnalysis} {id : Id}

theorem loadAttachments_iff {attachments : Table Attachment} {usable : Attachment → Bool}
    {ids : List Id} : loadAttachments attachments usable ids = .ok () ↔
      ∀ i ∈ ids, (attachments.get i).any usable = true := by
  simp only [loadAttachments, bind_ok, require_ok, List.all_eq_true]
  constructor
  · rintro ⟨-, -, h⟩
    exact h
  · intro h
    refine ⟨(), fun i hi => ?_, h⟩
    have hany := h i hi
    cases hget : attachments.get i with
    | none =>
      rw [hget] at hany
      cases hany
    | some a => rfl

/-- What the caller may use is a property of each attachment. -/
def ownAttachment (incidentId : Id) (actor : Actor) (boundReportId : Option Id) (a : Attachment) : Bool :=
  match actor.subjectType with
  | .device => a.isUsableBy incidentId actor.subjectId &&
      (a.reportId.isNone || a.reportId = boundReportId) && a.directedAnswerId.isNone
  | .account => false

theorem loadOwnAttachments_iff {attachments : Table Attachment} {incidentId : Id} {actor : Actor}
    {bound : Option Id} {ids : List Id} :
    loadOwnAttachments attachments incidentId actor bound ids = .ok () ↔
      ∀ i ∈ ids, (attachments.get i).any (ownAttachment incidentId actor bound) = true := by
  unfold loadOwnAttachments ownAttachment
  cases actor.subjectType <;> exact loadAttachments_iff

def grantedReport (request : ReportRefinementRequest) : Dict :=
  [("category", .str request.category.text), ("content", .str request.content),
    ("location_text", .str request.locationText)]

def grantedContext (request : ReportRefinementRequest) : Dict :=
  [("incident_id", .ref request.incidentId), ("language", .str "zh-CN"),
    ("timezone", .str "Asia/Shanghai")]

/-- What a grant puts into the context. -/
structure Grants (env : RefinementEnv) (now : Time) (s : RefinedState) (actor : Actor)
    (request : ReportRefinementRequest) (a : AiAnalysis) (payload : Dict) : Prop where
  row : a = runningRefinement env now actor request payload
  context_report : payload.get "report" = some (.obj (grantedReport request))
  context_request : payload.get "request_context" = some (.obj (grantedContext request))
  context_attachments : (Json.items (payload.get "attachments")).map comparedEntry =
    request.attachmentIds.map (attachmentEntry s.db.attachments s.uploads)
  usable : loadOwnAttachments s.db.attachments request.incidentId actor none
    request.attachmentIds = .ok ()
  nonempty : ∃ entry entries, payload = entry :: entries

theorem reportInputPayload_report (request : ReportRefinementRequest) (items : Option (List Dict)) :
    (reportInputPayload request items).get "report" = some (.obj (grantedReport request)) := rfl

theorem reportInputPayload_request (hnew : request.report = none) (items : Option (List Dict)) :
    (reportInputPayload request items).get "request_context" =
      some (.obj (grantedContext request)) := by
  unfold reportInputPayload
  rw [hnew]
  rfl

theorem reportInputPayload_attachments (request : ReportRefinementRequest) (items : List Dict) :
    Json.items ((reportInputPayload request (some items)).get "attachments") = items := by
  show (items.map Json.obj).filterMap Json.asDict = items
  rw [List.filterMap_map]
  exact List.filterMap_some

theorem requestRefinement_grants
    (h : requestRefinement env now s actor header request details = .ok a)
    (hnew : request.report = none) : ∃ payload, Grants env now s actor request a payload := by
  simp only [requestRefinement, bind_ok, require_ok, pure_ok, buildReportRefinementContext, boundReport,
    hnew] at h
  obtain ⟨-, -, -, -, -, -, -, -, -, -, payload, ⟨bound, rfl, hpayload⟩, rfl⟩ := h
  by_cases hids : request.attachmentIds = []
  · rw [if_pos hids] at hpayload
    obtain rfl := pure_ok.mp hpayload
    refine ⟨_, rfl, reportInputPayload_report _ _, reportInputPayload_request hnew _, ?_, ?_, ⟨_, _, rfl⟩⟩
    · rw [hids]
      rfl
    · exact loadOwnAttachments_iff.mpr (by rw [hids]; simp)
  · rw [if_neg hids] at hpayload
    obtain ⟨_, hload, hpayload⟩ := bind_ok.mp hpayload
    obtain rfl := pure_ok.mp hpayload
    refine ⟨_, rfl, reportInputPayload_report _ _, reportInputPayload_request hnew _, ?_, hload,
      ⟨_, _, rfl⟩⟩
    rw [reportInputPayload_attachments, List.map_map]
    rfl

/-- A new report passes the validation exactly when its texts are the granted ones. -/
theorem checkedRefinement_granted_iff {payload : Dict} (hg : Grants env now s actor request a payload)
    (hrow : t.refinements.get id = some (succeededRefinement later output a))
    (hsame : ∀ i ∈ request.attachmentIds, t.db.attachments.get i = s.db.attachments.get i ∧
      t.uploads.get i = s.uploads.get i)
    {ids : List Id} (hperm : ids.Perm request.attachmentIds) (content locationText : String) :
    (∃ b, checkedRefinement env.toEnv t.tables actor id request.incidentId request.category content
        locationText ids {} = .ok b) ↔
      (content = request.content ∨ content = output.refinedContent) ∧
        locationText = request.locationText := by
  obtain ⟨entry, entries, hentries⟩ := hg.nonempty
  have hcontext : (succeededRefinement later output a).context = payload := by
    rw [hg.row, hentries]
    rfl
  have hload : loadOwnAttachments t.db.attachments request.incidentId actor
      (RefinementUse.boundReportId {} <|> RefinementUse.reportId {}) ids = .ok () := by
    apply loadOwnAttachments_iff.mpr
    intro i hi
    rw [(hsame i (hperm.mem_iff.mp hi)).1]
    exact loadOwnAttachments_iff.mp hg.usable i (hperm.mem_iff.mp hi)
  have hentry : sortedEntries (ids.map (attachmentEntry t.db.attachments t.uploads)) =
      sortedEntries ((Json.items (payload.get "attachments")).map comparedEntry) := by
    rw [hg.context_attachments]
    exact sortedEntries_perm hperm hsame
  have hoffered : ∀ c d : String, some (Json.str c) = some (.str d) ↔ d = c := by
    intro c d
    rw [Option.some_inj, Json.str.injEq, eq_comm]
  simp only [checkedRefinement, bind_ok, found_ok, require_ok, pure_ok]
  constructor
  · rintro ⟨_, row, hget, -, -, -, -, -, -, -, -, report, hreport, request', -, -, hmatch, -⟩
    obtain rfl := Option.some.inj (hrow.symm.trans hget)
    rw [hcontext, hg.context_report] at hreport
    obtain rfl := Option.some.inj hreport
    obtain ⟨-, hcontent, hlocation, -⟩ := hmatch
    exact ⟨hcontent.imp (hoffered _ _).mp (hoffered _ _).mp, (hoffered _ _).mp hlocation⟩
  · rintro ⟨hcontent, rfl⟩
    refine ⟨_, _, hrow, (), ?_, (), ?_, (), Or.inr ?_, (), hload, grantedReport request, ?_,
      grantedContext request, ?_, (), ?_, rfl⟩
    · rw [hg.row]
      exact ⟨rfl, rfl, rfl, rfl⟩
    · rw [hg.row]
      exact fun hne => hne.2 rfl
    · rw [hcontext, hg.row]
      rfl
    · rw [hcontext, hg.context_report]
      rfl
    · rw [hcontext, hg.context_request]
      rfl
    · rw [hcontext]
      refine ⟨rfl, hcontent.imp (hoffered _ _).mpr (hoffered _ _).mpr, rfl, hentry.symm, rfl, rfl⟩

variable (env t actor request id) in
/-- The report passes the schema and the validation of its refinement. -/
def Accepts (lib : SchemaLib) (raw : RawReportCreate) : Prop :=
  ∃ p b, raw.parse lib = some p ∧ checkedRefinement env.toEnv t.tables actor id request.incidentId
    p.category p.contentOriginal p.location.text p.attachmentIds {} = .ok b

/-- A new report about what the refinement was asked for, with one of its two texts. -/
structure RawReportCreate.Submits (raw : RawReportCreate) (request : ReportRefinementRequest)
    (output : ReportRefinementOutput) (id : Id) : Prop where
  category : raw.category = request.category
  location : raw.location.text = request.locationText
  attachments : raw.attachmentIds.Perm request.attachmentIds
  refinement : raw.aiRefinementId = some id
  content : raw.contentOriginal = request.content ∨ raw.contentOriginal = output.refinedContent

variable (request output) in
/-- Stripped, the location is the same, and each of the two texts is one of them and short enough. -/
def SurvivesSchema (lib : SchemaLib) : Prop :=
  lib.trim request.locationText = request.locationText ∧
    ∀ c, c = request.content ∨ c = output.refinedContent →
      (lib.trim c = request.content ∨ lib.trim c = output.refinedContent) ∧ (lib.trim c).length ≤ 300

/-- A submission as plain as can be. -/
def plainReport (request : ReportRefinementRequest) (id : Id) (content : String) : RawReportCreate :=
  { category := request.category
    contentOriginal := content
    contentDisplay := none
    location := ⟨request.locationText, none, none, none, "manual", none, none, none⟩
    isUrgent := false
    aiRefinementId := some id
    attachmentIds := request.attachmentIds }

theorem plainReport_restValid (lib : SchemaLib) (content : String) :
    (plainReport request id content).RestValid lib :=
  ⟨⟨rfl, nofun, by simp [plainReport], nofun⟩, nofun⟩

/-- Every report submitted with a granted refinement is accepted exactly when the granted texts
survive the schema of a report. -/
theorem granted_refinement_is_accepted_iff (lib : SchemaLib)
    (hgrant : requestRefinement env now s actor header request details = .ok a)
    (hnew : request.report = none)
    (hrow : t.refinements.get id = some (succeededRefinement later output a))
    (hsame : ∀ i ∈ request.attachmentIds, t.db.attachments.get i = s.db.attachments.get i ∧
      t.uploads.get i = s.uploads.get i) :
    (∀ raw : RawReportCreate, raw.RestValid lib → raw.Submits request output id →
      Accepts env t actor request id lib raw) ↔ SurvivesSchema request output lib := by
  obtain ⟨payload, hg⟩ := requestRefinement_grants hgrant hnew
  have hchecked {ids : List Id} (hperm : ids.Perm request.attachmentIds) (content text : String) :=
    checkedRefinement_granted_iff hg hrow hsame hperm content text
  have hloc := request.location_bounds
  constructor
  · intro h
    have hplain : ∀ c, c = request.content ∨ c = output.refinedContent →
        (lib.trim c = request.content ∨ lib.trim c = output.refinedContent) ∧
          lib.trim request.locationText = request.locationText ∧ (lib.trim c).length ≤ 300 := by
      intro c hc
      obtain ⟨p, b, hp, hb⟩ := h (plainReport request id c) (plainReport_restValid lib c)
        ⟨rfl, rfl, .refl _, rfl, hc⟩
      obtain ⟨hcategory, hcontent, htext, -, hids, -, hlength⟩ := RawReportCreate.parse_eq_some lib hp
      rw [hcategory, hids] at hb
      obtain ⟨hmatch, hlocation⟩ := (hchecked (.refl _) _ _).mp ⟨b, hb⟩
      rw [hcontent] at hmatch hlength
      rw [htext] at hlocation
      exact ⟨hmatch, hlocation, hlength⟩
    exact ⟨(hplain _ (Or.inl rfl)).2.1, fun c hc => ⟨(hplain c hc).1, (hplain c hc).2.2⟩⟩
  · rintro ⟨hlocation, htexts⟩ raw hrest hsubmits
    obtain ⟨htrim, hlength⟩ := htexts raw.contentOriginal hsubmits.content
    have hcontent : 1 ≤ (lib.trim raw.contentOriginal).length ∧
        (lib.trim raw.contentOriginal).length ≤ 300 := by
      refine ⟨?_, hlength⟩
      rcases htrim with heq | heq <;> rw [heq]
      · exact request.content_bounds.1
      · exact output.refined_bounds.1
    have htext : lib.trim raw.location.text = request.locationText := by
      rw [hsubmits.location, hlocation]
    obtain ⟨p, hp⟩ := RawReportCreate.parse_isSome lib hrest
      (hsubmits.attachments.nodup_iff.mpr request.distinct) hcontent (by rw [htext]; exact hloc)
    obtain ⟨hcategory, hcontent', htext', -, hids, -⟩ := RawReportCreate.parse_eq_some lib hp
    have hperm : p.attachmentIds.Perm request.attachmentIds := hids ▸ hsubmits.attachments
    obtain ⟨b, hb⟩ := (hchecked hperm p.contentOriginal p.location.text).mpr (by
      rw [hcontent', htext', htext]
      exact ⟨htrim, rfl⟩)
    rw [← hsubmits.category, ← hcategory] at hb
    exact ⟨p, b, hp, hb⟩

end Granted

namespace Sample

def refinementEnv : RefinementEnv := { env with mediaMaxAttachmentCount := 9, aiReportModel := "fake" }

def schema : SchemaLib := ⟨fun c => c = ' ' || c = '\n', 5000⟩

def refinementRequest (content : String) (h : 1 ≤ content.length ∧ content.length ≤ 300) :
    ReportRefinementRequest :=
  { incidentId := 0
    category := .water
    content := content
    locationText := "b"
    attachmentIds := []
    report := none
    content_bounds := h
    location_bounds := by decide
    distinct := List.nodup_nil
    numbered := nofun }

def refinedText : ReportRefinementOutput :=
  { refinedContent := "a\n【位置】b"
    riskHint := ""
    suggestUrgent := false
    detectedRiskTags := []
    confidence := 1 / 2
    refined_bounds := by decide
    hint_bound := by decide
    tags_bound := by decide
    tags_distinct := List.nodup_nil
    confidence_bounds := by norm_num }

def unrefined : RefinedState := .initial (.initial ⟨[incident]⟩ .empty .empty) .empty

/-- The refinement is granted. -/
def refined (request : ReportRefinementRequest) : RefinedState :=
  refinedRun refinementEnv unrefined
    [.refine 0 resident none request fun _ => [], .answer 1 0 (.ok refinedText)]

end Sample

theorem stripped_text_is_accepted :
    Accepts Sample.refinementEnv (Sample.refined (Sample.refinementRequest "a" (by decide)))
      Sample.resident (Sample.refinementRequest "a" (by decide)) 0 Sample.schema
      (plainReport (Sample.refinementRequest "a" (by decide)) 0 "a") := by
  apply (@granted_refinement_is_accepted_iff Sample.refinementEnv Sample.unrefined _ 0 1 _ none _
    (fun _ => []) Sample.refinedText _ _ Sample.schema rfl rfl rfl fun _ h =>
      absurd h List.not_mem_nil).mpr
  · refine ⟨by decide +kernel, ?_⟩
    rintro c (rfl | rfl)
    · decide +kernel
    · decide +kernel
  · exact plainReport_restValid _ _
  · exact ⟨rfl, rfl, .refl _, rfl, Or.inl rfl⟩

/-- A refinement of a text that ends in a space is refused with that text. -/
theorem unstripped_text_is_refused :
    ¬ Accepts Sample.refinementEnv (Sample.refined (Sample.refinementRequest "a " (by decide)))
      Sample.resident (Sample.refinementRequest "a " (by decide)) 0 Sample.schema
      (plainReport (Sample.refinementRequest "a " (by decide)) 0 "a ") := by
  rintro ⟨p, b, hp, hb⟩
  obtain ⟨hcategory, hcontent, -, -, hids, -⟩ := RawReportCreate.parse_eq_some _ hp
  rw [hcategory, hids, hcontent] at hb
  obtain ⟨payload, hg⟩ := @requestRefinement_grants Sample.refinementEnv Sample.unrefined 0
    Sample.resident none (Sample.refinementRequest "a " (by decide)) (fun _ => []) _ rfl rfl
  obtain ⟨hmatch, -⟩ := (@checkedRefinement_granted_iff _ _ _ _ 1 _ _ Sample.refinedText _ _ _ hg rfl
    (fun _ h => absurd h List.not_mem_nil) _ (.refl _) _ _).mp ⟨b, hb⟩
  revert hmatch
  decide +kernel

end CrisisMosaic
