import CrisisMosaic.Records

/-!
# Access checks

Incidents are named by identifier or alias. The report routes accept either in
the incident header; the other routes want the identifier itself.
-/

namespace CrisisMosaic
open Relational

/-- A path or header value: an identifier, or any other text. -/
inductive Ref
  | id (i : Id)
  | name (s : String)
  deriving DecidableEq

def getIncident (incidents : Table Incident) : Ref → Result (Id × Incident)
  | .id i => found ((incidents.get i).map fun x => (i, x)) (notFound "incident")
  | .name s => found (incidents.find fun x => x.aliasName = some s) (notFound "incident")

def incidentContextMismatch (message : String) : ApiError :=
  forbidden "INCIDENT_CONTEXT_MISMATCH" message

/-- `assert_incident_access` of the report routes. -/
def assertIncidentAccess (actor : Actor) (id : Id) (incident : Incident) (header : Option Ref) :
    Result Unit := do
  require (header.all fun r => r = .id id || incident.aliasName.any fun s => r = .name s)
    (incidentContextMismatch "X-Incident-Id does not match the requested incident")
  require (id ∈ actor.incidentIds) (forbidden "INCIDENT_ACCESS_DENIED" "incident access denied")

def Ref.isIn (ids : List Id) : Ref → Bool
  | .id i => ids.contains i
  | .name _ => false

/-- `ensure_incident_access` of all other routes. -/
def ensureIncidentAccess (actor : Actor) (incidentId : Ref) (header : Option Ref) :
    Result Unit := do
  require (header.all (· = incidentId)) (incidentContextMismatch "X-Incident-Id 与路径事件不一致")
  require (incidentId.isIn actor.incidentIds) (forbidden "INCIDENT_ACCESS_DENIED" "无权访问该事件")

def requireOperator (actor : Actor) : Result Unit :=
  require actor.isOperator (forbidden "FORBIDDEN" "当前角色无权执行此操作")

section Attachments

def attachmentNotReady (message : String) : ApiError := unprocessable "ATTACHMENT_NOT_READY" message

/-- The checks shared by both owners of an attachment. -/
def Attachment.isUsableBy (incidentId deviceId : Id) (a : Attachment) : Bool :=
  a.incidentId = incidentId && a.uploaderDeviceId = deviceId && a.isReady

def loadAttachments (attachments : Table Attachment) (usable : Attachment → Bool)
    (ids : List Id) : Result Unit := do
  require (ids.all fun i => (attachments.get i).isSome)
    (attachmentNotReady "one or more attachments do not exist")
  require (ids.all fun i => (attachments.get i).any usable)
    (attachmentNotReady "attachment is not ready or is owned by another device")

def loadBindableAttachments (attachments : Table Attachment) (incidentId deviceId : Id)
    (boundReportId : Option Id) (ids : List Id) : Result Unit :=
  loadAttachments attachments (fun a => a.isUsableBy incidentId deviceId &&
    (a.reportId.isNone || a.reportId = boundReportId) && a.directedAnswerId.isNone) ids

def bindAttachments (attachments : Table Attachment) (reportId : Id) (report : Report)
    (ids : List Id) : Result (Table Attachment × Report) := do
  loadBindableAttachments attachments report.incidentId report.reporterDeviceId none ids
  pure (ids.foldl (fun t i => t.modify i fun a => { a with reportId := some reportId }) attachments,
    { report with attachmentCount := ids.length })

def replaceAttachments (attachments : Table Attachment) (reportId : Id) (report : Report)
    (ids : List Id) : Result (Table Attachment × Report) :=
  bindAttachments (attachments.sweep fun a =>
    if a.reportId = some reportId && a.incidentId = report.incidentId then { a with reportId := none }
    else a) reportId report ids

def replaceAnswerAttachments (attachments : Table Attachment) (answerId incidentId deviceId : Id)
    (ids : List Id) : Result (Table Attachment) := do
  loadAttachments attachments (fun a => a.isUsableBy incidentId deviceId && a.reportId.isNone &&
    (a.directedAnswerId.isNone || a.directedAnswerId = some answerId)) ids
  let released := attachments.sweep fun a =>
    if a.directedAnswerId = some answerId then { a with directedAnswerId := none } else a
  pure (ids.foldl (fun t i => t.modify i fun a => { a with directedAnswerId := some answerId })
    released)

def oldestFirst {α : Type} (t : Table α) (created : α → Time) (ids : List Id) : List Id :=
  ids.insertionSort fun i j => (t.get i).elim 0 created ≤ (t.get j).elim 0 created

def attachmentsByReport (attachments : Table Attachment) (reportId : Id) : List Id :=
  oldestFirst attachments (·.createdAt) (attachments.select fun a => a.reportId = some reportId)

end Attachments
end CrisisMosaic
