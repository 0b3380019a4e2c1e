import CrisisMosaic.PushDevices
import CrisisMosaic.Sessions

/-!
# Notifications to operators

A request that changes a report leaves a notification for every operator of the incident who wants
it, and the worker hands those that wait to the push provider. Operators say what they want and report
what became of a notification.
-/

namespace CrisisMosaic
open Relational Storage

inductive NotificationStatus
  | queued | retry | sent | noDevice | cancelled
  deriving DecidableEq

inductive DeliveryStatus
  | queued | accepted
  deriving DecidableEq

inductive ReceiptType
  | displayed | clicked | dismissed | delivered
  deriving DecidableEq

inductive AppState
  | foreground | background | terminated
  deriving DecidableEq

inductive PushProviderMode
  | mock | disabled
  deriving DecidableEq

def PushProviderMode.text : PushProviderMode → String
  | .mock => "mock" | .disabled => "disabled"

structure PushSettings where
  pushNotificationsEnabled : Bool
  pushProviderMode : PushProviderMode
  pushOutboxBatchSize : ℤ
  pushNotificationTtlSeconds : ℤ
  pushDeepLinkAllowedSchemes : List String

/-- A row of `notification_outbox`. -/
structure NotificationOutbox where
  incidentId : Id
  recipientOperatorId : Id
  businessEventId : String
  dedupeKey : String
  eventType : String
  priority : Priority
  resourceType : String
  resourceId : Option Id
  resourceRevision : Option ℕ
  deepLink : Option String
  title : String
  body : String
  payload : Dict
  status : NotificationStatus
  attempts : ℕ
  runAfter : Time
  expiresAt : Time
  sentAt : Option Time
  cancelledAt : Option Time
  lastErrorCode : Option String
  createdAt : Time

structure NotificationDelivery where
  notificationOutboxId : Id
  pushDeviceId : Id
  provider : String
  providerMessageId : Option String
  status : DeliveryStatus
  attempts : ℕ
  providerResponse : Option Dict
  sentAt : Option Time
  deliveredAt : Option Time
  clickedAt : Option Time

structure NotificationReceipt where
  notificationOutboxId : Id
  receiptType : ReceiptType
  installationIdHash : String
  appState : Option AppState
  occurredAt : Time

structure NotificationPreference where
  operatorId : Id
  incidentId : Id
  enabled : Bool
  minimumPriority : Priority
  eventTypes : List String
  quietHours : Option Dict
  revision : ℕ
  updatedAt : Time

structure NotificationPreferencePatch where
  revision : ℕ
  enabled : Field Bool
  minimumPriority : Field Priority
  eventTypes : Field (List (Bounded 3 80))
  quietHours : Field Dict
  distinct : ∀ types ∈ eventTypes.join, types.Nodup

/-- What the service of notifications reads and writes. -/
structure NotificationDb where
  incidents : Table Incident
  accounts : Table LocalAccount
  memberships : List (Id × Id)
  pushDevices : Table PushDevice
  preferences : Table NotificationPreference
  outbox : Table NotificationOutbox
  deliveries : Table NotificationDelivery
  receipts : Table NotificationReceipt

structure NotificationEnv where
  push : PushEnv
  sha256 : String → String

/-- A negative limit is none. -/
def limitTo {α : Type*} (n : ℤ) (rows : List α) : List α := if n < 0 then rows else rows.take n.toNat

theorem limitTo_sublist {α : Type*} (n : ℤ) (rows : List α) : (limitTo n rows).Sublist rows := by
  unfold limitTo
  split_ifs
  · exact List.Sublist.refl _
  · exact List.take_sublist _ _

/-! ## What an operator wants -/

def Priority.pushRank : Priority → ℕ
  | .low => 1 | .medium => 2 | .high => 3

namespace NotificationPreference

def isOf (operatorId incidentId : Id) (p : NotificationPreference) : Bool :=
  p.operatorId = operatorId && p.incidentId = incidentId

/-- The row a first patch begins with. -/
def default (now : Time) (operatorId incidentId : Id) : NotificationPreference :=
  { operatorId := operatorId
    incidentId := incidentId
    enabled := true
    minimumPriority := .high
    eventTypes := []
    quietHours := none
    revision := 0
    updatedAt := now }

/-- A null is no value, except that it clears the quiet hours. -/
def patched (now : Time) (payload : NotificationPreferencePatch) (p : NotificationPreference) :
    NotificationPreference :=
  { p with
    enabled := payload.enabled.join.getD p.enabled
    minimumPriority := payload.minimumPriority.join.getD p.minimumPriority
    eventTypes := (payload.eventTypes.join.map fun types => types.map (·.val)).getD p.eventTypes
    quietHours := payload.quietHours.getD p.quietHours
    revision := p.revision + 1
    updatedAt := now }

end NotificationPreference

/-- `serialize_preference` -/
def serializePreference (preference : Option NotificationPreference) (incidentId : Id) : Dict :=
  match preference with
  | none =>
    [("incident_id", .ref incidentId), ("enabled", .bool true), ("minimum_priority", .str "high"),
      ("event_types", .arr []), ("quiet_hours", .null), ("revision", .nat 0), ("updated_at", .null)]
  | some p =>
    [("incident_id", .ref incidentId), ("enabled", .bool p.enabled),
      ("minimum_priority", .str p.minimumPriority.text), ("event_types", .arr (p.eventTypes.map .str)),
      ("quiet_hours", .opt .obj p.quietHours), ("revision", .nat p.revision),
      ("updated_at", .time p.updatedAt)]

def preferenceAllows (preference : Option NotificationPreference) (eventType : String)
    (priority : Priority) : Bool :=
  match preference with
  | some p =>
    p.enabled && (p.eventTypes.isEmpty || eventType ∈ p.eventTypes) &&
      p.minimumPriority.pushRank ≤ priority.pushRank
  | none => Priority.high.pushRank ≤ priority.pushRank

section Preferences
variable (now : Time) (actor : Actor) (incidentId : Id) (preferences : Table NotificationPreference)

def getPreference : Result (Option (Id × NotificationPreference)) := do
  requireOperatorAccount actor
  pure (preferences.find (NotificationPreference.isOf actor.subjectId incidentId))

def revisionConflict (expected current : ℕ) : ApiError :=
  conflictError "REVISION_CONFLICT" "notification preference revision does not match"
    [("expected_revision", .nat expected), ("current_revision", .nat current)]

def patchPreference (payload : NotificationPreferencePatch) : Result (Table NotificationPreference × Id) := do
  requireOperatorAccount actor
  let preference ← getPreference actor incidentId preferences
  let current := preference.elim 0 (·.2.revision)
  require (payload.revision = current) (revisionConflict payload.revision current)
  match preference with
  | none =>
    pure (preferences.insert (.patched now payload (.default now actor.subjectId incidentId)),
      preferences.size)
  | some (id, _) => pure (preferences.modify id (.patched now payload), id)

end Preferences

/-! ## Notifications for an event -/

/-- The arguments of `enqueue_operator_notifications`. -/
structure NotificationRequest where
  incidentId : Id
  businessEventId : String
  eventType : String
  priority : Priority
  resourceType : String
  resourceId : Option Id
  resourceRevision : Option ℕ
  deepLink : Option String
  title : String
  body : String

def isSchemeChar (c : Char) : Bool := c.isAlphanum || c = '+' || c = '-' || c = '.'

/-- `urlparse(url).scheme` -/
def urlScheme (url : String) : String :=
  let chars := (url.toList.dropWhile fun c => c.toNat ≤ 0x20).filter fun c =>
    c ≠ '\t' && c ≠ '\r' && c ≠ '\n'
  let name := chars.takeWhile (· ≠ ':')
  if name.length < chars.length && name.head?.any Char.isAlpha && name.all isSchemeChar then
    String.ofList (name.map Char.toLower)
  else ""

def takeText (n : ℕ) (s : String) : String := String.ofList (s.toList.take n)

section Service
variable (env : NotificationEnv) (settings : PushSettings) (now : Time)

def safeDeepLink (deepLink : Option String) : Option String :=
  (deepLink.filter fun link => urlScheme link ∈ settings.pushDeepLinkAllowedSchemes).map (takeText 300)

namespace NotificationRequest

def idText (id : Option Id) : String := id.elim "None" env.push.pii.idText
def revisionText (revision : Option ℕ) : String := revision.elim "None" toString

def dedupeKey (r : NotificationRequest) : String :=
  r.businessEventId ++ ":" ++ r.eventType ++ ":" ++ r.resourceType ++ ":" ++ idText env r.resourceId ++
    ":" ++ revisionText r.resourceRevision

def row (r : NotificationRequest) (account : Id) : NotificationOutbox :=
  { incidentId := r.incidentId
    recipientOperatorId := account
    businessEventId := r.businessEventId
    dedupeKey := r.dedupeKey env
    eventType := r.eventType
    priority := r.priority
    resourceType := r.resourceType
    resourceId := r.resourceId
    resourceRevision := r.resourceRevision
    deepLink := safeDeepLink settings r.deepLink
    title := takeText 120 r.title
    body := takeText 240 r.body
    payload :=
      [("schema_version", .str "1"), ("business_event_id", .str r.businessEventId),
        ("event_type", .str r.eventType), ("resource_type", .str r.resourceType),
        ("resource_id", .opt .ref r.resourceId), ("resource_revision", .opt .nat r.resourceRevision)]
    status := .queued
    attempts := 0
    runAfter := now
    expiresAt := now + settings.pushNotificationTtlSeconds * 1000000
    sentAt := none
    cancelledAt := none
    lastErrorCode := none
    createdAt := now }

end NotificationRequest

namespace NotificationDb
variable (db : NotificationDb)

/-- The active operators and admins among the members of an incident. -/
def operatorAccounts (incidentId : Id) : List Id :=
  ((db.memberships.filter fun m => m.2 = incidentId).map (·.1)).filter fun i =>
    (db.accounts.get i).any fun a => a.isActive && (a.role = .operator || a.role = .admin)

def preferenceOf (operatorId incidentId : Id) : Option NotificationPreference :=
  (db.preferences.find (NotificationPreference.isOf operatorId incidentId)).map (·.2)

def isFor (key : String) (account : Id) (n : NotificationOutbox) : Bool :=
  n.dedupeKey = key && n.recipientOperatorId = account

/-- One turn of the loop: the notification of an account, unless there is one. -/
def enqueueFor (r : NotificationRequest) (acc : NotificationDb × List Id) (account : Id) :
    NotificationDb × List Id :=
  let (db, rows) := acc
  if preferenceAllows (db.preferenceOf account r.incidentId) r.eventType r.priority then
    match db.outbox.find (isFor (r.dedupeKey env) account) with
    | some (id, _) => (db, rows ++ [id])
    | none => ({ db with outbox := db.outbox.insert (r.row env settings now account) }, rows ++ [db.outbox.size])
  else (db, rows)

/-- With the rows it returns. -/
def enqueueOperatorNotifications (r : NotificationRequest) : NotificationDb × List Id :=
  if settings.pushNotificationsEnabled then
    (db.operatorAccounts r.incidentId).foldl (enqueueFor env settings now r) (db, [])
  else (db, [])

/-! ## Delivery -/

def waiting (n : NotificationOutbox) : Bool :=
  (n.status = .queued || n.status = .retry) && n.runAfter ≤ now && now < n.expiresAt

/-- By the time they may be sent, and then by their creation. -/
def dueNotifications : List Id :=
  limitTo settings.pushOutboxBatchSize ((db.outbox.select (waiting now)).insertionSort fun i j =>
    ((db.outbox.get i).elim (toLex (0, 0)) fun n => toLex (n.runAfter, n.createdAt)) ≤
      ((db.outbox.get j).elim (toLex (0, 0)) fun n => toLex (n.runAfter, n.createdAt)))

def reachable (operatorId : Id) (d : PushDevice) : Bool :=
  d.operatorId = operatorId && d.status = .active && d.revokedAt.isNone &&
    d.authorizationStatus ∈ [.authorized, .provisional, .ephemeral]

/-- The device of the operator that comes first, by its priority and then the one seen last. -/
def firstDevice (operatorId : Id) : Option (Id × PushDevice) :=
  let ids := (db.pushDevices.select (reachable operatorId)).insertionSort fun i j =>
    ((db.pushDevices.get i).elim (toLex (0, 0)) fun d => toLex (d.routePriority, -d.lastSeenAt)) ≤
      ((db.pushDevices.get j).elim (toLex (0, 0)) fun d => toLex (d.routePriority, -d.lastSeenAt))
  ids.head?.bind fun i => (db.pushDevices.get i).map fun d => (i, d)

end NotificationDb

/-- `push_payload` -/
def pushPayload (id : Id) (n : NotificationOutbox) : Dict :=
  [("notification", .obj [("title", .str n.title), ("body", .str n.body)]),
    ("data", .obj
      [("schema_version", .str "1"), ("notification_id", .ref id),
        ("business_event_id", .str n.businessEventId), ("incident_id", .ref n.incidentId),
        ("event_type", .str n.eventType), ("resource_type", .str n.resourceType),
        ("resource_id", .str (n.resourceId.elim "" env.push.pii.idText)),
        ("resource_revision", .str ((n.resourceRevision.filter (· ≠ 0)).elim "" toString)),
        ("deep_link", .str (n.deepLink.getD ""))])]

namespace NotificationDelivery

def new (notificationId deviceId : Id) (provider : String) : NotificationDelivery :=
  { notificationOutboxId := notificationId
    pushDeviceId := deviceId
    provider := provider
    providerMessageId := none
    status := .queued
    attempts := 0
    providerResponse := none
    sentAt := none
    deliveredAt := none
    clickedAt := none }

def accepted (n : NotificationOutbox) (d : NotificationDelivery) : NotificationDelivery :=
  let digest := env.sha256
    (env.push.pii.idText d.notificationOutboxId ++ env.push.pii.idText d.pushDeviceId)
  { d with
    status := .accepted
    attempts := d.attempts + 1
    sentAt := some now
    providerMessageId := some ("mock-" ++ takeText 24 digest)
    providerResponse := some
      [("mode", .str settings.pushProviderMode.text),
        ("payload", .obj (pushPayload env d.notificationOutboxId n))] }

/-- The first receipt of its kind is kept. -/
def received (receiptType : ReceiptType) (occurredAt : Time) (d : NotificationDelivery) :
    NotificationDelivery :=
  { d with
    deliveredAt := if receiptType = .delivered ∨ receiptType = .displayed then
        d.deliveredAt.or (some occurredAt) else d.deliveredAt
    clickedAt := if receiptType = .clicked then d.clickedAt.or (some occurredAt) else d.clickedAt }

end NotificationDelivery

namespace NotificationDb
variable (db : NotificationDb)

def setNotification (id : Id) (n : NotificationOutbox) : NotificationDb :=
  { db with outbox := db.outbox.modify id fun _ => n }

/-- The row of the notification on the device is used again. -/
def placeDelivery (id deviceId : Id) (n : NotificationOutbox) (device : PushDevice) :
    Table NotificationDelivery :=
  match db.deliveries.find fun d => d.notificationOutboxId = id && d.pushDeviceId = deviceId with
  | none => db.deliveries.insert (.accepted env settings now n (.new id deviceId device.provider))
  | some (k, _) => db.deliveries.modify k (.accepted env settings now n)

/-- `_deliver_one` -/
def deliverOne (id : Id) : NotificationDb :=
  match db.outbox.get id with
  | none => db
  | some row =>
    let n := { row with attempts := row.attempts + 1 }
    if !settings.pushNotificationsEnabled || settings.pushProviderMode = .disabled then
      db.setNotification id
        { n with status := .cancelled, cancelledAt := some now, lastErrorCode := some "PUSH_PROVIDER_DISABLED" }
    else
      match db.firstDevice n.recipientOperatorId with
      | none =>
        db.setNotification id { n with status := .noDevice, lastErrorCode := some "PUSH_DEVICE_NOT_REGISTERED" }
      | some (deviceId, device) =>
        { db with deliveries := db.placeDelivery env settings now id deviceId n device }.setNotification id
          { n with status := .sent, sentAt := some now, lastErrorCode := none }

/-- The clock is read again for every row. -/
def deliverNotificationsBatch (clock : Id → Time) : NotificationDb :=
  (db.dueNotifications settings now).foldl (fun db id => db.deliverOne env settings (clock id) id) db

/-! ## Receipts and devices -/

def notificationNotFound : ApiError := ⟨404, "NOTIFICATION_NOT_FOUND", "通知不存在", []⟩

def isReceipt (id : Id) (receiptType : ReceiptType) (digest : String) (r : NotificationReceipt) : Bool :=
  r.notificationOutboxId = id && r.receiptType = receiptType && r.installationIdHash = digest

/-- The row on a device with the installation. -/
def deliveryOn (id : Id) (digest : String) : Option (Id × NotificationDelivery) :=
  db.deliveries.find fun d => d.notificationOutboxId = id &&
    (db.pushDevices.get d.pushDeviceId).any (·.installationIdHash = digest)

/-- The row on the device a receipt comes from gets its time. -/
def receivedDeliveries (r : NotificationReceipt) : Table NotificationDelivery :=
  match db.deliveryOn r.notificationOutboxId r.installationIdHash with
  | none => db.deliveries
  | some (k, _) => db.deliveries.modify k (.received r.receiptType r.occurredAt)

structure ReceiptInput where
  receiptType : ReceiptType
  installationId : Bounded 22 512
  occurredAt : Time
  appState : Option AppState

def recordNotificationReceipt (actor : Actor) (id : Id) (payload : ReceiptInput) : Result NotificationDb := do
  requireOperatorAccount actor
  let notification ← found (db.outbox.get id) notificationNotFound
  require (notification.recipientOperatorId = actor.subjectId) notificationNotFound
  let digest := env.push.pii.hmac payload.installationId.val
  match db.receipts.find (isReceipt id payload.receiptType digest) with
  | some _ => pure db
  | none =>
    let receipt : NotificationReceipt :=
      ⟨id, payload.receiptType, digest, payload.appState, payload.occurredAt⟩
    pure { db with receipts := db.receipts.insert receipt, deliveries := db.receivedDeliveries receipt }

def revokePushDevice (actor : Actor) (id : Id) (reason : String) : Result NotificationDb := do
  requireOperatorAccount actor
  let device ← found (db.pushDevices.get id) ⟨404, "PUSH_DEVICE_NOT_FOUND", "Push 设备不存在", []⟩
  require (device.operatorId = actor.subjectId) ⟨404, "PUSH_DEVICE_NOT_FOUND", "Push 设备不存在", []⟩
  pure { db with pushDevices := db.pushDevices.modify id fun d =>
    if d.status = .revoked then d
    else { d with status := .revoked, revokedAt := some now, revokedReason := some reason, updatedAt := now } }

/-! ## Routes -/

def postMyPushDevice (nonce : Bytes) (actor : Actor) (payload : PushDeviceRegistration) :
    Result NotificationDb := do
  let (devices, _) ← registerPushDevice env.push now nonce actor payload db.pushDevices
  pure { db with pushDevices := devices }

def incidentOf (incidentId : Id) : Result Incident :=
  found (db.incidents.get incidentId) ⟨404, "INCIDENT_NOT_FOUND", "事件不存在", []⟩

def getMyNotificationPreference (actor : Actor) (incidentId : Id) (header : Option Ref) : Result Dict := do
  let _ ← db.incidentOf incidentId
  ensureIncidentAccess actor (.id incidentId) header
  let preference ← getPreference actor incidentId db.preferences
  pure (serializePreference (preference.map (·.2)) incidentId)

def patchMyNotificationPreference (actor : Actor) (incidentId : Id) (header : Option Ref)
    (payload : NotificationPreferencePatch) : Result NotificationDb := do
  let _ ← db.incidentOf incidentId
  ensureIncidentAccess actor (.id incidentId) header
  let (preferences, _) ← patchPreference now actor incidentId db.preferences payload
  pure { db with preferences := preferences }

def postNotificationReceipt (actor : Actor) (id : Id) (header : Option Ref) (payload : ReceiptInput) :
    Result NotificationDb := do
  let notification ← found (db.outbox.get id) notificationNotFound
  ensureIncidentAccess actor (.id notification.incidentId) header
  db.recordNotificationReceipt env actor id payload

end NotificationDb
end Service

/-- Accounts and memberships change under other requests. -/
inductive NotificationStep
  | enqueue (settings : PushSettings) (now : Time) (request : NotificationRequest)
  | deliver (settings : PushSettings) (now : Time) (clock : Id → Time)
  | register (now : Time) (nonce : Bytes) (actor : Actor) (payload : PushDeviceRegistration)
  | revoke (now : Time) (actor : Actor) (device : Id) (reason : String)
  | patchPreference (now : Time) (actor : Actor) (incidentId : Id) (header : Option Ref)
      (payload : NotificationPreferencePatch)
  | receipt (actor : Actor) (notification : Id) (header : Option Ref) (payload : NotificationDb.ReceiptInput)
  | administer (incidents : Table Incident) (accounts : Table LocalAccount) (memberships : List (Id × Id))

def notificationServe (env : NotificationEnv) (db : NotificationDb) : NotificationStep → Result NotificationDb
  | .enqueue settings now request => pure (db.enqueueOperatorNotifications env settings now request).1
  | .deliver settings now clock => pure (db.deliverNotificationsBatch env settings now clock)
  | .register now nonce actor payload => db.postMyPushDevice env now nonce actor payload
  | .revoke now actor device reason => db.revokePushDevice now actor device reason
  | .patchPreference now actor incidentId header payload =>
    db.patchMyNotificationPreference now actor incidentId header payload
  | .receipt actor notification header payload =>
    db.postNotificationReceipt env actor notification header payload
  | .administer incidents accounts memberships =>
    pure { db with incidents := incidents, accounts := accounts, memberships := memberships }

def notificationStep (env : NotificationEnv) (db : NotificationDb) (x : NotificationStep) : NotificationDb :=
  commit db (notificationServe env db x)

/-- Nobody has registered a device or been notified yet. -/
def NotificationDb.initial (incidents : Table Incident) (accounts : Table LocalAccount)
    (memberships : List (Id × Id)) : NotificationDb :=
  ⟨incidents, accounts, memberships, .empty, .empty, .empty, .empty, .empty⟩

def notificationRun (env : NotificationEnv) (db : NotificationDb) (steps : List NotificationStep) :
    NotificationDb :=
  run (notificationStep env) db steps

end CrisisMosaic
