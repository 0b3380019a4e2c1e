import CrisisMosaic.Reachable
import CrisisMosaic.Retention

/-!
# Contacts and retention over runs

The operations of the service with the contacts they write, the changes of an incident's status,
and the cleanup passes.
-/

namespace CrisisMosaic
open Relational

structure RetentionEnv extends Env where
  pii : PiiLib
  piiSettings : PiiSettings

def RetentionEnv.contactDigest (env : RetentionEnv) (id : Id) : String :=
  env.sha256 ("retention:" ++ env.pii.idText id ++ ":mobile")

/-- When a contact was written, and since when its incident had been closed then, if ever. -/
structure Writing where
  writtenAt : Time
  closedAt : Option Time

/-- `closedAt` is a column of the incidents, `contacts` has the rows of the contacts in full, and
`writings` remembers how each of them came about. -/
structure RetainedState where
  db : Db
  closedAt : Table (Option Time)
  contacts : Table StoredContact
  writings : Table Writing

/-- What the contact service reads of a request. -/
structure ReporterFields where
  created : ReporterInput
  patched : ReporterPatchInput
  nonces : String → Bytes

namespace RetainedState
variable (env : RetentionEnv) (s : RetainedState) (op : Op) (fields : ReporterFields)

def incidentClosedAt (id : Id) : Option Time := (s.closedAt.get id).join

def createdContact (incident : Ref) : Result StoredContact := do
  let (id, _) ← getIncident s.db.feed.incidents incident
  createReporterContact env.pii env.piiSettings op.now fields.nonces id (s.incidentClosedAt id)
    op.actor.subjectId fields.created

def reportContact (report : Report) : Option StoredContact :=
  report.reporterContactId.bind s.contacts.get

def updatedContact (report : Id) : Result StoredContact := do
  let report ← getReport s.db.reports report
  let previous ← found (s.reportContact report)
    (conflictError "REPORTER_CONTACT_MISSING" "当前上报缺少联系人快照" [])
  updateReporterContact env.pii env.piiSettings op.now fields.nonces report.incidentId
    (s.incidentClosedAt report.incidentId) previous fields.patched

/-- The contact the operation writes if it goes through. -/
def newContact : Option (Result StoredContact) :=
  match op.call with
  | .postReport incident _ _ _ => some (s.createdContact env op fields incident)
  | .patchReport report payload _ =>
      if payload.reporter.join.isSome then some (s.updatedContact env op fields report) else none
  | _ => none

/-- The operation with what the contact service answers. -/
def resolve : Op :=
  { op with
    call :=
      match op.call with
      | .postReport incident payload refinement _ =>
          .postReport incident payload refinement
            (s.createdContact env op fields incident >>= fun _ => pure ())
      | .patchReport report payload refinement =>
          .patchReport report
            { payload with
              reporter := payload.reporter.map fun f => f.map fun _ =>
                s.updatedContact env op fields report >>= fun _ => pure () }
            refinement
      | call => call }

def addContact (now : Time) (c : StoredContact) : RetainedState :=
  { s with
    contacts := s.contacts.insert c
    writings := s.writings.insert ⟨now, s.incidentClosedAt c.incidentId⟩ }

/-- The rows of the contacts, without their columns. -/
def owners : Table ReporterContact :=
  ⟨s.contacts.rows.map fun c => ⟨c.incidentId, c.residentDeviceId⟩⟩

/-- The contact of an operation that goes through is added. -/
def operate : RetainedState :=
  match transact env.toEnv { s.db with contacts := s.owners } (s.resolve env op fields) with
  | .error _ => s
  | .ok o =>
    let s := match s.newContact env op fields with
      | some (.ok c) => s.addContact op.now c
      | _ => s
    { s with db := o.db }

end RetainedState

/-! ## Incidents -/

structure IncidentPatch where
  revision : ℕ
  status : Option IncidentStatus
  featureFlags : Option Dict
  mapDefaultZoom : Option ℚ
  centerLatitude : Field ℚ
  centerLongitude : Field ℚ

/-- The center is stored in the coordinate system of the incident. -/
def IncidentPatch.center (math : MathLib) (p : IncidentPatch) (row : Incident) : Result Incident :=
  if p.centerLatitude.isSome ∨ p.centerLongitude.isSome then
    match p.centerLatitude.join, p.centerLongitude.join with
    | some lat, some lon => do
      let (lat, lon) ← validateCoordinates lat lon
      let point := (normalize math lat lon row.mapCoordinateSystem).at row.mapCoordinateSystem
      pure { row with centerLatitude := some point.latitude, centerLongitude := some point.longitude }
    | _, _ => throw (unprocessable "INVALID_LOCATION" "事件中心经纬度必须同时提交")
  else pure row

def patchIncident (env : RetentionEnv) (now : Time) (s : RetainedState) (actor : Actor)
    (header : Option Ref) (id : Id) (p : IncidentPatch) : Result RetainedState := do
  require (actor.role = .admin) (forbidden "FORBIDDEN" "当前角色无权执行此操作")
  let row ← found (s.db.feed.incidents.get id) (notFound "事件")
  ensureIncidentAccess actor (.id id) header
  require (p.revision = row.dataRevision)
    (conflictError "REVISION_CONFLICT" "事件版本已变化" [("current_revision", .nat row.dataRevision)])
  require (¬ (p.status = some .active ∧ row.status ≠ .active ∧
      (s.db.feed.incidents.select (·.status = .active)).any (· ≠ id)))
    (conflictError "ACTIVE_INCIDENT_EXISTS" "已有启用事件" [])
  let next ← p.center env.math
    { row with
      status := p.status.getD row.status
      featureFlags := p.featureFlags.getD row.featureFlags
      mapDefaultZoom := p.mapDefaultZoom.getD row.mapDefaultZoom }
  let feed := s.db.feed.begin
  let feed := { feed with incidents := feed.incidents.modify id fun _ => next }
  let feed := feed.emitEvent now id
    { eventType := "incident.updated"
      resourceType := .incident
      resourceId := some id
      resourceRevision := some (row.dataRevision + 1)
      payload := [("status", .str next.status.text)]
      visibility := .public }
  pure { s with
    db := { s.db with feed := feed }
    closedAt := if p.status = some .closed then s.closedAt.modify id fun _ => some now else s.closedAt }

/-! ## The pass -/

section Cleanup
variable (env : RetentionEnv) (s : RetainedState) (now stamped : Time)

def RetainedState.expired : List Id :=
  expiredIncidents s.db.feed.incidents s.closedAt (now - days env.piiSettings.businessRetentionDays)

/-- The rows of the other tables become those of `rest`. -/
def cleanupRetentionOnce (rest : Db) : RetainedState :=
  let expired := s.expired env now
  let contacts := expireContacts now env.contactDigest s.contacts
  { s with
    db := { rest with
      feed := { rest.feed with incidents := s.db.feed.incidents }
      contacts := s.db.contacts
      reports := expired.foldl (anonymizeReports now stamped) s.db.reports }
    contacts := expired.foldl (anonymizeContacts now env.contactDigest) contacts }

end Cleanup

inductive RetainedStep
  | op (op : Op) (fields : ReporterFields)
  | patchIncident (now : Time) (actor : Actor) (header : Option Ref) (incident : Id) (patch : IncidentPatch)
  /-- A hold is put on a contact or lifted, in the database. -/
  | hold (contact : Id) (held : Bool)
  | cleanup (now stamped : Time) (rest : Db)

def retainedStep (env : RetentionEnv) (s : RetainedState) : RetainedStep → RetainedState
  | .op op fields => s.operate env op fields
  | .patchIncident now actor header incident patch =>
      commit s (patchIncident env now s actor header incident patch)
  | .hold contact held =>
      { s with contacts := s.contacts.modify contact fun c => { c with legalHold := held } }
  | .cleanup now stamped rest => cleanupRetentionOnce env s now stamped rest

/-- No contact has been written yet. -/
def RetainedState.initial (db : Db) (closedAt : Table (Option Time)) : RetainedState :=
  ⟨db, closedAt, .empty, .empty⟩

abbrev retainedRun (env : RetentionEnv) (s : RetainedState) (steps : List RetainedStep) : RetainedState :=
  run (retainedStep env) s steps

/-! A service whose libraries do as little as they may. -/

namespace Sample
open Storage

def triples : List Char → Bytes
  | [] => []
  | c :: cs => Base64.byte (c.toNat / 65536) :: Base64.byte (c.toNat / 256 % 256) ::
      Base64.byte (c.toNat % 256) :: triples cs

def ofTriples : Bytes → Option (List Char)
  | [] => some []
  | a :: b :: c :: rest => (ofTriples rest).map (Char.ofNat (a * 65536 + b * 256 + c) :: ·)
  | _ => none

theorem ofTriples_triples (cs : List Char) : ofTriples (triples cs) = some cs := by
  induction cs with
  | nil => rfl
  | cons c cs ih =>
    have hbound : c.toNat < 0x110000 := by
      rcases c.valid with h | h
      · exact lt_trans h (by decide)
      · exact h.2
    have hhigh : (Base64.byte (c.toNat / 65536) : ℕ) = c.toNat / 65536 := Nat.mod_eq_of_lt (by omega)
    have hmiddle : (Base64.byte (c.toNat / 256 % 256) : ℕ) = c.toNat / 256 % 256 :=
      Nat.mod_eq_of_lt (by omega)
    have hlow : (Base64.byte (c.toNat % 256) : ℕ) = c.toNat % 256 := Nat.mod_eq_of_lt (by omega)
    have hsum : c.toNat / 65536 * 65536 + c.toNat / 256 % 256 * 256 + c.toNat % 256 = c.toNat := by omega
    simp only [triples, ofTriples, ih, Option.map_some, hhigh, hmiddle, hlow, hsum, Char.ofNat_toNat]

def utf8 : Codec String Bytes where
  encode s := triples s.toList
  decode bytes := (ofTriples bytes).map String.ofList
  decode_encode s := by
    rw [ofTriples_triples, Option.map_some, String.ofList_toList]

/-- The first text's length in unary, and both texts. -/
def pair : Codec (String × String) String where
  encode p := String.ofList (List.replicate p.1.toList.length '1' ++ '|' :: (p.1.toList ++ p.2.toList))
  decode s :=
    let n := (s.toList.takeWhile (· = '1')).length
    let rest := s.toList.drop (n + 1)
    some (String.ofList (rest.take n), String.ofList (rest.drop n))
  decode_encode p := by
    have hprefix : ((List.replicate p.1.toList.length '1' ++ '|' :: (p.1.toList ++ p.2.toList)).takeWhile
        (· = '1')) = List.replicate p.1.toList.length '1' := by
      rw [List.takeWhile_append_of_pos]
      · simp
      · simp
    simp [String.toList_ofList, hprefix, List.drop_append]

def pii : PiiLib where
  digit c := if c.isDigit then some (c.toNat - 48) else none
  upper s := s
  idText _ := "0"
  hmac s := s
  utf8 := utf8
  json := pair
  aes _ _ := ⟨id, some, fun _ => rfl⟩
  digit_not_white c h := by
    have hdigit : c.isDigit = true := by
      by_contra hnot
      simp [hnot] at h
    obtain ⟨hlow, hhigh⟩ : 48 ≤ c.toNat ∧ c.toNat ≤ 57 := by
      simp only [Char.isDigit, Bool.and_eq_true, decide_eq_true_eq] at hdigit
      exact ⟨hdigit.1, hdigit.2⟩
    simp only [isWhite, Bool.or_eq_false_iff, Bool.and_eq_false_iff, decide_eq_false_iff_not]
    omega

def retention : RetentionEnv where
  toEnv := env
  pii := pii
  piiSettings := ⟨"1", 90, 180, "000000"⟩

def reporter : ReporterFields where
  created := ⟨⟨"x", by decide⟩, ⟨"13800000000", by decide⟩, none, none⟩
  patched := ⟨none, none, none, none⟩
  nonces _ := []

def unretained : RetainedState := .initial initial ⟨[none]⟩

/-- A report, with its contact. -/
def posted : RetainedStep :=
  .op ⟨0, resident, none, .postReport (.id 0) waterReport (.ok none) (.ok ())⟩ reporter

end Sample
end CrisisMosaic
