import CrisisMosaic.ContactTexts
import CrisisMosaic.DeclaredErrors
import CrisisMosaic.RetentionRuns

/-!
# Reading contacts

The requests that decrypt the contact of a report. A column that cannot be decrypted raises an
exception no handler catches, which the client sees as an internal error.
-/

namespace CrisisMosaic
open Relational Storage

/-- What a detail request returns. -/
structure ReportDetail where
  id : Id
  report : Report
  contact : Option Dict
  attachments : List Id
  reporter : Option Dict

inductive RevealField
  | fullName | mobile | nationalId | emergencyContact | rescueNotes
  deriving DecidableEq

def RevealField.text : RevealField → String
  | .fullName => "full_name" | .mobile => "mobile" | .nationalId => "national_id"
  | .emergencyContact => "emergency_contact" | .rescueNotes => "rescue_notes"

/-- The first two fields stand in the contact itself, the others in its additional information. -/
def RevealField.select (plain : Dict) (f : RevealField) : Json :=
  let additional := ((plain.get "additional_info").bind Json.asDict).getD []
  match f with
  | .fullName | .mobile => (plain.get f.text).getD .null
  | _ => (additional.get f.text).getD .null

section Readers
variable (lib : PiiLib) (settings : PiiSettings) (s : RetainedState) (actor : Actor) (header : Option Ref)

def RetainedState.detail (id : Id) (report : Report) (reporter : Option Dict) : ReportDetail :=
  ⟨id, report, (s.reportContact report).map serializeContactMasked,
    attachmentsByReport s.db.attachments id, reporter⟩

/-- The contact in plain, if there is one and it is asked for. -/
def plainReporter (asked : Bool) (contact : Option StoredContact) : Result (Option Dict) :=
  match contact with
  | some c => if asked then some <$> serializeContactPlain lib c else pure none
  | none => pure none

/-- A report the actor may see, in an incident the request is about. -/
def RetainedState.visibleReport (id : Id) : Result Report := do
  let report ← getReport s.db.reports id
  assertReportAccess actor report false
  let incident ← found (s.db.feed.incidents.get report.incidentId)
    ⟨404, "NOT_FOUND", "incident not found", []⟩
  assertIncidentAccess actor report.incidentId incident header
  pure report

def readReport (id : Id) : Result ReportDetail := do
  let report ← s.visibleReport actor header id
  let reporter ← plainReporter lib actor.isOperator (s.reportContact report)
  pure (s.detail id report reporter)

/-- The newest report of the device first. -/
def RetainedState.recentReports (directedAnswer : Bool) : List Id :=
  let newer (i j : Id) : Prop :=
    toLex ((s.db.reports.get j).elim 0 (·.updatedAt), j) ≤
      toLex ((s.db.reports.get i).elim 0 (·.updatedAt), i)
  (s.db.reports.select fun r =>
    r.reporterDeviceId = actor.subjectId && actor.incidentIds.contains r.incidentId &&
      r.isDirectedAnswer = directedAnswer && r.deletedAt.isNone).insertionSort newer

def recentReport (directedAnswer : Bool) : Result (Option ReportDetail) := do
  require actor.isResident (forbidden "RESIDENT_REQUIRED" "only residents have a recent report")
  match (s.recentReports actor directedAnswer).head?.bind fun i =>
      (s.db.reports.get i).map fun r => (i, r) with
  | none => pure none
  | some (id, report) => do
    let reporter ← plainReporter lib true (s.reportContact report)
    pure (some (s.detail id report reporter))

def revealReporterContact (id : Id) (mfaCode : String) (fields : List RevealField) : Result Dict := do
  let report ← s.visibleReport actor header id
  let contact ← found (s.reportContact report)
    ⟨404, "REPORTER_CONTACT_NOT_FOUND", "联系人快照不存在", []⟩
  authorizeReveal settings actor mfaCode
  let plain ← serializeContactPlain lib contact
  pure [("report_id", .ref id), ("reporter", .obj (fields.map fun f => (f.text, f.select plain)))]

end Readers

/-! ## Decryption -/

section Opening
variable {lib : PiiLib}

variable (lib) in
/-- The contact is decrypted, and what is decrypted passes the schema. -/
def StoredContact.Opens (c : StoredContact) : Prop :=
  ∃ plain info, plainContact lib c = .ok plain ∧
    ReporterAdditionalInfo.parse plain.nationalId plain.emergency plain.rescueNotes = some info

theorem decryptField_encrypt {c : StoredContact} {settings : PiiSettings}
    (hversion : c.encryptionKeyVersion = settings.encryptionKeyVersion) (nonce : Bytes)
    (field : String) (value : Option String) :
    c.decryptField lib field (value.map fun v =>
      encrypt lib settings nonce c.incidentId c.residentDeviceId field v) = .ok value := by
  cases value with
  | none => rfl
  | some v =>
    simp only [StoredContact.decryptField, Option.map_some, hversion, decrypt_encrypt]
    rfl

theorem plainContact_of_fields {c : StoredContact} {p : PlainContact}
    (hname : c.decryptField lib "full_name" (some c.fullNameCiphertext) = .ok p.fullName)
    (hmobile : c.decryptField lib "mobile" (some c.mobileCiphertext) = .ok p.mobile)
    (hid : c.decryptField lib "national_id" c.nationalIdCiphertext = .ok p.nationalId)
    (hemergency : c.decryptField lib "emergency_name" c.emergencyNameCiphertext = .ok p.emergencyName)
    (hphone : c.decryptField lib "emergency_mobile" c.emergencyMobileCiphertext = .ok p.emergencyMobile)
    (hrelation : c.decryptField lib "emergency_relation" c.emergencyRelationCiphertext =
      .ok p.emergencyRelation)
    (hnotes : c.decryptField lib "rescue_notes" c.rescueNotesCiphertext = .ok p.rescueNotes) :
    plainContact lib c = .ok p := by
  simp only [plainContact, hname, hmobile, hid, hemergency, hphone, hrelation, hnotes]
  rfl

/-- The columns of a row that was just built decrypt to the texts they were built from. -/
theorem plainContact_build (settings : PiiSettings) (now : Time) (nonces : String → Bytes)
    (id device : Id) (closedAt : Option Time) (v : ContactValues) :
    plainContact lib (buildContact lib settings now nonces id closedAt device v) = .ok v.plain := by
  have hfield (field : String) (value : Option String) :=
    @decryptField_encrypt lib (buildContact lib settings now nonces id closedAt device v) settings rfl
      (nonces field) field value
  have hname := hfield "full_name" (some v.fullName)
  have hmobile := hfield "mobile" (some v.mobile)
  have hid := hfield "national_id" v.nationalId
  have hemergency := hfield "emergency_name" v.emergencyName
  have hphone := hfield "emergency_mobile" v.emergencyMobile
  have hrelation := hfield "emergency_relation" v.emergencyRelation
  have hnotes := hfield "rescue_notes" v.rescueNotes
  exact plainContact_of_fields hname hmobile hid hemergency hphone hrelation hnotes

theorem buildContact_opens {settings : PiiSettings} {now : Time} {fullName mobile : String}
    {consentAt : Option Time} {additional : Option ReporterAdditionalInfo} {v : ContactValues}
    (h : validateValues lib now fullName mobile consentAt additional = .ok v) (written : Time)
    (nonces : String → Bytes) (id device : Id) (closedAt : Option Time) :
    (buildContact lib settings written nonces id closedAt device v).Opens lib := by
  obtain ⟨info, hinfo⟩ := validateValues_reparse h
  exact ⟨v.plain, info, plainContact_build settings written nonces id device closedAt v, hinfo⟩

/-! ## Requests -/

theorem normalizeMobile_declared (value : String) : Declared (normalizeMobile lib value) := by
  apply FailsWith.check (unprocessable_declared _ _)
  intro _
  exact FailsWith.pure _

theorem validateNationalId_declared (value : Option String) : Declared (validateNationalId lib value) := by
  unfold validateNationalId
  split
  · exact FailsWith.pure none
  · apply FailsWith.check (unprocessable_declared _ _)
    intro _
    apply FailsWith.check (unprocessable_declared _ _)
    intro _
    apply FailsWith.check (unprocessable_declared _ _)
    intro _
    exact FailsWith.pure _

theorem emergencyValues_declared (emergency : Option EmergencyContactInput) :
    Declared (emergencyValues lib emergency) := by
  unfold emergencyValues
  split
  · exact FailsWith.pure _
  · dsimp only
    split_ifs
    · exact FailsWith.pure _
    · split
      · apply FailsWith.bind (normalizeMobile_declared _)
        intro _ _
        exact FailsWith.pure _
      · exact FailsWith.throw (unprocessable_declared _ _)

theorem validateValues_declared (now : Time) (fullName mobile : String) (consentAt : Option Time)
    (additional : Option ReporterAdditionalInfo) :
    Declared (validateValues lib now fullName mobile consentAt additional) := by
  apply FailsWith.check (unprocessable_declared _ _)
  intro _
  apply FailsWith.bind (normalizeMobile_declared mobile)
  intro _ _
  apply FailsWith.bind (validateNationalId_declared _)
  intro _ _
  apply FailsWith.bind (emergencyValues_declared _)
  intro _ _
  exact FailsWith.pure _

theorem plainContact_declared {c : StoredContact} (h : c.Opens lib) : Declared (plainContact lib c) := by
  obtain ⟨plain, -, hplain, -⟩ := h
  exact FailsWith.of_ok hplain

/-- A contact that opens can be edited: what is not sent is read from it. -/
theorem updateReporterContact_declared {settings : PiiSettings} {previous : StoredContact}
    (h : previous.Opens lib) (now : Time) (nonces : String → Bytes) (id : Id) (closedAt : Option Time)
    (patch : ReporterPatchInput) :
    Declared (updateReporterContact lib settings now nonces id closedAt previous patch) := by
  have hdecrypts := plainContact_declared h
  obtain ⟨plain, info, hplain, hinfo⟩ := h
  have hadditional : Declared (patch.additional plain) := by
    unfold ReporterPatchInput.additional
    split
    · exact FailsWith.pure _
    · rw [hinfo]
      exact FailsWith.pure _
  apply FailsWith.bind hdecrypts
  intro read hread
  obtain rfl := Except.ok.inj (hplain.symm.trans hread)
  apply FailsWith.lookup (unprocessable_declared _ _)
  intro fullName _
  apply FailsWith.lookup (unprocessable_declared _ _)
  intro mobile _
  apply FailsWith.bind hadditional
  intro additional _
  apply FailsWith.bind (validateValues_declared now fullName mobile _ additional)
  intro values _
  exact FailsWith.pure _

theorem serializeContactPlain_declared {c : StoredContact} (h : c.Opens lib) :
    Declared (serializeContactPlain lib c) := by
  apply FailsWith.bind (plainContact_declared h)
  intro _ _
  exact FailsWith.pure _

theorem plainReporter_declared {contact : Option StoredContact} (h : ∀ c ∈ contact, c.Opens lib)
    (asked : Bool) : Declared (plainReporter lib asked contact) := by
  cases contact with
  | none => exact FailsWith.pure none
  | some c =>
    unfold plainReporter
    dsimp only
    split_ifs
    · exact FailsWith.map (serializeContactPlain_declared (h c rfl))
    · exact FailsWith.pure none

end Opening

section Endpoints
variable {env : RetentionEnv} {s : RetainedState} {actor : Actor} {header : Option Ref}

variable (env s) in
/-- The contacts of the reports that are not deleted open. -/
def RetainedState.ContactsOpen : Prop :=
  ∀ id r, s.db.reports.get id = some r → r.deletedAt = none → ∀ c ∈ s.reportContact r, c.Opens env.pii

theorem visibleReport_declared (id : Id) : Declared (s.visibleReport actor header id) := by
  apply FailsWith.bind (getReport_declared _ id)
  intro report _
  apply FailsWith.bind (assertReportAccess_declared report false)
  intro _ _
  apply FailsWith.lookup (missing_declared _ _ _)
  intro incident _
  apply FailsWith.bind (assertIncidentAccess_declared _ incident)
  intro _ _
  exact FailsWith.pure report

theorem getReport_some {reports : Table Report} {id : Id} {r : Report} (h : getReport reports id = .ok r) :
    reports.get id = some r ∧ r.deletedAt = none := by
  simp only [getReport, bind_ok, found_ok, require_ok, pure_ok] at h
  obtain ⟨r', hr, -, hlive, rfl⟩ := h
  exact ⟨hr, hlive⟩

theorem visibleReport_some {id : Id} {r : Report} (h : s.visibleReport actor header id = .ok r) :
    s.db.reports.get id = some r ∧ r.deletedAt = none := by
  simp only [RetainedState.visibleReport, bind_ok, pure_ok] at h
  obtain ⟨r', hr, -, -, -, -, -, -, rfl⟩ := h
  exact getReport_some hr

theorem readReport_declared (h : s.ContactsOpen env) (id : Id) :
    Declared (readReport env.pii s actor header id) := by
  apply FailsWith.bind (visibleReport_declared id)
  intro report hreport
  obtain ⟨hget, hlive⟩ := visibleReport_some hreport
  apply FailsWith.bind (plainReporter_declared (h id report hget hlive) _)
  intro reporter _
  exact FailsWith.pure _

theorem recentReport_declared (h : s.ContactsOpen env) (directedAnswer : Bool) :
    Declared (recentReport env.pii s actor directedAnswer) := by
  apply FailsWith.check (forbidden_declared _ _)
  intro _
  split
  · exact FailsWith.pure none
  · next id report hrecent =>
    obtain ⟨i, hi, hget⟩ := Option.bind_eq_some_iff.mp hrecent
    obtain ⟨r, hr, heq⟩ := Option.map_eq_some_iff.mp hget
    obtain ⟨rfl, rfl⟩ := Prod.mk.inj heq
    have hlive : r.deletedAt = none := by
      have hmem := (List.mem_insertionSort _).mp (List.mem_of_head? hi)
      obtain ⟨r', hr', hp⟩ := Table.mem_select.mp hmem
      obtain rfl := Option.some.inj (hr.symm.trans hr')
      simp only [Bool.and_eq_true, Option.isNone_iff_eq_none] at hp
      exact hp.2
    apply FailsWith.bind (plainReporter_declared (h i r hr hlive) true)
    intro reporter _
    exact FailsWith.pure _

theorem revealReporterContact_declared (h : s.ContactsOpen env) (id : Id) (mfaCode : String)
    (fields : List RevealField) :
    Declared (revealReporterContact env.pii env.piiSettings s actor header id mfaCode fields) := by
  apply FailsWith.bind (visibleReport_declared id)
  intro report hreport
  obtain ⟨hget, hlive⟩ := visibleReport_some hreport
  apply FailsWith.lookup (missing_declared _ _ _)
  intro contact hcontact
  apply FailsWith.bind
  · apply FailsWith.check (forbidden_declared _ _)
    intro _
    exact FailsWith.require (forbidden_declared _ _)
  · intro _ _
    apply FailsWith.bind (serializeContactPlain_declared (h id report hget hlive contact hcontact))
    intro plain _
    exact FailsWith.pure _

theorem updatedContact_declared (h : s.ContactsOpen env) (op : Op) (fields : ReporterFields) (id : Id) :
    Declared (s.updatedContact env op fields id) := by
  apply FailsWith.bind (getReport_declared _ id)
  intro report hreport
  obtain ⟨hget, hlive⟩ := getReport_some hreport
  apply FailsWith.lookup (conflictError_declared _ _ _)
  intro contact hcontact
  exact updateReporterContact_declared (h id report hget hlive contact hcontact) _ _ _ _ _

end Endpoints
end CrisisMosaic
