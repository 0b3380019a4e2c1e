import CrisisMosaic.ConflictRoutes
import CrisisMosaic.Storage.Codec
import CrisisMosaic.System

/-!
# Reporter contacts

The contact of a report is stored encrypted, column by column, under the key version of its
time; the masked columns and the blind indexes stand beside the ciphertexts.
-/

namespace CrisisMosaic
open Relational Storage

abbrev Bytes := List (Fin 256)

def days (n : ℤ) : Time := hours (n * 24)

/-! ## White space -/

/-- Unicode's `White_Space`, which the schemas strip. -/
def isWhite (c : Char) : Bool :=
  let n := c.toNat
  (9 ≤ n && n ≤ 13) || n = 0x20 || n = 0x85 || n = 0xA0 || n = 0x1680 || (0x2000 ≤ n && n ≤ 0x200A) ||
    n = 0x2028 || n = 0x2029 || n = 0x202F || n = 0x205F || n = 0x3000

/-- Python's `str.isspace`. -/
def isPySpace (c : Char) : Bool := isWhite c || (0x1C ≤ c.toNat && c.toNat ≤ 0x1F)

def stripChars (p : Char → Bool) (cs : List Char) : List Char :=
  ((cs.dropWhile p).reverse.dropWhile p).reverse

def stripText (p : Char → Bool) (s : String) : String := String.ofList (stripChars p s.toList)

/-- A text of bounded length. -/
abbrev Bounded (low high : ℕ) := {s : String // low ≤ s.length ∧ s.length ≤ high}

/-- A `str` field with length bounds, in a model that strips white space. -/
def Bounded.parse (low high : ℕ) (s : String) : Option (Bounded low high) :=
  let t := stripText isWhite s
  if h : low ≤ t.length ∧ t.length ≤ high then some ⟨t, h⟩ else none

def Bounded.parseOptional (low high : ℕ) : Option String → Option (Option (Bounded low high))
  | none => some none
  | some s => (Bounded.parse low high s).map some

/-! ## The requests -/

structure EmergencyContactInput where
  name : Option (Bounded 1 80)
  mobile : Option (Bounded 11 32)
  relation : Option (Bounded 1 40)

structure ReporterAdditionalInfo where
  nationalId : Option (Bounded 18 18)
  emergencyContact : Option EmergencyContactInput
  rescueNotes : Option (Bounded 1 500)

structure ReporterInput where
  fullName : Bounded 1 80
  mobile : Bounded 11 32
  consentAt : Option Time
  additionalInfo : Option ReporterAdditionalInfo

structure ReporterPatchInput where
  fullName : Field (Bounded 1 80)
  mobile : Field (Bounded 11 32)
  consentAt : Option Time
  additionalInfo : Field ReporterAdditionalInfo

/-- The three texts of an emergency contact, before they are checked. -/
structure RawEmergency where
  name : Option String
  mobile : Option String
  relation : Option String

def EmergencyContactInput.parse (raw : RawEmergency) : Option EmergencyContactInput := do
  let name ← Bounded.parseOptional 1 80 raw.name
  let mobile ← Bounded.parseOptional 11 32 raw.mobile
  let relation ← Bounded.parseOptional 1 40 raw.relation
  some ⟨name, mobile, relation⟩

def EmergencyContactInput.parseOptional : Option RawEmergency → Option (Option EmergencyContactInput)
  | none => some none
  | some raw => (EmergencyContactInput.parse raw).map some

def ReporterAdditionalInfo.parse (nationalId : Option String) (emergency : Option RawEmergency)
    (rescueNotes : Option String) : Option ReporterAdditionalInfo := do
  let nationalId ← Bounded.parseOptional 18 18 nationalId
  let emergency ← EmergencyContactInput.parseOptional emergency
  let rescueNotes ← Bounded.parseOptional 1 500 rescueNotes
  some ⟨nationalId, emergency, rescueNotes⟩

/-! ## Numbers -/

/-- What the contact service uses of the libraries. -/
structure PiiLib where
  /-- The value of a decimal digit of any script. -/
  digit : Char → Option ℕ
  upper : String → String
  idText : Id → String
  hmac : String → String
  utf8 : Codec String Bytes
  /-- The JSON text of an envelope: its version, the nonce and the ciphertext. -/
  json : Codec (String × String) String
  /-- AES-GCM under the configured key, with a nonce and associated data. -/
  aes : Bytes → Bytes → Codec Bytes Bytes
  digit_not_white : ∀ c, (digit c).isSome → isWhite c = false

section Values
variable (lib : PiiLib)

def isDigit (c : Char) : Bool := (lib.digit c).isSome

/-- `$` also matches before a final newline. -/
def beforeNewline (cs : List Char) : List Char :=
  if cs.getLast? = some '\n' then cs.dropLast else cs

/-- `^1[3-9]\d{9}$` -/
def matchesMobile (s : String) : Bool :=
  match beforeNewline s.toList with
  | c :: d :: rest => c = '1' && '3' ≤ d && d ≤ '9' && rest.length = 9 && rest.all (isDigit lib)
  | _ => false

def normalizeMobile (value : String) : Result String := do
  let text := (stripText isPySpace value).toList.filter fun c => c ≠ ' ' && c ≠ '-'
  let text :=
    if "+86".toList.isPrefixOf text then text.drop 3
    else if "86".toList.isPrefixOf text && text.length = 13 then text.drop 2
    else text
  require (matchesMobile lib (String.ofList text))
    (unprocessable "INVALID_MAINLAND_MOBILE" "手机号必须是合法中国大陆 11 位手机号")
  pure ("+86" ++ String.ofList text)

def maskName (value : String) : String :=
  match (stripText isPySpace value).toList with
  | [] => ""
  | c :: cs => String.ofList (c :: List.replicate (max 1 (min cs.length 3)) '*')

def lastFour (cs : List Char) : List Char := cs.drop (cs.length - 4)

def maskMobile (e164 : String) : String :=
  let text := if "+86".toList.isPrefixOf e164.toList then e164.toList.drop 3 else e164.toList
  String.ofList (text.take 3 ++ "****".toList ++ lastFour text)

def maskNationalId (value : String) : String :=
  String.ofList (value.toList.take 4 ++ "**********".toList ++ lastFour value.toList)

def normalizeOptional : Option String → Option String
  | none => none
  | some s => if stripText isPySpace s = "" then none else some (stripText isPySpace s)

/-- `^\d{17}[\dXx]$` -/
def matchesNationalId (s : String) : Bool :=
  let cs := beforeNewline s.toList
  cs.length = 18 && (cs.take 17).all (isDigit lib) &&
    (cs.drop 17).all fun c => isDigit lib c || c = 'X' || c = 'x'

def nationalIdWeights : List ℕ := [7, 9, 10, 5, 8, 4, 2, 1, 6, 3, 7, 9, 10, 5, 8, 4, 2]
def nationalIdChecks : List Char := "10X98765432".toList

def daysInMonth (year month : ℕ) : ℕ :=
  if month = 2 then
    if (year % 4 = 0 && year % 100 ≠ 0) || year % 400 = 0 then 29 else 28
  else if month = 4 || month = 6 || month = 9 || month = 11 then 30
  else if 1 ≤ month && month ≤ 12 then 31
  else 0

def digitsValue (cs : List Char) : ℕ := cs.foldl (fun n c => 10 * n + (lib.digit c).getD 0) 0

/-- `strptime` with `%Y%m%d`, on eight digits: the month and the first digit of the day are ASCII. -/
def isDate (cs : List Char) : Bool :=
  match cs with
  | [y, e, a, r, m, n, d, k] =>
    let month := (m = '1' && '0' ≤ n && n ≤ '2') || (m = '0' && '1' ≤ n && n ≤ '9')
    let day := (d = '3' && (k = '0' || k = '1')) || ((d = '1' || d = '2') && isDigit lib k) ||
      (d = '0' && '1' ≤ k && k ≤ '9')
    let year := digitsValue lib [y, e, a, r]
    month && day && 1 ≤ year && digitsValue lib [d, k] ≤ daysInMonth year (digitsValue lib [m, n])
  | _ => false

def validateNationalId (value : Option String) : Result (Option String) :=
  match normalizeOptional value with
  | none => pure none
  | some stripped => do
    let text := lib.upper stripped
    require (matchesNationalId lib text) (unprocessable "INVALID_NATIONAL_ID" "身份证号格式无效")
    let digits := (text.toList.take 17).map fun c => (lib.digit c).getD 0
    require (isDate lib ((text.toList.drop 6).take 8))
      (unprocessable "INVALID_NATIONAL_ID" "身份证号出生日期无效")
    let checksum := (List.zipWith (· * ·) digits nationalIdWeights).sum
    require (text.toList.getLast? = nationalIdChecks[checksum % 11]?)
      (unprocessable "INVALID_NATIONAL_ID" "身份证号校验位无效")
    pure (some text)

structure ContactValues where
  fullName : String
  mobile : String
  nationalId : Option String
  emergencyName : Option String
  emergencyMobile : Option String
  emergencyRelation : Option String
  rescueNotes : Option String
  consentAt : Time

/-- The name and the mobile of an emergency contact come together. -/
def emergencyValues : Option EmergencyContactInput →
    Result (Option String × Option String × Option String)
  | none => pure (none, none, none)
  | some emergency =>
    let name := normalizeOptional (emergency.name.map (·.val))
    let mobile := normalizeOptional (emergency.mobile.map (·.val))
    let relation := normalizeOptional (emergency.relation.map (·.val))
    if name = none ∧ mobile = none ∧ relation = none then pure (none, none, none)
    else match name, mobile with
      | some name, some mobile => do
        let mobile ← normalizeMobile lib mobile
        pure (some name, some mobile, relation)
      | _, _ => throw
          (unprocessable "INCOMPLETE_EMERGENCY_CONTACT" "紧急联系人姓名和手机号必须同时提供")

def validateValues (now : Time) (fullName mobile : String) (consentAt : Option Time)
    (additional : Option ReporterAdditionalInfo) : Result ContactValues := do
  let fullName := stripText isPySpace fullName
  require (fullName ≠ "") (unprocessable "REPORTER_NAME_REQUIRED" "上报人姓名必填")
  let mobile ← normalizeMobile lib mobile
  let nationalId ← validateNationalId lib (additional.bind fun a => a.nationalId.map (·.val))
  let (name, phone, relation) ← emergencyValues lib (additional.bind (·.emergencyContact))
  pure
    { fullName := fullName
      mobile := mobile
      nationalId := nationalId
      emergencyName := name
      emergencyMobile := phone
      emergencyRelation := relation
      rescueNotes := normalizeOptional (additional.bind fun a => a.rescueNotes.map (·.val))
      consentAt := consentAt.getD now }

end Values

/-! ## The stored rows -/

/-- A row of `reporter_contacts`. -/
structure StoredContact where
  incidentId : Id
  residentDeviceId : Id
  fullNameCiphertext : String
  fullNameMasked : String
  mobileCiphertext : String
  mobileBlindIndex : String
  mobileMasked : String
  nationalIdCiphertext : Option String
  nationalIdBlindIndex : Option String
  nationalIdMasked : Option String
  emergencyNameCiphertext : Option String
  emergencyNameMasked : Option String
  emergencyMobileCiphertext : Option String
  emergencyMobileMasked : Option String
  emergencyRelationCiphertext : Option String
  emergencyRelationMasked : Option String
  rescueNotesCiphertext : Option String
  encryptionKeyVersion : String
  consentAt : Time
  retentionUntil : Time
  legalHold : Bool
  anonymizedAt : Option Time

structure PiiSettings where
  encryptionKeyVersion : String
  retentionDaysAfterIncident : ℤ
  businessRetentionDays : ℤ
  revealMockMfaCode : String

section Cipher
variable (lib : PiiLib)

def aad (incidentId deviceId : Id) (field keyVersion : String) : Bytes :=
  lib.utf8.encode (lib.idText incidentId ++ ":" ++ lib.idText deviceId ++ ":" ++ field ++ ":" ++ keyVersion)

def encrypt (settings : PiiSettings) (nonce : Bytes) (incidentId deviceId : Id) (field value : String) :
    String :=
  let token := (lib.aes nonce (aad lib incidentId deviceId field settings.encryptionKeyVersion)).encode
    (lib.utf8.encode value)
  Base64.encode (lib.utf8.encode (lib.json.encode (Base64.encode nonce, Base64.encode token)))

/-- `none` where the service raises. -/
def decrypt (incidentId deviceId : Id) (field keyVersion value : String) : Option String := do
  let text ← (Base64.decode value).bind lib.utf8.decode
  let payload ← lib.json.decode text
  let nonce ← Base64.decode payload.1
  let ciphertext ← Base64.decode payload.2
  let plaintext ← (lib.aes nonce (aad lib incidentId deviceId field keyVersion)).decode ciphertext
  lib.utf8.decode plaintext

theorem decrypt_encrypt (settings : PiiSettings) (nonce : Bytes) (incidentId deviceId : Id)
    (field value : String) : decrypt lib incidentId deviceId field settings.encryptionKeyVersion
      (encrypt lib settings nonce incidentId deviceId field value) = some value := by
  have hbase (bytes : Bytes) : Base64.decode (Base64.encode bytes) = some bytes :=
    Base64.codec.decode_encode bytes
  simp only [decrypt, encrypt, hbase, Codec.decode_encode, Option.bind_some, Option.bind_eq_bind]

def retentionUntil (settings : PiiSettings) (now : Time) (closedAt : Option Time) : Time :=
  closedAt.getD now + days settings.retentionDaysAfterIncident

/-- The nonces of the columns are drawn at random. -/
def buildContact (settings : PiiSettings) (now : Time) (nonces : String → Bytes) (incidentId : Id)
    (closedAt : Option Time) (deviceId : Id) (values : ContactValues) : StoredContact :=
  let sealed (field : String) := encrypt lib settings (nonces field) incidentId deviceId field
  { incidentId := incidentId
    residentDeviceId := deviceId
    fullNameCiphertext := sealed "full_name" values.fullName
    fullNameMasked := maskName values.fullName
    mobileCiphertext := sealed "mobile" values.mobile
    mobileBlindIndex := lib.hmac values.mobile
    mobileMasked := maskMobile values.mobile
    nationalIdCiphertext := values.nationalId.map (sealed "national_id")
    nationalIdBlindIndex := values.nationalId.map lib.hmac
    nationalIdMasked := values.nationalId.map maskNationalId
    emergencyNameCiphertext := values.emergencyName.map (sealed "emergency_name")
    emergencyNameMasked := values.emergencyName.map maskName
    emergencyMobileCiphertext := values.emergencyMobile.map (sealed "emergency_mobile")
    emergencyMobileMasked := values.emergencyMobile.map maskMobile
    emergencyRelationCiphertext := values.emergencyRelation.map (sealed "emergency_relation")
    emergencyRelationMasked := values.emergencyRelation
    rescueNotesCiphertext := values.rescueNotes.map (sealed "rescue_notes")
    encryptionKeyVersion := settings.encryptionKeyVersion
    consentAt := values.consentAt
    retentionUntil := retentionUntil settings now closedAt
    legalHold := false
    anonymizedAt := none }

def createReporterContact (settings : PiiSettings) (now : Time) (nonces : String → Bytes)
    (incidentId : Id) (closedAt : Option Time) (deviceId : Id) (reporter : ReporterInput) :
    Result StoredContact := do
  let values ← validateValues lib now reporter.fullName.val reporter.mobile.val reporter.consentAt
    reporter.additionalInfo
  pure (buildContact lib settings now nonces incidentId closedAt deviceId values)

structure PlainContact where
  fullName : Option String
  mobile : Option String
  nationalId : Option String
  emergencyName : Option String
  emergencyMobile : Option String
  emergencyRelation : Option String
  rescueNotes : Option String

def StoredContact.decryptField (c : StoredContact) (field : String) : Option String → Result (Option String)
  | none => pure none
  | some value => do
    let plain ← found (decrypt lib c.incidentId c.residentDeviceId field c.encryptionKeyVersion value)
      internalError
    pure (some plain)

def plainContact (c : StoredContact) : Result PlainContact := do
  let fullName ← c.decryptField lib "full_name" (some c.fullNameCiphertext)
  let mobile ← c.decryptField lib "mobile" (some c.mobileCiphertext)
  let nationalId ← c.decryptField lib "national_id" c.nationalIdCiphertext
  let emergencyName ← c.decryptField lib "emergency_name" c.emergencyNameCiphertext
  let emergencyMobile ← c.decryptField lib "emergency_mobile" c.emergencyMobileCiphertext
  let emergencyRelation ← c.decryptField lib "emergency_relation" c.emergencyRelationCiphertext
  let rescueNotes ← c.decryptField lib "rescue_notes" c.rescueNotesCiphertext
  pure ⟨fullName, mobile, nationalId, emergencyName, emergencyMobile, emergencyRelation, rescueNotes⟩

def PlainContact.emergency (p : PlainContact) : Option RawEmergency :=
  if p.emergencyName = none ∧ p.emergencyMobile = none ∧ p.emergencyRelation = none then none
  else some ⟨p.emergencyName, p.emergencyMobile, p.emergencyRelation⟩

/-- When nothing was sent, the stored texts go through the schema again. -/
def ReporterPatchInput.additional (patch : ReporterPatchInput) (plain : PlainContact) :
    Result (Option ReporterAdditionalInfo) :=
  match patch.additionalInfo with
  | some additional => pure additional
  | none => do
    let rebuilt ← found
      (ReporterAdditionalInfo.parse plain.nationalId plain.emergency plain.rescueNotes) internalError
    pure (some rebuilt)

def updateReporterContact (settings : PiiSettings) (now : Time) (nonces : String → Bytes)
    (incidentId : Id) (closedAt : Option Time) (previous : StoredContact) (patch : ReporterPatchInput) :
    Result StoredContact := do
  let plain ← plainContact lib previous
  let required := unprocessable "REPORTER_CONTACT_REQUIRED" "上报人姓名和手机号必填"
  let fullName ← found ((patch.fullName.join.map (·.val)) <|> plain.fullName) required
  let mobile ← found ((patch.mobile.join.map (·.val)) <|> plain.mobile) required
  let additional ← patch.additional plain
  let values ← validateValues lib now fullName mobile patch.consentAt additional
  pure (buildContact lib settings now nonces incidentId closedAt previous.residentDeviceId values)

def serializeContactMasked (c : StoredContact) : Dict :=
  [("full_name_masked", .str c.fullNameMasked), ("mobile_masked", .str c.mobileMasked),
    ("has_national_id", .bool (c.nationalIdCiphertext.any (· ≠ ""))),
    ("emergency_contact",
      if c.emergencyNameCiphertext.any (· ≠ "") then
        .obj [("name_masked", .opt .str c.emergencyNameMasked),
          ("mobile_masked", .opt .str c.emergencyMobileMasked),
          ("relation_masked", .opt .str c.emergencyRelationMasked)]
      else .null),
    ("has_rescue_notes", .bool (c.rescueNotesCiphertext.any (· ≠ "")))]

def serializeContactPlain (c : StoredContact) : Result Dict := do
  let plain ← plainContact lib c
  let emergency : Json :=
    if plain.emergencyName = none ∧ plain.emergencyMobile = none then .null
    else .obj [("name", .opt .str plain.emergencyName), ("mobile", .opt .str plain.emergencyMobile),
      ("relation", .opt .str plain.emergencyRelation)]
  pure [("full_name", .opt .str plain.fullName), ("mobile", .opt .str plain.mobile),
    ("additional_info", .obj [("national_id", .opt .str plain.nationalId),
      ("emergency_contact", emergency), ("rescue_notes", .opt .str plain.rescueNotes)])]

end Cipher

def authorizeReveal (settings : PiiSettings) (actor : Actor) (mfaCode : String) : Result Unit := do
  require (actor.role = .admin)
    (forbidden "REPORTER_PII_READ_REQUIRED" "缺少 reporter.pii.read 权限")
  require (mfaCode = settings.revealMockMfaCode) (forbidden "MFA_REQUIRED" "明文读取需要通过二次认证")

end CrisisMosaic
