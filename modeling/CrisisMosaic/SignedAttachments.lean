import Mathlib.Data.List.DropRight
import CrisisMosaic.Reachable
import CrisisMosaic.Storage.Tokens

/-!
# Signed links to attachments

A link holds its deadline and a signature over the identifier, the resource and the deadline. All
three can be read off what is signed, whatever the identifier is, so that a signature is good for
one attachment, one resource and one deadline.
-/

namespace CrisisMosaic
open Storage

/-- `hmac.new(key, message, hashlib.sha256).hexdigest()` -/
abbrev Hmac := List (Fin 256) → List (Fin 256) → String

structure DownloadSettings where
  apiPrefix : String
  uploadSigningSecret : String
  signedDownloadMinutes : ℤ

/-- A call of `sign_local_attachment_url`, and when it is made. -/
structure SignCall where
  now : Time
  attachmentId : String
  resource : String
  expiresAt : Option ℤ

def localResources : List String := ["content", "thumbnail"]

def signedPayload (attachmentId resource expiresAt : String) : String :=
  "local-proxy:v1:" ++ attachmentId ++ ":" ++ resource ++ ":" ++ expiresAt

/-- `int(t.timestamp())` cuts off the fraction of a second. -/
def timestamp (t : Time) : ℤ := t.tdiv 1000000

/-- `s.rstrip("/")` -/
def rstripSlash (s : String) : String := String.ofList (s.toList.rdropWhile (· = '/'))

section Signing
variable (hmac : Hmac) (settings : DownloadSettings)

def localAttachmentSignature (attachmentId resource expiresAt : String) : String :=
  hmac (utf8.encode settings.uploadSigningSecret)
    (utf8.encode (signedPayload attachmentId resource expiresAt))

def SignCall.deadline (call : SignCall) : ℤ :=
  match call.expiresAt with
  | some deadline => deadline
  | none => timestamp (call.now + minutes settings.signedDownloadMinutes)

def signedUrl (deadlineText signature attachmentId resource : String) : String :=
  rstripSlash settings.apiPrefix ++ "/uploads/signed/" ++ deadlineText ++ "/" ++ signature ++ "/" ++
    attachmentId ++ "/" ++ resource

def signLocalAttachmentUrl (call : SignCall) : Except String String :=
  if call.resource ∉ localResources then .error "unsupported local attachment resource"
  else
    let deadlineText := toString (call.deadline settings)
    let signature := localAttachmentSignature hmac settings call.attachmentId call.resource deadlineText
    .ok (signedUrl settings deadlineText signature call.attachmentId call.resource)

end Signing

section Verifying
variable (text : TextLib) (hmac : Hmac) (settings : DownloadSettings)

/-- `expires_at.isascii() and expires_at.isdecimal() and len(expires_at) <= 12` -/
def validDeadline (expiresAt : String) : Bool :=
  expiresAt.toList.all (·.toNat < 128) && (!expiresAt.isEmpty && expiresAt.toList.all text.isDecimal) &&
    expiresAt.length ≤ 12

def verifyLocalAttachmentUrl (now : Time) (attachmentId resource expiresAt signature : String) : Bool :=
  let signingDeadline := if validDeadline text expiresAt then expiresAt else "0"
  let expected := localAttachmentSignature hmac settings attachmentId resource signingDeadline
  let signatureMatches : Bool := utf8.encode signature = utf8.encode expected
  if !validDeadline text expiresAt then false
  else signatureMatches && timestamp now < Decimal.value expiresAt

end Verifying

section Issued
variable (hmac : Hmac) (settings : DownloadSettings) (calls : List SignCall)

/-- One of the calls returned the link with the signature. -/
def Produced (attachmentId resource : String) (deadline : ℤ) (signature : String) : Prop :=
  ∃ call ∈ calls, call.attachmentId = attachmentId ∧ call.resource = resource ∧
    call.deadline settings = deadline ∧
    signLocalAttachmentUrl hmac settings call =
      .ok (signedUrl settings (toString deadline) signature attachmentId resource)

/-- The messages that the calls computed a signature of. -/
def signedMessages : List (List (Fin 256)) :=
  (calls.filter (·.resource ∈ localResources)).map fun call =>
    utf8.encode (signedPayload call.attachmentId call.resource (toString (call.deadline settings)))

/-- Who presents a signature of a message has it from one of the calls. -/
def Unforged (message : List (Fin 256)) (signature : String) : Prop :=
  hmac (utf8.encode settings.uploadSigningSecret) message = signature →
    message ∈ signedMessages settings calls

end Issued

/-- What a signature is made over: the deadline is one that the service writes, or one that it
accepts to read. -/
structure SignedParts (text : TextLib) where
  attachmentId : String
  resource : String
  deadline : String
  supported : resource ∈ localResources
  deadlineText : (∃ n : ℤ, deadline = toString n) ∨ validDeadline text deadline = true

def SignedParts.message {text : TextLib} (p : SignedParts text) : List (Fin 256) :=
  utf8.encode (signedPayload p.attachmentId p.resource p.deadline)

theorem utf8_inj {s t : String} (h : utf8.encode s = utf8.encode t) : s = t := by
  have hdecoded := congrArg utf8.decode h
  rw [utf8.decode_encode, utf8.decode_encode] at hdecoded
  exact Option.some.inj hdecoded

theorem toList_signedPayload (attachmentId resource expiresAt : String) :
    (signedPayload attachmentId resource expiresAt).toList =
      ("local-proxy:v1:".toList ++ attachmentId.toList ++ ':' :: resource.toList) ++
        ':' :: expiresAt.toList := by
  unfold signedPayload
  generalize "local-proxy:v1:" = start
  have hcolon : ":".toList = [':'] := rfl
  rw [String.toList_append, String.toList_append, String.toList_append, String.toList_append,
    String.toList_append, hcolon]
  simp only [List.append_assoc, List.singleton_append]

theorem resource_colon {resource : String} (h : resource ∈ localResources) : ':' ∉ resource.toList := by
  simp only [localResources, List.mem_cons, List.not_mem_nil, or_false] at h
  rcases h with rfl | rfl <;> decide

section Deadlines
variable {text : TextLib} {s : String}

theorem validDeadline_iff : validDeadline text s = true ↔
    (∀ c ∈ s.toList, c.toNat < 128 ∧ text.isDecimal c = true) ∧ s ≠ "" ∧ s.length ≤ 12 := by
  simp only [validDeadline, Bool.and_eq_true, List.all_eq_true, decide_eq_true_eq, Bool.not_eq_true']
  rw [← Bool.not_eq_true, String.isEmpty_iff]
  constructor
  · rintro ⟨⟨hascii, hne, hdecimal⟩, hlength⟩
    exact ⟨fun c hc => ⟨hascii c hc, hdecimal c hc⟩, hne, hlength⟩
  · rintro ⟨hchars, hne, hlength⟩
    exact ⟨⟨fun c hc => (hchars c hc).1, hne, fun c hc => (hchars c hc).2⟩, hlength⟩

theorem digit_ascii {c : Char} (h : c.isDigit = true) : c.toNat < 128 := by
  have hbounds := Char.isDigit_iff_toNat.mp h
  exact lt_of_le_of_lt hbounds.2 (by decide)

variable (hascii : ∀ c : Char, c.toNat < 128 → text.isDecimal c = c.isDigit)
include hascii

theorem digits_of_valid (h : validDeadline text s = true) : ∀ c ∈ s.toList, c.isDigit = true := by
  intro c hc
  obtain ⟨hsmall, hdecimal⟩ := (validDeadline_iff.mp h).1 c hc
  exact (hascii c hsmall).symm.trans hdecimal

theorem valid_toString (n : ℕ) (hlength : (toString (n : ℤ)).length ≤ 12) :
    validDeadline text (toString (n : ℤ)) = true := by
  refine validDeadline_iff.mpr ⟨fun c hc => ?_, Decimal.toString_ne_empty n, hlength⟩
  have hdigit := Decimal.isDigit_of_mem hc
  exact ⟨digit_ascii hdigit, (hascii c (digit_ascii hdigit)).trans hdigit⟩

theorem SignedParts.deadline_colon (p : SignedParts text) : ':' ∉ p.deadline.toList := by
  intro hcolon
  rcases p.deadlineText with ⟨n, hn⟩ | hvalid
  · rw [hn] at hcolon
    rcases Decimal.mem_toString hcolon with hsign | hdigit
    · exact absurd hsign (by decide)
    · exact absurd hdigit (by decide)
  · exact absurd (digits_of_valid hascii hvalid _ hcolon) (by decide)

/-- The last two separators are where the resource and the deadline begin. -/
theorem message_injective : Function.Injective (SignedParts.message : SignedParts text → _) := by
  intro p q h
  have htext : signedPayload p.attachmentId p.resource p.deadline =
      signedPayload q.attachmentId q.resource q.deadline := utf8_inj h
  have hlists := congrArg String.toList htext
  rw [toList_signedPayload, toList_signedPayload] at hlists
  obtain ⟨hfront, hdeadline⟩ :=
    append_separator_inj (p.deadline_colon hascii) (q.deadline_colon hascii) hlists
  obtain ⟨hid, hresource⟩ :=
    append_separator_inj (resource_colon p.supported) (resource_colon q.supported) hfront
  cases p
  cases q
  rw [SignedParts.mk.injEq]
  exact ⟨String.toList_inj.mp (List.append_cancel_left hid), String.toList_inj.mp hresource,
    String.toList_inj.mp hdeadline⟩

end Deadlines

section Links
variable {text : TextLib} {hmac : Hmac} {settings : DownloadSettings} {calls : List SignCall} {now : Time}
  {attachmentId resource expiresAt signature : String} {deadline : ℤ}

theorem timestamp_lt (hnow : 0 ≤ now) : timestamp now < deadline ↔ now < deadline * 1000000 := by
  rw [timestamp, Int.tdiv_eq_ediv_of_nonneg hnow]
  exact Int.ediv_lt_iff_lt_mul (by decide)

theorem signedUrl_inj {other : String}
    (h : signedUrl settings expiresAt signature attachmentId resource =
      signedUrl settings expiresAt other attachmentId resource) : signature = other := by
  have hlists := congrArg String.toList h
  simp only [signedUrl, String.toList_append, List.append_assoc, List.append_cancel_left_eq] at hlists
  exact String.toList_inj.mp (List.append_cancel_right hlists)

theorem produced_iff : Produced hmac settings calls attachmentId resource deadline signature ↔
    resource ∈ localResources ∧
      signature = localAttachmentSignature hmac settings attachmentId resource (toString deadline) ∧
      ∃ call ∈ calls, call.attachmentId = attachmentId ∧ call.resource = resource ∧
        call.deadline settings = deadline := by
  constructor
  · rintro ⟨call, hcall, rfl, rfl, rfl, hok⟩
    by_cases hresource : call.resource ∈ localResources
    · rw [signLocalAttachmentUrl, if_neg (not_not_intro hresource)] at hok
      exact ⟨hresource, (signedUrl_inj (Except.ok.inj hok)).symm, call, hcall, rfl, rfl, rfl⟩
    · rw [signLocalAttachmentUrl, if_pos hresource] at hok
      exact nomatch hok
  · rintro ⟨hresource, rfl, call, hcall, rfl, rfl, rfl⟩
    refine ⟨call, hcall, rfl, rfl, rfl, ?_⟩
    rw [signLocalAttachmentUrl, if_neg (not_not_intro hresource)]

theorem verify_iff :
    verifyLocalAttachmentUrl text hmac settings now attachmentId resource expiresAt signature = true ↔
      validDeadline text expiresAt = true ∧
        signature = localAttachmentSignature hmac settings attachmentId resource expiresAt ∧
        timestamp now < Decimal.value expiresAt := by
  unfold verifyLocalAttachmentUrl
  by_cases hvalid : validDeadline text expiresAt = true
  · simp only [hvalid, Bool.not_true, Bool.false_eq_true, if_false, if_true, Bool.and_eq_true,
      decide_eq_true_eq, true_and]
    exact and_congr_left' ⟨utf8_inj, fun h => congrArg utf8.encode h⟩
  · simp [hvalid]

/-- A message that a call signed is of the parts of that call. -/
theorem call_of_signed (hascii : ∀ c : Char, c.toNat < 128 → text.isDecimal c = c.isDigit)
    (hresource : resource ∈ localResources) (hvalid : validDeadline text expiresAt = true)
    (h : utf8.encode (signedPayload attachmentId resource expiresAt) ∈ signedMessages settings calls) :
    ∃ call ∈ calls, call.attachmentId = attachmentId ∧ call.resource = resource ∧
      toString (call.deadline settings) = expiresAt := by
  obtain ⟨call, hcall, hmessage⟩ := List.mem_map.mp h
  obtain ⟨hmem, hsupported⟩ := List.mem_filter.mp hcall
  have hsame : (⟨call.attachmentId, call.resource, _, of_decide_eq_true hsupported, Or.inl ⟨_, rfl⟩⟩ :
      SignedParts text).message =
      (⟨attachmentId, resource, expiresAt, hresource, Or.inr hvalid⟩ : SignedParts text).message := hmessage
  have hparts := message_injective hascii hsame
  rw [SignedParts.mk.injEq] at hparts
  exact ⟨call, hmem, hparts⟩

/-- A presented link is accepted exactly when a call made it, and before its deadline; and no two
different triples are signed over the same bytes. -/
theorem signed_link_accepted_iff (hmac : Hmac) (settings : DownloadSettings) (calls : List SignCall)
    (hascii : ∀ c : Char, c.toNat < 128 → text.isDecimal c = c.isDigit) (hnow : 0 ≤ now)
    (attachmentId expiresAt signature : String) (hresource : resource ∈ localResources)
    (hunforged : Unforged hmac settings calls
      (utf8.encode (signedPayload attachmentId resource expiresAt)) signature) :
    (verifyLocalAttachmentUrl text hmac settings now attachmentId resource expiresAt signature = true ↔
      expiresAt.length ≤ 12 ∧ ∃ deadline : ℤ, toString deadline = expiresAt ∧
        Produced hmac settings calls attachmentId resource deadline signature ∧
        now < deadline * 1000000) ∧
    Function.Injective (SignedParts.message : SignedParts text → List (Fin 256)) := by
  refine ⟨verify_iff.trans ⟨?_, ?_⟩, message_injective hascii⟩
  · rintro ⟨hvalid, hsignature, htime⟩
    obtain ⟨call, hcall, hid, hres, htext⟩ :=
      call_of_signed hascii hresource hvalid (hunforged hsignature.symm)
    refine ⟨(validDeadline_iff.mp hvalid).2.2, call.deadline settings, htext, ?_, ?_⟩
    · exact produced_iff.mpr ⟨hresource, htext ▸ hsignature, call, hcall, hid, hres, rfl⟩
    · have hnonneg : 0 ≤ call.deadline settings :=
        Decimal.nonneg_of_digits (htext ▸ digits_of_valid hascii hvalid)
      obtain ⟨n, hn⟩ := Int.eq_ofNat_of_zero_le hnonneg
      rw [← htext, hn, Decimal.value_toString] at htime
      rw [hn]
      exact (timestamp_lt hnow).mp htime
  · rintro ⟨hlength, deadline, rfl, hproduced, htime⟩
    have hnonneg : 0 ≤ deadline := by
      by_contra hneg
      linarith
    obtain ⟨n, rfl⟩ := Int.eq_ofNat_of_zero_le hnonneg
    refine ⟨valid_toString hascii n hlength, (produced_iff.mp hproduced).2.1, ?_⟩
    rw [Decimal.value_toString]
    exact (timestamp_lt hnow).mpr htime

end Links

namespace Sample

def downloads : DownloadSettings := ⟨"/api/v1", "development-upload-signing-secret", 10⟩

/-- What it is for the secret and two messages. No other text has the same. -/
def downloadDigest (message : String) : String :=
  if message = "local-proxy:v1:attachment-1:content:60" then
    "02dfa8c25ef7d3923856d5bb115ed5900fee2ff5ca472226a441e406e9c925a9"
  else if message = "local-proxy:v1:a:b:content:60" then
    "155870a9be8443e4cd44dad003234b3aa06f76e4a4688624f45a7d906ea315a2"
  else "?" ++ message

def downloadHmac : Hmac := fun _ message => (Storage.utf8.decode message).elim "" downloadDigest

def contentCall (attachmentId : String) : SignCall := ⟨0, attachmentId, "content", some 60⟩

end Sample


theorem content_link_is_accepted :
    verifyLocalAttachmentUrl Sample.text Sample.downloadHmac Sample.downloads 59999999 "attachment-1"
      "content" "60" "02dfa8c25ef7d3923856d5bb115ed5900fee2ff5ca472226a441e406e9c925a9" = true := by
  have hdigest : "02dfa8c25ef7d3923856d5bb115ed5900fee2ff5ca472226a441e406e9c925a9" =
      localAttachmentSignature Sample.downloadHmac Sample.downloads "attachment-1" "content" "60" := by
    rw [localAttachmentSignature, Sample.downloadHmac, utf8.decode_encode]
    decide +kernel
  have hsigned : Unforged Sample.downloadHmac Sample.downloads [Sample.contentCall "attachment-1"]
      (utf8.encode (signedPayload "attachment-1" "content" "60"))
      "02dfa8c25ef7d3923856d5bb115ed5900fee2ff5ca472226a441e406e9c925a9" :=
    fun _ => List.mem_singleton_self _
  have hproduced : Produced Sample.downloadHmac Sample.downloads [Sample.contentCall "attachment-1"]
      "attachment-1" "content" 60 "02dfa8c25ef7d3923856d5bb115ed5900fee2ff5ca472226a441e406e9c925a9" :=
    produced_iff.mpr ⟨by decide, hdigest, _, List.mem_singleton_self _, rfl, rfl, rfl⟩
  exact (signed_link_accepted_iff Sample.downloadHmac Sample.downloads [Sample.contentCall "attachment-1"]
    (fun _ _ => rfl) (by decide) "attachment-1" "60" _ (by decide) hsigned).1.mpr
      ⟨by decide, 60, rfl, hproduced, by decide⟩

/-- The link to the content of "a:b" is taken for one to the resource "b:content" of "a". -/
theorem other_resource_is_accepted :
    Unforged Sample.downloadHmac Sample.downloads [Sample.contentCall "a:b"]
      (utf8.encode (signedPayload "a" "b:content" "60"))
      "155870a9be8443e4cd44dad003234b3aa06f76e4a4688624f45a7d906ea315a2" ∧
    verifyLocalAttachmentUrl Sample.text Sample.downloadHmac Sample.downloads 0 "a" "b:content" "60"
      "155870a9be8443e4cd44dad003234b3aa06f76e4a4688624f45a7d906ea315a2" = true ∧
    ¬ ∃ deadline : ℤ, toString deadline = "60" ∧
      Produced Sample.downloadHmac Sample.downloads [Sample.contentCall "a:b"] "a" "b:content" deadline
        "155870a9be8443e4cd44dad003234b3aa06f76e4a4688624f45a7d906ea315a2" := by
  refine ⟨fun _ => ?_, verify_iff.mpr ⟨by decide +kernel, ?_, by decide +kernel⟩, ?_⟩
  · have hsame : signedPayload "a" "b:content" "60" = signedPayload "a:b" "content" "60" := by
      decide +kernel
    rw [hsame]
    exact List.mem_singleton_self _
  · rw [localAttachmentSignature, Sample.downloadHmac, utf8.decode_encode]
    decide +kernel
  · rintro ⟨deadline, -, hproduced⟩
    exact absurd (produced_iff.mp hproduced).1 (by decide)

end CrisisMosaic
