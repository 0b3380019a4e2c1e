import CrisisMosaic.ContactNumbers
import CrisisMosaic.ReadableContacts

/-!
# Edits of a contact

An edit writes the whole contact anew: what the request leaves out is decrypted, and goes through the
schema and the normalisation once more.
-/

namespace CrisisMosaic
open Relational

/-! ## Texts that are normalised again -/

section Texts
variable {lib : PiiLib} {upperChar : Char → List Char}

theorem stripText_idem (s : String) :
    stripText isPySpace (stripText isPySpace s) = stripText isPySpace s := by
  unfold stripText
  rw [String.toList_ofList]
  apply congrArg String.ofList
  apply stripChars_eq_self
  · exact fun c hc => stripChars_head _ c hc
  · exact fun c hc => stripChars_last _ c hc

/-- There is nothing to strip from the text, and something left. -/
def Trimmed (o : Option String) : Prop := ∀ s ∈ o, stripText isPySpace s = s ∧ s ≠ ""

theorem normalizeOptional_trimmed (o : Option String) : Trimmed (normalizeOptional o) := by
  intro s hs
  cases o with
  | none => cases hs
  | some value =>
    rw [normalizeOptional] at hs
    split_ifs at hs with hblank
    · cases hs
    · obtain rfl := Option.some.inj hs
      exact ⟨stripText_idem value, hblank⟩

theorem normalizeOptional_eq {s : String} (h : stripText isPySpace s = s) (hne : s ≠ "") :
    normalizeOptional (some s) = some s := by
  rw [normalizeOptional, h, if_neg hne]

theorem Bounded.parse_val {low high : ℕ} {s : String} {b : Bounded low high}
    (h : Bounded.parse low high s = some b) : b.val = stripText isWhite s := by
  unfold Bounded.parse at h
  dsimp only at h
  split_ifs at h
  exact (congrArg Subtype.val (Option.some.inj h)).symm

theorem Bounded.parseOptional_val {low high : ℕ} {o : Option String} {b : Option (Bounded low high)}
    (h : Bounded.parseOptional low high o = some b) : b.map (·.val) = o.map (stripText isWhite) := by
  cases o with
  | none =>
    obtain rfl := Option.some.inj h
    rfl
  | some s =>
    obtain ⟨b', hb, rfl⟩ := Option.map_eq_some_iff.mp h
    exact congrArg some (Bounded.parse_val hb)

/-- A trimmed text that goes through the schema stays as it is. -/
theorem Trimmed.reparse {low high : ℕ} {o : Option String} (h : Trimmed o) {b : Option (Bounded low high)}
    (hparse : Bounded.parseOptional low high o = some b) : normalizeOptional (b.map (·.val)) = o := by
  rw [Bounded.parseOptional_val hparse]
  cases o with
  | none => rfl
  | some s =>
    obtain ⟨hstrip, hne⟩ := h s rfl
    have hwhite : stripText isWhite s = s := by
      rw [← hstrip, stripText_stripped]
    rw [Option.map_some, hwhite, normalizeOptional_eq hstrip hne]

/-- The text without a line break at its end. -/
def withoutNewline (s : String) : String := String.ofList (beforeNewline s.toList)

def EndsInNewline (s : String) : Prop := s.toList.getLast? = some '\n'

theorem withoutNewline_eq_self_iff {s : String} : withoutNewline s = s ↔ ¬ EndsInNewline s := by
  unfold withoutNewline EndsInNewline beforeNewline
  split_ifs with h
  · refine iff_of_false (fun heq => ?_) (not_not_intro h)
    have hlength := congrArg String.length heq
    rw [String.length_ofList, List.length_dropLast, String.length_toList] at hlength
    have hempty : s.toList = [] := by
      rw [← List.length_eq_zero_iff, String.length_toList]
      omega
    rw [hempty] at h
    exact nomatch h
  · exact iff_of_true (String.ofList_toList) h

/-- What the service makes of a mobile number it has normalised before, as it is and through the schema. -/
structure MobileAgain (lib : PiiLib) (out : String) : Prop where
  normalize : normalizeMobile lib out = .ok (withoutNewline out)
  white : stripText isWhite out = withoutNewline out
  strip : stripText isPySpace (withoutNewline out) = withoutNewline out
  settled : normalizeMobile lib (withoutNewline out) = .ok (withoutNewline out)

theorem normalizeMobile_again (hlib : lib.Documented upperChar) {value out : String}
    (h : normalizeMobile lib value = .ok out) : MobileAgain lib out := by
  obtain ⟨number, tail, hform, rfl⟩ := normalizeMobile_form h
  have hprefix (cs : List Char) : ("+86" ++ String.ofList cs).toList = ['+', '8', '6'] ++ cs := by
    simp only [String.toList_append, String.toList_ofList]
    rfl
  have hwithout : withoutNewline ("+86" ++ String.ofList (number ++ tail)) = "+86" ++ String.ofList number := by
    have hlast : number.getLast? ≠ some '\n' := fun hlast =>
      hform.newline_not_mem hlib (List.mem_of_getLast? hlast)
    have hne : number ≠ [] := List.ne_nil_of_length_eq_add_one hform.length_number
    apply String.toList_injective
    rw [withoutNewline, String.toList_ofList, hprefix, hprefix, beforeNewline]
    rcases hform.tail with rfl | rfl
    · rw [List.append_nil, if_neg]
      rw [List.getLast?_append_of_ne_nil _ hne]
      exact hlast
    · rw [← List.append_assoc, List.getLast?_concat, if_pos rfl, List.dropLast_concat]
  have hbare : MobileForm lib (number ++ []) number [] :=
    ⟨⟨[], by decide, rfl⟩, hform.number, Or.inl rfl⟩
  have hself := hbare.normalize hlib
  have hstrip := hbare.stripChars_eq hlib (p := isPySpace) (fun _ hc => hc) (by decide)
  rw [List.append_nil] at hself hstrip
  constructor
  · rw [hwithout]
    exact hform.normalize hlib
  · rw [hwithout, stripText, hform.stripChars_eq hlib (fun _ hc => isWhite_of_isPySpace hc) (by decide), ← hprefix number,
      String.ofList_toList]
  · rw [hwithout, stripText, hstrip, ← hprefix, String.ofList_toList]
  · rw [hwithout]
    exact hself

theorem validateNationalId_valid {value id : Option String} (h : validateNationalId lib value = .ok id) :
    ∀ text ∈ id, ValidNationalId lib text := by
  cases value with
  | none =>
    obtain rfl := pure_ok.mp h
    exact nofun
  | some value =>
    rcases validateNationalId_ok.mp h with ⟨-, rfl⟩ | ⟨-, hvalid, rfl⟩
    · exact nofun
    · intro text htext
      rw [← Option.some.inj htext]
      exact hvalid

/-- An identity number that goes through the schema is accepted as it is. -/
theorem validateNationalId_reparse (hlib : lib.Documented upperChar) {id : Option String}
    (h : ∀ text ∈ id, ValidNationalId lib text) {b : Option (Bounded 18 18)}
    (hparse : Bounded.parseOptional 18 18 id = some b) :
    validateNationalId lib (b.map (·.val)) = .ok id := by
  rw [Bounded.parseOptional_val hparse]
  cases id with
  | none => rfl
  | some text =>
    have hvalid := h text rfl
    have hwhite : stripText isWhite text = text := by
      rw [stripText, stripChars_eq_self, String.ofList_toList]
      · exact fun c hc => isWhite_of_isPySpace (hvalid.not_space hlib c (List.mem_of_mem_head? hc))
      · exact fun c hc => isWhite_of_isPySpace (hvalid.not_space hlib c (List.mem_of_getLast? hc))
    rw [Option.map_some, hwhite]
    exact hvalid.validate hlib

end Texts

/-! ## Additional information -/

structure AdditionalTexts where
  nationalId : Option String
  emergencyName : Option String
  emergencyMobile : Option String
  emergencyRelation : Option String
  rescueNotes : Option String

def PlainContact.additional (p : PlainContact) : AdditionalTexts :=
  ⟨p.nationalId, p.emergencyName, p.emergencyMobile, p.emergencyRelation, p.rescueNotes⟩

section Additional
variable {lib : PiiLib} {upperChar : Char → List Char}

variable (lib) in
/-- The additional information of a request in its normal form. -/
def normalizeAdditional (info : Option ReporterAdditionalInfo) : Result AdditionalTexts := do
  let nationalId ← validateNationalId lib (info.bind fun a => a.nationalId.map (·.val))
  let (name, phone, relation) ← emergencyValues lib (info.bind (·.emergencyContact))
  pure ⟨nationalId, name, phone, relation, normalizeOptional (info.bind fun a => a.rescueNotes.map (·.val))⟩

theorem validateValues_ok {now : Time} {fullName mobile : String} {consentAt : Option Time}
    {info : Option ReporterAdditionalInfo} {v : ContactValues} :
    validateValues lib now fullName mobile consentAt info = .ok v ↔
      stripText isPySpace fullName ≠ "" ∧ v.fullName = stripText isPySpace fullName ∧
        normalizeMobile lib mobile = .ok v.mobile ∧ normalizeAdditional lib info = .ok v.plain.additional ∧
          v.consentAt = consentAt.getD now := by
  simp only [validateValues, normalizeAdditional, bind_ok, require_ok, pure_ok]
  constructor
  · rintro ⟨-, hname, m, hm, id, hid, ⟨name, phone, relation⟩, hemergency, rfl⟩
    exact ⟨hname, rfl, hm, ⟨id, hid, (name, phone, relation), hemergency, rfl⟩, rfl⟩
  · rintro ⟨hname, hv, hm, ⟨id, hid, ⟨name, phone, relation⟩, hemergency, hadditional⟩, hconsent⟩
    refine ⟨(), hname, v.mobile, hm, id, hid, (name, phone, relation), hemergency, ?_⟩
    obtain ⟨fullName', mobile', id', name', phone', relation', notes', consent'⟩ := v
    obtain ⟨rfl, rfl, rfl, rfl, rfl⟩ := AdditionalTexts.mk.inj hadditional
    dsimp only at hv hconsent
    rw [hv, hconsent]

/-- What the service has made of an emergency contact. -/
inductive EmergencyForm (lib : PiiLib) : Option String → Option String → Option String → Prop
  | missing : EmergencyForm lib none none none
  | given {name mobile : String} {relation : Option String} (hname : Trimmed (some name))
      (hmobile : MobileAgain lib mobile) (hrelation : Trimmed relation) :
      EmergencyForm lib (some name) (some mobile) relation

theorem emergencyValues_form (hlib : lib.Documented upperChar) {emergency : Option EmergencyContactInput}
    {name mobile relation : Option String} (h : emergencyValues lib emergency = .ok (name, mobile, relation)) :
    EmergencyForm lib name mobile relation := by
  have hnone : (pure (none, none, none) : Result _) = .ok (name, mobile, relation) →
      EmergencyForm lib name mobile relation := by
    intro h
    cases h
    exact .missing
  unfold emergencyValues at h
  split at h
  · exact hnone h
  dsimp only at h
  split_ifs at h
  · exact hnone h
  · split at h
    · next n m hname _ =>
      simp only [bind_ok, pure_ok, Prod.mk.injEq] at h
      obtain ⟨m', hm, rfl, rfl, rfl⟩ := h
      refine .given ?_ (normalizeMobile_again hlib hm) (normalizeOptional_trimmed _)
      rw [← hname]
      exact normalizeOptional_trimmed _
    · exact absurd h throw_ok

/-- The mobile of an emergency contact loses a newline on the way through the schema. -/
theorem EmergencyForm.reparse {p : PlainContact}
    (h : EmergencyForm lib p.emergencyName p.emergencyMobile p.emergencyRelation)
    {e : Option EmergencyContactInput} (hparse : EmergencyContactInput.parseOptional p.emergency = some e) :
    emergencyValues lib e =
      .ok (p.emergencyName, p.emergencyMobile.map withoutNewline, p.emergencyRelation) := by
  obtain ⟨fullName, mobile, nationalId, name, phone, relation, notes⟩ := p
  dsimp only at h ⊢
  cases h with
  | missing =>
    obtain rfl := Option.some.inj hparse
    rfl
  | @given name phone _ hname hphone hrelation =>
    obtain ⟨e', he', rfl⟩ := Option.map_eq_some_iff.mp hparse
    simp only [EmergencyContactInput.parse, Option.bind_eq_bind, Option.bind_eq_some_iff,
      Option.some.injEq] at he'
    obtain ⟨n, hn, m, hm, r, hr, rfl⟩ := he'
    have hphoneBack : normalizeOptional (m.map (·.val)) = some (withoutNewline phone) := by
      rw [Bounded.parseOptional_val hm, Option.map_some, hphone.white]
      apply normalizeOptional_eq hphone.strip
      intro hempty
      have hsettled := hphone.settled
      rw [hempty] at hsettled
      cases hsettled
    rw [emergencyValues]
    dsimp only
    rw [hname.reparse hn, hphoneBack, hrelation.reparse hr, if_neg (fun hnone => by cases hnone.1)]
    dsimp only
    rw [hphone.settled]
    rfl

/-- The additional information of a stored contact loses a newline in the emergency mobile at most. -/
theorem normalizeAdditional_reparse (hlib : lib.Documented upperChar) {info : Option ReporterAdditionalInfo}
    {p : PlainContact} (h : normalizeAdditional lib info = .ok p.additional) {info' : ReporterAdditionalInfo}
    (hparse : ReporterAdditionalInfo.parse p.nationalId p.emergency p.rescueNotes = some info') :
    normalizeAdditional lib (some info') =
      .ok { p.additional with emergencyMobile := p.emergencyMobile.map withoutNewline } := by
  simp only [normalizeAdditional, bind_ok, pure_ok] at h
  obtain ⟨id, hid, ⟨name, phone, relation⟩, hemergency, hadditional⟩ := h
  obtain ⟨hpid, rfl, rfl, rfl, hnotes⟩ := AdditionalTexts.mk.inj hadditional
  simp only [ReporterAdditionalInfo.parse, Option.bind_eq_bind, Option.bind_eq_some_iff,
    Option.some.injEq] at hparse
  obtain ⟨i, hi, e, he, n, hn, rfl⟩ := hparse
  rw [hpid] at hid
  have hidBack := validateNationalId_reparse hlib (validateNationalId_valid hid) hi
  have hemergencyBack := (emergencyValues_form hlib hemergency).reparse he
  have htrimmed : Trimmed p.rescueNotes := by
    rw [← hnotes]
    exact normalizeOptional_trimmed _
  simp only [normalizeAdditional, Option.bind_some, hidBack, hemergencyBack, htrimmed.reparse hn]
  rfl

end Additional

/-! ## Stored contacts -/

section Stored
variable {lib : PiiLib} {upperChar : Char → List Char}

variable (lib) in
/-- The service has written the contact, under whatever settings, and no pass has anonymised it. -/
inductive StoredContact.Written : StoredContact → Prop
  | created {settings : PiiSettings} {now : Time} {nonces : String → Bytes} {id device : Id}
      {closedAt : Option Time} {reporter : ReporterInput} {c : StoredContact}
      (h : createReporterContact lib settings now nonces id closedAt device reporter = .ok c) : Written c
  | updated {settings : PiiSettings} {now : Time} {nonces : String → Bytes} {id : Id}
      {closedAt : Option Time} {patch : ReporterPatchInput} {previous c : StoredContact}
      (hprevious : Written previous)
      (h : updateReporterContact lib settings now nonces id closedAt previous patch = .ok c) : Written c
  | held {c : StoredContact} (h : Written c) (held : Bool) : Written { c with legalHold := held }

theorem updateReporterContact_ok {settings : PiiSettings} {now : Time} {nonces : String → Bytes} {id : Id}
    {closedAt : Option Time} {patch : ReporterPatchInput} {previous next : StoredContact} :
    updateReporterContact lib settings now nonces id closedAt previous patch = .ok next ↔
      ∃ plain fullName mobile info values, plainContact lib previous = .ok plain ∧
        ((patch.fullName.join.map (·.val)) <|> plain.fullName) = some fullName ∧
          ((patch.mobile.join.map (·.val)) <|> plain.mobile) = some mobile ∧
            patch.additional plain = .ok info ∧
              validateValues lib now fullName mobile patch.consentAt info = .ok values ∧
                next = buildContact lib settings now nonces id closedAt previous.residentDeviceId values := by
  simp only [updateReporterContact, bind_ok, found_ok, pure_ok]
  constructor
  · rintro ⟨plain, hplain, fullName, hname, mobile, hmobile, info, hinfo, values, hvalues, rfl⟩
    exact ⟨plain, fullName, mobile, info, values, hplain, hname, hmobile, hinfo, hvalues, rfl⟩
  · rintro ⟨plain, fullName, mobile, info, values, hplain, hname, hmobile, hinfo, hvalues, rfl⟩
    exact ⟨plain, hplain, fullName, hname, mobile, hmobile, info, hinfo, values, hvalues, rfl⟩

/-- A contact that was written holds validated values. -/
theorem StoredContact.Written.values {c : StoredContact} (h : c.Written lib) :
    ∃ now fullName mobile consentAt info values,
      validateValues lib now fullName mobile consentAt info = .ok values ∧
        plainContact lib c = .ok values.plain := by
  induction h with
  | created h =>
    simp only [createReporterContact, bind_ok, pure_ok] at h
    obtain ⟨values, hvalues, rfl⟩ := h
    exact ⟨_, _, _, _, _, values, hvalues, plainContact_build _ _ _ _ _ _ values⟩
  | updated _ h _ =>
    obtain ⟨_, fullName, mobile, info, values, -, -, -, -, hvalues, rfl⟩ := updateReporterContact_ok.mp h
    exact ⟨_, fullName, mobile, _, info, values, hvalues, plainContact_build _ _ _ _ _ _ values⟩
  | held _ _ ih => exact ih

/-- The contacts that are not anonymised were written, and the others are not decrypted any more. -/
def RetainedState.WritesContacts (env : RetentionEnv) (s : RetainedState) : Prop :=
  s.contacts.All fun _ c => (c.anonymizedAt = none → c.Written env.pii) ∧
    (c.anonymizedAt ≠ none → ∀ plain, plainContact env.pii c ≠ .ok plain)

theorem newContact_written {env : RetentionEnv} {s : RetainedState} (h : s.WritesContacts env) {op : Op}
    {fields : ReporterFields} {c : StoredContact} (hnew : s.newContact env op fields = some (.ok c)) :
    c.Written env.pii := by
  unfold RetainedState.newContact at hnew
  split at hnew
  · have hcreated := Option.some.inj hnew
    simp only [RetainedState.createdContact, bind_ok] at hcreated
    obtain ⟨_, -, hcreated⟩ := hcreated
    exact .created hcreated
  · split_ifs at hnew
    have hupdated := Option.some.inj hnew
    simp only [RetainedState.updatedContact, bind_ok, found_ok] at hupdated
    obtain ⟨r, -, previous, hprevious, hupdated⟩ := hupdated
    obtain ⟨plain, -, -, -, -, hplain, -⟩ := updateReporterContact_ok.mp hupdated
    obtain ⟨i, -, hget⟩ := Option.bind_eq_some_iff.mp hprevious
    obtain ⟨hwritten, hsealed⟩ := h i previous hget
    have hlive : previous.anonymizedAt = none := by
      by_contra hdone
      exact hsealed hdone plain hplain
    exact .updated (hwritten hlive) hupdated
  · cases hnew

theorem RetainedState.WritesContacts.operate {env : RetentionEnv} {s : RetainedState}
    (h : s.WritesContacts env) (op : Op) (fields : ReporterFields) :
    (s.operate env op fields).WritesContacts env := by
  rcases @operate_cases env s op fields with heq | ⟨o, -, ⟨-, heq⟩ | ⟨c, hnew, heq⟩⟩ <;> rw [heq]
  · exact h
  · exact h
  · apply h.insert
    have hwritten := newContact_written h hnew
    exact ⟨fun _ => hwritten, fun hdone => absurd (newContact_spec hnew).2 hdone⟩

theorem RetainedState.WritesContacts.cleanup {env : RetentionEnv} {s : RetainedState}
    (h : s.WritesContacts env) (now stamped : Time) (rest : Db) :
    (cleanupRetentionOnce env s now stamped rest).WritesContacts env := by
  have hstep : ∀ i c, ((c.anonymizedAt = none → c.Written env.pii) ∧
      (c.anonymizedAt ≠ none → ∀ plain, plainContact env.pii c ≠ .ok plain)) → ∀ due : Prop, ∀ [Decidable due],
      let c' := if due then anonymizeReporterContact now env.contactDigest i c else c
      (c'.anonymizedAt = none → c'.Written env.pii) ∧
        (c'.anonymizedAt ≠ none → ∀ plain, plainContact env.pii c' ≠ .ok plain) := by
    intro i c hc due _
    dsimp only
    split_ifs
    · have hdone := @anonymizeReporterContact_anonymized now env.contactDigest i c
      refine ⟨fun hlive => ?_, fun _ plain => ?_⟩
      · rw [hlive] at hdone
        exact nomatch hdone
      · by_cases hlive : c.anonymizedAt = none
        · rw [plainContact_anonymized i hlive]
          exact nofun
        · rw [anonymizeReporterContact, if_pos (Option.isSome_iff_ne_none.mpr hlive)]
          exact hc.2 hlive plain
    · exact hc
  intro i c hget
  rw [cleanup_get] at hget
  obtain ⟨c₁, hget₁, rfl⟩ := Option.map_eq_some_iff.mp hget
  obtain ⟨c₀, hget₀, rfl⟩ := Option.map_eq_some_iff.mp hget₁
  exact hstep i _ (hstep i c₀ (h i c₀ hget₀) _) _

/-- In every run, the stored contacts that are not anonymised are ones the service has written. -/
theorem retainedRun_written (env : RetentionEnv) (db : Db) (closedAt : Table (Option Time))
    (steps : List RetainedStep) : (retainedRun env (.initial db closedAt) steps).WritesContacts env := by
  have hinitial : (RetainedState.initial db closedAt).WritesContacts env := fun _ _ h => nomatch h
  refine run_invariant _ ?_ hinitial (along_true _ _ _)
  intro s step h _
  cases step with
  | op op fields => exact h.operate op fields
  | patchIncident now actor header incident patch =>
    apply commit_induction (P := fun t : RetainedState => t.WritesContacts env) h
    intro t ht
    simp only [patchIncident, bind_ok, pure_ok] at ht
    obtain ⟨_, -, _, -, _, -, _, -, _, -, _, -, rfl⟩ := ht
    exact h
  | hold contact held =>
    apply Table.All.modify h
    intro c _ hc
    exact ⟨fun hlive => .held (hc.1 hlive) held, hc.2⟩
  | cleanup now stamped rest => exact h.cleanup now stamped rest

end Stored

/-! ## What an edit keeps -/

/-- The values of the contact after the edit: those of the request in their normal form, and where it
leaves out a value the previous one. -/
structure FollowsPatch (lib : PiiLib) (patch : ReporterPatchInput) (previous next : StoredContact)
    (old new : PlainContact) : Prop where
  fullName : new.fullName =
    ((patch.fullName.join.map fun name => stripText isPySpace name.val) <|> old.fullName)
  mobile : ∀ m ∈ patch.mobile.join, ∃ text, normalizeMobile lib m.val = .ok text ∧ new.mobile = some text
  mobileKept : patch.mobile.join = none → new.mobile = old.mobile
  additional : ∀ info ∈ patch.additionalInfo, normalizeAdditional lib info = .ok new.additional
  additionalKept : patch.additionalInfo = none → new.additional = old.additional
  consentAt : next.consentAt = patch.consentAt.getD previous.consentAt
  legalHold : next.legalHold = previous.legalHold

/-- The request sends what the edit would change: a consent that is not of this moment, a mobile number
that ends in a line break, the additional information with such an emergency number. No hold is on the
contact. -/
structure CoversChanges (now : Time) (patch : ReporterPatchInput) (previous : StoredContact)
    (old : PlainContact) : Prop where
  consentAt : patch.consentAt = none → previous.consentAt = now
  legalHold : previous.legalHold = false
  mobile : patch.mobile.join = none → ∀ m ∈ old.mobile, ¬ EndsInNewline m
  additional : patch.additionalInfo = none → ∀ m ∈ old.emergencyMobile, ¬ EndsInNewline m

section Edits
variable {lib : PiiLib} {upperChar : Char → List Char}

theorem map_withoutNewline_iff {o : Option String} :
    o.map withoutNewline = o ↔ ∀ s ∈ o, ¬ EndsInNewline s := by
  cases o with
  | none => exact iff_of_true rfl nofun
  | some s =>
    rw [Option.map_some, Option.some_inj, withoutNewline_eq_self_iff]
    constructor
    · intro h s' hs'
      rwa [← Option.some.inj hs']
    · exact fun h => h s rfl

variable {now now' : Time} {patch : ReporterPatchInput} {fullName mobile fullName' mobile' : String}
  {consentAt consentAt' : Option Time} {info info' : Option ReporterAdditionalInfo} {w v : ContactValues}

theorem edited_fullName (hw : validateValues lib now' fullName' mobile' consentAt' info' = .ok w)
    (hv : validateValues lib now fullName mobile consentAt info = .ok v)
    (hname : ((patch.fullName.join.map (·.val)) <|> some w.fullName) = some fullName) :
    v.plain.fullName = ((patch.fullName.join.map fun name => stripText isPySpace name.val) <|> w.plain.fullName) := by
  obtain ⟨-, hwname, -⟩ := validateValues_ok.mp hw
  obtain ⟨-, hvname, -⟩ := validateValues_ok.mp hv
  show some v.fullName = _
  rw [hvname]
  cases hsent : patch.fullName.join with
  | none =>
    rw [hsent] at hname
    obtain rfl := Option.some.inj hname
    show _ = some w.fullName
    rw [hwname, stripText_idem]
  | some name =>
    rw [hsent] at hname
    obtain rfl := Option.some.inj hname
    rfl

theorem edited_mobile (hv : validateValues lib now fullName mobile consentAt info = .ok v)
    (hmobile : ((patch.mobile.join.map (·.val)) <|> some w.mobile) = some mobile) :
    ∀ m ∈ patch.mobile.join, normalizeMobile lib m.val = .ok v.mobile := by
  obtain ⟨-, -, hvmobile, -⟩ := validateValues_ok.mp hv
  intro m hm
  rw [hm] at hmobile
  obtain rfl := Option.some.inj hmobile
  exact hvmobile

theorem kept_mobile (hlib : lib.Documented upperChar)
    (hw : validateValues lib now' fullName' mobile' consentAt' info' = .ok w)
    (hv : validateValues lib now fullName mobile consentAt info = .ok v)
    (hmobile : ((patch.mobile.join.map (·.val)) <|> some w.mobile) = some mobile)
    (hnone : patch.mobile.join = none) : v.mobile = withoutNewline w.mobile := by
  obtain ⟨-, -, hwmobile, -⟩ := validateValues_ok.mp hw
  obtain ⟨-, -, hvmobile, -⟩ := validateValues_ok.mp hv
  rw [hnone] at hmobile
  obtain rfl := Option.some.inj hmobile
  exact Except.ok.inj (hvmobile.symm.trans (normalizeMobile_again hlib hwmobile).normalize)

theorem edited_additional (hv : validateValues lib now fullName mobile consentAt info = .ok v)
    (hinfo : patch.additional w.plain = .ok info) :
    ∀ sent ∈ patch.additionalInfo, normalizeAdditional lib sent = .ok v.plain.additional := by
  obtain ⟨-, -, -, hvinfo, -⟩ := validateValues_ok.mp hv
  intro sent hsent
  rw [ReporterPatchInput.additional, Option.mem_def.mp hsent] at hinfo
  rwa [pure_ok.mp hinfo]

theorem kept_additional (hlib : lib.Documented upperChar)
    (hw : validateValues lib now' fullName' mobile' consentAt' info' = .ok w)
    (hv : validateValues lib now fullName mobile consentAt info = .ok v)
    (hinfo : patch.additional w.plain = .ok info) (hnone : patch.additionalInfo = none) :
    v.plain.additional =
      { w.plain.additional with emergencyMobile := w.plain.emergencyMobile.map withoutNewline } := by
  obtain ⟨-, -, -, hwinfo, -⟩ := validateValues_ok.mp hw
  obtain ⟨-, -, -, hvinfo, -⟩ := validateValues_ok.mp hv
  rw [ReporterPatchInput.additional, hnone] at hinfo
  simp only [bind_ok, found_ok, pure_ok] at hinfo
  obtain ⟨rebuilt, hparse, rfl⟩ := hinfo
  exact Except.ok.inj (hvinfo.symm.trans (normalizeAdditional_reparse hlib hwinfo hparse))

end Edits

/-- An edit takes what the request sends in its normal form and keeps what it leaves out exactly if no hold
is on the contact and the request covers what the edit would change. -/
theorem edit_keeps_what_is_left_out_iff {lib : PiiLib} {upperChar : Char → List Char}
    (hlib : lib.Documented upperChar) {settings : PiiSettings} {now : Time} {nonces : String → Bytes} {id : Id}
    {closedAt : Option Time} {patch : ReporterPatchInput} {previous next : StoredContact}
    (hprevious : previous.Written lib)
    (h : updateReporterContact lib settings now nonces id closedAt previous patch = .ok next) :
    ∃ old new, plainContact lib previous = .ok old ∧ plainContact lib next = .ok new ∧
      (FollowsPatch lib patch previous next old new ↔ CoversChanges now patch previous old) := by
  obtain ⟨_, _, _, _, _, w, hw, hplain⟩ := hprevious.values
  obtain ⟨plain, fullName, mobile, info, v, hplain', hname, hmobile, hinfo, hv, rfl⟩ :=
    updateReporterContact_ok.mp h
  obtain rfl := Except.ok.inj (hplain.symm.trans hplain')
  refine ⟨w.plain, v.plain, hplain, plainContact_build _ _ _ _ _ _ v, ?_⟩
  have hconsent : v.consentAt = patch.consentAt.getD now := (validateValues_ok.mp hv).2.2.2.2
  have hmobileIff : patch.mobile.join = none → (v.plain.mobile = w.plain.mobile ↔ ¬ EndsInNewline w.mobile) := by
    intro hnone
    show some v.mobile = some w.mobile ↔ _
    rw [kept_mobile hlib hw hv hmobile hnone, Option.some_inj, withoutNewline_eq_self_iff]
  have hadditionalIff : patch.additionalInfo = none → (v.plain.additional = w.plain.additional ↔
      ∀ m ∈ w.plain.emergencyMobile, ¬ EndsInNewline m) := by
    intro hnone
    rw [kept_additional hlib hw hv hinfo hnone, ← map_withoutNewline_iff]
    constructor
    · exact fun heq => congrArg AdditionalTexts.emergencyMobile heq
    · intro heq
      rw [heq]
      rfl
  constructor
  · intro hfollows
    constructor
    · intro hnone
      have hkept := hfollows.consentAt
      rw [hnone, Option.getD_none] at hkept
      rw [← hkept]
      show v.consentAt = now
      rw [hconsent, hnone, Option.getD_none]
    · exact hfollows.legalHold.symm
    · intro hnone m hm
      rw [← Option.some.inj hm]
      exact (hmobileIff hnone).mp (hfollows.mobileKept hnone)
    · exact fun hnone => (hadditionalIff hnone).mp (hfollows.additionalKept hnone)
  · intro hcovers
    constructor
    · exact edited_fullName hw hv hname
    · exact fun m hm => ⟨v.mobile, edited_mobile hv hmobile m hm, rfl⟩
    · exact fun hnone => (hmobileIff hnone).mpr (hcovers.mobile hnone w.mobile rfl)
    · exact edited_additional hv hinfo
    · exact fun hnone => (hadditionalIff hnone).mpr (hcovers.additional hnone)
    · show v.consentAt = _
      rw [hconsent]
      cases hsent : patch.consentAt with
      | none =>
        rw [Option.getD_none, Option.getD_none]
        exact (hcovers.consentAt hsent).symm
      | some sent => rfl
    · exact hcovers.legalHold.symm

namespace Sample

/-- A name and a mobile number, with a consent of the same moment. -/
def contactValues : ContactValues := ⟨"x", "+8613800000000", none, none, none, none, none, 0⟩

def contact : StoredContact :=
  buildContact unicodePii retention.piiSettings 0 (fun _ => []) 0 none 0 contactValues

theorem contact_written : contact.Written unicodePii := by
  have hmobile : normalizeMobile unicodePii "13800000000" = .ok "+8613800000000" := by
    rw [normalizeMobile_ok]
    decide +kernel
  have hvalues : validateValues unicodePii 0 "x" "13800000000" none none = .ok contactValues :=
    validateValues_ok.mpr ⟨by decide, by decide, hmobile, rfl, rfl⟩
  have hcreated : createReporterContact unicodePii retention.piiSettings 0 (fun _ => []) 0 none 0
      ⟨⟨"x", by decide⟩, ⟨"13800000000", by decide⟩, none, none⟩ = .ok contact := by
    rw [createReporterContact, hvalues]
    rfl
  exact .created hcreated

/-- Another name, with a consent of its own. -/
def nameEdit : ReporterPatchInput := ⟨some (some ⟨"y", by decide⟩), none, some 1, none⟩

def editedContact : StoredContact :=
  buildContact unicodePii retention.piiSettings 1 (fun _ => []) 0 none 0
    { contactValues with fullName := "y", consentAt := 1 }

/-- Of the previous contact the edit needs what is decrypted and its device. -/
theorem update_contact {previous : StoredContact}
    (hplain : plainContact unicodePii previous = .ok contactValues.plain) (hdevice : previous.residentDeviceId = 0)
    (patch : ReporterPatchInput) (hname : patch.fullName = nameEdit.fullName) (hmobile : patch.mobile = none)
    (hinfo : patch.additionalInfo = none) (hconsent : patch.consentAt.getD 1 = 1) :
    updateReporterContact unicodePii retention.piiSettings 1 (fun _ => []) 0 none previous patch =
      .ok editedContact := by
  have hnormal : normalizeMobile unicodePii "+8613800000000" = .ok "+8613800000000" := by
    rw [normalizeMobile_ok]
    decide +kernel
  refine updateReporterContact_ok.mpr ⟨contactValues.plain, "y", "+8613800000000", some ⟨none, none, none⟩,
    { contactValues with fullName := "y", consentAt := 1 }, hplain, ?_, ?_, ?_, ?_, ?_⟩
  · rw [hname]
    rfl
  · rw [hmobile]
    rfl
  · rw [ReporterPatchInput.additional, hinfo]
    rfl
  · exact validateValues_ok.mpr ⟨by decide, by decide, hnormal, rfl, hconsent.symm⟩
  · rw [hdevice]
    rfl

theorem contact_plain : plainContact unicodePii contact = .ok contactValues.plain :=
  plainContact_build retention.piiSettings 0 (fun _ => []) 0 0 none contactValues

end Sample
open Sample

theorem renamed_contact_keeps_its_mobile : ∃ next old new,
    updateReporterContact unicodePii retention.piiSettings 1 (fun _ => []) 0 none contact nameEdit = .ok next ∧
      plainContact unicodePii contact = .ok old ∧ plainContact unicodePii next = .ok new ∧
        FollowsPatch unicodePii nameEdit contact next old new := by
  have h := update_contact contact_plain rfl nameEdit rfl rfl rfl rfl
  obtain ⟨old, new, hold, hnew, hiff⟩ :=
    edit_keeps_what_is_left_out_iff unicodePii_documented contact_written h
  refine ⟨editedContact, old, new, h, hold, hnew, hiff.mpr ?_⟩
  obtain rfl := Except.ok.inj (hold.symm.trans contact_plain)
  constructor
  · exact nofun
  · rfl
  · intro _ m hm
    rw [← Option.some.inj hm, EndsInNewline]
    decide
  · exact fun _ => nofun

/-- An edit of the name alone, a second later: the consent is dated anew, and a hold is lifted. -/
theorem edit_dates_the_consent_and_lifts_the_hold : ∃ previous patch next,
    previous.Written unicodePii ∧
      updateReporterContact unicodePii retention.piiSettings 1 (fun _ => []) 0 none previous patch = .ok next ∧
        patch.consentAt = none ∧ next.consentAt ≠ previous.consentAt ∧ next.legalHold ≠ previous.legalHold ∧
          ∀ old new, ¬ FollowsPatch unicodePii patch previous next old new := by
  have hheld : editedContact.legalHold ≠ ({ contact with legalHold := true } : StoredContact).legalHold :=
    Bool.false_ne_true
  refine ⟨{ contact with legalHold := true }, { nameEdit with consentAt := none }, editedContact,
    .held contact_written true, ?_, rfl, ?_, hheld, fun old new hfollows => hheld hfollows.legalHold⟩
  · exact update_contact contact_plain rfl _ rfl rfl rfl rfl
  · show (1 : Time) ≠ 0
    decide

end CrisisMosaic
