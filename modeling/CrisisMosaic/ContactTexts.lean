import CrisisMosaic.Contacts

/-!
# The texts of a stored contact

The texts were normalised before they were encrypted; decrypted, they pass the schema they came
through.
-/

namespace CrisisMosaic
open Relational Storage

/-! ## Stripping -/

section Strip
variable {p q : Char → Bool}

theorem stripChars_length_le (cs : List Char) : (stripChars p cs).length ≤ cs.length := by
  unfold stripChars
  rw [List.length_reverse]
  apply (List.dropWhile_sublist _).length_le.trans
  rw [List.length_reverse]
  exact (List.dropWhile_sublist _).length_le

/-- Between a first and a later character that stay, everything stays. -/
theorem stripChars_length_ge {c x : Char} (hc : p c = false) (hx : p x = false) (middle tail : List Char) :
    middle.length + 2 ≤ (stripChars p (c :: (middle ++ x :: tail))).length := by
  have hfirst : (c :: (middle ++ x :: tail)).dropWhile p = c :: (middle ++ x :: tail) := by
    rw [List.dropWhile_cons_of_neg]
    simp [hc]
  have hreverse : (c :: (middle ++ x :: tail)).reverse = tail.reverse ++ x :: (middle.reverse ++ [c]) := by
    simp
  unfold stripChars
  rw [hfirst, hreverse, List.length_reverse]
  have hsuffix : x :: (middle.reverse ++ [c]) <:+
      (tail.reverse ++ x :: (middle.reverse ++ [c])).dropWhile p := by
    induction tail.reverse with
    | nil =>
      rw [List.nil_append, List.dropWhile_cons_of_neg]
      simp [hx]
    | cons y ys ih =>
      rw [List.cons_append, List.dropWhile_cons]
      split_ifs
      · exact ih
      · exact List.suffix_cons_iff.mpr (Or.inr (List.suffix_append ys _))
  have hle := hsuffix.length_le
  simp only [List.length_cons, List.length_append, List.length_reverse, List.length_nil] at hle
  omega

/-- A text whose ends stay is left as it is. -/
theorem stripChars_eq_self {cs : List Char} (hhead : ∀ c ∈ cs.head?, p c = false)
    (hlast : ∀ c ∈ cs.getLast?, p c = false) : stripChars p cs = cs := by
  have hdrop : ∀ {l : List Char}, (∀ c ∈ l.head?, p c = false) → l.dropWhile p = l := by
    intro l hl
    cases l with
    | nil => rfl
    | cons c l =>
      have hc := hl c rfl
      rw [List.dropWhile_cons_of_neg]
      simp [hc]
  unfold stripChars
  rw [hdrop hhead, hdrop, List.reverse_reverse]
  rw [List.head?_reverse]
  exact hlast

theorem head_dropWhile {l : List Char} : ∀ c ∈ (l.dropWhile p).head?, p c = false := by
  intro c hc
  have h := List.head?_dropWhile_not p l
  rw [Option.mem_def] at hc
  simpa [hc] using h

/-- What is stripped has ends that stay. -/
theorem stripChars_last (cs : List Char) : ∀ c ∈ (stripChars p cs).getLast?, p c = false := by
  intro c hc
  unfold stripChars at hc
  rw [List.getLast?_reverse] at hc
  exact head_dropWhile c hc

theorem stripChars_head (cs : List Char) : ∀ c ∈ (stripChars p cs).head?, p c = false := by
  intro c hc
  have hprefix : stripChars p cs <+: cs.dropWhile p := by
    unfold stripChars
    rw [← List.reverse_suffix, List.reverse_reverse]
    exact List.dropWhile_suffix p
  obtain ⟨rest, hrest⟩ := hprefix
  apply head_dropWhile c
  rw [← hrest, Option.mem_def, List.head?_append, Option.mem_def.mp hc]
  rfl

end Strip

theorem isWhite_of_isPySpace {c : Char} (h : isPySpace c = false) : isWhite c = false :=
  (Bool.or_eq_false_iff.mp h).1

/-- The schema strips nothing from what Python has stripped. -/
theorem stripText_stripped (s : String) :
    stripText isWhite (stripText isPySpace s) = stripText isPySpace s := by
  unfold stripText
  rw [String.toList_ofList]
  apply congrArg String.ofList
  apply stripChars_eq_self
  · exact fun c hc => isWhite_of_isPySpace (stripChars_head _ c hc)
  · exact fun c hc => isWhite_of_isPySpace (stripChars_last _ c hc)

theorem stripText_length_le (p : Char → Bool) (s : String) : (stripText p s).length ≤ s.length := by
  unfold stripText
  rw [String.length_ofList]
  exact stripChars_length_le s.toList

/-! ## Passing the schema -/

/-- The text passes a field of these bounds. -/
def Passes (low high : ℕ) (s : String) : Prop :=
  low ≤ (stripText isWhite s).length ∧ (stripText isWhite s).length ≤ high

theorem Passes.parse {low high : ℕ} {s : String} (h : Passes low high s) :
    ∃ b, Bounded.parse low high s = some b :=
  ⟨⟨_, h⟩, dif_pos h⟩

theorem Passes.parseOptional {low high : ℕ} {o : Option String} (h : ∀ s ∈ o, Passes low high s) :
    ∃ b, Bounded.parseOptional low high o = some b := by
  cases o with
  | none => exact ⟨none, rfl⟩
  | some s =>
    obtain ⟨b, hb⟩ := (h s rfl).parse
    exact ⟨some b, by rw [Bounded.parseOptional, hb]; rfl⟩

theorem normalizeOptional_passes {high : ℕ} {o : Option (Bounded 1 high)} :
    ∀ s ∈ normalizeOptional (o.map (·.val)), Passes 1 high s := by
  intro s hs
  cases o with
  | none => cases hs
  | some b =>
    simp only [Option.map_some, normalizeOptional, Option.mem_def] at hs
    split_ifs at hs with hempty
    obtain rfl := Option.some.inj hs
    unfold Passes
    rw [stripText_stripped]
    constructor
    · rw [Nat.one_le_iff_ne_zero]
      exact fun hzero => hempty (String.length_eq_zero_iff.mp hzero)
    · exact (stripText_length_le _ _).trans b.property.2

section Numbers
variable {lib : PiiLib}

theorem isDigit_not_white {c : Char} (h : isDigit lib c = true) : isWhite c = false :=
  lib.digit_not_white c h

theorem beforeNewline_cases (cs : List Char) :
    beforeNewline cs = cs ∨ cs = beforeNewline cs ++ ['\n'] := by
  unfold beforeNewline
  split_ifs with h
  · right
    obtain ⟨ys, rfl⟩ := List.getLast?_eq_some_iff.mp h
    rw [List.dropLast_concat]
  · exact Or.inl rfl

/-- A normalised mobile number has fourteen characters, and perhaps a newline after them. -/
theorem normalizeMobile_passes {value mobile : String} (h : normalizeMobile lib value = .ok mobile) :
    Passes 11 32 mobile := by
  simp only [normalizeMobile, bind_ok, require_ok, pure_ok] at h
  obtain ⟨-, hmatch, rfl⟩ := h
  generalize hdigits : String.ofList _ = digits at hmatch ⊢
  unfold matchesMobile at hmatch
  split at hmatch
  · rename_i c d rest hbefore
    simp only [Bool.and_eq_true, decide_eq_true_eq] at hmatch
    obtain ⟨⟨_, hlength⟩, hall⟩ := hmatch
    have hne : rest ≠ [] := by
      intro hnil
      simp [hnil] at hlength
    have hlast : isWhite (rest.getLast hne) = false :=
      isDigit_not_white (List.all_eq_true.mp hall _ (List.getLast_mem hne))
    have hsplit := List.dropLast_append_getLast hne
    obtain ⟨tail, htail, hshort⟩ : ∃ tail, digits.toList = c :: d :: rest ++ tail ∧ tail.length ≤ 1 := by
      rcases beforeNewline_cases digits.toList with heq | heq
      · exact ⟨[], by rw [List.append_nil, ← hbefore, heq], by simp⟩
      · exact ⟨['\n'], by rw [← hbefore]; exact heq, by simp⟩
    have hchars : ("+86" ++ digits).toList =
        '+' :: (['8', '6', c, d] ++ rest.dropLast ++ rest.getLast hne :: tail) := by
      rw [String.toList_append, htail]
      conv_lhs => rw [← hsplit]
      simp
    have hge := stripChars_length_ge (p := isWhite) (c := '+') (by decide) hlast
      (['8', '6', c, d] ++ rest.dropLast) tail
    have hle := stripChars_length_le (p := isWhite) ("+86" ++ digits).toList
    rw [← hchars] at hge
    rw [Passes, stripText, String.length_ofList]
    rw [hchars] at hle
    simp only [List.length_append, List.length_cons, List.length_nil, List.length_dropLast, hlength]
      at hge hle
    rw [← hchars] at hle
    omega
  · cases hmatch

theorem nationalIdChecks_not_white {c : Char} (h : c ∈ nationalIdChecks) :
    isWhite c = false ∧ c ≠ '\n' := by
  have hall : nationalIdChecks.all (fun c => !isWhite c && c ≠ '\n') = true := by decide
  have hc := List.all_eq_true.mp hall c h
  rwa [Bool.and_eq_true, Bool.not_eq_true', decide_eq_true_eq] at hc

theorem validateNationalId_passes {value : Option String} {id : Option String}
    (h : validateNationalId lib value = .ok id) : ∀ s ∈ id, Passes 18 18 s := by
  unfold validateNationalId at h
  split at h
  · obtain rfl := pure_ok.mp h
    exact nofun
  · rename_i stripped _
    simp only [bind_ok, require_ok, pure_ok] at h
    obtain ⟨-, hmatch, -, -, -, hcheck, rfl⟩ := h
    intro s hs
    obtain rfl := Option.some.inj hs
    generalize lib.upper stripped = text at hmatch hcheck ⊢
    have hlast : ∀ c ∈ text.toList.getLast?, isWhite c = false ∧ c ≠ '\n' := by
      intro c hc
      rw [Option.mem_def, hcheck] at hc
      exact nationalIdChecks_not_white (List.mem_of_getElem? hc)
    have hbefore : beforeNewline text.toList = text.toList := by
      apply if_neg
      intro hnewline
      exact (hlast _ hnewline).2 rfl
    simp only [matchesNationalId, hbefore, Bool.and_eq_true, decide_eq_true_eq] at hmatch
    obtain ⟨⟨hlength, hdigits⟩, -⟩ := hmatch
    have hself : stripChars isWhite text.toList = text.toList := by
      apply stripChars_eq_self
      · intro c hc
        apply isDigit_not_white
        apply List.all_eq_true.mp hdigits
        cases hcs : text.toList with
        | nil => simp [hcs] at hlength
        | cons b bs =>
          rw [hcs] at hc
          obtain rfl := Option.some.inj hc
          simp
      · exact fun c hc => (hlast c hc).1
    rw [Passes, stripText, hself, String.length_ofList, hlength]
    exact ⟨le_rfl, le_rfl⟩

theorem emergencyValues_passes {emergency : Option EmergencyContactInput} {name mobile relation : Option String}
    (h : emergencyValues lib emergency = .ok (name, mobile, relation)) :
    (∀ s ∈ name, Passes 1 80 s) ∧ (∀ s ∈ mobile, Passes 11 32 s) ∧ ∀ s ∈ relation, Passes 1 40 s := by
  have hnone : (pure (none, none, none) : Result _) = .ok (name, mobile, relation) →
      (∀ s ∈ name, Passes 1 80 s) ∧ (∀ s ∈ mobile, Passes 11 32 s) ∧ ∀ s ∈ relation, Passes 1 40 s := by
    intro h
    obtain ⟨rfl, rfl, rfl⟩ : none = name ∧ none = mobile ∧ none = relation := by
      simpa using pure_ok.mp h
    exact ⟨nofun, nofun, nofun⟩
  unfold emergencyValues at h
  split at h
  · exact hnone h
  dsimp only at h
  split_ifs at h
  · exact hnone h
  · split at h
    · rename_i n m hname hmobile
      simp only [bind_ok, pure_ok, Prod.mk.injEq] at h
      obtain ⟨m', hm, rfl, rfl, rfl⟩ := h
      refine ⟨?_, ?_, normalizeOptional_passes⟩
      · rw [← hname]
        exact normalizeOptional_passes
      · intro s hs
        obtain rfl := Option.some.inj hs
        exact normalizeMobile_passes hm
    · exact absurd h throw_ok

/-- The values as they are read back. -/
def ContactValues.plain (v : ContactValues) : PlainContact :=
  ⟨some v.fullName, some v.mobile, v.nationalId, v.emergencyName, v.emergencyMobile, v.emergencyRelation,
    v.rescueNotes⟩

theorem PlainContact.emergency_parses {p : PlainContact} (hname : ∀ s ∈ p.emergencyName, Passes 1 80 s)
    (hmobile : ∀ s ∈ p.emergencyMobile, Passes 11 32 s)
    (hrelation : ∀ s ∈ p.emergencyRelation, Passes 1 40 s) :
    ∃ e, EmergencyContactInput.parseOptional p.emergency = some e := by
  obtain ⟨name, hname⟩ := Passes.parseOptional hname
  obtain ⟨mobile, hmobile⟩ := Passes.parseOptional hmobile
  obtain ⟨relation, hrelation⟩ := Passes.parseOptional hrelation
  unfold PlainContact.emergency
  split_ifs
  · exact ⟨none, rfl⟩
  · simp only [EmergencyContactInput.parseOptional, EmergencyContactInput.parse, hname, hmobile, hrelation,
      Option.bind_eq_bind, Option.bind_some, Option.map_some]
    exact ⟨_, rfl⟩

theorem ReporterAdditionalInfo.parse_exists {nationalId notes : Option String}
    {emergency : Option RawEmergency} (hid : ∀ s ∈ nationalId, Passes 18 18 s)
    (hemergency : ∃ e, EmergencyContactInput.parseOptional emergency = some e)
    (hnotes : ∀ s ∈ notes, Passes 1 500 s) :
    ∃ info, ReporterAdditionalInfo.parse nationalId emergency notes = some info := by
  obtain ⟨nationalId', hid⟩ := Passes.parseOptional hid
  obtain ⟨emergency', hemergency⟩ := hemergency
  obtain ⟨notes', hnotes⟩ := Passes.parseOptional hnotes
  refine ⟨⟨nationalId', emergency', notes'⟩, ?_⟩
  rw [ReporterAdditionalInfo.parse, hid, hemergency, hnotes]
  rfl

/-- Read back, validated values pass the schema again. -/
theorem validateValues_reparse {now : Time} {fullName mobile : String} {consentAt : Option Time}
    {additional : Option ReporterAdditionalInfo} {v : ContactValues}
    (h : validateValues lib now fullName mobile consentAt additional = .ok v) :
    ∃ info, ReporterAdditionalInfo.parse v.plain.nationalId v.plain.emergency v.plain.rescueNotes =
      some info := by
  simp only [validateValues, bind_ok, pure_ok] at h
  obtain ⟨-, -, _, -, nationalId, hid, ⟨name, phone, relation⟩, hemergency, rfl⟩ := h
  obtain ⟨hname, hphone, hrelation⟩ := emergencyValues_passes hemergency
  have hnotes : ∀ s ∈ normalizeOptional (additional.bind fun a => a.rescueNotes.map (·.val)),
      Passes 1 500 s := by
    cases additional with
    | none => rintro s ⟨⟩
    | some a => exact normalizeOptional_passes
  apply ReporterAdditionalInfo.parse_exists (validateNationalId_passes hid) _ hnotes
  exact PlainContact.emergency_parses hname hphone hrelation

end Numbers
end CrisisMosaic
