import Mathlib
import CrisisMosaic.ContactTexts
import CrisisMosaic.RetentionRuns

/-!
# One spelling for a number

Contacts are found by a digest of a normalised number. The patterns take the decimal digits of every
script, and the dollar sign also stands before a final newline, so a number may have several normal forms.
-/

namespace CrisisMosaic
open Relational

/-- What Python documents of digits, white space and upper case. -/
structure PiiLib.Documented (lib : PiiLib) (upperChar : Char → List Char) : Prop where
  digit_ascii : ∀ c : Char, c.toNat < 128 → lib.digit c = if c.isDigit then some (c.toNat - 48) else none
  digit_not_space : ∀ c, (lib.digit c).isSome = true → isPySpace c = false
  upper_eq : ∀ s, lib.upper s = String.ofList (s.toList.flatMap upperChar)
  upper_ascii : ∀ c : Char, c.toNat < 128 → upperChar c = [c.toUpper]
  upper_digit : ∀ c, (lib.digit c).isSome = true → upperChar c = [c]
  upper_ne_nil : ∀ c, upperChar c ≠ []
  /-- Nothing but a digit or an x becomes one. -/
  upper_only : ∀ c, ∀ d ∈ upperChar c,
    (lib.digit d).isSome = true ∨ d = 'X' → (lib.digit c).isSome = true ∨ c = 'x' ∨ c = 'X'

section Spellings
variable (lib : PiiLib)

/-- What is left of a mobile number before its prefix is looked at. -/
def cleaned (value : String) : List Char :=
  (stripText isPySpace value).toList.filter fun c => c ≠ ' ' && c ≠ '-'

def withoutPrefix (text : List Char) : List Char :=
  if "+86".toList.isPrefixOf text then text.drop 3
  else if "86".toList.isPrefixOf text && text.length = 13 then text.drop 2
  else text

def typedDigits (value : String) : List ℕ := value.toList.filterMap lib.digit

/-- The eleven digits a mobile number denotes, without the country's. -/
def mobileDigits (value : String) : List ℕ := (typedDigits lib value).drop ((typedDigits lib value).length - 11)

/-- A digit or the check character. -/
def idSymbol (c : Char) : Option ℕ := if c = 'x' ∨ c = 'X' then some 10 else lib.digit c

def idSymbols (value : String) : List ℕ := value.toList.filterMap (idSymbol lib)

/-- All digits of the input are ASCII. -/
def PlainDigits (value : String) : Prop := ∀ c ∈ value.toList, isDigit lib c = true → c.isDigit = true

/-- The input has no line break within it. -/
def OneLine (value : String) : Prop := '\n' ∉ (stripText isPySpace value).toList

end Spellings

def CanonicalMobile (s : String) : Prop :=
  ∃ number : List Char, s = "+86" ++ String.ofList number ∧ number.length = 11 ∧
    ∀ c ∈ number, c.isDigit = true

def CanonicalNationalId (s : String) : Prop :=
  s.length = 18 ∧ (∀ c ∈ s.toList.take 17, c.isDigit = true) ∧
    ∀ c ∈ s.toList.drop 17, c.isDigit = true ∨ c = 'X'

section Laws
variable {lib : PiiLib} {upperChar : Char → List Char}

theorem isDigit_isAscii {c : Char} (h : c.isDigit = true) : 48 ≤ c.toNat ∧ c.toNat ≤ 57 := by
  simp only [Char.isDigit, Bool.and_eq_true, decide_eq_true_eq] at h
  exact ⟨h.1, h.2⟩

theorem PiiLib.Documented.digit_of_isDigit (hlib : lib.Documented upperChar) {c : Char}
    (h : c.isDigit = true) : lib.digit c = some (c.toNat - 48) := by
  have hbound := isDigit_isAscii h
  rw [hlib.digit_ascii c (by omega), if_pos h]

theorem PiiLib.Documented.digit_none (hlib : lib.Documented upperChar) {c : Char} (hascii : c.toNat < 128)
    (h : c.isDigit = false) : lib.digit c = none := by
  rw [hlib.digit_ascii c hascii, if_neg (Bool.eq_false_iff.mp h)]

theorem PiiLib.Documented.space_not_digit (hlib : lib.Documented upperChar) {c : Char}
    (h : isPySpace c = true) : lib.digit c = none := by
  by_contra hsome
  have hfalse := hlib.digit_not_space c (Option.isSome_iff_ne_none.mpr hsome)
  rw [h] at hfalse
  exact nomatch hfalse

/-- The characters of equal digits are equal if both are ASCII. -/
theorem PiiLib.Documented.digit_inj (hlib : lib.Documented upperChar) {c d : Char} (hc : c.isDigit = true)
    (hd : d.isDigit = true) (h : lib.digit c = lib.digit d) : c = d := by
  rw [hlib.digit_of_isDigit hc, hlib.digit_of_isDigit hd] at h
  have hvalues := Option.some.inj h
  have hcbound := isDigit_isAscii hc
  have hdbound := isDigit_isAscii hd
  have hsame : c.toNat = d.toNat := by omega
  rw [← Char.ofNat_toNat c, ← Char.ofNat_toNat d, hsame]

/-- What is stripped has no value. -/
theorem filterMap_stripChars {β : Type} {p : Char → Bool} {f : Char → Option β}
    (h : ∀ c, p c = true → f c = none) (cs : List Char) : (stripChars p cs).filterMap f = cs.filterMap f := by
  have hdrop : ∀ l : List Char, (l.dropWhile p).filterMap f = l.filterMap f := by
    intro l
    induction l with
    | nil => rfl
    | cons c l ih =>
      rw [List.dropWhile_cons]
      split_ifs with hc
      · rw [ih, List.filterMap_cons_none (h c hc)]
      · rfl
  rw [stripChars, List.filterMap_reverse, hdrop, List.filterMap_reverse, hdrop, List.reverse_reverse]

theorem filterMap_filter_of_none {β : Type} {p : Char → Bool} {f : Char → Option β}
    (h : ∀ c, p c = false → f c = none) (cs : List Char) : (cs.filter p).filterMap f = cs.filterMap f := by
  induction cs with
  | nil => rfl
  | cons c cs ih =>
    cases hc : p c with
    | true => simp only [List.filter_cons_of_pos hc, List.filterMap_cons, ih]
    | false =>
      rw [List.filter_cons_of_neg (Bool.eq_false_iff.mp hc), List.filterMap_cons_none (h c hc), ih]

/-- Cleaning leaves the digits. -/
theorem cleaned_filterMap (hlib : lib.Documented upperChar) {β : Type} {f : Char → Option β}
    (hf : ∀ c, lib.digit c = none → f c = none) (value : String) :
    (cleaned value).filterMap f = value.toList.filterMap f := by
  rw [cleaned, filterMap_filter_of_none, stripText, String.toList_ofList,
    filterMap_stripChars fun c hc => hf c (hlib.space_not_digit hc)]
  intro c hc
  rw [Bool.and_eq_false_iff, decide_eq_false_iff_not, decide_eq_false_iff_not, not_not, not_not] at hc
  rcases hc with rfl | rfl
  · exact hf _ (hlib.digit_none (by decide) (by decide))
  · exact hf _ (hlib.digit_none (by decide) (by decide))

theorem mem_digits {c : Char} (hc : isDigit lib c = true) {cs : List Char} :
    c ∈ cs.filterMap (fun d => (lib.digit d).map fun _ => d) ↔ c ∈ cs := by
  obtain ⟨n, hn⟩ := Option.isSome_iff_exists.mp hc
  rw [List.mem_filterMap]
  constructor
  · rintro ⟨d, hd, hsome⟩
    obtain ⟨_, -, rfl⟩ := Option.map_eq_some_iff.mp hsome
    exact hd
  · exact fun hd => ⟨c, hd, by rw [hn]; rfl⟩

theorem mem_cleaned (hlib : lib.Documented upperChar) (value : String) {c : Char} (hc : isDigit lib c = true) :
    c ∈ cleaned value ↔ c ∈ value.toList := by
  have hsame := cleaned_filterMap hlib (f := fun d => (lib.digit d).map fun _ => d)
    (fun d hd => by rw [hd]; rfl) value
  rw [← mem_digits hc, hsame, mem_digits hc]

/-! ## Mobile numbers -/

theorem normalizeMobile_ok {value out : String} : normalizeMobile lib value = .ok out ↔
    matchesMobile lib (String.ofList (withoutPrefix (cleaned value))) = true ∧
      "+86" ++ String.ofList (withoutPrefix (cleaned value)) = out := by
  change (do
    require (matchesMobile lib (String.ofList (withoutPrefix (cleaned value))))
      (unprocessable "INVALID_MAINLAND_MOBILE" "手机号必须是合法中国大陆 11 位手机号")
    pure ("+86" ++ String.ofList (withoutPrefix (cleaned value)))) = Except.ok out ↔ _
  simp only [bind_ok, require_ok, pure_ok, exists_and_left, exists_const]

theorem matchesMobile_iff {text : List Char} : matchesMobile lib (String.ofList text) = true ↔
    ∃ d rest, beforeNewline text = '1' :: d :: rest ∧ '3' ≤ d ∧ d ≤ '9' ∧ rest.length = 9 ∧
      ∀ c ∈ rest, isDigit lib c = true := by
  unfold matchesMobile
  rw [String.toList_ofList]
  split
  · next c d rest heq =>
    simp only [Bool.and_eq_true, decide_eq_true_eq, List.all_eq_true, heq]
    constructor
    · rintro ⟨⟨⟨⟨rfl, hlow⟩, hhigh⟩, hlength⟩, hall⟩
      exact ⟨d, rest, rfl, hlow, hhigh, hlength, hall⟩
    · rintro ⟨_, _, ⟨⟩, hlow, hhigh, hlength, hall⟩
      exact ⟨⟨⟨⟨rfl, hlow⟩, hhigh⟩, hlength⟩, hall⟩
  · next hshort =>
    refine iff_of_false Bool.false_ne_true ?_
    rintro ⟨d, rest, heq, -⟩
    exact hshort _ _ _ heq

/-- An accepted mobile number: a prefix, eleven digits, and perhaps a newline. -/
structure MobileForm (lib : PiiLib) (text : List Char) (number tail : List Char) : Prop where
  text : ∃ pre ∈ [[], ['8', '6'], ['+', '8', '6']], text = pre ++ (number ++ tail)
  number : ∃ d rest, number = '1' :: d :: rest ∧ '3' ≤ d ∧ d ≤ '9' ∧ rest.length = 9 ∧
    ∀ c ∈ rest, isDigit lib c = true
  tail : tail = [] ∨ tail = ['\n']

theorem withoutPrefix_append (text : List Char) :
    ∃ pre ∈ [[], ['8', '6'], ['+', '8', '6']], text = pre ++ withoutPrefix text := by
  unfold withoutPrefix
  split_ifs with hlong hshort
  · obtain ⟨rest, hrest⟩ := List.isPrefixOf_iff_prefix.mp hlong
    refine ⟨['+', '8', '6'], by decide, ?_⟩
    rw [← hrest]
    rfl
  · obtain ⟨rest, hrest⟩ := List.isPrefixOf_iff_prefix.mp (Bool.and_eq_true_iff.mp hshort).1
    refine ⟨['8', '6'], by decide, ?_⟩
    rw [← hrest]
    rfl
  · exact ⟨[], by decide, rfl⟩

theorem normalizeMobile_form {value out : String} (h : normalizeMobile lib value = .ok out) :
    ∃ number tail, MobileForm lib (cleaned value) number tail ∧
      out = "+86" ++ String.ofList (number ++ tail) := by
  obtain ⟨hmatch, rfl⟩ := normalizeMobile_ok.mp h
  obtain ⟨d, rest, hbefore, hnumber⟩ := matchesMobile_iff.mp hmatch
  obtain ⟨pre, hpre, htext⟩ := withoutPrefix_append (cleaned value)
  obtain ⟨tail, htail, hsplit⟩ : ∃ tail, (tail = [] ∨ tail = ['\n']) ∧
      withoutPrefix (cleaned value) = '1' :: d :: rest ++ tail := by
    rcases beforeNewline_cases (withoutPrefix (cleaned value)) with heq | heq
    · exact ⟨[], Or.inl rfl, by rw [List.append_nil, ← hbefore, heq]⟩
    · exact ⟨['\n'], Or.inr rfl, by rw [← hbefore]; exact heq⟩
  refine ⟨'1' :: d :: rest, tail, ⟨⟨pre, hpre, ?_⟩, ⟨d, rest, rfl, hnumber⟩, htail⟩, by rw [hsplit]⟩
  rw [← hsplit]
  exact htext

theorem MobileForm.isDigit_number (hlib : lib.Documented upperChar) {text number tail : List Char}
    (h : MobileForm lib text number tail) : ∀ c ∈ number, isDigit lib c = true := by
  obtain ⟨d, rest, rfl, hlow, hhigh, -, hrest⟩ := h.number
  intro c hc
  rcases List.mem_cons.mp hc with rfl | hc
  · rw [isDigit, hlib.digit_of_isDigit (by decide)]
    rfl
  · rcases List.mem_cons.mp hc with rfl | hc
    · have hdigit : c.isDigit = true := by
        simp only [Char.isDigit, Bool.and_eq_true, decide_eq_true_eq]
        have hthree : '3'.val ≤ c.val := hlow
        exact ⟨UInt32.le_trans (by decide) hthree, hhigh⟩
      rw [isDigit, hlib.digit_of_isDigit hdigit]
      rfl
    · exact hrest c hc

theorem MobileForm.length_number {text number tail : List Char} (h : MobileForm lib text number tail) :
    number.length = 11 := by
  obtain ⟨d, rest, rfl, -, -, hlength, -⟩ := h.number
  rw [List.length_cons, List.length_cons, hlength]

theorem MobileForm.newline_not_mem (hlib : lib.Documented upperChar) {text number tail : List Char}
    (h : MobileForm lib text number tail) : '\n' ∉ number := by
  intro hmem
  have hdigit := hlib.digit_not_space '\n' (h.isDigit_number hlib '\n' hmem)
  exact nomatch hdigit

/-- The digits of an accepted number are those of the country and eleven more. -/
theorem MobileForm.digits (hlib : lib.Documented upperChar) {value : String} {number tail : List Char}
    (h : MobileForm lib (cleaned value) number tail) :
    mobileDigits lib value = number.filterMap lib.digit := by
  obtain ⟨pre, -, htext⟩ := h.text
  have hall : typedDigits lib value = pre.filterMap lib.digit ++ number.filterMap lib.digit := by
    have htail : tail.filterMap lib.digit = [] := by
      rcases h.tail with rfl | rfl
      · rfl
      · exact List.filterMap_cons_none (hlib.digit_none (by decide) (by decide))
    rw [typedDigits, ← cleaned_filterMap hlib (fun _ h => h), htext, List.filterMap_append, List.filterMap_append, htail, List.append_nil]
  have hlength : (number.filterMap lib.digit).length = 11 := by
    rw [List.length_filterMap_eq_countP, List.countP_eq_length.mpr, h.length_number]
    exact h.isDigit_number hlib
  rw [mobileDigits, hall]
  exact List.drop_left' (by rw [List.length_append, hlength, Nat.add_sub_cancel])

/-- The number is ASCII if the digits of the input are. -/
theorem MobileForm.plain_iff (hlib : lib.Documented upperChar) {value : String} {number tail : List Char}
    (h : MobileForm lib (cleaned value) number tail) :
    PlainDigits lib value ↔ ∀ c ∈ number, c.isDigit = true := by
  obtain ⟨pre, hpre, htext⟩ := h.text
  have hstart : ∀ c ∈ pre, isDigit lib c = true → c.isDigit = true := by
    have hplus : isDigit lib '+' = false := by
      rw [isDigit, hlib.digit_none (by decide) (by decide)]
      rfl
    rcases List.mem_cons.mp hpre with rfl | hpre
    · exact fun c hc => absurd hc List.not_mem_nil
    · rcases List.mem_cons.mp hpre with rfl | hpre
      · exact fun c hc _ => List.all_eq_true.mp (by decide : ['8', '6'].all Char.isDigit = true) c hc
      · obtain rfl := List.mem_singleton.mp hpre
        intro c hc hdigit
        rcases List.mem_cons.mp hc with rfl | hc
        · rw [hplus] at hdigit
          exact nomatch hdigit
        · exact List.all_eq_true.mp (by decide : ['8', '6'].all Char.isDigit = true) c hc
  constructor
  · intro hplain c hc
    have hdigit := h.isDigit_number hlib c hc
    refine hplain c ((mem_cleaned hlib value hdigit).mp ?_) hdigit
    rw [htext]
    exact List.mem_append_right _ (List.mem_append_left _ hc)
  · intro hnumber c hc hdigit
    have hmem := (mem_cleaned hlib value hdigit).mpr hc
    rw [htext, List.mem_append, List.mem_append] at hmem
    rcases hmem with hc | hc | hc
    · exact hstart c hc hdigit
    · exact hnumber c hc
    · rcases h.tail with rfl | rfl
      · exact absurd hc List.not_mem_nil
      · have hspace := hlib.digit_not_space c hdigit
        rw [List.mem_singleton.mp hc] at hspace
        exact nomatch hspace

theorem MobileForm.oneLine_iff (hlib : lib.Documented upperChar) {value : String} {number tail : List Char}
    (h : MobileForm lib (cleaned value) number tail) : OneLine value ↔ tail = [] := by
  have hkeeps : '\n' ∈ (stripText isPySpace value).toList ↔ '\n' ∈ cleaned value := by
    rw [cleaned, List.mem_filter]
    exact (and_iff_left (by decide)).symm
  obtain ⟨pre, hpre, htext⟩ := h.text
  have hstart : '\n' ∉ pre := by
    have hall : ∀ pre ∈ [[], ['8', '6'], ['+', '8', '6']], '\n' ∉ pre := by decide
    exact hall pre hpre
  rw [OneLine, hkeeps, htext, List.mem_append, List.mem_append]
  rcases h.tail with rfl | rfl
  · exact iff_of_true (by simp [hstart, h.newline_not_mem hlib]) rfl
  · exact iff_of_false (by simp) (by simp)

/-- What follows a text that does not begin with white space is stripped from its end. -/
theorem stripChars_concat {p : Char → Bool} {c d : Char} (hc : p c = true) (hd : p d = false)
    (cs : List Char) : stripChars p (d :: cs ++ [c]) = stripChars p (d :: cs) := by
  have hkeep : ∀ l, (d :: l).dropWhile p = d :: l := fun l =>
    List.dropWhile_cons_of_neg (Bool.eq_false_iff.mp hd)
  rw [stripChars, stripChars, List.cons_append, hkeep, hkeep, ← List.cons_append, List.reverse_append,
    List.reverse_singleton, List.singleton_append, List.dropWhile_cons_of_pos hc]

/-- Of a normal form only the newline is stripped, whichever white space counts. -/
theorem MobileForm.stripChars_eq (hlib : lib.Documented upperChar) {text number tail : List Char}
    (h : MobileForm lib text number tail) {p : Char → Bool} (hp : ∀ c, isPySpace c = false → p c = false)
    (hnewline : p '\n' = true) :
    stripChars p ("+86" ++ String.ofList (number ++ tail)).toList = ['+', '8', '6'] ++ number := by
  have hchars : ("+86" ++ String.ofList (number ++ tail)).toList = '+' :: (['8', '6'] ++ number) ++ tail := by
    simp only [String.toList_append, String.toList_ofList, List.cons_append, List.nil_append]
    rfl
  have hplus : p '+' = false := hp '+' (by decide)
  have hself : stripChars p ('+' :: (['8', '6'] ++ number)) = '+' :: (['8', '6'] ++ number) := by
    apply stripChars_eq_self
    · intro c hc
      obtain rfl := Option.some.inj hc
      exact hplus
    · intro c hc
      have hne : number ≠ [] := List.ne_nil_of_length_eq_add_one h.length_number
      rw [← List.cons_append, List.getLast?_append_of_ne_nil _ hne] at hc
      exact hp c (hlib.digit_not_space c (h.isDigit_number hlib c (List.mem_of_getLast? hc)))
  rw [hchars]
  rcases h.tail with rfl | rfl
  · rw [List.append_nil, hself]
    rfl
  · rw [stripChars_concat hnewline hplus, hself]
    rfl

theorem MobileForm.cleaned_eq (hlib : lib.Documented upperChar) {text number tail : List Char}
    (h : MobileForm lib text number tail) :
    CrisisMosaic.cleaned ("+86" ++ String.ofList (number ++ tail)) = ['+', '8', '6'] ++ number := by
  have hstay : ∀ c ∈ number, isPySpace c = false := fun c hc =>
    hlib.digit_not_space c (h.isDigit_number hlib c hc)
  have hstrip := h.stripChars_eq hlib (p := isPySpace) (fun _ hc => hc) (by decide)
  rw [CrisisMosaic.cleaned, stripText, String.toList_ofList, hstrip, List.filter_eq_self]
  intro c hc
  rcases List.mem_append.mp hc with hc | hc
  · have hall : ['+', '8', '6'].all (fun c => decide (c ≠ ' ') && decide (c ≠ '-')) = true := by decide
    exact List.all_eq_true.mp hall c hc
  · have hdigit := h.isDigit_number hlib c hc
    rw [Bool.and_eq_true, decide_eq_true_eq, decide_eq_true_eq]
    constructor
    · rintro rfl
      cases hstay ' ' hc
    · rintro rfl
      rw [isDigit, hlib.digit_none (by decide) (by decide)] at hdigit
      cases hdigit

/-- Normalised again, a number loses a newline and keeps all else. -/
theorem MobileForm.normalize (hlib : lib.Documented upperChar) {text number tail : List Char}
    (h : MobileForm lib text number tail) : normalizeMobile lib ("+86" ++ String.ofList (number ++ tail)) =
      .ok ("+86" ++ String.ofList number) := by
  have hlocal : withoutPrefix (['+', '8', '6'] ++ number) = number := rfl
  rw [normalizeMobile_ok, h.cleaned_eq hlib, hlocal, matchesMobile_iff]
  refine ⟨?_, rfl⟩
  obtain ⟨d, rest, hnumber, hrest⟩ := h.number
  refine ⟨d, rest, ?_, hrest⟩
  rw [← hnumber]
  exact if_neg fun hlast => h.newline_not_mem hlib (List.mem_of_getLast? hlast)

/-- The normal form of an accepted number is canonical exactly if the input was typed plainly. -/
theorem MobileForm.canonical_iff (hlib : lib.Documented upperChar) {value : String} {number tail : List Char}
    (h : MobileForm lib (cleaned value) number tail) :
    CanonicalMobile ("+86" ++ String.ofList (number ++ tail)) ↔ PlainDigits lib value ∧ OneLine value := by
  rw [h.plain_iff hlib, h.oneLine_iff hlib]
  constructor
  · rintro ⟨number', heq, hlength, hascii⟩
    have hchars : number ++ tail = number' := by
      have hlists := congrArg String.toList heq
      simp only [String.toList_append, String.toList_ofList] at hlists
      exact List.append_cancel_left hlists
    have htail : tail = [] := by
      have hsum := congrArg List.length hchars
      rw [List.length_append, h.length_number, hlength] at hsum
      exact List.length_eq_zero_iff.mp (by omega)
    refine ⟨fun c hc => hascii c ?_, htail⟩
    rw [← hchars]
    exact List.mem_append_left _ hc
  · rintro ⟨hascii, rfl⟩
    exact ⟨number, by rw [List.append_nil], h.length_number, hascii⟩

/-! ## National identity numbers -/

theorem idSymbol_space (hlib : lib.Documented upperChar) {c : Char} (hc : isPySpace c = true) :
    idSymbol lib c = none := by
  have hne : ¬ (c = 'x' ∨ c = 'X') := by
    rintro (rfl | rfl)
    · exact nomatch hc
    · exact nomatch hc
  rw [idSymbol, if_neg hne]
  exact hlib.space_not_digit hc

variable (lib) in
/-- The checks a text passes, which is in upper case. -/
structure ValidNationalId (text : String) : Prop where
  matched : matchesNationalId lib text = true
  date : isDate lib ((text.toList.drop 6).take 8) = true
  check : text.toList.getLast? = nationalIdChecks[(List.zipWith (· * ·)
    ((text.toList.take 17).map fun c => (lib.digit c).getD 0) nationalIdWeights).sum % 11]?

theorem validateNationalId_ok {value : String} {id : Option String} :
    validateNationalId lib (some value) = .ok id ↔
      (stripText isPySpace value = "" ∧ id = none) ∨
        (stripText isPySpace value ≠ "" ∧ ValidNationalId lib (lib.upper (stripText isPySpace value)) ∧
          id = some (lib.upper (stripText isPySpace value))) := by
  by_cases hblank : stripText isPySpace value = ""
  · have hnone : normalizeOptional (some value) = none := if_pos hblank
    simp only [validateNationalId, hnone, hblank, pure_ok, true_and, ne_eq, not_true_eq_false, false_and,
      or_false]
    exact eq_comm
  · have hsome : normalizeOptional (some value) = some (stripText isPySpace value) := if_neg hblank
    simp only [validateNationalId, hsome, bind_ok, require_ok, pure_ok, exists_and_left, exists_const, hblank,
      false_and, ne_eq, not_false_eq_true, true_and, false_or]
    constructor
    · rintro ⟨hmatched, hdate, hcheck, rfl⟩
      exact ⟨⟨hmatched, hdate, hcheck⟩, rfl⟩
    · rintro ⟨⟨hmatched, hdate, hcheck⟩, rfl⟩
      exact ⟨hmatched, hdate, hcheck, rfl⟩

namespace ValidNationalId
variable {text : String}

theorem last_mem (h : ValidNationalId lib text) : ∀ c ∈ text.toList.getLast?, c ∈ nationalIdChecks := by
  intro c hc
  rw [h.check] at hc
  exact List.mem_of_getElem? hc

theorem shape (h : ValidNationalId lib text) :
    text.toList.length = 18 ∧ ∀ c ∈ text.toList.take 17, isDigit lib c = true := by
  have hbefore : beforeNewline text.toList = text.toList :=
    if_neg fun hnewline => (nationalIdChecks_not_white (h.last_mem _ hnewline)).2 rfl
  have hmatched := h.matched
  simp only [matchesNationalId, hbefore, Bool.and_eq_true, decide_eq_true_eq, List.all_eq_true] at hmatched
  exact ⟨hmatched.1.1, hmatched.1.2⟩

theorem check_mem (h : ValidNationalId lib text) : ∀ c ∈ text.toList.drop 17, c ∈ nationalIdChecks := by
  intro c hc
  apply h.last_mem
  obtain ⟨x, hx⟩ : ∃ x, text.toList.drop 17 = [x] := by
    rw [← List.length_eq_one_iff, List.length_drop, h.shape.1]
  have hlast : text.toList.getLast? = some x := by
    rw [← List.take_append_drop 17 text.toList, hx, List.getLast?_concat]
  rw [hx] at hc
  rw [List.mem_singleton.mp hc]
  exact hlast

theorem symbol_cases (hlib : lib.Documented upperChar) (h : ValidNationalId lib text) :
    ∀ c ∈ text.toList, (lib.digit c).isSome = true ∨ c = 'X' := by
  intro c hc
  rw [← List.take_append_drop 17 text.toList, List.mem_append] at hc
  rcases hc with hc | hc
  · exact Or.inl (h.shape.2 c hc)
  · have hall : nationalIdChecks.all (fun c => c.isDigit || c = 'X') = true := by decide
    have hcheck := List.all_eq_true.mp hall c (h.check_mem c hc)
    rcases Bool.or_eq_true_iff.mp hcheck with hdigit | hx
    · rw [hlib.digit_of_isDigit hdigit]
      exact Or.inl rfl
    · exact Or.inr (of_decide_eq_true hx)

theorem not_space (hlib : lib.Documented upperChar) (h : ValidNationalId lib text) :
    ∀ c ∈ text.toList, isPySpace c = false := by
  intro c hc
  rcases h.symbol_cases hlib c hc with hdigit | rfl
  · exact hlib.digit_not_space c hdigit
  · decide

/-- Validated again, a text is left as it is. -/
theorem validate (hlib : lib.Documented upperChar) (h : ValidNationalId lib text) :
    validateNationalId lib (some text) = .ok (some text) := by
  have hstrip : stripText isPySpace text = text := by
    rw [stripText, stripChars_eq_self, String.ofList_toList]
    · exact fun c hc => h.not_space hlib c (List.mem_of_mem_head? hc)
    · exact fun c hc => h.not_space hlib c (List.mem_of_getLast? hc)
  have hupper : lib.upper text = text := by
    have hchars : text.toList.flatMap upperChar = text.toList := by
      conv_rhs => rw [← List.flatMap_singleton' text.toList]
      apply List.flatMap_congr
      intro c hc
      rcases h.symbol_cases hlib c hc with hdigit | rfl
      · exact hlib.upper_digit c hdigit
      · exact hlib.upper_ascii 'X' (by decide)
    rw [hlib.upper_eq, hchars, String.ofList_toList]
  rw [validateNationalId_ok, hstrip, hupper]
  refine Or.inr ⟨?_, h, rfl⟩
  rintro rfl
  exact absurd h.shape.1 (by decide)

/-- The text has the characters of what was typed, with a small x in upper case. -/
theorem chars_eq (hlib : lib.Documented upperChar) {stripped : String}
    (h : ValidNationalId lib (lib.upper stripped)) :
    (lib.upper stripped).toList = stripped.toList.map fun c => if c = 'x' then 'X' else c := by
  have hchars : (lib.upper stripped).toList = stripped.toList.flatMap upperChar := by
    rw [hlib.upper_eq, String.toList_ofList]
  rw [hchars, List.map_eq_flatMap]
  apply List.flatMap_congr
  intro c hc
  obtain ⟨d, hd⟩ := List.exists_mem_of_ne_nil _ (hlib.upper_ne_nil c)
  have hmem : d ∈ (lib.upper stripped).toList := by
    rw [hchars]
    exact List.mem_flatMap.mpr ⟨c, hc, hd⟩
  rcases hlib.upper_only c d hd (h.symbol_cases hlib d hmem) with hdigit | rfl | rfl
  · have hx : c ≠ 'x' := by
      rintro rfl
      rw [hlib.digit_none (by decide) (by decide)] at hdigit
      exact nomatch hdigit
    rw [if_neg hx]
    exact hlib.upper_digit c hdigit
  · exact hlib.upper_ascii 'x' (by decide)
  · exact hlib.upper_ascii 'X' (by decide)

/-- Reading symbols off the normal form is reading them off the input. -/
theorem filterMap_eq (hlib : lib.Documented upperChar) {value : String} {β : Type} {f : Char → Option β}
    (hf : ∀ c, isPySpace c = true → f c = none) (hx : f 'X' = f 'x')
    (h : ValidNationalId lib (lib.upper (stripText isPySpace value))) :
    (lib.upper (stripText isPySpace value)).toList.filterMap f = value.toList.filterMap f := by
  have hcase : (f ∘ fun c => if c = 'x' then 'X' else c) = f := by
    funext c
    by_cases hc : c = 'x'
    · subst hc
      exact hx
    · exact congrArg f (if_neg hc)
  rw [h.chars_eq hlib, List.filterMap_map, hcase, stripText, String.toList_ofList, filterMap_stripChars hf]

theorem symbols_eq (hlib : lib.Documented upperChar) {value : String}
    (h : ValidNationalId lib (lib.upper (stripText isPySpace value))) :
    idSymbols lib (lib.upper (stripText isPySpace value)) = idSymbols lib value := by
  exact h.filterMap_eq hlib (fun c hc => idSymbol_space hlib hc) rfl

theorem mem_iff (hlib : lib.Documented upperChar) {value : String}
    (h : ValidNationalId lib (lib.upper (stripText isPySpace value))) {c : Char} (hc : isDigit lib c = true) :
    c ∈ (lib.upper (stripText isPySpace value)).toList ↔ c ∈ value.toList := by
  have hsame := h.filterMap_eq hlib (f := fun d => (lib.digit d).map fun _ => d)
    (fun d hd => by rw [hlib.space_not_digit hd]; rfl)
    (by rw [hlib.digit_none (by decide) (by decide), hlib.digit_none (by decide) (by decide)]; rfl)
  rw [← mem_digits hc, hsame, mem_digits hc]

/-- The normal form is canonical exactly if the input was typed plainly. -/
theorem canonical_iff (hlib : lib.Documented upperChar) {value : String}
    (h : ValidNationalId lib (lib.upper (stripText isPySpace value))) :
    CanonicalNationalId (lib.upper (stripText isPySpace value)) ↔ PlainDigits lib value := by
  constructor
  · rintro ⟨-, hfirst, hlast⟩ c hc hdigit
    have hmem := (h.mem_iff hlib hdigit).mpr hc
    rw [← List.take_append_drop 17 (lib.upper _).toList, List.mem_append] at hmem
    rcases hmem with hmem | hmem
    · exact hfirst c hmem
    · refine (hlast c hmem).resolve_right ?_
      rintro rfl
      rw [isDigit, hlib.digit_none (by decide) (by decide)] at hdigit
      exact nomatch hdigit
  · intro hplain
    refine ⟨h.shape.1, ?_, ?_⟩
    · intro c hc
      have hdigit := h.shape.2 c hc
      exact hplain c ((h.mem_iff hlib hdigit).mp (List.mem_of_mem_take hc)) hdigit
    · intro c hc
      have hmem := List.mem_of_mem_drop hc
      rcases h.symbol_cases hlib c hmem with hdigit | hx
      · exact Or.inl (hplain c ((h.mem_iff hlib hdigit).mp hmem) hdigit)
      · exact Or.inr hx

end ValidNationalId

/-! ## One spelling -/

/-- The texts are equal if their characters have equal values. -/
theorem filterMap_inj {β : Type} {f : Char → Option β} {cs ds : List Char}
    (hcs : ∀ c ∈ cs, (f c).isSome = true) (hds : ∀ d ∈ ds, (f d).isSome = true)
    (hinj : ∀ c ∈ cs, ∀ d ∈ ds, f c = f d → c = d) (h : cs.filterMap f = ds.filterMap f) : cs = ds := by
  induction cs generalizing ds with
  | nil =>
    cases ds with
    | nil => rfl
    | cons d ds =>
      obtain ⟨y, hy⟩ := Option.isSome_iff_exists.mp (hds d List.mem_cons_self)
      rw [List.filterMap_nil, List.filterMap_cons_some hy] at h
      exact nomatch h
  | cons c cs ih =>
    obtain ⟨x, hx⟩ := Option.isSome_iff_exists.mp (hcs c List.mem_cons_self)
    cases ds with
    | nil =>
      rw [List.filterMap_nil, List.filterMap_cons_some hx] at h
      exact nomatch h
    | cons d ds =>
      obtain ⟨y, hy⟩ := Option.isSome_iff_exists.mp (hds d List.mem_cons_self)
      rw [List.filterMap_cons_some hx, List.filterMap_cons_some hy] at h
      obtain ⟨hxy, hrest⟩ := List.cons.inj h
      have hhead : c = d := hinj c List.mem_cons_self d List.mem_cons_self (by rw [hx, hy, hxy])
      have htail : cs = ds := ih (fun e he => hcs e (List.mem_cons_of_mem c he))
        (fun e he => hds e (List.mem_cons_of_mem d he))
        (fun e he e' he' => hinj e (List.mem_cons_of_mem c he) e' (List.mem_cons_of_mem d he')) hrest
      rw [hhead, htail]

theorem MobileForm.eq_of_digits (hlib : lib.Documented upperChar) {value value' : String}
    {number tail number' tail' : List Char} (h : MobileForm lib (cleaned value) number tail)
    (h' : MobileForm lib (cleaned value') number' tail') (hplain : PlainDigits lib value)
    (hplain' : PlainDigits lib value') (hsame : mobileDigits lib value = mobileDigits lib value') :
    number = number' := by
  rw [h.digits hlib, h'.digits hlib] at hsame
  refine filterMap_inj (h.isDigit_number hlib) (h'.isDigit_number hlib) ?_ hsame
  exact fun c hc d hd heq =>
    hlib.digit_inj ((h.plain_iff hlib).mp hplain c hc) ((h'.plain_iff hlib).mp hplain' d hd) heq

theorem ValidNationalId.idSymbol_isSome (hlib : lib.Documented upperChar) {text : String}
    (h : ValidNationalId lib text) : ∀ c ∈ text.toList, (idSymbol lib c).isSome = true := by
  intro c hc
  unfold idSymbol
  split_ifs with hx
  · rfl
  · exact (h.symbol_cases hlib c hc).resolve_right fun hX => hx (Or.inr hX)

theorem ValidNationalId.eq_of_symbols (hlib : lib.Documented upperChar) {text text' : String}
    (h : ValidNationalId lib text) (h' : ValidNationalId lib text') (hplain : PlainDigits lib text)
    (hplain' : PlainDigits lib text') (hsame : idSymbols lib text = idSymbols lib text') : text = text' := by
  -- A digit has a value below that of the check character.
  have hsymbol : ∀ {t : String}, ValidNationalId lib t → PlainDigits lib t → ∀ c ∈ t.toList,
      (c.isDigit = true ∧ idSymbol lib c = some (c.toNat - 48)) ∨ (c = 'X' ∧ idSymbol lib c = some 10) := by
    intro t ht hp c hc
    rcases ht.symbol_cases hlib c hc with hdigit | rfl
    · left
      have hascii := hp c hc hdigit
      have hne : ¬ (c = 'x' ∨ c = 'X') := by
        rintro (rfl | rfl)
        · exact nomatch hascii
        · exact nomatch hascii
      rw [idSymbol, if_neg hne]
      exact ⟨hascii, hlib.digit_of_isDigit hascii⟩
    · exact Or.inr ⟨rfl, rfl⟩
  have hchars : text.toList = text'.toList := by
    refine filterMap_inj (h.idSymbol_isSome hlib) (h'.idSymbol_isSome hlib) ?_ hsame
    intro c hc d hd heq
    rcases hsymbol h hplain c hc with ⟨hcd, hcs⟩ | ⟨rfl, hcs⟩
    · rcases hsymbol h' hplain' d hd with ⟨hdd, hds⟩ | ⟨rfl, hds⟩
      · refine hlib.digit_inj hcd hdd ?_
        rw [hlib.digit_of_isDigit hcd, hlib.digit_of_isDigit hdd, ← hcs, ← hds, heq]
      · rw [hcs, hds] at heq
        have hbound := isDigit_isAscii hcd
        have hten := Option.some.inj heq
        omega
    · rcases hsymbol h' hplain' d hd with ⟨hdd, hds⟩ | ⟨rfl, -⟩
      · rw [hcs, hds] at heq
        have hbound := isDigit_isAscii hdd
        have hten := Option.some.inj heq
        omega
      · rfl
  exact String.toList_injective hchars

/-- A blank has no digits. -/
theorem blank_filterMap {β : Type} {f : Char → Option β} (hf : ∀ c, isPySpace c = true → f c = none)
    {value : String} (h : stripText isPySpace value = "") : value.toList.filterMap f = [] := by
  have hchars : stripChars isPySpace value.toList = [] := by
    have hlist := congrArg String.toList h
    rwa [stripText, String.toList_ofList] at hlist
  rw [← filterMap_stripChars hf, hchars, List.filterMap_nil]

/-- What denotes no symbol is not valid. -/
theorem ValidNationalId.idSymbols_ne_nil (hlib : lib.Documented upperChar) {value : String}
    (h : ValidNationalId lib (lib.upper (stripText isPySpace value))) : idSymbols lib value ≠ [] := by
  intro hnil
  rw [← h.symbols_eq hlib] at hnil
  have hempty : (lib.upper (stripText isPySpace value)).toList = [] :=
    filterMap_inj (h.idSymbol_isSome hlib) (fun d hd => absurd hd List.not_mem_nil)
      (fun c _ d hd => absurd hd List.not_mem_nil) hnil
  have hlength := h.shape.1
  rw [hempty] at hlength
  exact nomatch hlength

variable (lib) in
/-- The normal form is ASCII, and a normal form of itself. -/
structure SettledMobile (out : String) : Prop where
  canonical : CanonicalMobile out
  again : normalizeMobile lib out = .ok out

variable (lib) in
structure SettledNationalId (out : Option String) : Prop where
  canonical : ∀ text ∈ out, CanonicalNationalId text
  again : validateNationalId lib out = .ok out

theorem settledMobile_iff (hlib : lib.Documented upperChar) {value out : String}
    (h : normalizeMobile lib value = .ok out) :
    SettledMobile lib out ↔ PlainDigits lib value ∧ OneLine value := by
  obtain ⟨number, tail, hform, rfl⟩ := normalizeMobile_form h
  rw [← hform.canonical_iff hlib]
  constructor
  · exact SettledMobile.canonical
  · intro hcanonical
    refine ⟨hcanonical, ?_⟩
    have htail := (hform.oneLine_iff hlib).mp ((hform.canonical_iff hlib).mp hcanonical).2
    rw [hform.normalize hlib, htail, List.append_nil]

theorem settledNationalId_iff (hlib : lib.Documented upperChar) {value : String} {out : Option String}
    (h : validateNationalId lib (some value) = .ok out) : SettledNationalId lib out ↔ PlainDigits lib value := by
  rcases validateNationalId_ok.mp h with ⟨hblank, rfl⟩ | ⟨-, hvalid, rfl⟩
  · refine iff_of_true ⟨nofun, rfl⟩ ?_
    intro c hc hdigit
    rw [← mem_digits hdigit, blank_filterMap (fun d hd => by rw [hlib.space_not_digit hd]; rfl) hblank] at hc
    exact absurd hc List.not_mem_nil
  · rw [← hvalid.canonical_iff hlib]
    constructor
    · exact fun hsettled => hsettled.canonical _ rfl
    · intro hcanonical
      refine ⟨?_, hvalid.validate hlib⟩
      intro text htext
      rw [← Option.some.inj htext]
      exact hcanonical

end Laws

/-- Accepted numbers have ASCII normal forms which are left by another normalisation, and equal numbers
equal ones, exactly if their digits are typed in ASCII and, for mobile numbers, on one line. -/
theorem numbers_have_one_spelling_iff {lib : PiiLib} {upperChar : Char → List Char}
    (hlib : lib.Documented upperChar) :
    (∀ value value' out out', normalizeMobile lib value = .ok out → normalizeMobile lib value' = .ok out' →
      ((SettledMobile lib out ∧ SettledMobile lib out' ∧ (mobileDigits lib value = mobileDigits lib value' →
          out = out' ∧ lib.hmac out = lib.hmac out')) ↔
        (PlainDigits lib value ∧ OneLine value) ∧ PlainDigits lib value' ∧ OneLine value')) ∧
    ∀ value value' id id', validateNationalId lib (some value) = .ok id →
      validateNationalId lib (some value') = .ok id' →
      ((SettledNationalId lib id ∧ SettledNationalId lib id' ∧ (idSymbols lib value = idSymbols lib value' →
          id = id' ∧ id.map lib.hmac = id'.map lib.hmac)) ↔
        PlainDigits lib value ∧ PlainDigits lib value') := by
  constructor
  · intro value value' out out' hout hout'
    rw [← settledMobile_iff hlib hout, ← settledMobile_iff hlib hout']
    constructor
    · exact fun h => ⟨h.1, h.2.1⟩
    · rintro ⟨hsettled, hsettled'⟩
      refine ⟨hsettled, hsettled', fun hsame => ?_⟩
      have heq : out = out' := by
        obtain ⟨hplain, hline⟩ := (settledMobile_iff hlib hout).mp hsettled
        obtain ⟨hplain', hline'⟩ := (settledMobile_iff hlib hout').mp hsettled'
        obtain ⟨number, tail, hform, rfl⟩ := normalizeMobile_form hout
        obtain ⟨number', tail', hform', rfl⟩ := normalizeMobile_form hout'
        rw [hform.eq_of_digits hlib hform' hplain hplain' hsame, (hform.oneLine_iff hlib).mp hline,
          (hform'.oneLine_iff hlib).mp hline']
      exact ⟨heq, congrArg lib.hmac heq⟩
  · intro value value' id id' hid hid'
    rw [← settledNationalId_iff hlib hid, ← settledNationalId_iff hlib hid']
    constructor
    · exact fun h => ⟨h.1, h.2.1⟩
    · rintro ⟨hsettled, hsettled'⟩
      refine ⟨hsettled, hsettled', fun hsame => ?_⟩
      have heq : id = id' := by
        rcases validateNationalId_ok.mp hid with ⟨hblank, rfl⟩ | ⟨-, hvalid, rfl⟩
        · rcases validateNationalId_ok.mp hid' with ⟨-, rfl⟩ | ⟨-, hvalid', rfl⟩
          · rfl
          · rw [idSymbols, blank_filterMap (fun c hc => idSymbol_space hlib hc) hblank] at hsame
            exact absurd hsame.symm (hvalid'.idSymbols_ne_nil hlib)
        · rcases validateNationalId_ok.mp hid' with ⟨hblank', rfl⟩ | ⟨-, hvalid', rfl⟩
          · rw [idSymbols, idSymbols, blank_filterMap (fun c hc => idSymbol_space hlib hc) hblank'] at hsame
            exact absurd hsame (hvalid.idSymbols_ne_nil hlib)
          · have hplain := (settledNationalId_iff hlib hid).mp hsettled
            have hplain' := (settledNationalId_iff hlib hid').mp hsettled'
            rw [← hvalid.symbols_eq hlib, ← hvalid'.symbols_eq hlib] at hsame
            exact congrArg some (hvalid.eq_of_symbols hlib hvalid'
              (fun c hc hdigit => hplain c ((hvalid.mem_iff hlib hdigit).mp hc) hdigit)
              (fun c hc hdigit => hplain' c ((hvalid'.mem_iff hlib hdigit).mp hc) hdigit) hsame)
      exact ⟨heq, congrArg (Option.map lib.hmac) heq⟩

/-- The decimal digits of Unicode: each of these code points is a zero, and the next nine follow it. -/
def decimalZeros : List ℕ :=
  [0x30, 0x660, 0x6f0, 0x7c0, 0x966, 0x9e6, 0xa66, 0xae6, 0xb66, 0xbe6, 0xc66, 0xce6, 0xd66, 0xde6,
    0xe50, 0xed0, 0xf20, 0x1040, 0x1090, 0x17e0, 0x1810, 0x1946, 0x19d0, 0x1a80, 0x1a90, 0x1b50,
    0x1bb0, 0x1c40, 0x1c50, 0xa620, 0xa8d0, 0xa900, 0xa9d0, 0xa9f0, 0xaa50, 0xabf0, 0xff10,
    0x104a0, 0x10d30, 0x11066, 0x110f0, 0x11136, 0x111d0, 0x112f0, 0x11450, 0x114d0, 0x11650,
    0x116c0, 0x11730, 0x118e0, 0x11950, 0x11c50, 0x11d50, 0x11da0, 0x11f50, 0x16a60, 0x16ac0,
    0x16b50, 0x1d7ce, 0x1d7d8, 0x1d7e2, 0x1d7ec, 0x1d7f6, 0x1e140, 0x1e2f0, 0x1e4f0, 0x1e950,
    0x1fbf0]

def decimalDigit (c : Char) : Option ℕ :=
  (decimalZeros.find? fun first => first ≤ c.toNat && c.toNat < first + 10).map (c.toNat - ·)

theorem decimalDigit_bounds {c : Char} (h : (decimalDigit c).isSome = true) :
    ∃ first ∈ decimalZeros, first ≤ c.toNat ∧ c.toNat < first + 10 := by
  rw [decimalDigit, Option.isSome_map, List.find?_isSome] at h
  obtain ⟨first, hmem, hbounds⟩ := h
  rw [Bool.and_eq_true, decide_eq_true_eq, decide_eq_true_eq] at hbounds
  exact ⟨first, hmem, hbounds⟩

theorem decimalDigit_not_space {c : Char} (h : (decimalDigit c).isSome = true) : isPySpace c = false := by
  obtain ⟨first, hmem, hlow, hhigh⟩ := decimalDigit_bounds h
  have hgaps : decimalZeros.all (fun first => 0x20 < first && (first + 9 < 0x85 || 0xA0 < first) &&
      (first + 9 < 0x1680 || 0x1680 < first) && (first + 9 < 0x2000 || 0x205F < first) &&
        (first + 9 < 0x3000 || 0x3000 < first)) = true := by decide
  have hgap := List.all_eq_true.mp hgaps first hmem
  simp only [Bool.and_eq_true, Bool.or_eq_true, decide_eq_true_eq] at hgap
  simp only [isPySpace, isWhite, Bool.or_eq_false_iff, Bool.and_eq_false_iff, decide_eq_false_iff_not]
  omega

theorem decimalDigit_ascii {c : Char} (h : c.toNat < 128) :
    decimalDigit c = if c.isDigit then some (c.toNat - 48) else none := by
  have hall : ((List.range 128).all fun n => decimalDigit (Char.ofNat n) =
      if (Char.ofNat n).isDigit then some ((Char.ofNat n).toNat - 48) else none) = true := by decide +kernel
  have hc := List.all_eq_true.mp hall c.toNat (List.mem_range.mpr h)
  rw [decide_eq_true_eq, Char.ofNat_toNat] at hc
  exact hc

theorem toUpper_of_not_isLower {c : Char} (h : ¬ c.isLower = true) : c.toUpper = c := by
  unfold Char.toUpper
  rw [dif_neg]
  rwa [Char.isLower, Bool.and_eq_true, decide_eq_true_eq, decide_eq_true_eq] at h

namespace Sample

/-- Python's digits and its upper case of ASCII. -/
def unicodePii : PiiLib :=
  { pii with
    digit := decimalDigit
    upper := fun s => String.ofList (s.toList.flatMap fun c => [c.toUpper])
    digit_not_white := fun _ h => isWhite_of_isPySpace (decimalDigit_not_space h) }

theorem isLower_facts {c : Char} (h : c.isLower = true) :
    decimalDigit c = none ∧ decimalDigit c.toUpper = none ∧ (c.toUpper = 'X' → c = 'x') := by
  have hbound : 97 ≤ c.toNat ∧ c.toNat ≤ 122 := by
    simp only [Char.isLower, Bool.and_eq_true, decide_eq_true_eq] at h
    exact ⟨h.1, h.2⟩
  have hall : ((List.range 128).all fun n => n < 97 || (decimalDigit (Char.ofNat n) = none &&
      decimalDigit (Char.ofNat n).toUpper = none &&
        ((Char.ofNat n).toUpper ≠ 'X' || Char.ofNat n = 'x')) || 122 < n) = true := by decide +kernel
  have hc := List.all_eq_true.mp hall c.toNat (List.mem_range.mpr (by omega))
  rw [Char.ofNat_toNat] at hc
  simp only [Bool.or_eq_true, Bool.and_eq_true, decide_eq_true_eq] at hc
  rcases hc with (hlow | ⟨⟨hnone, hupper⟩, hx⟩) | hhigh
  · omega
  · exact ⟨hnone, hupper, fun hX => hx.resolve_left fun hne => hne hX⟩
  · omega

theorem unicodePii_documented : unicodePii.Documented fun c => [c.toUpper] where
  digit_ascii _ h := decimalDigit_ascii h
  digit_not_space _ h := decimalDigit_not_space h
  upper_eq _ := rfl
  upper_ascii _ _ := rfl
  upper_digit c h := by
    have hlower : ¬ c.isLower = true := by
      intro hlower
      change (decimalDigit c).isSome = true at h
      rw [(isLower_facts hlower).1] at h
      exact nomatch h
    rw [toUpper_of_not_isLower hlower]
  upper_ne_nil _ := List.cons_ne_nil _ _
  upper_only c d hd h := by
    obtain rfl := List.mem_singleton.mp hd
    by_cases hlower : c.isLower = true
    · obtain ⟨-, hnone, hx⟩ := isLower_facts hlower
      rcases h with hdigit | hX
      · change (decimalDigit c.toUpper).isSome = true at hdigit
        rw [hnone] at hdigit
        exact nomatch hdigit
      · exact Or.inr (Or.inl (hx hX))
    · rw [toUpper_of_not_isLower hlower] at h
      exact h.imp_right Or.inr

end Sample
open Sample

/-- A number with spaces, and with the country and dashes. -/
theorem plain_numbers_have_one_spelling : SettledMobile unicodePii "+8613800000000" ∧
    SettledNationalId unicodePii (some "11010519491231002X") := by
  have hspaces : normalizeMobile unicodePii "138 0000 0000" = .ok "+8613800000000" := by
    rw [normalizeMobile_ok]
    decide +kernel
  have hdashes : normalizeMobile unicodePii "+86-138-0000-0000" = .ok "+8613800000000" := by
    rw [normalizeMobile_ok]
    decide +kernel
  have hsmall : validateNationalId unicodePii (some "11010519491231002x") =
      .ok (some "11010519491231002X") := by
    rw [validateNationalId_ok]
    exact Or.inr ⟨by decide +kernel, ⟨by decide +kernel, by decide +kernel, by decide +kernel⟩, by decide +kernel⟩
  have hplain : ∀ value : String, (value.toList.all fun c => !isDigit unicodePii c || c.isDigit) = true →
      PlainDigits unicodePii value := by
    intro value hall c hc hdigit
    have hchar := List.all_eq_true.mp hall c hc
    rwa [hdigit, Bool.not_true, Bool.false_or] at hchar
  constructor
  · exact (((numbers_have_one_spelling_iff unicodePii_documented).1 _ _ _ _ hspaces hdashes).mpr
      ⟨⟨hplain _ (by decide +kernel), by unfold OneLine; decide +kernel⟩, hplain _ (by decide +kernel),
        by unfold OneLine; decide +kernel⟩).1
  · exact (((numbers_have_one_spelling_iff unicodePii_documented).2 _ _ _ _ hsmall hsmall).mpr
      ⟨hplain _ (by decide +kernel), hplain _ (by decide +kernel)⟩).1

/-- Two spellings of a mobile number, one with wide zeros, have two normal forms; a line break stays until
the second normalisation; and an identity number has two spellings as well. -/
theorem wide_digits_have_other_normal_forms :
    (∃ value value' out out', normalizeMobile unicodePii value = .ok out ∧
      normalizeMobile unicodePii value' = .ok out' ∧
        mobileDigits unicodePii value = mobileDigits unicodePii value' ∧ out ≠ out') ∧
    (∃ value out, normalizeMobile unicodePii value = .ok out ∧ normalizeMobile unicodePii out ≠ .ok out) ∧
    ∃ value value' id id', validateNationalId unicodePii (some value) = .ok id ∧
      validateNationalId unicodePii (some value') = .ok id' ∧
        idSymbols unicodePii value = idSymbols unicodePii value' ∧ id ≠ id' := by
  refine ⟨⟨"13800000000", "138００００００００", "+8613800000000", "+86138００００００００", ?_, ?_, by decide +kernel,
    by decide⟩, ⟨"13800000000\n-", "+8613800000000\n", ?_, ?_⟩, "11010519491231002X", "１1010519491231002X",
      some "11010519491231002X", some "１1010519491231002X", ?_, ?_, by decide +kernel, by decide⟩
  · rw [normalizeMobile_ok]
    decide +kernel
  · rw [normalizeMobile_ok]
    decide +kernel
  · rw [normalizeMobile_ok]
    decide +kernel
  · rw [ne_eq, normalizeMobile_ok]
    decide +kernel
  · rw [validateNationalId_ok]
    exact Or.inr ⟨by decide +kernel, ⟨by decide +kernel, by decide +kernel, by decide +kernel⟩, by decide +kernel⟩
  · rw [validateNationalId_ok]
    exact Or.inr ⟨by decide +kernel, ⟨by decide +kernel, by decide +kernel, by decide +kernel⟩, by decide +kernel⟩

end CrisisMosaic
