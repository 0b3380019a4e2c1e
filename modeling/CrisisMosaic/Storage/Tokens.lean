import Mathlib.Data.List.DropRight
import Mathlib.Tactic
import CrisisMosaic.Storage.Codec

/-!
# Texts as tokens, and texts put together

UTF-8 under Base64 without its padding. The padding a token lacks follows from its length.
-/

namespace Storage

def utf8 : Codec String (List (Fin 256)) where
  encode s := s.toByteArray.data.toList.map UInt8.toFin
  decode bytes := String.fromUTF8? ⟨(bytes.map UInt8.ofFin).toArray⟩
  decode_encode s := by
    have hbytes : ((s.toByteArray.data.toList.map UInt8.toFin).map UInt8.ofFin).toArray =
        s.toByteArray.data := by
      rw [List.map_map]
      simp [Function.comp_def]
    rw [hbytes, String.fromUTF8?, dif_pos s.isValidUTF8]
    rfl

namespace Base64

/-- `rstrip("=")` -/
def strip (cs : List Char) : List Char := cs.rdropWhile (· = '=')

/-- Up to a whole group. -/
def pad (cs : List Char) : List Char := cs ++ List.replicate ((4 - cs.length % 4) % 4) '='

theorem strip_replicate {cs : List Char} (h : '=' ∉ cs) (n : ℕ) :
    strip (cs ++ List.replicate n '=') = cs := by
  induction n with
  | zero =>
    rw [List.replicate_zero, List.append_nil, strip, List.rdropWhile_eq_self_iff]
    intro hne hlast
    exact h (of_decide_eq_true hlast ▸ List.getLast_mem hne)
  | succ n ih =>
    rw [List.replicate_succ', ← List.append_assoc, strip, List.rdropWhile_concat_pos _ _ _ (by simp)]
    exact ih

/-- Digits, and at most two characters of padding up to a whole group. -/
theorem encodeChars_eq : ∀ bytes : List (Fin 256), ∃ cs n,
    encodeChars bytes = cs ++ List.replicate n '=' ∧ '=' ∉ cs ∧ n < 4 ∧ (cs.length + n) % 4 = 0
  | [] => ⟨[], 0, rfl, List.not_mem_nil, by decide, rfl⟩
  | [a] => by
    have ha := a.isLt
    refine ⟨[character (a / 4), character (a % 4 * 16)], 2, rfl, ?_, by decide,
      Nat.mod_self 4⟩
    simp only [List.mem_cons, List.not_mem_nil, or_false, not_or]
    exact ⟨(character_ne_pad (by omega)).symm, (character_ne_pad (by omega)).symm⟩
  | [a, b] => by
    have ha := a.isLt
    have hb := b.isLt
    refine ⟨[character (a / 4), character (a % 4 * 16 + b / 16), character (b % 16 * 4)], 1, rfl, ?_,
      by decide, Nat.mod_self 4⟩
    simp only [List.mem_cons, List.not_mem_nil, or_false, not_or]
    exact ⟨(character_ne_pad (by omega)).symm, (character_ne_pad (by omega)).symm,
      (character_ne_pad (by omega)).symm⟩
  | a :: b :: c :: rest => by
    have ha := a.isLt
    have hb := b.isLt
    have hc := c.isLt
    obtain ⟨cs, n, hrest, hdigits, hn, hgroup⟩ := encodeChars_eq rest
    refine ⟨character (a / 4) :: character (a % 4 * 16 + b / 16) :: character (b % 16 * 4 + c / 64) ::
      character (c % 64) :: cs, n, by rw [encodeChars, hrest]; rfl, ?_, hn, ?_⟩
    · simp only [List.mem_cons, not_or]
      exact ⟨(character_ne_pad (by omega)).symm, (character_ne_pad (by omega)).symm,
        (character_ne_pad (by omega)).symm, (character_ne_pad (by omega)).symm, hdigits⟩
    · simp only [List.length_cons]
      omega

theorem pad_strip (bytes : List (Fin 256)) : pad (strip (encodeChars bytes)) = encodeChars bytes := by
  obtain ⟨cs, n, hcs, hdigits, hn, hgroup⟩ := encodeChars_eq bytes
  have hpads : (4 - cs.length % 4) % 4 = n := by omega
  rw [hcs, strip_replicate hdigits, pad, hpads]

theorem character_ascii {v : ℕ} (h : v < 64) : (character v).toNat < 128 := by
  have hall : ∀ v : Fin 64, (character v).toNat < 128 := by decide +kernel
  exact hall ⟨v, h⟩

theorem encodeChars_ascii : ∀ bytes : List (Fin 256), ∀ c ∈ encodeChars bytes, c.toNat < 128
  | [], _, h => absurd h List.not_mem_nil
  | [a], c, h => by
    have ha := a.isLt
    rw [encodeChars] at h
    revert c
    simp only [List.forall_mem_cons, List.not_mem_nil, false_imp_iff, forall_const, and_true]
    exact ⟨character_ascii (by omega), character_ascii (by omega), by decide⟩
  | [a, b], c, h => by
    have ha := a.isLt
    have hb := b.isLt
    rw [encodeChars] at h
    revert c
    simp only [List.forall_mem_cons, List.not_mem_nil, false_imp_iff, forall_const, and_true]
    exact ⟨character_ascii (by omega), character_ascii (by omega), character_ascii (by omega),
      by decide⟩
  | a :: b :: c :: rest, d, h => by
    have ha := a.isLt
    have hb := b.isLt
    have hc := c.isLt
    rw [encodeChars] at h
    revert d
    simp only [List.forall_mem_cons]
    exact ⟨character_ascii (by omega), character_ascii (by omega), character_ascii (by omega),
      character_ascii (by omega), encodeChars_ascii rest⟩

end Base64

/-- Only ASCII characters are read at all. -/
def token : Codec String String where
  encode s := String.ofList (Base64.strip (Base64.encodeChars (utf8.encode s)))
  decode t :=
    if t.toList.all (·.toNat < 128) then
      (Base64.decode (String.ofList (Base64.pad t.toList))).bind utf8.decode
    else none
  decode_encode s := by
    have hascii : (Base64.strip (Base64.encodeChars (utf8.encode s))).all (·.toNat < 128) = true := by
      rw [List.all_eq_true]
      intro c hc
      exact decide_eq_true (Base64.encodeChars_ascii _ c ((List.rdropWhile_prefix _ _).subset hc))
    rw [String.toList_ofList, if_pos hascii, Base64.pad_strip, Base64.decode, String.toList_ofList,
      Base64.decodeChars_encodeChars, Option.bind_some, utf8.decode_encode]

end Storage

/-!
## Texts put together with a separator

What follows the last separator can be read back, and so can the text of an integer, which
has no separator in it.
-/

namespace Storage

theorem append_separator_inj {α : Type*} {a b c d : List α} {sep : α} (hb : sep ∉ b) (hd : sep ∉ d)
    (h : a ++ sep :: b = c ++ sep :: d) : a = c ∧ b = d := by
  rcases List.append_eq_append_iff.mp h with ⟨e, rfl, hrest⟩ | ⟨e, rfl, hrest⟩
  · cases e with
    | nil => exact ⟨(List.append_nil a).symm, (List.cons.inj hrest).2⟩
    | cons x e =>
      have hlater : b = e ++ sep :: d := (List.cons.inj hrest).2
      exact absurd (by simp [hlater]) hb
  · cases e with
    | nil => exact ⟨List.append_nil c, (List.cons.inj hrest).2.symm⟩
    | cons x e =>
      have hlater : d = e ++ sep :: b := (List.cons.inj hrest).2
      exact absurd (by simp [hlater]) hd

namespace Decimal

/-- `int(s)`, of a text of digits -/
def value (s : String) : ℕ := Nat.ofDigitChars 10 s.toList 0

theorem toList_ofNat (n : ℕ) : (toString (n : ℤ)).toList = Nat.toDigits 10 n := by
  change (Nat.repr n).toList = _
  exact Nat.toList_repr

theorem toList_negSucc (n : ℕ) : (toString (Int.negSucc n)).toList = '-' :: Nat.toDigits 10 (n + 1) := by
  rw [Int.toString_eq_repr, Int.repr]
  simp [String.toList_append, Nat.toList_repr]

theorem value_toString (n : ℕ) : value (toString (n : ℤ)) = n := by
  rw [value, toList_ofNat]
  exact Nat.ofDigitChars_ten_toDigits

theorem isDigit_of_mem {n : ℕ} {c : Char} (h : c ∈ (toString (n : ℤ)).toList) : c.isDigit = true := by
  rw [toList_ofNat] at h
  exact Nat.isDigit_of_mem_toDigits (by decide) (by decide) h

theorem mem_toString {n : ℤ} {c : Char} (h : c ∈ (toString n).toList) : c = '-' ∨ c.isDigit = true := by
  cases n with
  | ofNat n => exact Or.inr (isDigit_of_mem h)
  | negSucc n =>
    rw [toList_negSucc] at h
    exact (List.mem_cons.mp h).imp_right (Nat.isDigit_of_mem_toDigits (by decide) (by decide))

theorem nonneg_of_digits {n : ℤ} (h : ∀ c ∈ (toString n).toList, c.isDigit = true) : 0 ≤ n := by
  cases n with
  | ofNat n => exact Int.natCast_nonneg n
  | negSucc n =>
    have hsign := h '-' (by rw [toList_negSucc]; exact List.mem_cons_self)
    exact absurd hsign (by decide)

theorem toString_ne_empty (n : ℕ) : toString (n : ℤ) ≠ "" := by
  intro h
  have hnil : Nat.toDigits 10 n = [] := (toList_ofNat n).symm.trans (congrArg String.toList h)
  exact Nat.toDigits_ne_nil hnil

end Decimal
end Storage
