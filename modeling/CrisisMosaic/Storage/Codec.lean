import Mathlib.Tactic

/-!
# Codecs and Base64

A codec decodes what it has encoded. Decoding skips characters that are not of the alphabet,
stops at the padding that completes a group, and fails when the input ends inside a group.
-/

namespace Storage

structure Codec (α β : Type*) where
  encode : α → β
  decode : β → Option α
  decode_encode : ∀ a, decode (encode a) = some a

/-- First the one, then the other. -/
def Codec.comp {α β γ : Type*} (c : Codec α β) (d : Codec β γ) : Codec α γ where
  encode a := d.encode (c.encode a)
  decode s := (d.decode s).bind c.decode
  decode_encode a := by rw [d.decode_encode, Option.bind_some, c.decode_encode]

namespace Base64

def alphabet : List Char :=
  "ABCDEFGHIJKLMNOPQRSTUVWXYZabcdefghijklmnopqrstuvwxyz0123456789-_".toList

def character (v : ℕ) : Char := alphabet.getD v '-'

/-- The value of a character; the other two spellings of the last digits are read as well. -/
def sextet (c : Char) : Option ℕ :=
  if c = '+' then some 62 else if c = '/' then some 63
  else if c ∈ alphabet then some (alphabet.idxOf c) else none

def encodeChars : List (Fin 256) → List Char
  | [] => []
  | [a] => [character (a / 4), character (a % 4 * 16), '=', '=']
  | [a, b] => [character (a / 4), character (a % 4 * 16 + b / 16), character (b % 16 * 4), '=']
  | a :: b :: c :: rest =>
      character (a / 4) :: character (a % 4 * 16 + b / 16) :: character (b % 16 * 4 + c / 64) ::
        character (c % 64) :: encodeChars rest

/-- The digit's place in its group of four, what is left of the digit before it, and the padding
seen since. -/
structure Cursor where
  place : Fin 4
  left : ℕ
  pads : ℕ

def byte (n : ℕ) : Fin 256 := Fin.ofNat 256 n

/-- The byte a digit completes, if it completes one. -/
def Cursor.digit (at_ : Cursor) (v : ℕ) : List (Fin 256) × Cursor :=
  match at_.place with
  | 0 => ([], ⟨1, v, 0⟩)
  | 1 => ([byte (at_.left * 4 + v / 16)], ⟨2, v % 16, 0⟩)
  | 2 => ([byte (at_.left * 16 + v / 4)], ⟨3, v % 4, 0⟩)
  | 3 => ([byte (at_.left * 64 + v)], ⟨0, 0, 0⟩)

def decodeChars : Cursor → List Char → Option (List (Fin 256))
  | at_, [] => if at_.place = 0 then some [] else none
  | at_, c :: cs =>
      if c = '=' then
        if 2 ≤ at_.place.val then
          if 4 ≤ at_.place.val + (at_.pads + 1) then some []
          else decodeChars { at_ with pads := at_.pads + 1 } cs
        else decodeChars at_ cs
      else match sextet c with
        | none => decodeChars at_ cs
        | some v => (decodeChars (at_.digit v).2 cs).map ((at_.digit v).1 ++ ·)

def encode (bytes : List (Fin 256)) : String := String.ofList (encodeChars bytes)
def decode (s : String) : Option (List (Fin 256)) := decodeChars ⟨0, 0, 0⟩ s.toList

theorem sextet_character {v : ℕ} (h : v < 64) : sextet (character v) = some v := by
  have hall : ∀ v : Fin 64, sextet (character v) = some v.val := by decide +kernel
  exact hall ⟨v, h⟩

theorem character_ne_pad {v : ℕ} (h : v < 64) : character v ≠ '=' := by
  have hall : ∀ v : Fin 64, character v ≠ '=' := by decide +kernel
  exact hall ⟨v, h⟩

/-- Reading a digit. -/
theorem decodeChars_character (at_ : Cursor) {v : ℕ} (h : v < 64) (cs : List Char) :
    decodeChars at_ (character v :: cs) =
      (decodeChars (at_.digit v).2 cs).map ((at_.digit v).1 ++ ·) := by
  rw [decodeChars, if_neg (character_ne_pad h), sextet_character h]

theorem byte_eq {n : ℕ} {a : Fin 256} (h : n = a) : byte n = a := by
  apply Fin.ext
  rw [byte, Fin.val_ofNat, h]
  exact Nat.mod_eq_of_lt a.isLt

theorem decodeChars_encodeChars : ∀ bytes : List (Fin 256),
    decodeChars ⟨0, 0, 0⟩ (encodeChars bytes) = some bytes
  | [] => rfl
  | [a] => by
    have ha := a.isLt
    rw [encodeChars, decodeChars_character _ (by omega), decodeChars_character _ (by omega)]
    have hbyte : byte (a / 4 * 4 + a % 4) = a := byte_eq (by omega)
    simp [Cursor.digit, decodeChars, hbyte]
  | [a, b] => by
    have ha := a.isLt
    have hb := b.isLt
    rw [encodeChars, decodeChars_character _ (by omega), decodeChars_character _ (by omega),
      decodeChars_character _ (by omega)]
    have hfirst : byte (a / 4 * 4 + (a % 4 * 16 + b / 16) / 16) = a := byte_eq (by omega)
    have hsecond : byte (b / 16 % 16 * 16 + b % 16) = b := byte_eq (by omega)
    simp [Cursor.digit, decodeChars, hfirst, hsecond]
  | a :: b :: c :: rest => by
    have ha := a.isLt
    have hb := b.isLt
    have hc := c.isLt
    have ih := decodeChars_encodeChars rest
    rw [encodeChars, decodeChars_character _ (by omega), decodeChars_character _ (by omega),
      decodeChars_character _ (by omega), decodeChars_character _ (by omega)]
    have hfirst : byte (a / 4 * 4 + (a % 4 * 16 + b / 16) / 16) = a := byte_eq (by omega)
    have hsecond : byte (b / 16 % 16 * 16 + (b % 16 * 4 + c / 64) / 4) = b := byte_eq (by omega)
    have hthird : byte (c / 64 % 4 * 64 + c % 64) = c := byte_eq (by omega)
    simp [Cursor.digit, hfirst, hsecond, hthird, ih]

def codec : Codec (List (Fin 256)) String where
  encode := encode
  decode := decode
  decode_encode bytes := by
    rw [decode, encode, String.toList_ofList]
    exact decodeChars_encodeChars bytes

end Base64
end Storage
