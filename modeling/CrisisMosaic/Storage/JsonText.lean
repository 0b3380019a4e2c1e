import Mathlib.Tactic

/-!
# Objects of strings as JSON text

Everything but printable ASCII is written as an escape of its UTF-16 units. The reader takes every
escape, and white space between the tokens.
-/

namespace JsonText

/-! ## Writing -/

def hexDigit (n : ℕ) : Char := if n < 10 then Char.ofNat (48 + n) else Char.ofNat (87 + n)

def hex4 (n : ℕ) : List Char :=
  [hexDigit (n / 4096 % 16), hexDigit (n / 256 % 16), hexDigit (n / 16 % 16), hexDigit (n % 16)]

/-- One unit, or two surrogates. -/
def units (c : Char) : List ℕ :=
  if c.toNat < 65536 then [c.toNat]
  else [55296 + (c.toNat - 65536) / 1024, 56320 + (c.toNat - 65536) % 1024]

def escape (c : Char) : List Char :=
  if c = '"' then ['\\', '"'] else if c = '\\' then ['\\', '\\']
  else if c.toNat = 8 then ['\\', 'b'] else if c.toNat = 9 then ['\\', 't']
  else if c.toNat = 10 then ['\\', 'n'] else if c.toNat = 12 then ['\\', 'f']
  else if c.toNat = 13 then ['\\', 'r']
  else if 32 ≤ c.toNat ∧ c.toNat < 127 then [c]
  else (units c).flatMap fun n => '\\' :: 'u' :: hex4 n

def quote (s : String) : List Char := '"' :: (s.toList.flatMap escape ++ ['"'])

def members : List (String × String) → List Char
  | [] => ['}']
  | [e] => quote e.1 ++ ':' :: (quote e.2 ++ ['}'])
  | e :: es => quote e.1 ++ ':' :: (quote e.2 ++ ',' :: members es)

/-- Without white space. -/
def dumps (entries : List (String × String)) : String := String.ofList ('{' :: members entries)

/-! ## Reading -/

def hexValue (c : Char) : Option ℕ :=
  let n := c.toNat
  if 48 ≤ n ∧ n ≤ 57 then some (n - 48) else if 97 ≤ n ∧ n ≤ 102 then some (n - 87)
  else if 65 ≤ n ∧ n ≤ 70 then some (n - 55) else none

def unit (a b c d : Char) : Option ℕ := do
  let a ← hexValue a
  let b ← hexValue b
  let c ← hexValue c
  let d ← hexValue d
  some (a * 4096 + b * 256 + c * 16 + d)

def simpleEscape (c : Char) : Option ℕ :=
  if c = '"' ∨ c = '\\' ∨ c = '/' then some c.toNat else if c = 'b' then some 8
  else if c = 't' then some 9 else if c = 'n' then some 10 else if c = 'f' then some 12
  else if c = 'r' then some 13 else none

def push (n : ℕ) (r : List ℕ × List Char) : List ℕ × List Char := (n :: r.1, r.2)

/-- The units up to the closing quote, and the rest. -/
def readUnits : List Char → Option (List ℕ × List Char)
  | [] => none
  | '"' :: cs => some ([], cs)
  | '\\' :: 'u' :: a :: b :: c :: d :: cs => (unit a b c d).bind fun n => (readUnits cs).map (push n)
  | '\\' :: c :: cs => (simpleEscape c).bind fun n => (readUnits cs).map (push n)
  | c :: cs => if c.toNat < 32 ∨ c = '\\' then none else (readUnits cs).map (push c.toNat)

def ofUnit (n : ℕ) : Option Char := if n.isValidChar then some (Char.ofNat n) else none

/-- A high and a low surrogate are one character; no other surrogate is any. -/
def ofUnits : List ℕ → Option (List Char)
  | [] => some []
  | [n] => (ofUnit n).map ([·])
  | high :: low :: ns =>
      if (55296 ≤ high ∧ high < 56320) ∧ 56320 ≤ low ∧ low < 57344 then
        (ofUnits ns).map (Char.ofNat (65536 + (high - 55296) * 1024 + (low - 56320)) :: ·)
      else (ofUnit high).bind fun c => (ofUnits (low :: ns)).map (c :: ·)

def skip (cs : List Char) : List Char :=
  cs.dropWhile fun c => c = ' ' || c = '\n' || c = '\t' || c = '\r'

def expect (c : Char) : List Char → Option (List Char)
  | [] => none
  | d :: cs => if d = c then some cs else none

def readString (cs : List Char) : Option (String × List Char) := do
  let cs ← expect '"' (skip cs)
  let (ns, cs) ← readUnits cs
  let s ← ofUnits ns
  some (String.ofList s, cs)

def readEntry (cs : List Char) : Option ((String × String) × List Char) := do
  let (key, cs) ← readString cs
  let cs ← expect ':' (skip cs)
  let (value, cs) ← readString cs
  some ((key, value), skip cs)

/-- Every entry takes a step. -/
def readMembers : ℕ → List Char → Option (List (String × String))
  | 0, _ => none
  | steps + 1, cs =>
      match readEntry cs with
      | some (e, ',' :: cs) => (readMembers steps cs).map (e :: ·)
      | some (e, '}' :: cs) => if skip cs = [] then some [e] else none
      | _ => none

/-- An object whose values are strings. -/
def loads (s : String) : Option (List (String × String)) := do
  let cs ← expect '{' (skip s.toList)
  if (expect '}' (skip cs)).map skip = some [] then some [] else readMembers cs.length cs

/-! ## The round trip -/

theorem hexValue_hexDigit {n : ℕ} (h : n < 16) : hexValue (hexDigit n) = some n := by
  have hall : ∀ n : Fin 16, hexValue (hexDigit n) = some n.val := by decide
  exact hall ⟨n, h⟩

theorem readUnits_hex4 {n : ℕ} (h : n < 65536) (cs : List Char) :
    readUnits ('\\' :: 'u' :: (hex4 n ++ cs)) = (readUnits cs).map (push n) := by
  have hsum : n / 4096 % 16 * 4096 + n / 256 % 16 * 256 + n / 16 % 16 * 16 + n % 16 = n := by omega
  simp only [hex4, List.cons_append, List.nil_append, readUnits, unit,
    hexValue_hexDigit (Nat.mod_lt _ (by decide : 0 < 16)), Option.bind_eq_bind, Option.bind_some, hsum]

theorem units_lt (c : Char) : ∀ n ∈ units c, n < 65536 := by
  have hbound : c.toNat < 1114112 := by
    rcases c.valid with h | h
    · exact lt_trans h (by decide)
    · exact h.2
  unfold units
  split_ifs with h
  · simpa using h
  · simp only [List.mem_cons, List.not_mem_nil, or_false, forall_eq_or_imp, forall_eq]
    omega

theorem readUnits_escaped (ns : List ℕ) (h : ∀ n ∈ ns, n < 65536) (cs : List Char) :
    readUnits ((ns.flatMap fun n => '\\' :: 'u' :: hex4 n) ++ cs) =
      (readUnits cs).map fun r => (ns ++ r.1, r.2) := by
  induction ns with
  | nil => simp
  | cons n ns ih =>
    obtain ⟨hn, hns⟩ := List.forall_mem_cons.mp h
    rw [List.flatMap_cons, List.append_assoc, List.cons_append, List.cons_append, readUnits_hex4 hn,
      ih hns, Option.map_map]
    rfl

theorem readUnits_simple {c : Char} {n : ℕ} (h : simpleEscape c = some n) (hu : c ≠ 'u')
    (cs : List Char) : readUnits ('\\' :: c :: cs) = (readUnits cs).map (push n) := by
  rw [readUnits.eq_def]
  split
  · simp_all
  · simp_all
  · simp_all
  · simp_all
  · rename_i hnone heq
    obtain ⟨hc, hcs⟩ := List.cons.inj heq
    exact absurd hcs.symm (hnone _ _ hc.symm)

theorem readUnits_plain {c : Char} (hquote : c ≠ '"') (hback : c ≠ '\\') (h : 32 ≤ c.toNat)
    (cs : List Char) : readUnits (c :: cs) = (readUnits cs).map (push c.toNat) := by
  have hlow : ¬ (c.toNat < 32 ∨ c = '\\') := fun hor => hor.elim (not_lt.mpr h) hback
  rw [readUnits]
  · exact if_neg hlow
  all_goals intros; simp_all

/-- A character is read as its units. -/
theorem readUnits_escape (c : Char) (cs : List Char) :
    readUnits (escape c ++ cs) = (readUnits cs).map fun r => (units c ++ r.1, r.2) := by
  have hsimple : ∀ d : Char, ∀ n, simpleEscape d = some n → d ≠ 'u' → units c = [n] →
      readUnits ('\\' :: d :: cs) = (readUnits cs).map fun r => (units c ++ r.1, r.2) := by
    intro d n hd hu hunits
    rw [hunits, readUnits_simple hd hu]
    rfl
  have hcode : ∀ n, c.toNat = n → n < 65536 → units c = [n] := by
    intro n hn hlt
    rw [units, hn, if_pos hlt]
  unfold escape
  split_ifs with hquote hback h8 h9 h10 h12 h13 hplain
  · exact hsimple '"' 34 rfl (by decide) (hcode 34 (by rw [hquote]; rfl) (by decide))
  · exact hsimple '\\' 92 rfl (by decide) (hcode 92 (by rw [hback]; rfl) (by decide))
  · exact hsimple 'b' 8 rfl (by decide) (hcode 8 h8 (by decide))
  · exact hsimple 't' 9 rfl (by decide) (hcode 9 h9 (by decide))
  · exact hsimple 'n' 10 rfl (by decide) (hcode 10 h10 (by decide))
  · exact hsimple 'f' 12 rfl (by decide) (hcode 12 h12 (by decide))
  · exact hsimple 'r' 13 rfl (by decide) (hcode 13 h13 (by decide))
  · rw [List.singleton_append, readUnits_plain hquote hback (by omega),
      hcode c.toNat rfl (by omega)]
    rfl
  · exact readUnits_escaped _ (units_lt c) cs

theorem ofUnits_units (c : Char) (ns : List ℕ) :
    ofUnits (units c ++ ns) = (ofUnits ns).map (c :: ·) := by
  have hvalid : c.toNat.isValidChar := c.valid
  unfold units
  split_ifs with hbasic
  · have hown : ofUnit c.toNat = some c := by
      rw [ofUnit, if_pos hvalid, Char.ofNat_toNat]
    have hnot : ¬ (55296 ≤ c.toNat ∧ c.toNat < 56320) := by
      rcases hvalid with h | h <;> omega
    cases ns with
    | nil => simp [ofUnits, hown]
    | cons n ns =>
      rw [List.singleton_append, ofUnits, if_neg fun h => hnot h.1, hown, Option.bind_some]
  · have hbound : c.toNat < 1114112 := by
      rcases hvalid with h | h <;> omega
    have hsum : 65536 + (55296 + (c.toNat - 65536) / 1024 - 55296) * 1024 +
        (56320 + (c.toNat - 65536) % 1024 - 56320) = c.toNat := by omega
    rw [List.cons_append, List.singleton_append, ofUnits, if_pos (by omega), hsum, Char.ofNat_toNat]

theorem readUnits_quoted (s : List Char) (cs : List Char) :
    readUnits (s.flatMap escape ++ '"' :: cs) = some (s.flatMap units, cs) := by
  induction s with
  | nil => rfl
  | cons c s ih =>
    rw [List.flatMap_cons, List.append_assoc, readUnits_escape, ih]
    rfl

theorem ofUnits_flatMap (s : List Char) : ofUnits (s.flatMap units) = some s := by
  induction s with
  | nil => rfl
  | cons c s ih => rw [List.flatMap_cons, ofUnits_units, ih, Option.map_some]

theorem readString_quote (s : String) (cs : List Char) :
    readString (quote s ++ cs) = some (s, cs) := by
  have hskip : ∀ cs, skip ('"' :: cs) = '"' :: cs := fun _ => rfl
  rw [readString, quote, List.cons_append, hskip, List.append_assoc, List.singleton_append]
  simp only [expect, if_true, Option.bind_eq_bind, Option.bind_some, readUnits_quoted,
    ofUnits_flatMap, String.ofList_toList]

theorem readEntry_entry (e : String × String) (c : Char) (cs : List Char)
    (hc : skip (c :: cs) = c :: cs) :
    readEntry (quote e.1 ++ ':' :: (quote e.2 ++ c :: cs)) = some (e, c :: cs) := by
  have hskip : ∀ cs, skip (':' :: cs) = ':' :: cs := fun _ => rfl
  simp only [readEntry, readString_quote, hskip, expect, if_true, Option.bind_eq_bind,
    Option.bind_some, hc]

theorem readMembers_members {es : List (String × String)} (hne : es ≠ []) {steps : ℕ}
    (h : es.length ≤ steps) : readMembers steps (members es) = some es := by
  induction es generalizing steps with
  | nil => exact absurd rfl hne
  | cons e es ih =>
    cases steps with
    | zero => cases h
    | succ steps =>
      cases es with
      | nil =>
        have hread := readEntry_entry e '}' [] rfl
        simp [readMembers, members, hread, skip]
      | cons next es =>
        have hread := readEntry_entry e ',' (members (next :: es)) rfl
        simp only [readMembers, members, hread]
        rw [ih (List.cons_ne_nil _ _) (Nat.le_of_succ_le_succ h), Option.map_some]

theorem length_le_members (es : List (String × String)) : es.length ≤ (members es).length := by
  induction es with
  | nil => exact Nat.zero_le _
  | cons e es ih =>
    cases es with
    | nil =>
      simp only [members, List.length_append, List.length_cons, List.length_nil]
      omega
    | cons next es =>
      simp only [members, List.length_append, List.length_cons] at ih ⊢
      omega

theorem loads_dumps {es : List (String × String)} (hne : es ≠ []) : loads (dumps es) = some es := by
  have hskip : ∀ cs, skip ('{' :: cs) = '{' :: cs := fun _ => rfl
  have hopen : (expect '}' (skip (members es))).map skip ≠ some [] := by
    rcases es with - | ⟨e, - | ⟨next, es⟩⟩
    · exact absurd rfl hne
    · nofun
    · nofun
  have hfirst : expect '{' ('{' :: members es) = some (members es) := by simp [expect]
  rw [loads, dumps, String.toList_ofList, hskip, hfirst, Option.bind_eq_bind, Option.bind_some,
    if_neg hopen]
  exact readMembers_members hne (length_le_members es)

end JsonText
