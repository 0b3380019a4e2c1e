import Mathlib.Tactic

/-!
# Dates and times as text

A time is a number of microseconds since the beginning of 1970 in UTC. Its text is that of the
Gregorian date and the time of the day; a fraction of a second has six digits.
-/

namespace IsoTime

/-! ## The calendar -/

def isLeap (year : ℕ) : Bool := year % 4 = 0 && (year % 100 ≠ 0 || year % 400 = 0)

/-- The days of a year before its months. -/
def daysBefore (leap : Bool) (month : ℕ) : ℕ :=
  [0, 0, 31, 59, 90, 120, 151, 181, 212, 243, 273, 304, 334].getD month 0 +
    if leap && 2 < month then 1 else 0

def daysIn (leap : Bool) (month : ℕ) : ℕ :=
  [0, 31, 28, 31, 30, 31, 30, 31, 31, 30, 31, 30, 31].getD month 0 +
    if leap && month = 2 then 1 else 0

structure Date where
  year : ℕ
  month : ℕ
  day : ℕ

namespace Date

def Valid (d : Date) : Prop :=
  (1 ≤ d.year ∧ d.year ≤ 9999) ∧ (1 ≤ d.month ∧ d.month ≤ 12) ∧
    1 ≤ d.day ∧ d.day ≤ daysIn (isLeap d.year) d.month

instance (d : Date) : Decidable d.Valid := inferInstanceAs (Decidable (_ ∧ _ ∧ _ ∧ _))

/-- The days before a year, from the first day of the year 1 on. -/
def daysBeforeYear (year : ℕ) : ℕ :=
  let y := year - 1
  y * 365 + y / 4 - y / 100 + y / 400

/-- The first day of the year 1 is day 0. -/
def toDays (d : Date) : ℕ :=
  daysBeforeYear d.year + daysBefore (isLeap d.year) d.month + (d.day - 1)

/-- Month and day of a day of the year. -/
def ofDayOfYear (leap : Bool) (n : ℕ) : ℕ × ℕ :=
  let month := (n + 50) / 32
  let month := if n < daysBefore leap month then month - 1 else month
  (month, n - daysBefore leap month + 1)

/-- Cycles of 400, 100, 4 years and one year; the last day of a long cycle is of its last year. -/
def ofDays (n : ℕ) : Date :=
  let n400 := n / 146097
  let n := n % 146097
  let n100 := n / 36524
  let n := n % 36524
  let n4 := n / 1461
  let n := n % 1461
  let n1 := n / 365
  let year := n400 * 400 + n100 * 100 + n4 * 4 + n1 + 1
  if n1 = 4 ∨ n100 = 4 then ⟨year - 1, 12, 31⟩
  else
    let (month, day) := ofDayOfYear (n1 = 3 && (n4 ≠ 24 || n100 = 3)) (n % 365)
    ⟨year, month, day⟩

theorem ofDayOfYear_spec (leap : Bool) {n : ℕ} (h : n < if leap then 366 else 365) :
    daysBefore leap (ofDayOfYear leap n).1 + ((ofDayOfYear leap n).2 - 1) = n ∧
      (1 ≤ (ofDayOfYear leap n).1 ∧ (ofDayOfYear leap n).1 ≤ 12) ∧
        1 ≤ (ofDayOfYear leap n).2 ∧
          (ofDayOfYear leap n).2 ≤ daysIn leap (ofDayOfYear leap n).1 := by
  have hall : ∀ leap : Bool, ∀ n : Fin 366, n.val < (if leap then 366 else 365) →
      daysBefore leap (ofDayOfYear leap n).1 + ((ofDayOfYear leap n).2 - 1) = n ∧
        (1 ≤ (ofDayOfYear leap n).1 ∧ (ofDayOfYear leap n).1 ≤ 12) ∧
          1 ≤ (ofDayOfYear leap n).2 ∧
            (ofDayOfYear leap n).2 ≤ daysIn leap (ofDayOfYear leap n).1 := by
    decide +kernel
  have hlt : n < 366 := by
    cases leap
    · exact lt_trans h (by decide)
    · exact h
  exact hall leap ⟨n, hlt⟩ h

theorem daysIn_le (leap : Bool) {month : ℕ} (h : 1 ≤ month ∧ month ≤ 12) : daysIn leap month ≤ 31 := by
  have hall : ∀ leap : Bool, ∀ month : Fin 13, daysIn leap month ≤ 31 := by decide
  exact hall leap ⟨month, by omega⟩

/-- The year of a place in the cycles, with its rule for leap years. -/
theorem cycles_spec {a b c d : ℕ} (hb : b ≤ 3) (hc : c ≤ 24) (hd : d ≤ 3) :
    daysBeforeYear (a * 400 + b * 100 + c * 4 + d + 1) =
        a * 146097 + b * 36524 + c * 1461 + d * 365 ∧
      isLeap (a * 400 + b * 100 + c * 4 + d + 1) = (d = 3 && (c ≠ 24 || b = 3)) := by
  constructor
  · unfold daysBeforeYear
    simp only [Nat.add_sub_cancel]
    omega
  · unfold isLeap
    rw [Bool.eq_iff_iff]
    simp only [Bool.and_eq_true, Bool.or_eq_true, decide_eq_true_eq, ne_eq]
    omega

/-- The date of a day is a legal one, and it is the date of no other day. -/
theorem ofDays_spec {n : ℕ} (h : n < 3652059) : (ofDays n).toDays = n ∧ (ofDays n).Valid := by
  have hlast : daysBefore true 12 = 335 ∧ daysIn true 12 = 31 := by decide
  unfold ofDays
  dsimp only
  split_ifs with hend
  · -- the last day of a year that is divisible by four
    obtain ⟨c, hc, hyear, hdays⟩ : ∃ c ≤ 24, n / 146097 * 400 + n % 146097 / 36524 * 100 +
          n % 146097 % 36524 / 1461 * 4 + n % 146097 % 36524 % 1461 / 365 + 1 - 1 =
        n / 146097 * 400 + min 3 (n % 146097 / 36524) * 100 + c * 4 + 3 + 1 ∧
        n = n / 146097 * 146097 + min 3 (n % 146097 / 36524) * 36524 + c * 1461 + 3 * 365 + 365 ∧
        (c ≠ 24 ∨ min 3 (n % 146097 / 36524) = 3) := by
      by_cases hfour : n % 146097 / 36524 = 4
      · exact ⟨24, le_rfl, by omega, by omega, by omega⟩
      · exact ⟨n % 146097 % 36524 / 1461, by omega, by omega, by omega, by omega⟩
    obtain ⟨hbefore, hleap⟩ := @cycles_spec (n / 146097) (min 3 (n % 146097 / 36524)) c 3 (by omega) hc
      le_rfl
    have htrue : (decide (3 = 3) && (decide (c ≠ 24) ||
        decide (min 3 (n % 146097 / 36524) = 3))) = true := by
      simpa using hdays.2
    rw [htrue] at hleap
    rw [hyear]
    unfold toDays Valid
    dsimp only
    rw [hbefore, hleap, hlast.1, hlast.2]
    omega
  · obtain ⟨hbefore, hleap⟩ := @cycles_spec (n / 146097) (n % 146097 / 36524)
      (n % 146097 % 36524 / 1461) (n % 146097 % 36524 % 1461 / 365) (by omega) (by omega) (by omega)
    obtain ⟨leap, hl⟩ : ∃ leap, leap = (decide (n % 146097 % 36524 % 1461 / 365 = 3) &&
      (decide (n % 146097 % 36524 / 1461 ≠ 24) || decide (n % 146097 / 36524 = 3))) := ⟨_, rfl⟩
    rw [← hl] at hleap ⊢
    obtain ⟨hday, hmonth, hfirst, hin⟩ := ofDayOfYear_spec leap
      (n := n % 146097 % 36524 % 1461 % 365) (by
        have := Nat.mod_lt (n % 146097 % 36524 % 1461) (by decide : 0 < 365)
        split_ifs <;> omega)
    unfold toDays Valid
    dsimp only
    rw [hbefore, hleap]
    omega

end Date

/-! ## The text of a time -/

def microsPerDay : ℕ := 86400000000

/-- The days before 1970. -/
def epochDays : ℕ := 719162

/-- The years 1 to 9999. -/
def InRange (t : ℤ) : Prop :=
  -(epochDays * microsPerDay : ℕ) ≤ t ∧ t < ((3652059 - epochDays) * microsPerDay : ℕ)

instance (t : ℤ) : Decidable (InRange t) := inferInstanceAs (Decidable (_ ∧ _))

def dateOf (t : ℤ) : Date := .ofDays (t / microsPerDay + epochDays).toNat
def microOfDay (t : ℤ) : ℕ := (t % microsPerDay).toNat

def digit (n : ℕ) : Char := Char.ofNat (48 + n)

/-- So many digits. -/
def digits : ℕ → ℕ → List Char
  | 0, _ => []
  | k + 1, n => digit (n / 10 ^ k) :: digits k (n % 10 ^ k)

def dateText (d : Date) : List Char :=
  digits 4 d.year ++ '-' :: (digits 2 d.month ++ '-' :: digits 2 d.day)

/-- The fraction may be left out where it is zero. -/
def timeText (always : Bool) (micro : ℕ) : List Char :=
  digits 2 (micro / 3600000000) ++ ':' :: (digits 2 (micro / 60000000 % 60) ++
    ':' :: (digits 2 (micro / 1000000 % 60) ++
      if always || micro % 1000000 ≠ 0 then '.' :: digits 6 (micro % 1000000) else []))

def isoformat (always : Bool) (t : ℤ) : List Char :=
  dateText (dateOf t) ++ 'T' :: timeText always (microOfDay t)

/-! ## Reading one -/

def digitValue (c : Char) : Option ℕ :=
  if 48 ≤ c.toNat ∧ c.toNat ≤ 57 then some (c.toNat - 48) else none

def number : ℕ → ℕ → List Char → Option (ℕ × List Char)
  | 0, value, cs => some (value, cs)
  | _ + 1, _, [] => none
  | k + 1, value, c :: cs => (digitValue c).bind fun d => number k (value * 10 + d) cs

def expect (c : Char) : List Char → Option (List Char)
  | [] => none
  | d :: cs => if d = c then some cs else none

/-- Digits after the first six do not count. -/
def fraction : ℕ → List Char → ℕ × List Char
  | _, [] => (0, [])
  | k, c :: cs =>
      match digitValue c with
      | none => (0, c :: cs)
      | some d =>
          let (value, rest) := fraction (k - 1) cs
          (if k = 0 then value else d * 10 ^ (k - 1) + value, rest)

def readDate (cs : List Char) : Option (Date × List Char) := do
  let (year, cs) ← number 4 0 cs
  let cs ← expect '-' cs
  let (month, cs) ← number 2 0 cs
  let cs ← expect '-' cs
  let (day, cs) ← number 2 0 cs
  if Date.Valid ⟨year, month, day⟩ then some (⟨year, month, day⟩, cs) else none

def readFraction : List Char → Option (ℕ × List Char)
  | '.' :: c :: cs => (digitValue c).map fun _ => fraction 6 (c :: cs)
  | '.' :: [] => none
  | cs => some (0, cs)

def readTime (cs : List Char) : Option (ℕ × List Char) := do
  let (hour, cs) ← number 2 0 cs
  let cs ← expect ':' cs
  let (minute, cs) ← number 2 0 cs
  let cs ← expect ':' cs
  let (second, cs) ← number 2 0 cs
  let (micro, cs) ← readFraction cs
  if hour < 24 ∧ minute < 60 ∧ second < 60 then
    some (((hour * 60 + minute) * 60 + second) * 1000000 + micro, cs)
  else none

/-- Without an offset the time is in UTC. -/
def readOffset : List Char → Option ℤ
  | [] => some 0
  | sign :: cs => do
      let (hour, cs) ← number 2 0 cs
      let cs ← expect ':' cs
      let (minute, cs) ← number 2 0 cs
      let micros : ℤ := (hour * 60 + minute : ℕ) * 60000000
      if cs = [] ∧ hour < 24 ∧ minute < 60 then
        if sign = '+' then some micros else if sign = '-' then some (-micros) else none
      else none

/-- A date, one character and a time of the day, with an offset or without. -/
def fromisoformat (cs : List Char) : Option ℤ := do
  let (date, cs) ← readDate cs
  match cs with
  | [] => none
  | _ :: cs =>
      let (micro, cs) ← readTime cs
      let offset ← readOffset cs
      some ((date.toDays - epochDays : ℤ) * microsPerDay + micro - offset)

/-! ## The round trip -/

theorem digitValue_digit {n : ℕ} (h : n < 10) : digitValue (digit n) = some n := by
  have hall : ∀ n : Fin 10, digitValue (digit n) = some n.val := by decide
  exact hall ⟨n, h⟩

theorem number_digits {k n : ℕ} (h : n < 10 ^ k) (value : ℕ) (rest : List Char) :
    number k value (digits k n ++ rest) = some (value * 10 ^ k + n, rest) := by
  induction k generalizing n value with
  | zero =>
    obtain rfl : n = 0 := Nat.lt_one_iff.mp h
    simp [number, digits]
  | succ k ih =>
    have hhead : n / 10 ^ k < 10 := Nat.div_lt_of_lt_mul (by rwa [← pow_succ])
    have hrest : n % 10 ^ k < 10 ^ k := Nat.mod_lt _ (by positivity)
    rw [digits, List.cons_append, number, digitValue_digit hhead, Option.bind_some, ih hrest]
    have hsum : (value * 10 + n / 10 ^ k) * 10 ^ k + n % 10 ^ k = value * 10 ^ (k + 1) + n := by
      calc (value * 10 + n / 10 ^ k) * 10 ^ k + n % 10 ^ k
          = value * 10 ^ (k + 1) + (10 ^ k * (n / 10 ^ k) + n % 10 ^ k) := by ring
        _ = value * 10 ^ (k + 1) + n := by rw [Nat.div_add_mod]
    rw [hsum]

theorem fraction_digits {k n : ℕ} (h : n < 10 ^ k) {rest : List Char}
    (hend : ∀ c ∈ rest.head?, digitValue c = none) :
    fraction k (digits k n ++ rest) = (n, rest) := by
  induction k generalizing n with
  | zero =>
    obtain rfl : n = 0 := Nat.lt_one_iff.mp h
    cases rest with
    | nil => rfl
    | cons c rest => simp [digits, fraction, hend c rfl]
  | succ k ih =>
    have hhead : n / 10 ^ k < 10 := Nat.div_lt_of_lt_mul (by rwa [← pow_succ])
    have hrest : n % 10 ^ k < 10 ^ k := Nat.mod_lt _ (by positivity)
    rw [digits, List.cons_append, fraction, digitValue_digit hhead]
    simp only [Nat.add_sub_cancel, ih hrest, Nat.succ_ne_zero, if_false]
    rw [mul_comm, Nat.div_add_mod]

theorem readDate_dateText {d : Date} (h : d.Valid) (rest : List Char) :
    readDate (dateText d ++ rest) = some (d, rest) := by
  obtain ⟨hyear, hmonth, hday, hlast⟩ := h
  have hlong : d.day ≤ 31 := hlast.trans (Date.daysIn_le _ hmonth)
  simp only [readDate, dateText, List.append_assoc, List.cons_append]
  rw [number_digits (by omega)]
  simp only [Option.bind_eq_bind, Option.bind_some, expect, if_true, zero_mul, zero_add]
  rw [number_digits (by omega)]
  simp only [Option.bind_some, if_true, zero_mul, zero_add]
  rw [number_digits (by omega)]
  simp only [Option.bind_some, zero_mul, zero_add]
  exact if_pos ⟨hyear, hmonth, hday, hlast⟩

theorem readFraction_text (always : Bool) {micro : ℕ} (h : micro < 1000000) {rest : List Char}
    (hend : ∀ c ∈ rest.head?, digitValue c = none ∧ c ≠ '.') :
    readFraction ((if always || micro ≠ 0 then '.' :: digits 6 micro else []) ++ rest) =
      some (micro, rest) := by
  by_cases hwritten : (always || decide (micro ≠ 0)) = true
  · have hfirst : digitValue (digit (micro / 10 ^ 5)) = some (micro / 10 ^ 5) :=
      digitValue_digit (by omega)
    have hread := fraction_digits (k := 6) (n := micro) h fun c hc => (hend c hc).1
    rw [if_pos hwritten]
    rw [digits, List.cons_append] at hread
    rw [digits, List.cons_append, List.cons_append, readFraction, hfirst, Option.map_some, hread]
  · have hzero : micro = 0 := by
      by_contra hne
      exact hwritten (by simp [hne])
    rw [if_neg hwritten, hzero, List.nil_append]
    cases rest with
    | nil => rfl
    | cons c rest =>
      have hdot := (hend c rfl).2
      simp [readFraction, hdot]

theorem readTime_timeText (always : Bool) {micro : ℕ} (h : micro < microsPerDay) {rest : List Char}
    (hend : ∀ c ∈ rest.head?, digitValue c = none ∧ c ≠ '.') :
    readTime (timeText always micro ++ rest) = some (micro, rest) := by
  have hday : micro < 86400000000 := h
  have hhour : micro / 3600000000 < 24 := by omega
  have hminute : micro / 60000000 % 60 < 60 := Nat.mod_lt _ (by decide)
  have hsecond : micro / 1000000 % 60 < 60 := Nat.mod_lt _ (by decide)
  have hsum : ((micro / 3600000000 * 60 + micro / 60000000 % 60) * 60 + micro / 1000000 % 60) *
      1000000 + micro % 1000000 = micro := by omega
  simp only [readTime, timeText, List.append_assoc, List.cons_append]
  rw [number_digits (by omega)]
  simp only [Option.bind_eq_bind, Option.bind_some, expect, if_true, zero_mul, zero_add]
  rw [number_digits (by omega)]
  simp only [Option.bind_some, if_true, zero_mul, zero_add]
  rw [number_digits (by omega)]
  simp only [Option.bind_some, zero_mul, zero_add]
  rw [readFraction_text always (Nat.mod_lt _ (by decide)) hend]
  simp only [Option.bind_some, hhour, hminute, hsecond, and_self, if_true, hsum]

theorem dateOf_spec {t : ℤ} (h : InRange t) :
    ((dateOf t).toDays : ℤ) = t / microsPerDay + epochDays ∧ (dateOf t).Valid := by
  obtain ⟨hlow, hhigh⟩ : -(719162 * 86400000000) ≤ t ∧ t < (3652059 - 719162) * 86400000000 := h
  obtain ⟨n, hn⟩ : ∃ n, n = (t / 86400000000 + 719162).toNat := ⟨_, rfl⟩
  have hdate : dateOf t = .ofDays n := by rw [hn]; rfl
  obtain ⟨hdays, hvalid⟩ := Date.ofDays_spec (n := n) (by omega)
  rw [hdate, hdays, microsPerDay, epochDays]
  exact ⟨by omega, hvalid⟩

theorem microOfDay_lt (t : ℤ) : microOfDay t < microsPerDay := by
  rw [microOfDay, microsPerDay]
  omega

/-- The text of a time with an offset of zero is read as the time. -/
theorem fromisoformat_isoformat (always : Bool) {t : ℤ} (h : InRange t) :
    fromisoformat (isoformat always t ++ "+00:00".toList) = some t := by
  obtain ⟨hdays, hvalid⟩ := dateOf_spec h
  have hend : ∀ c ∈ "+00:00".toList.head?, digitValue c = none ∧ c ≠ '.' := by
    intro c hc
    obtain rfl : '+' = c := Option.some.inj hc
    decide
  have hoffset : readOffset "+00:00".toList = some 0 := by decide
  rw [isoformat, fromisoformat, List.append_assoc, readDate_dateText hvalid]
  simp only [Option.bind_eq_bind, Option.bind_some, List.cons_append,
    readTime_timeText always (microOfDay_lt t) hend, hoffset, hdays]
  have ht : (t / (microsPerDay : ℕ) + (epochDays : ℕ) - (epochDays : ℕ)) * (microsPerDay : ℕ) +
      (microOfDay t : ℕ) - 0 = t := by
    rw [microOfDay, epochDays, microsPerDay]
    omega
  rw [ht]

/-! ## The characters of the text -/

def characters : List Char := "0123456789-T:.".toList

theorem digits_characters {k n : ℕ} (h : n < 10 ^ k) : ∀ c ∈ digits k n, c ∈ characters := by
  induction k generalizing n with
  | zero => exact nofun
  | succ k ih =>
    have hhead : n / 10 ^ k < 10 := Nat.div_lt_of_lt_mul (by rwa [← pow_succ])
    have hdigit : ∀ n : Fin 10, digit n ∈ characters := by decide
    rw [digits, List.forall_mem_cons]
    exact ⟨hdigit ⟨_, hhead⟩, ih (Nat.mod_lt _ (by positivity))⟩

theorem isoformat_characters (always : Bool) {t : ℤ} (h : InRange t) :
    ∀ c ∈ isoformat always t, c ∈ characters := by
  obtain ⟨-, ⟨-, hyear⟩, hmonth, -, hday⟩ := dateOf_spec h
  have hlong := Date.daysIn_le (isLeap (dateOf t).year) hmonth
  have hmicro : microOfDay t < 86400000000 := microOfDay_lt t
  have hfraction : ∀ c ∈ (if always || microOfDay t % 1000000 ≠ 0 then
      '.' :: digits 6 (microOfDay t % 1000000) else []), c ∈ characters := by
    split_ifs
    · exact List.forall_mem_cons.mpr ⟨by decide, digits_characters (by omega)⟩
    · exact nofun
  simp only [isoformat, dateText, timeText, List.forall_mem_append, List.forall_mem_cons]
  refine ⟨⟨digits_characters (by omega), by decide, digits_characters (by omega), by decide,
    digits_characters (by omega)⟩, by decide, digits_characters (by omega), by decide,
    digits_characters (by omega), by decide, digits_characters (by omega), hfraction⟩

end IsoTime
