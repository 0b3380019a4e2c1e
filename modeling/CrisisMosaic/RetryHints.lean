import CrisisMosaic.RateLimits
import CrisisMosaic.Relational.Run

/-!
# Retry hints

The limiter on the clock it really uses, in fractions of a second. A refused request is told to wait for
what is left of the minute of the oldest admitted one, rounded down.
-/

namespace CrisisMosaic
open Relational Storage

/-- Python's `int` of a number. -/
def truncate (q : ℚ) : ℤ := if 0 ≤ q then ⌊q⌋ else ⌈q⌉

/-- `_RateLimiter`, with times in seconds. -/
structure SecondsLimiter where
  entries : String → List ℚ

def SecondsLimiter.check (now : ℚ) (key : String) (limit : ℕ) (l : SecondsLimiter) :
    Option ℤ × SecondsLimiter :=
  let entries := SlidingWindow.expire 60 now (l.entries key)
  if limit ≤ entries.length then
    (some (max 1 (truncate (60 - (now - entries.headD now)))), ⟨Function.update l.entries key entries⟩)
  else (none, ⟨Function.update l.entries key (entries ++ [now])⟩)

structure LimitedRequest where
  time : ℚ
  key : String
  limit : ℕ

/-- The limiter and the requests it has admitted, the last one last. -/
structure Limiting where
  limiter : SecondsLimiter
  admitted : List LimitedRequest

namespace Limiting
variable (s : Limiting) (key : String) (limit : ℕ) (now : ℚ)

def initial : Limiting := ⟨⟨fun _ => []⟩, []⟩

def step (r : LimitedRequest) : Limiting :=
  match s.limiter.check r.time r.key r.limit with
  | (some _, limiter) => { s with limiter := limiter }
  | (none, limiter) => ⟨limiter, s.admitted ++ [r]⟩

/-- When the requests of a key were admitted. -/
def times : List ℚ := (s.admitted.filter (·.key = key)).map (·.time)

/-- What is left of the minute of the oldest request that counts. -/
def remaining : ℚ := 60 - (now - (SlidingWindow.expire 60 now (s.limiter.entries key)).headD now)

/-- Requests in the order of their times, those of the key under one limit. -/
structure Ordered (requests : List LimitedRequest) : Prop where
  sorted : requests.Pairwise fun a b => a.time ≤ b.time
  limited : ∀ r ∈ requests, r.key = key → r.limit = limit

/-- Who was refused at `now` and waits for as long as it was told is admitted, unless others are
before. -/
def HintHolds (retryAfter : ℤ) : Prop :=
  ∀ (between : List LimitedRequest) (later : ℚ), Ordered key limit between →
    (∀ r ∈ between, now ≤ r.time ∧ r.time ≤ later) → now + retryAfter ≤ later →
    (run step (s.step ⟨now, key, limit⟩) between).times key = s.times key →
    ((run step (s.step ⟨now, key, limit⟩) between).limiter.check later key limit).1 = none

/-- No window of a minute, open where it begins or where it ends, has more than the limit. -/
def Limited : Prop := ∀ a : ℚ, ((s.times key).filter fun t => a ≤ t ∧ t < a + 60).length ≤ limit ∧
  ((s.times key).filter fun t => a < t ∧ t ≤ a + 60).length ≤ limit

def Tracked : Prop := SlidingWindow.Tracks 60 limit now (s.limiter.entries key) (s.times key)

end Limiting

section Checks
variable {l : SecondsLimiter} {key : String} {limit : ℕ} {now : ℚ}

theorem SecondsLimiter.check_refused
    (h : limit ≤ (SlidingWindow.expire 60 now (l.entries key)).length) : l.check now key limit =
      (some (max 1 (truncate (60 - (now - (SlidingWindow.expire 60 now (l.entries key)).headD now)))),
        ⟨Function.update l.entries key (SlidingWindow.expire 60 now (l.entries key))⟩) := if_pos h

theorem SecondsLimiter.check_admitted
    (h : (SlidingWindow.expire 60 now (l.entries key)).length < limit) : l.check now key limit =
      (none, ⟨Function.update l.entries key (SlidingWindow.expire 60 now (l.entries key) ++ [now])⟩) :=
  if_neg (not_le.mpr h)

theorem SecondsLimiter.check_isNone : (l.check now key limit).1 = none ↔
    (SlidingWindow.expire 60 now (l.entries key)).length < limit := by
  by_cases h : limit ≤ (SlidingWindow.expire 60 now (l.entries key)).length
  · rw [check_refused h]
    exact iff_of_false nofun (not_lt.mpr h)
  · rw [check_admitted (not_le.mp h)]
    exact iff_of_true rfl (not_le.mp h)

end Checks

/-! ## Microseconds -/

/-- The limiter on a clock in microseconds, as one in seconds. -/
def RateLimiter.inSeconds (l : RateLimiter) : SecondsLimiter :=
  ⟨fun key => (l.entries key).map fun t : Time => (t : ℚ) / 1000000⟩

theorem expire_inSeconds (now : Time) (entries : List Time) :
    SlidingWindow.expire 60 ((now : ℚ) / 1000000) (entries.map fun t : Time => (t : ℚ) / 1000000) =
      (SlidingWindow.expire (seconds 60) now entries).map fun t : Time => (t : ℚ) / 1000000 := by
  rw [SlidingWindow.expire, SlidingWindow.expire, List.dropWhile_map]
  congr 2
  funext t
  have hiff : (t : ℚ) / 1000000 ≤ (now : ℚ) / 1000000 - 60 ↔ t ≤ now - seconds 60 := by
    have hcast : (t : ℚ) / 1000000 ≤ (now : ℚ) / 1000000 - 60 ↔ (t : ℚ) ≤ (now : ℚ) - 60000000 := by
      constructor <;> intro h <;> linarith
    rw [hcast, seconds]
    exact_mod_cast Iff.rfl
  exact decide_eq_decide.mpr hiff

theorem truncate_inSeconds {n : ℤ} (h : 0 ≤ n) : truncate ((n : ℚ) / 1000000) = n / 1000000 := by
  have hpos : (0 : ℚ) ≤ (n : ℚ) / 1000000 := div_nonneg (Int.cast_nonneg h) (by norm_num)
  rw [truncate, if_pos hpos]
  exact Rat.floor_intCast_div_natCast n 1000000

/-- The answers on both clocks are the same. -/
theorem RateLimiter.check_inSeconds (l : RateLimiter) (now : Time) (key : String) (limit : ℕ) :
    l.inSeconds.check ((now : ℚ) / 1000000) key limit =
      ((l.check now key limit).1, (l.check now key limit).2.inSeconds) := by
  obtain ⟨entries, hentries⟩ : ∃ e, e = SlidingWindow.expire (seconds 60) now (l.entries key) := ⟨_, rfl⟩
  have hexpire : SlidingWindow.expire 60 ((now : ℚ) / 1000000) (l.inSeconds.entries key) =
      entries.map fun t : Time => (t : ℚ) / 1000000 := by
    rw [hentries]
    exact expire_inSeconds now (l.entries key)
  have hupdate (es : List Time) : (⟨Function.update l.entries key es⟩ : RateLimiter).inSeconds =
      ⟨Function.update l.inSeconds.entries key (es.map fun t : Time => (t : ℚ) / 1000000)⟩ := by
    simp only [inSeconds, SecondsLimiter.mk.injEq]
    funext k
    by_cases hk : k = key
    · subst hk
      simp
    · simp [hk]
  unfold check
  dsimp only
  rw [← hentries]
  by_cases hfull : limit ≤ entries.length
  · have hfull' : limit ≤ (SlidingWindow.expire 60 ((now : ℚ) / 1000000) (l.inSeconds.entries key)).length := by
      rwa [hexpire, List.length_map]
    rw [if_pos hfull, SecondsLimiter.check_refused hfull', hexpire, hupdate]
    have hhead : (entries.map fun t : Time => (t : ℚ) / 1000000).headD ((now : ℚ) / 1000000) =
        ((entries.headD now : Time) : ℚ) / 1000000 := by
      cases entries <;> rfl
    have hleft : now - seconds 60 < entries.headD now := by
      cases hcase : entries with
      | nil => exact sub_lt_self now (by decide)
      | cons oldest rest =>
        have hnot := List.head?_dropWhile_not (fun x => decide (x ≤ now - seconds 60)) (l.entries key)
        rw [SlidingWindow.expire] at hentries
        rw [← hentries, hcase] at hnot
        simpa using hnot
    have hrest : (60 : ℚ) - ((now : ℚ) / 1000000 - ((entries.headD now : Time) : ℚ) / 1000000) =
        ((seconds 60 - (now - entries.headD now) : ℤ) : ℚ) / 1000000 := by
      rw [seconds]
      push_cast
      ring
    have hnonneg : 0 ≤ seconds 60 - (now - entries.headD now) := by linarith
    rw [hhead, hrest, truncate_inSeconds hnonneg]
  · have hroom : (SlidingWindow.expire 60 ((now : ℚ) / 1000000) (l.inSeconds.entries key)).length < limit := by
      rw [hexpire, List.length_map]
      exact not_le.mp hfull
    rw [if_neg hfull, SecondsLimiter.check_admitted hroom, hexpire, hupdate, List.map_append]
    rfl

/-! ## The times that are kept -/

namespace Limiting
variable {s : Limiting} {key : String} {limit : ℕ} {now : ℚ}

theorem Tracked.initial : initial.Tracked key limit now := SlidingWindow.Tracks.empty _ _ _

theorem times_append (s : Limiting) (limiter : SecondsLimiter) (r : LimitedRequest) (key : String) :
    (⟨limiter, s.admitted ++ [r]⟩ : Limiting).times key =
      if r.key = key then s.times key ++ [r.time] else s.times key := by
  simp only [times, List.filter_append, List.map_append]
  by_cases h : r.key = key
  · simp [h]
  · simp [h]

theorem Tracked.step (h : s.Tracked key limit now) {r : LimitedRequest} (hnow : now ≤ r.time)
    (hlimit : r.key = key → r.limit = limit) : (s.step r).Tracked key limit r.time := by
  unfold Limiting.step Tracked at *
  by_cases hroom : r.limit ≤ (SlidingWindow.expire 60 r.time (s.limiter.entries r.key)).length
  · rw [SecondsLimiter.check_refused hroom]
    by_cases hkey : r.key = key
    · subst hkey
      dsimp only [times]
      rw [Function.update_self]
      exact SlidingWindow.Tracks.expire h hnow
    · dsimp only [times]
      rw [Function.update_of_ne (Ne.symm hkey)]
      exact SlidingWindow.Tracks.wait h hnow
  · rw [SecondsLimiter.check_admitted (not_le.mp hroom)]
    dsimp only
    rw [times_append]
    by_cases hkey : r.key = key
    · rw [if_pos hkey]
      obtain rfl := hlimit hkey
      subst hkey
      rw [Function.update_self]
      exact SlidingWindow.Tracks.admitted h hnow (by norm_num) (not_le.mp hroom)
    · rw [if_neg hkey, Function.update_of_ne (Ne.symm hkey)]
      exact SlidingWindow.Tracks.wait h hnow

/-- The times stay tracked while requests come in order. -/
theorem Tracked.run (h : s.Tracked key limit now) {requests : List LimitedRequest} {later : ℚ}
    (hle : now ≤ later) (hrequests : Ordered key limit requests)
    (htimes : ∀ r ∈ requests, now ≤ r.time ∧ r.time ≤ later) :
    (run Limiting.step s requests).Tracked key limit later := by
  induction requests generalizing s now with
  | nil => exact SlidingWindow.Tracks.wait h hle
  | cons r rest ih =>
    obtain ⟨hfirst, hsorted⟩ := List.pairwise_cons.mp hrequests.sorted
    have hr := htimes r List.mem_cons_self
    refine ih (h.step hr.1 (hrequests.limited r List.mem_cons_self)) hr.2 ⟨hsorted, ?_⟩ ?_
    · exact fun q hq => hrequests.limited q (List.mem_cons_of_mem r hq)
    · exact fun q hq => ⟨hfirst q hq, (htimes q (List.mem_cons_of_mem r hq)).2⟩

/-- Nothing is admitted before the first request. -/
theorem Ordered.tracked {requests : List LimitedRequest} (h : Ordered key limit requests)
    (htimes : ∀ r ∈ requests, r.time ≤ now) : (run Limiting.step .initial requests).Tracked key limit now := by
  cases requests with
  | nil => exact Tracked.initial
  | cons r rest =>
    have hfirst := (List.pairwise_cons.mp h.sorted).1
    refine Tracked.initial.run (htimes r List.mem_cons_self) h fun q hq => ⟨?_, htimes q hq⟩
    rcases List.mem_cons.mp hq with rfl | hq
    · exact le_rfl
    · exact hfirst q hq

theorem Tracked.limited (h : s.Tracked key limit now) : s.Limited key limit := by
  intro a
  refine ⟨SlidingWindow.Tracks.bounded_open h a, ?_⟩
  have hbound := SlidingWindow.Tracks.bounded h (a + 60)
  rw [SlidingWindow.within] at hbound
  simpa using hbound

/-! ## The hint -/

/-- The oldest request that counts, for a refused one. -/
theorem exists_oldest (hlimit : 0 < limit)
    (hfull : limit ≤ (SlidingWindow.expire 60 now (s.limiter.entries key)).length) :
    ∃ oldest rest, SlidingWindow.expire 60 now (s.limiter.entries key) = oldest :: rest ∧
      s.remaining key now = 60 - (now - oldest) ∧ now - 60 < oldest := by
  cases hentries : SlidingWindow.expire 60 now (s.limiter.entries key) with
  | nil =>
    rw [hentries] at hfull
    exact absurd hfull (not_le.mpr hlimit)
  | cons oldest rest =>
    refine ⟨oldest, rest, rfl, by rw [remaining, hentries, List.headD_cons], ?_⟩
    have hhead := List.head?_dropWhile_not (fun x => decide (x ≤ now - 60)) (s.limiter.entries key)
    rw [SlidingWindow.expire] at hentries
    rw [hentries] at hhead
    simpa using hhead

theorem truncate_of_pos {q : ℚ} (h : 0 < q) : truncate q = ⌊q⌋ := if_pos h.le

/-- Rounding down loses nothing in the last second and of whole seconds. -/
theorem le_hint_iff {q : ℚ} (h : 0 < q) :
    q ≤ ((max 1 (truncate q) : ℤ) : ℚ) ↔ q ≤ 1 ∨ ∃ n : ℤ, q = n := by
  rw [truncate_of_pos h, Int.cast_max, le_max_iff, Int.cast_one]
  refine or_congr_right ⟨fun hle => ⟨⌊q⌋, le_antisymm hle (Int.floor_le q)⟩, ?_⟩
  rintro ⟨n, rfl⟩
  rw [Int.floor_intCast]

/-- After waiting until the oldest has left there is room. -/
theorem hintHolds_of_le (h : s.Tracked key limit now) {retryAfter : ℤ} (hlimit : 0 < limit)
    (hfull : limit ≤ (SlidingWindow.expire 60 now (s.limiter.entries key)).length)
    (hretry : 0 ≤ retryAfter) (hle : s.remaining key now ≤ retryAfter) :
    s.HintHolds key limit now retryAfter := by
  intro between later hbetween htimes hlater hsame
  obtain ⟨oldest, rest, hentries, hremaining, -⟩ := exists_oldest hlimit hfull
  have hnow : now ≤ later := by
    have hcast : (0 : ℚ) ≤ retryAfter := Int.cast_nonneg hretry
    linarith
  have hrefused : (s.step ⟨now, key, limit⟩).Tracked key limit now := h.step le_rfl fun _ => rfl
  have hafter := hrefused.run hnow hbetween htimes
  rw [SecondsLimiter.check_isNone]
  unfold Tracked at h hafter
  rw [hsame] at hafter
  have hgone : oldest ≤ later - 60 := by
    rw [hremaining] at hle
    linarith
  have hold : oldest ∈ SlidingWindow.expire 60 now (s.limiter.entries key) := by
    rw [hentries]
    exact List.mem_cons_self
  exact SlidingWindow.Tracks.length_lt_of_left h hafter hnow le_rfl hold hgone

/-- Who comes when the oldest still counts is refused again. -/
theorem not_hintHolds_of_lt {retryAfter : ℤ} (hlimit : 0 < limit)
    (hfull : limit ≤ (SlidingWindow.expire 60 now (s.limiter.entries key)).length)
    (hretry : 0 ≤ retryAfter) (hlt : (retryAfter : ℚ) < s.remaining key now) :
    ¬ s.HintHolds key limit now retryAfter := by
  intro hholds
  obtain ⟨oldest, rest, hentries, hremaining, hcounts⟩ := exists_oldest hlimit hfull
  have hnow : now ≤ now + retryAfter := le_add_of_nonneg_right (Int.cast_nonneg hretry)
  have hrefused : s.step ⟨now, key, limit⟩ = { s with
      limiter := ⟨Function.update s.limiter.entries key (oldest :: rest)⟩ } := by
    rw [Limiting.step, SecondsLimiter.check_refused hfull, hentries]
  have hadmitted := hholds [] (now + retryAfter) ⟨.nil, nofun⟩ nofun le_rfl (by rw [run_nil, hrefused]; rfl)
  rw [run_nil, hrefused, SecondsLimiter.check_isNone] at hadmitted
  dsimp only at hadmitted
  rw [Function.update_self] at hadmitted
  have hkept : SlidingWindow.expire 60 (now + retryAfter) (oldest :: rest) = oldest :: rest := by
    rw [hremaining] at hlt
    have hcounted : ¬ oldest ≤ now + retryAfter - 60 := by linarith
    exact List.dropWhile_cons_of_neg (by simpa using hcounted)
  rw [hkept, ← hentries] at hadmitted
  exact absurd hfull (not_le.mpr hadmitted)

theorem hintHolds_iff (h : s.Tracked key limit now) {retryAfter : ℤ} (hlimit : 0 < limit)
    (hcheck : (s.limiter.check now key limit).1 = some retryAfter) :
    s.HintHolds key limit now retryAfter ↔
      s.remaining key now ≤ 1 ∨ ∃ n : ℤ, s.remaining key now = n := by
  have hfull : limit ≤ (SlidingWindow.expire 60 now (s.limiter.entries key)).length := by
    by_contra hroom
    rw [SecondsLimiter.check_isNone.mpr (not_le.mp hroom)] at hcheck
    exact nomatch hcheck
  have hretry : retryAfter = max 1 (truncate (s.remaining key now)) := by
    rw [SecondsLimiter.check_refused hfull] at hcheck
    exact (Option.some.inj hcheck).symm
  have hpos : 0 < s.remaining key now := by
    obtain ⟨oldest, -, -, hremaining, hcounts⟩ := exists_oldest hlimit hfull
    rw [hremaining]
    linarith
  have hone : 0 ≤ retryAfter := by
    rw [hretry]
    exact zero_le_one.trans (le_max_left 1 _)
  rw [← le_hint_iff hpos, ← hretry]
  constructor
  · intro hholds
    by_contra hlt
    exact not_hintHolds_of_lt hlimit hfull hone (not_le.mp hlt) hholds
  · exact hintHolds_of_le h hlimit hfull hone

end Limiting

/-- No minute has more admitted requests of a key than its limit. Who is refused and comes back when the
hint says is admitted exactly if what was left of the minute was a second at most or whole seconds. -/
theorem minutes_are_limited_and_hints_hold_iff (key : String) (limit : ℕ) (hlimit : 0 < limit)
    (requests : List LimitedRequest) (hrequests : Limiting.Ordered key limit requests) :
    (run Limiting.step .initial requests).Limited key limit ∧
      ∀ now : ℚ, (∀ r ∈ requests, r.time ≤ now) → ∀ retryAfter : ℤ,
        ((run Limiting.step .initial requests).limiter.check now key limit).1 = some retryAfter →
          ((run Limiting.step .initial requests).HintHolds key limit now retryAfter ↔
            (run Limiting.step .initial requests).remaining key now ≤ 1 ∨
              ∃ n : ℤ, (run Limiting.step .initial requests).remaining key now = n) := by
  constructor
  · obtain ⟨last, hlast⟩ := ((requests.map (·.time)).finite_toSet).bddAbove
    have htimes : ∀ r ∈ requests, r.time ≤ last := fun r hr => hlast (List.mem_map_of_mem hr)
    exact (hrequests.tracked htimes).limited
  · intro now htimes retryAfter hcheck
    exact Limiting.hintHolds_iff (hrequests.tracked htimes) hlimit hcheck

/-- One request, for a key with room for one in a minute. -/
abbrev onlyRequest : List LimitedRequest := [⟨0, "report_create:device:0:none", 1⟩]

theorem onlyRequest_ordered : Limiting.Ordered "report_create:device:0:none" 1 onlyRequest := by
  refine ⟨List.pairwise_singleton _ _, ?_⟩
  intro r hr _
  rw [List.mem_singleton.mp hr]

theorem a_second_later_the_hint_holds :
    (run Limiting.step .initial onlyRequest).HintHolds "report_create:device:0:none" 1 1 59 := by
  have hiff := (minutes_are_limited_and_hints_hold_iff "report_create:device:0:none" 1 (by decide)
    onlyRequest onlyRequest_ordered).2 1 (by simp [onlyRequest]) 59 (by decide +kernel)
  exact hiff.mpr (Or.inr ⟨59, by decide +kernel⟩)

/-- Half a second later 59 seconds are told, after which the first request still counts. -/
theorem half_a_second_later_the_hint_fails :
    ∃ (requests : List LimitedRequest) (key : String) (limit : ℕ) (now : ℚ) (retryAfter : ℤ),
      0 < limit ∧ Limiting.Ordered key limit requests ∧ (∀ r ∈ requests, r.time ≤ now) ∧
        ((run Limiting.step .initial requests).limiter.check now key limit).1 = some retryAfter ∧
          ¬ (run Limiting.step .initial requests).HintHolds key limit now retryAfter := by
  refine ⟨onlyRequest, "report_create:device:0:none", 1, 1 / 2, 59, by decide, onlyRequest_ordered,
    by simp [onlyRequest], by decide +kernel, ?_⟩
  intro hholds
  have hadmitted := hholds [] (1 / 2 + 59) ⟨.nil, nofun⟩ nofun le_rfl (by decide +kernel)
  have hrefused : ((run Limiting.step ((run Limiting.step .initial onlyRequest).step
      ⟨1 / 2, "report_create:device:0:none", 1⟩) []).limiter.check (1 / 2 + 59)
        "report_create:device:0:none" 1).1 ≠ none := by decide +kernel
  exact hrefused hadmitted

end CrisisMosaic
