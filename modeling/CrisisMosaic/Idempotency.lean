import CrisisMosaic.Basic
import CrisisMosaic.Relational.Fallible
import CrisisMosaic.Relational.Table

/-!
# Idempotency records

A request that carries an idempotency key reserves a record under its actor, its route
and its key, or finds the record of an earlier request: the stored response is then
replayed, and a different or an unfinished request is refused. A record that has expired
is reserved anew under its old id.
-/

namespace CrisisMosaic
open Relational

structure IdempotencySettings where
  idempotencyHours : ℤ

/-- What the records are unique in. -/
structure RequestKey where
  actorKey : String
  route : String
  idempotencyKey : String
deriving DecidableEq

structure IdempotencyRecord where
  key : RequestKey
  requestHash : String
  responseStatus : ℕ
  responseBody : Option Dict
  createdAt : Time
  expiresAt : Time

/-- The records by id; a deleted record leaves its id behind. -/
abbrev IdempotencyRecords := Table (Option IdempotencyRecord)

inductive Reservation
  | reserved (recordId : Id)
  | replay (statusCode : ℕ) (body : Dict)

namespace IdempotencyRecords
variable (settings : IdempotencySettings) (now : Time) (records : IdempotencyRecords)

def holding (key : RequestKey) (row : Option IdempotencyRecord) : Bool :=
  row.any fun r => r.key = key

/-- A reservation that waits for its response. -/
def reservation (key : RequestKey) (fingerprint : String) : IdempotencyRecord :=
  ⟨key, fingerprint, 0, none, now, now + hours settings.idempotencyHours⟩

/-- `_reserve_or_replay` of the middleware, and `replay_or_reserve` of the report route. -/
def reserveOrReplay (key : RequestKey) (fingerprint : String) :
    Result (IdempotencyRecords × Reservation) := do
  require (key.idempotencyKey ≠ "" ∧ key.idempotencyKey.length ≤ 200)
    ⟨422, "INVALID_IDEMPOTENCY_KEY", "Idempotency-Key 长度必须为 1 到 200", []⟩
  match records.find (holding key) with
  | some (id, some existing) =>
    if existing.expiresAt ≤ now then
      pure (records.modify id fun _ => some (reservation settings now key fingerprint), .reserved id)
    else do
      require (existing.requestHash = fingerprint)
        (conflictError "IDEMPOTENCY_CONFLICT" "该 Idempotency-Key 已用于不同请求" [])
      match existing.responseBody with
      | none => throw (conflictError "IDEMPOTENCY_IN_PROGRESS" "相同请求正在处理中" [])
      | some body => pure (records, .replay existing.responseStatus body)
  | _ => pure (records.insert (some (reservation settings now key fingerprint)), .reserved records.size)

/-- `_release_reservation` -/
def releaseReservation (recordId : Id) : IdempotencyRecords :=
  records.modify recordId fun row =>
    if row.any (·.responseBody.isNone) then none else row

/-- `_finish_reservation` -/
def finishReservation (recordId : Id) (statusCode : ℕ) (body : Dict) : IdempotencyRecords :=
  records.modify recordId (Option.map fun r =>
    { r with responseStatus := statusCode, responseBody := some body })

/-- What a retention pass does to the records. -/
def deleteExpired : IdempotencyRecords :=
  records.sweep fun row => if row.any (·.expiresAt ≤ now) then none else row

/-- The record that is stored under the id. -/
def record (recordId : Id) : Option IdempotencyRecord := (records.get recordId).join

section Lemmas
variable {settings : IdempotencySettings} {now : Time} {records : IdempotencyRecords}
  {key : RequestKey} {fingerprint : String} {i j : Id} {r q : IdempotencyRecord}

theorem record_eq_some : records.record i = some r ↔ records.get i = some (some r) := by
  simp [record, Option.join_eq_some_iff]

theorem record_releaseReservation :
    (records.releaseReservation i).record j = some r ↔
      records.record j = some r ∧ (j = i → r.responseBody ≠ none) := by
  rw [record_eq_some, record_eq_some]
  unfold releaseReservation
  by_cases hj : i = j
  · subst hj
    rw [Table.get_modify_self]
    cases hrow : records.get i with
    | none => simp
    | some row =>
      cases row with
      | none => simp
      | some p =>
        cases hbody : p.responseBody with
        | none =>
          simp only [Option.map_some, Option.any_some, hbody, Option.isNone_none, if_true,
            Option.some.injEq, reduceCtorEq, true_imp_iff, false_iff, not_and, not_not]
          rintro rfl
          exact hbody
        | some body =>
          simp only [Option.map_some, Option.any_some, hbody, Option.isNone_some, Bool.false_eq_true,
            if_false, Option.some.injEq, true_imp_iff, ne_eq, iff_self_and]
          rintro rfl
          simp [hbody]
  · rw [Table.get_modify_of_ne _ _ hj]
    simp [Ne.symm hj]

theorem record_finishReservation {statusCode : ℕ} {body : Dict}
    (h : (records.finishReservation i statusCode body).record j = some r) :
    (j = i ∧ ∃ q, records.record i = some q ∧
      r = { q with responseStatus := statusCode, responseBody := some body }) ∨
    (j ≠ i ∧ records.record j = some r) := by
  rcases Table.get_modify_cases (record_eq_some.mp h) with ⟨rfl, row, hrow, hr⟩ | ⟨hi, hold⟩
  · obtain ⟨q, rfl, hq⟩ := Option.map_eq_some_iff.mp hr.symm
    exact Or.inl ⟨rfl, q, record_eq_some.mpr hrow, hq.symm⟩
  · exact Or.inr ⟨hi.symm, record_eq_some.mpr hold⟩

theorem record_finishReservation_of_some {statusCode : ℕ} {body : Dict}
    (h : records.record i = some r) :
    (records.finishReservation i statusCode body).record i =
      some { r with responseStatus := statusCode, responseBody := some body } := by
  rw [record_eq_some, finishReservation, Table.get_modify_self, record_eq_some.mp h]
  rfl

/-- Storing a response under another key's record, or releasing it, leaves the records of a key. -/
theorem finishReservation_other {statusCode : ℕ} {body : Dict}
    (hother : ∀ q, records.record i = some q → q.key ≠ key) (hr : r.key = key) :
    (records.finishReservation i statusCode body).record j = some r ↔ records.record j = some r := by
  by_cases hj : j = i
  · subst hj
    refine iff_of_false (fun hnew => ?_) fun hold => hother r hold hr
    rcases record_finishReservation hnew with ⟨-, q, hq, rfl⟩ | ⟨hne, -⟩
    · exact hother q hq hr
    · exact hne rfl
  · rw [record, record, finishReservation, Table.get_modify_of_ne _ _ (Ne.symm hj)]

theorem releaseReservation_other (hother : ∀ q, records.record i = some q → q.key ≠ key)
    (hr : r.key = key) :
    (records.releaseReservation i).record j = some r ↔ records.record j = some r := by
  refine record_releaseReservation.trans (and_iff_left_of_imp fun hold hj => ?_)
  subst hj
  exact absurd hr (hother r hold)

theorem record_deleteExpired :
    (records.deleteExpired now).record i = some r ↔ records.record i = some r ∧ now < r.expiresAt := by
  rw [record_eq_some, record_eq_some]
  unfold deleteExpired
  rw [Table.get_sweep]
  cases hrow : records.get i with
  | none => simp
  | some row =>
    cases row with
    | none => simp
    | some p =>
      by_cases hp : p.expiresAt ≤ now
      · simp only [Option.map_some, Option.any_some, hp, decide_true, if_true, Option.some.injEq,
          reduceCtorEq, false_iff, not_and, not_lt]
        rintro rfl
        exact hp
      · simp only [Option.map_some, Option.any_some, hp, decide_false, Bool.false_eq_true, if_false,
          Option.some.injEq, iff_self_and]
        rintro rfl
        exact not_le.mp hp

/-- A reservation takes a new record, or one of its key that has expired. -/
structure Reserves (settings : IdempotencySettings) (now : Time) (records : IdempotencyRecords)
    (key : RequestKey) (fingerprint : String) (records' : IdempotencyRecords) (i : Id) : Prop where
  used : i < records'.size
  size : records.size ≤ records'.size
  stored : records'.record i = some (reservation settings now key fingerprint)
  others : ∀ j, j ≠ i → records'.record j = records.record j
  free : (i = records.size ∧ ∀ j r, records.record j = some r → r.key ≠ key) ∨
    ∃ r, records.record i = some r ∧ r.key = key ∧ r.expiresAt ≤ now

/-- The records of the other keys stay as they are. -/
theorem Reserves.record_iff {records' : IdempotencyRecords}
    (h : Reserves settings now records key fingerprint records' i) (hr : r.key ≠ key) :
    records'.record j = some r ↔ records.record j = some r := by
  by_cases hj : j = i
  · subst hj
    refine iff_of_false (fun hnew => ?_) fun hold => ?_
    · exact hr (Option.some.inj (hnew.symm.trans h.stored) ▸ rfl)
    · rcases h.free with ⟨hsize, -⟩ | ⟨q, hq, hkey, -⟩
      · exact absurd (Table.lt_size (record_eq_some.mp hold)) (hsize ▸ lt_irrefl _)
      · exact hr (Option.some.inj (hold.symm.trans hq) ▸ hkey)
  · rw [h.others j hj]

/-- When the key had one record at most, the reserved one is its only record. -/
theorem Reserves.record_eq {records' : IdempotencyRecords}
    (h : Reserves settings now records key fingerprint records' i)
    (hunique : ∀ j r j' r', records.record j = some r → r.key = key →
      records.record j' = some r' → r'.key = key → j = j')
    (hr : records'.record j = some r) (hkey : r.key = key) :
    j = i ∧ r = reservation settings now key fingerprint := by
  have hj : j = i := by
    by_contra hne
    have hold := (h.others j hne).symm.trans hr
    rcases h.free with ⟨-, hnone⟩ | ⟨q, hq, hqkey, -⟩
    · exact hnone j r hold hkey
    · exact hne (hunique j r i q hold hkey hq hqkey)
  subst hj
  exact ⟨rfl, Option.some.inj (hr.symm.trans h.stored)⟩

theorem reserves_insert (h : ∀ j r, records.record j = some r → r.key ≠ key) :
    Reserves settings now records key fingerprint
      (records.insert (some (reservation settings now key fingerprint))) records.size where
  used := by simp
  size := by simp
  stored := by simp [record]
  others := fun j hj => by rw [record, record, Table.get_insert, if_neg hj]
  free := Or.inl ⟨rfl, h⟩

theorem reserves_modify (hr : records.record i = some r) (hkey : r.key = key)
    (hexpired : r.expiresAt ≤ now) :
    Reserves settings now records key fingerprint
      (records.modify i fun _ => some (reservation settings now key fingerprint)) i where
  used := by
    rw [Table.size_modify]
    exact Table.lt_size (record_eq_some.mp hr)
  size := by simp
  stored := by
    rw [record, Table.get_modify_self, record_eq_some.mp hr]
    rfl
  others := fun j hj => by rw [record, record, Table.get_modify_of_ne _ _ (Ne.symm hj)]
  free := Or.inr ⟨r, hr, hkey, hexpired⟩

/-- What a request finds under its key. -/
inductive Reserving (settings : IdempotencySettings) (now : Time) (records : IdempotencyRecords)
    (key : RequestKey) (fingerprint : String) : IdempotencyRecords → Reservation → Prop
  | reserved {records' : IdempotencyRecords} {i : Id} :
      Reserves settings now records key fingerprint records' i →
      Reserving settings now records key fingerprint records' (.reserved i)
  | replayed {i : Id} {r : IdempotencyRecord} {body : Dict} : records.record i = some r →
      r.key = key → now < r.expiresAt → r.requestHash = fingerprint → r.responseBody = some body →
      Reserving settings now records key fingerprint records (.replay r.responseStatus body)

theorem reserveOrReplay_key {x : IdempotencyRecords × Reservation}
    (h : reserveOrReplay settings now records key fingerprint = .ok x) :
    key.idempotencyKey ≠ "" ∧ key.idempotencyKey.length ≤ 200 := by
  unfold reserveOrReplay at h
  simp only [bind_ok, require_ok] at h
  obtain ⟨-, hkey, -⟩ := h
  exact hkey

theorem reserveOrReplay_spec {records' : IdempotencyRecords} {outcome : Reservation}
    (h : reserveOrReplay settings now records key fingerprint = .ok (records', outcome)) :
    Reserving settings now records key fingerprint records' outcome := by
  unfold reserveOrReplay at h
  simp only [bind_ok, require_ok] at h
  obtain ⟨-, -, h⟩ := h
  split at h
  · rename_i id existing hfind
    obtain ⟨hrow, hkey⟩ := Table.find_some hfind
    have hrecord := record_eq_some.mpr hrow
    have hkey : existing.key = key := by simpa [holding] using hkey
    split at h
    · rename_i hexpired
      cases h
      exact .reserved (reserves_modify hrecord hkey hexpired)
    · rename_i hvalid
      simp only [bind_ok, require_ok] at h
      obtain ⟨-, hhash, h⟩ := h
      split at h
      · cases h
      · rename_i body hbody
        cases h
        exact .replayed hrecord hkey (not_le.mp hvalid) hhash hbody
  · rename_i hnone
    cases h
    refine .reserved (reserves_insert fun i r hr hkey => ?_)
    have hholds : holding key (some r) = true := by simp [holding, hkey]
    cases hfind : records.find (holding key) with
    | none =>
      rw [Table.find_none hfind (record_eq_some.mp hr)] at hholds
      cases hholds
    | some found =>
      obtain ⟨id, row⟩ := found
      cases row with
      | none => cases (Table.find_some hfind).2
      | some existing => exact hnone id existing hfind

/-- A key whose record is valid refuses a request with another hash. -/
theorem reserveOrReplay_conflict (hkey : key.idempotencyKey ≠ "" ∧ key.idempotencyKey.length ≤ 200)
    (hr : records.record i = some r ∧ r.key = key)
    (hall : ∀ j q, records.record j = some q → q.key = key →
      now < q.expiresAt ∧ q.requestHash ≠ fingerprint) :
    reserveOrReplay settings now records key fingerprint =
      .error (conflictError "IDEMPOTENCY_CONFLICT" "该 Idempotency-Key 已用于不同请求" []) := by
  unfold reserveOrReplay
  rw [require, if_pos hkey]
  have hholds : holding key (some r) = true := by simp [holding, hr.2]
  cases hfind : records.find (holding key) with
  | none =>
    rw [Table.find_none hfind (record_eq_some.mp hr.1)] at hholds
    cases hholds
  | some found =>
    obtain ⟨id, row⟩ := found
    obtain ⟨hrow, hrowkey⟩ := Table.find_some hfind
    cases row with
    | none => cases hrowkey
    | some existing =>
      obtain ⟨hvalid, hhash⟩ := hall id existing (record_eq_some.mpr hrow)
        (by simpa [holding] using hrowkey)
      dsimp only [bind, Except.bind]
      rw [if_neg (not_le.mpr hvalid), require, if_neg hhash]

end Lemmas
end IdempotencyRecords
end CrisisMosaic
