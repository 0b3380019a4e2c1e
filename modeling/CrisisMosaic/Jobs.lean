import CrisisMosaic.Access

/-!
# Worker jobs

The rows of `background_jobs` and what the worker writes to them, for any
payload. `claimJob` takes the first due job; `finishJob` records how its execution
ended and schedules the next attempt.
-/

namespace CrisisMosaic
open Relational

def seconds (n : ℤ) : Time := n * 1000000

structure Job (κ : Type) where
  payload : κ
  status : JobStatus
  attempts : ℕ
  maxAttempts : ℕ
  runAfter : Time
  leaseExpiresAt : Option Time
  lastError : Option String

namespace Job
variable {κ : Type}

def enqueued (now : Time) (maxAttempts : ℕ) (payload : κ) : Job κ :=
  ⟨payload, .queued, 0, maxAttempts, now, none, none⟩

def isLive (j : Job κ) : Bool := j.status = .queued || j.status = .retry || j.status = .running

def isDue (now : Time) (j : Job κ) : Bool :=
  ((j.status = .queued || j.status = .retry) && j.runAfter ≤ now) ||
    (j.status = .running && j.leaseExpiresAt.any (· ≤ now))

def claimed (now : Time) (leaseSeconds : ℤ) (j : Job κ) : Job κ :=
  { j with
    status := .running
    attempts := j.attempts + 1
    leaseExpiresAt := some (now + seconds leaseSeconds) }

def delays : List ℤ := [1, 5, 30]

def finished (now : Time) (error : Option String) (j : Job κ) : Job κ :=
  match error with
  | none => { j with status := .succeeded, leaseExpiresAt := none, lastError := none }
  | some e =>
    if j.attempts ≥ j.maxAttempts then
      { j with status := .failed, leaseExpiresAt := none, lastError := some e }
    else
      { j with
        status := .retry
        leaseExpiresAt := none
        lastError := some e
        runAfter := now + seconds (delays.getD (min (j.attempts - 1) (delays.length - 1)) 0) }

theorem isLive_of_isDue {now : Time} {j : Job κ} (h : j.isDue now = true) : j.isLive = true := by
  simp only [isDue, isLive, Bool.or_eq_true, Bool.and_eq_true, decide_eq_true_eq] at h ⊢
  tauto

@[simp] theorem isLive_enqueued (now : Time) (maxAttempts : ℕ) (payload : κ) :
    (enqueued now maxAttempts payload).isLive = true := rfl

@[simp] theorem payload_claimed (now : Time) (leaseSeconds : ℤ) (j : Job κ) :
    (j.claimed now leaseSeconds).payload = j.payload := rfl

@[simp] theorem payload_finished (now : Time) (error : Option String) (j : Job κ) :
    (j.finished now error).payload = j.payload := by
  unfold finished
  split
  · rfl
  · split <;> rfl

theorem isLive_of_finished {now : Time} {error : Option String} {j : Job κ}
    (h : (if j.status = .running then j.finished now error else j).isLive = true) :
    j.isLive = true := by
  split_ifs at h with hrunning
  · simp [isLive, hrunning]
  · exact h

end Job

section Worker
variable {κ : Type}

/-- `_claim_job`: the due job with the earliest `run_after`. -/
def claimJob (now : Time) (leaseSeconds : ℤ) (jobs : Table (Job κ)) :
    Option (Id × Table (Job κ)) :=
  ((oldestFirst jobs (·.runAfter) (jobs.select (·.isDue now))).head?).map fun i =>
    (i, jobs.modify i (·.claimed now leaseSeconds))

/-- `_finish_job`: a job that is no longer running is left alone. -/
def finishJob (now : Time) (error : Option String) (jobs : Table (Job κ)) (i : Id) :
    Table (Job κ) :=
  jobs.modify i fun j => if j.status = .running then j.finished now error else j

theorem claimJob_some {now : Time} {leaseSeconds : ℤ} {jobs jobs' : Table (Job κ)} {i : Id}
    (h : claimJob now leaseSeconds jobs = some (i, jobs')) :
    (∃ j, jobs.get i = some j ∧ j.isDue now = true) ∧
      jobs' = jobs.modify i (·.claimed now leaseSeconds) := by
  obtain ⟨k, hk, heq⟩ := Option.map_eq_some_iff.mp h
  obtain ⟨rfl, rfl⟩ := Prod.mk.inj heq
  have hmem : k ∈ jobs.select (·.isDue now) :=
    (List.perm_insertionSort _ _).subset (List.mem_of_head? hk)
  exact ⟨Table.mem_select.mp hmem, rfl⟩

end Worker
end CrisisMosaic
