import CrisisMosaic.Jobs
import CrisisMosaic.Relational.Run

/-!
# Runs of the worker and the claims of a job

Requests enqueue and cancel jobs; the worker claims, executes and finishes them. It may crash at any
point, which records nothing, so that several executions of one job can be under way.
-/

namespace CrisisMosaic
open Relational

structure JobSettings where
  jobLeaseSeconds : ℤ
  jobMaxAttempts : ℕ

/-- The type of a job with its payload. -/
inductive JobTask
  | attachmentProcess (attachment : Id)
  | mediaProcess (attachment : Id)
  | aiAnalysis (analysis : Id)
  | blindSpotDetect (incident fragment : Id) (revision grace : ℕ) (dueAt : Time)
  | unknown (jobType : String)

namespace JobTask

def dueAt : JobTask → Option Time
  | .blindSpotDetect _ _ _ _ dueAt => some dueAt
  | _ => none

def detects (fragment : Id) : JobTask → Bool
  | .blindSpotDetect _ f _ _ _ => f = fragment
  | _ => false

def isAt (revision : ℕ) : JobTask → Bool
  | .blindSpotDetect _ _ r _ _ => r = revision
  | _ => false

/-- An unknown type raises whatever the execution would have come to. -/
def outcome (error : Option String) : JobTask → Option String
  | .unknown jobType => some ("RuntimeError: unknown background job type: " ++ jobType)
  | _ => error

end JobTask

namespace Job

/-- A detection waits until it is due. -/
def queuedFor (now : Time) (maxAttempts : ℕ) (task : JobTask) : Job JobTask :=
  { enqueued now maxAttempts task with runAfter := task.dueAt.getD now }

def canceled (j : Job JobTask) : Job JobTask :=
  { j with
    status := .canceled
    leaseExpiresAt := none
    lastError := some "canceled because the source report observation changed" }

/-- A column is written when it differs from what was loaded. -/
def assign {α : Type} [DecidableEq α] (loaded new stored : α) : α := if new = loaded then stored else new

/-- What the session that loaded the row writes when it puts the detection off. -/
def deferred (dueAt : Time) (loaded stored : Job JobTask) : Job JobTask :=
  { stored with
    status := assign loaded.status .queued stored.status
    attempts := assign loaded.attempts (loaded.attempts - 1) stored.attempts
    runAfter := assign loaded.runAfter dueAt stored.runAfter
    leaseExpiresAt := assign loaded.leaseExpiresAt none stored.leaseExpiresAt
    lastError := assign loaded.lastError (some "deferred until the fixed blind-spot due time")
      stored.lastError }

end Job

/-- How far an execution has come. -/
inductive Execution
  | claimed (job : Id)
  | loaded (job : Id) (row : Job JobTask)
  | worked (job : Id) (error : Option String)

/-- `claims` has the job of every claim. -/
structure JobSystem where
  now : Time
  jobs : Table (Job JobTask)
  executions : Table (Option Execution)
  claims : List Id

inductive JobStep
  | advance (elapsed : ℕ)
  | enqueue (task : JobTask)
  | cancel (fragment : Id) (keep : Option ℕ)
  /-- The time is read before the lock is waited for. -/
  | claim (waited : ℕ)
  | load (execution : Id)
  | work (execution : Id) (error : Option String)
  | finish (execution : Id)
  | crash (execution : Id)

namespace JobSystem
variable (settings : JobSettings) (s : JobSystem)

def initial (now : Time) : JobSystem := ⟨now, .empty, .empty, []⟩

def execution (e : Id) : Option Execution := (s.executions.get e).join

def progress (e : Id) (x : Option Execution) : JobSystem :=
  { s with executions := s.executions.modify e fun _ => x }

/-- `_cancel_blind_spot_jobs` -/
def cancel (fragment : Id) (keep : Option ℕ) : JobSystem :=
  { s with
    jobs := s.jobs.sweep fun j =>
      if j.payload.detects fragment && j.isLive && !(keep.any fun revision => j.payload.isAt revision) then
        j.canceled
      else j }

def claim (now : Time) : JobSystem :=
  match claimJob now settings.jobLeaseSeconds s.jobs with
  | none => s
  | some (i, jobs) =>
    { s with
      jobs := jobs
      executions := s.executions.insert (some (.claimed i))
      claims := i :: s.claims }

/-- `_execute_job` loads the row without the lock. -/
def load (e : Id) : JobSystem :=
  match s.execution e with
  | some (.claimed i) =>
    s.progress e (((s.jobs.get i).filter fun j => j.status = .running).map (.loaded i))
  | _ => s

def work (e : Id) (error : Option String) : JobSystem :=
  match s.execution e with
  | some (.loaded i row) =>
    match row.payload.dueAt.filter (s.now < ·) with
    | some dueAt => { s.progress e none with jobs := s.jobs.modify i (row.deferred dueAt) }
    | none => s.progress e (some (.worked i (row.payload.outcome error)))
  | _ => s

def finish (e : Id) : JobSystem :=
  match s.execution e with
  | some (.worked i error) => { s.progress e none with jobs := finishJob s.now error s.jobs i }
  | _ => s

end JobSystem

def jobStep (settings : JobSettings) (s : JobSystem) : JobStep → JobSystem
  | .advance elapsed => { s with now := s.now + elapsed }
  | .enqueue task => { s with jobs := s.jobs.insert (.queuedFor s.now settings.jobMaxAttempts task) }
  | .cancel fragment keep => s.cancel fragment keep
  | .claim waited => s.claim settings (s.now - waited)
  | .load e => s.load e
  | .work e error => s.work e error
  | .finish e => s.finish e
  | .crash e => s.progress e none

abbrev jobRun (settings : JobSettings) (now : Time) (steps : List JobStep) : JobSystem :=
  run (jobStep settings) (.initial now) steps

end CrisisMosaic

/-!
## How often a job is claimed

A failure is recorded against the attempts that are left; a crash records nothing, and the job is
claimed again when its lease has expired, whatever its attempts are.
-/

namespace CrisisMosaic
open Relational

def JobStatus.isOver : JobStatus → Bool
  | .succeeded | .failed | .canceled => true
  | _ => false

/-- The due job that is claimed first. -/
def firstDue {κ : Type} (now : Time) (jobs : Table (Job κ)) : Option Id :=
  (oldestFirst jobs (·.runAfter) (jobs.select (·.isDue now))).head?

namespace JobSystem
variable (s t : JobSystem)

/-- No job has been claimed more often than it may be. -/
def WithinAttempts : Prop := s.jobs.All fun i j => s.claims.count i ≤ j.maxAttempts

/-- A job that is over stays as it is. -/
def KeepsOver : Prop := s.jobs.All fun i j => j.status.isOver = true → t.jobs.get i = some j

/-- The job that a claim finds has an attempt left, if it is running, and may be attempted at all. -/
def SparesSpent : JobStep → Prop
  | .claim waited => ∀ i ∈ firstDue (s.now - waited) s.jobs, ∀ j ∈ s.jobs.get i,
      (j.status = .running → j.attempts < j.maxAttempts) ∧ 0 < j.maxAttempts
  | _ => True

end JobSystem

/-! ## Rows -/

/-- What holds of a row at a time, given how often its job has been claimed. -/
structure Job.Sound (now : Time) (claims : ℕ) (j : Job JobTask) : Prop where
  counted : claims = j.attempts
  queued : j.status = .queued → j.attempts = 0
  retried : j.status = .retry → j.attempts < j.maxAttempts
  dated : ∀ due ∈ j.payload.dueAt, due ≤ j.runAfter
  begun : j.status = .running → ∀ due ∈ j.payload.dueAt, due ≤ now

namespace Job
variable {now : Time} {claims : ℕ} {j : Job JobTask}

theorem Sound.later (h : j.Sound now claims) {later : Time} (hle : now ≤ later) : j.Sound later claims :=
  ⟨h.counted, h.queued, h.retried, h.dated, fun hrunning due hdue => (h.begun hrunning due hdue).trans hle⟩

theorem queuedFor_sound (maxAttempts : ℕ) (task : JobTask) :
    (queuedFor now maxAttempts task).Sound now 0 where
  counted := rfl
  queued _ := rfl
  retried h := nomatch h
  begun h := nomatch h
  dated := by
    intro due hdue
    have htask : task.dueAt = some due := hdue
    show due ≤ task.dueAt.getD now
    rw [htask]
    exact le_rfl

theorem Sound.canceled (h : j.Sound now claims) : j.canceled.Sound now claims :=
  ⟨h.counted, nofun, nofun, h.dated, nofun⟩

/-- A due job has come to its time, whichever way it is due. -/
theorem Sound.due_le (h : j.Sound now claims) {seen : Time} (hseen : seen ≤ now)
    (hdue : j.isDue seen = true) : ∀ due ∈ j.payload.dueAt, due ≤ now := by
  intro due hmem
  rw [isDue, Bool.or_eq_true, Bool.and_eq_true, Bool.and_eq_true, decide_eq_true_eq,
    decide_eq_true_eq] at hdue
  rcases hdue with ⟨-, hafter⟩ | ⟨hrunning, -⟩
  · exact (h.dated due hmem).trans (hafter.trans hseen)
  · exact h.begun hrunning due hmem

theorem Sound.claimed (h : j.Sound now claims) {seen : Time} (hseen : seen ≤ now)
    (hdue : j.isDue seen = true) (leaseSeconds : ℤ) :
    (j.claimed seen leaseSeconds).Sound now (claims + 1) :=
  ⟨congrArg (· + 1) h.counted, nofun, nofun, h.dated, fun _ => h.due_le hseen hdue⟩

/-- A due job has an attempt left unless it is running. -/
theorem Sound.attempts_lt (h : j.Sound now claims) {seen : Time} (hdue : j.isDue seen = true)
    (hrunning : j.status = .running → j.attempts < j.maxAttempts) (hpositive : 0 < j.maxAttempts) :
    j.attempts < j.maxAttempts := by
  rw [isDue, Bool.or_eq_true, Bool.and_eq_true, Bool.or_eq_true, Bool.and_eq_true] at hdue
  simp only [decide_eq_true_eq] at hdue
  rcases hdue with ⟨hqueued | hretry, -⟩ | ⟨hstatus, -⟩
  · rw [h.queued hqueued]
    exact hpositive
  · exact h.retried hretry
  · exact hrunning hstatus

@[simp] theorem attempts_finished (now : Time) (error : Option String) (j : Job JobTask) :
    (j.finished now error).attempts = j.attempts := by
  unfold finished
  split
  · rfl
  · split_ifs <;> rfl

@[simp] theorem maxAttempts_finished (now : Time) (error : Option String) (j : Job JobTask) :
    (j.finished now error).maxAttempts = j.maxAttempts := by
  unfold finished
  split
  · rfl
  · split_ifs <;> rfl

theorem delays_nonneg (n : ℕ) : 0 ≤ delays.getD n 0 := by
  rcases n with _ | _ | _ | n <;> simp [delays]

/-- Only a failure with an attempt left is tried again, and not before now. -/
theorem Sound.finished (h : j.Sound now claims) (hrunning : j.status = .running) (error : Option String) :
    (j.finished now error).Sound now claims := by
  unfold Job.finished
  split
  · exact ⟨h.counted, nofun, nofun, h.dated, nofun⟩
  · split_ifs with hspent
    · exact ⟨h.counted, nofun, nofun, h.dated, nofun⟩
    · refine ⟨h.counted, nofun, fun _ => not_le.mp hspent, ?_, nofun⟩
      intro due hdue
      have hdelay := delays_nonneg (min (j.attempts - 1) (delays.length - 1))
      have hlater : now ≤ now + seconds (delays.getD (min (j.attempts - 1) (delays.length - 1)) 0) := by
        simp only [seconds]
        linarith
      exact (h.begun hrunning due hdue).trans hlater

end Job

/-! ## Steps -/

namespace JobSystem
variable {settings : JobSettings} {s : JobSystem}

structure Sound (s : JobSystem) : Prop where
  rows : s.jobs.All fun i j => j.Sound s.now (s.claims.count i)
  known : ∀ i ∈ s.claims, i < s.jobs.size
  loaded : ∀ e i row, s.execution e = some (.loaded i row) → ∀ due ∈ row.payload.dueAt, due ≤ s.now

theorem progress_execution {e k : Id} {x : Option Execution} {y : Execution}
    (h : (s.progress e x).execution k = some y) : x = some y ∨ s.execution k = some y := by
  rcases Table.get_modify_cases (Option.join_eq_some_iff.mp h) with ⟨-, _, -, heq⟩ | ⟨-, hget⟩
  · exact Or.inl heq.symm
  · exact Or.inr (Option.join_eq_some_iff.mpr hget)

/-- The rows and the clock are as they were. -/
theorem Sound.progress (h : s.Sound) {e : Id} {x : Option Execution}
    (hx : ∀ i row, x = some (.loaded i row) → ∀ due ∈ row.payload.dueAt, due ≤ s.now) :
    (s.progress e x).Sound where
  rows := h.rows
  known := h.known
  loaded k i row hk := by
    rcases progress_execution hk with hnew | hold
    · exact hx i row hnew
    · exact h.loaded k i row hold

theorem Sound.claim (h : s.Sound) {seen : Time} (hseen : seen ≤ s.now) : (s.claim settings seen).Sound := by
  unfold JobSystem.claim
  split
  · exact h
  · next i jobs hclaim =>
    obtain ⟨⟨j, hj, hdue⟩, rfl⟩ := claimJob_some hclaim
    constructor
    · intro k row hk
      rcases Table.get_modify_cases hk with ⟨rfl, j', hj', rfl⟩ | ⟨hne, hk⟩
      · obtain rfl := Option.some.inj (hj.symm.trans hj')
        rw [List.count_cons_self]
        exact (h.rows i j hj).claimed hseen hdue _
      · rw [List.count_cons_of_ne hne]
        exact h.rows k row hk
    · intro k hk
      rw [Table.size_modify]
      rcases List.mem_cons.mp hk with rfl | hk
      · exact Table.lt_size hj
      · exact h.known k hk
    · intro e k row he
      obtain hget := Option.join_eq_some_iff.mp he
      rcases Table.get_insert_cases hget with ⟨-, heq⟩ | hold
      · exact nomatch heq
      · exact h.loaded e k row (Option.join_eq_some_iff.mpr hold)

theorem Sound.load (h : s.Sound) (e : Id) : (s.load e).Sound := by
  unfold JobSystem.load
  split
  · next i hclaimed =>
    apply h.progress
    intro k row hloaded
    obtain ⟨j, hj, heq⟩ := Option.map_eq_some_iff.mp hloaded
    obtain ⟨hget, hrunning⟩ := Option.filter_eq_some_iff.mp hj
    obtain ⟨rfl, rfl⟩ := Execution.loaded.inj heq
    exact (h.rows i j hget).begun (of_decide_eq_true hrunning)
  · exact h

/-- The detection that was loaded is due: nothing is put off. -/
theorem Sound.work_eq (h : s.Sound) {e i : Id} {row : Job JobTask} (error : Option String)
    (hloaded : s.execution e = some (.loaded i row)) :
    s.work e error = s.progress e (some (.worked i (row.payload.outcome error))) := by
  have hnone : row.payload.dueAt.filter (s.now < ·) = none := by
    rw [Option.filter_eq_none_iff]
    intro due hdue hlate
    exact absurd (h.loaded e i row hloaded due hdue) (not_le.mpr (of_decide_eq_true hlate))
  unfold JobSystem.work
  simp only [hloaded, hnone]

theorem Sound.work (h : s.Sound) (e : Id) (error : Option String) : (s.work e error).Sound := by
  by_cases hloaded : ∃ i row, s.execution e = some (.loaded i row)
  · obtain ⟨i, row, hloaded⟩ := hloaded
    rw [h.work_eq error hloaded]
    exact h.progress nofun
  · unfold JobSystem.work
    split
    · next i row heq => exact absurd ⟨i, row, heq⟩ hloaded
    · exact h

theorem Sound.finish (h : s.Sound) (e : Id) : (s.finish e).Sound := by
  unfold JobSystem.finish
  split
  · next i error hworked =>
    have hover := h.progress (e := e) (x := none) nofun
    refine ⟨?_, ?_, hover.loaded⟩
    · apply h.rows.modify
      intro j _ hsound
      split_ifs with hrunning
      · exact hsound.finished hrunning error
      · exact hsound
    · intro k hk
      show k < (finishJob s.now error s.jobs i).size
      rw [finishJob, Table.size_modify]
      exact h.known k hk
  · exact h

theorem Sound.cancel (h : s.Sound) (fragment : Id) (keep : Option ℕ) : (s.cancel fragment keep).Sound := by
  refine ⟨?_, ?_, h.loaded⟩
  · apply h.rows.sweep
    intro i j hsound
    split_ifs
    · exact hsound.canceled
    · exact hsound
  · intro k hk
    show k < (s.jobs.sweep _).size
    rw [Table.size_sweep]
    exact h.known k hk

theorem Sound.enqueue (h : s.Sound) (task : JobTask) :
    ({ s with jobs := s.jobs.insert (.queuedFor s.now settings.jobMaxAttempts task) } : JobSystem).Sound := by
  refine ⟨?_, ?_, h.loaded⟩
  · apply h.rows.insert
    have hnew : s.claims.count s.jobs.size = 0 := by
      rw [List.count_eq_zero]
      intro hmem
      exact lt_irrefl _ (h.known _ hmem)
    rw [hnew]
    exact Job.queuedFor_sound _ task
  · intro k hk
    show k < (s.jobs.insert _).size
    rw [Table.size_insert]
    exact Nat.lt_succ_of_lt (h.known k hk)

theorem Sound.step (h : s.Sound) (x : JobStep) : (jobStep settings s x).Sound := by
  cases x with
  | advance elapsed =>
    have hlater : s.now ≤ s.now + elapsed := le_add_of_nonneg_right (Int.natCast_nonneg elapsed)
    exact ⟨fun i j hj => (h.rows i j hj).later hlater, h.known,
      fun e i row he due hdue => (h.loaded e i row he due hdue).trans hlater⟩
  | enqueue task => exact h.enqueue task
  | cancel fragment keep => exact h.cancel fragment keep
  | claim waited => exact h.claim (sub_le_self _ (Int.natCast_nonneg waited))
  | load e => exact h.load e
  | work e error => exact h.work e error
  | finish e => exact h.finish e
  | crash e => exact h.progress nofun

/-! ## Attempts -/

theorem claimJob_eq (now : Time) (leaseSeconds : ℤ) (jobs : Table (Job JobTask)) :
    claimJob now leaseSeconds jobs =
      (firstDue now jobs).map fun i => (i, jobs.modify i (·.claimed now leaseSeconds)) := rfl

theorem not_over_of_isLive {j : Job JobTask} (h : j.isLive = true) : j.status.isOver = false := by
  simp only [Job.isLive, Bool.or_eq_true, decide_eq_true_eq] at h
  rcases h with (h | h) | h <;> rw [h] <;> rfl

theorem keepsOver_claim (seen : Time) : s.KeepsOver (s.claim settings seen) := by
  intro k row hk hover
  unfold JobSystem.claim
  split
  · exact hk
  · next i jobs hclaim =>
    obtain ⟨⟨j, hj, hdue⟩, rfl⟩ := claimJob_some hclaim
    have hne : i ≠ k := by
      rintro rfl
      obtain rfl := Option.some.inj (hj.symm.trans hk)
      rw [not_over_of_isLive (Job.isLive_of_isDue hdue)] at hover
      exact nomatch hover
    exact (Table.get_modify_of_ne _ _ hne).trans hk

/-- Jobs that are over stay over, whatever is claimed. -/
theorem Sound.keepsOver (h : s.Sound) (x : JobStep) : s.KeepsOver (jobStep settings s x) := by
  cases x with
  | advance elapsed => exact fun _ _ hj _ => hj
  | enqueue task => exact fun _ _ hj _ => Table.get_insert_of_some _ hj
  | cancel fragment keep =>
    intro i j hj hover
    show (s.jobs.sweep _).get i = some j
    rw [Table.get_sweep, hj, Option.map_some, if_neg]
    intro hcanceled
    simp only [Bool.and_eq_true] at hcanceled
    rw [not_over_of_isLive hcanceled.1.2] at hover
    exact nomatch hover
  | claim waited => exact keepsOver_claim _
  | load e =>
    intro i j hj _
    show (s.load e).jobs.get i = some j
    unfold JobSystem.load
    split <;> exact hj
  | work e error =>
    intro i j hj _
    show (s.work e error).jobs.get i = some j
    by_cases hloaded : ∃ k row, s.execution e = some (.loaded k row)
    · obtain ⟨k, row, hloaded⟩ := hloaded
      rw [h.work_eq error hloaded]
      exact hj
    · unfold JobSystem.work
      split
      · next k row heq => exact absurd ⟨k, row, heq⟩ hloaded
      · exact hj
  | finish e =>
    intro i j hj hover
    show (s.finish e).jobs.get i = some j
    unfold JobSystem.finish
    split
    · next k error _ =>
      show (finishJob s.now error s.jobs k).get i = some j
      rw [finishJob, Table.get_modify, hj]
      split_ifs
      · have hrunning : j.status ≠ .running := by
          intro hrunning
          rw [hrunning] at hover
          exact nomatch hover
        rw [Option.map_some, if_neg hrunning]
      · rfl
    · exact hj
  | crash e => exact fun _ _ hj _ => hj

/-- The same claims, and rows that may be attempted as often. -/
theorem WithinAttempts.kept {t : JobSystem} (h : s.WithinAttempts) (hclaims : t.claims = s.claims)
    (hrows : ∀ i j', t.jobs.get i = some j' →
      ∃ j, s.jobs.get i = some j ∧ j'.maxAttempts = j.maxAttempts) : t.WithinAttempts := by
  intro i j' hj'
  obtain ⟨j, hj, hmax⟩ := hrows i j' hj'
  rw [hclaims, hmax]
  exact h i j hj

theorem Sound.claim_within_iff (h : s.Sound) (hwithin : s.WithinAttempts) (waited : ℕ) :
    (s.claim settings (s.now - waited)).WithinAttempts ↔ s.SparesSpent (.claim waited) := by
  unfold JobSystem.claim
  rw [claimJob_eq]
  cases hfirst : firstDue (s.now - waited) s.jobs with
  | none =>
    refine iff_of_true hwithin ?_
    intro i hi
    rw [hfirst] at hi
    exact absurd hi (Option.not_mem_none i)
  | some i =>
    obtain ⟨j, hj, hdue⟩ : ∃ j, s.jobs.get i = some j ∧ j.isDue (s.now - waited) = true := by
      have hmem := (List.perm_insertionSort _ _).subset (List.mem_of_head? hfirst)
      exact Table.mem_select.mp hmem
    have hsound := h.rows i j hj
    constructor
    · intro hafter k hk row hrow
      obtain rfl := Option.some.inj (hfirst.symm.trans hk)
      obtain rfl := Option.some.inj (hj.symm.trans hrow)
      have hrow : (s.jobs.modify i (·.claimed (s.now - waited) settings.jobLeaseSeconds)).get i =
          some (j.claimed (s.now - waited) settings.jobLeaseSeconds) := by
        rw [Table.get_modify_self, hj]
        rfl
      have hcount : (i :: s.claims).count i ≤ j.maxAttempts :=
        hafter i (j.claimed (s.now - waited) settings.jobLeaseSeconds) hrow
      rw [List.count_cons_self, hsound.counted] at hcount
      exact ⟨fun _ => hcount, lt_of_le_of_lt (Nat.zero_le _) hcount⟩
    · intro hspares k row hrow
      obtain ⟨hrunning, hpositive⟩ := hspares i hfirst j hj
      have hlt := hsound.attempts_lt hdue hrunning hpositive
      rcases Table.get_modify_cases hrow with ⟨rfl, j', hj', rfl⟩ | ⟨hne, hk⟩
      · obtain rfl := Option.some.inj (hj.symm.trans hj')
        show (i :: s.claims).count i ≤ j.maxAttempts
        rw [List.count_cons_self, hsound.counted]
        exact hlt
      · show (i :: s.claims).count k ≤ row.maxAttempts
        rw [List.count_cons_of_ne hne]
        exact hwithin k row hk

theorem Sound.within_iff (h : s.Sound) (hwithin : s.WithinAttempts) (x : JobStep) :
    (jobStep settings s x).WithinAttempts ↔ s.SparesSpent x := by
  cases x with
  | claim waited => exact h.claim_within_iff hwithin waited
  | advance elapsed => exact iff_of_true hwithin trivial
  | enqueue task =>
    refine iff_of_true ?_ trivial
    apply Table.All.insert hwithin
    rw [List.count_eq_zero.mpr fun hmem => lt_irrefl _ (h.known _ hmem)]
    exact Nat.zero_le _
  | cancel fragment keep =>
    refine iff_of_true (hwithin.kept rfl ?_) trivial
    intro i j' hj'
    obtain ⟨j, hj, rfl⟩ := Option.map_eq_some_iff.mp ((Table.get_sweep _ _ i).symm.trans hj')
    refine ⟨j, hj, ?_⟩
    split_ifs <;> rfl
  | load e =>
    refine iff_of_true ?_ trivial
    show (s.load e).WithinAttempts
    unfold JobSystem.load
    split <;> exact hwithin
  | work e error =>
    refine iff_of_true ?_ trivial
    show (s.work e error).WithinAttempts
    by_cases hloaded : ∃ k row, s.execution e = some (.loaded k row)
    · obtain ⟨k, row, hloaded⟩ := hloaded
      rw [h.work_eq error hloaded]
      exact hwithin
    · unfold JobSystem.work
      split
      · next k row heq => exact absurd ⟨k, row, heq⟩ hloaded
      · exact hwithin
  | finish e =>
    refine iff_of_true ?_ trivial
    show (s.finish e).WithinAttempts
    unfold JobSystem.finish
    split
    · next k error _ =>
      apply WithinAttempts.kept (t := { s.progress e none with jobs := finishJob s.now error s.jobs k })
        hwithin rfl
      intro i j' hj'
      rcases Table.get_modify_cases hj' with ⟨rfl, j, hj, rfl⟩ | ⟨-, hj⟩
      · refine ⟨j, hj, ?_⟩
        split_ifs
        · exact Job.maxAttempts_finished _ _ j
        · rfl
      · exact ⟨j', hj, rfl⟩
    · exact hwithin
  | crash e => exact iff_of_true hwithin trivial

end JobSystem

/-- In every run, jobs are claimed no more often than they may be, and those that are over stay over,
if and only if no claim finds a running job whose attempts are used up, or one that has none. -/
theorem jobs_stay_within_attempts_iff (settings : JobSettings) (now : Time) (steps : List JobStep) :
    Along (jobStep settings)
        (fun s x => (jobStep settings s x).WithinAttempts ∧ s.KeepsOver (jobStep settings s x))
        (.initial now) steps ↔
      Along (jobStep settings) (fun s x => s.SparesSpent x) (.initial now) steps :=
  along_congr (jobStep settings) (I := fun s => s.Sound ∧ s.WithinAttempts)
    (fun _ x h => (and_iff_left (h.1.keepsOver x)).trans (h.1.within_iff h.2 x))
    (fun _ x h hs => ⟨h.1.step x, hs.1⟩)
    ⟨⟨fun _ _ h => (nomatch h), fun _ h => absurd h List.not_mem_nil, fun _ _ _ h => (nomatch h)⟩,
      fun _ _ h => (nomatch h)⟩

/-- A worker that crashes on the only attempt a job has. -/
theorem crashed_job_is_claimed_again :
    ¬ (jobRun ⟨60, 1⟩ 0 [.enqueue (.unknown "x"), .claim 0, .crash 0, .advance 60000000,
      .claim 0]).WithinAttempts := by
  intro h
  have hcount : ∀ j ∈ (jobRun ⟨60, 1⟩ 0 [.enqueue (.unknown "x"), .claim 0, .crash 0, .advance 60000000,
      .claim 0]).jobs.get 0, ¬ (jobRun ⟨60, 1⟩ 0 [.enqueue (.unknown "x"), .claim 0, .crash 0,
        .advance 60000000, .claim 0]).claims.count 0 ≤ j.maxAttempts := by decide +kernel
  obtain ⟨j, hj⟩ : ∃ j, (jobRun ⟨60, 1⟩ 0 [.enqueue (.unknown "x"), .claim 0, .crash 0,
      .advance 60000000, .claim 0]).jobs.get 0 = some j := Table.get_of_lt (by decide +kernel)
  exact hcount j hj (h 0 j hj)

end CrisisMosaic
