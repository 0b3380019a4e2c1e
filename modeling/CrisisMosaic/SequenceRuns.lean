import CrisisMosaic.Basic
import CrisisMosaic.Relational.Run
import CrisisMosaic.Relational.Table

/-!
# The sequence of an incident's events

Every transaction that emits events counts up the sequence of the incident row that its
session holds. A session reads the row once and keeps what it has read until it refreshes
the row or rolls back, and some handlers read it before they have the write lock. The
operations on one incident run in any order that respects the lock.
-/

namespace CrisisMosaic
open Relational

inductive SessionAction
  /-- `session.get` or `select`: a row that the session holds is not read again. -/
  | load
  | refresh
  | rollback
  | lock
  | emit
  | commit
deriving DecidableEq

/-- The handlers and jobs that emit events. -/
inductive Emitter
  | postReport
  | patchReport
  | deleteReport
  | patchReportStatus
  | patchReportPriority
  | patchIncident
  | createBlindSpot
  | changeQuestionStatus
  | putMyAnswer
  | createFragment
  | createConflict
  | appendConflictEvidence
  | reopenConflict
  | submitConflictDecision
  | reportRefinement
  | conflictAnalysis (byAlias : Bool)
  | completeAnalysis
  | failAnalysis
  | runBlindSpotDetection
  | completeUpload
  | qiniuUploadCallback
  | processAttachment
  | processRemoteMedia
  | rejectAttachment

/-- What the session of the handler does with the incident row, in order. -/
def Emitter.program : Emitter → List SessionAction
  | .postReport | .patchReport | .deleteReport | .patchReportStatus | .patchReportPriority
  | .patchIncident | .completeAnalysis | .runBlindSpotDetection | .rejectAttachment
  | .conflictAnalysis false => [.lock, .load, .emit, .commit]
  | .createBlindSpot | .changeQuestionStatus | .putMyAnswer | .createFragment | .createConflict
  | .appendConflictEvidence | .reopenConflict | .submitConflictDecision | .failAnalysis =>
    [.lock, .rollback, .load, .emit, .commit]
  | .reportRefinement => [.load, .lock, .load, .commit, .lock, .refresh, .emit, .commit]
  | .conflictAnalysis true => [.load, .lock, .load, .emit, .commit]
  | .completeUpload | .qiniuUploadCallback | .processAttachment | .processRemoteMedia =>
    [.load, .lock, .emit, .commit]

/-- One call of `emit_event`: how many briefs it makes stale, and whether it is the first of
its transaction that touches the map. -/
structure Emission where
  staleBriefs : ℕ
  mapBumped : Bool

/-- The sequences of the event, of the briefs and of the map's invalidation. -/
def Emission.size (e : Emission) : ℕ := 1 + e.staleBriefs + if e.mapBumped then 1 else 0

/-- The sequences that `emit_event` allocates when the row it holds is at `held`. -/
def emitEvents : ℕ → List Emission → ℕ × List ℕ
  | held, [] => (held, [])
  | held, e :: es =>
    let (held', allocated) := emitEvents (held + e.size) es
    (held', List.range' (held + 1) e.size ++ allocated)

inductive EmitterStatus
  | running
  | committed
  /-- The handler raised before its commit. -/
  | aborted
  /-- The commit failed on the uniqueness of a sequence. -/
  | duplicate
deriving DecidableEq

/-- An operation with what is left of its program. Its session holds `held` as the sequence of
the incident, and `pending` are the sequences of its new rows. -/
structure EmitterRun where
  emitter : Emitter
  events : List Emission
  rest : List SessionAction
  held : Option ℕ
  pending : List ℕ
  status : EmitterStatus

/-- A commit, with the committed sequence that it found. -/
structure Allocation where
  before : ℕ
  allocated : List ℕ

/-- `outbox` are the sequences of the rows that retention has left. -/
structure SequenceState where
  eventSequence : ℕ
  outbox : List ℕ
  holder : Option Id
  runs : Table EmitterRun
  commits : List Allocation

def SequenceState.initial : SequenceState := ⟨0, [], none, Table.empty, []⟩

inductive SequenceStep
  | start (emitter : Emitter) (events : List Emission)
  | act (run : Id)
  | abort (run : Id)
  /-- Retention deletes the rows up to a sequence. -/
  | trim (upTo : ℕ)

namespace SequenceState
variable (s : SequenceState) (i : Id) (r : EmitterRun)

def set : SequenceState := { s with runs := s.runs.modify i fun _ => r }

/-- The transaction of the operation is over. -/
def unlock : SequenceState := { s with holder := if s.holder = some i then none else s.holder }

/-- The flush inserts the rows and writes the sequence that the session holds. -/
def flush (rest : List SessionAction) : SequenceState :=
  let next : EmitterRun :=
    { r with rest := rest, pending := [], status := if rest = [] then .committed else .running }
  if r.pending = [] then (s.unlock i).set i next
  else if r.pending.any s.outbox.contains then
    (s.unlock i).set i { r with rest := [], pending := [], status := .duplicate }
  else
    { (s.unlock i).set i next with
      eventSequence := r.held.getD s.eventSequence
      outbox := s.outbox ++ r.pending
      commits := s.commits ++ [⟨s.eventSequence, r.pending⟩] }

def perform (rest : List SessionAction) : SessionAction → SequenceState
  | .load => s.set i { r with rest := rest, held := some (r.held.getD s.eventSequence) }
  | .refresh => s.set i { r with rest := rest, held := some s.eventSequence }
  | .rollback => s.set i { r with rest := rest, held := none, pending := [] }
  | .lock => if s.holder = none then { s.set i { r with rest := rest } with holder := some i } else s
  | .emit =>
    match r.held with
    | some held =>
      let allocated := emitEvents held r.events
      s.set i { r with
        rest := rest
        held := some allocated.1
        pending := r.pending ++ allocated.2 }
    | none => s
  | .commit => s.flush i r rest

end SequenceState

def sequenceStep (s : SequenceState) : SequenceStep → SequenceState
  | .start emitter events =>
    { s with runs := s.runs.insert ⟨emitter, events, emitter.program, none, [], .running⟩ }
  | .act i =>
    match s.runs.get i with
    | some r =>
      match r.status, r.rest with
      | .running, a :: rest => s.perform i r rest a
      | _, _ => s
    | none => s
  | .abort i =>
    match s.runs.get i with
    | some r =>
      if r.status = .running then
        (s.unlock i).set i { r with rest := [], pending := [], status := .aborted }
      else s
    | none => s
  | .trim upTo => { s with outbox := s.outbox.filter fun n => upTo < n }

def sequenceRun (steps : List SequenceStep) : SequenceState := run sequenceStep .initial steps

end CrisisMosaic

/-!
## Contiguous sequences

The committed transactions allocate the sequences of an incident without gaps and without
duplicates, as long as the incident row that a handler has read before it has the write
lock is still current when it gets the lock.
-/

namespace CrisisMosaic
open Relational

/-- The handlers that hold an incident row from before the write lock when they emit. -/
def Emitter.loadsEarly : Emitter → Bool
  | .conflictAnalysis byAlias => byAlias
  | .completeUpload | .qiniuUploadCallback | .processAttachment | .processRemoteMedia => true
  | _ => false

/-- The row that such a handler holds when it gets the lock is the committed one. -/
def SequenceState.HoldsCurrent (s : SequenceState) : SequenceStep → Prop
  | .act i => ∀ r ∈ s.runs.get i, s.holder = none → r.rest.head? = some .lock →
    r.emitter.loadsEarly = true → ∀ v ∈ r.held, v = s.eventSequence
  | _ => True

instance (s : SequenceState) (x : SequenceStep) : Decidable (s.HoldsCurrent x) :=
  match x with
  | .act i => inferInstanceAs (Decidable (∀ r ∈ s.runs.get i, s.holder = none →
    r.rest.head? = some .lock → r.emitter.loadsEarly = true → ∀ v ∈ r.held, v = s.eventSequence))
  | .start _ _ => .isTrue trivial
  | .abort _ => .isTrue trivial
  | .trim _ => .isTrue trivial

/-- The commits have allocated every sequence once and in order, and none has failed on the
uniqueness of a sequence. -/
structure SequenceState.Contiguous (s : SequenceState) : Prop where
  numbered : s.commits.flatMap (·.allocated) = List.range' 1 s.eventSequence
  next : ∀ c ∈ s.commits, c.allocated = List.range' (c.before + 1) c.allocated.length
  unique : ∀ i r, s.runs.get i = some r → r.status ≠ .duplicate

/-- Every emission of the rest of a program works on a row that was read under the lock, or before
it if `early` says that the row is still current then. -/
def sound (early : Bool) : Bool → Bool → Bool → List SessionAction → Bool
  | _, _, _, [] => true
  | held, fresh, locked, .load :: rest =>
    if held then sound early true fresh locked rest else sound early true locked locked rest
  | _, _, locked, .refresh :: rest => sound early true locked locked rest
  | _, _, locked, .rollback :: rest => sound early false false locked rest
  | held, _, _, .lock :: rest => sound early held (early && held) true rest
  | held, fresh, locked, .emit :: rest => held && fresh && locked && rest = [.commit]
  | held, _, _, .commit :: rest => sound early held false false rest

theorem Emitter.program_sound (e : Emitter) :
    sound e.loadsEarly false false false e.program = true := by
  cases e with
  | conflictAnalysis byAlias => cases byAlias <;> rfl
  | _ => rfl

section Emissions

theorem emitEvents_eq (held : ℕ) (events : List Emission) :
    emitEvents held events =
      (held + (events.map Emission.size).sum, List.range' (held + 1) (events.map Emission.size).sum) := by
  induction events generalizing held with
  | nil => rfl
  | cons e es ih =>
    simp only [emitEvents, ih, List.map_cons, List.sum_cons, ← List.range'_append_1, Prod.mk.injEq]
    constructor
    · omega
    · rw [show held + e.size + 1 = held + 1 + e.size by omega]

end Emissions

/-- What holds of a running operation. -/
structure EmitterRun.Kept (s : SequenceState) (i : Id) (r : EmitterRun) : Prop where
  reading : r.pending = [] → ∃ fresh,
    sound r.emitter.loadsEarly r.held.isSome fresh (decide (s.holder = some i)) r.rest = true ∧
      (fresh = true → s.holder = some i ∧ r.held = some s.eventSequence)
  writing : r.pending ≠ [] → r.rest = [.commit] ∧ s.holder = some i ∧
    r.held = some (s.eventSequence + r.pending.length) ∧
    r.pending = List.range' (s.eventSequence + 1) r.pending.length

structure SequenceState.Kept (s : SequenceState) : Prop extends s.Contiguous where
  rows : ∀ n ∈ s.outbox, n ≤ s.eventSequence
  locked : ∀ i, s.holder = some i → i < s.runs.size
  running : ∀ i r, s.runs.get i = some r → r.status = .running → r.Kept s i

section Steps
variable {s t : SequenceState} {i j : Id} {r : EmitterRun}

/-- An operation that has not the lock does not notice the commit of another one. -/
theorem EmitterRun.Kept.mono (h : r.Kept s i) (hholder : t.holder = some i ↔ s.holder = some i)
    (hsequence : s.holder = some i → t.eventSequence = s.eventSequence) : r.Kept t i where
  reading := by
    intro hp
    obtain ⟨fresh, hsound, hfresh⟩ := h.reading hp
    refine ⟨fresh, ?_, fun hf => ?_⟩
    · rwa [decide_eq_decide.mpr hholder]
    · obtain ⟨hlock, hheld⟩ := hfresh hf
      exact ⟨hholder.mpr hlock, by rw [hheld, hsequence hlock]⟩
  writing := by
    intro hp
    obtain ⟨hrest, hlock, hheld, hpending⟩ := h.writing hp
    refine ⟨hrest, hholder.mpr hlock, ?_, ?_⟩
    · rw [hheld, hsequence hlock]
    · rwa [hsequence hlock]

theorem unlock_holder (s : SequenceState) (i j : Id) :
    (s.unlock i).holder = some j ↔ s.holder = some j ∧ j ≠ i := by
  unfold SequenceState.unlock
  dsimp only
  split_ifs with h
  · refine iff_of_false nofun fun ⟨hj, hne⟩ => hne ?_
    exact Option.some.inj (hj.symm.trans h)
  · refine (and_iff_left_of_imp fun hj heq => h ?_).symm
    rw [hj, heq]

theorem set_cases {a : EmitterRun} {x : EmitterRun} (h : (s.set i a).runs.get j = some x) :
    (i = j ∧ x = a) ∨ (i ≠ j ∧ s.runs.get j = some x) := by
  rcases Table.get_modify_cases h with ⟨rfl, _, -, rfl⟩ | ⟨hne, hold⟩
  · exact Or.inl ⟨rfl, rfl⟩
  · exact Or.inr ⟨hne, hold⟩

/-- An action that commits nothing changes one operation, and the lock. -/
theorem SequenceState.Kept.act (h : s.Kept) (holder : Option Id) {a : EmitterRun}
    (ha : a.status ≠ .duplicate)
    (hkept : a.status = .running → a.Kept { s with holder := holder } i)
    (hholder : ∀ k, k ≠ i → (holder = some k ↔ s.holder = some k)) (hi : i < s.runs.size) :
    SequenceState.Kept { s.set i a with holder := holder } where
  numbered := h.numbered
  next := h.next
  unique := by
    intro k x hx
    rcases set_cases hx with ⟨-, rfl⟩ | ⟨-, hold⟩
    · exact ha
    · exact h.unique k x hold
  rows := h.rows
  locked := by
    intro k hk
    rw [SequenceState.set, Table.size_modify]
    by_cases hne : k = i
    · rw [hne]
      exact hi
    · exact h.locked k ((hholder k hne).mp hk)
  running := by
    intro k x hx hrunning
    rcases set_cases hx with ⟨rfl, rfl⟩ | ⟨hne, hold⟩
    · exact (hkept hrunning).mono Iff.rfl fun _ => rfl
    · exact (h.running k x hold hrunning).mono (hholder k hne.symm) fun _ => rfl

/-- An operation is in the middle of its emission only right before its commit. -/
theorem EmitterRun.Kept.pending_nil (h : r.Kept s i) {a : SessionAction} {rest : List SessionAction}
    (hrest : r.rest = a :: rest) (ha : a ≠ .commit) : r.pending = [] := by
  by_contra hp
  have hcommit := (h.writing hp).1
  rw [hrest] at hcommit
  exact ha (List.cons.inj hcommit).1

/-- What is left to read after an action that emits nothing. -/
theorem EmitterRun.Kept.of_reading (fresh : Bool) (hp : r.pending = [])
    (hsound : sound r.emitter.loadsEarly r.held.isSome fresh (decide (s.holder = some i)) r.rest = true)
    (hfresh : fresh = true → s.holder = some i ∧ r.held = some s.eventSequence) : r.Kept s i where
  reading := fun _ => ⟨fresh, hsound, hfresh⟩
  writing := fun hne => absurd hp hne

theorem SequenceState.Kept.load (h : s.Kept) (hr : s.runs.get i = some r) (hrunning : r.status = .running)
    {rest : List SessionAction} (hrest : r.rest = .load :: rest) : (s.perform i r rest .load).Kept := by
  have hk := h.running i r hr hrunning
  have hp := hk.pending_nil hrest (by decide)
  obtain ⟨fresh, hsound, hfresh⟩ := hk.reading hp
  rw [hrest] at hsound
  refine h.act s.holder (hrunning ▸ by decide) (fun _ => ?_) (fun _ _ => Iff.rfl) (Table.lt_size hr)
  cases hheld : r.held with
  | some v =>
    rw [hheld] at hsound hfresh
    refine .of_reading fresh hp ?_ hfresh
    simpa [sound] using hsound
  | none =>
    rw [hheld] at hsound
    refine .of_reading (decide (s.holder = some i)) hp ?_ fun hlock => ⟨of_decide_eq_true hlock, rfl⟩
    simpa [sound] using hsound

theorem SequenceState.Kept.refresh (h : s.Kept) (hr : s.runs.get i = some r)
    (hrunning : r.status = .running) {rest : List SessionAction} (hrest : r.rest = .refresh :: rest) :
    (s.perform i r rest .refresh).Kept := by
  have hk := h.running i r hr hrunning
  have hp := hk.pending_nil hrest (by decide)
  obtain ⟨fresh, hsound, -⟩ := hk.reading hp
  rw [hrest] at hsound
  refine h.act s.holder (hrunning ▸ by decide) (fun _ => ?_) (fun _ _ => Iff.rfl) (Table.lt_size hr)
  exact .of_reading (decide (s.holder = some i)) hp hsound fun hlock => ⟨of_decide_eq_true hlock, rfl⟩

theorem SequenceState.Kept.rollback (h : s.Kept) (hr : s.runs.get i = some r)
    (hrunning : r.status = .running) {rest : List SessionAction} (hrest : r.rest = .rollback :: rest) :
    (s.perform i r rest .rollback).Kept := by
  have hk := h.running i r hr hrunning
  have hp := hk.pending_nil hrest (by decide)
  obtain ⟨fresh, hsound, -⟩ := hk.reading hp
  rw [hrest] at hsound
  refine h.act s.holder (hrunning ▸ by decide) (fun _ => ?_) (fun _ _ => Iff.rfl) (Table.lt_size hr)
  exact .of_reading false rfl hsound nofun

/-- The row that is held from before the lock is still the committed one. -/
theorem SequenceState.Kept.lock (h : s.Kept) (hr : s.runs.get i = some r) (hrunning : r.status = .running)
    {rest : List SessionAction} (hrest : r.rest = .lock :: rest) (hcurrent : s.HoldsCurrent (.act i)) :
    (s.perform i r rest .lock).Kept := by
  have hk := h.running i r hr hrunning
  have hp := hk.pending_nil hrest (by decide)
  obtain ⟨fresh, hsound, -⟩ := hk.reading hp
  rw [hrest] at hsound
  simp only [SequenceState.perform]
  by_cases hfree : s.holder = none
  · rw [if_pos hfree]
    refine h.act (some i) (hrunning ▸ by decide) (fun _ => ?_) (fun k hne => ?_) (Table.lt_size hr)
    · refine .of_reading (r.emitter.loadsEarly && r.held.isSome) hp ?_ fun hearly => ⟨rfl, ?_⟩
      · simpa [sound] using hsound
      · rw [Bool.and_eq_true] at hearly
        obtain ⟨v, hv⟩ := Option.isSome_iff_exists.mp hearly.2
        have hhead : r.rest.head? = some .lock := by
          rw [hrest]
          rfl
        exact hv.trans (congrArg some (hcurrent r hr hfree hhead hearly.1 v hv))
    · rw [hfree]
      exact iff_of_false (fun heq => hne (Option.some.inj heq).symm) nofun
  · rw [if_neg hfree]
    exact h

theorem SequenceState.Kept.emit (h : s.Kept) (hr : s.runs.get i = some r) (hrunning : r.status = .running)
    {rest : List SessionAction} (hrest : r.rest = .emit :: rest) : (s.perform i r rest .emit).Kept := by
  have hk := h.running i r hr hrunning
  have hp := hk.pending_nil hrest (by decide)
  obtain ⟨fresh, hsound, hfresh⟩ := hk.reading hp
  rw [hrest] at hsound
  simp only [sound, Bool.and_eq_true, decide_eq_true_eq] at hsound
  obtain ⟨⟨⟨-, hf⟩, hlock⟩, hlast⟩ := hsound
  obtain ⟨-, hheld⟩ := hfresh hf
  simp only [SequenceState.perform, hheld, hp, List.nil_append, emitEvents_eq]
  refine h.act s.holder (hrunning ▸ by decide) (fun _ => ?_) (fun _ _ => Iff.rfl) (Table.lt_size hr)
  exact
    { reading := fun _ => ⟨false, by rw [hlast]; rfl, nofun⟩
      writing := fun _ => ⟨hlast, hlock, by rw [List.length_range'], by rw [List.length_range']⟩ }

/-- The numbers of a commit are the next ones, so that no row has one of them. -/
theorem SequenceState.Kept.commit (h : s.Kept) (hr : s.runs.get i = some r) (hrunning : r.status = .running)
    {rest : List SessionAction} (hrest : r.rest = .commit :: rest) : (s.perform i r rest .commit).Kept := by
  have hk := h.running i r hr hrunning
  simp only [SequenceState.perform, SequenceState.flush]
  by_cases hp : r.pending = []
  · rw [if_pos hp]
    obtain ⟨fresh, hsound, -⟩ := hk.reading hp
    rw [hrest] at hsound
    refine h.act (s.unlock i).holder ?_ (fun _ => ?_) (fun k hne => ?_) (Table.lt_size hr)
    · dsimp only
      split_ifs <;> decide
    · refine .of_reading false rfl ?_ nofun
      have hgone : ¬ (s.unlock i).holder = some i := fun hi => ((unlock_holder s i i).mp hi).2 rfl
      dsimp only
      rw [decide_eq_false hgone]
      exact hsound
    · exact (unlock_holder s i k).trans (and_iff_left hne)
  · obtain ⟨hcommit, hlock, hheld, hpending⟩ := hk.writing hp
    have hlast : rest = [] := by
      rw [hrest] at hcommit
      exact (List.cons.inj hcommit).2
    have hfresh : r.pending.any s.outbox.contains = false := by
      rw [List.any_eq_false]
      intro n hn
      rw [hpending, List.mem_range'_1] at hn
      rw [List.contains_iff_mem]
      intro hmem
      have hle := h.rows n hmem
      omega
    rw [if_neg hp, hfresh, if_neg (by decide), hlast, hheld, Option.getD_some]
    have hafter : List.range' 1 (s.eventSequence + r.pending.length) =
        List.range' 1 s.eventSequence ++ r.pending := by
      rw [hpending, List.length_range', ← List.range'_append_1, Nat.add_comm 1]
    refine ⟨⟨?_, ?_, ?_⟩, ?_, ?_, ?_⟩
    · simp only [List.flatMap_append, h.numbered, List.flatMap_cons, List.flatMap_nil, List.append_nil,
        hafter]
    · intro c hc
      rcases List.mem_append.mp hc with hold | hnew
      · exact h.next c hold
      · rw [List.mem_singleton.mp hnew]
        exact hpending
    · intro k x hx
      rcases set_cases hx with ⟨-, rfl⟩ | ⟨-, hold⟩
      · exact nofun
      · exact h.unique k x hold
    · intro n hn
      rcases List.mem_append.mp hn with hold | hnew
      · exact (h.rows n hold).trans (Nat.le_add_right _ _)
      · rw [hpending, List.mem_range'_1] at hnew
        dsimp only
        omega
    · intro k hholder
      rw [SequenceState.set, Table.size_modify]
      exact h.locked k ((unlock_holder s i k).mp hholder).1
    · intro k x hx hxrunning
      rcases set_cases hx with ⟨rfl, rfl⟩ | ⟨hne, hold⟩
      · exact nomatch hxrunning
      · refine (h.running k x hold hxrunning).mono ?_ fun hk => ?_
        · exact (unlock_holder s i k).trans (and_iff_left hne.symm)
        · rw [hlock] at hk
          exact absurd (Option.some.inj hk) hne

theorem SequenceState.Kept.perform (h : s.Kept) (hr : s.runs.get i = some r)
    (hrunning : r.status = .running) {a : SessionAction} {rest : List SessionAction}
    (hrest : r.rest = a :: rest) (hcurrent : s.HoldsCurrent (.act i)) : (s.perform i r rest a).Kept := by
  cases a with
  | load => exact h.load hr hrunning hrest
  | refresh => exact h.refresh hr hrunning hrest
  | rollback => exact h.rollback hr hrunning hrest
  | lock => exact h.lock hr hrunning hrest hcurrent
  | emit => exact h.emit hr hrunning hrest
  | commit => exact h.commit hr hrunning hrest

/-- A new operation has read nothing. -/
theorem SequenceState.Kept.start (h : s.Kept) (emitter : Emitter) (events : List Emission) :
    (sequenceStep s (.start emitter events)).Kept where
  numbered := h.numbered
  next := h.next
  unique := by
    intro k x hx
    rcases Table.get_insert_cases hx with ⟨-, rfl⟩ | hold
    · exact nofun
    · exact h.unique k x hold
  rows := h.rows
  locked := by
    intro k hk
    simp only [sequenceStep, Table.size_insert]
    exact (h.locked k hk).trans (Nat.lt_succ_self _)
  running := by
    intro k x hx hrunning
    rcases Table.get_insert_cases hx with ⟨rfl, rfl⟩ | hold
    · refine .of_reading false rfl ?_ nofun
      have hfree : decide (s.holder = some s.runs.size) = false :=
        decide_eq_false fun hk => absurd (h.locked _ hk) (lt_irrefl _)
      change sound _ _ _ (decide (s.holder = some s.runs.size)) _ = true
      rw [hfree]
      exact emitter.program_sound
    · exact (h.running k x hold hrunning).mono Iff.rfl fun _ => rfl

theorem SequenceState.Kept.step (h : s.Kept) (x : SequenceStep) (hcurrent : s.HoldsCurrent x) :
    (sequenceStep s x).Kept := by
  cases x with
  | start emitter events => exact h.start emitter events
  | act i =>
    cases hr : s.runs.get i with
    | none => simpa only [sequenceStep, hr] using h
    | some r =>
      cases hstatus : r.status <;> cases hrest : r.rest
      case running.cons a rest =>
        simp only [sequenceStep, hr, hstatus, hrest]
        exact h.perform hr hstatus hrest hcurrent
      all_goals simpa only [sequenceStep, hr, hstatus, hrest] using h
  | abort i =>
    cases hr : s.runs.get i with
    | none => simpa only [sequenceStep, hr] using h
    | some r =>
      by_cases hrunning : r.status = .running
      · simp only [sequenceStep, hr, if_pos hrunning]
        refine h.act (s.unlock i).holder nofun nofun (fun k hne => ?_) (Table.lt_size hr)
        exact (unlock_holder s i k).trans (and_iff_left hne)
      · simpa only [sequenceStep, hr, if_neg hrunning] using h
  | trim upTo =>
    exact
      { numbered := h.numbered
        next := h.next
        unique := h.unique
        rows := fun n hn => h.rows n (List.mem_of_mem_filter hn)
        locked := h.locked
        running := fun k x hx hrunning => (h.running k x hx hrunning).mono Iff.rfl fun _ => rfl }

end Steps

theorem SequenceState.initial_kept : SequenceState.initial.Kept where
  numbered := rfl
  next := fun _ hc => absurd hc List.not_mem_nil
  unique := fun _ _ hr => nomatch hr
  rows := fun _ hn => absurd hn List.not_mem_nil
  locked := fun _ hi => nomatch hi
  running := fun _ _ hr => nomatch hr

/-- In every interleaving the sequences are contiguous, as long as every incident row that was read
before the lock is still current when the lock is taken. -/
theorem sequences_are_contiguous (steps : List SequenceStep)
    (hcurrent : Along sequenceStep SequenceState.HoldsCurrent .initial steps) :
    (sequenceRun steps).Contiguous := by
  have hkept : (sequenceRun steps).Kept :=
    run_invariant sequenceStep (I := SequenceState.Kept) (fun _ x h hc => h.step x hc)
      SequenceState.initial_kept hcurrent
  exact hkept.toContiguous

/-- The upload is completed after the report, which is posted before the upload reads the incident. -/
theorem upload_after_report_is_contiguous :
    (sequenceRun ([.start .postReport [⟨0, true⟩], .start .completeUpload [⟨0, false⟩]] ++
      List.replicate 4 (.act 0) ++ List.replicate 4 (.act 1))).Contiguous :=
  sequences_are_contiguous _ (by decide +kernel)

/-- The upload reads the incident before the report is committed, and waits for the lock. -/
def overtakenUpload : List SequenceStep :=
  [.start .postReport [⟨0, true⟩], .start .completeUpload [⟨0, false⟩]] ++
    List.replicate 3 (.act 0) ++ [.act 1, .act 0] ++ List.replicate 3 (.act 1)

/-- Its event gets the number of an event of the report, so that its commit fails. -/
theorem overtaken_upload_fails : ¬ (sequenceRun overtakenUpload).Contiguous := by
  intro h
  have hduplicate : ∀ r ∈ (sequenceRun overtakenUpload).runs.get 1, r.status = .duplicate := by
    decide +kernel
  obtain ⟨r, hr⟩ : ∃ r, (sequenceRun overtakenUpload).runs.get 1 = some r :=
    Table.get_of_lt (by decide +kernel)
  exact h.unique 1 r hr (hduplicate r hr)

end CrisisMosaic
