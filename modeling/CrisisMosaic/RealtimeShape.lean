import CrisisMosaic.RealtimeOutbox

/-!
# The shape of the outbox

The rows of an incident are marked as published in the order of their sequences, and those
that retention has left are the last ones. Both need that a transaction takes its numbers
from the committed incident row. A handler that has read the row before the write lock takes
them from what it has read, and only the uniqueness of the numbers in the outbox stops it.
-/

namespace CrisisMosaic
open Relational

/-- `reads` are the sequences that handlers have read before the write lock, and `marked` those of
the rows that the outbox loop has marked, in order. -/
structure SharedOutbox extends OutboxState where
  reads : List ℕ
  marked : List ℕ

inductive SharedStep
  /-- The steps of `RealtimeStep`; their transactions read the incident row under the write lock. -/
  | outbox (x : RealtimeStep)
  | load
  /-- A transaction with the incident row of an earlier read. -/
  | commitLoaded (session : ℕ) (flushed : Time) (events : List Event)

def SharedOutbox.initial (now : Time) : SharedOutbox := ⟨.initial now, [], []⟩

section Steps
variable (settings : RealtimeSettings) (incidentId : Id) (s : OutboxState)

/-- A new row has the number of a row that is left, so that the commit fails. -/
def OutboxState.collides (stored : List OutboxEvent) : Bool :=
  stored.any fun e => s.outbox.any fun r => r.event.sequence = e.sequence

/-- The flush inserts the rows and writes the sequence that the session has counted up. -/
def commitHeld (held : ℕ) (flushed : Time) (events : List Event) : OutboxState :=
  let stored := storedFrom incidentId flushed held events
  if s.committedAt ≤ flushed ∧ flushed ≤ s.now ∧ s.collides stored = false then
    { s with
      committedAt := s.now
      eventSequence := if events = [] then s.eventSequence else held + events.length
      committed := s.committed ++ stored
      outbox := s.outbox ++ stored.map fun e => ⟨e, none⟩ }
  else s

/-- The sequences of the rows that the step marks. -/
def OutboxState.marks : RealtimeStep → List ℕ
  | .mark =>
    match s.batch, s.handed with
    | e :: _, true => (s.unpublished.map (·.sequence)).filter (· = e.sequence)
    | _, _ => []
  | _ => []

def sharedStep (s : SharedOutbox) : SharedStep → SharedOutbox
  | .outbox x =>
    ⟨outboxStep settings incidentId s.toOutboxState x, s.reads, s.marked ++ s.toOutboxState.marks x⟩
  | .load => { s with reads := s.reads ++ [s.eventSequence] }
  | .commitLoaded session flushed events =>
    match s.reads[session]? with
    | some held => { s with toOutboxState := commitHeld incidentId s.toOutboxState held flushed events }
    | none => s

end Steps

/-- The numbers are allocated in order, published from the front and deleted from the front. -/
structure SharedOutbox.Shaped (s : SharedOutbox) : Prop where
  allocated : s.committed.map (·.sequence) = List.range' 1 s.eventSequence
  marked : s.marked <+: List.range' 1 s.eventSequence
  published : ∀ r ∈ s.outbox, r.publishedAt.isSome ↔ r.event.sequence ∈ s.marked
  left : s.outbox.map (·.event.sequence) <:+ List.range' 1 s.eventSequence

/-- A transaction that goes through with an earlier read has read the committed sequence. -/
def SharedOutbox.CommitsCurrent (incidentId : Id) (s : SharedOutbox) : SharedStep → Prop
  | .commitLoaded session flushed events => ∀ held, s.reads[session]? = some held →
    s.committedAt ≤ flushed → flushed ≤ s.now → events ≠ [] →
    s.collides (storedFrom incidentId flushed held events) = false → held = s.eventSequence
  | _ => True

/-- What is marked and what is unpublished are together all numbers, in order. -/
structure SharedOutbox.Lined (s : SharedOutbox) : Prop extends s.toOutboxState.Kept where
  numbered : s.committed.map (·.sequence) = List.range' 1 s.eventSequence
  line : s.marked ++ s.unpublished.map (·.sequence) = List.range' 1 s.eventSequence

section Lines
variable {settings : RealtimeSettings} {incidentId : Id} {s : SharedOutbox} {o : OutboxState}
  {flushed : Time}

theorem storedFrom_sequences (incidentId : Id) (flushed : Time) (n : ℕ) (events : List Event) :
    (storedFrom incidentId flushed n events).map (·.sequence) =
      List.range' (n + 1) events.length := by
  induction events generalizing n with
  | nil => rfl
  | cons e events ih =>
    simp only [storedFrom, List.map_cons, ih, List.length_cons, List.range'_succ]
    rfl

theorem OutboxState.Kept.collides_eq_false (h : o.Kept) (events : List Event) :
    o.collides (storedFrom incidentId flushed o.eventSequence events) = false := by
  simp only [OutboxState.collides, List.any_eq_false, List.any_eq_true, decide_eq_true_eq, not_exists,
    not_and]
  intro e he r hr heq
  have hnew := (storedFrom_mem he).1
  have hold := h.bounded r.event (h.mem_committed hr)
  omega

/-- With the committed row in the session, the commit takes the next numbers. -/
theorem commitHeld_current (h : o.Kept) (flushed : Time) (events : List Event) :
    commitHeld incidentId o o.eventSequence flushed events = commitEvents incidentId o flushed events := by
  have hsequence : (if events = [] then o.eventSequence else o.eventSequence + events.length) =
      o.eventSequence + events.length := by
    split_ifs with hnil
    · rw [hnil]
      rfl
    · rfl
  simp only [commitHeld, commitEvents, h.collides_eq_false, and_true, hsequence]

theorem unpublished_append (outbox : List OutboxRow) (stored : List OutboxEvent) :
    ((outbox ++ stored.map fun e => (⟨e, none⟩ : OutboxRow)).filter OutboxRow.isUnpublished).map
        (·.event) = (outbox.filter OutboxRow.isUnpublished).map (·.event) ++ stored := by
  have hnew : (stored.map fun e => (⟨e, none⟩ : OutboxRow)).filter OutboxRow.isUnpublished =
      stored.map fun e => ⟨e, none⟩ := by
    refine List.filter_eq_self.mpr fun r hr => ?_
    obtain ⟨e, -, rfl⟩ := List.mem_map.mp hr
    rfl
  rw [List.filter_append, List.map_append, hnew, List.map_map]
  exact congrArg _ (List.map_id stored)

theorem SharedOutbox.Lined.commit (h : s.Lined) (incidentId : Id) (flushed : Time)
    (events : List Event) :
    SharedOutbox.Lined { s with
      toOutboxState := commitEvents incidentId s.toOutboxState flushed events } := by
  have hkept : (commitEvents incidentId s.toOutboxState flushed events).Kept :=
    commitEvents_kept h.toKept events
  by_cases hflushed : s.committedAt ≤ flushed ∧ flushed ≤ s.now
  · have hrange : List.range' 1 (s.eventSequence + events.length) = List.range' 1 s.eventSequence ++
        List.range' (s.eventSequence + 1) events.length := by
      rw [Nat.add_comm s.eventSequence 1, List.range'_append_1]
    refine ⟨hkept, ?_, ?_⟩
    · simp only [commitEvents, if_pos hflushed, List.map_append, storedFrom_sequences, h.numbered, hrange]
    · have hline := h.line
      simp only [OutboxState.unpublished, commitEvents, if_pos hflushed] at hline ⊢
      rw [unpublished_append, List.map_append, storedFrom_sequences, ← List.append_assoc, hline, hrange]
  · have hsame : commitEvents incidentId s.toOutboxState flushed events = s.toOutboxState :=
      if_neg hflushed
    rw [hsame]
    exact h

/-- The number of the row that is marked comes after those of the rows marked before. -/
theorem SharedOutbox.Lined.mark (h : s.Lined) {e : OutboxEvent} {rest : List OutboxEvent}
    (hbatch : s.batch = e :: rest) :
    s.marked ++ (s.unpublished.map (·.sequence)).filter (· = e.sequence) ++
        (((s.outbox.map (markPublished s.now e)).filter OutboxRow.isUnpublished).map
          (·.event)).map (·.sequence) = List.range' 1 s.eventSequence := by
  obtain ⟨later, hfirst, -⟩ := h.toKept.unpublished_cons hbatch
  have hlater : ∀ x ∈ later, e.sequence < x.sequence := by
    have hincreasing := h.toKept.unpublished_increasing
    rw [hfirst] at hincreasing
    exact (List.pairwise_cons.mp hincreasing).1
  have hone : (s.unpublished.map (·.sequence)).filter (· = e.sequence) = [e.sequence] := by
    rw [hfirst, List.map_cons, List.filter_cons_of_pos (by simp), List.filter_eq_nil_iff.mpr]
    intro n hn
    obtain ⟨x, hx, rfl⟩ := List.mem_map.mp hn
    simpa using (hlater x hx).ne'
  rw [hone, unpublished_mark h.toKept hfirst, ← h.line, hfirst]
  simp

/-- **Every step of the outbox keeps the line.** -/
theorem SharedOutbox.Lined.outbox (h : s.Lined) (settings : RealtimeSettings) (incidentId : Id)
    (x : RealtimeStep) : (sharedStep settings incidentId s (.outbox x)).Lined := by
  have hkept := outboxStep_kept h.toKept settings incidentId x
  have hline : s.marked ++ [] ++ s.unpublished.map (·.sequence) = List.range' 1 s.eventSequence := by
    rw [List.append_nil]
    exact h.line
  cases x with
  | commit flushed events =>
    have hcommit := h.commit incidentId flushed events
    refine ⟨hkept, hcommit.numbered, ?_⟩
    have hcommitted := hcommit.line
    rwa [← List.append_nil s.marked] at hcommitted
  | mark =>
    cases hbatch : s.batch with
    | nil =>
      refine ⟨hkept, ?_, ?_⟩
      · simpa only [sharedStep, outboxStep, hbatch] using h.numbered
      · simpa only [sharedStep, outboxStep, OutboxState.marks, hbatch] using hline
    | cons e rest =>
      cases hhanded : s.handed with
      | false =>
        refine ⟨hkept, ?_, ?_⟩
        · simpa only [sharedStep, outboxStep, hbatch, hhanded] using h.numbered
        · simpa only [sharedStep, outboxStep, OutboxState.marks, hbatch, hhanded] using hline
      | true =>
        refine ⟨hkept, ?_, ?_⟩
        · simpa only [sharedStep, outboxStep, hbatch, hhanded] using h.numbered
        · simp only [sharedStep, outboxStep, OutboxState.marks, hbatch, hhanded]
          exact h.mark hbatch
  | retain started =>
    refine ⟨hkept, ?_, ?_⟩
    · simp only [sharedStep, outboxStep]
      split_ifs
      · exact h.numbered
      · exact h.numbered
    · simp only [sharedStep, outboxStep, OutboxState.marks, OutboxState.unpublished]
      split_ifs
      · rw [unpublished_retain]
        exact hline
      · exact hline
  | readBatch limit =>
    refine ⟨hkept, ?_, ?_⟩
    · simp only [sharedStep, outboxStep]
      split_ifs
      · exact h.numbered
      · exact h.numbered
    · simp only [sharedStep, outboxStep, OutboxState.marks, OutboxState.unpublished]
      split_ifs
      · exact hline
      · exact hline
  | _ => exact ⟨hkept, h.numbered, hline⟩

/-- The shape is what the line says about the rows that are left. -/
theorem SharedOutbox.Lined.shaped (h : s.Lined) : s.Shaped where
  allocated := h.numbered
  marked := ⟨_, h.line⟩
  published := by
    intro r hr
    have hmem : r.event.sequence ∈ s.marked ++ s.unpublished.map (·.sequence) := by
      rw [h.line, ← h.numbered]
      exact List.mem_map_of_mem (h.toKept.mem_committed hr)
    have hnodup : (s.marked ++ s.unpublished.map (·.sequence)).Nodup := by
      rw [h.line]
      exact List.nodup_range'
    constructor
    · intro hpublished
      refine (List.mem_append.mp hmem).resolve_right fun hun => ?_
      obtain ⟨e, he, hseq⟩ := List.mem_map.mp hun
      obtain ⟨q, hq, hnone, rfl⟩ := mem_unpublished.mp he
      have hsame : q = r := key_injective h.toKept.outbox_increasing hq hr hseq
      rw [hsame] at hnone
      rw [hnone] at hpublished
      exact absurd hpublished (by decide)
    · intro hmarked
      by_contra hnone
      have hun : r.event ∈ s.unpublished := mem_unpublished.mpr ⟨r, hr, by simpa using hnone, rfl⟩
      exact (List.nodup_append.mp hnodup).2.2 _ hmarked _ (List.mem_map_of_mem hun) rfl
  left := by
    obtain ⟨gone, hgone⟩ := h.toKept.rows
    refine ⟨gone.map (·.sequence), ?_⟩
    rw [← h.numbered, ← hgone, List.map_append, List.map_map]
    rfl

theorem SharedOutbox.Lined.commitLoaded (h : s.Lined) {held : ℕ} {events : List Event}
    (hcurrent : s.committedAt ≤ flushed → flushed ≤ s.now → events ≠ [] →
      s.collides (storedFrom incidentId flushed held events) = false → held = s.eventSequence) :
    SharedOutbox.Lined { s with
      toOutboxState := commitHeld incidentId s.toOutboxState held flushed events } := by
  by_cases hthrough : s.committedAt ≤ flushed ∧ flushed ≤ s.now ∧
      s.collides (storedFrom incidentId flushed held events) = false
  · obtain ⟨hafter, hnow, hcollides⟩ := hthrough
    by_cases hevents : events = []
    · -- without an event the row is not written
      have hnone := h.commit incidentId flushed []
      rw [← commitHeld_current h.toKept] at hnone
      rw [hevents]
      exact hnone
    · rw [hcurrent hafter hnow hevents hcollides, commitHeld_current h.toKept]
      exact h.commit incidentId flushed events
  · have hsame : commitHeld incidentId s.toOutboxState held flushed events = s.toOutboxState :=
      if_neg hthrough
    rw [hsame]
    exact h

theorem SharedOutbox.Lined.step (h : s.Lined) (settings : RealtimeSettings) (x : SharedStep)
    (hcurrent : s.CommitsCurrent incidentId x) : (sharedStep settings incidentId s x).Lined := by
  cases x with
  | outbox x => exact h.outbox settings incidentId x
  | load => exact ⟨h.toKept, h.numbered, h.line⟩
  | commitLoaded session flushed events =>
    cases hread : s.reads[session]? with
    | none => simpa only [sharedStep, hread] using h
    | some held =>
      simp only [sharedStep, hread]
      exact h.commitLoaded (hcurrent held hread)

/-- A transaction with an earlier read breaks the numbering unless the read is still current. -/
theorem SharedOutbox.Lined.current (h : s.Lined) {x : SharedStep}
    (hshaped : (sharedStep settings incidentId s x).Shaped) : s.CommitsCurrent incidentId x := by
  cases x with
  | outbox x => trivial
  | load => trivial
  | commitLoaded session flushed events =>
    intro held hread hafter hnow hevents hcollides
    simp only [sharedStep, hread] at hshaped
    have hlength := congrArg List.length hshaped.allocated
    have hcommitted := congrArg List.length h.numbered
    have hstored := congrArg List.length (storedFrom_sequences incidentId flushed held events)
    simp only [commitHeld, hafter, hnow, hcollides, and_self, if_true, if_neg hevents,
      List.length_map, List.length_append, List.length_range'] at hlength hcommitted hstored
    omega

end Lines

theorem SharedOutbox.initial_lined (now : Time) : (SharedOutbox.initial now).Lined :=
  ⟨OutboxState.initial_kept now, rfl, rfl⟩

/-- In every run, the published events are the first ones and the rows that are left are the last
ones, if and only if no transaction goes through that takes its numbers from an outdated row. -/
theorem outbox_keeps_its_shape_iff (settings : RealtimeSettings) (incidentId : Id) (now : Time)
    (steps : List SharedStep) :
    Along (sharedStep settings incidentId) (fun s x => (sharedStep settings incidentId s x).Shaped)
        (.initial now) steps ↔
      Along (sharedStep settings incidentId) (fun s x => s.CommitsCurrent incidentId x)
        (.initial now) steps :=
  along_congr (sharedStep settings incidentId) (I := SharedOutbox.Lined)
    (fun _ x h => ⟨h.current, fun hcurrent => (h.step settings x hcurrent).shaped⟩)
    (fun _ x h hshaped => h.step settings x (h.current hshaped)) (SharedOutbox.initial_lined now)

/-- The handler of an upload reads the incident row before the only report is committed and gets the
write lock after the retention pass, with nothing to be kept for a replay. -/
theorem late_upload_takes_old_numbers :
    ¬ (run (sharedStep ⟨0, 1000⟩ 0) (.initial 0) [.load,
      .outbox (.commit 0 [⟨"report.created", .report, some 0, some 1, [], .owner, some 0⟩,
        ⟨"map_view.invalidated", .mapView, some 0, some 1, [], .public, none⟩]),
      .outbox (.readBatch 100), .outbox .publish, .outbox .mark, .outbox .publish, .outbox .mark,
      .outbox (.retain 0),
      .commitLoaded 0 0
        [⟨"attachment.processing", .attachment, some 0, some 1, [], .owner, some 0⟩]]).Shaped := by
  intro h
  exact absurd h.marked (by decide +kernel)

end CrisisMosaic
