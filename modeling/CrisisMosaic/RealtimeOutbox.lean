import CrisisMosaic.Realtime
import CrisisMosaic.Relational.Log

/-!
# What the outbox keeps

The events of an incident are numbered without gaps in the order of their commits and
of their times. The rows that are left in the outbox are the last of them, the
published rows come first, in the order of their publication, and the outbox loop
publishes the unpublished rows from the front.
-/

namespace CrisisMosaic
open Relational

/-- A published row has only published rows before it, and they were published no later. -/
def PublishedFirst (a b : OutboxRow) : Prop :=
  ∀ t, b.publishedAt = some t → ∃ u, a.publishedAt = some u ∧ u ≤ t

structure OutboxState.Kept (s : OutboxState) : Prop where
  increasing : s.committed.Pairwise fun a b => a.sequence < b.sequence
  bounded : ∀ e ∈ s.committed, e.sequence ≤ s.eventSequence
  monotone : s.committed.Pairwise fun a b => a.occurredAt ≤ b.occurredAt
  past : ∀ e ∈ s.committed, e.occurredAt ≤ s.committedAt
  clock : s.committedAt ≤ s.now
  rows : s.outbox.map (·.event) <:+ s.committed
  ordered : s.outbox.Pairwise PublishedFirst
  published : ∀ r ∈ s.outbox, ∀ t, r.publishedAt = some t → t ≤ s.now
  batch : s.batch <+: s.unpublished

section Rows
variable {settings : RealtimeSettings} {incidentId : Id} {s : OutboxState} {e : OutboxEvent}
  {flushed : Time}

theorem OutboxState.initial_kept (now : Time) : (OutboxState.initial now).Kept where
  increasing := .nil
  bounded := fun _ h => nomatch h
  monotone := .nil
  past := fun _ h => nomatch h
  clock := le_rfl
  rows := List.nil_suffix
  ordered := .nil
  published := fun _ h => nomatch h
  batch := List.nil_prefix

theorem storedFrom_mem {n : ℕ} {events : List Event} (h : e ∈ storedFrom incidentId flushed n events) :
    n < e.sequence ∧ e.sequence ≤ n + events.length ∧ e.occurredAt = flushed := by
  induction events generalizing n with
  | nil => exact nomatch h
  | cons x events ih =>
    rcases List.mem_cons.mp h with rfl | h
    · exact ⟨Nat.lt_succ_self n, by simp [Event.stored], rfl⟩
    · obtain ⟨hlt, hle, htime⟩ := ih h
      refine ⟨by omega, ?_, htime⟩
      simp only [List.length_cons]
      omega

theorem storedFrom_increasing (incidentId : Id) (flushed : Time) (n : ℕ) (events : List Event) :
    (storedFrom incidentId flushed n events).Pairwise fun a b => a.sequence < b.sequence := by
  induction events generalizing n with
  | nil => exact .nil
  | cons x events ih => exact .cons (fun e he => (storedFrom_mem he).1) (ih (n + 1))

theorem storedFrom_monotone (incidentId : Id) (flushed : Time) (n : ℕ) (events : List Event) :
    (storedFrom incidentId flushed n events).Pairwise fun a b => a.occurredAt ≤ b.occurredAt := by
  refine List.pairwise_of_forall_mem_list fun a ha b hb => ?_
  rw [(storedFrom_mem ha).2.2, (storedFrom_mem hb).2.2]

theorem mem_unpublished : e ∈ s.unpublished ↔ ∃ r ∈ s.outbox, r.publishedAt = none ∧ r.event = e := by
  simp [OutboxState.unpublished, OutboxRow.isUnpublished, and_assoc]

/-- The rows are numbered upwards. -/
theorem OutboxState.Kept.outbox_increasing (h : s.Kept) :
    s.outbox.Pairwise fun a b => a.event.sequence < b.event.sequence := by
  have hrows := h.increasing.sublist h.rows.sublist
  exact (List.pairwise_map (f := OutboxRow.event)).mp hrows

theorem OutboxState.Kept.unpublished_increasing (h : s.Kept) :
    s.unpublished.Pairwise fun a b => a.sequence < b.sequence :=
  List.pairwise_map.mpr (h.outbox_increasing.sublist List.filter_sublist)

theorem OutboxState.Kept.mem_committed (h : s.Kept) {r : OutboxRow} (hr : r ∈ s.outbox) :
    r.event ∈ s.committed := h.rows.subset (List.mem_map_of_mem hr)

theorem commitEvents_kept (h : s.Kept) (events : List Event) :
    (commitEvents incidentId s flushed events).Kept := by
  unfold commitEvents
  by_cases hflushed : s.committedAt ≤ flushed ∧ flushed ≤ s.now
  · rw [if_pos hflushed]
    have hnew : ∀ e ∈ storedFrom incidentId flushed s.eventSequence events,
        s.eventSequence < e.sequence ∧ e.sequence ≤ s.eventSequence + events.length ∧
          e.occurredAt = flushed := fun e => storedFrom_mem
    constructor
    · refine List.pairwise_append.mpr ⟨h.increasing, storedFrom_increasing _ _ _ _, ?_⟩
      exact fun a ha b hb => (h.bounded a ha).trans_lt (hnew b hb).1
    · intro e he
      rcases List.mem_append.mp he with hold | he
      · exact (h.bounded e hold).trans (Nat.le_add_right _ _)
      · exact (hnew e he).2.1
    · refine List.pairwise_append.mpr ⟨h.monotone, storedFrom_monotone _ _ _ _, ?_⟩
      exact fun a ha b hb => ((h.past a ha).trans hflushed.1).trans_eq (hnew b hb).2.2.symm
    · intro e he
      rcases List.mem_append.mp he with hold | he
      · exact (h.past e hold).trans h.clock
      · exact (hnew e he).2.2.trans_le hflushed.2
    · exact le_rfl
    · obtain ⟨gone, hgone⟩ := h.rows
      refine ⟨gone, ?_⟩
      simp [← hgone, Function.comp_def]
    · refine List.pairwise_append.mpr ⟨h.ordered, ?_, ?_⟩
      · refine List.pairwise_map.mpr (List.pairwise_of_forall_mem_list ?_)
        exact fun a _ b _ t ht => nomatch ht
      · intro a _ b hb t ht
        obtain ⟨e, -, rfl⟩ := List.mem_map.mp hb
        exact nomatch ht
    · intro r hr t ht
      rcases List.mem_append.mp hr with hold | hr
      · exact h.published r hold t ht
      · obtain ⟨e, -, rfl⟩ := List.mem_map.mp hr
        exact nomatch ht
    · refine h.batch.trans ?_
      simp [OutboxState.unpublished]
  · rwa [if_neg hflushed]

/-- The first row of the batch is the first one that is unpublished. -/
theorem OutboxState.Kept.unpublished_cons (h : s.Kept) {rest : List OutboxEvent}
    (hbatch : s.batch = e :: rest) : ∃ later, s.unpublished = e :: later ∧ rest <+: later := by
  obtain ⟨more, hmore⟩ := h.batch
  rw [hbatch] at hmore
  exact ⟨rest ++ more, hmore.symm, List.prefix_append rest more⟩

theorem markPublished_event (now : Time) (e : OutboxEvent) (r : OutboxRow) :
    (markPublished now e r).event = r.event := by
  unfold markPublished
  split_ifs <;> rfl

theorem isUnpublished_mark (now : Time) (e : OutboxEvent) (r : OutboxRow) :
    (markPublished now e r).isUnpublished = (r.event.sequence ≠ e.sequence && r.isUnpublished) := by
  unfold markPublished
  by_cases hseq : r.event.sequence = e.sequence
  · cases hr : r.isUnpublished with
    | true => simp [OutboxRow.isUnpublished, hseq]
    | false => simp [hseq, hr]
  · simp [hseq]

/-- Marking the first unpublished row leaves the others. -/
theorem unpublished_mark (h : s.Kept) {later : List OutboxEvent} (hfirst : s.unpublished = e :: later)
    (now : Time) : ((s.outbox.map (markPublished now e)).filter OutboxRow.isUnpublished).map
      (·.event) = later := by
  have hlater : ∀ x ∈ later, e.sequence < x.sequence := by
    have hincreasing := h.unpublished_increasing
    rw [hfirst] at hincreasing
    exact (List.pairwise_cons.mp hincreasing).1
  have hmarked : ((s.outbox.map (markPublished now e)).filter OutboxRow.isUnpublished).map
      (·.event) = s.unpublished.filter fun x => x.sequence ≠ e.sequence := by
    rw [List.filter_map, List.map_map, OutboxState.unpublished, List.filter_map, List.filter_filter]
    have hevent : (fun r : OutboxRow => r.event) ∘ markPublished now e = fun r => r.event :=
      funext (markPublished_event now e)
    rw [hevent]
    refine congrArg _ (List.filter_congr fun r _ => ?_)
    exact isUnpublished_mark now e r
  rw [hmarked, hfirst, List.filter_cons_of_neg (by simp), List.filter_eq_self]
  exact fun x hx => by simpa using (hlater x hx).ne'

theorem markPublished_of_published {now t : Time} {r : OutboxRow} (h : r.publishedAt = some t) :
    markPublished now e r = r := by
  simp [markPublished, OutboxRow.isUnpublished, h]

theorem publishedAt_mark {now t : Time} {r : OutboxRow}
    (h : (markPublished now e r).publishedAt = some t) :
    r.publishedAt = some t ∨ (t = now ∧ r.event.sequence = e.sequence ∧ r.publishedAt = none) := by
  unfold markPublished at h
  split_ifs at h with hfirst
  · simp only [OutboxRow.isUnpublished, Bool.and_eq_true, decide_eq_true_eq,
      Option.isNone_iff_eq_none] at hfirst
    exact Or.inr ⟨(Option.some.inj h).symm, hfirst⟩
  · exact Or.inl h

theorem markPublished_ordered (h : s.Kept) {later : List OutboxEvent}
    (hfirst : s.unpublished = e :: later) :
    (s.outbox.map (markPublished s.now e)).Pairwise PublishedFirst := by
  refine List.pairwise_map.mpr ?_
  refine (h.ordered.and h.outbox_increasing).imp_of_mem ?_
  intro a b ha _ ⟨hab, hlt⟩ t ht
  rcases publishedAt_mark ht with hold | ⟨rfl, hseq, -⟩
  · obtain ⟨u, hu, hle⟩ := hab t hold
    exact ⟨u, by rwa [markPublished_of_published hu], hle⟩
  · -- a row before the first unpublished one is published
    cases hu : a.publishedAt with
    | some u => exact ⟨u, by rwa [markPublished_of_published hu], h.published a ha u hu⟩
    | none =>
      have hmem : a.event ∈ e :: later := hfirst ▸ mem_unpublished.mpr ⟨a, ha, hu, rfl⟩
      have hincreasing := h.unpublished_increasing
      rw [hfirst] at hincreasing
      rcases List.mem_cons.mp hmem with heq | hlater
      · rw [heq, hseq] at hlt
        exact absurd hlt (lt_irrefl _)
      · have hafter := (List.pairwise_cons.mp hincreasing).1 _ hlater
        omega

theorem markBatch_kept (h : s.Kept) {rest : List OutboxEvent} (hbatch : s.batch = e :: rest) :
    ({ s with outbox := s.outbox.map (markPublished s.now e), batch := rest, handed := false } :
      OutboxState).Kept := by
  obtain ⟨later, hfirst, hrest⟩ := h.unpublished_cons hbatch
  refine ⟨h.increasing, h.bounded, h.monotone, h.past, h.clock, ?_, markPublished_ordered h hfirst,
    ?_, ?_⟩
  · have hevents : (s.outbox.map (markPublished s.now e)).map (·.event) = s.outbox.map (·.event) := by
      rw [List.map_map]
      exact List.map_congr_left fun r _ => markPublished_event s.now e r
    rw [hevents]
    exact h.rows
  · intro r hr t ht
    obtain ⟨r, hold, rfl⟩ := List.mem_map.mp hr
    rcases publishedAt_mark ht with hbefore | ⟨rfl, -⟩
    · exact h.published r hold t hbefore
    · exact le_rfl
  · change rest <+: ((s.outbox.map (markPublished s.now e)).filter OutboxRow.isUnpublished).map (·.event)
    rwa [unpublished_mark h hfirst]

theorem unpublished_retain (settings : RealtimeSettings) (started : Time) (outbox : List OutboxRow) :
    (outbox.filter fun r => !isExpired settings started r).filter OutboxRow.isUnpublished =
      outbox.filter OutboxRow.isUnpublished := by
  rw [List.filter_filter]
  refine List.filter_congr fun r _ => ?_
  cases hr : r.publishedAt <;> simp [OutboxRow.isUnpublished, isExpired, hr]

theorem retain_kept (h : s.Kept) (settings : RealtimeSettings) (started : Time) :
    ({ s with outbox := s.outbox.filter fun r => !isExpired settings started r } : OutboxState).Kept := by
  have hsuffix : (s.outbox.filter fun r => !isExpired settings started r) <:+ s.outbox := by
    refine filter_not_isSuffix (h.ordered.imp fun {a b} hab hexpired => ?_)
    simp only [isExpired, Option.any_eq_true, decide_eq_true_eq] at hexpired ⊢
    obtain ⟨t, ht, hle⟩ := hexpired
    obtain ⟨u, hu, hut⟩ := hab t ht
    exact ⟨u, hu, hut.trans hle⟩
  refine ⟨h.increasing, h.bounded, h.monotone, h.past, h.clock, ?_, h.ordered.sublist hsuffix.sublist,
    fun r hr => h.published r (hsuffix.subset hr), ?_⟩
  · obtain ⟨gone, hgone⟩ := hsuffix
    obtain ⟨before, hbefore⟩ := h.rows
    refine ⟨before ++ gone.map (·.event), ?_⟩
    rw [List.append_assoc, ← List.map_append, hgone, hbefore]
  · change s.batch <+: ((s.outbox.filter fun r => !isExpired settings started r).filter
      OutboxRow.isUnpublished).map (·.event)
    rw [unpublished_retain]
    exact h.batch

/-- **Every step keeps the outbox.** -/
theorem outboxStep_kept (h : s.Kept) (settings : RealtimeSettings) (incidentId : Id) (x : RealtimeStep) :
    (outboxStep settings incidentId s x).Kept := by
  have hbatch : ∀ batch handed, batch <+: s.unpublished →
      ({ s with batch := batch, handed := handed } : OutboxState).Kept := fun batch handed hb =>
    ⟨h.increasing, h.bounded, h.monotone, h.past, h.clock, h.rows, h.ordered, h.published, hb⟩
  cases x with
  | tick elapsed =>
    have hlater : s.now ≤ s.now + elapsed := le_add_of_nonneg_right (Int.natCast_nonneg elapsed)
    exact ⟨h.increasing, h.bounded, h.monotone, h.past, h.clock.trans hlater, h.rows, h.ordered,
      fun r hr t ht => (h.published r hr t ht).trans hlater, h.batch⟩
  | commit flushed events => exact commitEvents_kept h events
  | readBatch limit =>
    simp only [outboxStep]
    split
    · exact hbatch _ _ (List.take_prefix _ _)
    · exact h
  | publish => exact hbatch s.batch _ h.batch
  | mark =>
    simp only [outboxStep]
    split
    · rename_i e rest hs _
      exact markBatch_kept h hs
    · exact h
  | giveUp => exact hbatch [] false List.nil_prefix
  | retain started =>
    simp only [outboxStep]
    split
    · exact retain_kept h settings started
    · exact h
  | _ => exact h

end Rows
end CrisisMosaic
