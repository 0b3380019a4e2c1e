import CrisisMosaic.RealtimeGaps

/-!
# The order of the frames

What is sent on a connection has increasing sequences, as long as a row that is handed
to it is neither handed a second time nor one that the replay has covered when the
queue is no longer filtered.
-/

namespace CrisisMosaic
open Relational

def Increasing (events : List OutboxEvent) : Prop :=
  events.Pairwise fun a b => a.sequence < b.sequence

/-- A row that the connection will forward is new to it, and later than what was replayed. -/
def SendsOnce (listener : Listener) (s : RealtimeState) : RealtimeStep → Prop
  | .publish => ∀ e, s.nextHanded = some e → eventVisible listener e = true →
    match s.connection.phase with
    | .sized _ latest | .measured _ latest _ | .ready _ latest | .replaying latest _
    | .draining latest =>
      latest < e.sequence → e ∉ s.connection.queue ∧ e ∉ s.connection.forwarded
    | .live _ => e ∉ s.connection.queue ∧ e ∉ s.connection.forwarded ∧
      ∀ f ∈ s.connection.replayed, f.sequence < e.sequence
    | _ => True
  | _ => True

/-- The queued events that the drain will not discard. -/
def Connection.newer (k : Connection) (latest : ℕ) : List OutboxEvent :=
  k.queue.filter fun e => latest < e.sequence

/-- What was handed to the connection was the first unpublished row. -/
def HandedInOrder (s : OutboxState) (k : Connection) : Prop :=
  ∀ f, f ∈ k.queue ∨ f ∈ k.forwarded →
    f ∈ s.committed ∧ ∀ u ∈ s.unpublished, f.sequence ≤ u.sequence

/-- What has been sent, and what will be, by the phase of the handler. -/
def Ordered (k : Connection) : Prop :=
  match k.phase with
  | .arriving | .registered | .timed _ => k.replayed = [] ∧ k.forwarded = []
  | .sized _ latest | .measured _ latest _ | .ready _ latest =>
    k.replayed = [] ∧ k.forwarded = [] ∧ Increasing (k.newer latest)
  | .replaying latest rest => k.forwarded = [] ∧ Increasing (k.replayed ++ rest) ∧
    (∀ e ∈ k.replayed ++ rest, e.sequence ≤ latest) ∧ Increasing (k.newer latest)
  | .draining latest => Increasing k.replayed ∧ (∀ e ∈ k.replayed, e.sequence ≤ latest) ∧
    Increasing (k.forwarded ++ k.newer latest) ∧ ∀ e ∈ k.forwarded, latest < e.sequence
  | .live _ => Increasing (k.sent ++ k.queue)
  | .closed => Increasing k.sent

section Steps
variable {settings : RealtimeSettings} {incidentId : Id} {listener : Listener} {s : OutboxState}
  {k m : Connection} {x : RealtimeStep} {e : OutboxEvent} {latest : ℕ}

theorem Increasing.concat {events : List OutboxEvent} (h : Increasing events)
    (he : ∀ f ∈ events, f.sequence < e.sequence) : Increasing (events ++ [e]) := by
  refine List.pairwise_append.mpr ⟨h, List.pairwise_singleton _ _, fun f hf g hg => ?_⟩
  rw [List.mem_singleton.mp hg]
  exact he f hf

theorem Ordered.sent (h : Ordered k) : Increasing k.sent := by
  unfold Ordered at h
  unfold Connection.sent
  cases hk : k.phase with
  | replaying latest rest =>
    rw [hk] at h
    rw [h.1, List.append_nil]
    exact (List.pairwise_append.mp h.2.1).1
  | draining latest =>
    rw [hk] at h
    refine List.pairwise_append.mpr ⟨h.1, (List.pairwise_append.mp h.2.2.1).1, ?_⟩
    exact fun a ha b hb => (h.2.1 a ha).trans_lt (h.2.2.2 b hb)
  | live latest =>
    rw [hk] at h
    exact (List.pairwise_append.mp h).1
  | closed =>
    rw [hk] at h
    exact h
  | arriving | registered | timed cutoff =>
    rw [hk] at h
    rw [h.1, h.2]
    exact .nil
  | sized cutoff latest | measured cutoff latest oldest | ready cutoff latest =>
    rw [hk] at h
    rw [h.1, h.2.1]
    exact .nil

theorem outboxStep_unpublished {u : OutboxEvent}
    (hu : u ∈ (outboxStep settings incidentId s x).unpublished) :
    u ∈ s.unpublished ∨ s.eventSequence < u.sequence := by
  obtain ⟨r, hr, hnone, rfl⟩ := mem_unpublished.mp hu
  cases x with
  | commit flushed events =>
    simp only [outboxStep, commitEvents] at hr
    split at hr
    · rcases List.mem_append.mp hr with hold | hnew
      · exact Or.inl (mem_unpublished.mpr ⟨r, hold, hnone, rfl⟩)
      · obtain ⟨e, he, rfl⟩ := List.mem_map.mp hnew
        exact Or.inr (storedFrom_mem he).1
    · exact Or.inl (mem_unpublished.mpr ⟨r, hr, hnone, rfl⟩)
  | mark =>
    left
    simp only [outboxStep] at hr
    split at hr
    · obtain ⟨q, hq, rfl⟩ := List.mem_map.mp hr
      refine mem_unpublished.mpr ⟨q, hq, ?_, (markPublished_event _ _ q).symm⟩
      cases hpublished : q.publishedAt with
      | none => rfl
      | some t =>
        rw [markPublished_of_published hpublished, hpublished] at hnone
        cases hnone
    · exact mem_unpublished.mpr ⟨r, hr, hnone, rfl⟩
  | retain started =>
    left
    simp only [outboxStep] at hr
    split at hr
    · exact mem_unpublished.mpr ⟨r, (List.mem_filter.mp hr).1, hnone, rfl⟩
    · exact mem_unpublished.mpr ⟨r, hr, hnone, rfl⟩
  | readBatch limit =>
    simp only [outboxStep] at hr
    split at hr <;> exact Or.inl (mem_unpublished.mpr ⟨r, hr, hnone, rfl⟩)
  | _ => exact Or.inl hu

theorem outboxStep_committed_mono (he : e ∈ s.committed) :
    e ∈ (outboxStep settings incidentId s x).committed := by
  cases x with
  | commit flushed events =>
    simp only [outboxStep, commitEvents]
    split
    · exact List.mem_append_left _ he
    · exact he
  | readBatch limit | mark | retain started =>
    simp only [outboxStep]
    split <;> exact he
  | _ => exact he

/-- The row the hub is given is the first unpublished one. -/
theorem nextHanded_first (h : s.Kept) (hnext : s.nextHanded = some e) :
    e ∈ s.committed ∧ e ∈ s.unpublished ∧ ∀ u ∈ s.unpublished, e.sequence ≤ u.sequence := by
  have hhead : s.batch.head? = some e := by
    unfold OutboxState.nextHanded at hnext
    split at hnext
    · exact nomatch hnext
    · exact hnext
  obtain ⟨rest, hbatch⟩ : ∃ rest, s.batch = e :: rest := by
    cases hb : s.batch with
    | nil => rw [hb] at hhead; exact nomatch hhead
    | cons f rest =>
      rw [hb] at hhead
      exact ⟨rest, by rw [Option.some.inj hhead]⟩
  obtain ⟨later, hfirst, -⟩ := h.unpublished_cons hbatch
  have hincreasing := h.unpublished_increasing
  rw [hfirst] at hincreasing ⊢
  have hmem : e ∈ s.unpublished := hfirst ▸ List.mem_cons_self
  obtain ⟨r, hr, -, rfl⟩ := mem_unpublished.mp hmem
  refine ⟨h.mem_committed hr, List.mem_cons_self, fun u hu => ?_⟩
  rcases List.mem_cons.mp hu with rfl | hu
  · exact le_rfl
  · exact ((List.pairwise_cons.mp hincreasing).1 u hu).le

theorem HandedInOrder.step (h : HandedInOrder s k) (hs : s.Kept)
    (hm : ∀ f, f ∈ m.queue ∨ f ∈ m.forwarded → (f ∈ k.queue ∨ f ∈ k.forwarded) ∨
      (x = .publish ∧ s.nextHanded = some f)) :
    HandedInOrder (outboxStep settings incidentId s x) m := by
  intro f hf
  have hbefore : f ∈ s.committed ∧ ∀ u ∈ s.unpublished, f.sequence ≤ u.sequence := by
    rcases hm f hf with hold | ⟨-, hnext⟩
    · exact h f hold
    · exact ⟨(nextHanded_first hs hnext).1, (nextHanded_first hs hnext).2.2⟩
  refine ⟨outboxStep_committed_mono hbefore.1, fun u hu => ?_⟩
  rcases outboxStep_unpublished hu with hold | hnew
  · exact hbefore.2 u hold
  · exact (hs.bounded f hbefore.1).trans hnew.le

/-- What is queued or forwarded was so before, or the hub has just been given it. -/
theorem connectionStep_handed {f : OutboxEvent}
    (hf : f ∈ (connectionStep settings listener s k x).queue ∨
      f ∈ (connectionStep settings listener s k x).forwarded) :
    (f ∈ k.queue ∨ f ∈ k.forwarded) ∨ (x = .publish ∧ s.nextHanded = some f) := by
  cases x with
  | publish =>
    simp only [connectionStep] at hf
    cases hnext : s.nextHanded with
    | none =>
      rw [hnext] at hf
      exact Or.inl hf
    | some e =>
      rw [hnext, Option.elim_some] at hf
      unfold hubPublish at hf
      split_ifs at hf
      · exact Or.inl hf
      · exact Or.inl hf
      · rcases hf with hqueue | hforwarded
        · rcases List.mem_append.mp hqueue with hold | hnew
          · exact Or.inl (Or.inl hold)
          · exact Or.inr ⟨rfl, by rw [List.mem_singleton.mp hnew]⟩
        · exact Or.inl (Or.inr hforwarded)
  | replay =>
    left
    simp only [connectionStep] at hf
    split at hf
    · unfold Connection.replayNext at hf
      split at hf <;> exact hf
    · exact hf
  | drain =>
    left
    simp only [connectionStep] at hf
    split at hf
    · unfold Connection.drainNext at hf
      split at hf
      · exact hf
      · rename_i e queue hqueue
        rw [hqueue]
        dsimp only at hf
        rcases hf with hold | hforwarded
        · exact Or.inl (List.mem_cons_of_mem e hold)
        · split at hforwarded
          · rcases List.mem_append.mp hforwarded with hold | hnew
            · exact Or.inr hold
            · exact Or.inl (List.mem_singleton.mp hnew ▸ List.mem_cons_self)
          · exact Or.inr hforwarded
    · exact hf
  | forward =>
    left
    simp only [connectionStep] at hf
    split at hf
    · unfold Connection.forwardNext at hf
      split at hf
      · exact hf
      · rename_i e queue hqueue
        rw [hqueue]
        rcases hf with hold | hforwarded
        · exact Or.inl (List.mem_cons_of_mem e hold)
        · rcases List.mem_append.mp hforwarded with hold | hnew
          · exact Or.inr hold
          · exact Or.inl (List.mem_singleton.mp hnew ▸ List.mem_cons_self)
    · exact hf
  | register | readClock | readIncident | readOldest | answer | readEvents =>
    left
    simp only [connectionStep] at hf
    split at hf <;> exact hf
  | _ => exact Or.inl hf

/-- Of what was handed to the connection, only the row itself is not before the next row. -/
theorem HandedInOrder.lt_next (h : HandedInOrder s k) (hs : s.Kept) (hnext : s.nextHanded = some e)
    {f : OutboxEvent} (hf : f ∈ k.queue ∨ f ∈ k.forwarded) (hne : f ≠ e) : f.sequence < e.sequence := by
  obtain ⟨hcommitted, hunpublished, -⟩ := nextHanded_first hs hnext
  refine lt_of_le_of_ne ((h f hf).2 e hunpublished) fun heq => ?_
  exact hne (key_injective hs.increasing (h f hf).1 hcommitted heq)

theorem mem_newer {f : OutboxEvent} : f ∈ k.newer latest ↔ f ∈ k.queue ∧ latest < f.sequence := by
  simp [Connection.newer]

/-- A row joins the queued ones that will be forwarded, after them. -/
theorem newer_concat (before : List OutboxEvent) (h : HandedInOrder s k) (hs : s.Kept)
    (hnext : s.nextHanded = some e)
    (honce : latest < e.sequence → e ∉ k.queue ∧ e ∉ k.forwarded) (hbefore : before ⊆ k.forwarded) (hincreasing : Increasing (before ++ k.newer latest)) :
    Increasing (before ++ Connection.newer { k with queue := k.queue ++ [e] } latest) := by
  by_cases hlater : latest < e.sequence
  · have hnewer : Connection.newer { k with queue := k.queue ++ [e] } latest =
        k.newer latest ++ [e] := by simp [Connection.newer, hlater]
    rw [hnewer, ← List.append_assoc]
    refine hincreasing.concat fun f hf => ?_
    obtain ⟨hqueue, hforwarded⟩ := honce hlater
    rcases List.mem_append.mp hf with hsent | hqueued
    · exact h.lt_next hs hnext (Or.inr (hbefore hsent)) fun heq => hforwarded (heq ▸ hbefore hsent)
    · have hold := (mem_newer.mp hqueued).1
      exact h.lt_next hs hnext (Or.inl hold) fun heq => hqueue (heq ▸ hold)
  · have hnewer : Connection.newer { k with queue := k.queue ++ [e] } latest = k.newer latest := by
      simp [Connection.newer, hlater]
    rwa [hnewer]

theorem hubPublish_ordered (h : Ordered k) (hd : HandedInOrder s k) (hs : s.Kept)
    (hnext : s.nextHanded = some e) (honce : SendsOnce listener ⟨s, k⟩ .publish) :
    Ordered (hubPublish settings listener k e) := by
  have hsent := h.sent
  unfold hubPublish
  split_ifs with hpassed hfull
  · exact h
  · exact hsent
  · have hvisible : eventVisible listener e = true := by
      by_contra hhidden
      simp [hhidden] at hpassed
    have hthis := honce e hnext hvisible
    unfold Ordered at h ⊢
    dsimp only at hthis ⊢
    cases hk : k.phase with
    | sized cutoff latest | measured cutoff latest oldest | ready cutoff latest =>
      rw [hk] at h hthis
      exact ⟨h.1, h.2.1, newer_concat [] hd hs hnext hthis (List.nil_subset _) h.2.2⟩
    | replaying latest rest =>
      rw [hk] at h hthis
      exact ⟨h.1, h.2.1, h.2.2.1,
        newer_concat [] hd hs hnext hthis (List.nil_subset _) h.2.2.2⟩
    | draining latest =>
      rw [hk] at h hthis
      exact ⟨h.1, h.2.1, newer_concat k.forwarded hd hs hnext hthis (List.Subset.refl _) h.2.2.1, h.2.2.2⟩
    | live latest =>
      rw [hk] at h hthis
      dsimp only at h hthis ⊢
      obtain ⟨hqueue, hforwarded, hreplayed⟩ := hthis
      rw [← List.append_assoc]
      refine Increasing.concat h fun f hf => ?_
      rcases List.mem_append.mp hf with hf | hold
      · rcases List.mem_append.mp hf with hreplay | hold
        · exact hreplayed f hreplay
        · exact hd.lt_next hs hnext (Or.inr hold) fun heq => hforwarded (heq ▸ hold)
      · exact hd.lt_next hs hnext (Or.inl hold) fun heq => hqueue (heq ▸ hold)
    | closed => simp [hk, ConnectionPhase.isRegistered] at hpassed
    | arriving | registered | timed cutoff =>
      rw [hk] at h
      exact h

theorem replayNext_ordered {rest : List OutboxEvent} (h : Ordered k)
    (hphase : k.phase = .replaying latest rest) : Ordered (k.replayNext listener latest rest) := by
  unfold Ordered at h
  rw [hphase] at h
  obtain ⟨hforwarded, hincreasing, hle, hnewer⟩ := h
  cases rest with
  | nil =>
    rw [List.append_nil] at hincreasing hle
    refine ⟨hincreasing, hle, ?_, fun e he => ?_⟩
    · change Increasing (k.forwarded ++ k.newer latest)
      rw [hforwarded]
      exact hnewer
    · change e ∈ k.forwarded at he
      rw [hforwarded] at he
      exact nomatch he
  | cons e rest =>
    unfold Ordered Connection.replayNext
    dsimp only
    by_cases hvisible : eventVisible listener e = true
    · rw [if_pos hvisible, List.append_assoc]
      exact ⟨hforwarded, hincreasing, hle, hnewer⟩
    · rw [if_neg hvisible]
      have hsub : (k.replayed ++ rest).Sublist (k.replayed ++ e :: rest) :=
        (List.sublist_cons_self e rest).append_left k.replayed
      exact ⟨hforwarded, hincreasing.sublist hsub, fun f hf => hle f (hsub.subset hf), hnewer⟩

theorem drainNext_ordered (h : Ordered k) (hphase : k.phase = .draining latest) :
    Ordered (k.drainNext latest) := by
  have hsent := h.sent
  unfold Ordered at h
  rw [hphase] at h
  obtain ⟨hreplayed, hle, hincreasing, hlater⟩ := h
  unfold Connection.drainNext
  split
  · rename_i hqueue
    change Increasing (k.sent ++ k.queue)
    rwa [hqueue, List.append_nil]
  · rename_i e queue hqueue
    unfold Ordered
    dsimp only
    rw [hphase]
    refine ⟨hreplayed, hle, ?_⟩
    dsimp only [Connection.newer] at hincreasing ⊢
    rw [hqueue] at hincreasing
    by_cases hnew : latest < e.sequence
    · rw [if_pos hnew]
      rw [List.filter_cons_of_pos (by simpa using hnew)] at hincreasing
      refine ⟨by rwa [List.append_assoc], fun f hf => ?_⟩
      rcases List.mem_append.mp hf with hold | hlast
      · exact hlater f hold
      · exact List.mem_singleton.mp hlast ▸ hnew
    · rw [if_neg hnew]
      rw [List.filter_cons_of_neg (by simpa using hnew)] at hincreasing
      exact ⟨hincreasing, hlater⟩

theorem forwardNext_ordered (h : Ordered k) (hphase : k.phase = .live latest) :
    Ordered k.forwardNext := by
  unfold Ordered at h
  rw [hphase] at h
  unfold Connection.forwardNext
  split
  · unfold Ordered
    rw [hphase]
    exact h
  · rename_i e queue hqueue
    unfold Ordered
    dsimp only
    rw [hphase]
    dsimp only [Connection.sent] at h ⊢
    rw [hqueue] at h
    simpa using h

/-- **A step that sends nothing twice keeps the order.** -/
theorem connectionStep_ordered (h : Ordered k) (hd : HandedInOrder s k) (hs : s.Kept)
    (honce : SendsOnce listener ⟨s, k⟩ x) : Ordered (connectionStep settings listener s k x) := by
  cases x with
  | publish =>
    simp only [connectionStep]
    cases hnext : s.nextHanded with
    | none => exact h
    | some e => exact hubPublish_ordered h hd hs hnext honce
  | register =>
    simp only [connectionStep]
    split
    · rename_i hphase
      rw [Ordered, hphase] at h
      exact h
    · exact h
  | readClock =>
    simp only [connectionStep]
    split
    · rename_i hphase
      rw [Ordered, hphase] at h
      exact h
    · exact h
  | readIncident =>
    simp only [connectionStep]
    split
    · rename_i cutoff hphase
      rw [Ordered, hphase] at h
      refine ⟨h.1, h.2, ?_⟩
      have hnone : Connection.newer { k with phase := .sized cutoff s.eventSequence }
          s.eventSequence = [] := by
        refine List.filter_eq_nil_iff.mpr fun f hf => ?_
        have hbound := hs.bounded f (hd f (Or.inl hf)).1
        simpa using hbound
      rw [hnone]
      exact .nil
    · exact h
  | readOldest =>
    simp only [connectionStep]
    split
    · rename_i cutoff latest hphase
      rw [Ordered, hphase] at h
      exact h
    · exact h
  | answer =>
    have hsent := h.sent
    simp only [connectionStep]
    split
    · rename_i cutoff latest oldest hphase
      rw [Ordered, hphase] at h
      split
      · exact hsent
      · exact h
    · exact h
  | readEvents =>
    simp only [connectionStep]
    split
    · rename_i cutoff latest hphase
      rw [Ordered, hphase] at h
      obtain ⟨hreplayed, hforwarded, hnewer⟩ := h
      split
      · have hrows : Increasing (replayRows s.outbox (k.cursor latest) latest cutoff) :=
          (hs.increasing.sublist hs.rows.sublist).sublist List.filter_sublist
        refine ⟨hforwarded, ?_, ?_, hnewer⟩
        · dsimp only
          rwa [hreplayed, List.nil_append]
        · intro e he
          dsimp only at he
          rw [hreplayed, List.nil_append] at he
          exact (mem_replayRows.mp he).2.2.1
      · refine ⟨?_, ?_, ?_, ?_⟩ <;> dsimp only
        · rw [hreplayed]
          exact .nil
        · rw [hreplayed]
          exact fun e he => by cases he
        · rwa [hforwarded, List.nil_append]
        · rw [hforwarded]
          exact fun e he => by cases he
    · exact h
  | replay =>
    simp only [connectionStep]
    split
    · rename_i latest rest hphase
      exact replayNext_ordered h hphase
    · exact h
  | drain =>
    simp only [connectionStep]
    split
    · rename_i latest hphase
      exact drainNext_ordered h hphase
    · exact h
  | forward =>
    simp only [connectionStep]
    split
    · rename_i latest hphase
      exact forwardNext_ordered h hphase
    · exact h
  | close => exact h.sent
  | _ => exact h

end Steps

namespace Sample

/-- The client connects before the event is published. -/
def overtaken : List RealtimeStep :=
  [.commit 0 [notice], .register, .readClock, .readIncident, .readOldest, .answer, .readEvents,
    .replay, .replay, .drain, .readBatch 1, .publish, .forward]

end Sample

end CrisisMosaic
