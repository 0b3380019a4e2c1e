import CrisisMosaic.Reachable
import CrisisMosaic.RealtimeOutbox

/-!
# No gap in what a client is sent

After the ready frame every event the client has not seen has been sent, is queued, is
still to be replayed, or is still to be published, as long as no retention pass deletes
an event the replay needs between the read of the oldest sequence and the read of the
events. The replay covers the events up to the sequence the handler read; the later
ones are handed to the registered connection before they are marked as published.
-/

namespace CrisisMosaic
open Relational

def ConnectionPhase.isAnswered : ConnectionPhase → Bool
  | .ready _ _ | .replaying _ _ | .draining _ | .live _ => true
  | _ => false

/-- The events the running replay will still come to. -/
def Connection.toReplay (c : Connection) (outbox : List OutboxRow) : List OutboxEvent :=
  match c.phase with
  | .ready cutoff latest => replayRows outbox (c.cursor latest) latest cutoff
  | .replaying _ rest => rest
  | _ => []

def NoGap (listener : Listener) (s : RealtimeState) : Prop :=
  ∀ c, s.connection.lastSequence = some c → s.connection.phase.isAnswered = true →
    ∀ e ∈ s.committed, eventVisible listener e = true → c < e.sequence →
      e ∈ s.connection.sent ∨ e ∈ s.connection.queue ∨ e ∈ s.connection.toReplay s.outbox ∨
        e ∈ s.unpublished

/-- Between the two reads, with the sequence the replay goes up to. -/
def ConnectionPhase.awaitsReplay : ConnectionPhase → Option ℕ
  | .measured _ latest _ | .ready _ latest => some latest
  | _ => none

/-- No event that the replay needs is deleted before it is read. -/
def SparesReplay (settings : RealtimeSettings) (listener : Listener) (s : RealtimeState) :
    RealtimeStep → Prop
  | .retain started => ∀ latest, s.connection.phase.awaitsReplay = some latest → started ≤ s.now →
    ∀ r ∈ s.outbox, isExpired settings started r = true → eventVisible listener r.event = true →
      r.event.sequence ≤ latest → r.event.sequence ≤ s.connection.cursor latest
  | _ => True

/-- Unpublished, and not yet given to the hub in this pass. -/
def OutboxState.Waits (s : OutboxState) (e : OutboxEvent) : Prop :=
  e ∈ s.unpublished ∧ ¬ (s.handed = true ∧ s.batch.head? = some e)

section Outbox
variable {settings : RealtimeSettings} {incidentId : Id} {s : OutboxState} {x : RealtimeStep}
  {e : OutboxEvent}

theorem outboxStep_eventSequence_le (settings : RealtimeSettings) (incidentId : Id) (s : OutboxState)
    (x : RealtimeStep) : s.eventSequence ≤ (outboxStep settings incidentId s x).eventSequence := by
  cases x with
  | commit flushed events =>
    simp only [outboxStep, commitEvents]
    split
    · exact Nat.le_add_right _ _
    · exact le_rfl
  | readBatch limit =>
    simp only [outboxStep]
    split <;> exact le_rfl
  | mark =>
    simp only [outboxStep]
    split <;> exact le_rfl
  | retain started =>
    simp only [outboxStep]
    split <;> exact le_rfl
  | _ => exact le_rfl

/-- An event that is committed is new and waits, or it was committed before. -/
theorem outboxStep_committed (h : s.Kept)
    (he : e ∈ (outboxStep settings incidentId s x).committed) :
    e ∈ s.committed ∨
      (s.eventSequence < e.sequence ∧ (outboxStep settings incidentId s x).Waits e) := by
  cases x with
  | commit flushed events =>
    simp only [outboxStep, commitEvents] at he ⊢
    split at he
    · rename_i hflushed
      rw [if_pos hflushed]
      rcases List.mem_append.mp he with hold | hnew
      · exact Or.inl hold
      · refine Or.inr ⟨(storedFrom_mem hnew).1, ?_, ?_⟩
        · exact mem_unpublished.mpr ⟨⟨e, none⟩, List.mem_append_right _ (List.mem_map_of_mem hnew),
            rfl, rfl⟩
        · rintro ⟨-, hhead⟩
          have hmem : e ∈ s.unpublished := h.batch.subset (List.mem_of_head? hhead)
          obtain ⟨r, hr, -, rfl⟩ := mem_unpublished.mp hmem
          exact absurd (h.bounded _ (h.mem_committed hr)) (storedFrom_mem hnew).1.not_ge
    · exact Or.inl he
  | readBatch limit =>
    simp only [outboxStep] at he
    split at he <;> exact Or.inl he
  | mark =>
    simp only [outboxStep] at he
    split at he <;> exact Or.inl he
  | retain started =>
    simp only [outboxStep] at he
    split at he <;> exact Or.inl he
  | _ => exact Or.inl he

/-- A waiting event waits on until it is given to the hub. -/
theorem outboxStep_waits (settings : RealtimeSettings) (incidentId : Id) (x : RealtimeStep)
    (h : s.Kept) (he : s.Waits e) :
    (outboxStep settings incidentId s x).Waits e ∨ (x = .publish ∧ s.nextHanded = some e) := by
  cases x with
  | commit flushed events =>
    left
    simp only [outboxStep, commitEvents]
    split
    · refine ⟨?_, he.2⟩
      obtain ⟨r, hr, hnone, hevent⟩ := mem_unpublished.mp he.1
      exact mem_unpublished.mpr ⟨r, List.mem_append_left _ hr, hnone, hevent⟩
    · exact he
  | readBatch limit =>
    left
    simp only [outboxStep]
    split
    · exact ⟨he.1, fun hhanded => by cases hhanded.1⟩
    · exact he
  | publish =>
    by_cases hnext : s.nextHanded = some e
    · exact Or.inr ⟨rfl, hnext⟩
    · refine Or.inl ⟨he.1, fun hhanded => ?_⟩
      cases hs : s.handed with
      | true => exact he.2 ⟨hs, hhanded.2⟩
      | false =>
        have hhead : s.batch.head? = some e := hhanded.2
        exact hnext (by rw [OutboxState.nextHanded, hs, if_neg Bool.false_ne_true, hhead])
  | mark =>
    left
    simp only [outboxStep]
    split
    · rename_i first rest hbatch hhanded
      obtain ⟨later, hfirst, -⟩ := h.unpublished_cons hbatch
      refine ⟨?_, fun hhanded => by cases hhanded.1⟩
      change e ∈ ((s.outbox.map (markPublished s.now first)).filter OutboxRow.isUnpublished).map
        (·.event)
      rw [unpublished_mark h hfirst]
      rcases List.mem_cons.mp (hfirst ▸ he.1) with rfl | hlater
      · exact absurd ⟨hhanded, by rw [hbatch]; rfl⟩ he.2
      · exact hlater
    · exact he
  | giveUp => exact Or.inl ⟨he.1, fun hhanded => by cases hhanded.1⟩
  | retain started =>
    left
    simp only [outboxStep]
    split
    · refine ⟨?_, he.2⟩
      obtain ⟨r, hr, hnone, hevent⟩ := mem_unpublished.mp he.1
      refine mem_unpublished.mpr ⟨r, List.mem_filter.mpr ⟨hr, ?_⟩, hnone, hevent⟩
      simp [isExpired, hnone]
    · exact he
  | _ => exact Or.inl he

/-- Only a retention pass deletes a row. -/
theorem outboxStep_rows (settings : RealtimeSettings) (incidentId : Id) (x : RealtimeStep)
    {r : OutboxRow} (hr : r ∈ s.outbox) :
    (∃ q ∈ (outboxStep settings incidentId s x).outbox, q.event = r.event) ∨
      (∃ started, x = .retain started ∧ started ≤ s.now ∧ isExpired settings started r = true) := by
  cases x with
  | commit flushed events =>
    left
    simp only [outboxStep, commitEvents]
    split
    · exact ⟨r, List.mem_append_left _ hr, rfl⟩
    · exact ⟨r, hr, rfl⟩
  | readBatch limit =>
    left
    simp only [outboxStep]
    split <;> exact ⟨r, hr, rfl⟩
  | mark =>
    left
    simp only [outboxStep]
    split
    · exact ⟨_, List.mem_map_of_mem hr, markPublished_event _ _ r⟩
    · exact ⟨r, hr, rfl⟩
  | retain started =>
    simp only [outboxStep]
    split
    · rename_i hstarted
      cases hexpired : isExpired settings started r with
      | true => exact Or.inr ⟨started, rfl, hstarted, hexpired⟩
      | false => exact Or.inl ⟨r, List.mem_filter.mpr ⟨hr, by simp [hexpired]⟩, rfl⟩
    · exact Or.inl ⟨r, hr, rfl⟩
  | _ => exact Or.inl ⟨r, hr, rfl⟩

end Outbox

section Coverage
variable (listener : Listener) (s : OutboxState) (k : Connection) (c latest : ℕ)

/-- What is committed after the handler read `latest` reaches the queue before it is marked. -/
def ReachesQueue : Prop :=
  ∀ e ∈ s.committed, eventVisible listener e = true → latest < e.sequence →
    e ∈ k.queue ∨ e ∈ k.forwarded ∨ s.Waits e

/-- The read of the events will find what the client has missed. -/
def FindsMissed (cutoff : Time) : Prop :=
  ∀ e ∈ s.committed, eventVisible listener e = true → c < e.sequence → e.sequence ≤ latest →
    e ∈ replayRows s.outbox c latest cutoff

/-- What the client has missed is sent, or among the rows to be sent. -/
def SendsMissed (rest : List OutboxEvent) : Prop :=
  ∀ e ∈ s.committed, eventVisible listener e = true → c < e.sequence → e.sequence ≤ latest →
    e ∈ k.replayed ∨ e ∈ rest

/-- What the handler has made sure of, by its phase. -/
def Follows : Prop :=
  match k.phase with
  | .sized _ latest => latest ≤ s.eventSequence ∧ ReachesQueue listener s k latest
  | .measured cutoff latest oldest => latest ≤ s.eventSequence ∧ ReachesQueue listener s k latest ∧
    (k.needsResync latest oldest = false → FindsMissed listener s c latest cutoff)
  | .ready cutoff latest => latest ≤ s.eventSequence ∧ ReachesQueue listener s k latest ∧
    FindsMissed listener s c latest cutoff
  | .replaying latest rest => latest ≤ s.eventSequence ∧ ReachesQueue listener s k latest ∧
    SendsMissed listener s k c latest rest
  | .draining latest | .live latest => latest ≤ s.eventSequence ∧ ReachesQueue listener s k latest ∧
    SendsMissed listener s k c latest []
  | _ => True

end Coverage

theorem mem_replayRows {outbox : List OutboxRow} {c latest : ℕ} {cutoff : Time} {e : OutboxEvent} :
    e ∈ replayRows outbox c latest cutoff ↔
      (∃ r ∈ outbox, r.event = e) ∧ c < e.sequence ∧ e.sequence ≤ latest ∧ cutoff ≤ e.occurredAt := by
  simp [replayRows, and_assoc]

section Steps
variable {settings : RealtimeSettings} {incidentId : Id} {listener : Listener} {s t : OutboxState}
  {k m : Connection} {c latest : ℕ} {cutoff : Time} {x : RealtimeStep} {rest : List OutboxEvent}

/-- A gap is closed in every phase after the ready frame. -/
theorem Follows.noGap {s : RealtimeState}
    (h : ∀ c, s.connection.lastSequence = some c → Follows listener s.toOutboxState s.connection c) :
    NoGap listener s := by
  intro c hc hanswered e he hvisible hlt
  have hfollows := h c hc
  have hqueue : ∀ latest, ReachesQueue listener s.toOutboxState s.connection latest →
      latest < e.sequence → e ∈ s.connection.sent ∨ e ∈ s.connection.queue ∨
        e ∈ s.connection.toReplay s.outbox ∨ e ∈ s.unpublished := by
    intro latest hreach hlater
    rcases hreach e he hvisible hlater with hqueued | hforwarded | hwaits
    · exact Or.inr (Or.inl hqueued)
    · exact Or.inl (List.mem_append_right _ hforwarded)
    · exact Or.inr (Or.inr (Or.inr hwaits.1))
  have hcursor : ∀ latest, s.connection.cursor latest = c := fun latest => by
    rw [Connection.cursor, hc, Option.getD_some]
  unfold Follows at hfollows
  cases hphase : s.connection.phase with
  | ready cutoff latest =>
    rw [hphase] at hfollows
    by_cases hlater : latest < e.sequence
    · exact hqueue latest hfollows.2.1 hlater
    · refine Or.inr (Or.inr (Or.inl ?_))
      rw [Connection.toReplay, hphase]
      dsimp only
      rw [hcursor]
      exact hfollows.2.2 e he hvisible hlt (not_lt.mp hlater)
  | replaying latest rest =>
    rw [hphase] at hfollows
    by_cases hlater : latest < e.sequence
    · exact hqueue latest hfollows.2.1 hlater
    · rcases hfollows.2.2 e he hvisible hlt (not_lt.mp hlater) with hsent | hrest
      · exact Or.inl (List.mem_append_left _ hsent)
      · refine Or.inr (Or.inr (Or.inl ?_))
        rw [Connection.toReplay, hphase]
        exact hrest
  | draining latest | live latest =>
    rw [hphase] at hfollows
    by_cases hlater : latest < e.sequence
    · exact hqueue latest hfollows.2.1 hlater
    · rcases hfollows.2.2 e he hvisible hlt (not_lt.mp hlater) with hsent | hrest
      · exact Or.inl (List.mem_append_left _ hsent)
      · exact nomatch hrest
  | _ =>
    rw [hphase] at hanswered
    exact nomatch hanswered

theorem ReachesQueue.step (h : ReachesQueue listener s k latest) (hs : s.Kept)
    (hkeeps : ∀ e, latest < e.sequence → e ∈ k.queue ∨ e ∈ k.forwarded →
      e ∈ m.queue ∨ e ∈ m.forwarded)
    (hhanded : ∀ e, x = .publish → s.nextHanded = some e → eventVisible listener e = true →
      e ∈ m.queue) :
    ReachesQueue listener (outboxStep settings incidentId s x) m latest := by
  intro e he hvisible hlater
  rcases outboxStep_committed hs he with hold | ⟨-, hwaits⟩
  · rcases h e hold hvisible hlater with hqueued | hforwarded | hwaits
    · exact (hkeeps e hlater (Or.inl hqueued)).imp_right Or.inl
    · exact (hkeeps e hlater (Or.inr hforwarded)).imp_right Or.inl
    · rcases outboxStep_waits settings incidentId x hs hwaits with hwaits | ⟨hx, hnext⟩
      · exact Or.inr (Or.inr hwaits)
      · exact Or.inl (hhanded e hx hnext hvisible)
  · exact Or.inr (Or.inr hwaits)

theorem FindsMissed.step (h : FindsMissed listener s c latest cutoff) (hs : s.Kept)
    (hle : latest ≤ s.eventSequence)
    (hspares : ∀ started, x = .retain started → started ≤ s.now → ∀ r ∈ s.outbox,
      isExpired settings started r = true → eventVisible listener r.event = true →
      r.event.sequence ≤ latest → r.event.sequence ≤ c) :
    FindsMissed listener (outboxStep settings incidentId s x) c latest cutoff := by
  intro e he hvisible hmissed hreplayed
  rcases outboxStep_committed hs he with hold | ⟨hnew, -⟩
  · obtain ⟨⟨r, hr, rfl⟩, -, -, htime⟩ := mem_replayRows.mp (h e hold hvisible hmissed hreplayed)
    rcases outboxStep_rows settings incidentId x hr
      with ⟨q, hq, hevent⟩ | ⟨started, hx, hstarted, hexpired⟩
    · exact mem_replayRows.mpr ⟨⟨q, hq, hevent⟩, hmissed, hreplayed, htime⟩
    · have hseen := hspares started hx hstarted r hr hexpired hvisible hreplayed
      omega
  · omega

theorem SendsMissed.step {rest' : List OutboxEvent} (h : SendsMissed listener s k c latest rest)
    (hs : s.Kept) (hle : latest ≤ s.eventSequence)
    (hsends : ∀ e, eventVisible listener e = true → e ∈ k.replayed ∨ e ∈ rest →
      e ∈ m.replayed ∨ e ∈ rest') :
    SendsMissed listener (outboxStep settings incidentId s x) m c latest rest' := by
  intro e he hvisible hmissed hreplayed
  rcases outboxStep_committed hs he with hold | ⟨hnew, -⟩
  · exact hsends e hvisible (h e hold hvisible hmissed hreplayed)
  · omega

/-- A step of the outbox, that may queue the row the hub was given. -/
theorem Follows.outbox (h : Follows listener s k c) (hs : s.Kept) (hphase : m.phase = k.phase)
    (hlast : m.lastSequence = k.lastSequence) (hreplayed : m.replayed = k.replayed)
    (hforwarded : m.forwarded = k.forwarded) (hqueue : k.queue ⊆ m.queue)
    (hhanded : ∀ e, x = .publish → s.nextHanded = some e → eventVisible listener e = true →
      e ∈ m.queue)
    (hspares : ∀ started latest, x = .retain started → k.phase.awaitsReplay = some latest →
      started ≤ s.now → ∀ r ∈ s.outbox, isExpired settings started r = true →
      eventVisible listener r.event = true → r.event.sequence ≤ latest → r.event.sequence ≤ c) :
    Follows listener (outboxStep settings incidentId s x) m c := by
  have hreach : ∀ latest, ReachesQueue listener s k latest →
      ReachesQueue listener (outboxStep settings incidentId s x) m latest := by
    intro latest hlatest
    refine hlatest.step hs (fun e _ => Or.imp (fun he => hqueue he) fun he => ?_) hhanded
    rwa [hforwarded]
  have hsize := outboxStep_eventSequence_le settings incidentId s x
  unfold Follows at h ⊢
  rw [hphase]
  cases hk : k.phase with
  | sized cutoff latest =>
    rw [hk] at h
    exact ⟨h.1.trans hsize, hreach latest h.2⟩
  | measured cutoff latest oldest =>
    rw [hk] at h
    refine ⟨h.1.trans hsize, hreach latest h.2.1, fun hresync => ?_⟩
    have hmissed := h.2.2 (by rwa [Connection.needsResync, Connection.replayRequired,
      Connection.cursor, ← hlast])
    exact hmissed.step hs h.1 fun started hx => hspares started latest hx (by rw [hk]; rfl)
  | ready cutoff latest =>
    rw [hk] at h
    refine ⟨h.1.trans hsize, hreach latest h.2.1, ?_⟩
    exact h.2.2.step hs h.1 fun started hx => hspares started latest hx (by rw [hk]; rfl)
  | replaying latest rest =>
    rw [hk] at h
    refine ⟨h.1.trans hsize, hreach latest h.2.1, ?_⟩
    exact h.2.2.step hs h.1 fun e _ => by rw [hreplayed]; exact id
  | draining latest | live latest =>
    rw [hk] at h
    refine ⟨h.1.trans hsize, hreach latest h.2.1, ?_⟩
    exact h.2.2.step hs h.1 fun e _ => by rw [hreplayed]; exact id
  | _ => trivial

/-- When the oldest row of the window is no later than the first missed event, all missed events
are still there, and in the window. -/
theorem findsMissed_of_oldest (hs : s.Kept) (hlast : k.lastSequence = some c)
    (hresync : k.needsResync latest (((s.outbox.filter fun r => cutoff ≤ r.event.occurredAt).map
      (·.event.sequence)).min?) = false) :
    FindsMissed listener s c latest cutoff := by
  intro e he _ hmissed hreplayed
  have hbehind : c < latest := hmissed.trans_le hreplayed
  cases holdest : ((s.outbox.filter fun r => cutoff ≤ r.event.occurredAt).map
      (·.event.sequence)).min? with
  | none => simp [holdest, Connection.needsResync, Connection.replayRequired, hlast, hbehind] at hresync
  | some o =>
    have ho : o ≤ c + 1 := by
      simpa [holdest, Connection.needsResync, Connection.replayRequired, Connection.cursor, hlast,
        hbehind] using hresync
    obtain ⟨r, hr, rfl⟩ := List.mem_map.mp (List.min?_mem holdest)
    obtain ⟨hrow, htime⟩ := List.mem_filter.mp hr
    have hfirst : r.event.sequence ≤ e.sequence := ho.trans hmissed
    obtain ⟨q, hq, hevent⟩ := List.mem_map.mp
      (mem_of_suffix hs.increasing hs.rows (List.mem_map_of_mem hrow) he hfirst)
    refine mem_replayRows.mpr ⟨⟨q, hq, hevent⟩, hmissed, hreplayed, ?_⟩
    refine (of_decide_eq_true htime).trans ?_
    rcases hfirst.lt_or_eq with hlt | heq
    · have hpast := related_of_key_lt hs.increasing hs.monotone (hs.mem_committed hrow) he hlt
      exact hpast
    · rw [key_injective hs.increasing (hs.mem_committed hrow) he heq]

theorem hubPublish_follows (h : Follows listener s k c) (hs : s.Kept) {e : OutboxEvent}
    (hnext : s.nextHanded = some e) :
    Follows listener (outboxStep settings incidentId s .publish) (hubPublish settings listener k e) c := by
  have hother : ∀ started latest, RealtimeStep.publish = .retain started →
      k.phase.awaitsReplay = some latest → started ≤ s.now → ∀ r ∈ s.outbox,
      isExpired settings started r = true → eventVisible listener r.event = true →
      r.event.sequence ≤ latest → r.event.sequence ≤ c := fun _ _ hx => nomatch hx
  have hfirst : ∀ f, s.nextHanded = some f → f = e := fun f hf =>
    Option.some.inj (hf.symm.trans hnext)
  unfold hubPublish
  split_ifs with hpassed hfull
  · by_cases hvisible : eventVisible listener e = true
    · have hphase : k.phase.isRegistered = false := by simpa [hvisible] using hpassed
      unfold Follows
      cases hk : k.phase <;> first | trivial | (rw [hk] at hphase; exact nomatch hphase)
    · refine h.outbox hs rfl rfl rfl rfl (List.Subset.refl _) ?_ hother
      exact fun f _ hf hseen => absurd (hfirst f hf ▸ hseen) hvisible
  · trivial
  · refine h.outbox hs rfl rfl rfl rfl (List.subset_append_left _ _) ?_ hother
    exact fun f _ hf _ => hfirst f hf ▸ List.mem_append_right _ (List.mem_singleton.mpr rfl)

theorem replayNext_follows (h : SendsMissed listener s k c latest rest)
    (hle : latest ≤ s.eventSequence) (hreach : ReachesQueue listener s k latest) :
    Follows listener s (k.replayNext listener latest rest) c := by
  cases rest with
  | nil => exact ⟨hle, hreach, h⟩
  | cons e rest =>
    refine ⟨hle, hreach, fun f hf hvisible hmissed hreplayed => ?_⟩
    rcases h f hf hvisible hmissed hreplayed with hsent | hrest
    · left
      dsimp only [Connection.replayNext]
      split
      · exact List.mem_append_left _ hsent
      · exact hsent
    · rcases List.mem_cons.mp hrest with rfl | hrest
      · left
        simp [Connection.replayNext, hvisible]
      · exact Or.inr hrest

theorem drainNext_follows (h : SendsMissed listener s k c latest []) (hle : latest ≤ s.eventSequence)
    (hreach : ReachesQueue listener s k latest) (hphase : k.phase = .draining latest) :
    Follows listener s (k.drainNext latest) c := by
  unfold Connection.drainNext
  split
  · exact ⟨hle, hreach, h⟩
  · rename_i e queue hqueue
    unfold Follows
    dsimp only
    rw [hphase]
    refine ⟨hle, fun f hf hvisible hlater => ?_, h⟩
    dsimp only
    rcases hreach f hf hvisible hlater with hqueued | hforwarded | hwaits
    · rcases List.mem_cons.mp (hqueue ▸ hqueued) with rfl | hqueued
      · rw [if_pos hlater]
        exact Or.inr (Or.inl (List.mem_append_right _ (List.mem_singleton.mpr rfl)))
      · exact Or.inl hqueued
    · right
      left
      split
      · exact List.mem_append_left _ hforwarded
      · exact hforwarded
    · exact Or.inr (Or.inr hwaits)

theorem forwardNext_follows (h : SendsMissed listener s k c latest []) (hle : latest ≤ s.eventSequence)
    (hreach : ReachesQueue listener s k latest) (hphase : k.phase = .live latest) :
    Follows listener s k.forwardNext c := by
  unfold Connection.forwardNext
  split
  · unfold Follows
    rw [hphase]
    exact ⟨hle, hreach, h⟩
  · rename_i e queue hqueue
    unfold Follows
    dsimp only
    rw [hphase]
    refine ⟨hle, fun f hf hvisible hlater => ?_, h⟩
    rcases hreach f hf hvisible hlater with hqueued | hforwarded | hwaits
    · rcases List.mem_cons.mp (hqueue ▸ hqueued) with rfl | hqueued
      · exact Or.inr (Or.inl (List.mem_append_right _ (List.mem_singleton.mpr rfl)))
      · exact Or.inl hqueued
    · exact Or.inr (Or.inl (List.mem_append_left _ hforwarded))
    · exact Or.inr (Or.inr hwaits)

/-- **A step that spares the replay keeps the handler on its course.** -/
theorem connectionStep_follows (h : Follows listener s k c) (hs : s.Kept)
    (hlast : k.lastSequence = some c) (hspares : SparesReplay settings listener ⟨s, k⟩ x) :
    Follows listener (outboxStep settings incidentId s x) (connectionStep settings listener s k x) c := by
  have hcursor : ∀ latest, k.cursor latest = c := fun latest => by
    rw [Connection.cursor, hlast, Option.getD_some]
  have houtbox : x ≠ .publish → Follows listener (outboxStep settings incidentId s x) k c := by
    intro hx
    refine h.outbox hs rfl rfl rfl rfl (List.Subset.refl _) (fun e hpublish => absurd hpublish hx) ?_
    rintro started latest rfl hawaits hstarted r hr hexpired hvisible hle
    exact hcursor latest ▸ hspares latest hawaits hstarted r hr hexpired hvisible hle
  cases x with
  | publish =>
    cases hnext : s.nextHanded with
    | none =>
      simp only [connectionStep, hnext, Option.elim_none]
      refine h.outbox hs rfl rfl rfl rfl (List.Subset.refl _) ?_ fun _ _ hx => nomatch hx
      exact fun e _ he => nomatch hnext.symm.trans he
    | some e =>
      simp only [connectionStep, hnext, Option.elim_some]
      exact hubPublish_follows h hs hnext
  | register =>
    simp only [connectionStep]
    split
    · trivial
    · exact h
  | readClock =>
    simp only [connectionStep]
    split
    · trivial
    · exact h
  | readIncident =>
    simp only [connectionStep]
    split
    · refine ⟨le_rfl, fun e he _ hlater => ?_⟩
      exact absurd (hs.bounded e he) hlater.not_ge
    · exact h
  | readOldest =>
    simp only [connectionStep]
    split
    · rename_i cutoff latest hphase
      rw [Follows, hphase] at h
      exact ⟨h.1, h.2, fun hresync => findsMissed_of_oldest hs hlast hresync⟩
    · exact h
  | answer =>
    simp only [connectionStep]
    split
    · rename_i cutoff latest oldest hphase
      rw [Follows, hphase] at h
      by_cases hresync : k.needsResync latest oldest = true
      · rw [if_pos hresync]
        trivial
      · rw [if_neg hresync]
        exact ⟨h.1, h.2.1, h.2.2 (by simpa using hresync)⟩
    · exact h
  | readEvents =>
    simp only [connectionStep]
    split
    · rename_i cutoff latest hphase
      rw [Follows, hphase] at h
      by_cases hbehind : k.replayRequired latest = true
      · rw [if_pos hbehind]
        refine ⟨h.1, h.2.1, fun e he hvisible hmissed hreplayed => Or.inr ?_⟩
        rw [hcursor]
        exact h.2.2 e he hvisible hmissed hreplayed
      · rw [if_neg hbehind]
        refine ⟨h.1, h.2.1, fun e he hvisible hmissed hreplayed => ?_⟩
        exact absurd (by simpa [Connection.replayRequired, hlast] using hmissed.trans_le hreplayed)
          hbehind
    · exact h
  | replay =>
    simp only [connectionStep]
    split
    · rename_i latest rest hphase
      rw [Follows, hphase] at h
      exact replayNext_follows h.2.2 h.1 h.2.1
    · exact h
  | drain =>
    simp only [connectionStep]
    split
    · rename_i latest hphase
      rw [Follows, hphase] at h
      exact drainNext_follows h.2.2 h.1 h.2.1 hphase
    · exact h
  | forward =>
    simp only [connectionStep]
    split
    · rename_i latest hphase
      rw [Follows, hphase] at h
      exact forwardNext_follows h.2.2 h.1 h.2.1 hphase
    · exact h
  | close => trivial
  | _ => exact houtbox nofun

theorem connectionStep_lastSequence (settings : RealtimeSettings) (listener : Listener)
    (s : OutboxState) (k : Connection) (x : RealtimeStep) :
    (connectionStep settings listener s k x).lastSequence = k.lastSequence := by
  cases x with
  | publish =>
    simp only [connectionStep]
    cases s.nextHanded with
    | none => rfl
    | some e =>
      simp only [Option.elim_some, hubPublish]
      split_ifs <;> rfl
  | replay =>
    simp only [connectionStep]
    split
    · unfold Connection.replayNext
      split <;> rfl
    · rfl
  | drain =>
    simp only [connectionStep]
    split
    · unfold Connection.drainNext
      split <;> rfl
    · rfl
  | forward =>
    simp only [connectionStep]
    split
    · unfold Connection.forwardNext
      split <;> rfl
    · rfl
  | register | readClock | readIncident | readOldest | answer | readEvents =>
    simp only [connectionStep]
    split <;> rfl
  | _ => rfl

end Steps

/-- **There is no gap in what a client is sent** in any state of a run whose retention passes
spare the events its replay needs. -/
theorem missed_events_are_sent_or_pending (settings : RealtimeSettings) (incidentId : Id)
    (listener : Listener) (now : Time) (lastSequence : Option ℕ) (steps : List RealtimeStep)
    (h : Along (realtimeStep settings incidentId listener) (SparesReplay settings listener)
      (.initial now lastSequence) steps) :
    NoGap listener (realtimeRun settings incidentId listener now lastSequence steps) := by
  have hrun := run_invariant (realtimeStep settings incidentId listener)
    (I := fun s => s.Kept ∧ ∀ c, s.connection.lastSequence = some c →
      Follows listener s.toOutboxState s.connection c)
    (fun s x hs hspares => ?_)
    (s := .initial now lastSequence) ⟨OutboxState.initial_kept now, fun _ _ => trivial⟩ h
  · exact Follows.noGap hrun.2
  · refine ⟨outboxStep_kept hs.1 settings incidentId x, fun c hc => ?_⟩
    have hlast := (connectionStep_lastSequence settings listener s.toOutboxState s.connection x).symm.trans hc
    exact connectionStep_follows (hs.2 c hlast) hs.1 hlast hspares

namespace Sample

def notice : Event :=
  { eventType := "report.created"
    resourceType := .report
    resourceId := some 0
    resourceRevision := some 1
    payload := [] }

def realtime : RealtimeSettings := ⟨24, 1000⟩
def operator : Listener := ⟨admin, none⟩

abbrev watched (steps : List RealtimeStep) : RealtimeState :=
  realtimeRun realtime 0 operator 0 (some 0) steps

/-- An event is published, and a client that has seen nothing connects a day later. -/
def connecting : List RealtimeStep :=
  [.commit 0 [notice], .readBatch 1, .publish, .mark, .tick 86400000000, .register, .readClock,
    .readIncident, .readOldest]

def replayed : List RealtimeStep := connecting ++ [.answer, .readEvents, .replay]

/-- A retention pass runs before the handler reads the events. -/
def trimmed : List RealtimeStep := connecting ++ [.tick 1, .retain 86400000001, .answer, .readEvents]

end Sample

theorem replayed_event_is_sent : NoGap Sample.operator (Sample.watched Sample.replayed) :=
  missed_events_are_sent_or_pending Sample.realtime 0 Sample.operator 0 (some 0) Sample.replayed
    (by simp [Sample.replayed, Sample.connecting, Along, SparesReplay])

/-- The event is neither sent nor queued nor replayed nor published again. -/
theorem trimmed_event_is_missed : ¬ NoGap Sample.operator (Sample.watched Sample.trimmed) := by
  intro h
  rcases h 0 rfl rfl _ (List.mem_singleton.mpr rfl) rfl Nat.zero_lt_one with hsent | hqueue | hreplay | hwaits
  · exact List.not_mem_nil hsent
  · exact List.not_mem_nil hqueue
  · exact List.not_mem_nil hreplay
  · exact List.not_mem_nil hwaits

end CrisisMosaic
