import CrisisMosaic.Reachable
import CrisisMosaic.Realtime
import CrisisMosaic.Relational.Keeps
import CrisisMosaic.Relational.Table

/-!
# The publication of one envelope

The outbox worker hands an envelope to the hub, which puts it into the queues of the
connections one by one and closes those that are full. When a call of `close` raises,
the worker leaves the row unpublished and hands it over again. Connections come, go and
send what they have queued at any time in between.
-/

namespace CrisisMosaic
open Relational

/-- `closeMayRaise` says that a call of `close` on the socket may raise. -/
structure HubConnection where
  incidentId : Id
  listener : Listener
  queue : List OutboxEvent
  closeMayRaise : Bool
  registered : Bool

/-- `targets` are the connections a running call of `publish` has yet to come to. `enqueued` are the
connections that were given the envelope, as often as they were. -/
structure HubState where
  connections : Table HubConnection
  targets : Option (List Id)
  published : Bool
  enqueued : List Id

inductive HubStep
  /-- The worker calls `publish`, which lists the set of connections in some order. -/
  | hand (targets : List Id)
  /-- `publish` comes to the next connection. -/
  | visit (raises : Bool)
  | forward (connection : Id)
  | leave (connection : Id)
  | join (incidentId : Id) (listener : Listener) (closeMayRaise : Bool)

namespace HubConnection
variable (settings : RealtimeSettings) (e : OutboxEvent) (c : HubConnection)

def isFull : Bool := 0 < settings.realtimeQueueSize && settings.realtimeQueueSize ≤ c.queue.length

def sees : Bool := c.incidentId = e.incidentId && eventVisible c.listener e

def put : HubConnection := { c with queue := c.queue ++ [e] }

def sent : HubConnection := { c with queue := c.queue.tail }

def removed : HubConnection := { c with registered := false }

/-- The envelope is for the connection, and there is room in its queue. -/
def receives : Bool := c.registered && c.sees e && !c.isFull settings

def overflows : Bool := c.registered && c.sees e && c.isFull settings

end HubConnection

namespace HubState
variable (settings : RealtimeSettings) (e : OutboxEvent) (s : HubState)

def start (connections : Table HubConnection) : HubState := ⟨connections, none, false, []⟩

def registered : List Id := s.connections.select (·.registered)

/-- One turn of the loop of `publish`. After the last one the worker marks the row; a call of `close`
that raises ends the loop, and the connection stays in the hub. -/
def visit (raises : Bool) : HubState :=
  match s.targets with
  | none => s
  | some [] => { s with targets := none, published := true }
  | some (i :: rest) =>
    match s.connections.get i with
    | none => { s with targets := some rest }
    | some c =>
      if !c.sees e then { s with targets := some rest }
      else if c.isFull settings then
        if raises && c.closeMayRaise then { s with targets := none }
        else
          { s with
            connections := s.connections.modify i HubConnection.removed
            targets := some rest }
      else
        { s with
          connections := s.connections.modify i (HubConnection.put e)
          targets := some rest
          enqueued := s.enqueued ++ [i] }

end HubState

def hubStep (settings : RealtimeSettings) (e : OutboxEvent) (s : HubState) : HubStep → HubState
  | .hand targets =>
    if s.targets = none ∧ s.published = false ∧ targets.Perm s.registered then
      { s with targets := some targets }
    else s
  | .visit raises => s.visit settings e raises
  | .forward i => { s with connections := s.connections.modify i HubConnection.sent }
  | .leave i => { s with connections := s.connections.modify i HubConnection.removed }
  | .join incidentId listener closeMayRaise =>
    { s with connections := s.connections.insert ⟨incidentId, listener, [], closeMayRaise, true⟩ }

/-- A connection with room for the envelope is given it once at most, and exactly once when the row is
published, unless the connection has left; a call of `publish` that has begun gets to its end. -/
def DeliversOnce (settings : RealtimeSettings) (e : OutboxEvent) (hub : Table HubConnection) : Prop :=
  ∀ steps : List HubStep, let s := run (hubStep settings e) (.start hub) steps
    ∀ i c, hub.get i = some c → c.receives settings e = true →
      s.enqueued.count i ≤ 1 ∧ (s.published = true → .leave i ∉ steps → s.enqueued.count i = 1) ∧
        ∀ (rest : List Id) (turns : List Bool), s.targets = some rest → turns.length = rest.length + 1 →
          (run (hubStep settings e) s (turns.map .visit)).published = true

end CrisisMosaic

/-!
## Who gets a published envelope

While no full connection can fail to close, the first call of `publish` reaches every
connection. Otherwise the call may end early, and the next one gives the envelope again
to the connections that have it.
-/

namespace CrisisMosaic
open Relational

section Turns
variable {settings : RealtimeSettings} {e : OutboxEvent} {s t : HubState} {raises : Bool}

/-- What one turn of the loop does. -/
inductive HubState.Turn (settings : RealtimeSettings) (e : OutboxEvent) (s : HubState) : HubState → Prop
  | idle : s.targets = none → Turn settings e s s
  | finished : s.targets = some [] → Turn settings e s { s with targets := none, published := true }
  | passed {i : Id} {rest : List Id} : s.targets = some (i :: rest) →
      (∀ c, s.connections.get i = some c → c.sees e = false) →
      Turn settings e s { s with targets := some rest }
  | failed {i : Id} {rest : List Id} {c : HubConnection} : s.targets = some (i :: rest) →
      s.connections.get i = some c → c.sees e = true → c.isFull settings = true →
      c.closeMayRaise = true → Turn settings e s { s with targets := none }
  | closed {i : Id} {rest : List Id} {c : HubConnection} : s.targets = some (i :: rest) →
      s.connections.get i = some c → c.sees e = true → c.isFull settings = true →
      Turn settings e s { s with
        connections := s.connections.modify i HubConnection.removed
        targets := some rest }
  | given {i : Id} {rest : List Id} {c : HubConnection} : s.targets = some (i :: rest) →
      s.connections.get i = some c → c.sees e = true → c.isFull settings = false →
      Turn settings e s { s with
        connections := s.connections.modify i (HubConnection.put e)
        targets := some rest
        enqueued := s.enqueued ++ [i] }

theorem visit_turn (settings : RealtimeSettings) (e : OutboxEvent) (s : HubState) (raises : Bool) :
    s.Turn settings e (s.visit settings e raises) := by
  unfold HubState.visit
  split
  · exact .idle ‹_›
  · exact .finished ‹_›
  · next i rest htargets =>
    cases hget : s.connections.get i with
    | none => exact .passed htargets fun c hc => by simp [hget] at hc
    | some c =>
      dsimp only
      split_ifs with hsees hfull hraises
      · refine .passed htargets fun d hd => ?_
        obtain rfl := Option.some.inj (hget.symm.trans hd)
        simpa using hsees
      · simp only [Bool.and_eq_true] at hraises
        exact .failed htargets hget (by simpa using hsees) hfull hraises.2
      · exact .closed htargets hget (by simpa using hsees) hfull
      · exact .given htargets hget (by simpa using hsees) (by simpa using hfull)

theorem visit_given {i : Id} {rest : List Id} {c : HubConnection} (htargets : s.targets = some (i :: rest))
    (hget : s.connections.get i = some c) (hsees : c.sees e = true) (hroom : c.isFull settings = false) :
    s.visit settings e raises =
      { s with
        connections := s.connections.modify i (HubConnection.put e)
        targets := some rest
        enqueued := s.enqueued ++ [i] } := by
  simp [HubState.visit, htargets, hget, hsees, hroom]

theorem visit_failed {i : Id} {rest : List Id} {c : HubConnection} (htargets : s.targets = some (i :: rest))
    (hget : s.connections.get i = some c) (hsees : c.sees e = true) (hfull : c.isFull settings = true)
    (hraise : c.closeMayRaise = true) : s.visit settings e true = { s with targets := none } := by
  simp [HubState.visit, htargets, hget, hsees, hfull, hraise]

theorem HubConnection.isFull_sent {c : HubConnection} (h : c.isFull settings = false) :
    c.sent.isFull settings = false := by
  have hlength : c.sent.queue.length ≤ c.queue.length := by simp [HubConnection.sent]
  simp only [HubConnection.isFull, Bool.and_eq_false_iff, decide_eq_false_iff_not] at h ⊢
  refine h.imp_right fun hlt hle => hlt (hle.trans ?_)
  exact_mod_cast hlength

theorem HubConnection.isFull_empty (settings : RealtimeSettings) {c : HubConnection} (h : c.queue = []) :
    c.isFull settings = false := by
  simp only [HubConnection.isFull, h, List.length_nil, Bool.and_eq_false_iff, decide_eq_false_iff_not]
  by_cases hsize : 0 < settings.realtimeQueueSize
  · exact Or.inr (by simpa using hsize)
  · exact Or.inl hsize

end Turns

section Runs
variable {settings : RealtimeSettings} {e : OutboxEvent} {s : HubState} {x : Id}

/-- No full connection that is still to come can fail to close. -/
def HubState.Closes (settings : RealtimeSettings) (e : OutboxEvent) (s : HubState) (i : Id) : Prop :=
  ∀ c, s.connections.get i = some c → c.sees e = true → c.isFull settings = true →
    c.closeMayRaise = false

structure HubState.Orderly (settings : RealtimeSettings) (e : OutboxEvent) (s : HubState) : Prop where
  once : s.enqueued.Nodup
  waiting : s.targets = none → s.published = false →
    s.enqueued = [] ∧ ∀ i ∈ s.registered, s.Closes settings e i
  running : ∀ rest, s.targets = some rest → s.published = false ∧ rest.Nodup ∧
    ∀ i ∈ rest, i ∉ s.enqueued ∧ s.Closes settings e i

theorem mem_registered {i : Id} : i ∈ s.registered ↔
    ∃ c, s.connections.get i = some c ∧ c.registered = true := Table.mem_select

/-- Rewriting rows so that none becomes full or comes back keeps what is said of them. -/
theorem HubState.Orderly.rewrite (h : s.Orderly settings e) (k : Id) {f : HubConnection → HubConnection}
    (hf : ∀ c, (f c).sees e = c.sees e ∧ (f c).closeMayRaise = c.closeMayRaise ∧
      ((f c).isFull settings = true → c.isFull settings = true) ∧
      ((f c).registered = true → c.registered = true)) :
    HubState.Orderly settings e { s with connections := s.connections.modify k f } := by
  have hcloses : ∀ i, s.Closes settings e i →
      HubState.Closes settings e { s with connections := s.connections.modify k f } i := by
    intro i hi c hc hsees hfull
    rcases Table.get_modify_cases hc with ⟨rfl, a, ha, rfl⟩ | ⟨-, hc⟩
    · obtain ⟨hsame, hraise, hroom, -⟩ := hf a
      rw [hraise]
      exact hi a ha (hsame ▸ hsees) (hroom hfull)
    · exact hi c hc hsees hfull
  refine ⟨h.once, fun hidle hopen => ?_, fun rest hrest => ?_⟩
  · obtain ⟨hnil, hall⟩ := h.waiting hidle hopen
    refine ⟨hnil, fun i hi => hcloses i (hall i ?_)⟩
    obtain ⟨c, hc, hreg⟩ := mem_registered.mp hi
    rcases Table.get_modify_cases hc with ⟨rfl, a, ha, rfl⟩ | ⟨-, hc⟩
    · exact mem_registered.mpr ⟨a, ha, (hf a).2.2.2 hreg⟩
    · exact mem_registered.mpr ⟨c, hc, hreg⟩
  · obtain ⟨hopen, hnodup, hall⟩ := h.running rest hrest
    exact ⟨hopen, hnodup, fun i hi => ⟨(hall i hi).1, hcloses i (hall i hi).2⟩⟩

theorem HubState.Orderly.next {i : Id} {rest : List Id} (h : s.Orderly settings e)
    (htargets : s.targets = some (i :: rest)) :
    HubState.Orderly settings e { s with targets := some rest } := by
  obtain ⟨hopen, hnodup, hall⟩ := h.running _ htargets
  refine ⟨h.once, fun hidle => (nomatch hidle), fun rest' hrest => ?_⟩
  obtain rfl := Option.some.inj hrest
  exact ⟨hopen, hnodup.of_cons, fun j hj => hall j (List.mem_cons_of_mem _ hj)⟩

theorem HubState.Orderly.turn {t : HubState} (h : s.Orderly settings e) (ht : s.Turn settings e t) :
    t.Orderly settings e := by
  cases ht with
  | idle => exact h
  | finished => exact ⟨h.once, fun _ hopen => (nomatch hopen), fun _ hrest => (nomatch hrest)⟩
  | passed htargets => exact h.next htargets
  | failed htargets hget hsees hfull hraise =>
    obtain ⟨-, -, hall⟩ := h.running _ htargets
    have hcloses := (hall _ List.mem_cons_self).2 _ hget hsees hfull
    exact absurd hraise (by simp [hcloses])
  | @closed i rest c htargets =>
    have hremoved := h.rewrite i (f := HubConnection.removed)
      fun c => ⟨rfl, rfl, id, fun hreg => (nomatch hreg)⟩
    exact hremoved.next htargets
  | @given i rest c htargets =>
    obtain ⟨hopen, hnodup, hall⟩ := h.running _ htargets
    have hi := hall i List.mem_cons_self
    obtain ⟨hnot, hrest⟩ := List.nodup_cons.mp hnodup
    refine ⟨?_, fun hidle => (nomatch hidle), fun rest' hsame => ?_⟩
    · exact List.nodup_append.mpr ⟨h.once, List.nodup_singleton i, fun a ha b hb => by
        obtain rfl := List.mem_singleton.mp hb
        exact fun hab => hi.1 (hab ▸ ha)⟩
    · obtain rfl := Option.some.inj hsame
      refine ⟨hopen, hrest, fun j hj => ?_⟩
      have hne : i ≠ j := fun hij => hnot (hij ▸ hj)
      obtain ⟨hfresh, hcloses⟩ := hall j (List.mem_cons_of_mem _ hj)
      refine ⟨?_, fun d hd => hcloses d ?_⟩
      · simp [hfresh, Ne.symm hne]
      · rwa [Table.get_modify_of_ne _ _ hne] at hd

theorem hubStep_orderly (h : s.Orderly settings e) (x : HubStep) :
    (hubStep settings e s x).Orderly settings e := by
  cases x with
  | hand targets =>
    unfold hubStep
    dsimp only
    split_ifs with hidle
    · obtain ⟨hnone, hopen, hperm⟩ := hidle
      obtain ⟨hnil, hall⟩ := h.waiting hnone hopen
      refine ⟨h.once, fun hnone => (nomatch hnone), fun rest hrest => ?_⟩
      obtain rfl := Option.some.inj hrest
      refine ⟨hopen, hperm.nodup_iff.mpr (Table.nodup_select _ _), fun i hi => ⟨?_, ?_⟩⟩
      · rw [hnil]
        exact List.not_mem_nil
      · exact hall i (hperm.mem_iff.mp hi)
    · exact h
  | visit raises => exact h.turn (visit_turn settings e s raises)
  | forward i =>
    refine h.rewrite i fun c => ⟨rfl, rfl, fun hfull => ?_, id⟩
    by_contra hroom
    rw [HubConnection.isFull_sent ((Bool.not_eq_true _).mp hroom)] at hfull
    exact nomatch hfull
  | leave i => exact h.rewrite i fun c => ⟨rfl, rfl, id, fun hreg => (nomatch hreg)⟩
  | join incidentId listener closeMayRaise =>
    obtain ⟨a, ha⟩ : ∃ a : HubConnection, a = ⟨incidentId, listener, [], closeMayRaise, true⟩ :=
      ⟨_, rfl⟩
    have hempty : a.isFull settings = false := HubConnection.isFull_empty settings (ha ▸ rfl)
    have hcloses : ∀ i, s.Closes settings e i →
        HubState.Closes settings e { s with connections := s.connections.insert a } i := by
      intro i hi c hc hsees hfull
      rcases Table.get_insert_cases hc with ⟨-, rfl⟩ | hc
      · rw [hempty] at hfull
        exact nomatch hfull
      · exact hi c hc hsees hfull
    change HubState.Orderly settings e { s with connections := s.connections.insert _ }
    rw [← ha]
    refine ⟨h.once, fun hidle hopen => ?_, fun rest hrest => ?_⟩
    · obtain ⟨hnil, hall⟩ := h.waiting hidle hopen
      refine ⟨hnil, fun i hi => ?_⟩
      obtain ⟨c, hc, hreg⟩ := mem_registered.mp hi
      rcases Table.get_insert_cases hc with ⟨rfl, rfl⟩ | hc
      · exact hcloses _ fun d hd => by simp at hd
      · exact hcloses i (hall i (mem_registered.mpr ⟨c, hc, hreg⟩))
    · obtain ⟨hopen, hnodup, hall⟩ := h.running rest hrest
      exact ⟨hopen, hnodup, fun i hi => ⟨(hall i hi).1, hcloses i (hall i hi).2⟩⟩

/-- The connection has the envelope, or the publication has yet to come to it. -/
def HubState.Reaches (settings : RealtimeSettings) (e : OutboxEvent) (x : Id) (s : HubState) : Prop :=
  x ∈ s.enqueued ∨ s.published = false ∧ (∀ rest, s.targets = some rest → x ∈ rest) ∧
    ∃ c, s.connections.get x = some c ∧ c.receives settings e = true

theorem HubConnection.receives_iff {c : HubConnection} : c.receives settings e = true ↔
    c.registered = true ∧ c.sees e = true ∧ c.isFull settings = false := by
  simp [HubConnection.receives, and_assoc]

theorem HubState.Reaches.turn {t : HubState} (h : s.Reaches settings e x) (ht : s.Turn settings e t) :
    t.Reaches settings e x := by
  rcases h with hgot | ⟨hopen, hin, c, hc, hreceives⟩
  · cases ht with
    | given => exact Or.inl (List.mem_append_left _ hgot)
    | _ => exact Or.inl hgot
  obtain ⟨hreg, hsees, hroom⟩ := HubConnection.receives_iff.mp hreceives
  cases ht with
  | idle => exact Or.inr ⟨hopen, hin, c, hc, hreceives⟩
  | finished hdone => exact nomatch hin _ hdone
  | @passed i rest htargets hblind =>
    rcases List.mem_cons.mp (hin _ htargets) with rfl | hx
    · exact absurd hsees (by simp [hblind c hc])
    · exact Or.inr ⟨hopen, fun rest' hrest => Option.some.inj hrest ▸ hx, c, hc, hreceives⟩
  | failed => exact Or.inr ⟨hopen, fun _ hrest => (nomatch hrest), c, hc, hreceives⟩
  | @closed i rest d htargets hd _ hfull =>
    have hxi : x ≠ i := by
      rintro rfl
      obtain rfl := Option.some.inj (hc.symm.trans hd)
      exact absurd hfull (by simp [hroom])
    have hx := (List.mem_cons.mp (hin _ htargets)).resolve_left hxi
    refine Or.inr ⟨hopen, fun rest' hrest => Option.some.inj hrest ▸ hx, c, ?_, hreceives⟩
    exact (Table.get_modify_of_ne _ _ (Ne.symm hxi)).trans hc
  | @given i rest d htargets hd =>
    by_cases hxi : x = i
    · exact Or.inl (by simp [hxi])
    · have hx := (List.mem_cons.mp (hin _ htargets)).resolve_left hxi
      refine Or.inr ⟨hopen, fun rest' hrest => Option.some.inj hrest ▸ hx, c, ?_, hreceives⟩
      exact (Table.get_modify_of_ne _ _ (Ne.symm hxi)).trans hc

theorem HubState.Reaches.rewrite (h : s.Reaches settings e x) (k : Id) {f : HubConnection → HubConnection}
    (hf : k = x → ∀ c, c.receives settings e = true → (f c).receives settings e = true) :
    HubState.Reaches settings e x { s with connections := s.connections.modify k f } := by
  rcases h with hgot | ⟨hopen, hin, c, hc, hreceives⟩
  · exact Or.inl hgot
  refine Or.inr ⟨hopen, hin, ?_⟩
  by_cases hkx : k = x
  · refine ⟨f c, ?_, hf hkx c hreceives⟩
    simp [hkx, hc]
  · exact ⟨c, (Table.get_modify_of_ne _ _ hkx).trans hc, hreceives⟩

theorem hubStep_reaches (h : s.Reaches settings e x) {y : HubStep} (hy : y ≠ .leave x) :
    (hubStep settings e s y).Reaches settings e x := by
  cases y with
  | hand targets =>
    unfold hubStep
    dsimp only
    split_ifs with hidle
    · refine h.imp_right fun ⟨hopen, _, c, hc, hreceives⟩ =>
        ⟨hopen, fun rest hrest => ?_, c, hc, hreceives⟩
      obtain rfl := Option.some.inj hrest
      have hreg := (HubConnection.receives_iff.mp hreceives).1
      exact hidle.2.2.mem_iff.mpr (mem_registered.mpr ⟨c, hc, hreg⟩)
    · exact h
  | visit raises => exact h.turn (visit_turn settings e s raises)
  | forward i =>
    refine h.rewrite i fun _ c hreceives => ?_
    obtain ⟨hreg, hsees, hroom⟩ := HubConnection.receives_iff.mp hreceives
    exact HubConnection.receives_iff.mpr ⟨hreg, hsees, HubConnection.isFull_sent hroom⟩
  | leave i => exact h.rewrite i fun hix => absurd (congrArg HubStep.leave hix) hy
  | join incidentId listener closeMayRaise =>
    refine h.imp_right fun ⟨hopen, hin, c, hc, hreceives⟩ => ⟨hopen, hin, c, ?_, hreceives⟩
    exact Table.get_insert_of_some _ hc

theorem run_orderly (h : s.Orderly settings e) (steps : List HubStep) :
    (run (hubStep settings e) s steps).Orderly settings e :=
  run_invariant (hubStep settings e) (I := fun s => s.Orderly settings e)
    (fun _ y hs _ => hubStep_orderly hs y) h (along_true _ s steps)

theorem run_visits (h : s.Orderly settings e) {rest : List Id} {turns : List Bool}
    (htargets : s.targets = some rest) (hlength : turns.length = rest.length + 1) :
    (run (hubStep settings e) s (turns.map .visit)).published = true := by
  induction rest generalizing s turns with
  | nil =>
    obtain ⟨raises, rfl⟩ := List.length_eq_one_iff.mp hlength
    simp [hubStep, HubState.visit, htargets]
  | cons i rest ih =>
    obtain ⟨raises, turns, rfl⟩ := List.exists_cons_of_length_eq_add_one hlength
    refine ih (hubStep_orderly h (.visit raises)) ?_ (Nat.succ.inj hlength)
    have hturn := visit_turn settings e s raises
    change (s.visit settings e raises).targets = some rest
    generalize s.visit settings e raises = t at hturn
    have hnext : ∀ {j rest'}, s.targets = some (j :: rest') → some rest' = some rest := by
      intro j rest' hsame
      exact congrArg some (List.cons.inj (Option.some.inj (hsame.symm.trans htargets))).2
    cases hturn with
    | idle hidle => exact absurd (hidle.symm.trans htargets) (by simp)
    | finished hdone => exact absurd (hdone.symm.trans htargets) (by simp)
    | passed hsame => exact hnext hsame
    | failed hsame hget hsees hfull hraise =>
      have hcloses := ((h.running _ hsame).2.2 _ List.mem_cons_self).2 _ hget hsees hfull
      exact absurd hraise (by simp [hcloses])
    | closed hsame => exact hnext hsame
    | given hsame => exact hnext hsame

theorem run_reaches (h : s.Reaches settings e x) {steps : List HubStep} (hstays : .leave x ∉ steps) :
    (run (hubStep settings e) s steps).Reaches settings e x := by
  refine run_invariant (hubStep settings e) (C := fun _ y => y ≠ .leave x)
    (I := fun s => s.Reaches settings e x)
    (fun _ _ hs hy => hubStep_reaches hs hy) h (along_of_forall _ fun y hy _ => ?_)
  exact fun hleave => hstays (hleave ▸ hy)

end Runs

section Deliveries
variable {settings : RealtimeSettings} {e : OutboxEvent} {hub : Table HubConnection}

/-- While every full connection closes when it is told to, each turn is the only one of its connection. -/
theorem delivers_of_closes
    (h : ∀ i c, hub.get i = some c → c.overflows settings e = true → c.closeMayRaise = false) :
    DeliversOnce settings e hub := by
  intro steps s i c hc hreceives
  have hstart : (HubState.start hub).Orderly settings e := by
    refine ⟨List.nodup_nil, fun _ _ => ⟨rfl, fun i hi d hd hsees hfull => ?_⟩,
      fun _ hrest => (nomatch hrest)⟩
    obtain ⟨c, hc, hreg⟩ := mem_registered.mp hi
    obtain rfl := Option.some.inj (hc.symm.trans hd)
    exact h i c hc (by simp [HubConnection.overflows, hreg, hsees, hfull])
  have hordered := run_orderly hstart steps
  refine ⟨List.nodup_iff_count_le_one.mp hordered.once i, fun hdone hstays => ?_,
    fun _ _ htargets hlength => run_visits hordered htargets hlength⟩
  have hwaits : (HubState.start hub).Reaches settings e i :=
    Or.inr ⟨rfl, fun _ hrest => absurd hrest (by simp [HubState.start]), c, hc, hreceives⟩
  have hreached : s.Reaches settings e i := run_reaches hwaits hstays
  rcases hreached with hgot | ⟨hopen, -⟩
  · exact List.count_eq_one_of_mem hordered.once hgot
  · exact absurd hdone (by simp [hopen])

/-- The call of `publish` starts with a connection that has room. -/
theorem hand_given {s : HubState} {x : Id} {rest : List Id} {c : HubConnection} (hidle : s.targets = none)
    (hopen : s.published = false) (hperm : (x :: rest).Perm s.registered)
    (hget : s.connections.get x = some c) (hsees : c.sees e = true) (hroom : c.isFull settings = false) :
    run (hubStep settings e) s [.hand (x :: rest), .visit false] =
      { s with
        connections := s.connections.modify x (HubConnection.put e)
        targets := some rest
        enqueued := s.enqueued ++ [x] } := by
  have hhand : hubStep settings e s (.hand (x :: rest)) = { s with targets := some (x :: rest) } :=
    if_pos ⟨hidle, hopen, hperm⟩
  rw [run_cons, run_cons, run_nil, hhand]
  exact visit_given (s := { s with targets := some (x :: rest) }) rfl hget hsees hroom

theorem registered_modify (s : HubState) (k : Id) {f : HubConnection → HubConnection}
    (hf : ∀ c, (f c).registered = c.registered) :
    HubState.registered { s with connections := s.connections.modify k f } = s.registered := by
  have hsame : s.connections.Related (fun c d => d.registered = c.registered) (s.connections.modify k f) :=
    Table.Related.modify (R := fun c d => d.registered = c.registered) (fun _ => rfl) _ fun c _ => hf c
  exact (hsame.select_eq fun _ _ _ _ _ hcd => hcd.symm).symm

/-- The call of `publish` comes to the one with room, and then to the one that does not close. The
first has sent what it had when the worker hands the envelope over again. -/
theorem given_twice {x d : Id} {a b : HubConnection} (ha : hub.get x = some a)
    (hreceives : a.receives settings e = true) (hb : hub.get d = some b)
    (hoverflows : b.overflows settings e = true) (hraise : b.closeMayRaise = true) :
    ¬ DeliversOnce settings e hub := by
  intro honce
  obtain ⟨hreg, hsees, hroom⟩ := HubConnection.receives_iff.mp hreceives
  simp only [HubConnection.overflows, Bool.and_eq_true] at hoverflows
  obtain ⟨⟨hregb, hseesb⟩, hfull⟩ := hoverflows
  have hxd : x ≠ d := by
    rintro rfl
    obtain rfl := Option.some.inj (ha.symm.trans hb)
    exact absurd hfull (by simp [hroom])
  obtain ⟨s, hs⟩ : ∃ s : HubState, s = .start hub := ⟨_, rfl⟩
  have hget : s.connections.get x = some a := by rw [hs]; exact ha
  have hgetd : s.connections.get d = some b := by rw [hs]; exact hb
  obtain ⟨rest, hperm⟩ : ∃ rest, (x :: d :: rest).Perm s.registered := by
    have hx : x ∈ s.registered := mem_registered.mpr ⟨a, hget, hreg⟩
    have hd : d ∈ s.registered := mem_registered.mpr ⟨b, hgetd, hregb⟩
    have hd' : d ∈ s.registered.erase x := (List.mem_erase_of_ne (Ne.symm hxd)).mpr hd
    refine ⟨(s.registered.erase x).erase d, .symm ?_⟩
    exact (List.perm_cons_erase hx).trans ((List.perm_cons_erase hd').cons x)
  obtain ⟨given, hgiven⟩ : ∃ t : HubState, t =
      { s with connections := s.connections.modify x (HubConnection.put e), enqueued := [x] } := ⟨_, rfl⟩
  obtain ⟨sent, hsent⟩ : ∃ t : HubState, t =
      { given with connections := given.connections.modify x HubConnection.sent } := ⟨_, rfl⟩
  have hgets : sent.connections.get x = some (a.put e).sent := by
    rw [hsent, hgiven]
    simp [hget]
  have hsame : sent.registered = s.registered := by
    rw [hsent]
    refine (registered_modify given x (f := HubConnection.sent) fun _ => rfl).trans ?_
    rw [hgiven]
    exact registered_modify s x (f := HubConnection.put e) fun _ => rfl
  have hroom' : (a.put e).sent.isFull settings = false := by
    simpa [HubConnection.isFull, HubConnection.sent, HubConnection.put] using hroom
  have hfirst : run (hubStep settings e) s [.hand (x :: d :: rest), .visit false] =
      { given with targets := some (d :: rest) } := by
    refine (hand_given (by rw [hs]; rfl) (by rw [hs]; rfl) hperm hget hsees hroom).trans ?_
    rw [hgiven, hs]
    rfl
  have hsecond : run (hubStep settings e) { given with targets := some (d :: rest) }
      [.visit true, .forward x] = { sent with targets := none } := by
    rw [run_cons, run_cons, run_nil]
    have hgetd : given.connections.get d = some b := by
      rw [hgiven]
      exact (Table.get_modify_of_ne _ _ hxd).trans hgetd
    have hfailed := visit_failed (s := { given with targets := some (d :: rest) }) rfl hgetd hseesb
      hfull hraise
    refine (congrArg (fun t => hubStep settings e t (.forward x)) hfailed).trans ?_
    rw [hsent]
    rfl
  have hthird : run (hubStep settings e) { sent with targets := none }
      [.hand (x :: d :: rest), .visit false] =
      { sent with
        connections := sent.connections.modify x (HubConnection.put e)
        targets := some (d :: rest)
        enqueued := [x, x] } := by
    have hopen : sent.published = false := by rw [hsent, hgiven, hs]; rfl
    refine (hand_given (s := { sent with targets := none }) rfl hopen ?_ hgets hsees hroom').trans ?_
    · exact hperm.trans (.of_eq hsame.symm)
    · rw [hsent, hgiven]
      rfl
  have htwice := (honce ([.hand (x :: d :: rest), .visit false] ++ [.visit true, .forward x] ++
    [.hand (x :: d :: rest), .visit false]) x a ha hreceives).1
  rw [← hs, run_append, run_append, hfirst, hsecond, hthird] at htwice
  simp at htwice

/-- A published envelope is given once to each connection with room for it, whichever order the
connections come in and whatever they do, exactly when no full one can fail to close. -/
theorem delivers_once_iff (settings : RealtimeSettings) (e : OutboxEvent) (hub : Table HubConnection) :
    DeliversOnce settings e hub ↔
      (∀ i c, hub.get i = some c → c.overflows settings e = true → c.closeMayRaise = false) ∨
        ∀ i c, hub.get i = some c → c.receives settings e = false := by
  constructor
  · intro honce
    by_contra hneither
    simp only [not_or, not_forall, Bool.not_eq_false] at hneither
    obtain ⟨⟨d, b, hb, hoverflows, hraise⟩, x, a, ha, hreceives⟩ := hneither
    exact given_twice ha hreceives hb hoverflows hraise honce
  · rintro (hcloses | hnone)
    · exact delivers_of_closes hcloses
    · intro steps s i c hc hreceives
      exact absurd hreceives (by simp [hnone i c hc])

end Deliveries

namespace Sample

def crowdedSettings : RealtimeSettings := ⟨24, 1⟩

def announced : OutboxEvent :=
  ⟨0, 2, "report.created", .public, .report, some 0, some 1, none, [], 5⟩

/-- The queue of the second connection is full, and its socket may fail to close. -/
def crowdedHub : Table HubConnection :=
  ⟨[⟨0, ⟨admin, none⟩, [], false, true⟩,
    ⟨0, ⟨admin, none⟩, [{ announced with sequence := 1 }], true, true⟩]⟩

end Sample

theorem crowded_hub_gives_twice :
    ¬ DeliversOnce Sample.crowdedSettings Sample.announced Sample.crowdedHub :=
  given_twice (x := 0) (d := 1) rfl (by decide +kernel) rfl (by decide +kernel) rfl

end CrisisMosaic
