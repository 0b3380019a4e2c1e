import CrisisMosaic.Events
import CrisisMosaic.Questions
import CrisisMosaic.Relational.Run

/-!
# Realtime delivery of the outbox

The events of one incident on their way to one client. Transactions append rows to the
outbox; the outbox loop hands unpublished rows to the hub and then marks them; the
retention pass deletes rows that were published long ago. The client connects with the
last sequence it has seen: its handler registers it in the hub, reads the database in
several statements, replays what the client missed, drains the queue and then forwards
whatever is queued. Each read, each frame and each commit is a step of its own.
-/

namespace CrisisMosaic
open Relational

structure RealtimeSettings where
  realtimeReplayHours : ℤ
  realtimeQueueSize : ℤ

/-- Who listens: the actor of the token, with the region of a device. -/
structure Listener where
  actor : Actor
  regionCode : Option String

/-- The row `emit_event` stores for the event. -/
def Event.stored (e : Event) (incidentId : Id) (sequence : ℕ) (occurredAt : Time) : OutboxEvent :=
  ⟨incidentId, sequence, e.eventType, e.visibility, e.resourceType, e.resourceId,
    e.resourceRevision, e.ownerDeviceId, e.payload, occurredAt⟩

theorem Feed.append_outbox (feed : Feed) (now : Time) (incidentId : Id) (e : Event) :
    (feed.append now incidentId e).outbox =
      feed.outbox.insert (e.stored incidentId (feed.sequence incidentId + 1) now) := rfl

/-- A resident never gets a question with another region or with a place as target. -/
def questionHidden (l : Listener) (e : OutboxEvent) : Bool :=
  match (e.payload.get "target_geometry").bind Json.asDict with
  | none => false
  | some geometry => !Questions.regionAllows geometry l.regionCode ||
      ["bbox", "center", "radius_m"].any fun key => (geometry.get key).any Questions.isTruthy

def eventVisible (l : Listener) (e : OutboxEvent) : Bool :=
  if l.actor.isOperator then true
  else if e.eventType.startsWith "question." && questionHidden l e then false
  else e.visibility = .public || e.ownerDeviceId = some l.actor.subjectId

structure OutboxRow where
  event : OutboxEvent
  publishedAt : Option Time

/-- Where the handler of the connection is; `latest` is the sequence it read. -/
inductive ConnectionPhase
  | arriving
  | registered
  | timed (cutoff : Time)
  | sized (cutoff : Time) (latest : ℕ)
  | measured (cutoff : Time) (latest : ℕ) (oldest : Option ℕ)
  | ready (cutoff : Time) (latest : ℕ)
  | replaying (latest : ℕ) (rest : List OutboxEvent)
  | draining (latest : ℕ)
  | live (latest : ℕ)
  | closed

/-- The frames sent are those of the replay and those taken from the queue. -/
structure Connection where
  lastSequence : Option ℕ
  phase : ConnectionPhase
  queue : List OutboxEvent
  replayed : List OutboxEvent
  forwarded : List OutboxEvent

def Connection.sent (c : Connection) : List OutboxEvent := c.replayed ++ c.forwarded

def ConnectionPhase.isRegistered : ConnectionPhase → Bool
  | .arriving | .closed => false
  | _ => true

/-- `committed` is the history of the events; the outbox holds the rows that are left of it.
`batch` are the rows the outbox loop has yet to publish, `handed` says whether the hub has
had the first of them. -/
structure OutboxState where
  now : Time
  committedAt : Time
  eventSequence : ℕ
  committed : List OutboxEvent
  outbox : List OutboxRow
  batch : List OutboxEvent
  handed : Bool

structure RealtimeState extends OutboxState where
  connection : Connection

def OutboxState.initial (now : Time) : OutboxState := ⟨now, now, 0, [], [], [], false⟩

def RealtimeState.initial (now : Time) (lastSequence : Option ℕ) : RealtimeState :=
  ⟨.initial now, lastSequence, .arriving, [], [], []⟩

inductive RealtimeStep
  | tick (elapsed : ℕ)
  /-- A transaction whose rows were flushed at the given time. -/
  | commit (flushed : Time) (events : List Event)
  /-- A pass of the outbox loop begins; other incidents leave `limit` rows of the batch. -/
  | readBatch (limit : ℕ)
  | publish
  | mark
  /-- The pass ends early: the hub failed, or the loop was restarted. -/
  | giveUp
  /-- A retention pass that took the time at `started`. -/
  | retain (started : Time)
  | register
  | readClock
  | readIncident
  | readOldest
  | answer
  | readEvents
  | replay
  | drain
  | forward
  | close

section Outbox
variable (settings : RealtimeSettings) (incidentId : Id) (s : OutboxState)

def storedFrom (incidentId : Id) (flushed : Time) : ℕ → List Event → List OutboxEvent
  | _, [] => []
  | n, e :: es => e.stored incidentId (n + 1) flushed :: storedFrom incidentId flushed (n + 1) es

/-- Transactions hold the write lock from the flush to the commit. -/
def commitEvents (flushed : Time) (events : List Event) : OutboxState :=
  if s.committedAt ≤ flushed ∧ flushed ≤ s.now then
    let stored := storedFrom incidentId flushed s.eventSequence events
    { s with
      committedAt := s.now
      eventSequence := s.eventSequence + events.length
      committed := s.committed ++ stored
      outbox := s.outbox ++ stored.map fun e => ⟨e, none⟩ }
  else s

def OutboxRow.isUnpublished (r : OutboxRow) : Bool := r.publishedAt.isNone

def OutboxState.unpublished : List OutboxEvent :=
  (s.outbox.filter OutboxRow.isUnpublished).map (·.event)

def markPublished (now : Time) (e : OutboxEvent) (r : OutboxRow) : OutboxRow :=
  if r.event.sequence = e.sequence && r.isUnpublished then { r with publishedAt := some now } else r

def isExpired (started : Time) (r : OutboxRow) : Bool :=
  r.publishedAt.any (· ≤ started - hours settings.realtimeReplayHours)

/-- The row the hub is given next. -/
def OutboxState.nextHanded : Option OutboxEvent := if s.handed then none else s.batch.head?

def outboxStep : RealtimeStep → OutboxState
  | .tick elapsed => { s with now := s.now + elapsed }
  | .commit flushed events => commitEvents incidentId s flushed events
  | .readBatch limit =>
    if s.batch.isEmpty then { s with batch := s.unpublished.take (min limit 100), handed := false }
    else s
  | .publish => { s with handed := !s.batch.isEmpty }
  | .mark =>
    match s.batch, s.handed with
    | e :: rest, true =>
      { s with outbox := s.outbox.map (markPublished s.now e), batch := rest, handed := false }
    | _, _ => s
  | .giveUp => { s with batch := [], handed := false }
  | .retain started =>
    if started ≤ s.now then { s with outbox := s.outbox.filter fun r => !isExpired settings started r }
    else s
  | _ => s

end Outbox

section Handler
variable (settings : RealtimeSettings) (listener : Listener) (s : OutboxState)

def Connection.isFull (c : Connection) : Bool :=
  0 < settings.realtimeQueueSize && settings.realtimeQueueSize ≤ c.queue.length

/-- `RealtimeHub.publish`: a connection whose queue is full is closed. -/
def hubPublish (c : Connection) (e : OutboxEvent) : Connection :=
  if !c.phase.isRegistered || !eventVisible listener e then c
  else if c.isFull settings then { c with phase := .closed }
  else { c with queue := c.queue ++ [e] }

def Connection.cursor (c : Connection) (latest : ℕ) : ℕ := c.lastSequence.getD latest

def Connection.replayRequired (c : Connection) (latest : ℕ) : Bool :=
  c.lastSequence.any (· < latest)

/-- The client has missed events that are no longer in the window. -/
def Connection.needsResync (c : Connection) (latest : ℕ) (oldest : Option ℕ) : Bool :=
  c.replayRequired latest && (oldest.all fun o => c.cursor latest + 1 < o)

/-- The rows of the replay, in the order of their sequence. -/
def replayRows (outbox : List OutboxRow) (cursor latest : ℕ) (cutoff : Time) : List OutboxEvent :=
  (outbox.map (·.event)).filter fun e =>
    cursor < e.sequence && e.sequence ≤ latest && cutoff ≤ e.occurredAt

/-- The frame of the next replayed event, unless the client may not see it. -/
def Connection.replayNext (c : Connection) (latest : ℕ) : List OutboxEvent → Connection
  | [] => { c with phase := .draining latest }
  | e :: rest =>
    { c with
      phase := .replaying latest rest
      replayed := if eventVisible listener e then c.replayed ++ [e] else c.replayed }

/-- What was queued before the replay ended is sent only if it is newer than the replay. -/
def Connection.drainNext (c : Connection) (latest : ℕ) : Connection :=
  match c.queue with
  | [] => { c with phase := .live latest }
  | e :: queue =>
    { c with
      queue := queue
      forwarded := if latest < e.sequence then c.forwarded ++ [e] else c.forwarded }

/-- `_send_queued` -/
def Connection.forwardNext (c : Connection) : Connection :=
  match c.queue with
  | [] => c
  | e :: queue => { c with queue := queue, forwarded := c.forwarded ++ [e] }

/-- What the hub and `realtime`, after the authentication, do to the connection. -/
def connectionStep (c : Connection) : RealtimeStep → Connection
  | .publish => s.nextHanded.elim c (hubPublish settings listener c)
  | .register =>
    match c.phase with
    | .arriving => { c with phase := .registered }
    | _ => c
  | .readClock =>
    match c.phase with
    | .registered => { c with phase := .timed (s.now - hours settings.realtimeReplayHours) }
    | _ => c
  | .readIncident =>
    match c.phase with
    | .timed cutoff => { c with phase := .sized cutoff s.eventSequence }
    | _ => c
  | .readOldest =>
    match c.phase with
    | .sized cutoff latest =>
      { c with
        phase := .measured cutoff latest
          (((s.outbox.filter fun r => cutoff ≤ r.event.occurredAt).map (·.event.sequence)).min?) }
    | _ => c
  | .answer =>
    match c.phase with
    | .measured cutoff latest oldest =>
      { c with phase := if c.needsResync latest oldest then .closed else .ready cutoff latest }
    | _ => c
  | .readEvents =>
    match c.phase with
    | .ready cutoff latest =>
      { c with
        phase := if c.replayRequired latest then
            .replaying latest (replayRows s.outbox (c.cursor latest) latest cutoff)
          else .draining latest }
    | _ => c
  | .replay =>
    match c.phase with
    | .replaying latest rest => c.replayNext listener latest rest
    | _ => c
  | .drain =>
    match c.phase with
    | .draining latest => c.drainNext latest
    | _ => c
  | .forward =>
    match c.phase with
    | .live _ => c.forwardNext
    | _ => c
  | .close => { c with phase := .closed }
  | _ => c

end Handler

section System
variable (settings : RealtimeSettings) (incidentId : Id) (listener : Listener)

def realtimeStep (s : RealtimeState) (x : RealtimeStep) : RealtimeState :=
  ⟨outboxStep settings incidentId s.toOutboxState x,
    connectionStep settings listener s.toOutboxState s.connection x⟩

abbrev realtimeRun (now : Time) (lastSequence : Option ℕ) (steps : List RealtimeStep) :
    RealtimeState :=
  run (realtimeStep settings incidentId listener) (.initial now lastSequence) steps

end System
end CrisisMosaic
