import CrisisMosaic.Idempotency
import CrisisMosaic.Relational.Run

/-!
# Calls under an idempotency key

The layer that the HTTP middleware and the AI websocket put around their handlers. The
reservation of the key, the handler's own commit and the recording of the response are
transactions of their own, and any number of calls run between them. A call may be
cancelled and the process may crash between any two of them.
-/

namespace CrisisMosaic
open Relational

inductive Channel
  | http
  | websocket
deriving DecidableEq

/-- `content` is there when the body is a JSON object. -/
structure Response where
  status : ℕ
  content : Option Dict
  empty : status = 204 → content = none

namespace Response

def isSuccess (r : Response) : Bool := 200 ≤ r.status && r.status < 300

/-- The body that is stored for the response, if it can be stored. -/
def recorded (r : Response) : Option Dict := if r.status = 204 then some [] else r.content

/-- `_replay_response` -/
def replayed (status : ℕ) (body : Dict) : Response :=
  if h : status = 204 then ⟨204, none, fun _ => rfl⟩
  else ⟨status, some body, fun h' => absurd h' h⟩

theorem replayed_recorded {r : Response} {body : Dict} (h : r.recorded = some body) :
    replayed r.status body = r := by
  obtain ⟨status, content, hempty⟩ := r
  unfold recorded at h
  unfold replayed
  by_cases h204 : status = 204
  · subst h204
    simp [hempty rfl]
  · rw [if_neg h204] at h
    simp only [dif_neg h204, ← h]

end Response

inductive CallPhase
  | arrived
  | running (recordId : Id)
  /-- The body of a success is read. -/
  | reading (recordId : Id) (response : Response)
  | finishing (recordId : Id) (response : Response) (body : Dict)
  /-- The reservation is released before the call ends, with an answer or with an error. -/
  | releasing (recordId : Id) (response : Option Response)
  | ended (response : Option Response)

namespace CallPhase

def recordId : CallPhase → Option Id
  | .running i | .reading i _ | .finishing i _ _ | .releasing i _ => some i
  | _ => none

def isOver : CallPhase → Bool
  | .ended _ => true
  | _ => false

/-- A success is stored when its body is a JSON object, or when it has none. -/
def afterReading (recordId : Id) (response : Response) : CallPhase :=
  match response.recorded with
  | some body => .finishing recordId response body
  | none => .releasing recordId (some response)

/-- The websocket stores what its handlers return, errors included; they return JSON objects. -/
def afterHandler (recordId : Id) (response : Response) : Channel → CallPhase
  | .http =>
    if response.isSuccess then .reading recordId response
    else .releasing recordId (some response)
  | .websocket =>
    match response.content with
    | some body => .finishing recordId response body
    | none => .releasing recordId none

/-- Only the websocket releases the reservation of a call that is cancelled while its
response is stored. -/
def cancelled : CallPhase → Channel → CallPhase
  | .running i, _ | .reading i _, _ | .finishing i _ _, .websocket => .releasing i none
  | .ended r, _ => .ended r
  | _, _ => .ended none

/-- The call ends where nothing cleans up after it. -/
def lost : CallPhase → CallPhase
  | .ended r => .ended r
  | _ => .ended none

end CallPhase

structure IdempotentCall where
  channel : Channel
  key : RequestKey
  fingerprint : String
  phase : CallPhase

/-- From a reservation of the key until it expires. The commits of the handlers and the answers
are those up to the next reservation. -/
structure ValidityWindow where
  call : Id
  recordId : Id
  startedAt : Time
  expiresAt : Time
  commits : List (Id × Time)
  answers : List (Response × Time)

/-- `lockedAt` is the time that the last transaction brought that waited for the write lock. -/
structure CallState where
  now : Time
  lockedAt : Time
  records : IdempotencyRecords
  calls : Table IdempotentCall
  windows : RequestKey → List ValidityWindow

def CallState.initial (now : Time) : CallState := ⟨now, now, Table.empty, Table.empty, fun _ => []⟩

inductive CallAction
  /-- The reservation, with the time taken before the write lock. -/
  | reserve (started : Time)
  /-- The handler commits its own transaction. -/
  | commit
  | respond (response : Response)
  /-- The handler fails, or its body cannot be read. -/
  | raise
  | read
  | finish
  | failFinish
  | release
  | failRelease
  | cancel
  /-- The reservation fails, or the call is cancelled in it or while it cleans up. -/
  | lose

inductive CallTurn
  | tick (elapsed : ℕ)
  | arrive (channel : Channel) (key : RequestKey) (fingerprint : String)
  | act (call : Id) (action : CallAction)
  | retain (started : Time)
  | crash

namespace CallState
variable (settings : IdempotencySettings) (s : CallState)

def setPhase (q : Id) (phase : CallPhase) : CallState :=
  { s with calls := s.calls.modify q fun c => { c with phase := phase } }

/-- Something happens in the current window of the key. -/
def note (key : RequestKey) (f : ValidityWindow → ValidityWindow) : CallState :=
  { s with windows := Function.update s.windows key ((s.windows key).modifyHead f) }

theorem note_windows (key : RequestKey) (f : ValidityWindow → ValidityWindow) :
    (s.note key f).windows key = (s.windows key).modifyHead f := Function.update_self ..

theorem note_windows_of_ne {key other : RequestKey} (h : other ≠ key)
    (f : ValidityWindow → ValidityWindow) : (s.note other f).windows key = s.windows key :=
  Function.update_of_ne h.symm ..

def noteCommit (q : Id) (key : RequestKey) : CallState :=
  s.note key fun w => { w with commits := (q, s.now) :: w.commits }

def noteAnswer (key : RequestKey) (r : Response) : CallState :=
  s.note key fun w => { w with answers := (r, s.now) :: w.answers }

/-- The call ends, with an answer or with an error. -/
def conclude (q : Id) (key : RequestKey) : Option Response → CallState
  | some r => (s.setPhase q (.ended (some r))).noteAnswer key r
  | none => s.setPhase q (.ended none)

def opened (q recordId : Id) (key : RequestKey) (started : Time) : CallState :=
  { s.setPhase q (.running recordId) with
    windows := Function.update s.windows key
      (⟨q, recordId, started, started + hours settings.idempotencyHours, [], []⟩ :: s.windows key) }

/-- Who takes the time earlier has the write lock earlier. -/
def reserve (q : Id) (c : IdempotentCall) (started : Time) : CallState :=
  if s.lockedAt ≤ started ∧ started ≤ s.now then
    match s.records.reserveOrReplay settings started c.key c.fingerprint with
    | .ok (records, .reserved i) =>
      CallState.opened settings { s with lockedAt := started, records := records } q i c.key started
    | .ok (_, .replay status body) =>
      CallState.conclude { s with lockedAt := started } q c.key (some (.replayed status body))
    | .error _ => CallState.conclude { s with lockedAt := started } q c.key none
  else s

/-- `_call_with_idempotency` and `_handle_request`, one transaction or one await at a time. -/
def act (q : Id) (c : IdempotentCall) : CallAction → CallState
  | .reserve started =>
    match c.phase with
    | .arrived => s.reserve settings q c started
    | _ => s
  | .commit =>
    match c.phase with
    | .running _ => s.noteCommit q c.key
    | _ => s
  | .respond response =>
    match c.phase with
    | .running i => s.setPhase q (.afterHandler i response c.channel)
    | _ => s
  | .raise =>
    match c.phase with
    | .running i | .reading i _ => s.setPhase q (.releasing i none)
    | _ => s
  | .read =>
    match c.phase with
    | .reading i response => s.setPhase q (.afterReading i response)
    | _ => s
  | .finish =>
    match c.phase with
    | .finishing i response body =>
      CallState.conclude { s with records := s.records.finishReservation i response.status body }
        q c.key (some response)
    | _ => s
  | .failFinish =>
    match c.phase with
    | .finishing _ response _ => s.conclude q c.key (some response)
    | _ => s
  | .release =>
    match c.phase with
    | .releasing i response =>
      CallState.conclude { s with records := s.records.releaseReservation i } q c.key response
    | _ => s
  | .failRelease =>
    match c.phase with
    | .releasing _ response => s.conclude q c.key response
    | _ => s
  | .cancel => s.setPhase q (c.phase.cancelled c.channel)
  | .lose => s.setPhase q c.phase.lost

end CallState

def callStep (settings : IdempotencySettings) (s : CallState) : CallTurn → CallState
  | .tick elapsed => { s with now := s.now + elapsed }
  | .arrive channel key fingerprint =>
    { s with calls := s.calls.insert ⟨channel, key, fingerprint, .arrived⟩ }
  | .act q action =>
    match s.calls.get q with
    | some c => s.act settings q c action
    | none => s
  | .retain started =>
    if s.lockedAt ≤ started ∧ started ≤ s.now then
      { s with lockedAt := started, records := s.records.deleteExpired started }
    else s
  | .crash => { s with calls := s.calls.sweep fun c => { c with phase := c.phase.lost } }

def callRun (settings : IdempotencySettings) (now : Time) (steps : List CallTurn) : CallState :=
  run (callStep settings) (.initial now) steps

end CrisisMosaic
