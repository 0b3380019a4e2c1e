import CrisisMosaic.AdminAuthority
import CrisisMosaic.RateLimits

/-!
# Sockets of the AI gateway

A socket is authenticated by its first message, and then serves the requests that come in on behalf of whoever
that was until the access token expires. Nothing is looked up again for a request.
-/

namespace CrisisMosaic
open Relational

/-- A string of a message; an identifier is one. -/
def Json.text? : Json → Option Ref
  | .ref i => some (.id i)
  | .str s => some (.name s)
  | _ => none

/-- The length of an identifier is that of a UUID. -/
def Ref.length : Ref → ℕ
  | .id _ => 36
  | .name s => s.length

/-- The exceptions of `_actor_from_token`: a `PermissionError`, or any other. -/
inductive TokenRefusal
  | denied
  | invalid

/-- Whom a token stands for. -/
def AuthDb.tokenActor (db : AuthDb) (token : AccessToken) : Except TokenRefusal Principal :=
  match token.subjectType with
  | .device => do
    let device ← found (db.devices.get token.sub) .invalid
    require (device.revokedAt.isNone = true ∧ device.tokenVersion = token.tokenVersion) .invalid
    pure (deviceActor token.sub device token.incidentIds)
  | .account => do
    let account ← found (db.accounts.get token.sub) .invalid
    require (account.isActive = true) .invalid
    pure (db.accountActor token.sub account)

/-- `_actor_from_token`, on a token whose signature is ours, with the time in the token. -/
def AuthDb.actorFromToken (now : Time) (db : AuthDb) (token : AccessToken) (incident : Ref) :
    Except TokenRefusal (Principal × Time) := do
  require (token.issuedAt * 1000000 ≤ now ∧ now < token.expiresAt * 1000000) .invalid
  let actor ← db.tokenActor token
  require (incident.isIn actor.incidentIds = true) .denied
  pure (actor, token.expiresAt)

inductive AiOperation
  | reportRefinement
  | conflictAnalysis
  | commandBrief
  | analysisStatus
  | analysisRetry
  deriving DecidableEq

namespace AiOperation

def text : AiOperation → String
  | reportRefinement => "report_refinement"
  | conflictAnalysis => "conflict_analysis"
  | commandBrief => "command_brief"
  | analysisStatus => "analysis_status"
  | analysisRetry => "analysis_retry"

/-- `AI_OPERATIONS` -/
def all : List AiOperation := [reportRefinement, conflictAnalysis, commandBrief, analysisStatus, analysisRetry]

/-- `MUTATING_AI_OPERATIONS` -/
def isMutating : AiOperation → Bool
  | analysisStatus => false
  | _ => true

end AiOperation

structure AiLimits where
  rateLimitEnabled : Bool
  rateLimitAiRefinementsPerMinute : ℕ
  rateLimitAiBriefsPerMinute : ℕ

namespace AiLimits
variable (limits : AiLimits)

/-- The rule of `_rate_limit_retry_after`. -/
def rule : AiOperation → Option (String × ℕ)
  | .reportRefinement => some ("ai_refinement", limits.rateLimitAiRefinementsPerMinute)
  | .commandBrief => some ("ai_brief", limits.rateLimitAiBriefsPerMinute)
  | _ => none

def key (keyPrefix : String) (actor : Actor) (incident : Ref) : String :=
  keyPrefix ++ ":" ++ actor.subjectType.text ++ ":" ++ toString actor.subjectId ++ ":" ++ incident.text

/-- `_rate_limit_retry_after`; the middleware makes its keys of the incident header. -/
def check (now : Time) (limiter : RateLimiter) (actor : Actor) (incident : Ref) (operation : AiOperation) :
    Option ℤ × RateLimiter :=
  if limits.rateLimitEnabled then
    match limits.rule operation with
    | some (keyPrefix, limit) => limiter.check now (key keyPrefix actor incident) limit
    | none => (none, limiter)
  else (none, limiter)

end AiLimits

/-- What the handler of an operation is called with. -/
inductive AiCall
  | reportRefinement (payload : Dict)
  | conflictAnalysis (conflict : Ref) (payload : Dict)
  | commandBrief (payload : Dict)
  | analysisStatus (analysis : Ref)
  | analysisRetry (analysis : Ref)

/-- What comes of a call: a response, a payload or a request that is refused, or any other exception. -/
inductive AiOutcome
  | answered (status : ℕ) (body : Json)
  | unvalidated (errors : Json)
  | refused (e : ApiError)
  | raised

/-- What comes of the idempotency key. -/
inductive AiReservation
  | reserved
  | replay (status : ℕ) (body : Json)
  | refused (e : ApiError)
  | raised

structure SocketEnv extends AdminEnv where
  text : TextLib
  limits : AiLimits
  /-- The claims of a text that is an access token with our signature. -/
  decode : Ref → Option AccessToken

section Operations
variable (env : SocketEnv)

/-- `_required_string` -/
def requiredString (payload : Dict) (key : String) : Result Ref := do
  let value ← found ((payload.get key).bind Json.text?)
    (unprocessable "VALIDATION_ERROR" (key ++ " must be a non-empty string"))
  require ((strip env.text value.text.toList).isEmpty = false)
    (unprocessable "VALIDATION_ERROR" (key ++ " must be a non-empty string"))
  pure value

/-- The call that `_dispatch_operation` makes. -/
def AiOperation.call (incident : Ref) (payload : Dict) : AiOperation → Result AiCall
  | .reportRefinement => pure (.reportRefinement payload)
  | .conflictAnalysis => do
    let conflict ← requiredString env payload "conflict_id"
    pure (.conflictAnalysis conflict (payload.erase "conflict_id"))
  | .commandBrief => do
    require ((payload.get "incident_id").all fun v => v.text? = some incident)
      (incidentContextMismatch "WebSocket incident does not match the requested incident")
    pure (.commandBrief (payload.erase "incident_id"))
  | .analysisStatus => do
    let analysis ← requiredString env payload "analysis_id"
    pure (.analysisStatus analysis)
  | .analysisRetry => do
    let analysis ← requiredString env payload "analysis_id"
    pure (.analysisRetry analysis)

/-- The handlers and the store of keys as one message meets them. -/
structure AiBackend where
  serverRequestId : Ref
  reserve : AiReservation
  handle : AiCall → AiOutcome

/-- The operation under its key, with the call that is made. -/
def AiBackend.perform (backend : AiBackend) (incident : Ref) (operation : AiOperation) (payload : Dict) :
    AiOutcome × Option AiCall :=
  match if operation.isMutating then backend.reserve else .reserved with
  | .replay status body => (.answered status body, none)
  | .refused e => (.refused e, none)
  | .raised => (.raised, none)
  | .reserved =>
    match operation.call env incident payload with
    | .ok call => (backend.handle call, some call)
    | .error e => (.refused e, none)

end Operations

/-- The frame of `_send_error`. -/
def aiErrorFrame (clientRequestId : Option Ref) (operation : Option AiOperation) (serverRequestId : Option Ref)
    (status : ℕ) (code message : String) (details : Json) : Dict :=
  [("type", .str "ai.error"), ("request_id", .opt Ref.json clientRequestId), ("status_code", .nat status),
    ("body", .obj [("error", .obj [("code", .str code), ("message", .str message),
      ("request_id", .opt Ref.json serverRequestId), ("details", details)])])] ++
    operation.elim [] fun o => [("operation", .str o.text)]

/-- Errors without details have an empty dictionary of them. -/
def ApiError.detailsJson (e : ApiError) : Json := if e.details.isEmpty then .null else .obj e.details

def AiOutcome.frame (clientRequestId serverRequestId : Ref) (operation : AiOperation) : AiOutcome → Dict
  | .answered status body =>
    [("type", .str "ai.response"), ("request_id", clientRequestId.json), ("operation", .str operation.text),
      ("status_code", .nat status), ("body", body)]
  | .unvalidated errors =>
    aiErrorFrame clientRequestId operation serverRequestId 422 "VALIDATION_ERROR"
      "AI WebSocket payload validation failed" errors
  | .refused e => aiErrorFrame clientRequestId operation serverRequestId e.statusCode e.code e.message e.detailsJson
  | .raised =>
    aiErrorFrame clientRequestId operation serverRequestId 500 "INTERNAL_ERROR"
      "The server failed to process the AI request" .null

def invalidRequestId : Dict :=
  aiErrorFrame none none none 422 "VALIDATION_ERROR" "request_id must contain 1 to 200 characters" .null

def invalidOperation (clientRequestId : Ref) : Dict :=
  aiErrorFrame clientRequestId none none 422 "VALIDATION_ERROR" "operation or payload is invalid"
    (.obj [("allowed_operations", .arr (AiOperation.all.map fun o => .str o.text))])

def aiRateLimited (clientRequestId : Ref) (operation : AiOperation) (retryAfter : ℤ) : Dict :=
  aiErrorFrame clientRequestId operation none 429 "RATE_LIMITED" "Too many AI requests; retry later"
    (.obj [("retry_after_seconds", .num retryAfter)])

/-- The request in a message, once its form is checked. -/
structure AiRequest where
  clientRequestId : Ref
  operation : AiOperation
  payload : Dict

/-- The checks that `_handle_request` begins with. -/
def AiRequest.ofMessage (message : Dict) : Except Dict AiRequest := do
  let id ← found (((message.get "request_id").bind Json.text?).filter fun r => 1 ≤ r.length && r.length ≤ 200)
    invalidRequestId
  let operation ← found (AiOperation.all.find? fun o => (message.get "operation").any (Json.isStr o.text))
    (invalidOperation id)
  let payload ← found ((message.get "payload").bind Json.asDict) (invalidOperation id)
  pure ⟨id, operation, payload⟩

/-- A message that is handled: the frame that answers it, and the call it leads to. -/
structure HandledMessage where
  frame : Dict
  call : Option (AiOperation × AiCall)

/-- `_handle_request` -/
def handleRequest (env : SocketEnv) (now : Time) (limiter : RateLimiter) (actor : Principal) (incident : Ref)
    (backend : AiBackend) (message : Dict) : HandledMessage × RateLimiter :=
  match AiRequest.ofMessage message with
  | .error frame => (⟨frame, none⟩, limiter)
  | .ok r =>
    match env.limits.check now limiter actor.toActor incident r.operation with
    | (some retryAfter, limiter) => (⟨aiRateLimited r.clientRequestId r.operation retryAfter, none⟩, limiter)
    | (none, limiter) =>
      let (outcome, call) := backend.perform env incident r.operation r.payload
      (⟨outcome.frame r.clientRequestId backend.serverRequestId r.operation,
        call.map fun c => (r.operation, c)⟩, limiter)

/-- Whom a socket serves, and for how long. -/
structure SocketGrant where
  actor : Principal
  incident : Ref
  expiresAt : Time

/-- A socket that has been closed by the client has no code. -/
inductive SocketPhase
  | accepted
  | serving (grant : SocketGrant)
  | closed (code : Option ℕ)

/-- `sent` has the frames in their order. -/
structure AiSocket where
  phase : SocketPhase
  sent : List Dict

def AiSocket.send (socket : AiSocket) (frame : Dict) : AiSocket := { socket with sent := socket.sent ++ [frame] }

def AiSocket.close (socket : AiSocket) (code : Option ℕ) : AiSocket := { socket with phase := .closed code }

def queryTokenForbidden : Dict :=
  aiErrorFrame none none none 401 "QUERY_TOKEN_FORBIDDEN" "Tokens are forbidden in the WebSocket URL" .null

def authenticationRequired : Dict :=
  aiErrorFrame none none none 401 "AUTHENTICATION_REQUIRED" "The first WebSocket message must authenticate" .null

def accessTokenExpired : Dict :=
  aiErrorFrame none none none 401 "ACCESS_TOKEN_EXPIRED" "The access token expired" .null

def unsupportedMessage : Dict :=
  aiErrorFrame none none none 400 "UNSUPPORTED_MESSAGE" "Expected an ai.request message" .null

def pong : Dict := [("type", .str "pong")]

def aiReady (incident : Ref) : Dict :=
  [("type", .str "ai.ready"), ("protocol_version", .nat 1), ("incident_id", incident.json),
    ("operations", .arr (AiOperation.all.map fun o => .str o.text))]

def hasType (type : String) (message : Dict) : Bool := (message.get "type").any (Json.isStr type)

namespace AiSocket
variable (env : SocketEnv) (now : Time)

/-- A connection that is accepted, with whether its URL has a token. -/
def opened (queryToken : Bool) : AiSocket :=
  if queryToken then ⟨.closed (some 4401), [queryTokenForbidden]⟩ else ⟨.accepted, []⟩

/-- The first message. -/
def authenticate (db : AuthDb) (message : Json) (socket : AiSocket) : AiSocket :=
  match message.asDict.filter (hasType "authenticate") with
  | none => (socket.send authenticationRequired).close (some 4401)
  | some d =>
    match (d.get "access_token").bind Json.text?, (d.get "incident_id").bind Json.text? with
    | some token, some incident =>
      match (found (env.decode token) TokenRefusal.invalid).bind fun t => db.actorFromToken now t incident with
      | .ok (actor, expiresAt) =>
        { socket.send (aiReady incident) with phase := .serving ⟨actor, incident, expiresAt⟩ }
      | .error .denied => socket.close (some 4403)
      | .error .invalid => socket.close (some 4401)
    | _, _ => socket.close (some 4401)

/-- A message after that, with the call that it leads to. -/
def receive (limiter : RateLimiter) (backend : AiBackend) (grant : SocketGrant) (message : Json) (socket : AiSocket) :
    AiSocket × Option (AiOperation × AiCall) × RateLimiter :=
  if grant.expiresAt * 1000000 ≤ now then ((socket.send accessTokenExpired).close (some 4401), none, limiter)
  else
    match message.asDict with
    | none => (socket.send unsupportedMessage, none, limiter)
    | some d =>
      if hasType "ping" d then (socket.send pong, none, limiter)
      else if hasType "ai.request" d then
        let (handled, limiter) := handleRequest env now limiter grant.actor grant.incident backend d
        (socket.send handled.frame, handled.call, limiter)
      else (socket.send unsupportedMessage, none, limiter)

end AiSocket

/-- `issued` has the access tokens that were given out. -/
structure SocketState where
  admin : AdminState
  issued : List AccessToken
  limiter : RateLimiter
  sockets : Table AiSocket

/-- An AI request over HTTP counts with those of the sockets if its header has the incident. -/
inductive SocketStep
  | admin (x : AdminStep)
  | http (actor : Actor) (header : Ref) (operation : AiOperation)
  | connect (queryToken : Bool)
  | message (socket : Id) (message : Json) (backend : AiBackend)
  /-- The first message has not come in time. -/
  | timeout (socket : Id)
  | disconnect (socket : Id)

/-- The access tokens that a request gives out. -/
def AuthState.issues (lib : SecurityLib) (settings : SecuritySettings) (s : AuthState) (x : AuthStep) :
    List AccessToken :=
  match x with
  | .anonymousSession body drawn =>
    ((·.2.2.response.accessToken) <$> s.db.createAnonymousSession lib settings s.now body drawn).toOption.toList
  | .login username password drawn =>
    ((·.2.response.accessToken) <$> s.db.login lib settings s.now username password drawn).toOption.toList
  | .refresh expectedType token drawn =>
    ((·.2.2.response.accessToken) <$>
      s.db.rotateRefresh lib settings s.now (some expectedType) token drawn).toOption.toList
  | _ => []

def AdminState.issues (env : AdminEnv) (s : AdminState) : AdminStep → List AccessToken
  | .session x => s.sessions.issues env.lib.toSecurityLib env.security x
  | _ => []

/-- A call that a socket has led to. -/
structure SocketCall where
  time : Time
  socket : Id
  actor : Principal
  incident : Ref
  operation : AiOperation
  call : AiCall

namespace SocketState
variable (env : SocketEnv) (s : SocketState)

def modify (id : Id) (f : AiSocket → AiSocket) : SocketState := { s with sockets := s.sockets.modify id f }

def message (id : Id) (message : Json) (backend : AiBackend) : SocketState :=
  match s.sockets.get id with
  | none => s
  | some socket =>
    match socket.phase with
    | .accepted => s.modify id (AiSocket.authenticate env s.admin.now s.admin.db.auth message)
    | .serving grant =>
      let (socket, _, limiter) := socket.receive env s.admin.now s.limiter backend grant message
      { s.modify id fun _ => socket with limiter := limiter }
    | .closed _ => s

/-- What a step adds to the log. -/
def calls : SocketStep → List SocketCall
  | .message id message backend =>
    match s.sockets.get id with
    | none => []
    | some socket =>
      match socket.phase with
      | .serving grant =>
        ((socket.receive env s.admin.now s.limiter backend grant message).2.1.map fun c =>
          ⟨s.admin.now, id, grant.actor, grant.incident, c.1, c.2⟩).toList
      | _ => []
  | _ => []

end SocketState

def AiSocket.timedOut (socket : AiSocket) : AiSocket :=
  match socket.phase with
  | .accepted => socket.close (some 4408)
  | _ => socket

def AiSocket.disconnected (socket : AiSocket) : AiSocket :=
  match socket.phase with
  | .closed code => socket.close code
  | _ => socket.close none

def socketStep (env : SocketEnv) (s : SocketState) : SocketStep → SocketState
  | .admin x =>
    { s with
      admin := adminStep env.toAdminEnv s.admin x
      issued := s.admin.issues env.toAdminEnv x ++ s.issued }
  | .http actor header operation =>
    { s with limiter := (env.limits.check s.admin.now s.limiter actor header operation).2 }
  | .connect queryToken => { s with sockets := s.sockets.insert (.opened queryToken) }
  | .message id message backend => s.message env id message backend
  | .timeout id => s.modify id AiSocket.timedOut
  | .disconnect id => s.modify id AiSocket.disconnected

def SocketState.initial (now : Time) (setup : Bootstrap) : SocketState :=
  ⟨.initial now setup, [], ⟨fun _ => []⟩, .empty⟩

def socketRun (env : SocketEnv) (s : SocketState) (steps : List SocketStep) : SocketState :=
  run (socketStep env) s steps

end CrisisMosaic
