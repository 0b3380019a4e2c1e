import CrisisMosaic.IncidentClosings
import CrisisMosaic.Relational.Keeps
import CrisisMosaic.Relational.Projection
import CrisisMosaic.Relational.Unique
import CrisisMosaic.Sessions

/-!
# Accounts and who administers them

An administrator creates and patches accounts, and creates incidents, which makes it a member of
them. A request is authenticated before it waits for the write lock; the rows it finds there may be
others than those it was authenticated with.
-/

namespace CrisisMosaic
open Relational

inductive AccountRole
  | operator
  | admin
  deriving DecidableEq

def AccountRole.role : AccountRole → Role
  | .operator => .operator
  | .admin => .admin

/-- The whole row of an account. -/
structure AccountRow extends LocalAccount where
  email : Option String
  revision : ℕ

structure IncidentMembership where
  accountId : Id
  incidentId : Id
  role : Role

/-- The pattern of a user name. -/
def usernameAllowed (s : String) : Bool :=
  3 ≤ s.length && s.length ≤ 80 && s.toList.all fun c => c.isAlphanum || c = '_' || c = '.' || c = '-'

abbrev IncidentIds := {l : List Ref // l.length ≤ 100}

structure AdminUserCreate where
  username : {s : String // usernameAllowed s = true}
  password : Bounded 12 512
  email : Option (Bounded 0 200)
  role : AccountRole
  incidentIds : IncidentIds

/-- `email` tells a null from a field that is not there. -/
structure AdminUserPatch where
  revision : {n : ℕ // 1 ≤ n}
  email : Option (Option (Bounded 0 200))
  role : Option AccountRole
  isActive : Option Bool
  password : Option (Bounded 12 512)
  incidentIds : Option IncidentIds

/-- A hash is salted; the password it was made of verifies against it. -/
structure AdminLib extends SecurityLib where
  hashPassword : String → String → String
  verify_hash : ∀ salt password, verifyPassword password (hashPassword salt password) = true

structure AdminEnv where
  lib : AdminLib
  security : SecuritySettings
  retention : RetentionEnv

/-- `service` has the incidents. -/
structure AdminDb where
  service : RetainedState
  accounts : Table AccountRow
  memberships : List IncidentMembership
  devices : Table RegisteredDevice
  refreshSessions : Table (Option RefreshSession)
  families : ℕ

inductive AdminCall
  | createUser (body : AdminUserCreate) (salt : String)
  | patchUser (account : Id) (body : AdminUserPatch) (salt : String)
  | createIncident (body : IncidentCreate)
  | patchIncident (header : Option Ref) (incident : Id) (body : IncidentPatch)

/-- `dict.fromkeys` -/
def fromKeys {α : Type*} [DecidableEq α] (l : List α) : List α := l.reverse.dedup.reverse

def Ref.id? : Ref → Option Id
  | .id i => some i
  | .name _ => none

def Ref.json : Ref → Json
  | .id i => .ref i
  | .name s => .str s

/-- `_validate_incidents`, with the ids it has checked. -/
def validateIncidents (incidents : Table Incident) (ids : List Ref) : Result (List Id) := do
  let missing := (fromKeys ids).filter fun r => r.id?.all fun i => (incidents.get i).isNone
  require (missing = []) ⟨422, "INVALID_INCIDENT_IDS", "包含不存在的事件", [("missing", .arr (missing.map Ref.json))]⟩
  pure (ids.filterMap Ref.id?)

def AdminUserPatch.checkedIncidents (incidents : Table Incident) (body : AdminUserPatch) :
    Result (Option (List Id)) :=
  match body.incidentIds with
  | some ids => some <$> validateIncidents incidents ids.val
  | none => pure none

/-- The memberships that a request gives an account. -/
def newMemberships (account : Id) (role : Role) (incidents : List Id) : List IncidentMembership :=
  (fromKeys incidents).map fun i => ⟨account, i, role⟩

def AdminUserCreate.row (lib : AdminLib) (salt : String) (body : AdminUserCreate) : AccountRow where
  username := body.username.val
  passwordHash := lib.hashPassword salt body.password.val
  role := body.role.role
  isActive := true
  email := body.email.map (·.val)
  revision := 1

def AccountRow.patched (lib : AdminLib) (salt : String) (body : AdminUserPatch) (a : AccountRow) : AccountRow :=
  { a with
    email := body.email.elim a.email (Option.map (·.val))
    role := body.role.elim a.role AccountRole.role
    isActive := body.isActive.getD a.isActive
    passwordHash := body.password.elim a.passwordHash fun p => lib.hashPassword salt p.val
    revision := a.revision + 1 }

/-- Only a role that is sent reaches the memberships when no incidents are. -/
def AdminUserPatch.memberships (body : AdminUserPatch) (account : Id) (role : Role)
    (incidents : Option (List Id)) (rows : List IncidentMembership) : List IncidentMembership :=
  match incidents with
  | some ids => rows.filter (·.accountId ≠ account) ++ newMemberships account role ids
  | none =>
    if body.role.isSome then
      rows.map fun m => if m.accountId = account then { m with role := role } else m
    else rows

/-- Two rows with the same email; null is no value. -/
def emailTaken (email : Option String) (a : AccountRow) : Bool := email.isSome && a.email = email

namespace AdminDb
variable (env : AdminEnv) (now : Time) (db : AdminDb)

def incidents : Table Incident := db.service.db.feed.incidents

/-- What the requests about sessions see. -/
def auth : AuthDb :=
  ⟨db.incidents, db.devices, db.accounts.map (·.toLocalAccount),
    db.memberships.map fun m => (m.accountId, m.incidentId), db.refreshSessions, db.families⟩

/-- What they may write. -/
def withSessions (auth : AuthDb) : AdminDb :=
  { db with
    devices := auth.devices
    refreshSessions := auth.refreshSessions
    families := auth.families }

/-- `create_user`; two accounts cannot have the same email. -/
def createUser (body : AdminUserCreate) (salt : String) : Result AdminDb := do
  require ((db.accounts.first fun a => a.username = body.username.val).isNone)
    (conflictError "USERNAME_EXISTS" "用户名已存在" [])
  let ids ← validateIncidents db.incidents body.incidentIds.val
  let row := body.row env.lib salt
  require ((db.accounts.first (emailTaken row.email)).isNone) internalError
  pure { db with
    accounts := db.accounts.insert row
    memberships := db.memberships ++ newMemberships db.accounts.size row.role ids }

/-- `patch_user` -/
def patchUser (id : Id) (body : AdminUserPatch) (salt : String) : Result AdminDb := do
  let account ← found (db.accounts.get id) (notFound "账号")
  require (account.revision = body.revision.val)
    (conflictError "REVISION_CONFLICT" "account revision does not match"
      [("expected_revision", .nat body.revision.val), ("current_revision", .nat account.revision)])
  let ids ← body.checkedIncidents db.incidents
  let row := account.patched env.lib salt body
  require ((db.accounts.select (emailTaken row.email)).all (· = id)) internalError
  pure { db with
    accounts := db.accounts.modify id (AccountRow.patched env.lib salt body)
    memberships := body.memberships id row.role ids db.memberships }

/-- `create_incident`, with the membership of whoever creates it. -/
def createIncident (actor : Principal) (body : IncidentCreate) : Result AdminDb := do
  let service ← CrisisMosaic.createIncident env.retention db.service actor.toActor body
  pure { db with
    service := service
    memberships := db.memberships ++ [⟨actor.subjectId, db.incidents.size, actor.role⟩] }

def patchIncident (actor : Principal) (header : Option Ref) (id : Id) (body : IncidentPatch) : Result AdminDb := do
  let service ← CrisisMosaic.patchIncident env.retention now db.service actor.toActor header id body
  pure { db with service := service }

def serve (actor : Principal) : AdminCall → Result AdminDb
  | .createUser body salt => db.createUser env body salt
  | .patchUser id body salt => db.patchUser env id body salt
  | .createIncident body => db.createIncident env actor body
  | .patchIncident header id body => db.patchIncident env now actor header id body

end AdminDb

/-- `waiting` has the requests that are authenticated. -/
structure AdminState where
  now : Time
  db : AdminDb
  waiting : Table (Option (Principal × AdminCall))

inductive AdminStep
  | session (x : AuthStep)
  | arrive (token : AccessToken) (call : AdminCall)
  | serve (request : Id)

namespace AdminState
variable (env : AdminEnv) (s : AdminState)

def sessions : AuthState := ⟨s.now, s.db.auth⟩

/-- The request that gets the write lock. -/
def request (r : Id) : Option (Principal × AdminCall) := (s.waiting.get r).join

def arrive (token : AccessToken) (call : AdminCall) : AdminState :=
  match s.db.auth.getActor s.now token with
  | .ok actor =>
    if actor.role = .admin then { s with waiting := s.waiting.insert (some (actor, call)) } else s
  | .error _ => s

def serve (r : Id) : AdminState :=
  match s.request r with
  | some (actor, call) =>
    { s with
      db := commit s.db (s.db.serve env s.now actor call)
      waiting := s.waiting.modify r fun _ => none }
  | none => s

end AdminState

/-- Accounts and memberships change under the calls only. -/
def adminStep (env : AdminEnv) (s : AdminState) : AdminStep → AdminState
  | .session x =>
    { s with
      now := s.now + x.elapsed
      db := s.db.withSessions
        (commit s.db.auth ((authServe env.lib.toSecurityLib env.security s.sessions x).map (·.1))) }
  | .arrive token call => s.arrive token call
  | .serve r => s.serve env r

/-- The incidents and accounts that a deployment is set up with. -/
structure Bootstrap where
  service : RetainedState
  accounts : Table AccountRow
  memberships : List IncidentMembership
  usernames : accounts.UniqueOn (·.username)
  emails : ∀ i j a b email, accounts.get i = some a → accounts.get j = some b → a.email = some email →
    b.email = some email → i = j
  members : (memberships.map fun m => (m.accountId, m.incidentId)).Nodup
  owned : ∀ m ∈ memberships, m.accountId < accounts.size ∧ m.incidentId < service.db.feed.incidents.size

def AdminState.initial (now : Time) (setup : Bootstrap) : AdminState :=
  ⟨now, ⟨setup.service, setup.accounts, setup.memberships, .empty, .empty, 0⟩, .empty⟩

def adminRun (env : AdminEnv) (s : AdminState) (steps : List AdminStep) : AdminState :=
  run (adminStep env) s steps

end CrisisMosaic
