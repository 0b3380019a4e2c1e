import CrisisMosaic.ConflictRoutes
import CrisisMosaic.Relational.Recorded

/-!
# Sessions and refresh tokens

A resident's device and an operator's account are given a short-lived access token and
a refresh token. Refreshing redeems the token for a new pair of its family; logging out
revokes one token, revoking a device all of its tokens. Every request holds the write lock.
-/

namespace CrisisMosaic
open Relational

structure SecuritySettings where
  accessTokenMinutes : ℤ
  refreshTokenDays : ℤ

/-- The hashes of `security.py`; an HMAC digest is hexadecimal. -/
structure SecurityLib where
  refreshTokenHash : String → String
  installationHash : String → String
  verifyPassword : String → String → Bool
  installationHash_hex : ∀ s, ':' ∉ (installationHash s).toList

structure RegisteredDevice extends AnonymousDevice where
  installationIdHash : String
  platform : String
  locale : Option String
  tokenVersion : ℕ
  lastSeenAt : Time
  createdAt : Time
  revokedAt : Option Time

structure LocalAccount where
  username : String
  passwordHash : String
  role : Role
  isActive : Bool

structure RefreshSession where
  subjectType : SubjectType
  subjectId : Id
  incidentId : Option Id
  tokenHash : String
  familyId : Id
  issuedTokenVersion : ℕ
  expiresAt : Time
  createdAt : Time
  usedAt : Option Time
  revokedAt : Option Time
  replacedById : Option Id

/-- A refresh session deleted by retention leaves its id behind; `families` counts the
family ids drawn. -/
structure AuthDb where
  incidents : Table Incident
  devices : Table RegisteredDevice
  accounts : Table LocalAccount
  memberships : List (Id × Id)
  refreshSessions : Table (Option RefreshSession)
  families : ℕ

/-- `Actor`, with the fields that only access tokens carry. -/
structure Principal extends Actor where
  tokenVersion : ℕ
  username : Option String

/-- The claims of a signed access token. -/
structure AccessToken where
  sub : Id
  subjectType : SubjectType
  role : Role
  tokenVersion : ℕ
  incidentIds : List Id
  username : Option String
  issuedAt : Time
  expiresAt : Time

structure TokenPair where
  accessToken : AccessToken
  refreshToken : String
  expiresIn : ℤ
  currentIncidentId : Option Id

/-- The rows an accepted request for tokens writes or names. -/
structure Grant where
  token : Id
  family : Id
  response : TokenPair

structure AnonymousSessionCreate where
  installationId : String
  platform : String
  locale : Option String
  regionCode : Option String
  incidentId : Option Ref

def invalidRefreshToken (message : String) : ApiError := ⟨401, "INVALID_REFRESH_TOKEN", message, []⟩
def accessRevoked (message : String) : ApiError := ⟨401, "ACCESS_REVOKED", message, []⟩

/-- A token counts whole seconds. -/
def createAccessToken (settings : SecuritySettings) (now : Time) (actor : Principal) : AccessToken where
  sub := actor.subjectId
  subjectType := actor.subjectType
  role := actor.role
  tokenVersion := actor.tokenVersion
  incidentIds := actor.incidentIds.mergeSort
  username := actor.username
  issuedAt := now / 1000000
  expiresAt := (now + minutes settings.accessTokenMinutes) / 1000000

namespace AuthDb
variable (lib : SecurityLib) (settings : SecuritySettings) (now : Time) (db : AuthDb)

def incidentNotFound : ApiError := ⟨404, "INCIDENT_NOT_FOUND", "指定事件不存在", []⟩
def noActiveIncident : ApiError := ⟨503, "NO_ACTIVE_INCIDENT", "当前没有可用事件", []⟩

/-- `_active_incident` -/
def activeIncident (requested : Option Ref) : Result Id := do
  let row ← match requested.filter (· ≠ .name "") with
    | some (.id i) => found ((db.incidents.get i).map fun x => (i, x)) incidentNotFound
    | some (.name s) => found (db.incidents.find fun x => x.aliasName = some s) incidentNotFound
    | none => found (db.incidents.find fun x => x.status = .active) noActiveIncident
  require (row.2.status = .active) (conflictError "INCIDENT_NOT_ACTIVE" "指定事件当前未启用"
    [("incident_id", .ref row.1), ("status", .str row.2.status.text)])
  pure row.1

def session (id : Id) : Option RefreshSession := (db.refreshSessions.get id).join

def modifySession (id : Id) (f : RefreshSession → RefreshSession) : AuthDb :=
  { db with refreshSessions := db.refreshSessions.modify id (Option.map f) }

def findSession (p : RefreshSession → Bool) : Option (Id × RefreshSession) :=
  match db.refreshSessions.find fun row => row.any p with
  | some (id, some refresh) => some (id, refresh)
  | _ => none

def withHash (digest : String) (r : RefreshSession) : Bool := r.tokenHash = digest

def membershipsOf (account : Id) : List Id :=
  (db.memberships.filter fun x => x.1 = account).map (·.2)

def accountActor (id : Id) (account : LocalAccount) : Principal where
  subjectType := .account
  subjectId := id
  role := account.role
  incidentIds := db.membershipsOf id
  tokenVersion := 1
  username := some account.username

def deviceActor (id : Id) (device : RegisteredDevice) (incidentIds : List Id) : Principal where
  subjectType := .device
  subjectId := id
  role := .resident
  incidentIds := incidentIds
  tokenVersion := device.tokenVersion
  username := none

/-- `_issue_pair`, on a token drawn at random; token hashes are unique. -/
def issuePair (actor : Principal) (familyId : Option Id) (drawn : String) :
    Result (AuthDb × Grant) := do
  let family := familyId.getD db.families
  let refresh : RefreshSession :=
    { subjectType := actor.subjectType
      subjectId := actor.subjectId
      incidentId := if actor.subjectType = .device then actor.incidentIds.head? else none
      tokenHash := lib.refreshTokenHash drawn
      familyId := family
      issuedTokenVersion := actor.tokenVersion
      expiresAt := now + hours (24 * settings.refreshTokenDays)
      createdAt := now
      usedAt := none
      revokedAt := none
      replacedById := none }
  require (db.findSession (withHash refresh.tokenHash) = none) internalError
  pure ({ db with
      refreshSessions := db.refreshSessions.insert (some refresh)
      families := if familyId.isNone then db.families + 1 else db.families },
    { token := db.refreshSessions.size
      family := family
      response :=
        { accessToken := createAccessToken settings now actor
          refreshToken := drawn
          expiresIn := settings.accessTokenMinutes * 60
          currentIncidentId := actor.incidentIds.head? } })

def newDevice (digest : String) (body : AnonymousSessionCreate) : RegisteredDevice where
  installationIdHash := digest
  platform := body.platform
  locale := body.locale
  regionCode := body.regionCode
  tokenVersion := 1
  lastSeenAt := now
  createdAt := now
  revokedAt := none

/-- The device of an anonymous session; a revoked one gives up its installation. -/
def registerDevice (digest : String) (body : AnonymousSessionCreate) :
    Table RegisteredDevice × Id × RegisteredDevice :=
  match db.devices.find fun d => d.installationIdHash = digest with
  | none => (db.devices.insert (newDevice now digest body), db.devices.size, newDevice now digest body)
  | some (id, device) =>
    if device.revokedAt.isSome then
      let released := db.devices.modify id fun d =>
        { d with installationIdHash := "revoked:" ++ toString id ++ ":" ++ digest }
      (released.insert (newDevice now digest body), released.size, newDevice now digest body)
    else
      (db.devices.modify id fun d =>
        { d with
          platform := body.platform
          locale := body.locale
          regionCode := body.regionCode
          lastSeenAt := now }, id, device)

/-- `create_anonymous_session`, with the device it is for. -/
def createAnonymousSession (body : AnonymousSessionCreate) (drawn : String) :
    Result (AuthDb × Id × Grant) := do
  require (22 ≤ body.installationId.length)
    (unprocessable "INSTALLATION_ID_TOO_WEAK" "installation_id 必须至少包含 128 位随机熵")
  let incident ← db.activeIncident body.incidentId
  let (devices, id, device) := db.registerDevice now (lib.installationHash body.installationId) body
  let (db, grant) ← issuePair lib settings now { db with devices := devices }
    (deviceActor id device [incident]) none drawn
  pure (db, id, grant)

/-- `_login` -/
def login (username password drawn : String) : Result (AuthDb × Grant) := do
  let invalid : ApiError := ⟨401, "INVALID_CREDENTIALS", "用户名或密码错误", []⟩
  let (id, account) ← found (db.accounts.find fun a => a.username = username) invalid
  require (account.isActive = true ∧ lib.verifyPassword password account.passwordHash = true) invalid
  db.issuePair lib settings now (db.accountActor id account) none drawn

/-- The actor a refresh token stands for. -/
def refreshActor (refresh : RefreshSession) : Result Principal :=
  match refresh.subjectType with
  | .device => do
    let revoked := accessRevoked "匿名会话已被吊销"
    let device ← found (db.devices.get refresh.subjectId) revoked
    require (device.revokedAt.isNone = true ∧ device.tokenVersion = refresh.issuedTokenVersion) revoked
    let incidentId ← found refresh.incidentId (accessRevoked "匿名会话缺少事件作用域，请重新创建会话")
    let incident ← db.activeIncident (some (.id incidentId))
    pure (deviceActor refresh.subjectId device [incident])
  | .account => do
    let account ← found (db.accounts.get refresh.subjectId) (accessRevoked "账号已停用")
    require (account.isActive = true) (accessRevoked "账号已停用")
    pure (db.accountActor refresh.subjectId account)

/-- `_rotate_refresh`, with the token it redeems. -/
def rotateRefresh (expectedType : Option SubjectType) (tokenValue drawn : String) :
    Result (AuthDb × Id × Grant) := do
  let (id, refresh) ← found (db.findSession (withHash (lib.refreshTokenHash tokenValue)))
    (invalidRefreshToken "Refresh Token 无效")
  require (expectedType.all (refresh.subjectType = ·)) (invalidRefreshToken "Refresh Token 主体类型不匹配")
  require (refresh.usedAt = none) ⟨401, "REFRESH_TOKEN_REPLAYED", "该 Refresh Token 已使用", []⟩
  require (refresh.revokedAt = none ∧ now < refresh.expiresAt)
    ⟨401, "REFRESH_TOKEN_EXPIRED", "Refresh Token 已过期或被吊销", []⟩
  let actor ← db.refreshActor refresh
  let used := db.modifySession id fun r => { r with usedAt := some now }
  let (issued, grant) ← used.issuePair lib settings now actor (some refresh.familyId) drawn
  pure (issued.modifySession id fun r => { r with replacedById := some grant.token }, id, grant)

def logout (token : String) : AuthDb :=
  match db.findSession (withHash (lib.refreshTokenHash token)) with
  | some (id, refresh) =>
    if refresh.revokedAt.isNone then db.modifySession id fun r => { r with revokedAt := some now }
    else db
  | none => db

/-- `revoke_anonymous`, with the device it revokes. -/
def revokeAnonymous (token : String) : Result (AuthDb × Id) := do
  let (_, refresh) ← found
    (db.findSession fun r => withHash (lib.refreshTokenHash token) r && r.subjectType = .device)
    (invalidRefreshToken "Refresh Token 无效")
  let _ ← found (db.devices.get refresh.subjectId) (invalidRefreshToken "匿名设备不存在")
  pure ({ db with
      devices := db.devices.modify refresh.subjectId fun d =>
        { d with tokenVersion := d.tokenVersion + 1, revokedAt := some now }
      refreshSessions := db.refreshSessions.sweep (Option.map fun r =>
        if r.subjectType = .device && r.subjectId = refresh.subjectId && r.revokedAt.isNone then
          { r with revokedAt := some now }
        else r) }, refresh.subjectId)

/-- `get_actor`, on a token whose signature is ours. -/
def getActor (token : AccessToken) : Result Principal := do
  require (token.issuedAt * 1000000 ≤ now ∧ now < token.expiresAt * 1000000)
    ⟨401, "INVALID_ACCESS_TOKEN", "访问令牌无效或已过期", []⟩
  match token.subjectType with
  | .device => do
    let revoked := accessRevoked "匿名会话已被吊销"
    let device ← found (db.devices.get token.sub) revoked
    require (device.revokedAt.isNone = true ∧ device.tokenVersion = token.tokenVersion) revoked
    pure (deviceActor token.sub device token.incidentIds)
  | .account => do
    let account ← found (db.accounts.get token.sub) (accessRevoked "账号已停用")
    require (account.isActive = true) (accessRevoked "账号已停用")
    pure (db.accountActor token.sub account)

/-- What a retention pass does to the refresh sessions. -/
def deleteExpiredSessions : AuthDb :=
  { db with refreshSessions := db.refreshSessions.sweep fun row =>
      if row.any (·.expiresAt ≤ now) then none else row }

end AuthDb

structure AuthState where
  now : Time
  db : AuthDb

/-- A deployment before its first session. -/
def AuthState.initial (now : Time) (incidents : Table Incident) (accounts : Table LocalAccount)
    (memberships : List (Id × Id)) : AuthState :=
  ⟨now, ⟨incidents, .empty, accounts, memberships, .empty, 0⟩⟩

/-- A request brings the token that is drawn if it is accepted; incidents, accounts and
memberships change under other requests. -/
inductive AuthStep
  | anonymousSession (body : AnonymousSessionCreate) (drawn : String)
  | login (username password drawn : String)
  | refresh (expectedType : SubjectType) (token drawn : String)
  | logout (token : String)
  | revokeAnonymous (token : String)
  | authenticated (token : AccessToken)
  | retention
  | administer (incidents : Table Incident) (accounts : Table LocalAccount)
      (memberships : List (Id × Id))
  | tick (elapsed : ℕ)

/-- The tokens an accepted request issues. -/
inductive AuthEvent
  | opened (token family : Id)
  | redeemed (token replacement family : Id)
  deriving DecidableEq

section Steps
variable (lib : SecurityLib) (settings : SecuritySettings)

def authServe (s : AuthState) : AuthStep → Result (AuthDb × List AuthEvent)
  | .anonymousSession body drawn => do
    let (db, _, grant) ← s.db.createAnonymousSession lib settings s.now body drawn
    pure (db, [.opened grant.token grant.family])
  | .login username password drawn => do
    let (db, grant) ← s.db.login lib settings s.now username password drawn
    pure (db, [.opened grant.token grant.family])
  | .refresh expectedType token drawn => do
    let (db, id, grant) ← s.db.rotateRefresh lib settings s.now (some expectedType) token drawn
    pure (db, [.redeemed id grant.token grant.family])
  | .logout token => pure (s.db.logout lib s.now token, [])
  | .revokeAnonymous token => do
    let (db, _) ← s.db.revokeAnonymous lib s.now token
    pure (db, [])
  | .authenticated token => do
    let _ ← s.db.getActor s.now token
    pure (s.db, [])
  | .retention => pure (s.db.deleteExpiredSessions s.now, [])
  | .administer incidents accounts memberships =>
    pure ({ s.db with incidents := incidents, accounts := accounts, memberships := memberships }, [])
  | .tick _ => pure (s.db, [])

def AuthStep.elapsed : AuthStep → ℕ
  | .tick elapsed => elapsed
  | _ => 0

def authStep (s : AuthState) (x : AuthStep) : AuthState :=
  ⟨s.now + x.elapsed, commit s.db ((authServe lib settings s x).map (·.1))⟩

def authEvents (s : AuthState) (x : AuthStep) : List AuthEvent :=
  match authServe lib settings s x with
  | .ok (_, events) => events
  | .error _ => []

end Steps
end CrisisMosaic
