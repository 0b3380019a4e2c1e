import CrisisMosaic.Relational.Unique
import CrisisMosaic.RetentionRuns

/-!
# Push devices

An operator registers the device on which it gets notifications. The row of an earlier registration
with the same installation or the same token is used again.
-/

namespace CrisisMosaic
open Relational Storage

inductive PushPlatform
  | android | ios | web
  deriving DecidableEq

inductive PushEnvironment
  | dev | staging | production
  deriving DecidableEq

inductive PushAuthorization
  | authorized | provisional | denied | ephemeral
  deriving DecidableEq

inductive PushStatus
  | active | revoked
  deriving DecidableEq

structure PushDeviceRegistration where
  installationId : Bounded 22 512
  platform : PushPlatform
  provider : Bounded 2 40
  providerToken : Bounded 8 4096
  appId : Bounded 3 160
  environment : PushEnvironment := .dev
  authorizationStatus : PushAuthorization := .authorized
  routePriority : {n : ℕ // 1 ≤ n ∧ n ≤ 10} := ⟨1, by decide⟩
  appVersion : Option (Bounded 0 40) := none

/-- A row of `push_devices`. -/
structure PushDevice where
  operatorId : Id
  installationIdHash : String
  platform : PushPlatform
  provider : String
  providerTokenCiphertext : String
  providerTokenHash : String
  tokenFingerprint : String
  appId : String
  environment : PushEnvironment
  authorizationStatus : PushAuthorization
  routePriority : ℕ
  appVersion : Option String
  status : PushStatus
  lastSeenAt : Time
  revokedAt : Option Time
  revokedReason : Option String
  createdAt : Time
  updatedAt : Time

/-- The libraries under the secret of the push tokens. -/
structure PushEnv where
  pii : PiiLib
  text : TextLib
  pushAllowedProviders : List String
  pushAllowedAppIds : List String
  piiEncryptionKeyVersion : String

def invalidPushRegistration (message : String) (details : Dict) : ApiError :=
  ⟨422, "INVALID_PUSH_REGISTRATION", message, details⟩

def requireOperatorAccount (actor : Actor) : Result Unit :=
  require (actor.subjectType = .account ∧ (actor.role = .operator ∨ actor.role = .admin))
    (forbidden "OPERATOR_ACCOUNT_REQUIRED" "仅指挥账号可管理 Push")

namespace PushDevice

/-- `UniqueConstraint("operator_id", "provider", "provider_token_hash")` -/
def tokenKey (d : PushDevice) : Id × String × String := (d.operatorId, d.provider, d.providerTokenHash)

/-- `UniqueConstraint("operator_id", "installation_id_hash", "provider")` -/
def installationKey (d : PushDevice) : Id × String × String :=
  (d.operatorId, d.installationIdHash, d.provider)

end PushDevice

def KeysUnique (devices : Table PushDevice) : Prop :=
  devices.UniqueOn PushDevice.tokenKey ∧ devices.UniqueOn PushDevice.installationKey

instance (devices : Table PushDevice) : Decidable (KeysUnique devices) := inferInstanceAs (Decidable (_ ∧ _))

section Registration
variable (env : PushEnv) (now : Time) (nonce : Bytes) (actor : Actor) (payload : PushDeviceRegistration)

/-- `payload.provider.lower()` -/
def loweredProvider : String := String.ofList (payload.provider.val.toList.flatMap env.text.lower)

def validateRegistration : Result Unit := do
  let provider := loweredProvider env payload
  require (provider ∈ env.pushAllowedProviders)
    (invalidPushRegistration "Push 提供方未启用" [("provider", .str provider)])
  require (payload.appId.val ∈ env.pushAllowedAppIds)
    (invalidPushRegistration "Push App ID 不匹配" [("app_id", .str payload.appId.val)])
  require (¬ (payload.platform = .ios ∧ provider ≠ "apns"))
    (invalidPushRegistration "iOS 设备必须使用 APNs" [])
  require (¬ (payload.platform = .android ∧ provider = "apns"))
    (invalidPushRegistration "Android 设备不能使用 APNs" [])

def installationHash : String := env.pii.hmac payload.installationId.val

def providerTokenHash : String := env.pii.hmac payload.providerToken.val

def encryptToken (operatorId : Id) (provider value : String) : String :=
  let aad := env.pii.utf8.encode
    (env.pii.idText operatorId ++ ":" ++ provider ++ ":" ++ env.piiEncryptionKeyVersion)
  let token := (env.pii.aes nonce aad).encode (env.pii.utf8.encode value)
  Base64.encode (env.pii.utf8.encode (env.pii.json.encode (Base64.encode nonce, Base64.encode token)))

/-- The row of the operator and the provider has the installation or the token of the request. -/
def isRegistered (d : PushDevice) : Bool :=
  d.operatorId = actor.subjectId && d.provider = loweredProvider env payload &&
    (d.installationIdHash = installationHash env payload || d.providerTokenHash = providerTokenHash env payload)

/-- The row with what the request says, active. -/
def registeredAs (d : PushDevice) : PushDevice :=
  let token := providerTokenHash env payload
  { d with
    installationIdHash := installationHash env payload
    platform := payload.platform
    providerTokenCiphertext :=
      encryptToken env nonce actor.subjectId (loweredProvider env payload) payload.providerToken.val
    providerTokenHash := token
    tokenFingerprint := String.ofList (token.toList.drop (token.length - 8))
    appId := payload.appId.val
    environment := payload.environment
    authorizationStatus := payload.authorizationStatus
    routePriority := payload.routePriority
    appVersion := payload.appVersion.map (·.val)
    status := .active
    revokedAt := none
    revokedReason := none
    lastSeenAt := now
    updatedAt := now }

def emptyDevice : PushDevice :=
  { operatorId := actor.subjectId
    installationIdHash := ""
    platform := payload.platform
    provider := loweredProvider env payload
    providerTokenCiphertext := ""
    providerTokenHash := ""
    tokenFingerprint := ""
    appId := ""
    environment := .dev
    authorizationStatus := .authorized
    routePriority := 1
    appVersion := none
    status := .active
    lastSeenAt := now
    revokedAt := none
    revokedReason := none
    createdAt := now
    updatedAt := now }

/-- The row found first is overwritten, else a row is added. -/
def placeDevice (devices : Table PushDevice) : Table PushDevice × Id :=
  match (newestFirst devices (·.updatedAt) (devices.select (isRegistered env actor payload))).head? with
  | none =>
    (devices.insert (registeredAs env now nonce actor payload (emptyDevice env now actor payload)),
      devices.size)
  | some id => (devices.modify id (registeredAs env now nonce actor payload), id)

/-- The flush fails if a key is there twice, and nothing handles that. -/
def registerPushDevice (devices : Table PushDevice) : Result (Table PushDevice × Id) := do
  requireOperatorAccount actor
  validateRegistration env payload
  let placed := placeDevice env now nonce actor payload devices
  require (KeysUnique placed.1) internalError
  pure placed

end Registration

/-! ## What a registration leaves -/

section Results
variable {env : PushEnv} {now : Time} {nonce : Bytes} {actor : Actor} {payload : PushDeviceRegistration}
  {devices : Table PushDevice}

variable (env actor payload) in
/-- The request's installation and token are on the active row `id` and on no other. -/
structure HoldsRegistration (devices : Table PushDevice) (id : Id) : Prop where
  keys : KeysUnique devices
  active : ∃ d, devices.get id = some d ∧ d.status = .active ∧ d.operatorId = actor.subjectId ∧
    d.provider = loweredProvider env payload ∧ d.installationIdHash = installationHash env payload ∧
      d.providerTokenHash = providerTokenHash env payload
  only : ∀ i d, devices.get i = some d → isRegistered env actor payload d = true → i = id

variable (env actor payload devices) in
/-- Two rows of the operator and the provider have the one the installation and the other the token. -/
def IsSplit : Prop :=
  ∃ i j d e, i ≠ j ∧ devices.get i = some d ∧ devices.get j = some e ∧
    d.operatorId = actor.subjectId ∧ e.operatorId = actor.subjectId ∧
      d.provider = loweredProvider env payload ∧ e.provider = loweredProvider env payload ∧
        d.installationIdHash = installationHash env payload ∧
          e.providerTokenHash = providerTokenHash env payload

theorem isRegistered_iff {d : PushDevice} : isRegistered env actor payload d = true ↔
    d.operatorId = actor.subjectId ∧ d.provider = loweredProvider env payload ∧
      (d.installationIdHash = installationHash env payload ∨
        d.providerTokenHash = providerTokenHash env payload) := by
  simp [isRegistered, and_assoc]

variable (now nonce) in
/-- A row of the operator and the provider has one of the request's keys if it is registered. -/
theorem key_eq_iff {d : PushDevice} (hoperator : d.operatorId = actor.subjectId)
    (hprovider : d.provider = loweredProvider env payload) (e : PushDevice) :
    ¬ (isRegistered env actor payload e = true) ↔
      e.tokenKey ≠ (registeredAs env now nonce actor payload d).tokenKey ∧
        e.installationKey ≠ (registeredAs env now nonce actor payload d).installationKey := by
  rw [isRegistered_iff]
  simp only [PushDevice.tokenKey, PushDevice.installationKey, registeredAs, hoperator, hprovider, ne_eq,
    Prod.mk.injEq]
  tauto

variable (env now nonce actor payload devices) in
/-- Either no row has the installation or the token, and one is added, or one that has is overwritten. -/
theorem placeDevice_cases :
    ((∀ i d, devices.get i = some d → ¬ (isRegistered env actor payload d = true)) ∧
      placeDevice env now nonce actor payload devices =
        (devices.insert (registeredAs env now nonce actor payload (emptyDevice env now actor payload)),
          devices.size)) ∨
    ∃ id d, devices.get id = some d ∧ isRegistered env actor payload d = true ∧
      placeDevice env now nonce actor payload devices =
        (devices.modify id (registeredAs env now nonce actor payload), id) := by
  unfold placeDevice
  cases hhead : (newestFirst devices (·.updatedAt)
      (devices.select (isRegistered env actor payload))).head? with
  | none =>
    left
    refine ⟨?_, rfl⟩
    intro i d hd hregistered
    have hmem : i ∈ newestFirst devices (·.updatedAt) (devices.select (isRegistered env actor payload)) :=
      mem_newestFirst.mpr (Table.mem_select.mpr ⟨d, hd, hregistered⟩)
    rw [List.head?_eq_none_iff.mp hhead] at hmem
    exact List.not_mem_nil hmem
  | some id =>
    right
    obtain ⟨d, hd, hregistered⟩ := Table.mem_select.mp (mem_newestFirst.mp (List.mem_of_head? hhead))
    exact ⟨id, d, hd, hregistered, rfl⟩

/-- The keys are unique after a registration exactly if all rows that had one of the request's are
one row. -/
theorem keysUnique_place_iff (h : KeysUnique devices) :
    KeysUnique (placeDevice env now nonce actor payload devices).1 ↔
      ∀ i d, devices.get i = some d → isRegistered env actor payload d = true →
        i = (placeDevice env now nonce actor payload devices).2 := by
  rcases placeDevice_cases env now nonce actor payload devices with ⟨hnone, hplace⟩ | ⟨id, d, hd, hreg, hplace⟩
  · rw [hplace]
    refine iff_of_true ?_ fun i d hd hregistered => absurd hregistered (hnone i d hd)
    have hkeys : ∀ i e, devices.get i = some e → _ := fun i e he =>
      (key_eq_iff now nonce (d := emptyDevice env now actor payload) rfl rfl e).mp
        (hnone i e he)
    exact ⟨h.1.insert fun i e he => (hkeys i e he).1, h.2.insert fun i e he => (hkeys i e he).2⟩
  · rw [hplace]
    obtain ⟨hoperator, hprovider, -⟩ := isRegistered_iff.mp hreg
    rw [KeysUnique, h.1.modify_iff hd, h.2.modify_iff hd]
    constructor
    · rintro ⟨htoken, hinstallation⟩ i e he hregistered
      by_contra hne
      exact (key_eq_iff now nonce hoperator hprovider e).mpr ⟨htoken i e hne he, hinstallation i e hne he⟩ hregistered
    · intro honly
      have hkeys : ∀ i e, i ≠ id → devices.get i = some e → _ := fun i e hne he =>
        (key_eq_iff now nonce hoperator hprovider e).mp fun hregistered =>
          hne (honly i e he hregistered)
      exact ⟨fun i e hne he => (hkeys i e hne he).1, fun i e hne he => (hkeys i e hne he).2⟩

variable (now nonce) in
/-- The rows that have one of the request's keys are one row exactly if no two of them share them. -/
theorem not_isSplit_iff (h : KeysUnique devices) : ¬ IsSplit env actor payload devices ↔
    ∀ i d, devices.get i = some d → isRegistered env actor payload d = true →
      i = (placeDevice env now nonce actor payload devices).2 := by
  rcases placeDevice_cases env now nonce actor payload devices with ⟨hnone, hplace⟩ | ⟨id, d, hd, hreg, hplace⟩
  · refine iff_of_true ?_ fun i d hd hregistered => absurd hregistered (hnone i d hd)
    rintro ⟨i, -, d, -, -, hd, -, hoperator, -, hprovider, -, hinstallation, -⟩
    exact hnone i d hd (isRegistered_iff.mpr ⟨hoperator, hprovider, Or.inl hinstallation⟩)
  · rw [hplace]
    constructor
    · intro hwhole i e he hregistered
      by_contra hne
      obtain ⟨hoperator, hprovider, hkey⟩ := isRegistered_iff.mp hreg
      obtain ⟨hoperator', hprovider', hkey'⟩ := isRegistered_iff.mp hregistered
      rcases hkey with hinstallation | htoken
      · rcases hkey' with hinstallation' | htoken'
        · refine hne (h.2.eq he hd ?_)
          simp only [PushDevice.installationKey, hoperator, hoperator', hprovider, hprovider', hinstallation,
            hinstallation']
        · exact hwhole ⟨id, i, d, e, Ne.symm hne, hd, he, hoperator, hoperator', hprovider, hprovider',
            hinstallation, htoken'⟩
      · rcases hkey' with hinstallation' | htoken'
        · exact hwhole ⟨i, id, e, d, hne, he, hd, hoperator', hoperator, hprovider', hprovider,
            hinstallation', htoken⟩
        · refine hne (h.1.eq he hd ?_)
          simp only [PushDevice.tokenKey, hoperator, hoperator', hprovider, hprovider', htoken, htoken']
    · rintro honly ⟨i, j, d, e, hne, hd, he, hoperator, hoperator', hprovider, hprovider', hinstallation, htoken⟩
      have hi := honly i d hd (isRegistered_iff.mpr ⟨hoperator, hprovider, Or.inl hinstallation⟩)
      have hj := honly j e he (isRegistered_iff.mpr ⟨hoperator', hprovider', Or.inr htoken⟩)
      exact hne (hi.trans hj.symm)

variable (env now nonce actor payload devices) in
theorem get_placed : ∃ d : PushDevice, d.operatorId = actor.subjectId ∧
    d.provider = loweredProvider env payload ∧
      (placeDevice env now nonce actor payload devices).1.get
        (placeDevice env now nonce actor payload devices).2 = some (registeredAs env now nonce actor payload d) := by
  rcases placeDevice_cases env now nonce actor payload devices with ⟨-, hplace⟩ | ⟨id, d, hd, hreg, hplace⟩
  · rw [hplace]
    exact ⟨emptyDevice env now actor payload, rfl, rfl, Table.get_insert_size _ _⟩
  · rw [hplace]
    obtain ⟨hoperator, hprovider, -⟩ := isRegistered_iff.mp hreg
    refine ⟨d, hoperator, hprovider, ?_⟩
    rw [Table.get_modify_self, hd, Option.map_some]

/-- What a registration that goes through has written. -/
theorem place_holds (hkeys : KeysUnique (placeDevice env now nonce actor payload devices).1) :
    HoldsRegistration env actor payload (placeDevice env now nonce actor payload devices).1
      (placeDevice env now nonce actor payload devices).2 := by
  obtain ⟨d, hoperator, hprovider, hget⟩ := get_placed env now nonce actor payload devices
  refine ⟨hkeys, ⟨_, hget, rfl, hoperator, hprovider, rfl, rfl⟩, ?_⟩
  intro i e he hregistered
  by_contra hne
  refine (key_eq_iff now nonce hoperator hprovider e).mpr ⟨?_, ?_⟩ hregistered
  · exact fun htoken => hne (hkeys.1.eq he hget htoken)
  · exact fun hinstallation => hne (hkeys.2.eq he hget hinstallation)

theorem registerPushDevice_ok (hoperator : requireOperatorAccount actor = .ok ())
    (hvalid : validateRegistration env payload = .ok ()) {devices' : Table PushDevice} {id : Id} :
    registerPushDevice env now nonce actor payload devices = .ok (devices', id) ↔
      KeysUnique (placeDevice env now nonce actor payload devices).1 ∧
        placeDevice env now nonce actor payload devices = (devices', id) := by
  simp only [registerPushDevice, hoperator, hvalid, bind_ok, require_ok, pure_ok, exists_and_left,
    exists_const, true_and]

end Results

/-- A valid registration goes through, with unique keys and the request's installation and token on one
active row, exactly if these are not on two different rows of the operator and the provider. -/
theorem registration_goes_through_iff (env : PushEnv) (now : Time) (nonce : Bytes) (actor : Actor)
    (payload : PushDeviceRegistration) (devices : Table PushDevice) (hkeys : KeysUnique devices)
    (hoperator : requireOperatorAccount actor = .ok ())
    (hvalid : validateRegistration env payload = .ok ()) :
    (∃ devices' id, registerPushDevice env now nonce actor payload devices = .ok (devices', id) ∧
      HoldsRegistration env actor payload devices' id) ↔ ¬ IsSplit env actor payload devices := by
  rw [not_isSplit_iff now nonce hkeys, ← keysUnique_place_iff hkeys]
  constructor
  · rintro ⟨devices', id, hok, -⟩
    exact ((registerPushDevice_ok hoperator hvalid).mp hok).1
  · intro hunique
    exact ⟨_, _, (registerPushDevice_ok hoperator hvalid).mpr ⟨hunique, rfl⟩, place_holds hunique⟩

namespace Sample

def pushEnv : PushEnv := ⟨pii, text, ["fcm"], ["app"], "1"⟩

def registration (installation : Bounded 22 512) (token : Bounded 8 4096) : PushDeviceRegistration :=
  { installationId := installation
    platform := .android
    provider := ⟨"FCM", by decide⟩
    providerToken := token
    appId := ⟨"app", by decide⟩ }

def firstPhone : Bounded 22 512 := ⟨"installation-0000000001", by decide⟩
def secondPhone : Bounded 22 512 := ⟨"installation-0000000002", by decide⟩
def firstToken : Bounded 8 4096 := ⟨"token-01", by decide⟩
def secondToken : Bounded 8 4096 := ⟨"token-02", by decide⟩

/-- The row of a phone after one registration. -/
def pushDevice (installation : Bounded 22 512) (token : Bounded 8 4096) : PushDevice :=
  registeredAs pushEnv 0 [] secondAdmin (registration installation token)
    (emptyDevice pushEnv 0 secondAdmin (registration installation token))

abbrev onePhone : Table PushDevice := ⟨[pushDevice firstPhone firstToken]⟩
abbrev twoPhones : Table PushDevice := ⟨[pushDevice firstPhone firstToken, pushDevice secondPhone secondToken]⟩

end Sample
open Sample

/-- A phone with a new token keeps its row. -/
theorem new_token_goes_through : ∃ devices' id,
    registerPushDevice pushEnv 1 [] secondAdmin (registration firstPhone secondToken) onePhone =
        .ok (devices', id) ∧
      HoldsRegistration pushEnv secondAdmin (registration firstPhone secondToken) devices' id := by
  refine (registration_goes_through_iff pushEnv 1 [] secondAdmin (registration firstPhone secondToken) onePhone
    (by decide +kernel) rfl rfl).mpr ?_
  rintro ⟨i, j, d, e, hne, hd, he, -⟩
  have hi := Table.lt_size hd
  have hj := Table.lt_size he
  have hsize : onePhone.size = 1 := rfl
  omega

/-- One phone has got the token of another. -/
theorem token_of_another_phone_is_refused :
    KeysUnique twoPhones ∧ requireOperatorAccount secondAdmin = .ok () ∧
      validateRegistration pushEnv (registration firstPhone secondToken) = .ok () ∧
        ¬ ∃ devices' id,
          registerPushDevice pushEnv 1 [] secondAdmin (registration firstPhone secondToken) twoPhones =
            .ok (devices', id) := by
  refine ⟨by decide +kernel, rfl, rfl, ?_⟩
  rintro ⟨devices', id, hok⟩
  have hrefused : (registerPushDevice pushEnv 1 [] secondAdmin (registration firstPhone secondToken)
      twoPhones).toOption.isNone = true := by decide +kernel
  rw [hok] at hrefused
  exact nomatch hrefused

end CrisisMosaic
