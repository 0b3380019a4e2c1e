import CrisisMosaic.RefreshChains

/-!
# Revoked devices

A revoked device stays revoked and gives up its installation when the installation asks
for a session again; so its tokens are refused for good, and the installation goes on under
a new device.
-/

namespace CrisisMosaic
open Relational

/-- A later row of a device, if it was stored before: a revocation lasts, and a device that is
not revoked keeps its installation. -/
def RegisteredDevice.Ages : Option RegisteredDevice → RegisteredDevice → Prop
  | none, _ => True
  | some a, b => (b.revokedAt = none → a.revokedAt = none ∧ b.installationIdHash = a.installationIdHash)

theorem RegisteredDevice.Ages.refl (a : RegisteredDevice) : Ages (some a) a := fun h => ⟨h, rfl⟩

theorem RegisteredDevice.Ages.trans (o : Option RegisteredDevice) (a b : RegisteredDevice)
    (hoa : Ages o a) (hab : Ages (some a) b) : Ages o b := by
  cases o with
  | none => trivial
  | some c =>
    intro hb
    obtain ⟨ha, hhash⟩ := hab hb
    obtain ⟨hc, hhash'⟩ := hoa ha
    exact ⟨hc, hhash.trans hhash'⟩

/-- No installation belongs to two devices that are not revoked. -/
def UniqueInstallations (devices : Table RegisteredDevice) : Prop :=
  ∀ i j a b, devices.get i = some a → devices.get j = some b → a.revokedAt = none →
    b.revokedAt = none → a.installationIdHash = b.installationIdHash → i = j

/-- A device that is not revoked holds a digest, and no digest is held twice. -/
structure Installed (devices : Table RegisteredDevice) : Prop where
  hex : ∀ i a, devices.get i = some a → a.revokedAt = none → ':' ∉ a.installationIdHash.toList
  unique : ∀ i j a b, devices.get i = some a → devices.get j = some b →
    a.installationIdHash = b.installationIdHash → ':' ∉ a.installationIdHash.toList → i = j

namespace Installed
variable {devices : Table RegisteredDevice}

theorem uniqueInstallations (h : Installed devices) : UniqueInstallations devices :=
  fun i j a b hi hj ha _ hhash => h.unique i j a b hi hj hhash (h.hex i a hi ha)

theorem insert (h : Installed devices) {b : RegisteredDevice}
    (hother : ∀ i a, devices.get i = some a → a.installationIdHash ≠ b.installationIdHash)
    (hhex : ':' ∉ b.installationIdHash.toList) : Installed (devices.insert b) where
  hex := by
    intro i a ha hnone
    rcases Table.get_insert_cases ha with ⟨-, rfl⟩ | ha
    · exact hhex
    · exact h.hex i a ha hnone
  unique := by
    intro i j a c ha hc hhash hdigest
    rcases Table.get_insert_cases ha with ⟨rfl, rfl⟩ | ha'
    · rcases Table.get_insert_cases hc with ⟨rfl, -⟩ | hc'
      · rfl
      · exact absurd hhash.symm (hother j c hc')
    · rcases Table.get_insert_cases hc with ⟨rfl, rfl⟩ | hc'
      · exact absurd hhash (hother i a ha')
      · exact h.unique i j a c ha' hc' hhash hdigest

/-- A device keeps its digest, or gives it up for good. -/
theorem modify (h : Installed devices) {i : Id} {f : RegisteredDevice → RegisteredDevice}
    (hf : ∀ a, devices.get i = some a → ((f a).revokedAt = none → a.revokedAt = none) ∧
      ((f a).installationIdHash = a.installationIdHash ∨
        (f a).revokedAt ≠ none ∧ ':' ∈ (f a).installationIdHash.toList)) :
    Installed (devices.modify i f) where
  hex := by
    intro j b hb hnone
    rcases Table.get_modify_cases hb with ⟨rfl, a, ha, rfl⟩ | ⟨-, hb⟩
    · obtain ⟨hkept, hhash | ⟨hrevoked, -⟩⟩ := hf a ha
      · rw [hhash]
        exact h.hex i a ha (hkept hnone)
      · exact absurd hnone hrevoked
    · exact h.hex j b hb hnone
  unique := by
    -- a row that holds a digest held it before
    have hheld : ∀ j b, (devices.modify i f).get j = some b → ':' ∉ b.installationIdHash.toList →
        ∃ a, devices.get j = some a ∧ b.installationIdHash = a.installationIdHash := by
      intro j b hb hdigest
      rcases Table.get_modify_cases hb with ⟨rfl, a, ha, rfl⟩ | ⟨-, hb⟩
      · obtain ⟨-, hhash | ⟨-, hcolon⟩⟩ := hf a ha
        · exact ⟨a, ha, hhash⟩
        · exact absurd hcolon hdigest
      · exact ⟨b, hb, rfl⟩
    intro j k b c hb hc hhash hdigest
    obtain ⟨b', hb', hbb⟩ := hheld j b hb hdigest
    obtain ⟨c', hc', hcc⟩ := hheld k c hc (hhash ▸ hdigest)
    exact h.unique j k b' c' hb' hc' (hbb ▸ hcc ▸ hhash) (hbb ▸ hdigest)

theorem empty : Installed .empty where
  hex := by
    intro i a ha
    exact nomatch (Table.get_empty i).symm.trans ha
  unique := by
    intro i j a b ha
    exact nomatch (Table.get_empty i).symm.trans ha

end Installed

theorem released_not_hex (id : Id) (digest : String) :
    ':' ∈ ("revoked:" ++ toString id ++ ":" ++ digest).toList := by
  simp [String.toList_append]

namespace AuthDb
variable {lib : SecurityLib} {settings : SecuritySettings} {now : Time} {db t : AuthDb}

section Register
variable (now) (db) (digest : String) (body : AnonymousSessionCreate)

/-- The device of a session is not revoked and has the installation, or is new. -/
theorem registerDevice_id :
    (∃ a, db.devices.get (db.registerDevice now digest body).2.1 = some a ∧ a.revokedAt = none ∧
      a.installationIdHash = digest) ∨
    db.devices.get (db.registerDevice now digest body).2.1 = none := by
  unfold registerDevice
  cases hfind : db.devices.find fun d => d.installationIdHash = digest with
  | none => exact Or.inr (Table.get_size _)
  | some x =>
    obtain ⟨id, device⟩ := x
    obtain ⟨hget, hhash⟩ := Table.find_some hfind
    dsimp only
    by_cases hrevoked : device.revokedAt.isSome = true
    · rw [if_pos hrevoked]
      dsimp only
      rw [Table.size_modify]
      exact Or.inr (Table.get_size _)
    · rw [if_neg hrevoked]
      have hnone : device.revokedAt = none := by simpa using hrevoked
      exact Or.inl ⟨device, hget, hnone, of_decide_eq_true hhash⟩

theorem registerDevice_evolves :
    db.devices.Evolves RegisteredDevice.Ages (db.registerDevice now digest body).1 := by
  have hrefl := Table.Evolves.refl RegisteredDevice.Ages.refl db.devices
  unfold registerDevice
  cases hfind : db.devices.find fun d => d.installationIdHash = digest with
  | none => exact hrefl.insert trivial
  | some x =>
    obtain ⟨id, device⟩ := x
    obtain ⟨hget, -⟩ := Table.find_some hfind
    dsimp only
    by_cases hrevoked : device.revokedAt.isSome = true
    · rw [if_pos hrevoked]
      apply Table.Evolves.insert _ trivial
      apply hrefl.modify
      intro a ha _
      rw [ha]
      intro hnone
      obtain rfl := Option.some.inj (hget.symm.trans ha)
      rw [show device.revokedAt = none from hnone] at hrevoked
      exact nomatch hrevoked
    · rw [if_neg hrevoked]
      apply hrefl.modify
      intro a ha _
      rw [ha]
      exact fun hnone => ⟨hnone, rfl⟩

variable {db} {digest} in
theorem registerDevice_installed (h : Installed db.devices) (hhex : ':' ∉ digest.toList) :
    Installed (db.registerDevice now digest body).1 := by
  unfold registerDevice
  cases hfind : db.devices.find fun d => d.installationIdHash = digest with
  | none => exact h.insert (fun i a ha => of_decide_eq_false (Table.find_none hfind ha)) hhex
  | some x =>
    obtain ⟨id, device⟩ := x
    obtain ⟨hget, hfound⟩ := Table.find_some hfind
    have hhash : device.installationIdHash = digest := of_decide_eq_true hfound
    dsimp only
    by_cases hrevoked : device.revokedAt.isSome = true
    · rw [if_pos hrevoked]
      have hreleased : Installed (db.devices.modify id fun d =>
          { d with installationIdHash := "revoked:" ++ toString id ++ ":" ++ digest }) := by
        apply h.modify
        intro a ha
        obtain rfl := Option.some.inj (hget.symm.trans ha)
        exact ⟨fun h => h, Or.inr ⟨Option.isSome_iff_ne_none.mp hrevoked, released_not_hex id digest⟩⟩
      refine hreleased.insert (fun i a ha heq => ?_) hhex
      have hdigest : a.installationIdHash = digest := heq
      rcases Table.get_modify_cases ha with ⟨rfl, c, -, rfl⟩ | ⟨hne, ha⟩
      · exact hhex (hdigest ▸ released_not_hex id digest)
      · exact hne (h.unique id i device a hget ha (hhash.trans hdigest.symm) (hhash ▸ hhex))
    · rw [if_neg hrevoked]
      apply h.modify
      intro a _
      exact ⟨fun h => h, Or.inl rfl⟩

end Register
theorem issuePair_devices {actor : Principal} {familyId : Option Id} {drawn : String} {grant : Grant}
    (h : db.issuePair lib settings now actor familyId drawn = .ok (t, grant)) :
    t.devices = db.devices := by
  obtain ⟨r, -, -, -, -, -, rfl, -⟩ := issuePair_ok h
  rfl

theorem createAnonymousSession_ok {body : AnonymousSessionCreate} {drawn : String} {id : Id}
    {grant : Grant}
    (h : db.createAnonymousSession lib settings now body drawn = .ok (t, id, grant)) :
    t.devices = (db.registerDevice now (lib.installationHash body.installationId) body).1 ∧
      id = (db.registerDevice now (lib.installationHash body.installationId) body).2.1 := by
  simp only [createAnonymousSession, bind_ok, require_ok, pure_ok, Prod.exists, Prod.mk.injEq] at h
  obtain ⟨-, -, incident, -, issued, g, hissue, rfl, rfl, -⟩ := h
  exact ⟨issuePair_devices hissue, rfl⟩

theorem issuePair_accepts (settings : SecuritySettings) (now : Time) (actor : Principal)
    (familyId : Option Id) {drawn : String}
    (h : db.findSession (withHash (lib.refreshTokenHash drawn)) = none) :
    ∃ t grant, db.issuePair lib settings now actor familyId drawn = .ok (t, grant) := by
  simp only [issuePair, bind_ok, require_ok, pure_ok, Prod.mk.injEq]
  exact ⟨_, _, ⟨⟩, h, rfl, rfl⟩

theorem createAnonymousSession_accepts {body : AnonymousSessionCreate} {drawn : String} {incident : Id}
    (hlength : 22 ≤ body.installationId.length)
    (hincident : db.activeIncident body.incidentId = .ok incident)
    (hdrawn : db.findSession (withHash (lib.refreshTokenHash drawn)) = none) :
    ∃ r, db.createAnonymousSession lib settings now body drawn = .ok r := by
  obtain ⟨⟨devices, id, device⟩, hdevices⟩ :
    ∃ r, r = db.registerDevice now (lib.installationHash body.installationId) body := ⟨_, rfl⟩
  have hunique : findSession { db with devices := devices }
      (withHash (lib.refreshTokenHash drawn)) = none := hdrawn
  obtain ⟨issued, grant, hissued⟩ := issuePair_accepts settings now
    (deviceActor id device [incident]) none hunique
  refine ⟨(issued, id, grant), ?_⟩
  simp only [createAnonymousSession, bind_ok, require_ok, pure_ok, Prod.exists, Prod.mk.injEq,
    ← hdevices]
  exact ⟨⟨⟩, hlength, incident, hincident, issued, grant, hissued, rfl, trivial, rfl⟩

theorem revokeAnonymous_ok {token : String} {d : Id}
    (h : db.revokeAnonymous lib now token = .ok (t, d)) :
    t.devices = db.devices.modify d (fun a =>
        { a with tokenVersion := a.tokenVersion + 1, revokedAt := some now }) ∧
      ∃ a, db.devices.get d = some a := by
  simp only [revokeAnonymous, bind_ok, found_ok, pure_ok, Prod.exists, Prod.mk.injEq] at h
  obtain ⟨i, refresh, -, a, ha, rfl, rfl⟩ := h
  exact ⟨rfl, a, ha⟩

theorem rotateRefresh_devices {expectedType : Option SubjectType} {token drawn : String} {id : Id}
    {grant : Grant}
    (h : db.rotateRefresh lib settings now expectedType token drawn = .ok (t, id, grant)) :
    t.devices = db.devices := by
  simp only [rotateRefresh, bind_ok, found_ok, require_ok, pure_ok, Prod.exists, Prod.mk.injEq] at h
  obtain ⟨i, refresh, -, -, -, -, -, -, -, actor, -, issued, g, hissue, rfl, -, -⟩ := h
  have hkept := issuePair_devices hissue
  exact hkept

end AuthDb

/-- What a request does to the devices. -/
inductive DeviceStep (lib : SecurityLib) (s : AuthDb) (devices : Table RegisteredDevice) : Prop
  | kept (same : devices = s.devices)
  | registered (now : Time) (body : AnonymousSessionCreate)
      (rows : devices = (s.registerDevice now (lib.installationHash body.installationId) body).1)
  | revoked (now : Time) (d : Id) (rows : devices = s.devices.modify d fun a =>
      { a with tokenVersion := a.tokenVersion + 1, revokedAt := some now })

section Steps
variable {lib : SecurityLib} {settings : SecuritySettings} {s t : AuthDb}
  {devices : Table RegisteredDevice}

theorem authServe_deviceStep {s : AuthState} {x : AuthStep} {events : List AuthEvent}
    (h : authServe lib settings s x = .ok (t, events)) : DeviceStep lib s.db t.devices := by
  cases x with
  | anonymousSession body drawn =>
    simp only [authServe, bind_ok, pure_ok, Prod.exists, Prod.mk.injEq] at h
    obtain ⟨db, id, grant, hcreate, rfl, -⟩ := h
    exact .registered s.now body (AuthDb.createAnonymousSession_ok hcreate).1
  | login username password drawn =>
    simp only [authServe, AuthDb.login, bind_ok, found_ok, require_ok, pure_ok, Prod.exists,
      Prod.mk.injEq] at h
    obtain ⟨db, grant, ⟨id, account, -, -, -, hissue⟩, rfl, -⟩ := h
    exact .kept (AuthDb.issuePair_devices hissue)
  | refresh expectedType token drawn =>
    simp only [authServe, bind_ok, pure_ok, Prod.exists, Prod.mk.injEq] at h
    obtain ⟨db, id, grant, hrotate, rfl, -⟩ := h
    exact .kept (AuthDb.rotateRefresh_devices hrotate)
  | logout token =>
    simp only [authServe, pure_ok, Prod.mk.injEq] at h
    obtain ⟨rfl, -⟩ := h
    unfold AuthDb.logout
    apply DeviceStep.kept
    split
    · split <;> rfl
    · rfl
  | revokeAnonymous token =>
    simp only [authServe, bind_ok, pure_ok, Prod.exists, Prod.mk.injEq] at h
    obtain ⟨db, d, hrevoke, rfl, -⟩ := h
    exact .revoked s.now d (AuthDb.revokeAnonymous_ok hrevoke).1
  | authenticated token =>
    simp only [authServe, bind_ok, pure_ok, Prod.mk.injEq] at h
    obtain ⟨actor, -, rfl, -⟩ := h
    exact .kept rfl
  | retention =>
    simp only [authServe, pure_ok, Prod.mk.injEq] at h
    obtain ⟨rfl, -⟩ := h
    exact .kept rfl
  | administer incidents accounts memberships =>
    simp only [authServe, pure_ok, Prod.mk.injEq] at h
    obtain ⟨rfl, -⟩ := h
    exact .kept rfl
  | tick elapsed =>
    simp only [authServe, pure_ok, Prod.mk.injEq] at h
    obtain ⟨rfl, -⟩ := h
    exact .kept rfl

theorem DeviceStep.evolves (h : DeviceStep lib s devices) :
    s.devices.Evolves RegisteredDevice.Ages devices := by
  cases h with
  | kept same =>
    rw [same]
    exact Table.Evolves.refl RegisteredDevice.Ages.refl _
  | registered now body rows =>
    rw [rows]
    exact s.registerDevice_evolves now _ body
  | revoked now d rows =>
    rw [rows]
    apply (Table.Evolves.refl RegisteredDevice.Ages.refl s.devices).modify
    intro a ha _
    rw [ha]
    exact nofun

theorem DeviceStep.installed (h : DeviceStep lib s devices) (hs : Installed s.devices) :
    Installed devices := by
  cases h with
  | kept same =>
    rw [same]
    exact hs
  | registered now body rows =>
    rw [rows]
    exact AuthDb.registerDevice_installed now body hs (lib.installationHash_hex _)
  | revoked now d rows =>
    rw [rows]
    apply hs.modify
    intro a _
    exact ⟨nofun, Or.inl rfl⟩

variable (lib settings)

theorem authStep_installed (s : AuthState) (x : AuthStep) (h : Installed s.db.devices) :
    Installed (authStep lib settings s x).db.devices := by
  unfold authStep
  cases hx : authServe lib settings s x with
  | ok r => exact (authServe_deviceStep hx).installed h
  | error e => exact h

theorem authStep_evolves (s : AuthState) (x : AuthStep) :
    s.db.devices.Evolves RegisteredDevice.Ages (authStep lib settings s x).db.devices := by
  unfold authStep
  cases hx : authServe lib settings s x with
  | ok r => exact (authServe_deviceStep hx).evolves
  | error e => exact Table.Evolves.refl RegisteredDevice.Ages.refl _

theorem run_evolves (s : AuthState) (steps : List AuthStep) :
    s.db.devices.Evolves RegisteredDevice.Ages (run (authStep lib settings) s steps).db.devices :=
  run_relation (authStep lib settings) (C := fun _ _ => True) (I := fun _ => True)
    (R := fun s t => s.db.devices.Evolves RegisteredDevice.Ages t.db.devices)
    (fun _ => Table.Evolves.refl RegisteredDevice.Ages.refl _)
    (fun h k => h.trans RegisteredDevice.Ages.trans k) (fun _ _ _ _ => trivial)
    (fun s x _ _ => authStep_evolves lib settings s x) trivial
    (along_true (authStep lib settings) s steps)

/-- Nothing issued for the device is accepted, and a session of its installation opens with
another device: one that is new, if `devices` were the devices when this one was first revoked. -/
structure AuthState.Refuses (devices : Table RegisteredDevice) (d : Id) (t : AuthState) : Prop where
  access : ∀ token : AccessToken, token.subjectType = .device → token.sub = d →
    ∀ actor, t.db.getActor t.now token ≠ .ok actor
  refresh : ∀ expectedType token drawn db id grant,
    t.db.rotateRefresh lib settings t.now expectedType token drawn = .ok (db, id, grant) →
    ∀ r, t.db.session id = some r → ¬ (r.subjectType = .device ∧ r.subjectId = d)
  opened : ∀ body drawn db id grant,
    t.db.createAnonymousSession lib settings t.now body drawn = .ok (db, id, grant) → id ≠ d ∧
    ∀ a, devices.get d = some a → a.revokedAt = none →
      lib.installationHash body.installationId = a.installationIdHash → devices.get id = none
  opens : ∀ body drawn incident, 22 ≤ body.installationId.length →
    t.db.activeIncident body.incidentId = .ok incident →
    t.db.findSession (AuthDb.withHash (lib.refreshTokenHash drawn)) = none →
    ∃ r, t.db.createAnonymousSession lib settings t.now body drawn = .ok r

variable {lib settings}

theorem AuthState.refuses_of_revoked {s : AuthDb} {d : Id} {t : AuthState} {b : RegisteredDevice}
    (hevolves : s.devices.Evolves RegisteredDevice.Ages t.db.devices) (hs : Installed s.devices)
    (hb : t.db.devices.get d = some b) (hrevoked : b.revokedAt ≠ none) :
    t.Refuses lib settings s.devices d where
  access := by
    rintro token hdevice rfl actor h
    simp only [AuthDb.getActor, hdevice, bind_ok, require_ok, found_ok, hb, Option.isNone_iff_eq_none]
      at h
    obtain ⟨-, -, a, ⟨⟩, -, hlive, -⟩ := h
    exact hrevoked hlive.1
  refresh := by
    rintro expectedType token drawn db id grant h r hr ⟨hdevice, rfl⟩
    simp only [AuthDb.rotateRefresh, bind_ok, found_ok, require_ok, pure_ok, Prod.exists,
      Prod.mk.injEq] at h
    obtain ⟨i, refresh, hfind, -, -, -, -, -, -, actor, hactor, -, -, -, -, rfl, -⟩ := h
    obtain ⟨hstored, -⟩ := AuthDb.findSession_some hfind
    obtain rfl := Option.some.inj (hstored.symm.trans hr)
    simp only [AuthDb.refreshActor, hdevice, bind_ok, found_ok, require_ok, hb,
      Option.isNone_iff_eq_none] at hactor
    obtain ⟨a, ⟨⟩, -, hlive, -⟩ := hactor
    exact hrevoked hlive.1
  opened := by
    intro body drawn db id grant h
    obtain ⟨-, rfl⟩ := AuthDb.createAnonymousSession_ok h
    rcases t.db.registerDevice_id t.now (lib.installationHash body.installationId) body with
      ⟨c, hc, hlive, hhash⟩ | hnew
    · refine ⟨fun heq => ?_, fun a ha hunrevoked hsame => ?_⟩
      · rw [heq] at hc
        obtain rfl := Option.some.inj (hb.symm.trans hc)
        exact hrevoked hlive
      · cases hold : s.devices.get
            (t.db.registerDevice t.now (lib.installationHash body.installationId) body).2.1 with
        | none => rfl
        | some e =>
          -- the device found was there, with the same digest, when this one was revoked
          have hages := hevolves.rows _ c hc
          rw [hold] at hages
          obtain ⟨he, hkept⟩ := hages hlive
          have hdigest : a.installationIdHash = e.installationIdHash :=
            (hsame.symm.trans hhash.symm).trans hkept
          have hd := hs.uniqueInstallations d _ a e ha hold hunrevoked he hdigest
          rw [← hd] at hc
          obtain rfl := Option.some.inj (hb.symm.trans hc)
          exact absurd hlive hrevoked
    · refine ⟨fun heq => ?_, fun a _ _ _ => ?_⟩
      · rw [heq, hb] at hnew
        cases hnew
      · by_contra hne
        obtain ⟨e, he⟩ := Option.ne_none_iff_exists'.mp hne
        obtain ⟨c, hc, -⟩ := hevolves.get_some he
        rw [hnew] at hc
        cases hc
  opens := fun _ _ _ hlength hincident hdrawn =>
    AuthDb.createAnonymousSession_accepts hlength hincident hdrawn

end Steps

/-- In every reachable state an installation has at most one device that is not revoked; and once
a device is revoked, it is refused ever after. -/
theorem revoked_devices_are_refused (lib : SecurityLib) (settings : SecuritySettings) (now : Time)
    (incidents : Table Incident) (accounts : Table LocalAccount) (memberships : List (Id × Id))
    (steps : List AuthStep) (s : AuthState)
    (hs : run (authStep lib settings) (.initial now incidents accounts memberships) steps = s) :
    UniqueInstallations s.db.devices ∧
      ∀ token db d, s.db.revokeAnonymous lib s.now token = .ok (db, d) → ∀ later,
        (run (authStep lib settings) s (.revokeAnonymous token :: later)).Refuses lib settings
          s.db.devices d := by
  have hinstalled : Installed s.db.devices := by
    rw [← hs]
    exact run_invariant (authStep lib settings) (I := fun s => Installed s.db.devices)
      (fun s x h _ => authStep_installed lib settings s x h) .empty
      (along_true (authStep lib settings) _ steps)
  refine ⟨hinstalled.uniqueInstallations, fun token db d hrevoke later => ?_⟩
  obtain ⟨hdevices, a, ha⟩ := AuthDb.revokeAnonymous_ok hrevoke
  have hstep : (authStep lib settings s (.revokeAnonymous token)).db = db := by
    simp only [authStep, authServe, hrevoke]
    rfl
  have hb : (authStep lib settings s (.revokeAnonymous token)).db.devices.get d =
      some { a with tokenVersion := a.tokenVersion + 1, revokedAt := some s.now } := by
    rw [hstep, hdevices, Table.get_modify_self, ha]
    rfl
  obtain ⟨c, hc, hages⟩ := (run_evolves lib settings _ later).get_some hb
  have hrevoked : c.revokedAt ≠ none := fun h => by cases (hages h).1
  exact AuthState.refuses_of_revoked
    (run_evolves lib settings s (.revokeAnonymous token :: later)) hinstalled hc hrevoked

namespace Sample

def security : SecurityLib := ⟨fun token => token, fun _ => "a1", fun _ _ => true, fun _ => by decide⟩

def tokenLifetimes : SecuritySettings := ⟨30, 7⟩

def town : Incident := ⟨none, .active, none, none, .gcj02, 12, [], 0, 0, 0⟩

def phone : AnonymousSessionCreate := ⟨"0123456789012345678901", "ios", none, none, none⟩

/-- A phone has opened a session. -/
def openedSession : AuthState :=
  run (authStep security tokenLifetimes) (.initial 0 ⟨[town]⟩ .empty [])
    [.anonymousSession phone "first"]

end Sample

theorem revoked_phone_is_refused :
    UniqueInstallations Sample.openedSession.db.devices ∧
      (run (authStep Sample.security Sample.tokenLifetimes) Sample.openedSession
        [.revokeAnonymous "first", .anonymousSession Sample.phone "second"]).Refuses
          Sample.security Sample.tokenLifetimes Sample.openedSession.db.devices 0 := by
  have h := revoked_devices_are_refused Sample.security Sample.tokenLifetimes 0 ⟨[Sample.town]⟩ .empty []
    [.anonymousSession Sample.phone "first"] Sample.openedSession rfl
  have hrevokes : (Sample.openedSession.db.revokeAnonymous Sample.security Sample.openedSession.now
      "first").toOption.any (fun r => r.2 = 0) = true := by
    decide +kernel
  obtain ⟨⟨db, d⟩, hrevoke, hd⟩ := ok_of_any hrevokes
  obtain rfl : d = 0 := of_decide_eq_true hd
  exact ⟨h.1, h.2 "first" db 0 hrevoke [.anonymousSession Sample.phone "second"]⟩

end CrisisMosaic
