import CrisisMosaic.Notifications
import CrisisMosaic.Relational.Keeps

/-!
# Every event is pushed once

Whatever the order of requests and batches, an operator has one notification for an event, which is
tried once and stays as it ended. The times a delivery shows are those of receipts.
-/

namespace CrisisMosaic
open Relational Relation

/-- What a notification is for, and whom. -/
def NotificationOutbox.key (n : NotificationOutbox) : String × Id := (n.dedupeKey, n.recipientOperatorId)

def NotificationReceipt.key (r : NotificationReceipt) : Id × ReceiptType × String :=
  (r.notificationOutboxId, r.receiptType, r.installationIdHash)

/-- The one attempt at a notification that is sent, on a device of its operator. -/
def NotificationDelivery.IsSent (db : NotificationDb) (d : NotificationDelivery) : Prop :=
  d.status = .accepted ∧ d.attempts = 1 ∧
    ∃ n device, db.outbox.get d.notificationOutboxId = some n ∧ n.status = .sent ∧ d.sentAt = n.sentAt ∧
      db.pushDevices.get d.pushDeviceId = some device ∧ device.operatorId = n.recipientOperatorId ∧
        device.provider = d.provider

/-- A receipt of the kind was recorded for the notification, with this time. -/
def HasReceipt (receipts : Table NotificationReceipt) (id : Id) (kinds : List ReceiptType) (t : Time) : Prop :=
  ∃ k r, receipts.get k = some r ∧ r.notificationOutboxId = id ∧ r.receiptType ∈ kinds ∧ r.occurredAt = t

/-- The times of a delivery are those of receipts. -/
def NotificationDelivery.IsReceived (receipts : Table NotificationReceipt) (d : NotificationDelivery) : Prop :=
  (∀ t, d.deliveredAt = some t → HasReceipt receipts d.notificationOutboxId [.delivered, .displayed] t) ∧
    ∀ t, d.clickedAt = some t → HasReceipt receipts d.notificationOutboxId [.clicked] t

structure NotificationDb.Sound (db : NotificationDb) : Prop where
  keys : db.outbox.UniqueOn NotificationOutbox.key
  receipts : db.receipts.UniqueOn NotificationReceipt.key
  single : db.deliveries.UniqueOn NotificationDelivery.notificationOutboxId
  rows : ∀ i n, db.outbox.get i = some n → n.status ≠ .retry ∧
    n.attempts = (if n.status = .queued then 0 else 1) ∧
      (n.status = .sent → ∃ k d, db.deliveries.get k = some d ∧ d.notificationOutboxId = i)
  sent : ∀ k d, db.deliveries.get k = some d → d.IsSent db
  received : ∀ k d, db.deliveries.get k = some d → d.IsReceived db.receipts

/-! ## What changes -/

section Changes
variable (env : NotificationEnv) (P : Time → Prop)

/-- The rows of one change; `P` is what is known of the times of the batches. -/
inductive NotificationChange (db : NotificationDb) : NotificationDb → Prop
  | surroundings {t : NotificationDb} (houtbox : t.outbox = db.outbox) (hdeliveries : t.deliveries = db.deliveries)
      (hreceipts : t.receipts = db.receipts)
      (hdevices : db.pushDevices.Keeps (fun d => (d.operatorId, d.provider)) t.pushDevices) :
      NotificationChange db t
  | notified (n : NotificationOutbox) (hqueued : n.status = .queued) (hattempts : n.attempts = 0)
      (hnew : ∀ i m, db.outbox.get i = some m → m.key ≠ n.key) :
      NotificationChange db { db with outbox := db.outbox.insert n }
  | dropped (now : Time) (id : Id) (row n : NotificationOutbox) (hrow : db.outbox.get id = some row)
      (hwaiting : NotificationDb.waiting now row = true) (hP : P now) (hkey : n.key = row.key)
      (hattempts : n.attempts = row.attempts + 1) (hstatus : n.status = .cancelled ∨ n.status = .noDevice) :
      NotificationChange db (db.setNotification id n)
  | sent (settings : PushSettings) (now later : Time) (id deviceId : Id) (row n : NotificationOutbox)
      (device : PushDevice) (hrow : db.outbox.get id = some row)
      (hwaiting : NotificationDb.waiting now row = true) (hP : P now)
      (hdevice : db.pushDevices.get deviceId = some device) (hof : device.operatorId = row.recipientOperatorId)
      (hkey : n.key = row.key) (hattempts : n.attempts = row.attempts + 1) (hstatus : n.status = .sent)
      (hsent : n.sentAt = some later) (m : NotificationOutbox) :
      NotificationChange db
        ({ db with deliveries := db.placeDelivery env settings later id deviceId m device }.setNotification id n)
  | received (r : NotificationReceipt) (hnew : ∀ i q, db.receipts.get i = some q → q.key ≠ r.key) :
      NotificationChange db
        { db with receipts := db.receipts.insert r, deliveries := db.receivedDeliveries r }

abbrev NotificationChanges := ReflTransGen (NotificationChange env P)

end Changes

section Steps
variable {env : NotificationEnv} {P : Time → Prop} {db t : NotificationDb}

theorem enqueueFor_changes (settings : PushSettings) (now : Time) (r : NotificationRequest)
    (acc : NotificationDb × List Id) (account : Id) :
    NotificationChanges env P acc.1 (NotificationDb.enqueueFor env settings now r acc account).1 := by
  obtain ⟨db, rows⟩ := acc
  unfold NotificationDb.enqueueFor
  dsimp only
  split_ifs with hallowed
  · cases hfind : db.outbox.find (NotificationDb.isFor (r.dedupeKey env) account) with
    | some found => exact .refl
    | none =>
      refine .single (.notified (r.row env settings now account) rfl rfl ?_)
      intro i m hm hkey
      have hother := Table.find_none hfind hm
      have hpair : m.dedupeKey = r.dedupeKey env ∧ m.recipientOperatorId = account := Prod.mk.inj hkey
      rw [NotificationDb.isFor, hpair.1, hpair.2] at hother
      simp at hother
  · exact .refl

theorem enqueue_changes (settings : PushSettings) (now : Time) (r : NotificationRequest) :
    NotificationChanges env P db (db.enqueueOperatorNotifications env settings now r).1 := by
  unfold NotificationDb.enqueueOperatorNotifications
  split_ifs
  · have hfold : ∀ (accounts : List Id) (acc : NotificationDb × List Id),
        NotificationChanges env P acc.1 (accounts.foldl (NotificationDb.enqueueFor env settings now r) acc).1 := by
      intro accounts
      induction accounts with
      | nil => exact fun acc => .refl
      | cons account accounts ih =>
        exact fun acc => (enqueueFor_changes settings now r acc account).trans (ih _)
    exact hfold _ (db, [])
  · exact .refl

theorem firstDevice_some {operatorId : Id} {deviceId : Id} {device : PushDevice}
    (h : db.firstDevice operatorId = some (deviceId, device)) :
    db.pushDevices.get deviceId = some device ∧ NotificationDb.reachable operatorId device = true := by
  simp only [NotificationDb.firstDevice, Option.bind_eq_some_iff, Option.map_eq_some_iff,
    Prod.mk.injEq] at h
  obtain ⟨i, hi, d, hd, rfl, rfl⟩ := h
  have hmem := (List.perm_insertionSort _ _).mem_iff.mp (List.mem_of_head? hi)
  obtain ⟨e, he, hreachable⟩ := Table.mem_select.mp hmem
  rw [hd] at he
  exact ⟨hd, Option.some.inj he ▸ hreachable⟩

theorem deliverOne_changes (settings : PushSettings) {now : Time} (later : Time) {id : Id}
    {row : NotificationOutbox} (hrow : db.outbox.get id = some row)
    (hwaiting : NotificationDb.waiting now row = true) (hP : P now) :
    NotificationChange env P db (db.deliverOne env settings later id) := by
  unfold NotificationDb.deliverOne
  rw [hrow]
  dsimp only
  split_ifs with hoff
  · exact .dropped now id row _ hrow hwaiting hP rfl rfl (Or.inl rfl)
  · cases hdevice : db.firstDevice row.recipientOperatorId with
    | none => exact .dropped now id row _ hrow hwaiting hP rfl rfl (Or.inr rfl)
    | some found =>
      obtain ⟨deviceId, device⟩ := found
      obtain ⟨hget, hreachable⟩ := firstDevice_some hdevice
      have hof : device.operatorId = row.recipientOperatorId := by
        simp only [NotificationDb.reachable, Bool.and_eq_true, decide_eq_true_eq] at hreachable
        exact hreachable.1.1.1
      exact .sent settings now later id deviceId row
        { row with attempts := row.attempts + 1, status := .sent, sentAt := some later, lastErrorCode := none }
        device hrow hwaiting hP hget hof rfl rfl rfl rfl _

/-- The other notifications are left alone. -/
theorem deliverOne_outbox (settings : PushSettings) (later : Time) {id i : Id} (hi : i ≠ id) :
    (db.deliverOne env settings later id).outbox.get i = db.outbox.get i := by
  unfold NotificationDb.deliverOne
  cases db.outbox.get id with
  | none => rfl
  | some row =>
    dsimp only
    split_ifs
    · exact Table.get_modify_of_ne _ _ hi.symm
    · cases db.firstDevice row.recipientOperatorId with
      | none => exact Table.get_modify_of_ne _ _ hi.symm
      | some found => exact Table.get_modify_of_ne _ _ hi.symm

theorem dueNotifications_nodup (settings : PushSettings) (now : Time) :
    (db.dueNotifications settings now).Nodup :=
  (limitTo_sublist _ _).nodup
    ((List.perm_insertionSort _ _).nodup_iff.mpr (Table.nodup_select _ _))

theorem mem_dueNotifications {settings : PushSettings} {now : Time} {id : Id}
    (h : id ∈ db.dueNotifications settings now) :
    ∃ row, db.outbox.get id = some row ∧ NotificationDb.waiting now row = true :=
  Table.mem_select.mp ((List.perm_insertionSort _ _).mem_iff.mp ((limitTo_sublist _ _).subset h))

theorem deliver_changes (settings : PushSettings) {now : Time} (clock : Id → Time) (hP : P now) :
    NotificationChanges env P db (db.deliverNotificationsBatch env settings now clock) := by
  have hfold : ∀ (ids : List Id) (db : NotificationDb), ids.Nodup →
      (∀ id ∈ ids, ∃ row, db.outbox.get id = some row ∧ NotificationDb.waiting now row = true) →
      NotificationChanges env P db (ids.foldl (fun db id => db.deliverOne env settings (clock id) id) db) := by
    intro ids
    induction ids with
    | nil => exact fun _ _ _ => .refl
    | cons id ids ih =>
      intro db hnodup hwaiting
      obtain ⟨hid, hids⟩ := List.nodup_cons.mp hnodup
      obtain ⟨row, hrow, hrowWaiting⟩ := hwaiting id List.mem_cons_self
      refine .head (deliverOne_changes settings (clock id) hrow hrowWaiting hP) (ih _ hids ?_)
      intro i hi
      have hne : i ≠ id := fun heq => hid (heq ▸ hi)
      rw [deliverOne_outbox settings (clock id) hne]
      exact hwaiting i (List.mem_cons_of_mem id hi)
  exact hfold _ db (dueNotifications_nodup settings now) fun id hid => mem_dueNotifications hid

/-- A registration overwrites neither the operator nor the provider of a row. -/
theorem placeDevice_keeps (env : PushEnv) (now : Time) (nonce : Bytes) (actor : Actor)
    (payload : PushDeviceRegistration) (devices : Table PushDevice) :
    devices.Keeps (fun d => (d.operatorId, d.provider))
      (placeDevice env now nonce actor payload devices).1 := by
  rcases placeDevice_cases env now nonce actor payload devices with ⟨-, hplace⟩ | ⟨id, d, -, -, hplace⟩
  · rw [hplace]
    exact Table.Keeps.insert _ _ _
  · rw [hplace]
    exact Table.Keeps.modify _ fun d => rfl

/-- Every step is a sequence of changes. -/
theorem notificationStep_changes (x : NotificationStep)
    (hP : ∀ settings now clock, x = .deliver settings now clock → P now) :
    NotificationChanges env P db (notificationStep env db x) := by
  refine commit_induction .refl fun t ht => ?_
  cases x with
  | enqueue settings now request =>
    obtain rfl := pure_ok.mp ht
    exact enqueue_changes settings now request
  | deliver settings now clock =>
    obtain rfl := pure_ok.mp ht
    exact deliver_changes settings clock (hP settings now clock rfl)
  | register now nonce actor payload =>
    obtain ⟨⟨devices, id⟩, hregister, hok⟩ := bind_ok.mp ht
    obtain rfl := pure_ok.mp hok
    simp only [registerPushDevice, bind_ok, pure_ok] at hregister
    obtain ⟨-, -, -, -, -, -, hplaced⟩ := hregister
    refine .single (.surroundings rfl rfl rfl ?_)
    have hkeeps := placeDevice_keeps env.push now nonce actor payload db.pushDevices
    rwa [hplaced] at hkeeps
  | revoke now actor device reason =>
    simp only [notificationServe, NotificationDb.revokePushDevice, bind_ok, pure_ok] at ht
    obtain ⟨-, -, -, -, -, -, rfl⟩ := ht
    refine .single (.surroundings rfl rfl rfl (Table.Keeps.modify _ fun d => ?_))
    split_ifs <;> rfl
  | patchPreference now actor incidentId header payload =>
    simp only [notificationServe, NotificationDb.patchMyNotificationPreference, bind_ok, pure_ok] at ht
    obtain ⟨-, -, -, -, -, -, rfl⟩ := ht
    exact .single (.surroundings rfl rfl rfl (Table.Keeps.refl _ _))
  | receipt actor notification header payload =>
    simp only [notificationServe, NotificationDb.postNotificationReceipt,
      NotificationDb.recordNotificationReceipt, bind_ok] at ht
    obtain ⟨-, -, -, -, -, -, -, -, -, -, hok⟩ := ht
    revert hok
    cases hfind : db.receipts.find (NotificationDb.isReceipt notification payload.receiptType
        (env.push.pii.hmac payload.installationId.val)) with
    | some found =>
      intro hok
      obtain rfl := pure_ok.mp hok
      exact .refl
    | none =>
      intro hok
      obtain rfl := pure_ok.mp hok
      refine .single (.received ⟨notification, payload.receiptType,
        env.push.pii.hmac payload.installationId.val, payload.appState, payload.occurredAt⟩ ?_)
      intro i q hq hkey
      have hother := Table.find_none hfind hq
      simp only [NotificationReceipt.key, Prod.mk.injEq] at hkey
      rw [NotificationDb.isReceipt, hkey.1, hkey.2.1, hkey.2.2] at hother
      simp at hother
  | administer incidents accounts memberships =>
    obtain rfl := pure_ok.mp ht
    exact .single (.surroundings rfl rfl rfl (Table.Keeps.refl _ _))

end Steps

/-! ## What stays true -/

section Invariant
variable {env : NotificationEnv} {P : Time → Prop} {db t : NotificationDb}

theorem status_of_waiting {now : Time} {n : NotificationOutbox} (h : NotificationDb.waiting now n = true) :
    (n.status = .queued ∨ n.status = .retry) ∧ now < n.expiresAt := by
  simp only [NotificationDb.waiting, Bool.and_eq_true, Bool.or_eq_true, decide_eq_true_eq] at h
  exact ⟨h.1.1, h.2⟩

/-- A notification that waits was not tried. -/
theorem NotificationDb.Sound.untried (h : db.Sound) {id : Id} {row : NotificationOutbox} {now : Time}
    (hrow : db.outbox.get id = some row) (hwaiting : NotificationDb.waiting now row = true) :
    row.status = .queued ∧ row.attempts = 0 ∧
      ∀ k d, db.deliveries.get k = some d → d.notificationOutboxId ≠ id := by
  obtain ⟨hretry, hattempts, -⟩ := h.rows id row hrow
  have hqueued : row.status = .queued := (status_of_waiting hwaiting).1.resolve_right hretry
  rw [if_pos hqueued] at hattempts
  refine ⟨hqueued, hattempts, ?_⟩
  rintro k d hd rfl
  obtain ⟨-, -, n, -, hn, hsent, -⟩ := h.sent k d hd
  obtain rfl := Option.some.inj (hrow.symm.trans hn)
  rw [hqueued] at hsent
  cases hsent

theorem uniqueOn_setNotification {outbox : Table NotificationOutbox}
    (h : outbox.UniqueOn NotificationOutbox.key) {id : Id} {row n : NotificationOutbox}
    (hrow : outbox.get id = some row) (hkey : n.key = row.key) :
    (outbox.modify id fun _ => n).UniqueOn NotificationOutbox.key := by
  refine (h.modify_iff hrow _).mpr fun j m hj hm hsame => ?_
  exact hj (h.eq hm hrow (hsame.trans hkey))

/-- A receipt changes the times of a delivery of its notification at most. -/
def NotificationDelivery.Receives (r : NotificationReceipt) (d e : NotificationDelivery) : Prop :=
  e = d ∨ d.notificationOutboxId = r.notificationOutboxId ∧ e = d.received r.receiptType r.occurredAt

theorem receivedDeliveries_related (db : NotificationDb) (r : NotificationReceipt) :
    db.deliveries.Related (NotificationDelivery.Receives r) (db.receivedDeliveries r) := by
  have hsame : ∀ d, NotificationDelivery.Receives r d d := fun d => Or.inl rfl
  unfold NotificationDb.receivedDeliveries
  cases hfind : db.deliveryOn r.notificationOutboxId r.installationIdHash with
  | none => exact .refl hsame _
  | some found =>
    obtain ⟨k, d⟩ := found
    obtain ⟨hd, hof⟩ := Table.find_some hfind
    refine .modify hsame _ fun e he => Or.inr ⟨?_, rfl⟩
    obtain rfl := Option.some.inj (hd.symm.trans he)
    simp only [Bool.and_eq_true, decide_eq_true_eq] at hof
    exact hof.1

theorem HasReceipt.insert {receipts : Table NotificationReceipt} {id : Id} {kinds : List ReceiptType}
    {time : Time} (h : HasReceipt receipts id kinds time) (r : NotificationReceipt) :
    HasReceipt (receipts.insert r) id kinds time := by
  obtain ⟨k, q, hq, hrest⟩ := h
  exact ⟨k, q, Table.get_insert_of_some r hq, hrest⟩

theorem NotificationDelivery.IsReceived.insert {receipts : Table NotificationReceipt}
    {d : NotificationDelivery} (h : d.IsReceived receipts) (r : NotificationReceipt) :
    d.IsReceived (receipts.insert r) :=
  ⟨fun time ht => (h.1 time ht).insert r, fun time ht => (h.2 time ht).insert r⟩

/-- The times a receipt sets are its own, or were there before. -/
theorem NotificationDelivery.IsReceived.received {receipts : Table NotificationReceipt}
    {d : NotificationDelivery} (h : d.IsReceived receipts) {r : NotificationReceipt}
    (hof : d.notificationOutboxId = r.notificationOutboxId) :
    (d.received r.receiptType r.occurredAt).IsReceived (receipts.insert r) := by
  have hnew : ∀ kinds, r.receiptType ∈ kinds →
      HasReceipt (receipts.insert r) d.notificationOutboxId kinds r.occurredAt :=
    fun kinds hkind => ⟨receipts.size, r, Table.get_insert_size _ _, hof.symm, hkind, rfl⟩
  constructor
  · intro time ht
    simp only [NotificationDelivery.received] at ht ⊢
    split_ifs at ht with hkind
    · rcases Option.or_eq_some_iff.mp ht with ht | ⟨-, ht⟩
      · exact (h.1 time ht).insert r
      · obtain rfl := Option.some.inj ht
        exact hnew _ (by simpa using hkind)
    · exact (h.1 time ht).insert r
  · intro time ht
    simp only [NotificationDelivery.received] at ht ⊢
    split_ifs at ht with hkind
    · rcases Option.or_eq_some_iff.mp ht with ht | ⟨-, ht⟩
      · exact (h.2 time ht).insert r
      · obtain rfl := Option.some.inj ht
        exact hnew _ (by simpa using hkind)
    · exact (h.2 time ht).insert r

/-- A row that is sent stays as it is when others change. -/
theorem NotificationDelivery.IsSent.mono {d : NotificationDelivery} (h : d.IsSent db)
    (hrows : ∀ n, db.outbox.get d.notificationOutboxId = some n → n.status = .sent →
      t.outbox.get d.notificationOutboxId = some n)
    (hdevices : db.pushDevices.Keeps (fun d => (d.operatorId, d.provider)) t.pushDevices) : d.IsSent t := by
  obtain ⟨hstatus, hattempts, n, device, hn, hsent, htime, hdevice, hof, hprovider⟩ := h
  obtain ⟨device', hdevice', hsame⟩ := hdevices _ _ hdevice
  obtain ⟨hoperator, hprovider'⟩ := Prod.mk.inj hsame
  exact ⟨hstatus, hattempts, n, device', hrows n hn hsent, hsent, htime, hdevice', hoperator.trans hof,
    hprovider'.trans hprovider⟩

theorem NotificationDb.Sound.surroundings (h : db.Sound) (houtbox : t.outbox = db.outbox)
    (hdeliveries : t.deliveries = db.deliveries) (hreceipts : t.receipts = db.receipts)
    (hdevices : db.pushDevices.Keeps (fun d => (d.operatorId, d.provider)) t.pushDevices) : t.Sound where
  keys := houtbox ▸ h.keys
  receipts := hreceipts ▸ h.receipts
  single := hdeliveries ▸ h.single
  rows := by
    rw [houtbox, hdeliveries]
    exact h.rows
  sent := by
    rw [hdeliveries]
    intro k d hd
    exact (h.sent k d hd).mono (fun n hn _ => houtbox ▸ hn) hdevices
  received := by
    rw [hdeliveries, hreceipts]
    exact h.received

theorem NotificationDb.Sound.notified (h : db.Sound) {n : NotificationOutbox} (hqueued : n.status = .queued)
    (hattempts : n.attempts = 0) (hnew : ∀ i m, db.outbox.get i = some m → m.key ≠ n.key) :
    Sound { db with outbox := db.outbox.insert n } where
  keys := h.keys.insert hnew
  receipts := h.receipts
  single := h.single
  rows := by
    intro i m hm
    rcases Table.get_insert_cases hm with ⟨-, rfl⟩ | hm
    · rw [hqueued]
      exact ⟨by decide, hattempts, fun hsent => by cases hsent⟩
    · exact h.rows i m hm
  sent := by
    intro k d hd
    exact (h.sent k d hd).mono (fun m hm _ => Table.get_insert_of_some n hm) (Table.Keeps.refl _ _)
  received := h.received

theorem NotificationDb.Sound.dropped (h : db.Sound) {now : Time} {id : Id} {row n : NotificationOutbox}
    (hrow : db.outbox.get id = some row) (hwaiting : NotificationDb.waiting now row = true)
    (hkey : n.key = row.key) (hattempts : n.attempts = row.attempts + 1)
    (hstatus : n.status = .cancelled ∨ n.status = .noDevice) : (db.setNotification id n).Sound := by
  obtain ⟨hqueued, hnever, -⟩ := h.untried hrow hwaiting
  refine ⟨uniqueOn_setNotification h.keys hrow hkey, h.receipts, h.single, ?_, ?_, h.received⟩
  · intro i m hm
    rcases Table.get_modify_cases hm with ⟨rfl, -, -, rfl⟩ | ⟨-, hm⟩
    · rw [hattempts, hnever]
      rcases hstatus with hstatus | hstatus <;> rw [hstatus] <;>
        exact ⟨by decide, rfl, fun hsent => by cases hsent⟩
    · exact h.rows i m hm
  · intro k d hd
    refine (h.sent k d hd).mono (fun m hm hsent => ?_) (Table.Keeps.refl _ _)
    have hne : id ≠ d.notificationOutboxId := by
      rintro rfl
      obtain rfl := Option.some.inj (hrow.symm.trans hm)
      rw [hqueued] at hsent
      cases hsent
    rw [NotificationDb.setNotification, Table.get_modify_of_ne _ _ hne, hm]

theorem NotificationDb.Sound.delivered (h : db.Sound) {settings : PushSettings} {now later : Time}
    {id deviceId : Id} {row n : NotificationOutbox} {device : PushDevice}
    (hrow : db.outbox.get id = some row) (hwaiting : NotificationDb.waiting now row = true)
    (hdevice : db.pushDevices.get deviceId = some device) (hof : device.operatorId = row.recipientOperatorId)
    (hkey : n.key = row.key) (hattempts : n.attempts = row.attempts + 1) (hstatus : n.status = .sent)
    (hsent : n.sentAt = some later) (m : NotificationOutbox) :
    ({ db with
        deliveries := db.placeDelivery env settings later id deviceId m device }.setNotification id n).Sound := by
  obtain ⟨hqueued, hnever, hnone⟩ := h.untried hrow hwaiting
  have hplace : db.placeDelivery env settings later id deviceId m device =
      db.deliveries.insert (.accepted env settings later m (.new id deviceId device.provider)) := by
    unfold NotificationDb.placeDelivery
    cases hfind : db.deliveries.find fun d => d.notificationOutboxId = id && d.pushDeviceId = deviceId with
    | none => rfl
    | some found =>
      obtain ⟨hd, hof⟩ := Table.find_some hfind
      simp only [Bool.and_eq_true, decide_eq_true_eq] at hof
      exact absurd hof.1 (hnone _ _ hd)
  rw [hplace]
  have hself : (db.outbox.modify id fun _ => n).get id = some n := by
    rw [Table.get_modify_self, hrow, Option.map_some]
  refine ⟨uniqueOn_setNotification h.keys hrow hkey, h.receipts, ?_, ?_, ?_, ?_⟩
  · exact h.single.insert hnone
  · intro i p hp
    rcases Table.get_modify_cases hp with ⟨rfl, -, -, rfl⟩ | ⟨-, hp⟩
    · rw [hattempts, hnever, hstatus]
      exact ⟨by decide, rfl, fun _ => ⟨db.deliveries.size, _, Table.get_insert_size _ _, rfl⟩⟩
    · obtain ⟨hretry, hcount, hdelivery⟩ := h.rows i p hp
      refine ⟨hretry, hcount, fun hs => ?_⟩
      obtain ⟨k, d, hd, hid⟩ := hdelivery hs
      exact ⟨k, d, Table.get_insert_of_some _ hd, hid⟩
  · intro k d hd
    rcases Table.get_insert_cases hd with ⟨-, rfl⟩ | hd
    · exact ⟨rfl, rfl, n, device, hself, hstatus, hsent.symm, hdevice,
        hof.trans (congrArg Prod.snd hkey).symm, rfl⟩
    · refine (h.sent k d hd).mono (fun p hp _ => ?_) (Table.Keeps.refl _ _)
      rw [NotificationDb.setNotification, Table.get_modify_of_ne _ _ (hnone k d hd).symm, hp]
  · intro k d hd
    rcases Table.get_insert_cases hd with ⟨-, rfl⟩ | hd
    · refine ⟨fun _ ht => ?_, fun _ ht => ?_⟩ <;> cases ht
    · exact h.received k d hd

theorem NotificationDb.Sound.receiving (h : db.Sound) {r : NotificationReceipt}
    (hnew : ∀ i q, db.receipts.get i = some q → q.key ≠ r.key) :
    Sound { db with receipts := db.receipts.insert r, deliveries := db.receivedDeliveries r } := by
  have hrel := receivedDeliveries_related db r
  generalize db.receivedDeliveries r = deliveries at hrel ⊢
  have hid : ∀ {k e}, deliveries.get k = some e → ∃ d, db.deliveries.get k = some d ∧
      e.notificationOutboxId = d.notificationOutboxId ∧ d.Receives r e := by
    intro k e he
    obtain ⟨d, hd, hde⟩ := hrel.left_of_some he
    refine ⟨d, hd, ?_, hde⟩
    rcases hde with rfl | ⟨-, rfl⟩ <;> rfl
  refine ⟨h.keys, h.receipts.insert hnew, ?_, ?_, ?_, ?_⟩
  · rw [Table.uniqueOn_iff]
    intro i j d e hd he hsame
    obtain ⟨d', hd', hdid, -⟩ := hid hd
    obtain ⟨e', he', heid, -⟩ := hid he
    exact h.single.eq hd' he' (hdid.symm.trans (hsame.trans heid))
  · intro i n hn
    obtain ⟨hretry, hcount, hdelivery⟩ := h.rows i n hn
    refine ⟨hretry, hcount, fun hs => ?_⟩
    obtain ⟨k, d, hd, hdid⟩ := hdelivery hs
    obtain ⟨e, he, hde⟩ := hrel.right_of_some hd
    refine ⟨k, e, he, ?_⟩
    rcases hde with rfl | ⟨-, rfl⟩ <;> exact hdid
  · intro k e he
    obtain ⟨d, hd, -, rfl | ⟨-, rfl⟩⟩ := hid he
    · exact h.sent k e hd
    · exact h.sent k d hd
  · intro k e he
    obtain ⟨d, hd, -, rfl | ⟨hof, rfl⟩⟩ := hid he
    · exact (h.received k e hd).insert r
    · exact (h.received k d hd).received hof

theorem NotificationChange.sound (hc : NotificationChange env P db t) (h : db.Sound) : t.Sound := by
  cases hc with
  | surroundings houtbox hdeliveries hreceipts hdevices =>
    exact h.surroundings houtbox hdeliveries hreceipts hdevices
  | notified n hqueued hattempts hnew => exact h.notified hqueued hattempts hnew
  | dropped now id row n hrow hwaiting hP hkey hattempts hstatus =>
    exact h.dropped hrow hwaiting hkey hattempts hstatus
  | sent settings now later id deviceId row n device hrow hwaiting hP hdevice hof hkey hattempts hstatus hsent m =>
    exact h.delivered hrow hwaiting hdevice hof hkey hattempts hstatus hsent m
  | received r hnew => exact h.receiving hnew

theorem NotificationChanges.sound (hc : NotificationChanges env P db t) (h : db.Sound) : t.Sound := by
  induction hc with
  | refl => exact h
  | tail _ hlast ih => exact hlast.sound ih

theorem noNotifications_sound (incidents : Table Incident) (accounts : Table LocalAccount)
    (memberships : List (Id × Id)) : (NotificationDb.initial incidents accounts memberships).Sound where
  keys := List.nodup_nil
  receipts := List.nodup_nil
  single := List.nodup_nil
  rows := fun _ _ hn => by cases hn
  sent := fun _ _ hd => by cases hd
  received := fun _ _ hd => by cases hd

theorem notificationStep_sound (env : NotificationEnv) (db : NotificationDb) (x : NotificationStep)
    (h : db.Sound) : (notificationStep env db x).Sound :=
  (notificationStep_changes (P := fun _ => True) x fun _ _ _ _ => trivial).sound h

theorem notificationRun_sound (env : NotificationEnv) (h : db.Sound) (steps : List NotificationStep) :
    (notificationRun env db steps).Sound :=
  run_invariant (notificationStep env) (fun s x hs _ => notificationStep_sound env s x hs) h
    (along_true _ _ steps)

end Invariant

/-! ## One push for an event and an operator -/

/-- In any order of requests and batches, an operator gets one push at most for an event, on a device of
its own and after one attempt; and a notification was tried once exactly if it does not wait. -/
theorem each_event_is_pushed_once (env : NotificationEnv) (incidents : Table Incident)
    (accounts : Table LocalAccount) (memberships : List (Id × Id)) (steps : List NotificationStep) :
    let db := notificationRun env (.initial incidents accounts memberships) steps
    (∀ k l d e m n, db.deliveries.get k = some d → db.deliveries.get l = some e →
      db.outbox.get d.notificationOutboxId = some m → db.outbox.get e.notificationOutboxId = some n →
        m.dedupeKey = n.dedupeKey → m.recipientOperatorId = n.recipientOperatorId → k = l) ∧
    (∀ k d, db.deliveries.get k = some d → d.IsSent db) ∧
    ∀ i n, db.outbox.get i = some n → n.attempts = (if n.status = .queued then 0 else 1) ∧
      (n.status = .sent ↔ ∃ k d, db.deliveries.get k = some d ∧ d.notificationOutboxId = i) := by
  intro db
  have h : db.Sound := notificationRun_sound env (noNotifications_sound incidents accounts memberships) steps
  refine ⟨?_, h.sent, ?_⟩
  · intro k l d e m n hd he hm hn hkey hrecipient
    have hsame : d.notificationOutboxId = e.notificationOutboxId :=
      h.keys.eq hm hn (Prod.ext hkey hrecipient)
    exact h.single.eq hd he hsame
  · intro i n hn
    obtain ⟨-, hattempts, hdelivery⟩ := h.rows i n hn
    refine ⟨hattempts, hdelivery, ?_⟩
    rintro ⟨k, d, hd, rfl⟩
    obtain ⟨-, -, m, -, hm, hsent, -⟩ := h.sent k d hd
    obtain rfl := Option.some.inj (hn.symm.trans hm)
    exact hsent

/-! ## What ended stays -/

section Endings
variable {env : NotificationEnv} {db t : NotificationDb} {since : Time}

/-- A notification that was tried, or that expires before the batches to come. -/
def NotificationOutbox.IsOver (since : Time) (n : NotificationOutbox) : Prop :=
  n.status ≠ .queued ∨ n.expiresAt ≤ since

theorem NotificationDb.Sound.not_over (h : db.Sound) {now : Time} {id : Id} {row : NotificationOutbox}
    (hrow : db.outbox.get id = some row) (hwaiting : NotificationDb.waiting now row = true)
    (hsince : since ≤ now) : ¬ row.IsOver since := by
  rintro (htried | hexpired)
  · exact htried (h.untried hrow hwaiting).1
  · exact absurd (hsince.trans_lt (status_of_waiting hwaiting).2) (not_lt.mpr hexpired)

/-- Rows that are over, receipts and the times of deliveries do not change. -/
structure NotificationDb.Ends (since : Time) (db t : NotificationDb) : Prop where
  rows : ∀ i n, db.outbox.get i = some n → n.IsOver since → t.outbox.get i = some n
  receipts : ∀ k r, db.receipts.get k = some r → t.receipts.get k = some r
  deliveries : ∀ k d, db.deliveries.get k = some d → ∃ e, t.deliveries.get k = some e ∧
    e.notificationOutboxId = d.notificationOutboxId ∧ e.pushDeviceId = d.pushDeviceId ∧ e.sentAt = d.sentAt ∧
      (∀ time, d.deliveredAt = some time → e.deliveredAt = some time) ∧
        ∀ time, d.clickedAt = some time → e.clickedAt = some time

theorem NotificationDb.Ends.refl (since : Time) (db : NotificationDb) : db.Ends since db :=
  ⟨fun _ _ hn _ => hn, fun _ _ hr => hr,
    fun _ d hd => ⟨d, hd, rfl, rfl, rfl, fun _ ht => ht, fun _ ht => ht⟩⟩

theorem NotificationDb.Ends.trans {u : NotificationDb} (h : db.Ends since t) (k : t.Ends since u) :
    db.Ends since u where
  rows := fun i n hn hover => k.rows i n (h.rows i n hn hover) hover
  receipts := fun j r hr => k.receipts j r (h.receipts j r hr)
  deliveries := by
    intro j d hd
    obtain ⟨e, he, hid, hdevice, hsent, hdelivered, hclicked⟩ := h.deliveries j d hd
    obtain ⟨f, hf, hid', hdevice', hsent', hdelivered', hclicked'⟩ := k.deliveries j e he
    exact ⟨f, hf, hid'.trans hid, hdevice'.trans hdevice, hsent'.trans hsent,
      fun time ht => hdelivered' time (hdelivered time ht), fun time ht => hclicked' time (hclicked time ht)⟩

/-- Rewriting a notification that is not over leaves those that are. -/
theorem NotificationDb.Ends.setNotification {id : Id} {row : NotificationOutbox} (n : NotificationOutbox)
    (hrow : db.outbox.get id = some row) (hnot : ¬ row.IsOver since)
    {deliveries : Table NotificationDelivery}
    (hdeliveries : ∀ k d, db.deliveries.get k = some d → deliveries.get k = some d) :
    db.Ends since ({ db with deliveries := deliveries }.setNotification id n) where
  rows := by
    intro i m hm hover
    have hne : id ≠ i := by
      rintro rfl
      obtain rfl := Option.some.inj (hrow.symm.trans hm)
      exact hnot hover
    rw [NotificationDb.setNotification, Table.get_modify_of_ne _ _ hne, hm]
  receipts := fun _ _ hr => hr
  deliveries := fun k d hd => ⟨d, hdeliveries k d hd, rfl, rfl, rfl, fun _ ht => ht, fun _ ht => ht⟩

theorem NotificationChange.ends (hc : NotificationChange env (since ≤ ·) db t) (h : db.Sound) :
    db.Ends since t := by
  cases hc with
  | surroundings houtbox hdeliveries hreceipts hdevices =>
    refine ⟨?_, ?_, ?_⟩
    · rw [houtbox]
      exact fun _ _ hn _ => hn
    · rw [hreceipts]
      exact fun _ _ hr => hr
    · rw [hdeliveries]
      exact fun _ d hd => ⟨d, hd, rfl, rfl, rfl, fun _ ht => ht, fun _ ht => ht⟩
  | notified n hqueued hattempts hnew =>
    exact ⟨fun _ _ hm _ => Table.get_insert_of_some n hm, fun _ _ hr => hr,
      fun _ d hd => ⟨d, hd, rfl, rfl, rfl, fun _ ht => ht, fun _ ht => ht⟩⟩
  | dropped now id row n hrow hwaiting hP hkey hattempts hstatus =>
    exact .setNotification n hrow (h.not_over hrow hwaiting hP) fun _ _ hd => hd
  | sent settings now later id deviceId row n device hrow hwaiting hP hdevice hof hkey hattempts hstatus hsent m =>
    refine .setNotification n hrow (h.not_over hrow hwaiting hP) fun k d hd => ?_
    unfold NotificationDb.placeDelivery
    cases hfind : db.deliveries.find fun d => d.notificationOutboxId = id && d.pushDeviceId = deviceId with
    | none => exact Table.get_insert_of_some _ hd
    | some found =>
      -- a waiting notification has no delivery yet
      obtain ⟨hget, hof⟩ := Table.find_some hfind
      simp only [Bool.and_eq_true, decide_eq_true_eq] at hof
      exact absurd hof.1 ((h.untried hrow hwaiting).2.2 _ _ hget)
  | received r hnew =>
    refine ⟨fun _ _ hn _ => hn, fun _ _ hq => Table.get_insert_of_some r hq, fun k d hd => ?_⟩
    obtain ⟨e, he, rfl | ⟨-, rfl⟩⟩ := (receivedDeliveries_related db r).right_of_some hd
    · exact ⟨e, he, rfl, rfl, rfl, fun _ ht => ht, fun _ ht => ht⟩
    · refine ⟨_, he, rfl, rfl, rfl, fun time ht => ?_, fun time ht => ?_⟩
      · simp only [NotificationDelivery.received, ht, Option.some_or]
        split_ifs <;> rfl
      · simp only [NotificationDelivery.received, ht, Option.some_or]
        split_ifs <;> rfl

theorem NotificationChanges.ends (hc : NotificationChanges env (since ≤ ·) db t) (h : db.Sound) :
    db.Ends since t := by
  induction hc with
  | refl => exact .refl since db
  | tail hbefore hlast ih => exact ih.trans (hlast.ends (NotificationChanges.sound hbefore h))

theorem notificationRun_ends (h : db.Sound) (steps : List NotificationStep)
    (hsince : ∀ settings now clock, .deliver settings now clock ∈ steps → since ≤ now) :
    db.Ends since (notificationRun env db steps) := by
  refine run_relation (notificationStep env) (C := fun _ x => x ∈ steps) (I := NotificationDb.Sound)
    (.refl since) (fun hab hbc => hab.trans hbc) (fun s x hs _ => notificationStep_sound env s x hs) ?_ h
    (along_of_forall (notificationStep env) fun x hx _ => hx)
  intro s x hs hx
  refine (notificationStep_changes x ?_).ends hs
  rintro settings now clock rfl
  exact hsince settings now clock hx

end Endings

/-- A notification that was tried, or that has expired when the later batches begin, stays as it is, whatever
follows; so do the receipts and the times they gave a delivery. -/
theorem tried_notifications_stay (env : NotificationEnv) (incidents : Table Incident)
    (accounts : Table LocalAccount) (memberships : List (Id × Id)) (steps later : List NotificationStep)
    (since : Time) (hsince : ∀ settings now clock, .deliver settings now clock ∈ later → since ≤ now) :
    (notificationRun env (.initial incidents accounts memberships) steps).Ends since
      (notificationRun env (.initial incidents accounts memberships) (steps ++ later)) := by
  have h := notificationRun_sound env (noNotifications_sound incidents accounts memberships) steps
  have hsplit := run_append (notificationStep env) (.initial incidents accounts memberships) steps later
  change NotificationDb.Ends since _ (run (notificationStep env) _ (steps ++ later))
  rw [hsplit]
  exact notificationRun_ends h later hsince

namespace Sample

def notificationEnv : NotificationEnv := ⟨pushEnv, fun s => s⟩

def pushSettings : PushSettings := ⟨true, .mock, 100, 3600, ["crisismosaic"]⟩

def urgentReport : NotificationRequest :=
  { incidentId := 0
    businessEventId := "e"
    eventType := "urgent_report.created"
    priority := .high
    resourceType := "report"
    resourceId := some 0
    resourceRevision := some 1
    deepLink := some "crisismosaic://incidents/0/reports/0"
    title := "urgent"
    body := "a report" }

/-- One operator, a member of the incident. -/
def oneOperator : NotificationDb := .initial ⟨[incident]⟩ ⟨[⟨"admin", "", .admin, true⟩]⟩ [(0, 0)]

def urgentAnnounced : List NotificationStep :=
  [.register 0 [] admin (registration firstPhone firstToken), .enqueue pushSettings 1 urgentReport,
    .deliver pushSettings 2 fun _ => 2]

/-- The event is announced again, and there is another batch. -/
def urgentRepeated : List NotificationStep :=
  [.enqueue pushSettings 3 urgentReport, .deliver pushSettings 4 fun _ => 4]

end Sample

theorem urgent_report_stays_sent :
    ((notificationRun Sample.notificationEnv Sample.oneOperator Sample.urgentAnnounced).outbox.get 0).any
        (fun n => n.status = .sent) = true ∧
      (notificationRun Sample.notificationEnv Sample.oneOperator Sample.urgentAnnounced).Ends 3
        (notificationRun Sample.notificationEnv Sample.oneOperator
          (Sample.urgentAnnounced ++ Sample.urgentRepeated)) := by
  refine ⟨by decide +kernel, tried_notifications_stay Sample.notificationEnv _ _ _ Sample.urgentAnnounced
    Sample.urgentRepeated 3 ?_⟩
  intro settings now clock h
  simp only [Sample.urgentRepeated, List.mem_cons, List.not_mem_nil, or_false, reduceCtorEq, false_or,
    NotificationStep.deliver.injEq] at h
  obtain ⟨-, rfl, -⟩ := h
  decide

/-- A receipt is recorded once, and a delivery shows the times of receipts for its notification only. -/
theorem deliveries_show_receipts (env : NotificationEnv) (incidents : Table Incident)
    (accounts : Table LocalAccount) (memberships : List (Id × Id)) (steps : List NotificationStep) :
    let db := notificationRun env (.initial incidents accounts memberships) steps
    (∀ j k q r, db.receipts.get j = some q → db.receipts.get k = some r →
      q.notificationOutboxId = r.notificationOutboxId → q.receiptType = r.receiptType →
        q.installationIdHash = r.installationIdHash → j = k) ∧
    ∀ k d, db.deliveries.get k = some d → d.IsReceived db.receipts := by
  intro db
  have h : db.Sound := notificationRun_sound env (noNotifications_sound incidents accounts memberships) steps
  refine ⟨?_, h.received⟩
  intro j k q r hq hr hid hkind hdigest
  exact h.receipts.eq hq hr (Prod.ext hid (Prod.ext hkind hdigest))

end CrisisMosaic
