import CrisisMosaic.NotificationRuns
import CrisisMosaic.Relational.Compares
import CrisisMosaic.Relational.Recorded

/-!
# What operators asked for

The preferences of an operator are the accepted patches put on the defaults, in their order, each of
which has quoted how many came before it. An event notifies whoever wants it, and once.
-/

namespace CrisisMosaic
open Relational

section Replay
variable (operatorId incidentId : Id)

/-- The first patch is put on the defaults. -/
def applyPatch (p : Option NotificationPreference) (x : Time × NotificationPreferencePatch) :
    Option NotificationPreference :=
  some ((p.getD (.default x.1 operatorId incidentId)).patched x.1 x.2)

def QuotesRevision (p : Option NotificationPreference) (x : Time × NotificationPreferencePatch) : Prop :=
  x.2.revision = p.elim 0 (·.revision)

theorem replay_revision (l : List (Time × NotificationPreferencePatch)) :
    (replay (applyPatch operatorId incidentId) none l).elim 0 (·.revision) = l.length := by
  induction l with
  | nil => rfl
  | cons x earlier ih =>
    change ((replay (applyPatch operatorId incidentId) none earlier).getD
      (.default x.1 operatorId incidentId)).revision + 1 = earlier.length + 1
    rw [← ih]
    cases replay (applyPatch operatorId incidentId) none earlier <;> rfl

/-- The accepted patch of the operator for the incident. -/
def patchLog (db : NotificationDb) : NotificationStep → List (Time × NotificationPreferencePatch)
  | .patchPreference now actor i header payload =>
    if actor.subjectId = operatorId ∧ i = incidentId ∧
        (db.patchMyNotificationPreference now actor i header payload).toOption.isSome then [(now, payload)]
    else []
  | _ => []

def NotificationDb.OneRowEach (db : NotificationDb) : Prop :=
  db.preferences.UniqueOn fun p => (p.operatorId, p.incidentId)

end Replay

section Patching
variable {now : Time} {actor : Actor} {i incidentId operatorId : Id} {db t : NotificationDb}
  {preferences preferences' : Table NotificationPreference} {payload : NotificationPreferencePatch} {id : Id}

theorem isOf_iff {p : NotificationPreference} :
    p.isOf operatorId incidentId = true ↔ p.operatorId = operatorId ∧ p.incidentId = incidentId := by
  simp [NotificationPreference.isOf]

theorem isOf_patched (p : NotificationPreference) :
    (p.patched now payload).isOf operatorId incidentId = p.isOf operatorId incidentId := rfl

/-- A patch that goes through has quoted the revision, and rewrites the row or adds the first. -/
theorem patchPreference_ok (h : patchPreference now actor i preferences payload = .ok (preferences', id)) :
    (preferences.find (NotificationPreference.isOf actor.subjectId i) = none ∧ payload.revision = 0 ∧
      preferences' = preferences.insert ((NotificationPreference.default now actor.subjectId i).patched now payload)) ∨
    ∃ k p, preferences.find (NotificationPreference.isOf actor.subjectId i) = some (k, p) ∧
      payload.revision = p.revision ∧ preferences' = preferences.modify k (.patched now payload) := by
  simp only [patchPreference, getPreference, bind_ok, pure_ok, require_ok] at h
  obtain ⟨-, -, preference, ⟨-, -, rfl⟩, -, hrevision, h⟩ := h
  revert hrevision h
  cases preferences.find (NotificationPreference.isOf actor.subjectId i) with
  | none =>
    intro hrevision h
    exact Or.inl ⟨rfl, hrevision, (Prod.mk.inj (pure_ok.mp h)).1.symm⟩
  | some found =>
    intro hrevision h
    exact Or.inr ⟨found.1, found.2, rfl, hrevision, (Prod.mk.inj (pure_ok.mp h)).1.symm⟩

theorem patch_keys (h : preferences.UniqueOn fun p => (p.operatorId, p.incidentId))
    (hok : patchPreference now actor i preferences payload = .ok (preferences', id)) :
    preferences'.UniqueOn fun p => (p.operatorId, p.incidentId) := by
  rcases patchPreference_ok hok with ⟨hnone, -, rfl⟩ | ⟨k, p, hfind, -, rfl⟩
  · refine h.insert fun j q hq hkey => ?_
    obtain ⟨hoperator, hincident⟩ := Prod.mk.inj hkey
    have hother := Table.find_none hnone hq
    have hmine : q.isOf actor.subjectId i = true := isOf_iff.mpr ⟨hoperator, hincident⟩
    rw [hmine] at hother
    cases hother
  · have hp := (Table.find_some hfind).1
    exact (h.modify_iff hp _).mpr fun j q hj hq hkey => hj (h.eq hq hp hkey)

/-- The preferences of others stay, and those of the actor get the patch. -/
theorem find_patch (operatorId incidentId : Id)
    (hok : patchPreference now actor i preferences payload = .ok (preferences', id)) :
    (preferences'.find (NotificationPreference.isOf operatorId incidentId)).map Prod.snd =
      if actor.subjectId = operatorId ∧ i = incidentId then
        some ((((preferences.find (NotificationPreference.isOf operatorId incidentId)).map Prod.snd).getD
          (NotificationPreference.default now operatorId incidentId)).patched now payload)
      else (preferences.find (NotificationPreference.isOf operatorId incidentId)).map Prod.snd := by
  rcases patchPreference_ok hok with ⟨hnone, -, rfl⟩ | ⟨k, p, hfind, -, rfl⟩
  · rw [Table.find_insert]
    by_cases hmine : actor.subjectId = operatorId ∧ i = incidentId
    · obtain ⟨rfl, rfl⟩ := hmine
      have hrow : ((NotificationPreference.default now actor.subjectId i).patched now payload).isOf
          actor.subjectId i = true := isOf_iff.mpr ⟨rfl, rfl⟩
      rw [if_pos hrow, if_pos ⟨rfl, rfl⟩, hnone]
      rfl
    · rw [if_neg hmine, isOf_patched, if_neg fun hrow => hmine (isOf_iff.mp hrow), Option.or_none]
  · rw [Table.find_modify fun p _ => isOf_patched p, Option.map_map]
    obtain ⟨hp, hof⟩ := Table.find_some hfind
    by_cases hmine : actor.subjectId = operatorId ∧ i = incidentId
    · rw [if_pos hmine]
      obtain ⟨rfl, rfl⟩ := hmine
      rw [hfind]
      simp
    · rw [if_neg hmine]
      cases hother : preferences.find (NotificationPreference.isOf operatorId incidentId) with
      | none => rfl
      | some found =>
        -- the rewritten row is of another operator or another incident
        obtain ⟨hq, hqof⟩ := Table.find_some (i := found.1) (a := found.2) hother
        have hne : k ≠ found.1 := by
          rintro rfl
          obtain rfl := Option.some.inj (hp.symm.trans hq)
          obtain ⟨hoperator, hincident⟩ := isOf_iff.mp hof
          obtain ⟨hoperator', hincident'⟩ := isOf_iff.mp hqof
          exact hmine ⟨hoperator.symm.trans hoperator', hincident.symm.trans hincident'⟩
        simp [hne]

theorem patch_quotes (hok : patchPreference now actor i preferences payload = .ok (preferences', id)) :
    payload.revision = ((preferences.find (NotificationPreference.isOf actor.subjectId i)).map Prod.snd).elim 0
      NotificationPreference.revision := by
  rcases patchPreference_ok hok with ⟨hnone, hrevision, -⟩ | ⟨k, p, hfind, hrevision, -⟩
  · rw [hnone]
    exact hrevision
  · rw [hfind]
    exact hrevision

/-- The loop reads the rest of the state and leaves it. -/
theorem enqueueFor_rest (env : NotificationEnv) (settings : PushSettings) (r : NotificationRequest)
    (acc : NotificationDb × List Id) (account : Id) :
    (NotificationDb.enqueueFor env settings now r acc account).1 =
      { acc.1 with outbox := (NotificationDb.enqueueFor env settings now r acc account).1.outbox } := by
  obtain ⟨db, rows⟩ := acc
  unfold NotificationDb.enqueueFor
  dsimp only
  split_ifs
  · cases db.outbox.find (NotificationDb.isFor (r.dedupeKey env) account) <;> rfl
  · rfl

theorem foldl_enqueueFor_rest (env : NotificationEnv) (settings : PushSettings) (r : NotificationRequest)
    (accounts : List Id) (acc : NotificationDb × List Id) :
    (accounts.foldl (NotificationDb.enqueueFor env settings now r) acc).1 =
      { acc.1 with outbox := (accounts.foldl (NotificationDb.enqueueFor env settings now r) acc).1.outbox } := by
  induction accounts generalizing acc with
  | nil => rfl
  | cons account accounts ih =>
    rw [List.foldl_cons, ih, enqueueFor_rest]

theorem deliverOne_preferences (env : NotificationEnv) (settings : PushSettings) (id : Id) :
    (db.deliverOne env settings now id).preferences = db.preferences := by
  unfold NotificationDb.deliverOne
  cases db.outbox.get id with
  | none => rfl
  | some row =>
    dsimp only
    split_ifs
    · rfl
    · cases db.firstDevice row.recipientOperatorId <;> rfl

theorem foldl_deliverOne_preferences (env : NotificationEnv) (settings : PushSettings) (clock : Id → Time)
    (ids : List Id) (db : NotificationDb) :
    (ids.foldl (fun db id => db.deliverOne env settings (clock id) id) db).preferences = db.preferences := by
  induction ids generalizing db with
  | nil => rfl
  | cons id ids ih => rw [List.foldl_cons, ih, deliverOne_preferences]

/-- Only a patch that goes through changes the preferences. -/
theorem notificationStep_preferences (env : NotificationEnv) (db : NotificationDb) (x : NotificationStep) :
    (notificationStep env db x).preferences = db.preferences ∧
        (∀ operatorId incidentId, patchLog operatorId incidentId db x = []) ∨
      ∃ now actor i header payload preferences' id, x = .patchPreference now actor i header payload ∧
        patchPreference now actor i db.preferences payload = .ok (preferences', id) ∧
          (notificationStep env db x).preferences = preferences' ∧
            (db.patchMyNotificationPreference now actor i header payload).toOption.isSome = true := by
  cases x with
  | enqueue settings now request =>
    refine Or.inl ⟨?_, fun _ _ => rfl⟩
    change (db.enqueueOperatorNotifications env settings now request).1.preferences = db.preferences
    unfold NotificationDb.enqueueOperatorNotifications
    split_ifs
    · rw [foldl_enqueueFor_rest]
    · rfl
  | deliver settings now clock =>
    exact Or.inl ⟨foldl_deliverOne_preferences env settings clock _ db, fun _ _ => rfl⟩
  | register now nonce actor payload =>
    refine Or.inl ⟨commit_induction (P := fun t : NotificationDb => t.preferences = db.preferences) rfl fun t ht => ?_,
      fun _ _ => rfl⟩
    obtain ⟨⟨devices, id⟩, -, hok⟩ := bind_ok.mp ht
    obtain rfl := pure_ok.mp hok
    rfl
  | revoke now actor device reason =>
    refine Or.inl ⟨commit_induction (P := fun t : NotificationDb => t.preferences = db.preferences) rfl fun t ht => ?_,
      fun _ _ => rfl⟩
    simp only [notificationServe, NotificationDb.revokePushDevice, bind_ok, pure_ok] at ht
    obtain ⟨-, -, -, -, -, -, rfl⟩ := ht
    rfl
  | receipt actor notification header payload =>
    refine Or.inl ⟨commit_induction (P := fun t : NotificationDb => t.preferences = db.preferences) rfl fun t ht => ?_,
      fun _ _ => rfl⟩
    simp only [notificationServe, NotificationDb.postNotificationReceipt,
      NotificationDb.recordNotificationReceipt, bind_ok] at ht
    obtain ⟨-, -, -, -, -, -, -, -, -, -, hok⟩ := ht
    revert hok
    cases db.receipts.find (NotificationDb.isReceipt notification payload.receiptType
        (env.push.pii.hmac payload.installationId.val)) with
    | some found =>
      intro hok
      obtain rfl := pure_ok.mp hok
      rfl
    | none =>
      intro hok
      obtain rfl := pure_ok.mp hok
      rfl
  | administer incidents accounts memberships => exact Or.inl ⟨rfl, fun _ _ => rfl⟩
  | patchPreference now actor i header payload =>
    cases hserved : db.patchMyNotificationPreference now actor i header payload with
    | error e =>
      left
      constructor
      · change (commit db (db.patchMyNotificationPreference now actor i header payload)).preferences = _
        rw [hserved]
        rfl
      · intro operatorId incidentId
        simp only [patchLog, hserved]
        exact if_neg fun h => by cases h.2.2
    | ok t =>
      right
      have hparts := hserved
      simp only [NotificationDb.patchMyNotificationPreference, bind_ok, pure_ok] at hparts
      obtain ⟨-, -, -, -, ⟨preferences', id⟩, hpatch, rfl⟩ := hparts
      refine ⟨now, actor, i, header, payload, preferences', id, rfl, hpatch, ?_, ?_⟩
      · change (commit db (db.patchMyNotificationPreference now actor i header payload)).preferences = _
        rw [hserved]
        rfl
      · rw [hserved]
        rfl

theorem notificationStep_oneRowEach (env : NotificationEnv) (x : NotificationStep) (h : db.OneRowEach) :
    (notificationStep env db x).OneRowEach := by
  unfold NotificationDb.OneRowEach at h ⊢
  rcases notificationStep_preferences env db x with
    ⟨hsame, -⟩ | ⟨now, actor, i, header, payload, preferences', id, -, hpatch, hnew, -⟩
  · rwa [hsame]
  · rw [hnew]
    exact patch_keys h hpatch

/-- A step changes the preferences by the patch it is logged with. -/
theorem patchLog_records (env : NotificationEnv) (operatorId incidentId : Id) (x : NotificationStep) :
    Records (applyPatch operatorId incidentId) QuotesRevision (db.preferenceOf operatorId incidentId)
      ((notificationStep env db x).preferenceOf operatorId incidentId) (patchLog operatorId incidentId db x) := by
  rcases notificationStep_preferences env db x with
    ⟨hsame, hnone⟩ | ⟨now, actor, i, header, payload, preferences', id, rfl, hpatch, hnew, hserved⟩
  · rw [hnone]
    unfold NotificationDb.preferenceOf
    rw [hsame]
    exact .refl _
  · have hfind := find_patch operatorId incidentId hpatch
    unfold NotificationDb.preferenceOf
    rw [hnew, hfind, patchLog]
    by_cases hmine : actor.subjectId = operatorId ∧ i = incidentId
    · rw [if_pos hmine, if_pos ⟨hmine.1, hmine.2, hserved⟩]
      obtain ⟨rfl, rfl⟩ := hmine
      have hquotes : QuotesRevision (db.preferenceOf actor.subjectId i) (now, payload) := patch_quotes hpatch
      exact .single hquotes
    · rw [if_neg hmine, if_neg fun hall => hmine ⟨hall.1, hall.2.1⟩]
      exact .refl _

end Patching

/-- In every run, the preferences of an operator for an incident are those the accepted patches make of the
defaults, in their order; each of these has quoted how many came before it, so none is lost; and no operator
has two rows for an incident. -/
theorem preferences_are_replayed (env : NotificationEnv) (incidents : Table Incident)
    (accounts : Table LocalAccount) (memberships : List (Id × Id)) (steps : List NotificationStep)
    (operatorId incidentId : Id) :
    let db := notificationRun env (.initial incidents accounts memberships) steps
    let log := records (notificationStep env) (patchLog operatorId incidentId)
      (.initial incidents accounts memberships) steps
    db.preferenceOf operatorId incidentId = replay (applyPatch operatorId incidentId) none log ∧
      (∀ later x earlier, log = later ++ x :: earlier → x.2.revision = earlier.length) ∧ db.OneRowEach := by
  intro db log
  have hstart : (NotificationDb.initial incidents accounts memberships).OneRowEach := List.nodup_nil
  have hrecords := records_replayed (notificationStep env) (patchLog operatorId incidentId)
    (fun db => db.preferenceOf operatorId incidentId) (C := fun _ _ => True)
    (I := NotificationDb.OneRowEach) (fun _ x hs _ => notificationStep_oneRowEach env x hs)
    (fun _ x _ _ => patchLog_records env operatorId incidentId x) hstart (along_true _ _ steps)
  refine ⟨hrecords.1, fun later x earlier hlog => ?_, ?_⟩
  · have hquotes := seesReplay_iff.mp hrecords.2 later x earlier hlog
    exact hquotes.trans (replay_revision operatorId incidentId earlier)
  · exact run_invariant (notificationStep env) (C := fun _ _ => True) (I := NotificationDb.OneRowEach)
      (fun _ x hs _ => notificationStep_oneRowEach env x hs) hstart (along_true _ _ steps)

/-! ## Whom an event notifies -/

def NotificationDb.wants (db : NotificationDb) (r : NotificationRequest) (account : Id) : Bool :=
  preferenceAllows (db.preferenceOf account r.incidentId) r.eventType r.priority

/-- The operators an event is for and who want it. -/
def NotificationDb.wantedBy (settings : PushSettings) (db : NotificationDb) (r : NotificationRequest) : List Id :=
  if settings.pushNotificationsEnabled then (db.operatorAccounts r.incidentId).filter (db.wants r) else []

section Enqueue
variable (env : NotificationEnv) (settings : PushSettings) (now : Time) (r : NotificationRequest)

/-- What the loop has done for some accounts: the notifications of those who want it are among the rows it
returns, and only these are new. -/
structure Notified (db : NotificationDb) (wanted : List Id) (acc : NotificationDb × List Id) : Prop where
  kept : ∀ i n, db.outbox.get i = some n → acc.1.outbox.get i = some n
  new : ∀ i n, acc.1.outbox.get i = some n →
    db.outbox.get i = some n ∨ ∃ account ∈ wanted, n = r.row env settings now account
  returned : ∀ i ∈ acc.2, ∃ n, acc.1.outbox.get i = some n ∧ n.dedupeKey = r.dedupeKey env ∧
    n.recipientOperatorId ∈ wanted
  all : ∀ account ∈ wanted, ∃ i ∈ acc.2, ∃ n, acc.1.outbox.get i = some n ∧
    n.key = (r.dedupeKey env, account)

variable {env settings now r} {db : NotificationDb}

theorem Notified.turn {wanted : List Id} {acc : NotificationDb × List Id}
    (h : Notified env settings now r db wanted acc) (account : Id)
    (hallowed : acc.1.wants r account = true) :
    Notified env settings now r db (wanted ++ [account])
      (NotificationDb.enqueueFor env settings now r acc account) := by
  obtain ⟨t, rows⟩ := acc
  unfold NotificationDb.enqueueFor
  rw [NotificationDb.wants] at hallowed
  dsimp only at hallowed h ⊢
  rw [if_pos hallowed]
  have hsub : ∀ {a}, a ∈ wanted → a ∈ wanted ++ [account] := fun ha => List.mem_append_left _ ha
  have hself : account ∈ wanted ++ [account] := List.mem_append_right _ (List.mem_singleton_self account)
  cases hfind : t.outbox.find (NotificationDb.isFor (r.dedupeKey env) account) with
  | some found =>
    obtain ⟨id, n⟩ := found
    obtain ⟨hn, hfor⟩ := Table.find_some hfind
    simp only [NotificationDb.isFor, Bool.and_eq_true, decide_eq_true_eq] at hfor
    refine ⟨h.kept, ?_, ?_, ?_⟩
    · intro i m hm
      refine (h.new i m hm).imp_right ?_
      rintro ⟨a, ha, heq⟩
      exact ⟨a, hsub ha, heq⟩
    · intro i hi
      rcases List.mem_append.mp hi with hi | hi
      · obtain ⟨m, hm, hkey, hrecipient⟩ := h.returned i hi
        exact ⟨m, hm, hkey, hsub hrecipient⟩
      · obtain rfl := List.mem_singleton.mp hi
        exact ⟨n, hn, hfor.1, hfor.2 ▸ hself⟩
    · intro a ha
      rcases List.mem_append.mp ha with ha | ha
      · obtain ⟨i, hi, hrest⟩ := h.all a ha
        exact ⟨i, List.mem_append_left _ hi, hrest⟩
      · obtain rfl := List.mem_singleton.mp ha
        exact ⟨id, List.mem_append_right _ (List.mem_singleton_self id), n, hn, Prod.ext hfor.1 hfor.2⟩
  | none =>
    refine ⟨?_, ?_, ?_, ?_⟩
    · intro i m hm
      exact Table.get_insert_of_some _ (h.kept i m hm)
    · intro i m hm
      rcases Table.get_insert_cases hm with ⟨-, rfl⟩ | hm
      · exact Or.inr ⟨account, hself, rfl⟩
      · refine (h.new i m hm).imp_right ?_
        rintro ⟨a, ha, heq⟩
        exact ⟨a, hsub ha, heq⟩
    · intro i hi
      rcases List.mem_append.mp hi with hi | hi
      · obtain ⟨m, hm, hkey, hrecipient⟩ := h.returned i hi
        exact ⟨m, Table.get_insert_of_some _ hm, hkey, hsub hrecipient⟩
      · obtain rfl := List.mem_singleton.mp hi
        exact ⟨_, Table.get_insert_size _ _, rfl, hself⟩
    · intro a ha
      rcases List.mem_append.mp ha with ha | ha
      · obtain ⟨i, hi, m, hm, hkey⟩ := h.all a ha
        exact ⟨i, List.mem_append_left _ hi, m, Table.get_insert_of_some _ hm, hkey⟩
      · obtain rfl := List.mem_singleton.mp ha
        exact ⟨t.outbox.size, List.mem_append_right _ (List.mem_singleton_self _), _,
          Table.get_insert_size _ _, rfl⟩

/-- The loop over the accounts, some of them done already. -/
theorem Notified.loop (accounts : List Id) {wanted : List Id} {acc : NotificationDb × List Id}
    (h : Notified env settings now r db wanted acc) (hpreferences : acc.1.preferences = db.preferences) :
    Notified env settings now r db (wanted ++ accounts.filter (db.wants r))
      (accounts.foldl (NotificationDb.enqueueFor env settings now r) acc) := by
  induction accounts generalizing wanted acc with
  | nil => rwa [List.filter_nil, List.append_nil]
  | cons account accounts ih =>
    have hsame : acc.1.wants r account = db.wants r account := by
      rw [NotificationDb.wants, NotificationDb.preferenceOf, hpreferences]
      rfl
    have hrest : (NotificationDb.enqueueFor env settings now r acc account).1.preferences = db.preferences := by
      rw [enqueueFor_rest]
      exact hpreferences
    rw [List.foldl_cons]
    by_cases hallowed : db.wants r account = true
    · rw [List.filter_cons_of_pos hallowed, List.append_cons]
      exact ih (h.turn account (hsame ▸ hallowed)) hrest
    · rw [List.filter_cons_of_neg hallowed]
      have hskip : NotificationDb.enqueueFor env settings now r acc account = acc := by
        rw [← hsame, NotificationDb.wants] at hallowed
        unfold NotificationDb.enqueueFor
        dsimp only
        rw [if_neg hallowed]
      rw [hskip]
      exact ih h hpreferences

/-- Nothing is added for accounts that are notified. -/
theorem foldl_enqueueFor_again (accounts : List Id) {acc : NotificationDb × List Id}
    (h : ∀ account ∈ accounts, acc.1.wants r account = true → ∃ i n, acc.1.outbox.get i = some n ∧ n.key = (r.dedupeKey env, account)) :
    (accounts.foldl (NotificationDb.enqueueFor env settings now r) acc).1 = acc.1 := by
  induction accounts generalizing acc with
  | nil => rfl
  | cons account accounts ih =>
    have hturn : (NotificationDb.enqueueFor env settings now r acc account).1 = acc.1 := by
      unfold NotificationDb.enqueueFor
      dsimp only
      split_ifs with hallowed
      · obtain ⟨i, n, hn, hkey⟩ := h account List.mem_cons_self hallowed
        cases hfind : acc.1.outbox.find (NotificationDb.isFor (r.dedupeKey env) account) with
        | some found => rfl
        | none =>
          obtain ⟨hdedupe, hrecipient⟩ := Prod.mk.inj hkey
          have hother := Table.find_none hfind hn
          simp [NotificationDb.isFor, hdedupe, hrecipient] at hother
      · rfl
    rw [List.foldl_cons, ih, hturn]
    rw [hturn]
    exact fun a ha => h a (List.mem_cons_of_mem account ha)

end Enqueue

end CrisisMosaic
