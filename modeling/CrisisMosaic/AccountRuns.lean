import CrisisMosaic.Accounts
import CrisisMosaic.Relational.Recorded

/-!
# What the accepted calls make of the accounts

An account is what the accepted calls about it make of the one that was set up, in their order, each
patch having quoted the revision it changes. The requests about sessions see a deployment whose
accounts an administrator replaces now and then.
-/

namespace CrisisMosaic
open Relational

/-- What the tables say of one account. -/
structure AccountFile where
  account : AccountRow
  memberships : List (Id × Role)

def rolesOf (id : Id) (rows : List IncidentMembership) : List (Id × Role) :=
  (rows.filter (·.accountId = id)).map fun m => (m.incidentId, m.role)

def AdminDb.file (db : AdminDb) (id : Id) : Option AccountFile :=
  (db.accounts.get id).map fun a => ⟨a, rolesOf id db.memberships⟩

inductive AccountChange
  | created (body : AdminUserCreate) (salt : String)
  | patched (body : AdminUserPatch) (salt : String)
  | joined (incident : Id) (role : Role)

def AdminUserPatch.incidentList (body : AdminUserPatch) : Option (List Id) :=
  body.incidentIds.map fun ids => ids.val.filterMap Ref.id?

def AdminUserPatch.roles (body : AdminUserPatch) (role : Role) (memberships : List (Id × Role)) :
    List (Id × Role) :=
  match body.incidentList with
  | some ids => (fromKeys ids).map fun i => (i, role)
  | none => if body.role.isSome then memberships.map fun m => (m.1, role) else memberships

namespace AccountChange

def apply (lib : AdminLib) (file : Option AccountFile) : AccountChange → Option AccountFile
  | .created body salt =>
    some ⟨body.row lib salt, (fromKeys (body.incidentIds.val.filterMap Ref.id?)).map fun i => (i, body.role.role)⟩
  | .patched body salt => file.map fun f =>
    let account := f.account.patched lib salt body
    ⟨account, body.roles account.role f.memberships⟩
  | .joined incident role => file.map fun f => { f with memberships := f.memberships ++ [(incident, role)] }

/-- A patch quotes the revision it finds. -/
def Sees (file : Option AccountFile) : AccountChange → Prop
  | .created _ _ => file = none
  | .patched body _ => ∃ f, file = some f ∧ f.account.revision = body.revision.val
  | .joined _ _ => file.isSome = true

end AccountChange

/-- What an accepted call changes about the account. -/
def AdminCall.changes (db : AdminDb) (actor : Principal) (id : Id) : AdminCall → List AccountChange
  | .createUser body salt => if id = db.accounts.size then [.created body salt] else []
  | .patchUser account body salt => if id = account then [.patched body salt] else []
  | .createIncident _ => if id = actor.subjectId then [.joined db.incidents.size actor.role] else []
  | .patchIncident _ _ _ => []

section Changes
variable {db : AdminDb} {actor : Principal} {id : Id}

theorem changes_createUser (body : AdminUserCreate) (salt : String) :
    (AdminCall.createUser body salt).changes db actor id =
      if id = db.accounts.size then [.created body salt] else [] := rfl

theorem changes_patchUser (account : Id) (body : AdminUserPatch) (salt : String) :
    (AdminCall.patchUser account body salt).changes db actor id =
      if id = account then [.patched body salt] else [] := rfl

theorem changes_createIncident (body : IncidentCreate) :
    (AdminCall.createIncident body).changes db actor id =
      if id = actor.subjectId then [.joined db.incidents.size actor.role] else [] := rfl

end Changes

def accountLog (env : AdminEnv) (id : Id) (s : AdminState) : AdminStep → List AccountChange
  | .serve r =>
    match s.request r with
    | some (actor, call) =>
      if (s.db.serve env s.now actor call).toOption.isSome then call.changes s.db actor id else []
    | none => []
  | _ => []

/-- The columns that are unique, and the accounts that the memberships name. -/
structure AdminDb.Sound (db : AdminDb) : Prop where
  usernames : db.accounts.UniqueOn (·.username)
  emails : ∀ i j a b email, db.accounts.get i = some a → db.accounts.get j = some b → a.email = some email →
    b.email = some email → i = j
  members : (db.memberships.map fun m => (m.accountId, m.incidentId)).Nodup
  owned : ∀ m ∈ db.memberships, m.accountId < db.accounts.size ∧ m.incidentId < db.incidents.size

section Lists
variable {α : Type*} [DecidableEq α] {l : List α}

theorem nodup_fromKeys : (fromKeys l).Nodup := List.nodup_reverse.mpr (List.nodup_dedup _)

theorem mem_fromKeys {a : α} : a ∈ fromKeys l ↔ a ∈ l := by
  simp [fromKeys]

end Lists

section Calls
variable {env : AdminEnv} {now : Time} {db t : AdminDb} {actor : Principal} {call : AdminCall} {id : Id}

theorem validateIncidents_ok {incidents : Table Incident} {refs : List Ref} {ids : List Id}
    (h : validateIncidents incidents refs = .ok ids) :
    ids = refs.filterMap Ref.id? ∧ ∀ i ∈ ids, i < incidents.size := by
  simp only [validateIncidents, bind_ok, require_ok, pure_ok] at h
  obtain ⟨-, hmissing, rfl⟩ := h
  refine ⟨rfl, fun i hi => ?_⟩
  obtain ⟨r, hr, hri⟩ := List.mem_filterMap.mp hi
  by_contra hout
  have hnone : incidents.get i = none := List.getElem?_eq_none (not_lt.mp hout)
  have hmem : r ∈ (fromKeys refs).filter fun r => r.id?.all fun i => (incidents.get i).isNone := by
    refine List.mem_filter.mpr ⟨mem_fromKeys.mpr hr, ?_⟩
    simp [hri, hnone]
  rw [hmissing] at hmem
  cases hmem

/-- What an accepted call has found and what it writes. -/
inductive CallServed (env : AdminEnv) (now : Time) (db : AdminDb) (actor : Principal) : AdminCall → AdminDb → Prop
  | created {body : AdminUserCreate} {salt : String} {ids : List Id} :
      ids = body.incidentIds.val.filterMap Ref.id? → (∀ i ∈ ids, i < db.incidents.size) →
      (∀ i a, db.accounts.get i = some a → a.username ≠ body.username.val) →
      (∀ i a, db.accounts.get i = some a → emailTaken (body.row env.lib salt).email a = false) →
      CallServed env now db actor (.createUser body salt)
        { db with
          accounts := db.accounts.insert (body.row env.lib salt)
          memberships := db.memberships ++ newMemberships db.accounts.size body.role.role ids }
  | patched {id : Id} {body : AdminUserPatch} {salt : String} {a : AccountRow} :
      db.accounts.get id = some a → a.revision = body.revision.val →
      (∀ ids ∈ body.incidentList, ∀ i ∈ ids, i < db.incidents.size) →
      (∀ j b, j ≠ id → db.accounts.get j = some b → emailTaken (a.patched env.lib salt body).email b = false) →
      CallServed env now db actor (.patchUser id body salt)
        { db with
          accounts := db.accounts.modify id (AccountRow.patched env.lib salt body)
          memberships := body.memberships id (a.patched env.lib salt body).role body.incidentList db.memberships }
  | opened {body : IncidentCreate} {service : RetainedState} :
      service.db.feed.incidents.size = db.incidents.size + 1 →
      CallServed env now db actor (.createIncident body)
        { db with
          service := service
          memberships := db.memberships ++ [⟨actor.subjectId, db.incidents.size, actor.role⟩] }
  | moved {header : Option Ref} {id : Id} {body : IncidentPatch} {service : RetainedState} :
      service.db.feed.incidents.size = db.incidents.size →
      CallServed env now db actor (.patchIncident header id body) { db with service := service }

theorem patchUser_served {body : AdminUserPatch} {salt : String} (h : db.patchUser env id body salt = .ok t) :
    CallServed env now db actor (.patchUser id body salt) t := by
  simp only [AdminDb.patchUser, bind_ok, found_ok, require_ok, pure_ok] at h
  obtain ⟨a, ha, -, hrevision, ids, hids, -, hemail, rfl⟩ := h
  have hlist : ids = body.incidentList ∧ ∀ l ∈ ids, ∀ i ∈ l, i < db.incidents.size := by
    unfold AdminUserPatch.incidentList
    unfold AdminUserPatch.checkedIncidents at hids
    revert hids
    cases body.incidentIds with
    | none =>
      intro hids
      obtain rfl := pure_ok.mp hids
      exact ⟨rfl, fun _ hl => by cases hl⟩
    | some refs =>
      intro hids
      obtain ⟨l, hl, rfl⟩ := map_ok.mp hids
      obtain ⟨hsame, hbound⟩ := validateIncidents_ok hl
      refine ⟨congrArg some hsame, fun k hk => ?_⟩
      obtain rfl := Option.some.inj hk
      exact hbound
  obtain ⟨rfl, hbound⟩ := hlist
  refine .patched ha hrevision hbound fun j b hj hb => ?_
  by_contra htaken
  have hmem : j ∈ db.accounts.select (emailTaken (a.patched env.lib salt body).email) :=
    Table.mem_select.mpr ⟨b, hb, by simpa using htaken⟩
  exact hj (by simpa using List.all_eq_true.mp hemail j hmem)

theorem serve_served (h : db.serve env now actor call = .ok t) : CallServed env now db actor call t := by
  cases call with
  | createUser body salt =>
    simp only [AdminDb.serve, AdminDb.createUser, bind_ok, require_ok, pure_ok, Option.isNone_iff_eq_none] at h
    obtain ⟨-, husername, ids, hids, -, hemail, rfl⟩ := h
    obtain ⟨hsame, hbound⟩ := validateIncidents_ok hids
    refine .created hsame hbound (fun i a ha hname => ?_) fun i a ha => ?_
    · simpa [hname] using Table.first_none husername ha
    · simpa using Table.first_none hemail ha
  | patchUser id body salt => exact patchUser_served h
  | createIncident body =>
    simp only [AdminDb.serve, AdminDb.createIncident, bind_ok, pure_ok] at h
    obtain ⟨service, hservice, rfl⟩ := h
    obtain ⟨⟨row, -, hincidents⟩, -⟩ := createIncident_spec hservice
    refine .opened ?_
    rw [hincidents, Table.size_insert]
    rfl
  | patchIncident header id body =>
    simp only [AdminDb.serve, AdminDb.patchIncident, bind_ok, pure_ok] at h
    obtain ⟨service, hservice, rfl⟩ := h
    obtain ⟨⟨row, next, -, -, hrelated⟩, -⟩ := patchIncident_spec hservice
    refine .moved ?_
    rw [← hrelated.size_eq, Table.size_modify]
    rfl

end Calls

section Soundness
variable {env : AdminEnv} {now : Time} {db t : AdminDb} {actor : Principal} {call : AdminCall} {id account : Id}
  {role : Role} {ids : List Id} {rows : List IncidentMembership}

def IncidentMembership.key (m : IncidentMembership) : Id × Id := (m.accountId, m.incidentId)

theorem newMemberships_keys : (newMemberships account role ids).map IncidentMembership.key =
    (fromKeys ids).map fun i => (account, i) := by
  rw [newMemberships, List.map_map]
  rfl

theorem mem_newMemberships {m : IncidentMembership} (h : m ∈ newMemberships account role ids) :
    m.accountId = account ∧ m.incidentId ∈ ids := by
  obtain ⟨i, hi, rfl⟩ := List.mem_map.mp h
  exact ⟨rfl, mem_fromKeys.mp hi⟩

/-- An account without memberships is given each of them once. -/
theorem nodup_append_newMemberships (h : (rows.map IncidentMembership.key).Nodup)
    (hnone : ∀ m ∈ rows, m.accountId ≠ account) :
    ((rows ++ newMemberships account role ids).map IncidentMembership.key).Nodup := by
  rw [List.map_append, newMemberships_keys]
  refine List.Nodup.append h (nodup_fromKeys.map fun i j hij => (Prod.mk.inj hij).2) ?_
  intro key hkey hnew
  obtain ⟨m, hm, rfl⟩ := List.mem_map.mp hkey
  obtain ⟨i, -, hi⟩ := List.mem_map.mp hnew
  exact hnone m hm (Prod.mk.inj hi).1.symm

theorem patched_keys {body : AdminUserPatch} (h : (rows.map IncidentMembership.key).Nodup) :
    ((body.memberships account role body.incidentList rows).map IncidentMembership.key).Nodup := by
  unfold AdminUserPatch.memberships
  split
  · refine nodup_append_newMemberships (h.sublist (List.filter_sublist.map _)) fun m hm => ?_
    simpa using (List.mem_filter.mp hm).2
  · split_ifs
    · rw [List.map_map]
      have hkeys : IncidentMembership.key ∘
          (fun m : IncidentMembership => if m.accountId = account then { m with role := role } else m) =
          IncidentMembership.key := by
        funext m
        dsimp only [Function.comp_apply]
        split_ifs <;> rfl
      rwa [hkeys]
    · exact h

theorem patched_owned {body : AdminUserPatch} {accounts incidents : ℕ}
    (h : ∀ m ∈ rows, m.accountId < accounts ∧ m.incidentId < incidents) (haccount : account < accounts)
    (hids : ∀ ids ∈ body.incidentList, ∀ i ∈ ids, i < incidents) :
    ∀ m ∈ body.memberships account role body.incidentList rows,
      m.accountId < accounts ∧ m.incidentId < incidents := by
  unfold AdminUserPatch.memberships
  cases hlist : body.incidentList with
  | some ids =>
    intro m hm
    rcases List.mem_append.mp hm with hold | hnew
    · exact h m (List.mem_filter.mp hold).1
    · obtain ⟨rfl, hi⟩ := mem_newMemberships hnew
      exact ⟨haccount, hids ids hlist _ hi⟩
  | none =>
    dsimp only
    split_ifs
    · intro m hm
      obtain ⟨n, hn, rfl⟩ := List.mem_map.mp hm
      split_ifs <;> exact h n hn
    · exact h

theorem emailTaken_iff {email : Option String} {a : AccountRow} :
    emailTaken email a = true ↔ ∃ e, email = some e ∧ a.email = some e := by
  cases email with
  | none => simp [emailTaken]
  | some e => simp [emailTaken]

theorem email_ne_of_free {email : Option String} {a : AccountRow} {e : String} (h : emailTaken email a = false)
    (he : email = some e) : a.email ≠ some e := by
  intro hae
  exact absurd ((emailTaken_iff.mpr ⟨e, he, hae⟩).symm.trans h) (by decide)

/-- Two accounts with one email are one account. -/
def EmailsUnique (accounts : Table AccountRow) : Prop :=
  ∀ i j a b email, accounts.get i = some a → accounts.get j = some b → a.email = some email →
    b.email = some email → i = j

theorem EmailsUnique.insert {accounts : Table AccountRow} (h : EmailsUnique accounts) {row : AccountRow}
    (hfree : ∀ i a, accounts.get i = some a → emailTaken row.email a = false) :
    EmailsUnique (accounts.insert row) := by
  intro i j a b email ha hb hae hbe
  rcases Table.get_insert_cases ha with ⟨rfl, rfl⟩ | ha'
  · rcases Table.get_insert_cases hb with ⟨rfl, -⟩ | hb'
    · rfl
    · exact absurd hbe (email_ne_of_free (hfree j b hb') hae)
  · rcases Table.get_insert_cases hb with ⟨rfl, rfl⟩ | hb'
    · exact absurd hae (email_ne_of_free (hfree i a ha') hbe)
    · exact h i j a b email ha' hb' hae hbe

theorem EmailsUnique.modify {accounts : Table AccountRow} (h : EmailsUnique accounts) {row : AccountRow}
    (hrow : accounts.get id = some row) {f : AccountRow → AccountRow}
    (hfree : ∀ j b, j ≠ id → accounts.get j = some b → emailTaken (f row).email b = false) :
    EmailsUnique (accounts.modify id f) := by
  intro i j a b email ha hb hae hbe
  rcases Table.get_modify_cases ha with ⟨rfl, a', ha', rfl⟩ | ⟨hi, ha'⟩
  · obtain rfl := Option.some.inj (ha'.symm.trans hrow)
    rcases Table.get_modify_cases hb with ⟨rfl, -⟩ | ⟨hj, hb'⟩
    · rfl
    · exact absurd hbe (email_ne_of_free (hfree j b (Ne.symm hj) hb') hae)
  · rcases Table.get_modify_cases hb with ⟨rfl, b', hb', rfl⟩ | ⟨hj, hb'⟩
    · obtain rfl := Option.some.inj (hb'.symm.trans hrow)
      exact absurd hae (email_ne_of_free (hfree i a (Ne.symm hi) ha') hbe)
    · exact h i j a b email ha' hb' hae hbe

/-- Whoever is served has an account. -/
theorem AdminDb.Sound.served (h : db.Sound) (hactor : actor.subjectId < db.accounts.size)
    (hserved : CallServed env now db actor call t) : t.Sound ∧ db.accounts.size ≤ t.accounts.size := by
  cases hserved with
  | @created body salt ids _ hbound hname hemail =>
    refine ⟨⟨h.usernames.insert hname, EmailsUnique.insert h.emails hemail, ?_, ?_⟩, by simp⟩
    · exact nodup_append_newMemberships h.members fun m hm => (h.owned m hm).1.ne
    · intro m hm
      rw [Table.size_insert]
      rcases List.mem_append.mp hm with hold | hnew
      · exact ⟨Nat.lt_succ_of_lt (h.owned m hold).1, (h.owned m hold).2⟩
      · obtain ⟨hm', hi⟩ := mem_newMemberships hnew
        exact ⟨hm' ▸ Nat.lt_succ_self _, hbound _ hi⟩
  | @patched id body salt a ha hrevision hbound hemail =>
    refine ⟨⟨?_, EmailsUnique.modify h.emails ha hemail, patched_keys h.members, ?_⟩, by simp⟩
    · exact (h.usernames.modify_iff ha _).mpr fun j b hj hb hname => hj (h.usernames.eq hb ha hname)
    · intro m hm
      rw [Table.size_modify]
      exact patched_owned h.owned (Table.lt_size ha) hbound m hm
  | @opened body service hsize =>
    refine ⟨⟨h.usernames, h.emails, ?_, ?_⟩, le_rfl⟩
    · rw [List.map_append]
      refine List.Nodup.append h.members (List.nodup_singleton _) ?_
      intro key hkey hnew
      obtain ⟨m, hm, rfl⟩ := List.mem_map.mp hkey
      have hsame := (Prod.mk.inj (List.mem_singleton.mp hnew)).2
      exact absurd hsame (h.owned m hm).2.ne
    · intro m hm
      change _ ∧ _ < service.db.feed.incidents.size
      rw [hsize]
      rcases List.mem_append.mp hm with hold | hnew
      · exact ⟨(h.owned m hold).1, Nat.lt_succ_of_lt (h.owned m hold).2⟩
      · rw [List.mem_singleton.mp hnew]
        exact ⟨hactor, Nat.lt_succ_self _⟩
  | @moved header id body service hsize =>
    refine ⟨⟨h.usernames, h.emails, h.members, fun m hm => ?_⟩, le_rfl⟩
    change _ ∧ _ < service.db.feed.incidents.size
    rw [hsize]
    exact h.owned m hm

end Soundness

section Files
variable {env : AdminEnv} {now : Time} {db t : AdminDb} {actor : Principal} {call : AdminCall} {id account : Id}
  {role : Role} {ids : List Id} {rows more : List IncidentMembership}

theorem rolesOf_append : rolesOf id (rows ++ more) = rolesOf id rows ++ rolesOf id more := by
  simp [rolesOf]

theorem rolesOf_eq_nil (h : ∀ m ∈ rows, m.accountId ≠ id) : rolesOf id rows = [] := by
  have hnone : rows.filter (·.accountId = id) = [] :=
    List.filter_eq_nil_iff.mpr fun m hm => by simpa using h m hm
  rw [rolesOf, hnone, List.map_nil]

theorem rolesOf_newMemberships :
    rolesOf id (newMemberships account role ids) =
      if id = account then (fromKeys ids).map fun i => (i, role) else [] := by
  split_ifs with hid
  · subst hid
    have hall : (newMemberships id role ids).filter (·.accountId = id) = newMemberships id role ids :=
      List.filter_eq_self.mpr fun m hm => by simpa using (mem_newMemberships hm).1
    rw [rolesOf, hall, newMemberships, List.map_map]
    rfl
  · refine rolesOf_eq_nil fun m hm => ?_
    rw [(mem_newMemberships hm).1]
    exact Ne.symm hid

theorem rolesOf_filter_self : rolesOf id (rows.filter (·.accountId ≠ id)) = [] :=
  rolesOf_eq_nil fun m hm => by simpa using (List.mem_filter.mp hm).2

theorem rolesOf_filter_other (h : id ≠ account) :
    rolesOf id (rows.filter (·.accountId ≠ account)) = rolesOf id rows := by
  unfold rolesOf
  rw [List.filter_filter]
  congr 1
  refine List.filter_congr fun m _ => ?_
  by_cases hm : m.accountId = id
  · simp [hm, h]
  · simp [hm]

theorem rolesOf_cons (m : IncidentMembership) : rolesOf id (m :: rows) =
    if m.accountId = id then (m.incidentId, m.role) :: rolesOf id rows else rolesOf id rows := by
  unfold rolesOf
  rw [List.filter_cons]
  by_cases hm : m.accountId = id
  · simp [hm]
  · simp [hm]

theorem rolesOf_given :
    rolesOf id (rows.map fun m => if m.accountId = account then { m with role := role } else m) =
      if id = account then (rolesOf account rows).map fun m => (m.1, role) else rolesOf id rows := by
  induction rows with
  | nil => simp [rolesOf]
  | cons m rows ih =>
    rw [List.map_cons, rolesOf_cons, ih, rolesOf_cons, rolesOf_cons]
    by_cases hid : id = account
    · subst hid
      by_cases hm : m.accountId = id
      · simp [hm]
      · simp [hm]
    · by_cases hm : m.accountId = account
      · simp [hm, hid, Ne.symm hid]
      · simp [hm, hid]

/-- A patch rewrites the memberships of its account. -/
theorem rolesOf_patched (body : AdminUserPatch) :
    rolesOf id (body.memberships account role body.incidentList rows) =
      if id = account then body.roles role (rolesOf account rows) else rolesOf id rows := by
  unfold AdminUserPatch.memberships AdminUserPatch.roles
  cases body.incidentList with
  | some ids =>
    dsimp only
    rw [rolesOf_append, rolesOf_newMemberships]
    split_ifs with hid
    · rw [hid, rolesOf_filter_self, List.nil_append]
    · rw [rolesOf_filter_other hid, List.append_nil]
  | none =>
    dsimp only
    split_ifs with hrole hid hid
    · rw [rolesOf_given, if_pos hid]
    · rw [rolesOf_given, if_neg hid]
    · rw [hid]
    · rfl

theorem rolesOf_joined (incident : Id) : rolesOf id (rows ++ [⟨account, incident, role⟩]) =
    rolesOf id rows ++ if id = account then [(incident, role)] else [] := by
  rw [rolesOf_append]
  split_ifs with hid
  · simp [rolesOf, hid]
  · congr 1
    refine rolesOf_eq_nil fun m hm => ?_
    rw [List.mem_singleton.mp hm]
    exact Ne.symm hid

theorem file_of_get {a : AccountRow} (ha : db.accounts.get id = some a) :
    db.file id = some ⟨a, rolesOf id db.memberships⟩ := by
  rw [AdminDb.file, ha]
  rfl

theorem file_congr (haccount : t.accounts.get id = db.accounts.get id)
    (hroles : rolesOf id t.memberships = rolesOf id db.memberships) : t.file id = db.file id := by
  rw [AdminDb.file, AdminDb.file, haccount, hroles]

/-- An accepted call changes an account by what it is logged with. -/
theorem CallServed.records (hserved : CallServed env now db actor call t) (h : db.Sound)
    (hactor : actor.subjectId < db.accounts.size) :
    Records (AccountChange.apply env.lib) AccountChange.Sees (db.file id) (t.file id) (call.changes db actor id) := by
  cases hserved with
  | @created body salt ids hids _ _ _ =>
    obtain rfl := hids
    rw [changes_createUser]
    split_ifs with hid
    · subst hid
      have hnone : db.file db.accounts.size = none := by
        rw [AdminDb.file, Table.get_size]
        rfl
      have hold : rolesOf db.accounts.size db.memberships = [] :=
        rolesOf_eq_nil fun m hm => (h.owned m hm).1.ne
      refine ⟨?_, hnone, trivial⟩
      unfold AdminDb.file
      rw [Table.get_insert_size, rolesOf_append, hold, rolesOf_newMemberships, if_pos rfl]
      rfl
    · refine ⟨file_congr ?_ ?_, trivial⟩
      · rw [Table.get_insert, if_neg hid]
      · rw [rolesOf_append, rolesOf_newMemberships, if_neg hid, List.append_nil]
  | @patched k body salt a ha hrevision _ _ =>
    rw [changes_patchUser]
    split_ifs with hid
    · subst hid
      have hfile := file_of_get ha
      refine ⟨?_, ⟨_, hfile, hrevision⟩, trivial⟩
      change _ = AccountChange.apply env.lib (db.file id) (.patched body salt)
      rw [hfile]
      unfold AdminDb.file
      rw [Table.get_modify_self, ha, rolesOf_patched, if_pos rfl]
      rfl
    · refine ⟨file_congr (Table.get_modify_of_ne _ _ (Ne.symm hid)) ?_, trivial⟩
      rw [rolesOf_patched, if_neg hid]
  | @opened body service hsize =>
    rw [changes_createIncident]
    split_ifs with hid
    · obtain ⟨a, ha⟩ := Table.get_of_lt hactor
      rw [← hid] at ha
      have hfile := file_of_get ha
      refine ⟨?_, by rw [hfile]; rfl, trivial⟩
      change _ = AccountChange.apply env.lib (db.file id) (.joined db.incidents.size actor.role)
      rw [hfile]
      unfold AdminDb.file
      dsimp only
      rw [ha, rolesOf_joined, if_pos hid]
      rfl
    · refine ⟨file_congr rfl ?_, trivial⟩
      rw [rolesOf_joined, if_neg hid, List.append_nil]
  | moved => exact .refl _

end Files

section Runs
variable {env : AdminEnv} {s : AdminState} {actor : Principal} {call : AdminCall} {id r : Id}

/-- Each request that waits was authenticated for an account. -/
structure AdminState.Sound (s : AdminState) : Prop where
  db : s.db.Sound
  actors : ∀ r actor call, s.request r = some (actor, call) → actor.subjectId < s.db.accounts.size

theorem request_served {r' : Id} (h : AdminState.request { s with waiting := s.waiting.modify r fun _ => none } r' =
    some (actor, call)) : s.request r' = some (actor, call) := by
  unfold AdminState.request at h ⊢
  dsimp only at h
  rw [Table.get_modify] at h
  split_ifs at h with hr
  · cases hrow : s.waiting.get r' with
    | none => simp [hrow] at h
    | some row => simp [hrow] at h
  · exact h

/-- What a step does to the accounts, to the requests that wait, and to the log. -/
inductive AdminState.Moves (env : AdminEnv) (s : AdminState) : AdminStep → AdminState → Prop
  | session {x : AuthStep} {t : AdminState} : t.db.service = s.db.service → t.db.accounts = s.db.accounts →
      t.db.memberships = s.db.memberships → t.waiting = s.waiting → Moves env s (.session x) t
  | arrived {token : AccessToken} {call : AdminCall} {actor : Principal} {a : AccountRow} :
      s.db.accounts.get actor.subjectId = some a → a.isActive = true → a.role = .admin →
      actor.role = .admin →
      Moves env s (.arrive token call) { s with waiting := s.waiting.insert (some (actor, call)) }
  | refused {x : AdminStep} : (∀ r, x = .serve r → s.request r = none) → Moves env s x s
  | served {r : Id} {actor : Principal} {call : AdminCall} {t : AdminDb} : s.request r = some (actor, call) →
      s.db.serve env s.now actor call = .ok t → CallServed env s.now s.db actor call t →
      Moves env s (.serve r) { s with db := t, waiting := s.waiting.modify r fun _ => none }
  | failed {r : Id} {actor : Principal} {call : AdminCall} : s.request r = some (actor, call) →
      (∀ t, s.db.serve env s.now actor call ≠ .ok t) →
      Moves env s (.serve r) { s with waiting := s.waiting.modify r fun _ => none }

/-- An administrator is an account that is active. -/
theorem getActor_admin {token : AccessToken} (h : s.db.auth.getActor s.now token = .ok actor)
    (hrole : actor.role = .admin) :
    ∃ a, s.db.accounts.get actor.subjectId = some a ∧ a.isActive = true ∧ a.role = .admin := by
  simp only [AuthDb.getActor, bind_ok, require_ok] at h
  obtain ⟨-, -, h⟩ := h
  revert h
  cases token.subjectType with
  | device =>
    intro h
    simp only [bind_ok, found_ok, require_ok, pure_ok] at h
    obtain ⟨device, -, -, -, rfl⟩ := h
    cases hrole
  | account =>
    intro h
    simp only [bind_ok, found_ok, require_ok, pure_ok] at h
    obtain ⟨account, haccount, -, hactive, rfl⟩ := h
    have hrow : (s.db.accounts.map (·.toLocalAccount)).get token.sub = some account := haccount
    rw [Table.get_map, Option.map_eq_some_iff] at hrow
    obtain ⟨a, ha, rfl⟩ := hrow
    exact ⟨a, ha, hactive, hrole⟩

theorem adminStep_moves (env : AdminEnv) (s : AdminState) (x : AdminStep) : s.Moves env x (adminStep env s x) := by
  cases x with
  | session x => exact .session rfl rfl rfl rfl
  | arrive token call =>
    change s.Moves env _ (s.arrive token call)
    unfold AdminState.arrive
    cases hactor : s.db.auth.getActor s.now token with
    | error e => exact .refused fun _ h => by cases h
    | ok actor =>
      dsimp only
      split_ifs with hrole
      · obtain ⟨a, ha, hactive, hadmin⟩ := getActor_admin hactor hrole
        exact .arrived ha hactive hadmin hrole
      · exact .refused fun _ h => by cases h
  | serve r =>
    change s.Moves env _ (s.serve env r)
    unfold AdminState.serve
    cases hrequest : s.request r with
    | none =>
      refine .refused fun r' h => ?_
      cases h
      exact hrequest
    | some waiting =>
      obtain ⟨actor, call⟩ := waiting
      dsimp only
      cases hserve : s.db.serve env s.now actor call with
      | ok t => exact .served hrequest hserve (serve_served hserve)
      | error e => exact .failed hrequest fun t ht => by cases hserve.symm.trans ht

theorem AdminState.Sound.step (h : s.Sound) (x : AdminStep) : (adminStep env s x).Sound := by
  have hmoves := adminStep_moves env s x
  generalize adminStep env s x = t at hmoves
  cases hmoves with
  | session hservice haccounts hmemberships hwaiting =>
    refine ⟨⟨?_, ?_, ?_, ?_⟩, ?_⟩
    · exact haccounts ▸ h.db.usernames
    · exact haccounts ▸ h.db.emails
    · exact hmemberships ▸ h.db.members
    · unfold AdminDb.incidents
      rw [hservice, haccounts, hmemberships]
      exact h.db.owned
    · intro r actor call hr
      rw [haccounts]
      refine h.actors r actor call ?_
      rwa [AdminState.request, ← hwaiting]
  | @arrived token call actor a ha =>
    refine ⟨h.db, fun r actor' call' hr => ?_⟩
    unfold AdminState.request at hr
    rcases hrow : (s.waiting.insert (some (actor, call))).get r with _ | row
    · simp [hrow] at hr
    · rcases Table.get_insert_cases hrow with ⟨-, rfl⟩ | hold
      · simp only [hrow, Option.join_some, Option.some.injEq, Prod.mk.injEq] at hr
        obtain ⟨rfl, rfl⟩ := hr
        exact Table.lt_size ha
      · exact h.actors r actor' call' (by rw [AdminState.request, hold]; simpa [hrow] using hr)
  | refused => exact h
  | @served r actor call t hr _ hserved =>
    obtain ⟨ht, hsize⟩ := h.db.served (h.actors r actor call hr) hserved
    exact ⟨ht, fun r' actor' call' hr' => (h.actors r' actor' call' (request_served hr')).trans_le hsize⟩
  | failed => exact ⟨h.db, fun r' actor' call' hr' => h.actors r' actor' call' (request_served hr')⟩

theorem Bootstrap.sound (setup : Bootstrap) (now : Time) : (AdminState.initial now setup).Sound where
  db := ⟨setup.usernames, setup.emails, setup.members, setup.owned⟩
  actors := fun r actor call hr => by cases hr

theorem accountLog_records (h : s.Sound) (id : Id) (x : AdminStep) :
    Records (AccountChange.apply env.lib) AccountChange.Sees (s.db.file id) ((adminStep env s x).db.file id)
      (accountLog env id s x) := by
  have hmoves := adminStep_moves env s x
  generalize adminStep env s x = t at hmoves
  cases hmoves with
  | session hservice haccounts hmemberships hwaiting =>
    unfold AdminDb.file
    rw [haccounts, hmemberships]
    exact .refl _
  | arrived => exact .refl _
  | refused hnone =>
    have hlog : accountLog env id s x = [] := by
      cases x with
      | serve r => simp [accountLog, hnone r rfl]
      | session | arrive => rfl
    rw [hlog]
    exact .refl _
  | @served r actor call t hr hok hserved =>
    have hlog : accountLog env id s (.serve r) = call.changes s.db actor id := by
      simp only [accountLog, hr, hok]
      exact if_pos rfl
    rw [hlog]
    exact hserved.records h.db (h.actors r actor call hr)
  | @failed r actor call hr hno =>
    have hlog : accountLog env id s (.serve r) = [] := by
      simp only [accountLog, hr]
      refine if_neg fun hsome => ?_
      obtain ⟨t, ht⟩ := Option.isSome_iff_exists.mp hsome
      exact hno t (toOption_some.mp ht)
    rw [hlog]
    exact .refl _

end Runs

/-- In every run, an account and its memberships are what the accepted calls about it make of those that were
set up, in their order; each patch has quoted the revision it changes; and user names, emails and memberships
are unique. -/
theorem accounts_are_replayed (env : AdminEnv) (now : Time) (setup : Bootstrap) (steps : List AdminStep) (id : Id) :
    let start := AdminState.initial now setup
    let log := records (adminStep env) (accountLog env id) start steps
    (adminRun env start steps).db.file id = replay (AccountChange.apply env.lib) (start.db.file id) log ∧
      (∀ later change earlier, log = later ++ change :: earlier →
        change.Sees (replay (AccountChange.apply env.lib) (start.db.file id) earlier)) ∧
      (adminRun env start steps).db.Sound := by
  intro start log
  have hstart : start.Sound := setup.sound now
  have hrecords := records_replayed (adminStep env) (accountLog env id) (fun s => s.db.file id)
    (C := fun _ _ => True) (I := AdminState.Sound) (fun _ x hs _ => hs.step x)
    (fun _ x hs _ => accountLog_records hs id x) hstart (along_true _ start steps)
  refine ⟨hrecords.1, seesReplay_iff.mp hrecords.2, ?_⟩
  exact (run_invariant (adminStep env) (C := fun _ _ => True) (I := AdminState.Sound) (fun _ x hs _ => hs.step x)
    hstart (along_true _ start steps)).db

end CrisisMosaic
