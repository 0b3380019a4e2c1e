import CrisisMosaic.Sessions

/-!
# Chains of refresh tokens

A redemption marks its token used, in the transaction that issues the replacement in the
same family. A family's only unused token is therefore the one it issued last, whatever
order sessions, refreshes, logouts, revocations and retention come in.
-/

namespace CrisisMosaic
open Relational

namespace AuthEvent

/-- The token issued. -/
def token : AuthEvent → Id
  | .opened token _ => token
  | .redeemed _ replacement _ => replacement

def family : AuthEvent → Id
  | .opened _ family => family
  | .redeemed _ _ family => family

def spent : AuthEvent → Option Id
  | .opened _ _ => none
  | .redeemed token _ _ => some token

/-- The token a family issued last; the latest event comes first. -/
def latest (f : Id) (l : List AuthEvent) : Option Id :=
  (l.find? fun e => e.family = f).map token

/-- A family starts with one token, and each of its redemptions is of the token before. -/
def Chained : List AuthEvent → Prop
  | [] => True
  | .opened _ f :: l => latest f l = none ∧ Chained l
  | .redeemed token _ f :: l => latest f l = some token ∧ Chained l

theorem latest_cons (f : Id) (e : AuthEvent) (l : List AuthEvent) :
    latest f (e :: l) = if e.family = f then some e.token else latest f l := by
  unfold latest
  by_cases h : e.family = f <;> simp [h]

theorem latest_eq_none {f n : Id} {l : List AuthEvent} (h : ∀ e ∈ l, e.family < n) (hf : n ≤ f) :
    latest f l = none := by
  induction l with
  | nil => rfl
  | cons e l ih =>
    have hlt : e.family < n := h e List.mem_cons_self
    have hrest : latest f l = none := ih fun e he => h e (List.mem_cons_of_mem _ he)
    rw [latest_cons, if_neg (hlt.trans_le hf).ne, hrest]

theorem mem_spent {i : Id} {l : List AuthEvent} :
    i ∈ l.filterMap spent ↔ ∃ b f, .redeemed i b f ∈ l := by
  rw [List.mem_filterMap]
  constructor
  · rintro ⟨e, he, hi⟩
    cases e with
    | opened token family => exact nomatch hi
    | redeemed token replacement family =>
      cases hi
      exact ⟨replacement, family, he⟩
  · rintro ⟨b, f, he⟩
    exact ⟨_, he, rfl⟩

/-- A token that is redeemed once has one replacement. -/
theorem replacement_unique {i b c f g : Id} {l : List AuthEvent} (h : (l.filterMap spent).Nodup)
    (hb : .redeemed i b f ∈ l) (hc : .redeemed i c g ∈ l) : b = c := by
  induction l with
  | nil => exact nomatch hb
  | cons e l ih =>
    cases e with
    | opened token family =>
      have hb' : .redeemed i b f ∈ l := by simpa using hb
      have hc' : .redeemed i c g ∈ l := by simpa using hc
      exact ih h hb' hc'
    | redeemed token replacement family =>
      have hnodup := List.nodup_cons.mp h
      rcases List.mem_cons.mp hb with hb' | hb' <;> rcases List.mem_cons.mp hc with hc' | hc'
      · cases hb'
        cases hc'
        rfl
      · cases hb'
        exact absurd (mem_spent.mpr ⟨c, g, hc'⟩) hnodup.1
      · cases hc'
        exact absurd (mem_spent.mpr ⟨b, f, hb'⟩) hnodup.1
      · exact ih hnodup.2 hb' hc'

end AuthEvent

/-- Nobody has redeemed or revoked the token. -/
def RefreshSession.usable (r : RefreshSession) : Bool := r.usedAt.isNone && r.revokedAt.isNone

/-- No token is redeemed twice; the redemptions of a family form one chain, which the stored
tokens tell; and no family has two usable tokens. -/
structure AuthDb.Chains (db : AuthDb) (l : List AuthEvent) : Prop where
  once : (l.filterMap AuthEvent.spent).Nodup
  issued : (l.map AuthEvent.token).Nodup
  chained : AuthEvent.Chained l
  replaced : ∀ i r, db.session i = some r → ∀ b,
    r.replacedById = some b ↔ .redeemed i b r.familyId ∈ l
  single : ∀ i j r q, db.session i = some r → db.session j = some q → r.familyId = q.familyId →
    r.usable = true → q.usable = true → i = j

/-! ### What a request does to the tokens -/

def RefreshSession.SameLink (r q : RefreshSession) : Prop :=
  r.familyId = q.familyId ∧ r.usedAt = q.usedAt ∧ r.replacedById = q.replacedById

inductive TokenStep (s t : AuthDb) : List AuthEvent → Prop
  | kept (size : t.refreshSessions.size = s.refreshSessions.size) (families : t.families = s.families)
      (rows : ∀ i r, t.session i = some r → ∃ q, s.session i = some q ∧ r.SameLink q) :
      TokenStep s t []
  | opened (r : RefreshSession) (unused : r.usedAt = none ∧ r.replacedById = none)
      (family : r.familyId = s.families) (families : t.families = s.families + 1)
      (size : t.refreshSessions.size = s.refreshSessions.size + 1)
      (rows : ∀ i, t.session i = if i = s.refreshSessions.size then some r else s.session i) :
      TokenStep s t [.opened s.refreshSessions.size r.familyId]
  | redeemed (id : Id) (refresh used r : RefreshSession) (stored : s.session id = some refresh)
      (fresh : refresh.usedAt = none) (spent : used.usedAt.isSome = true)
      (replaced : used.replacedById = some s.refreshSessions.size)
      (family : used.familyId = refresh.familyId ∧ r.familyId = refresh.familyId)
      (unused : r.usedAt = none ∧ r.replacedById = none) (families : t.families = s.families)
      (size : t.refreshSessions.size = s.refreshSessions.size + 1)
      (rows : ∀ i, t.session i = if i = id then some used
        else if i = s.refreshSessions.size then some r else s.session i) :
      TokenStep s t [.redeemed id s.refreshSessions.size refresh.familyId]

namespace AuthDb
variable {lib : SecurityLib} {settings : SecuritySettings} {now : Time} {db t : AuthDb}

theorem session_eq_some {i : Id} {r : RefreshSession} :
    db.session i = some r ↔ db.refreshSessions.get i = some (some r) := by
  simp [session, Option.join_eq_some_iff]

theorem session_lt {i : Id} {r : RefreshSession} (h : db.session i = some r) :
    i < db.refreshSessions.size :=
  Table.lt_size (session_eq_some.mp h)

theorem findSession_some {p : RefreshSession → Bool} {i : Id} {r : RefreshSession}
    (h : db.findSession p = some (i, r)) : db.session i = some r ∧ p r = true := by
  unfold findSession at h
  cases hfind : db.refreshSessions.find fun row => row.any p with
  | none => simp [hfind] at h
  | some x =>
    obtain ⟨j, row⟩ := x
    obtain ⟨hget, hp⟩ := Table.find_some hfind
    cases row with
    | none => simp [hfind] at h
    | some q =>
      simp only [hfind, Option.some.injEq, Prod.mk.injEq] at h
      obtain ⟨rfl, rfl⟩ := h
      exact ⟨session_eq_some.mpr hget, hp⟩

theorem session_modify (i : Id) (f : RefreshSession → RefreshSession) (j : Id) :
    (db.modifySession i f).session j = if i = j then (db.session j).map f else db.session j := by
  unfold modifySession session
  rw [Table.get_modify]
  split_ifs with h
  · cases db.refreshSessions.get j with
    | none => rfl
    | some row => cases row <;> rfl
  · rfl

theorem session_insert {r : RefreshSession}
    (h : t.refreshSessions = db.refreshSessions.insert (some r)) (j : Id) :
    t.session j = if j = db.refreshSessions.size then some r else db.session j := by
  unfold session
  rw [h, Table.get_insert]
  split_ifs <;> rfl

theorem issuePair_ok {actor : Principal} {familyId : Option Id} {drawn : String} {grant : Grant}
    (h : db.issuePair lib settings now actor familyId drawn = .ok (t, grant)) :
    ∃ r : RefreshSession, r.usedAt = none ∧ r.replacedById = none ∧
      r.familyId = familyId.getD db.families ∧ r.subjectType = actor.subjectType ∧
      r.subjectId = actor.subjectId ∧
      t = { db with
        refreshSessions := db.refreshSessions.insert (some r)
        families := if familyId.isNone then db.families + 1 else db.families } ∧
      grant.token = db.refreshSessions.size ∧ grant.family = r.familyId := by
  unfold issuePair at h
  simp only [bind_ok, require_ok, pure_ok, Prod.mk.injEq] at h
  obtain ⟨-, -, rfl, rfl⟩ := h
  exact ⟨_, rfl, rfl, rfl, rfl, rfl, rfl, rfl, rfl⟩

/-- A pair issued in a new family. -/
theorem tokenStep_issued {s : AuthDb} {actor : Principal} {drawn : String} {grant : Grant}
    (hs : db.refreshSessions = s.refreshSessions ∧ db.families = s.families)
    (h : db.issuePair lib settings now actor none drawn = .ok (t, grant)) :
    TokenStep s t [.opened grant.token grant.family] := by
  obtain ⟨r, hused, hreplaced, hfamily, -, -, rfl, htoken, hgrant⟩ := issuePair_ok h
  have hsize : grant.token = s.refreshSessions.size := by rw [htoken, hs.1]
  have hrows : db.refreshSessions.insert (some r) = s.refreshSessions.insert (some r) := by
    rw [hs.1]
  rw [hsize, hgrant]
  refine .opened r ⟨hused, hreplaced⟩ (hfamily.trans hs.2) (congrArg (· + 1) hs.2) ?_
    (session_insert hrows)
  exact (congrArg Table.size hrows).trans (Table.size_insert _ _)

theorem tokenStep_redeemed {expectedType : Option SubjectType} {token drawn : String} {id : Id}
    {grant : Grant}
    (h : db.rotateRefresh lib settings now expectedType token drawn = .ok (t, id, grant)) :
    TokenStep db t [.redeemed id grant.token grant.family] := by
  unfold rotateRefresh at h
  simp only [bind_ok, found_ok, require_ok, pure_ok, Prod.exists, Prod.mk.injEq] at h
  obtain ⟨i, refresh, hfind, -, -, -, hfresh, -, -, actor, -, issued, g, hissue, ht, rfl, rfl⟩ := h
  obtain ⟨hstored, -⟩ := findSession_some hfind
  obtain ⟨r, hused, hreplaced, hfamily, -, -, rfl, htoken, hgrant⟩ := issuePair_ok hissue
  have hsize : g.token = db.refreshSessions.size := by
    rw [htoken]
    exact Table.size_modify _ _ _
  have hrfamily : r.familyId = refresh.familyId := hfamily
  rw [hgrant, hsize, hrfamily, ← ht]
  refine .redeemed i refresh
    { refresh with usedAt := some now, replacedById := some db.refreshSessions.size } r hstored hfresh
    rfl rfl ⟨rfl, hrfamily⟩ ⟨hused, hreplaced⟩ rfl ?_ fun j => ?_
  · simp [modifySession]
  · have hmodified : (db.modifySession i fun r => { r with usedAt := some now }).refreshSessions.size =
        db.refreshSessions.size := Table.size_modify _ _ _
    have hlt : i ≠ db.refreshSessions.size := (session_lt hstored).ne
    rw [session_modify, session_insert rfl, session_modify, hmodified, hsize]
    by_cases hij : i = j
    · subst hij
      rw [if_pos rfl, if_neg hlt, if_pos rfl, if_pos rfl, hstored]
      rfl
    · rw [if_neg hij, if_neg hij, if_neg (Ne.symm hij)]

theorem tokenStep_kept {s t : AuthDb} {f : RefreshSession → RefreshSession}
    (hrows : t.refreshSessions = s.refreshSessions.sweep (Option.map f))
    (hfamilies : t.families = s.families) (hf : ∀ r, (f r).SameLink r) : TokenStep s t [] := by
  refine .kept ?_ hfamilies fun i r hr => ?_
  · rw [hrows, Table.size_sweep]
  · rw [session_eq_some, hrows, Table.get_sweep] at hr
    obtain ⟨row, hrow, hmap⟩ := Option.map_eq_some_iff.mp hr
    obtain ⟨q, rfl, rfl⟩ := Option.map_eq_some_iff.mp hmap
    exact ⟨q, session_eq_some.mpr hrow, hf q⟩

theorem tokenStep_same {s t : AuthDb} (hrows : t.refreshSessions = s.refreshSessions)
    (hfamilies : t.families = s.families) : TokenStep s t [] := by
  refine .kept (by rw [hrows]) hfamilies fun i r hr => ⟨r, ?_, rfl, rfl, rfl⟩
  rw [session_eq_some] at hr ⊢
  rw [← hrows, hr]

theorem tokenStep_revoked (db : AuthDb) (i : Id) :
    TokenStep db (db.modifySession i fun r => { r with revokedAt := some now }) [] := by
  refine .kept (Table.size_modify _ _ _) rfl fun j r hr => ?_
  rw [session_modify] at hr
  split_ifs at hr with hij
  · obtain ⟨q, hq, rfl⟩ := Option.map_eq_some_iff.mp hr
    exact ⟨q, hq, rfl, rfl, rfl⟩
  · exact ⟨r, hr, rfl, rfl, rfl⟩

theorem tokenStep_expired (db : AuthDb) : TokenStep db (db.deleteExpiredSessions now) [] := by
  refine .kept (Table.size_sweep _ _) rfl fun i r hr => ⟨r, ?_, rfl, rfl, rfl⟩
  rw [session_eq_some] at hr ⊢
  unfold deleteExpiredSessions at hr
  rw [Table.get_sweep] at hr
  obtain ⟨row, hrow, hkept⟩ := Option.map_eq_some_iff.mp hr
  split_ifs at hkept
  rw [hrow, hkept]

end AuthDb

/-- Every accepted request leaves the tokens alone, opens a family or redeems one token. -/
theorem authServe_tokenStep {lib : SecurityLib} {settings : SecuritySettings} {s : AuthState}
    {x : AuthStep} {t : AuthDb} {events : List AuthEvent}
    (h : authServe lib settings s x = .ok (t, events)) : TokenStep s.db t events := by
  cases x with
  | anonymousSession body drawn =>
    simp only [authServe, AuthDb.createAnonymousSession, bind_ok, require_ok, pure_ok, Prod.exists,
      Prod.mk.injEq] at h
    obtain ⟨db, id, grant, ⟨-, -, incident, -, db', grant', hissue, rfl, rfl, rfl⟩, rfl, rfl⟩ := h
    refine AuthDb.tokenStep_issued ?_ hissue
    exact ⟨rfl, rfl⟩
  | login username password drawn =>
    simp only [authServe, AuthDb.login, bind_ok, found_ok, require_ok, pure_ok, Prod.exists,
      Prod.mk.injEq] at h
    obtain ⟨db, grant, ⟨id, account, -, -, -, hissue⟩, rfl, rfl⟩ := h
    exact AuthDb.tokenStep_issued ⟨rfl, rfl⟩ hissue
  | refresh expectedType token drawn =>
    simp only [authServe, bind_ok, pure_ok, Prod.exists, Prod.mk.injEq] at h
    obtain ⟨db, id, grant, hrotate, rfl, rfl⟩ := h
    exact AuthDb.tokenStep_redeemed hrotate
  | logout token =>
    simp only [authServe, pure_ok, Prod.mk.injEq] at h
    obtain ⟨rfl, rfl⟩ := h
    unfold AuthDb.logout
    split
    · split
      · exact AuthDb.tokenStep_revoked _ _
      · exact AuthDb.tokenStep_same rfl rfl
    · exact AuthDb.tokenStep_same rfl rfl
  | revokeAnonymous token =>
    simp only [authServe, AuthDb.revokeAnonymous, bind_ok, found_ok, pure_ok, Prod.exists,
      Prod.mk.injEq] at h
    obtain ⟨db, device, ⟨i, refresh, -, row, -, rfl, rfl⟩, rfl, rfl⟩ := h
    refine AuthDb.tokenStep_kept rfl rfl fun r => ?_
    split <;> exact ⟨rfl, rfl, rfl⟩
  | authenticated token =>
    simp only [authServe, bind_ok, pure_ok, Prod.mk.injEq] at h
    obtain ⟨actor, -, rfl, rfl⟩ := h
    exact AuthDb.tokenStep_same rfl rfl
  | retention =>
    simp only [authServe, pure_ok, Prod.mk.injEq] at h
    obtain ⟨rfl, rfl⟩ := h
    exact AuthDb.tokenStep_expired _
  | administer incidents accounts memberships =>
    simp only [authServe, pure_ok, Prod.mk.injEq] at h
    obtain ⟨rfl, rfl⟩ := h
    exact AuthDb.tokenStep_same rfl rfl
  | tick elapsed =>
    simp only [authServe, pure_ok, Prod.mk.injEq] at h
    obtain ⟨rfl, rfl⟩ := h
    exact AuthDb.tokenStep_same rfl rfl

/-! ### The invariant -/

/-- A token that nobody has redeemed is the last of its family; a redeemed one names its
replacement. -/
structure RefreshSession.Linked (families : ℕ) (i : Id) (r : RefreshSession) (l : List AuthEvent) :
    Prop where
  family : r.familyId < families
  fresh : r.usedAt = none → r.replacedById = none ∧ AuthEvent.latest r.familyId l = some i ∧
    i ∉ l.filterMap AuthEvent.spent
  redeemed : r.usedAt.isSome = true →
    ∃ b, r.replacedById = some b ∧ .redeemed i b r.familyId ∈ l

structure AuthDb.Tracked (db : AuthDb) (l : List AuthEvent) : Prop where
  tokens : ∀ e ∈ l, e.token < db.refreshSessions.size
  spent : ∀ i ∈ l.filterMap AuthEvent.spent, i < db.refreshSessions.size
  families : ∀ e ∈ l, e.family < db.families
  once : (l.filterMap AuthEvent.spent).Nodup
  issued : (l.map AuthEvent.token).Nodup
  chained : AuthEvent.Chained l
  rows : ∀ i r, db.session i = some r → r.Linked db.families i l

theorem RefreshSession.Linked.of_sameLink {n : ℕ} {i : Id} {r q : RefreshSession}
    {l : List AuthEvent} (hq : q.Linked n i l) (h : r.SameLink q) : r.Linked n i l := by
  obtain ⟨hfamily, hused, hreplaced⟩ := h
  constructor
  · rw [hfamily]
    exact hq.family
  · rw [hfamily, hused, hreplaced]
    exact hq.fresh
  · rw [hfamily, hused, hreplaced]
    exact hq.redeemed

section Steps
variable {s t : AuthDb} {l : List AuthEvent}

/-- Another family's event, or a token's own redemption, does not touch the token's link. -/
theorem RefreshSession.Linked.cons {n m : ℕ} {i : Id} {r : RefreshSession} {e : AuthEvent}
    (h : r.Linked n i l) (hn : n ≤ m)
    (he : r.usedAt = none → e.family ≠ r.familyId ∧ e.spent ≠ some i) : r.Linked m i (e :: l) where
  family := h.family.trans_le hn
  fresh := by
    intro hused
    obtain ⟨hreplaced, hlatest, hspent⟩ := h.fresh hused
    obtain ⟨hfamily, hother⟩ := he hused
    refine ⟨hreplaced, ?_, ?_⟩
    · rw [AuthEvent.latest_cons, if_neg hfamily, hlatest]
    · intro hi
      obtain ⟨a, ha, hspends⟩ := List.mem_filterMap.mp hi
      rcases List.mem_cons.mp ha with rfl | ha
      · exact hother hspends
      · exact hspent (List.mem_filterMap.mpr ⟨a, ha, hspends⟩)
  redeemed := by
    intro hused
    obtain ⟨b, hb, hmem⟩ := h.redeemed hused
    exact ⟨b, hb, List.mem_cons_of_mem _ hmem⟩

/-- A token just issued is the latest of its family. -/
theorem RefreshSession.Linked.issued {n : ℕ} {r : RefreshSession} {e : AuthEvent}
    (hfamily : r.familyId < n) (he : e.family = r.familyId)
    (hunused : r.usedAt = none ∧ r.replacedById = none)
    (hspent : e.token ∉ (e :: l).filterMap AuthEvent.spent) : r.Linked n e.token (e :: l) where
  family := hfamily
  fresh := fun _ => ⟨hunused.2, by rw [AuthEvent.latest_cons, if_pos he], hspent⟩
  redeemed := by
    intro hused
    rw [hunused.1] at hused
    exact nomatch hused

theorem AuthDb.Tracked.token_fresh (h : s.Tracked l) :
    s.refreshSessions.size ∉ l.map AuthEvent.token := by
  intro hmem
  obtain ⟨e, he, hsize⟩ := List.mem_map.mp hmem
  exact absurd hsize (h.tokens e he).ne

theorem AuthDb.Tracked.step {es : List AuthEvent} (h : s.Tracked l) (hstep : TokenStep s t es) :
    t.Tracked (es ++ l) := by
  cases hstep with
  | kept size families rows =>
    constructor
    · rw [size]
      exact h.tokens
    · rw [size]
      exact h.spent
    · rw [families]
      exact h.families
    · exact h.once
    · exact h.issued
    · exact h.chained
    · intro i r hr
      obtain ⟨q, hq, hlink⟩ := rows i r hr
      rw [families]
      exact (h.rows i q hq).of_sameLink hlink
  | opened r unused family families size rows =>
    have hnew : AuthEvent.latest r.familyId l = none :=
      AuthEvent.latest_eq_none h.families family.ge
    constructor
    · intro e he
      rcases List.mem_cons.mp he with rfl | he
      · exact size ▸ Nat.lt_succ_self _
      · exact (h.tokens e he).trans_le (size ▸ Nat.le_succ _)
    · intro i hi
      exact (h.spent i hi).trans_le (size ▸ Nat.le_succ _)
    · intro e he
      rcases List.mem_cons.mp he with rfl | he
      · exact family.trans_lt (families ▸ Nat.lt_succ_self _)
      · exact (h.families e he).trans_le (families ▸ Nat.le_succ _)
    · exact h.once
    · exact List.nodup_cons.mpr ⟨h.token_fresh, h.issued⟩
    · exact ⟨hnew, h.chained⟩
    · intro i q hq
      rw [rows] at hq
      split_ifs at hq with hi
      · cases hq
        subst hi
        have hspent : s.refreshSessions.size ∉ l.filterMap AuthEvent.spent :=
          fun hmem => lt_irrefl _ (h.spent _ hmem)
        have hfamily : r.familyId < t.families := by
          rw [family, families]
          exact Nat.lt_succ_self _
        exact .issued (e := .opened s.refreshSessions.size r.familyId) hfamily rfl unused hspent
      · have hlinked := h.rows i q hq
        refine hlinked.cons (families ▸ Nat.le_succ _) fun _ => ⟨?_, nofun⟩
        exact fun heq => hlinked.family.ne (heq.symm.trans family)
  | redeemed id refresh used r stored fresh spent replaced family unused families size rows =>
    have hlinked := h.rows id refresh stored
    obtain ⟨-, hlatest, hspent⟩ := hlinked.fresh fresh
    have hlt : id < s.refreshSessions.size := AuthDb.session_lt stored
    constructor
    · intro e he
      rcases List.mem_cons.mp he with rfl | he
      · exact size ▸ Nat.lt_succ_self _
      · exact (h.tokens e he).trans_le (size ▸ Nat.le_succ _)
    · intro i hi
      rcases List.mem_cons.mp hi with rfl | hi
      · exact hlt.trans_le (size ▸ Nat.le_succ _)
      · exact (h.spent i hi).trans_le (size ▸ Nat.le_succ _)
    · intro e he
      rw [families]
      rcases List.mem_cons.mp he with rfl | he
      · exact hlinked.family
      · exact h.families e he
    · exact List.nodup_cons.mpr ⟨hspent, h.once⟩
    · exact List.nodup_cons.mpr ⟨h.token_fresh, h.issued⟩
    · exact ⟨hlatest, h.chained⟩
    · intro i q hq
      rw [rows] at hq
      rw [families]
      split_ifs at hq with hi hnew
      · cases hq
        subst hi
        refine ⟨family.1 ▸ hlinked.family, fun hused => ?_, fun _ => ?_⟩
        · rw [hused] at spent
          exact nomatch spent
        · exact ⟨_, replaced, family.1 ▸ List.mem_cons_self⟩
      · cases hq
        subst hnew
        have hnotspent : s.refreshSessions.size ∉
            id :: l.filterMap AuthEvent.spent := by
          rintro (_ | ⟨_, hmem⟩)
          · exact lt_irrefl _ hlt
          · exact lt_irrefl _ (h.spent _ hmem)
        exact .issued (e := .redeemed id s.refreshSessions.size refresh.familyId)
          (family.2 ▸ hlinked.family) family.2.symm unused hnotspent
      · have hq' := h.rows i q hq
        refine hq'.cons le_rfl fun hunused => ⟨fun heq => ?_, fun heq => ?_⟩
        · have hsame : some id = some i := by
            rw [← hlatest, ← (hq'.fresh hunused).2.1]
            exact congrArg (AuthEvent.latest · l) heq
          exact hi (Option.some.inj hsame).symm
        · exact hi (Option.some.inj heq).symm

theorem AuthDb.Tracked.chains (h : s.Tracked l) : s.Chains l where
  once := h.once
  issued := h.issued
  chained := h.chained
  replaced := by
    intro i r hr b
    have hlinked := h.rows i r hr
    cases hused : r.usedAt with
    | none =>
      obtain ⟨hreplaced, -, hspent⟩ := hlinked.fresh hused
      rw [hreplaced]
      exact ⟨nofun, fun hmem => absurd (AuthEvent.mem_spent.mpr ⟨b, _, hmem⟩) hspent⟩
    | some time =>
      obtain ⟨c, hc, hmem⟩ := hlinked.redeemed (by rw [hused]; rfl)
      rw [hc]
      constructor
      · rintro ⟨⟩
        exact hmem
      · intro hb
        rw [AuthEvent.replacement_unique h.once hmem hb]
  single := by
    intro i j r q hr hq hfamily husable hother
    simp only [RefreshSession.usable, Bool.and_eq_true, Option.isNone_iff_eq_none] at husable hother
    obtain ⟨-, hlatest, -⟩ := (h.rows i r hr).fresh husable.1
    obtain ⟨-, hlatest', -⟩ := (h.rows j q hq).fresh hother.1
    rw [hfamily] at hlatest
    exact Option.some.inj (hlatest.symm.trans hlatest')

end Steps

theorem initial_tracked (now : Time) (incidents : Table Incident) (accounts : Table LocalAccount)
    (memberships : List (Id × Id)) :
    (AuthState.initial now incidents accounts memberships).db.Tracked [] where
  tokens := nofun
  spent := nofun
  families := nofun
  once := List.nodup_nil
  issued := List.nodup_nil
  chained := trivial
  rows := by
    intro i r hr
    exact nomatch AuthDb.session_eq_some.mp hr

theorem authStep_tracked (lib : SecurityLib) (settings : SecuritySettings) (s : AuthState)
    (l : List AuthEvent) (x : AuthStep) (h : s.db.Tracked l) :
    (authStep lib settings s x).db.Tracked (authEvents lib settings s x ++ l) := by
  unfold authStep authEvents
  cases hx : authServe lib settings s x with
  | ok r => exact h.step (authServe_tokenStep hx)
  | error e => exact h

/-- Every refresh token is redeemed at most once, and its family is one chain with at most one
usable token, whatever is replayed, revoked or cleaned up. -/
theorem refresh_tokens_form_chains (lib : SecurityLib) (settings : SecuritySettings) (now : Time)
    (incidents : Table Incident) (accounts : Table LocalAccount) (memberships : List (Id × Id))
    (steps : List AuthStep) :
    (run (authStep lib settings) (.initial now incidents accounts memberships) steps).db.Chains
      (records (authStep lib settings) (authEvents lib settings)
        (.initial now incidents accounts memberships) steps) :=
  (records_invariant (authStep lib settings) (authEvents lib settings)
    (I := fun s l => s.db.Tracked l) (fun s l x h _ => authStep_tracked lib settings s l x h)
    (initial_tracked now incidents accounts memberships)
    (along_true (authStep lib settings) _ steps)).chains

end CrisisMosaic
