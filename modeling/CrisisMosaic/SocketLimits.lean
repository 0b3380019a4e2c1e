import CrisisMosaic.SocketAuthority

/-!
# How many AI requests are served in a minute

The sockets of an actor and its requests over HTTP share the counts that the limiter keeps.
-/

namespace CrisisMosaic
open Relational Storage

/-! ## Keys -/

theorem aiKey_ne (actor actor' : Actor) (incident incident' : Ref) :
    AiLimits.key "ai_refinement" actor incident ≠ AiLimits.key "ai_brief" actor' incident' := by
  intro h
  have hlist := congrArg (fun s => s.toList[3]?) h
  simp [AiLimits.key, String.toList_append] at hlist

/-- A key is counted up to one limit. -/
theorem rule_of_key {limits : AiLimits} {o o' : AiOperation} {p p' : String} {n n' : ℕ} {actor actor' : Actor}
    {incident incident' : Ref} (h : limits.rule o = some (p, n)) (h' : limits.rule o' = some (p', n'))
    (hkey : AiLimits.key p actor incident = AiLimits.key p' actor' incident') : n = n' := by
  cases o <;> cases o' <;> simp only [AiLimits.rule, Option.some.injEq, Prod.mk.injEq, reduceCtorEq] at h h'
  all_goals
    obtain ⟨rfl, rfl⟩ := h
    obtain ⟨rfl, rfl⟩ := h'
  · rfl
  · exact absurd hkey (aiKey_ne _ _ _ _)
  · exact absurd hkey.symm (aiKey_ne _ _ _ _)
  · rfl

section Check
variable {l : RateLimiter} {now : Time} {key : String} {limit : ℕ}

theorem RateLimiter.check_full (h : limit ≤ (SlidingWindow.expire (seconds 60) now (l.entries key)).length) :
    (l.check now key limit).1 ≠ none ∧ (l.check now key limit).2.entries =
      Function.update l.entries key (SlidingWindow.expire (seconds 60) now (l.entries key)) := by
  unfold RateLimiter.check
  dsimp only
  rw [if_pos h]
  exact ⟨by rintro ⟨⟩, rfl⟩

theorem RateLimiter.check_room (h : (SlidingWindow.expire (seconds 60) now (l.entries key)).length < limit) :
    (l.check now key limit).1 = none ∧ (l.check now key limit).2.entries =
      Function.update l.entries key (SlidingWindow.expire (seconds 60) now (l.entries key) ++ [now]) := by
  unfold RateLimiter.check
  dsimp only
  rw [if_neg h.not_ge]
  exact ⟨rfl, rfl⟩

/-- A check adds the time to those of its key when it lets the request through. -/
theorem RateLimiter.check_tracks {log : List Time}
    (h : SlidingWindow.Tracks (seconds 60) limit now (l.entries key) log) :
    SlidingWindow.Tracks (seconds 60) limit now ((l.check now key limit).2.entries key)
        (if (l.check now key limit).1 = none then log ++ [now] else log) ∧
      ∀ k, k ≠ key → (l.check now key limit).2.entries k = l.entries k := by
  rcases Nat.lt_or_ge (SlidingWindow.expire (seconds 60) now (l.entries key)).length limit with hroom | hfull
  · obtain ⟨hnone, hentries⟩ := RateLimiter.check_room hroom
    rw [if_pos hnone, hentries, Function.update_self]
    exact ⟨h.admitted le_rfl (by decide) hroom, fun k hk => Function.update_of_ne hk _ _⟩
  · obtain ⟨hsome, hentries⟩ := RateLimiter.check_full hfull
    rw [if_neg hsome, hentries, Function.update_self]
    exact ⟨h.expire le_rfl, fun k hk => Function.update_of_ne hk _ _⟩

end Check

/-! ## Calls -/

/-- The key that a call was counted under. -/
def SocketCall.limitKey (limits : AiLimits) (c : SocketCall) : Option String :=
  (limits.rule c.operation).map fun r => AiLimits.key r.1 c.actor.toActor c.incident

/-- The times of the calls that were counted under a key, the first one first. -/
def keyTimes (limits : AiLimits) (l : List SocketCall) (key : String) : List Time :=
  ((l.filter fun c => c.limitKey limits = some key).map (·.time)).reverse

theorem keyTimes_cons {limits : AiLimits} {c : SocketCall} {key : String} (h : c.limitKey limits = some key)
    (l : List SocketCall) : keyTimes limits (c :: l) key = keyTimes limits l key ++ [c.time] := by
  simp [keyTimes, h]

theorem keyTimes_cons_ne {limits : AiLimits} {c : SocketCall} {key : String} (h : c.limitKey limits ≠ some key)
    (l : List SocketCall) : keyTimes limits (c :: l) key = keyTimes limits l key := by
  simp [keyTimes, h]

section Steps
variable {env : SocketEnv} {s : SocketState}

/-- What a message does to the limiter, and the call that it leads to if the limiter lets it through. -/
theorem receive_limiter (env : SocketEnv) (now : Time) (limiter : RateLimiter) (backend : AiBackend)
    (grant : SocketGrant) (message : Json) (socket : AiSocket) :
    (socket.receive env now limiter backend grant message).2 = (none, limiter) ∨
      ∃ o, (socket.receive env now limiter backend grant message).2.2 =
          (env.limits.check now limiter grant.actor.toActor grant.incident o).2 ∧
        ∀ c ∈ (socket.receive env now limiter backend grant message).2.1, c.1 = o ∧
          (env.limits.check now limiter grant.actor.toActor grant.incident o).1 = none := by
  unfold AiSocket.receive
  split_ifs
  · exact Or.inl rfl
  · cases message.asDict with
    | none => exact Or.inl rfl
    | some d =>
      dsimp only
      split_ifs
      · exact Or.inl rfl
      · unfold handleRequest
        cases AiRequest.ofMessage d with
        | error frame => exact Or.inl rfl
        | ok r =>
          refine Or.inr ⟨r.operation, ?_⟩
          dsimp only
          generalize env.limits.check now limiter grant.actor.toActor grant.incident r.operation = checked
          obtain ⟨retryAfter, limiter'⟩ := checked
          cases retryAfter with
          | some n => exact ⟨rfl, fun c hc => absurd hc (by rintro ⟨⟩)⟩
          | none =>
            refine ⟨rfl, fun c hc => ⟨?_, rfl⟩⟩
            obtain ⟨call, -, rfl⟩ := Option.map_eq_some_iff.mp hc
            rfl
      · exact Or.inl rfl

/-- A step leaves the limiter and calls nothing, or makes one check and calls what it lets through. -/
theorem limiter_cases (env : SocketEnv) (s : SocketState) (x : SocketStep) :
    ((socketStep env s x).limiter = s.limiter ∧ s.calls env x = []) ∨
      (socketStep env s x).admin = s.admin ∧ ∃ actor incident o,
        (socketStep env s x).limiter = (env.limits.check s.admin.now s.limiter actor incident o).2 ∧
        (s.calls env x = [] ∨ ∃ c, s.calls env x = [c] ∧ c.time = s.admin.now ∧ c.operation = o ∧
          c.actor.toActor = actor ∧ c.incident = incident ∧
          (env.limits.check s.admin.now s.limiter actor incident o).1 = none) := by
  cases x with
  | admin | connect | timeout | disconnect => exact Or.inl ⟨rfl, rfl⟩
  | http actor header o => exact Or.inr ⟨rfl, actor, header, o, rfl, Or.inl rfl⟩
  | message id message backend =>
    change ((s.message env id message backend).limiter = s.limiter ∧ _) ∨
      (s.message env id message backend).admin = s.admin ∧ _
    cases hold : s.sockets.get id with
    | none => exact Or.inl ⟨by rw [message_none hold], by simp [SocketState.calls, hold]⟩
    | some socket =>
      cases hphase : socket.phase with
      | accepted =>
        refine Or.inl ⟨?_, by simp [SocketState.calls, hold, hphase]⟩
        rw [message_accepted hold hphase]
        rfl
      | closed => exact Or.inl ⟨by rw [message_closed hold hphase], by simp [SocketState.calls, hold, hphase]⟩
      | serving grant =>
        have hstep : socketStep env s (.message id message backend) = s.message env id message backend := rfl
        rw [hstep, calls_serving hold hphase, message_serving hold hphase]
        rcases receive_limiter env s.admin.now s.limiter backend grant message socket with
          hnone | ⟨o, hlimiter, hcalls⟩
        · refine Or.inl ⟨congrArg Prod.snd hnone, ?_⟩
          rw [congrArg Prod.fst hnone]
          rfl
        · refine Or.inr ⟨rfl, grant.actor.toActor, grant.incident, o, hlimiter, ?_⟩
          cases hcalled : (socket.receive env s.admin.now s.limiter backend grant message).2.1 with
          | none => exact Or.inl rfl
          | some c =>
            obtain ⟨ho, hadmitted⟩ := hcalls c hcalled
            exact Or.inr ⟨_, rfl, rfl, ho, rfl, rfl, hadmitted⟩

end Steps

/-- `log` has the times at which the requests of each key were let through, among them those of the calls. -/
structure SocketState.Counted (env : SocketEnv) (s : SocketState) (l : List SocketCall) (log : String → List Time) :
    Prop where
  tracks : ∀ o keyPrefix limit actor incident, env.limits.rule o = some (keyPrefix, limit) →
    SlidingWindow.Tracks (seconds 60) limit s.admin.now (s.limiter.entries (AiLimits.key keyPrefix actor incident))
      (log (AiLimits.key keyPrefix actor incident))
  called : ∀ k, (keyTimes env.limits l k).Sublist (log k)

theorem SocketState.Counted.kept {env : SocketEnv} {s : SocketState} {l : List SocketCall} {log : String → List Time}
    (h : s.Counted env l log) {x : SocketStep} (hlimiter : (socketStep env s x).limiter = s.limiter) :
    (socketStep env s x).Counted env l log where
  tracks := by
    intro o keyPrefix limit actor incident hrule
    rw [hlimiter]
    exact (h.tracks o keyPrefix limit actor incident hrule).wait socketStep_now_le
  called := h.called

/-- One more check, and the call that it lets through. -/
theorem SocketState.Counted.checked {env : SocketEnv} {s t : SocketState} {l calls : List SocketCall}
    {log : String → List Time} (h : s.Counted env l log) {o : AiOperation} {keyPrefix : String} {limit : ℕ}
    {actor : Actor} {incident : Ref} (hrule : env.limits.rule o = some (keyPrefix, limit)) (hadmin : t.admin = s.admin)
    (hlimiter : t.limiter = (s.limiter.check s.admin.now (AiLimits.key keyPrefix actor incident) limit).2)
    (hcalls : calls = [] ∨ ∃ c : SocketCall, calls = [c] ∧ c.time = s.admin.now ∧ c.operation = o ∧
      c.actor.toActor = actor ∧ c.incident = incident ∧
      (s.limiter.check s.admin.now (AiLimits.key keyPrefix actor incident) limit).1 = none) :
    ∃ log', t.Counted env (calls ++ l) log' := by
  obtain ⟨key, hkey⟩ : ∃ key, key = AiLimits.key keyPrefix actor incident := ⟨_, rfl⟩
  have htracks := h.tracks o keyPrefix limit actor incident hrule
  rw [← hkey] at hlimiter hcalls htracks
  obtain ⟨hself, hothers⟩ := RateLimiter.check_tracks htracks
  obtain ⟨times, htimes⟩ : ∃ times, times =
    if (s.limiter.check s.admin.now key limit).1 = none then log key ++ [s.admin.now] else log key := ⟨_, rfl⟩
  rw [← htimes] at hself
  have hgrows : (log key).Sublist times := by
    rw [htimes]
    split_ifs
    · exact List.sublist_append_left _ _
    · exact List.Sublist.refl _
  refine ⟨Function.update log key times, ?_, ?_⟩
  · intro o' keyPrefix' limit' actor' incident' hrule'
    rw [hadmin, hlimiter]
    by_cases hk : AiLimits.key keyPrefix' actor' incident' = key
    · obtain rfl := rule_of_key hrule' hrule (hk.trans hkey)
      rw [hk, Function.update_self]
      exact hself
    · rw [Function.update_of_ne hk, hothers _ hk]
      exact h.tracks o' keyPrefix' limit' actor' incident' hrule'
  · intro k
    have hold : (keyTimes env.limits l k).Sublist (Function.update log key times k) := by
      by_cases hk : k = key
      · subst hk
        rw [Function.update_self]
        exact (h.called k).trans hgrows
      · rw [Function.update_of_ne hk]
        exact h.called k
    rcases hcalls with rfl | ⟨c, rfl, htime, ho, hactor, hincident, hadmitted⟩
    · exact hold
    · have hlimitKey : c.limitKey env.limits = some key := by
        rw [SocketCall.limitKey, ho, hrule, hactor, hincident, hkey]
        rfl
      by_cases hk : k = key
      · subst hk
        rw [List.singleton_append, keyTimes_cons hlimitKey, Function.update_self, htime, htimes, if_pos hadmitted]
        exact (h.called k).append (List.Sublist.refl _)
      · have hother : c.limitKey env.limits ≠ some k := by
          rw [hlimitKey]
          exact fun heq => hk (Option.some.inj heq).symm
        rw [List.singleton_append, keyTimes_cons_ne hother]
        exact hold

theorem SocketState.Counted.step {env : SocketEnv} {s : SocketState} {l : List SocketCall} {log : String → List Time}
    (h : s.Counted env l log) (hon : env.limits.rateLimitEnabled = true) (x : SocketStep) :
    ∃ log', (socketStep env s x).Counted env (s.calls env x ++ l) log' := by
  rcases limiter_cases env s x with ⟨hlimiter, hcalls⟩ | ⟨hadmin, actor, incident, o, hlimiter, hcalls⟩
  · rw [hcalls]
    exact ⟨log, h.kept hlimiter⟩
  · unfold AiLimits.check at hlimiter hcalls
    rw [if_pos hon] at hlimiter hcalls
    cases hrule : env.limits.rule o with
    | some r => exact h.checked hrule hadmin (by rw [hlimiter, hrule]) (by simpa only [hrule] using hcalls)
    | none =>
      rw [hrule] at hlimiter
      refine ⟨log, ?_⟩
      rcases hcalls with hnil | ⟨c, hc, -, ho, -⟩
      · rw [hnil]
        exact h.kept hlimiter
      · refine ⟨(h.kept hlimiter).tracks, ?_⟩
        intro k
        have hno : c.limitKey env.limits ≠ some k := by
          rw [SocketCall.limitKey, ho, hrule]
          rintro ⟨⟩
        rw [hc, List.singleton_append, keyTimes_cons_ne hno]
        exact h.called k

end CrisisMosaic
