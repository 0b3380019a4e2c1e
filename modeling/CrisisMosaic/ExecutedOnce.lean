import CrisisMosaic.IdempotentCalls
import CrisisMosaic.Relational.Log

/-!
# One execution in a validity window

What a handler commits under a key, and what a success is answered with, comes from one
execution for as long as the reservation is valid. This holds in every run in which a
reservation is released only by its own call, before anything is committed under it,
and in which a call that still executes has not lost its reservation to another.
-/

namespace CrisisMosaic
open Relational

namespace CallState
variable (s : CallState) (key : RequestKey)

/-- The call was the last to reserve its key. -/
def Current (q : Id) (c : IdempotentCall) : Prop :=
  (s.windows c.key).head?.map (·.call) = some q

/-- The call has committed nothing in the current window. -/
def Uncommitted (q : Id) (c : IdempotentCall) : Prop :=
  ∀ w ∈ (s.windows c.key).head?, ∀ e ∈ w.commits, e.1 ≠ q

def InProgress (recordId : Id) : Prop :=
  ∃ r, s.records.record recordId = some r ∧ r.responseBody = none

/-- The call has ended with the answer. -/
def Answered (q : Id) (r : Response) : Prop :=
  ∃ c, s.calls.get q = some c ∧ c.phase = .ended (some r)

/-- In each validity window of the key only one execution has committed, and every success was
answered with the response of that execution. -/
def OneExecution : Prop :=
  ∀ newer w older, s.windows key = newer ++ w :: older → ∃ x,
    (∀ v ∈ newer ++ [w], ∀ e ∈ v.commits, e.2 < w.expiresAt → e.1 = x) ∧
    ∀ v ∈ newer ++ [w], ∀ a ∈ v.answers, a.2 < w.expiresAt → a.1.isSuccess = true → s.Answered x a.1

/-- A handler commits and a success is answered while the reservation is the call's own. A
reservation in progress is released only by its own call, and for a call that has committed
nothing and does not answer with a success. -/
def KeepsReservation (s : CallState) : CallTurn → Prop
  | .act q action =>
    match s.calls.get q with
    | none => True
    | some c =>
      match action, c.phase with
      | .commit, .running _ | .finish, .finishing _ _ _ | .failFinish, .finishing _ _ _ =>
        s.Current q c
      | .release, .releasing i response =>
        ((response.any Response.isSuccess = true ∨ s.InProgress i) → s.Current q c) ∧
          (s.InProgress i → s.Uncommitted q c ∧ response.any Response.isSuccess = false)
      | .failRelease, .releasing _ response =>
        response.any Response.isSuccess = true → s.Current q c
      | _, _ => True
  | _ => True

end CallState

namespace ValidityWindow

/-- Something that counts has happened: a commit or an answered success. -/
def Counts (w : ValidityWindow) : Prop :=
  w.commits ≠ [] ∨ ∃ a ∈ w.answers, a.1.isSuccess = true

structure Timed (settings : IdempotencySettings) (lockedAt : Time) (w : ValidityWindow) : Prop where
  started : w.startedAt ≤ lockedAt
  expires : w.expiresAt = w.startedAt + hours settings.idempotencyHours
  commits : ∀ e ∈ w.commits, w.startedAt ≤ e.2
  answers : ∀ a ∈ w.answers, w.startedAt ≤ a.2

/-- The window belongs to the execution of one call. -/
structure Owned (calls : Table IdempotentCall) (key : RequestKey) (w : ValidityWindow)
    (c : IdempotentCall) : Prop where
  call : calls.get w.call = some c
  key : c.key = key
  phase : c.phase ≠ .arrived
  record : ∀ i, c.phase.recordId = some i → i = w.recordId
  commits : ∀ e ∈ w.commits, e.1 = w.call
  answers : ∀ a ∈ w.answers, a.1.isSuccess = true → c.phase = .ended (some a.1)

/-- The newer window starts no earlier, and after the older one has ended if that one counts. -/
def Follows (newer older : ValidityWindow) : Prop :=
  older.startedAt ≤ newer.startedAt ∧ (older.Counts → older.expiresAt ≤ newer.startedAt)

/-- The record of the current window, with the response of its execution. -/
structure Holds (calls : Table IdempotentCall) (w : ValidityWindow) (i : Id)
    (r : IdempotencyRecord) : Prop where
  record : i = w.recordId
  expires : r.expiresAt = w.expiresAt
  body : ∀ body, r.responseBody = some body →
    ∃ c, calls.get w.call = some c ∧ c.phase = .ended (some (.replayed r.responseStatus body))

end ValidityWindow

/-- A reservation that is gone has expired, or nothing has come of it. -/
def Unused (s : CallState) (w : ValidityWindow) : Prop :=
  w.expiresAt ≤ s.lockedAt ∨
    ¬ w.Counts ∧ ∀ c, s.calls.get w.call = some c → c.phase.isOver = true

structure IdempotentCall.Filed (records : IdempotencyRecords) (c : IdempotentCall) : Prop where
  used : ∀ i, c.phase.recordId = some i → i < records.size
  key : ∀ i r, c.phase.recordId = some i → records.record i = some r → r.key = c.key
  stored : ∀ i r body, c.phase = .finishing i r body → Response.replayed r.status body = r

structure Tracked (settings : IdempotencySettings) (key : RequestKey) (s : CallState) : Prop where
  clock : s.lockedAt ≤ s.now
  filed : ∀ q c, s.calls.get q = some c → c.Filed s.records
  follows : (s.windows key).Pairwise ValidityWindow.Follows
  timed : ∀ w ∈ s.windows key, w.Timed settings s.lockedAt
  owned : ∀ w ∈ s.windows key, ∃ c, w.Owned s.calls key c
  live : ∀ i r, s.records.record i = some r → r.key = key →
    ∃ w rest, s.windows key = w :: rest ∧ w.Holds s.calls i r
  gone : ∀ w rest, s.windows key = w :: rest →
    (∃ i r, s.records.record i = some r ∧ r.key = key) ∨ Unused s w

section Windows
variable {settings : IdempotencySettings} {key : RequestKey} {s : CallState} {v w : ValidityWindow}

/-- The window has a commit, or an answered success, before the time. -/
def CountsBefore (t : Time) (w : ValidityWindow) : Prop :=
  (∃ e ∈ w.commits, e.2 < t) ∨ ∃ a ∈ w.answers, a.2 < t ∧ a.1.isSuccess = true

theorem CountsBefore.counts {t : Time} (h : CountsBefore t w) : w.Counts := by
  rcases h with ⟨e, he, -⟩ | ⟨a, ha, -, hsuccess⟩
  · exact Or.inl (List.ne_nil_of_mem he)
  · exact Or.inr ⟨a, ha, hsuccess⟩

theorem CountsBefore.started {t lockedAt : Time} (h : CountsBefore t w)
    (hw : w.Timed settings lockedAt) : w.startedAt < t := by
  rcases h with ⟨e, he, hbefore⟩ | ⟨a, ha, hbefore, -⟩
  · exact (hw.commits e he).trans_lt hbefore
  · exact (hw.answers a ha).trans_lt hbefore

/-- Of the windows from `w` on, one at most has anything that counts before `w` ends. -/
theorem Tracked.counts_once (h : Tracked settings key s) {newer older : List ValidityWindow}
    (hsplit : s.windows key = newer ++ w :: older) {u : ValidityWindow} (hu : u ∈ newer ++ [w])
    (hv : v ∈ newer ++ [w]) (hcu : CountsBefore w.expiresAt u) (hcv : CountsBefore w.expiresAt v) :
    u = v := by
  have hprefix : newer ++ w :: older = (newer ++ [w]) ++ older := by simp
  have hfollows : (newer ++ [w]).Pairwise ValidityWindow.Follows := by
    have hall := h.follows
    rw [hsplit, hprefix] at hall
    exact (List.pairwise_append.mp hall).1
  have hmem : ∀ x ∈ newer ++ [w], x ∈ s.windows key := fun x hx => by
    rw [hsplit, hprefix]
    exact List.mem_append_left _ hx
  have hafter : ∀ x ∈ newer ++ [w], w.startedAt ≤ x.startedAt := by
    intro x hx
    rcases List.mem_append.mp hx with hx | hx
    · exact ((List.pairwise_append.mp hfollows).2.2 x hx w (List.mem_singleton.mpr rfl)).1
    · rw [List.mem_singleton.mp hx]
  -- an older window that counts has ended before the newer one starts
  have hclash : ∀ x ∈ newer ++ [w], ∀ y ∈ newer ++ [w], x.Follows y → CountsBefore w.expiresAt x →
      CountsBefore w.expiresAt y → False := by
    intro x hx y hy hxy hcx hcy
    have hends := hxy.2 hcy.counts
    have hstarts := hcx.started (h.timed x (hmem x hx))
    have hy' := h.timed y (hmem y hy)
    have hw' := h.timed w (hmem w (List.mem_append_right _ (List.mem_singleton.mpr rfl)))
    have hlate := hafter y hy
    rw [hy'.expires] at hends
    rw [hw'.expires] at hstarts
    linarith
  have hrel : (newer ++ [w]).Pairwise fun x y =>
      CountsBefore w.expiresAt x → ¬ CountsBefore w.expiresAt y :=
    hfollows.imp_of_mem fun hx hy hxy hcx hcy => hclash _ hx _ hy hxy hcx hcy
  exact eq_of_pairwise_excludes hrel hu hv hcu hcv

theorem Tracked.oneExecution (h : Tracked settings key s) : s.OneExecution key := by
  intro newer w older hsplit
  have howned : ∀ v ∈ newer ++ [w], ∃ c, v.Owned s.calls key c := fun v hv => by
    refine h.owned v ?_
    rw [hsplit]
    simp only [List.mem_append, List.mem_cons] at hv ⊢
    tauto
  by_cases hcounts : ∃ v ∈ newer ++ [w], CountsBefore w.expiresAt v
  · obtain ⟨v, hv, hcv⟩ := hcounts
    refine ⟨v.call, fun u hu e he hbefore => ?_, fun u hu a ha hbefore hsuccess => ?_⟩
    · rw [h.counts_once hsplit hv hu hcv (Or.inl ⟨e, he, hbefore⟩)]
      obtain ⟨c, hc⟩ := howned u hu
      exact hc.commits e he
    · rw [h.counts_once hsplit hv hu hcv (Or.inr ⟨a, ha, hbefore, hsuccess⟩)]
      obtain ⟨c, hc⟩ := howned u hu
      exact ⟨c, hc.call, hc.answers a ha hsuccess⟩
  · refine ⟨w.call, fun u hu e he hbefore => ?_, fun u hu a ha hbefore hsuccess => ?_⟩
    · exact (hcounts ⟨u, hu, Or.inl ⟨e, he, hbefore⟩⟩).elim
    · exact (hcounts ⟨u, hu, Or.inr ⟨a, ha, hbefore, hsuccess⟩⟩).elim

end Windows

/-- What a step of its own makes of the phase of a call. A call that is over stays as it is. -/
structure CallPhase.Continues (p p' : CallPhase) : Prop where
  ended : p.isOver = true → p' = p
  phase : p ≠ .arrived → p' ≠ .arrived
  record : ∀ i, p'.recordId = some i → p.recordId = some i
  stored : ∀ i r body, p' = .finishing i r body → Response.replayed r.status body = r

namespace CallPhase.Continues
variable {p : CallPhase} {i : Id} {r : Response}

theorem isOver_of_recordId (h : p.recordId = some i) : p.isOver = false := by
  cases p with
  | ended answer => exact nomatch h
  | _ => rfl

theorem ending (h : p.isOver = false) (answer : Option Response) : p.Continues (.ended answer) where
  ended := fun hover => nomatch h.symm.trans hover
  phase := nofun
  record := nofun
  stored := nofun

theorem releasing (h : p.recordId = some i) (answer : Option Response) :
    p.Continues (.releasing i answer) where
  ended := fun hover => nomatch (isOver_of_recordId h).symm.trans hover
  phase := nofun
  record := fun _ hj => hj ▸ h
  stored := nofun

theorem finishing {body : Dict} (h : p.recordId = some i) (hbody : r.recorded = some body) :
    p.Continues (.finishing i r body) where
  ended := fun hover => nomatch (isOver_of_recordId h).symm.trans hover
  phase := nofun
  record := fun _ hj => hj ▸ h
  stored := fun _ _ _ heq => by
    cases heq
    exact Response.replayed_recorded hbody

theorem afterReading (h : p.recordId = some i) : p.Continues (.afterReading i r) := by
  unfold CallPhase.afterReading
  split
  · rename_i body hbody
    exact .finishing h hbody
  · exact .releasing h _

theorem afterHandler (channel : Channel) :
    (CallPhase.running i).Continues (.afterHandler i r channel) := by
  cases channel with
  | http =>
    simp only [CallPhase.afterHandler]
    split
    · exact ⟨nofun, nofun, fun _ => id, nofun⟩
    · exact .releasing rfl _
  | websocket =>
    simp only [CallPhase.afterHandler]
    split
    · rename_i body hbody
      refine .finishing rfl ?_
      have hstatus : r.status ≠ 204 := fun h => nomatch (r.empty h).symm.trans hbody
      rwa [Response.recorded, if_neg hstatus]
    · exact .releasing rfl _

theorem cancelled (p : CallPhase) (channel : Channel) : p.Continues (p.cancelled channel) := by
  cases p with
  | ended answer => exact ⟨fun _ => rfl, nofun, nofun, nofun⟩
  | finishing j response body =>
    cases channel with
    | http => exact .ending rfl _
    | websocket => exact .releasing rfl _
  | arrived | releasing => exact .ending rfl _
  | running | reading => exact .releasing rfl _

theorem lost (p : CallPhase) : p.Continues p.lost := by
  cases p with
  | ended answer => exact ⟨fun _ => rfl, nofun, nofun, nofun⟩
  | _ => exact .ending rfl _

end CallPhase.Continues

/-- What any step makes of a call. -/
def IdempotentCall.Becomes (before : Option IdempotentCall) (c : IdempotentCall) : Prop :=
  match before with
  | none => c.phase = .arrived
  | some b => c.key = b.key ∧ (b.phase.isOver = true → c.phase = b.phase) ∧
      (b.phase ≠ .arrived → c.phase ≠ .arrived) ∧
      (∀ i, c.phase.recordId = some i → b.phase.recordId = some i) ∧
      ∀ i r body, c.phase = .finishing i r body →
        b.phase = .finishing i r body ∨ Response.replayed r.status body = r

theorem IdempotentCall.Becomes.refl (c : IdempotentCall) : Becomes (some c) c :=
  ⟨rfl, fun _ => rfl, id, fun _ => id, fun _ _ _ => Or.inl⟩

section Updates
variable {settings : IdempotencySettings} {key : RequestKey} {s : CallState} {q : Id}
  {c : IdempotentCall}

theorem ValidityWindow.Owned.advance {calls calls' : Table IdempotentCall} {w : ValidityWindow}
    (h : w.Owned calls key c) (hcalls : calls.Evolves IdempotentCall.Becomes calls') :
    ∃ c', w.Owned calls' key c' := by
  obtain ⟨c', hc', hkey, hover, hphase, hrecord, -⟩ := hcalls.get_some h.call
  refine ⟨c', hc', hkey.trans h.key, hphase h.phase, fun i hi => h.record i (hrecord i hi),
    h.commits, fun a ha hsuccess => ?_⟩
  have hanswered := h.answers a ha hsuccess
  rw [hover (by rw [hanswered]; rfl), hanswered]

theorem CallState.Answered.advance {calls : Table IdempotentCall} {r : Response}
    (h : s.Answered q r) (hcalls : s.calls.Evolves IdempotentCall.Becomes calls) :
    CallState.Answered { s with calls := calls } q r := by
  obtain ⟨c, hc, hphase⟩ := h
  obtain ⟨c', hc', -, hover, -⟩ := hcalls.get_some hc
  exact ⟨c', hc', (hover (by rw [hphase]; rfl)).trans hphase⟩

theorem Tracked.advance (h : Tracked settings key s) {calls : Table IdempotentCall}
    (hcalls : s.calls.Evolves IdempotentCall.Becomes calls) :
    Tracked settings key { s with calls := calls } where
  clock := h.clock
  filed := by
    intro q c' hc'
    have hrow := hcalls.rows q c' hc'
    cases hc : s.calls.get q with
    | none =>
      rw [hc] at hrow
      have hphase : c'.phase = .arrived := hrow
      constructor <;> simp [hphase, CallPhase.recordId]
    | some c =>
      rw [hc] at hrow
      obtain ⟨hkey, -, -, hrecord, hstored⟩ := hrow
      have hfiled := h.filed q c hc
      refine ⟨fun i hi => hfiled.used i (hrecord i hi), fun i r hi hr => ?_, fun i r body hi => ?_⟩
      · exact (hfiled.key i r (hrecord i hi) hr).trans hkey.symm
      · exact (hstored i r body hi).elim (hfiled.stored i r body) id
  follows := h.follows
  timed := h.timed
  owned := fun w hw => by
    obtain ⟨c, hc⟩ := h.owned w hw
    exact hc.advance hcalls
  live := by
    intro i r hr hkey
    obtain ⟨w, rest, hw, hholds⟩ := h.live i r hr hkey
    exact ⟨w, rest, hw, hholds.record, hholds.expires, fun body hbody =>
      CallState.Answered.advance (hholds.body body hbody) hcalls⟩
  gone := by
    intro w rest hw
    refine (h.gone w rest hw).imp_right fun hgone => hgone.imp_right fun ⟨hcounts, hover⟩ => ?_
    refine ⟨hcounts, fun c' hc' => ?_⟩
    obtain ⟨c, hc⟩ := h.owned w (hw ▸ List.mem_cons_self)
    obtain ⟨b, hb, -, hstays, -⟩ := hcalls.get_some hc.call
    rw [hc'] at hb
    rw [Option.some.inj hb, hstays (hover c hc.call)]
    exact hover c hc.call

/-- The reservation of the current window is still there, or it has expired. -/
def StillReserved (s : CallState) (key : RequestKey) (w : ValidityWindow) : Prop :=
  (∃ i r, s.records.record i = some r ∧ r.key = key) ∨ w.expiresAt ≤ s.lockedAt

theorem Tracked.stillReserved (h : Tracked settings key s) {w : ValidityWindow}
    {rest : List ValidityWindow} (hw : s.windows key = w :: rest)
    (hc : s.calls.get w.call = some c) (hactive : c.phase.isOver = false) : StillReserved s key w := by
  refine (h.gone w rest hw).imp_right fun hgone => hgone.resolve_right fun ⟨_, hover⟩ => ?_
  rw [hover c hc] at hactive
  exact nomatch hactive

/-- The windows of another key do not matter. -/
theorem Tracked.congr {t : CallState} (h : Tracked settings key s) (hnow : t.now = s.now)
    (hlocked : t.lockedAt = s.lockedAt) (hrecords : t.records = s.records)
    (hcalls : t.calls = s.calls) (hwindows : t.windows key = s.windows key) :
    Tracked settings key t := by
  obtain ⟨now, lockedAt, records, calls, windows⟩ := t
  dsimp only at hnow hlocked hrecords hcalls hwindows
  subst hnow hlocked hrecords hcalls
  refine ⟨h.clock, h.filed, ?_, ?_, ?_, ?_, ?_⟩ <;> dsimp only <;> rw [hwindows]
  · exact h.follows
  · exact h.timed
  · exact h.owned
  · exact h.live
  · exact h.gone

theorem Tracked.note (h : Tracked settings key s) (k : RequestKey)
    (f : ValidityWindow → ValidityWindow)
    (hf : k = key → ∀ w rest, s.windows key = w :: rest →
      (∃ commits answers, f w = { w with commits := commits, answers := answers }) ∧
      (f w).Timed settings s.lockedAt ∧ (∃ c, (f w).Owned s.calls key c) ∧
      ((f w).Counts → w.Counts ∨ StillReserved s key w)) : Tracked settings key (s.note k f) := by
  by_cases hk : k = key
  · subst hk
    cases hw : s.windows k with
    | nil =>
      have hsame : s.note k f = s := by
        unfold CallState.note
        rw [hw, List.modifyHead_nil, ← hw, Function.update_eq_self]
      rwa [hsame]
    | cons w rest =>
      obtain ⟨⟨commits, answers, hfw⟩, htimed, howned, hcounts⟩ := hf rfl w rest hw
      have hwindows : (s.note k f).windows k = f w :: rest := by
        rw [CallState.note_windows, hw, List.modifyHead_cons]
      refine ⟨h.clock, h.filed, ?_, ?_, ?_, ?_, ?_⟩
      · have hfollows := h.follows
        rw [hw, List.pairwise_cons] at hfollows
        rw [hwindows, List.pairwise_cons, hfw]
        exact hfollows
      · rw [hwindows]
        intro v hv
        rcases List.mem_cons.mp hv with rfl | hv
        · exact htimed
        · exact h.timed v (hw ▸ List.mem_cons_of_mem w hv)
      · rw [hwindows]
        intro v hv
        rcases List.mem_cons.mp hv with rfl | hv
        · exact howned
        · exact h.owned v (hw ▸ List.mem_cons_of_mem w hv)
      · intro i r hr hkey
        obtain ⟨v, rest', hv, hholds⟩ := h.live i r hr hkey
        rw [hw] at hv
        obtain ⟨rfl, rfl⟩ := List.cons.inj hv
        refine ⟨f w, rest, hwindows, ?_⟩
        rw [hfw]
        exact ⟨hholds.record, hholds.expires, hholds.body⟩
      · intro v rest' hv
        rw [hwindows] at hv
        obtain ⟨rfl, rfl⟩ := List.cons.inj hv
        have hexpires : (f w).expiresAt = w.expiresAt := by rw [hfw]
        have hcall : (f w).call = w.call := by rw [hfw]
        have hgone := h.gone w rest hw
        by_cases hreserved : StillReserved s k w
        · rcases hreserved with hlive | hexpired
          · exact Or.inl hlive
          · exact Or.inr (Or.inl (hexpires ▸ hexpired))
        · refine hgone.imp_right fun hgone => hgone.imp (fun he => hexpires ▸ he) fun ⟨hno, hover⟩ => ?_
          refine ⟨fun hc => ?_, hcall ▸ hover⟩
          exact (hcounts hc).elim hno hreserved
  · exact h.congr rfl rfl rfl rfl (s.note_windows_of_ne hk f)

theorem Tracked.setPhase (h : Tracked settings key s) (hc : s.calls.get q = some c) {p : CallPhase}
    (hp : c.phase.Continues p) : Tracked settings key (s.setPhase q p) := by
  apply h.advance
  refine (Table.Evolves.refl IdempotentCall.Becomes.refl _).modify fun b hb _ => ?_
  rw [hc] at hb ⊢
  obtain rfl := Option.some.inj hb
  exact ⟨rfl, hp.ended, hp.phase, hp.record, fun i r body hi => Or.inr (hp.stored i r body hi)⟩

theorem CallState.setPhase_get (hc : s.calls.get q = some c) (p : CallPhase) :
    (s.setPhase q p).calls.get q = some { c with phase := p } := by
  simp [CallState.setPhase, hc]

theorem Tracked.noteCommit (h : Tracked settings key s) (hc : s.calls.get q = some c)
    (hactive : c.phase.isOver = false) (hcurrent : s.Current q c) :
    Tracked settings key (s.noteCommit q c.key) := by
  refine h.note c.key _ fun hkey w rest hw => ?_
  have hmem : w ∈ s.windows key := hw ▸ List.mem_cons_self
  obtain ⟨b, hb⟩ := h.owned w hmem
  have ht := h.timed w hmem
  have hcall : w.call = q := by simpa [CallState.Current, hkey, hw] using hcurrent
  refine ⟨⟨_, _, rfl⟩, ⟨ht.started, ht.expires, fun e he => ?_, ht.answers⟩,
    ⟨b, hb.call, hb.key, hb.phase, hb.record, fun e he => ?_, hb.answers⟩,
    fun _ => Or.inr (h.stillReserved hw (hcall ▸ hc) hactive)⟩
  · rcases List.mem_cons.mp he with rfl | he
    · exact ht.started.trans h.clock
    · exact ht.commits e he
  · rcases List.mem_cons.mp he with rfl | he
    · exact hcall.symm
    · exact hb.commits e he

/-- An answer is noted. If it is a success, the execution of the window has ended with it. -/
theorem Tracked.noteAnswer (h : Tracked settings key s) (k : RequestKey) (r : Response)
    (hr : k = key → r.isSuccess = true → ∀ w rest, s.windows key = w :: rest →
      s.Answered w.call r ∧ StillReserved s key w) : Tracked settings key (s.noteAnswer k r) := by
  refine h.note k _ fun hkey w rest hw => ?_
  have hmem : w ∈ s.windows key := hw ▸ List.mem_cons_self
  obtain ⟨b, hb⟩ := h.owned w hmem
  have ht := h.timed w hmem
  refine ⟨⟨_, _, rfl⟩, ⟨ht.started, ht.expires, ht.commits, fun a ha => ?_⟩,
    ⟨b, hb.call, hb.key, hb.phase, hb.record, hb.commits, fun a ha hsuccess => ?_⟩, fun hcounts => ?_⟩
  · rcases List.mem_cons.mp ha with rfl | ha
    · exact ht.started.trans h.clock
    · exact ht.answers a ha
  · rcases List.mem_cons.mp ha with rfl | ha
    · obtain ⟨b', hb', hphase⟩ := (hr hkey hsuccess w rest hw).1
      rw [hb.call] at hb'
      rwa [Option.some.inj hb']
    · exact hb.answers a ha hsuccess
  · rcases hcounts with hcommits | ⟨a, ha, hsuccess⟩
    · exact Or.inl (Or.inl hcommits)
    · rcases List.mem_cons.mp ha with rfl | ha
      · exact Or.inr (hr hkey hsuccess w rest hw).2
      · exact Or.inl (Or.inr ⟨a, ha, hsuccess⟩)

theorem Tracked.conclude (h : Tracked settings key s) (hc : s.calls.get q = some c)
    (hactive : c.phase.isOver = false) {response : Option Response}
    (hcurrent : response.any Response.isSuccess = true → s.Current q c) :
    Tracked settings key (s.conclude q c.key response) := by
  have hover : ∀ r, Tracked settings key (s.setPhase q (.ended r)) := fun r =>
    h.setPhase hc (.ending hactive _)
  cases response with
  | none => exact hover none
  | some r =>
    refine (hover (some r)).noteAnswer c.key r fun hkey hsuccess w rest hw => ?_
    have hcall : w.call = q := by
      have hcur := hcurrent hsuccess
      have hw' : s.windows key = w :: rest := hw
      simpa [CallState.Current, hkey, hw'] using hcur
    refine ⟨⟨_, by rw [hcall]; exact CallState.setPhase_get hc _, rfl⟩, ?_⟩
    exact h.stillReserved hw (hcall ▸ hc) hactive

theorem Tracked.locked (h : Tracked settings key s) {started : Time}
    (hstarted : s.lockedAt ≤ started ∧ started ≤ s.now) :
    Tracked settings key { s with lockedAt := started } where
  clock := hstarted.2
  filed := h.filed
  follows := h.follows
  timed := fun w hw => { h.timed w hw with started := (h.timed w hw).started.trans hstarted.1 }
  owned := h.owned
  live := h.live
  gone := fun w rest hw => (h.gone w rest hw).imp_right fun hgone => hgone.imp_left fun he =>
    he.trans hstarted.1

/-- The record of a call gets the response that the call has ended with. -/
theorem Tracked.finishReservation (h : Tracked settings key s) {i : Id} {r : Response} {body : Dict}
    (hstored : Response.replayed r.status body = r)
    (hanswered : ∀ p, s.records.record i = some p → p.key = key →
      ∀ w rest, s.windows key = w :: rest → s.Answered w.call r) :
    Tracked settings key { s with records := s.records.finishReservation i r.status body } where
  clock := h.clock
  filed := by
    intro q c hc
    refine ⟨fun j hj => ?_, fun j p hj hp => ?_, (h.filed q c hc).stored⟩
    · have hused := (h.filed q c hc).used j hj
      rwa [IdempotencyRecords.finishReservation, Table.size_modify]
    · rcases IdempotencyRecords.record_finishReservation hp with ⟨rfl, p', hp', rfl⟩ | ⟨-, hold⟩
      · exact (h.filed q c hc).key j p' hj hp'
      · exact (h.filed q c hc).key j p hj hold
  follows := h.follows
  timed := h.timed
  owned := h.owned
  live := by
    intro j p hp hkey
    rcases IdempotencyRecords.record_finishReservation hp with ⟨rfl, p', hp', rfl⟩ | ⟨-, hold⟩
    · obtain ⟨w, rest, hw, hholds⟩ := h.live j p' hp' hkey
      refine ⟨w, rest, hw, hholds.record, hholds.expires, fun body' hbody => ?_⟩
      obtain rfl := Option.some.inj hbody
      have hover := hanswered p' hp' hkey w rest hw
      rwa [← hstored] at hover
    · exact h.live j p hold hkey
  gone := by
    intro w rest hw
    refine (h.gone w rest hw).imp_left ?_
    rintro ⟨j, p, hp, hkey⟩
    by_cases hj : j = i
    · subst hj
      refine ⟨j, { p with responseStatus := r.status, responseBody := some body }, ?_, hkey⟩
      rw [IdempotencyRecords.record_eq_some] at hp ⊢
      simp [IdempotencyRecords.finishReservation, hp]
    · refine ⟨j, p, ?_, hkey⟩
      rw [IdempotencyRecords.record_eq_some] at hp ⊢
      rwa [IdempotencyRecords.finishReservation, Table.get_modify_of_ne _ _ (Ne.symm hj)]

/-- Records are deleted, and nothing is lost with the one of the current window. -/
theorem Tracked.deleted (h : Tracked settings key s) {records : IdempotencyRecords}
    (hsize : s.records.size = records.size)
    (hold : ∀ i r, records.record i = some r → s.records.record i = some r)
    (hgone : ∀ i r, s.records.record i = some r → r.key = key → records.record i = some r ∨
      ∀ w rest, s.windows key = w :: rest → Unused s w) :
    Tracked settings key { s with records := records } where
  clock := h.clock
  filed := fun q c hc => ⟨fun i hi => ((h.filed q c hc).used i hi).trans_eq hsize,
    fun i r hi hr => (h.filed q c hc).key i r hi (hold i r hr), (h.filed q c hc).stored⟩
  follows := h.follows
  timed := h.timed
  owned := h.owned
  live := fun i r hr hkey => h.live i r (hold i r hr) hkey
  gone := by
    intro w rest hw
    rcases h.gone w rest hw with ⟨i, r, hr, hkey⟩ | hgone'
    · exact (hgone i r hr hkey).imp (fun hkept => ⟨i, r, hkept, hkey⟩) fun hlost => hlost w rest hw
    · exact Or.inr hgone'

open IdempotencyRecords in
theorem Tracked.opened (h : Tracked settings key s) (hc : s.calls.get q = some c)
    (hphase : c.phase = .arrived) {started : Time} (hstarted : s.lockedAt ≤ started ∧ started ≤ s.now)
    {records : IdempotencyRecords} {i : Id}
    (hreserves : Reserves settings started s.records c.key c.fingerprint records i) :
    Tracked settings key (CallState.opened settings
      { s with lockedAt := started, records := records } q i c.key started) := by
  -- the call has reserved nothing before
  have hnew : ∀ w ∈ s.windows key, w.call ≠ q := by
    intro w hw heq
    obtain ⟨b, hb⟩ := h.owned w hw
    rw [← heq, hb.call] at hc
    exact hb.phase (Option.some.inj hc ▸ hphase)
  have hsame : ∀ w ∈ s.windows key,
      (s.calls.modify q fun c => { c with phase := .running i }).get w.call = s.calls.get w.call :=
    fun w hw => Table.get_modify_of_ne _ _ (hnew w hw).symm
  have hfiled : ∀ p b, (s.calls.modify q fun c => { c with phase := .running i }).get p = some b →
      b.Filed records := by
    intro p b hb
    rcases Table.get_modify_cases hb with ⟨rfl, a, ha, rfl⟩ | ⟨-, hb⟩
    · rw [hc] at ha
      obtain rfl := Option.some.inj ha
      refine ⟨fun j hj => ?_, fun j r hj hr => ?_, nofun⟩
      · exact Option.some.inj hj ▸ hreserves.used
      · obtain rfl : i = j := Option.some.inj hj
        rw [hreserves.stored] at hr
        rw [← Option.some.inj hr]
        rfl
    · have hold := h.filed p b hb
      refine ⟨fun j hj => (hold.used j hj).trans_le hreserves.size, fun j r hj hr => ?_, hold.stored⟩
      by_cases hji : j = i
      · subst hji
        rcases hreserves.free with ⟨hsize, -⟩ | ⟨r', hr', hkey, -⟩
        · exact absurd (hold.used j hj) (hsize ▸ lt_irrefl _)
        · rw [hreserves.stored] at hr
          rw [← Option.some.inj hr, ← hold.key j r' hj hr', hkey]
          rfl
      · rw [hreserves.others j hji] at hr
        exact hold.key j r hj hr
  have htimed : ∀ w ∈ s.windows key, w.Timed settings started := fun w hw =>
    { h.timed w hw with started := (h.timed w hw).started.trans hstarted.1 }
  have howned : ∀ w ∈ s.windows key, ∃ b,
      w.Owned (s.calls.modify q fun c => { c with phase := .running i }) key b := fun w hw => by
    obtain ⟨b, hb⟩ := h.owned w hw
    exact ⟨b, { hb with call := (hsame w hw).trans hb.call }⟩
  by_cases hkey : c.key = key
  · subst hkey
    have hwindows : (CallState.opened settings { s with lockedAt := started, records := records } q i
        c.key started).windows c.key =
        ⟨q, i, started, started + hours settings.idempotencyHours, [], []⟩ :: s.windows c.key :=
      Function.update_self ..
    refine ⟨hstarted.2, hfiled, ?_, ?_, ?_, ?_, ?_⟩
    · rw [hwindows]
      refine List.pairwise_cons.mpr ⟨fun v hv => ⟨(htimed v hv).started, fun hcounts => ?_⟩, h.follows⟩
      cases hw : s.windows c.key with
      | nil => exact nomatch hw ▸ hv
      | cons w rest =>
        have hmem : w ∈ s.windows c.key := hw ▸ List.mem_cons_self
        rw [hw] at hv
        rcases List.mem_cons.mp hv with rfl | hv
        · rcases hreserves.free with ⟨-, hnone⟩ | ⟨r, hr, hrkey, hexpired⟩
          · rcases h.gone v rest hw with ⟨j, r, hr, hrkey⟩ | hgone
            · exact absurd hrkey (hnone j r hr)
            · exact (hgone.resolve_right fun hidle => hidle.1 hcounts).trans hstarted.1
          · obtain ⟨u, rest', hu, hholds⟩ := h.live i r hr hrkey
            rw [hw] at hu
            obtain ⟨rfl, -⟩ := List.cons.inj hu
            exact hholds.expires ▸ hexpired
        · have hfollows := h.follows
          rw [hw, List.pairwise_cons] at hfollows
          exact ((hfollows.1 v hv).2 hcounts).trans (htimed w hmem).started
    · rw [hwindows]
      intro w hw
      rcases List.mem_cons.mp hw with rfl | hw
      · exact ⟨le_rfl, rfl, nofun, nofun⟩
      · exact htimed w hw
    · rw [hwindows]
      intro w hw
      rcases List.mem_cons.mp hw with rfl | hw
      · refine ⟨_, CallState.setPhase_get hc (.running i), rfl, nofun, fun j hj => ?_, nofun, nofun⟩
        exact (Option.some.inj hj).symm
      · exact howned w hw
    · intro j r hr hrkey
      refine ⟨_, _, hwindows, ?_⟩
      by_cases hji : j = i
      · subst hji
        have hr' := hreserves.stored.symm.trans hr
        rw [← Option.some.inj hr']
        exact ⟨rfl, rfl, nofun⟩
      · have hold := (hreserves.others j hji).symm.trans hr
        rcases hreserves.free with ⟨-, hnone⟩ | ⟨r', hr', hrkey', -⟩
        · exact absurd hrkey (hnone j r hold)
        · obtain ⟨w, rest, hw, hholds⟩ := h.live j r hold hrkey
          obtain ⟨w', rest', hw', hholds'⟩ := h.live i r' hr' hrkey'
          rw [hw] at hw'
          obtain ⟨rfl, -⟩ := List.cons.inj hw'
          exact absurd (hholds.record.trans hholds'.record.symm) hji
    · exact fun w rest hw => Or.inl ⟨i, _, hreserves.stored, rfl⟩
  · have hwindows : (CallState.opened settings { s with lockedAt := started, records := records } q i
        c.key started).windows key = s.windows key := Function.update_of_ne (Ne.symm hkey) ..
    have hkept : ∀ j r, r.key = key → (records.record j = some r ↔ s.records.record j = some r) :=
      fun j r hr => hreserves.record_iff (hr ▸ Ne.symm hkey)
    refine ⟨hstarted.2, hfiled, ?_, ?_, ?_, ?_, ?_⟩
    · rw [hwindows]
      exact h.follows
    · rw [hwindows]
      exact htimed
    · rw [hwindows]
      exact howned
    · rw [hwindows]
      intro j r hr hrkey
      obtain ⟨w, rest, hw, hholds⟩ := h.live j r ((hkept j r hrkey).mp hr) hrkey
      refine ⟨w, rest, hw, hholds.record, hholds.expires, fun body hbody => ?_⟩
      obtain ⟨b, hb, hover⟩ := hholds.body body hbody
      exact ⟨b, (hsame w (hw ▸ List.mem_cons_self)).trans hb, hover⟩
    · rw [hwindows]
      intro w rest hw
      rcases h.gone w rest hw with ⟨j, r, hr, hrkey⟩ | hexpired | ⟨hidle, hover⟩
      · exact Or.inl ⟨j, r, (hkept j r hrkey).mpr hr, hrkey⟩
      · exact Or.inr (Or.inl (hexpired.trans hstarted.1))
      · refine Or.inr (Or.inr ⟨hidle, fun b hb => hover b ?_⟩)
        exact (hsame w (hw ▸ List.mem_cons_self)).symm.trans hb

theorem Tracked.reserve (h : Tracked settings key s) (hc : s.calls.get q = some c)
    (hphase : c.phase = .arrived) (started : Time) :
    Tracked settings key (s.reserve settings q c started) := by
  have hactive : c.phase.isOver = false := by rw [hphase]; rfl
  unfold CallState.reserve
  by_cases hstarted : s.lockedAt ≤ started ∧ started ≤ s.now
  · rw [if_pos hstarted]
    have hlocked := h.locked hstarted
    split
    · rename_i records i hreserve
      cases IdempotencyRecords.reserveOrReplay_spec hreserve with
      | reserved hreserves => exact h.opened hc hphase hstarted hreserves
    · rename_i records status body hreserve
      cases IdempotencyRecords.reserveOrReplay_spec hreserve with
      | @replayed i r body hr hrkey hvalid hhash hbody =>
        -- the answer is the one that the execution of the window has ended with
        have hover : Tracked settings key
            (CallState.setPhase { s with lockedAt := started } q
              (.ended (some (.replayed r.responseStatus body)))) :=
          hlocked.setPhase hc (.ending hactive _)
        refine hover.noteAnswer c.key _ fun hkey _ w rest hw => ?_
        obtain ⟨w', rest', hw', hholds⟩ := hover.live _ _ hr (hrkey.trans hkey)
        rw [hw] at hw'
        obtain ⟨rfl, -⟩ := List.cons.inj hw'
        exact ⟨hholds.body body hbody, Or.inl ⟨i, r, hr, hrkey.trans hkey⟩⟩
    · exact hlocked.conclude hc hactive nofun
  · rwa [if_neg hstarted]

theorem CallState.conclude_with (s : CallState) (q : Id) (k : RequestKey)
    (response : Option Response) (records : IdempotencyRecords) :
    CallState.conclude { s with records := records } q k response =
      { s.conclude q k response with records := records } := by
  cases response <;> rfl

/-- A call that is still active and has committed nothing has left nothing in its window. -/
theorem Tracked.gone_conclude (h : Tracked settings key s) (hc : s.calls.get q = some c)
    (hactive : c.phase.isOver = false) (hkey : c.key = key) (hcurrent : s.Current q c)
    (huncommitted : s.Uncommitted q c) {response : Option Response}
    (hfails : response.any Response.isSuccess = false) {w : ValidityWindow}
    {rest : List ValidityWindow} (hw : (s.conclude q c.key response).windows key = w :: rest) :
    Unused (s.conclude q c.key response) w := by
  subst hkey
  obtain ⟨w₀, rest₀, hw₀⟩ : ∃ w₀ rest₀, s.windows c.key = w₀ :: rest₀ := by
    cases hs : s.windows c.key with
    | nil => simp [CallState.Current, hs] at hcurrent
    | cons w₀ rest₀ => exact ⟨w₀, rest₀, rfl⟩
  have hcall : w₀.call = q := by simpa [CallState.Current, hw₀] using hcurrent
  obtain ⟨b, hb⟩ := h.owned w₀ (hw₀ ▸ List.mem_cons_self)
  obtain rfl : c = b := by
    have hsame := hcall ▸ hb.call
    rw [hc] at hsame
    exact Option.some.inj hsame
  have hcommits : w₀.commits = [] := by
    refine List.eq_nil_iff_forall_not_mem.mpr fun e he => ?_
    exact huncommitted w₀ (by simp [hw₀]) e he ((hb.commits e he).trans hcall)
  have hanswers : ∀ a ∈ w₀.answers, a.1.isSuccess = false := by
    intro a ha
    by_contra hsuccess
    have hover := hb.answers a ha (by simpa using hsuccess)
    rw [hover] at hactive
    exact nomatch hactive
  right
  cases response with
  | none =>
    obtain ⟨rfl, rfl⟩ := List.cons.inj (hw₀.symm.trans hw)
    refine ⟨fun hcounts => ?_, fun b hb => ?_⟩
    · rcases hcounts with hcounts | ⟨a, ha, hsuccess⟩
      · exact hcounts hcommits
      · exact Bool.false_ne_true ((hanswers a ha).symm.trans hsuccess)
    · rw [hcall] at hb
      rw [← Option.some.inj ((CallState.setPhase_get hc _).symm.trans hb)]
      rfl
  | some r =>
    have hwindows := CallState.note_windows (s.setPhase q (.ended (some r))) c.key
      fun w => { w with answers := (r, s.now) :: w.answers }
    have hhead : (s.setPhase q (.ended (some r))).windows c.key = w₀ :: rest₀ := hw₀
    rw [hhead, List.modifyHead_cons] at hwindows
    obtain ⟨rfl, rfl⟩ := List.cons.inj (hwindows.symm.trans hw)
    refine ⟨fun hcounts => ?_, fun b hb => ?_⟩
    · rcases hcounts with hcounts | ⟨a, ha, hsuccess⟩
      · exact hcounts hcommits
      · rcases List.mem_cons.mp ha with rfl | ha
        · exact Bool.false_ne_true (hfails.symm.trans hsuccess)
        · exact Bool.false_ne_true ((hanswers a ha).symm.trans hsuccess)
    · dsimp only at hb
      rw [hcall] at hb
      rw [← Option.some.inj ((CallState.setPhase_get hc _).symm.trans hb)]
      rfl

theorem Tracked.release (h : Tracked settings key s) (hc : s.calls.get q = some c) {i : Id}
    {response : Option Response} (hphase : c.phase = .releasing i response)
    (hkeeps : ((response.any Response.isSuccess = true ∨ s.InProgress i) → s.Current q c) ∧
      (s.InProgress i → s.Uncommitted q c ∧ response.any Response.isSuccess = false)) :
    Tracked settings key (CallState.conclude
      { s with records := s.records.releaseReservation i } q c.key response) := by
  have hactive : c.phase.isOver = false := by rw [hphase]; rfl
  have hconcluded : Tracked settings key (s.conclude q c.key response) :=
    h.conclude hc hactive fun hsuccess => hkeeps.1 (Or.inl hsuccess)
  have hrecords : (s.conclude q c.key response).records = s.records := by cases response <;> rfl
  rw [CallState.conclude_with]
  refine hconcluded.deleted ?_ ?_ ?_
  · rw [hrecords, IdempotencyRecords.releaseReservation, Table.size_modify]
  · rw [hrecords]
    exact fun j r hr => (IdempotencyRecords.record_releaseReservation.mp hr).1
  · rw [hrecords]
    intro j r hr hkey
    by_cases hlost : j = i ∧ r.responseBody = none
    · obtain ⟨rfl, hbody⟩ := hlost
      have hprogress : s.InProgress j := ⟨r, hr, hbody⟩
      have hrkey : r.key = c.key := (h.filed q c hc).key j r (by rw [hphase]; rfl) hr
      obtain ⟨huncommitted, hfails⟩ := hkeeps.2 hprogress
      exact Or.inr fun w rest => h.gone_conclude hc hactive (hrkey.symm.trans hkey)
        (hkeeps.1 (Or.inr hprogress)) huncommitted hfails
    · left
      refine IdempotencyRecords.record_releaseReservation.mpr ⟨hr, fun hj hbody => hlost ⟨hj, hbody⟩⟩

theorem Tracked.finish (h : Tracked settings key s) (hc : s.calls.get q = some c) {i : Id}
    {r : Response} {body : Dict} (hphase : c.phase = .finishing i r body) (hcurrent : s.Current q c) :
    Tracked settings key (CallState.conclude
      { s with records := s.records.finishReservation i r.status body } q c.key (some r)) := by
  have hactive : c.phase.isOver = false := by rw [hphase]; rfl
  have hconcluded : Tracked settings key (s.conclude q c.key (some r)) :=
    h.conclude hc hactive fun _ => hcurrent
  rw [CallState.conclude_with]
  refine hconcluded.finishReservation ((h.filed q c hc).stored i r body hphase) ?_
  intro p hp hkey w rest hw
  have hrkey : p.key = c.key := (h.filed q c hc).key i p (by rw [hphase]; rfl) hp
  have hcall : w.call = q := by
    have hk : c.key = key := hrkey.symm.trans hkey
    subst hk
    have hwindows := CallState.note_windows (s.setPhase q (.ended (some r))) c.key
      fun w => { w with answers := (r, s.now) :: w.answers }
    have hhead := hwindows.symm.trans hw
    rw [CallState.Current, ← List.head?_map] at hcurrent
    cases hs : s.windows c.key with
    | nil => simp [hs] at hcurrent
    | cons v more =>
      have hsame : (s.setPhase q (.ended (some r))).windows c.key = v :: more := hs
      rw [hsame, List.modifyHead_cons] at hhead
      rw [← (List.cons.inj hhead).1]
      simpa [hs] using hcurrent
  exact ⟨_, by rw [hcall]; exact CallState.setPhase_get hc _, rfl⟩

/-- **A step that keeps the reservation keeps the window.** -/
theorem Tracked.act (h : Tracked settings key s) (hc : s.calls.get q = some c) (action : CallAction)
    (hkeeps : s.KeepsReservation (.act q action)) :
    Tracked settings key (s.act settings q c action) := by
  simp only [CallState.KeepsReservation, hc] at hkeeps
  cases action with
  | reserve started =>
    simp only [CallState.act]
    split
    · rename_i hphase
      exact h.reserve hc hphase started
    · exact h
  | commit =>
    simp only [CallState.act]
    split
    · rename_i i hphase
      rw [hphase] at hkeeps
      exact h.noteCommit hc (by rw [hphase]; rfl) hkeeps
    · exact h
  | respond response =>
    simp only [CallState.act]
    split
    · rename_i i hphase
      exact h.setPhase hc (hphase ▸ .afterHandler c.channel)
    · exact h
  | raise =>
    simp only [CallState.act]
    split
    · rename_i i hphase
      exact h.setPhase hc (.releasing (by rw [hphase]; rfl) none)
    · rename_i i response hphase
      exact h.setPhase hc (.releasing (by rw [hphase]; rfl) none)
    · exact h
  | read =>
    simp only [CallState.act]
    split
    · rename_i i response hphase
      exact h.setPhase hc (.afterReading (by rw [hphase]; rfl))
    · exact h
  | finish =>
    simp only [CallState.act]
    split
    · rename_i i response body hphase
      rw [hphase] at hkeeps
      exact h.finish hc hphase hkeeps
    · exact h
  | failFinish =>
    simp only [CallState.act]
    split
    · rename_i i response body hphase
      rw [hphase] at hkeeps
      exact h.conclude hc (by rw [hphase]; rfl) fun _ => hkeeps
    · exact h
  | release =>
    simp only [CallState.act]
    split
    · rename_i i response hphase
      rw [hphase] at hkeeps
      exact h.release hc hphase hkeeps
    · exact h
  | failRelease =>
    simp only [CallState.act]
    split
    · rename_i i response hphase
      rw [hphase] at hkeeps
      exact h.conclude hc (by rw [hphase]; rfl) hkeeps
    · exact h
  | cancel => exact h.setPhase hc (.cancelled c.phase c.channel)
  | lose => exact h.setPhase hc (.lost c.phase)

theorem Tracked.step (h : Tracked settings key s) (x : CallTurn) (hkeeps : s.KeepsReservation x) :
    Tracked settings key (callStep settings s x) := by
  cases x with
  | tick elapsed => exact { h with clock := h.clock.trans (le_add_of_nonneg_right (Int.natCast_nonneg _)) }
  | arrive channel k fingerprint =>
    exact h.advance ((Table.Evolves.refl IdempotentCall.Becomes.refl _).insert rfl)
  | act q action =>
    simp only [callStep]
    split
    · rename_i c hc
      exact h.act hc action hkeeps
    · exact h
  | retain started =>
    simp only [callStep]
    split
    · rename_i hstarted
      refine (h.locked hstarted).deleted ?_ ?_ ?_
      · rw [IdempotencyRecords.deleteExpired, Table.size_sweep]
      · exact fun i r hr => (IdempotencyRecords.record_deleteExpired.mp hr).1
      · intro i r hr hkey
        by_cases hvalid : started < r.expiresAt
        · exact Or.inl (IdempotencyRecords.record_deleteExpired.mpr ⟨hr, hvalid⟩)
        · refine Or.inr fun w rest hw => Or.inl ?_
          obtain ⟨w', rest', hw', hholds⟩ := h.live i r hr hkey
          obtain ⟨rfl, -⟩ := List.cons.inj (hw'.symm.trans hw)
          exact hholds.expires ▸ not_lt.mp hvalid
    · exact h
  | crash =>
    refine h.advance ((Table.Evolves.refl IdempotentCall.Becomes.refl _).sweep fun i c hc _ => ?_)
    rw [hc]
    have hlost := CallPhase.Continues.lost c.phase
    exact ⟨rfl, hlost.ended, hlost.phase, hlost.record, fun j r body hj => Or.inr (hlost.stored j r body hj)⟩

theorem Tracked.initial (settings : IdempotencySettings) (key : RequestKey) (now : Time) :
    Tracked settings key (.initial now) where
  clock := le_rfl
  filed := nofun
  follows := .nil
  timed := nofun
  owned := nofun
  live := nofun
  gone := nofun

end Updates

/-- **One execution counts in each validity window** of every run that keeps the reservations. -/
theorem executed_once (settings : IdempotencySettings) (now : Time) (steps : List CallTurn)
    (h : Along (callStep settings) CallState.KeepsReservation (.initial now) steps)
    (key : RequestKey) : (callRun settings now steps).OneExecution key := by
  have hrun : Tracked settings key (callRun settings now steps) :=
    run_invariant (callStep settings) (fun s x hs hkeeps => hs.step x hkeeps)
      (Tracked.initial settings key now) h
  exact hrun.oneExecution

namespace Sample

def idempotency : IdempotencySettings := ⟨24⟩
def submission : RequestKey := ⟨"account:0", "POST:/api/v1/incidents", "a"⟩
def created : Response := ⟨201, some [], nofun⟩

/-- A call is sent twice, the second time after the first one was answered. -/
def repeated : List CallTurn :=
  [.arrive .http submission "", .act 0 (.reserve 0), .act 0 .commit, .act 0 (.respond created),
    .act 0 .read, .act 0 .finish, .arrive .http submission "", .act 1 (.reserve 0)]

/-- The handler fails after its commit, and the client tries again. -/
def retried : List CallTurn :=
  [.arrive .http submission "", .act 0 (.reserve 0), .act 0 .commit, .act 0 .raise, .act 0 .release,
    .arrive .http submission "", .act 1 (.reserve 0), .act 1 .commit]

end Sample

theorem repeated_call_is_executed_once :
    (callRun Sample.idempotency 0 Sample.repeated).OneExecution Sample.submission :=
  executed_once Sample.idempotency 0 Sample.repeated
    ⟨trivial, trivial, rfl, trivial, trivial, rfl, trivial, trivial, trivial⟩ Sample.submission

/-- Both executions commit in the window that the first one opened. -/
theorem retried_call_is_executed_twice :
    ¬ (callRun Sample.idempotency 0 Sample.retried).OneExecution Sample.submission := by
  intro h
  obtain ⟨x, hcommits, -⟩ := h [⟨1, 1, 0, hours 24, [(1, 0)], []⟩]
    ⟨0, 0, 0, hours 24, [(0, 0)], []⟩ [] rfl
  have hfirst : 0 = x := hcommits ⟨0, 0, 0, hours 24, [(0, 0)], []⟩ (by simp) (0, 0) (by simp)
    (by decide)
  have hsecond : 1 = x := hcommits ⟨1, 1, 0, hours 24, [(1, 0)], []⟩ (by simp) (1, 0) (by simp)
    (by decide)
  exact absurd (hfirst.trans hsecond.symm) (by decide)

end CrisisMosaic
