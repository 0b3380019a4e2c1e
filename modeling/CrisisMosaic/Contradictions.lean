import CrisisMosaic.Reachable

/-!
# A contradiction on the key of a current fact

A detected contradiction reviews the fact of its key only when it reopens a case.
When every case of the key is out of the window, or somewhere else, the case is
new and the fact stays as it was.
-/

namespace CrisisMosaic
open Relational Store

section Candidates
variable (env : Env) (now : Time) (s : Store) (call : ConflictCall)

/-- A case the contradiction can go to: one of its keys, at its place, within the window. -/
def HasCandidate : Prop :=
  ∃ c x, s.cases.get c = some x ∧ x.incidentId = call.incidentId ∧
    x.factKey ∈ candidateFactKeys s call ∧ likelySamePlace env x.place call.place = true ∧
    now - x.detectedAt ≤ hours env.settings.conflictWindowHours

theorem mem_candidateCases {c : Id} : c ∈ candidateCases s call ↔
    ∃ x, s.cases.get c = some x ∧ x.incidentId = call.incidentId ∧
      x.factKey ∈ candidateFactKeys s call := by
  simp [candidateCases, newestFirst, Table.mem_select]

theorem findCandidate_isSome :
    (findCandidate env now s call).isSome = true ↔ HasCandidate env now s call := by
  simp only [findCandidate, List.find?_isSome, mem_candidateCases, Option.any_eq_true,
    acceptsCandidate, Bool.and_eq_true, decide_eq_true_eq]
  constructor
  · rintro ⟨c, ⟨x, hx, hi, hk⟩, y, hy, hplace, htime⟩
    obtain rfl := Option.some.inj (hx.symm.trans hy)
    exact ⟨c, x, hx, hi, hk, hplace, htime⟩
  · rintro ⟨c, x, hx, hi, hk, hplace, htime⟩
    exact ⟨c, ⟨x, hx, hi, hk⟩, x, hx, hplace, htime⟩

end Candidates

/-- No fact of the key is current. -/
def Facts.NoneCurrent (facts : Facts) (incidentId : Id) (factKey : String) : Prop :=
  ∀ id r, facts.records.get id = some r → r.incidentId = incidentId → r.factKey = factKey →
    r.status ≠ .current

theorem Facts.UnderReview.noneCurrent {facts : Facts} {incidentId : Id} {factKey : String}
    (h : facts.UnderReview incidentId factKey) : facts.NoneCurrent incidentId factKey := by
  intro id r hr hi hk hc
  exact nomatch hc.symm.trans (h id r hr hi hk)

section Opening
variable {env : Env} {now : Time} {sources : Sources} {s t : Store} {call : ConflictCall} {id : Id}

/-- The two ways a case is opened for a contradiction. -/
theorem findOrOpen_opened
    (h : findOrOpenStructuredConflict env now sources s call = .ok (t, id, true))
    (hwf : s.facts.WellFormed) :
    (findCandidate env now s call = none ∧ t.cases.get id = some (freshCase now call) ∧
        t.facts = s.facts) ∨
      ∃ x, findCandidate env now s call = some id ∧ t.cases.get id = some (reopen x) ∧
        t.facts.UnderReview x.incidentId x.factKey := by
  simp only [findOrOpenStructuredConflict, bind_ok, pure_ok, Prod.exists, Prod.mk.injEq] at h
  obtain ⟨evidence, added, -, rfl, rfl, hopened⟩ := h
  rcases openCase_cases env now s call with ⟨hnone, ho⟩ | ⟨c, x, hsome, hx, ⟨hr, ho⟩ | ⟨hr, ho⟩⟩
  · left
    rw [ho] at hopened ⊢
    refine ⟨hnone, ?_, ?_⟩
    · simp
    · simp
  · right
    obtain ⟨-, hcase, hunder⟩ := reopenStructured_spec now hwf hx hr
    rw [ho] at hopened ⊢
    refine ⟨x, hsome, ?_, ?_⟩
    · simpa using hcase
    · simpa using hunder
  · rw [ho] at hopened
    cases hopened

/-- Opening a case leaves no current fact on its key exactly when there was a case to reopen or
no current fact on the key. -/
theorem opened_noneCurrent_iff
    (h : findOrOpenStructuredConflict env now sources s call = .ok (t, id, true))
    (hwf : s.facts.WellFormed) :
    (∀ x, t.cases.get id = some x → t.facts.NoneCurrent x.incidentId x.factKey) ↔
      HasCandidate env now s call ∨ s.facts.NoneCurrent call.incidentId call.factKey := by
  rw [← findCandidate_isSome]
  rcases findOrOpen_opened h hwf with ⟨hnone, hcase, hfacts⟩ | ⟨x, hsome, hcase, hunder⟩
  · rw [hnone, hfacts]
    constructor
    · exact fun hnow => Or.inr (hnow _ hcase)
    · rintro (hno | hnow) x hx
      · exact nomatch hno
      · obtain rfl := Option.some.inj (hcase.symm.trans hx)
        exact hnow
  · refine iff_of_true (fun y hy => ?_) (Or.inl (by rw [hsome]; rfl))
    obtain rfl := Option.some.inj (hcase.symm.trans hy)
    exact hunder.noneCurrent

end Opening

theorem Effect.detection {env : Env} {db : Db} {op : Op} {o : Outcome} (h : Effect env db op o)
    {d : Detection} (hd : o.detection = some d) : d.Of env op.now db.toStore := by
  cases h with
  | worked _ _ _ hdetected => exact hdetected d hd
  | decided _ _ _ hnone => exact nomatch hd.symm.trans hnone
  | requested _ _ _ hnone => exact nomatch hd.symm.trans hnone
  | analysed _ _ hnone => exact nomatch hd.symm.trans hnone

/-- Whenever an operation of a run opens a case for a contradiction, the fact of the case's key is
not current afterwards if and only if there was a case to reopen or it was not current before. -/
theorem opened_case_fact_current_iff (env : Env) (incidents : Table Incident)
    (devices : Table AnonymousDevice) (attachments : Table Attachment) (ops : List Op) (op : Op)
    (o : Outcome) (d : Detection)
    (ho : transact env (reached env incidents devices attachments ops) op = .ok o)
    (hd : o.detection = some d) (hopened : d.opened = true) :
    (∀ x id r, d.after.cases.get d.conflictId = some x → d.after.facts.records.get id = some r →
        r.incidentId = x.incidentId → r.factKey = x.factKey → r.status ≠ .current) ↔
      HasCandidate env op.now d.before d.call ∨
        ∀ id r, (reached env incidents devices attachments ops).facts.records.get id = some r →
          r.incidentId = d.call.incidentId → r.factKey = d.call.factKey → r.status ≠ .current := by
  have hs := reached_sound env incidents devices attachments ops
  have hof := (transact_effect ho hs).detection hd
  obtain ⟨sources, hmade⟩ := hof.made
  have hcall := (callFindOrOpen_ok hmade).2.2
  rw [hopened] at hcall
  have hfacts : d.before.facts = (reached env incidents devices attachments ops).facts := hof.facts
  have hiff := opened_noneCurrent_iff hcall (hfacts ▸ hs.facts)
  rw [hfacts] at hiff
  exact Iff.trans ⟨fun h x hx id r hr => h x id r hx hr, fun h x id r hx hr => h x hx id r hr⟩ hiff

/-- An operator claims a value of a key, and another one contradicts the claim. -/
def claims (t : Time) : List Op :=
  [⟨t, Sample.admin, none, .createFragment (.id 0) (Sample.fragment (some "k") (some "p") t)⟩]

def contradiction (t : Time) : Op :=
  ⟨t, Sample.secondAdmin, none, .createFragment (.id 0) (Sample.fragment (some "k") (some "q") t)⟩

theorem first_contradiction_leaves_no_current_fact : ∃ o d,
    transact Sample.env (Sample.reached (claims 0)) (contradiction 0) = .ok o ∧
      o.detection = some d ∧ d.opened = true ∧
      ∀ x id r, d.after.cases.get d.conflictId = some x → d.after.facts.records.get id = some r →
        r.incidentId = x.incidentId → r.factKey = x.factKey → r.status ≠ .current := by
  obtain ⟨o, ho, h⟩ := ok_of_any
    (show (transact Sample.env (Sample.reached (claims 0)) (contradiction 0)).toOption.any
      (fun o => o.detection.any (·.opened)) = true by decide +kernel)
  obtain ⟨d, hd, hopened⟩ := (Option.any_eq_true _ _).mp h
  refine ⟨o, d, ho, hd, hopened,
    (opened_case_fact_current_iff _ _ _ _ _ _ o d ho hd hopened).mpr (Or.inr ?_)⟩
  intro id r hr
  have hempty : (Sample.reached (claims 0)).facts.records.size = 0 := by decide +kernel
  exact absurd (Table.lt_size hr) (hempty.le.trans (Nat.zero_le _)).not_gt

/-- The case of a contradiction is decided, and thirty hours later its key is claimed again. -/
def decidedAndClaimed : List Op :=
  claims 0 ++ [contradiction 0,
    ⟨2, Sample.admin, none, .submitConflictDecision (.id 0) (Sample.decision ⟨.current, Or.inl rfl⟩)⟩] ++
    claims (hours 30)

theorem later_contradiction_leaves_fact_current : ∃ o d x r,
    transact Sample.env (Sample.reached decidedAndClaimed) (contradiction (hours 30)) = .ok o ∧
      o.detection = some d ∧ d.opened = true ∧ d.after.cases.get d.conflictId = some x ∧
      d.after.facts.records.get 0 = some r ∧ r.incidentId = x.incidentId ∧ r.factKey = x.factKey ∧
      r.status = .current := by
  obtain ⟨o, ho, h⟩ := ok_of_any
    (show (transact Sample.env (Sample.reached decidedAndClaimed) (contradiction (hours 30))).toOption.any
      (fun o => o.detection.any fun d => d.opened && (d.after.cases.get d.conflictId).any fun x =>
        (d.after.facts.records.get 0).any fun r => r.incidentId = x.incidentId ∧ r.factKey = x.factKey ∧
          r.status = .current) = true by decide +kernel)
  obtain ⟨d, hd, h⟩ := (Option.any_eq_true _ _).mp h
  obtain ⟨hopened, h⟩ := Bool.and_eq_true_iff.mp h
  obtain ⟨x, hx, h⟩ := (Option.any_eq_true _ _).mp h
  obtain ⟨r, hr, h⟩ := (Option.any_eq_true _ _).mp h
  exact ⟨o, d, x, r, ho, hd, hopened, hx, hr, of_decide_eq_true h⟩

end CrisisMosaic
