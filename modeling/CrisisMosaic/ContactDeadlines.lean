import CrisisMosaic.RetentionRuns

/-!
# When contacts are anonymised

The deadline of a contact is computed when the contact is written and never again; what happens to
the incident afterwards does not move it.
-/

namespace CrisisMosaic
open Relational

section Anonymised
variable {now : Time} {digest : Id → String}

@[simp] theorem anonymizeReporterContact_incidentId (id : Id) (c : StoredContact) :
    (anonymizeReporterContact now digest id c).incidentId = c.incidentId := by
  unfold anonymizeReporterContact
  split_ifs <;> rfl

@[simp] theorem anonymizeReporterContact_legalHold (id : Id) (c : StoredContact) :
    (anonymizeReporterContact now digest id c).legalHold = c.legalHold := by
  unfold anonymizeReporterContact
  split_ifs <;> rfl

@[simp] theorem anonymizeReporterContact_retentionUntil (id : Id) (c : StoredContact) :
    (anonymizeReporterContact now digest id c).retentionUntil = c.retentionUntil := by
  unfold anonymizeReporterContact
  split_ifs <;> rfl

@[simp] theorem anonymizeReporterContact_anonymized (id : Id) (c : StoredContact) :
    (anonymizeReporterContact now digest id c).anonymizedAt.isSome = true := by
  unfold anonymizeReporterContact
  split_ifs with h
  · exact h
  · rfl

theorem anonymizeReporterContact_idem (id : Id) (c : StoredContact) :
    anonymizeReporterContact now digest id (anonymizeReporterContact now digest id c) =
      anonymizeReporterContact now digest id c := by
  rw [anonymizeReporterContact, if_pos (anonymizeReporterContact_anonymized id c)]

/-- The incidents one after another. -/
theorem foldl_anonymizeContacts (ids : List Id) (contacts : Table StoredContact) (i : Id) :
    (ids.foldl (anonymizeContacts now digest) contacts).get i = (contacts.get i).map fun c =>
      if c.incidentId ∈ ids ∧ c.legalHold = false then anonymizeReporterContact now digest i c else c := by
  induction ids generalizing contacts with
  | nil => simp
  | cons id ids ih =>
    rw [List.foldl_cons, ih, anonymizeContacts, Table.get_rewrite, Option.map_map]
    apply congrFun (congrArg Option.map _)
    funext c
    simp only [Function.comp_apply, List.mem_cons, Bool.and_eq_true, decide_eq_true_eq,
      Bool.not_eq_true']
    by_cases hhold : c.legalHold = false
    · by_cases hid : c.incidentId = id
      · simp [hid, hhold, anonymizeReporterContact_idem]
      · simp [hid, hhold]
    · simp [hhold]

theorem cleanup_get (env : RetentionEnv) (s : RetainedState) (stamped : Time) (rest : Db) (i : Id) :
    (cleanupRetentionOnce env s now stamped rest).contacts.get i =
      ((s.contacts.get i).map fun c =>
        if c.IsDue now then anonymizeReporterContact now env.contactDigest i c else c).map fun c =>
      if c.incidentId ∈ s.expired env now ∧ c.legalHold = false then
        anonymizeReporterContact now env.contactDigest i c else c := by
  unfold cleanupRetentionOnce
  dsimp only
  rw [foldl_anonymizeContacts, expireContacts, Table.get_rewrite]

/-- A pass anonymises the contacts that are due and those of the expired incidents. -/
theorem cleanup_contact {env : RetentionEnv} {s : RetainedState} {stamped : Time} {rest : Db} {i : Id}
    {c c' : StoredContact} (hget : s.contacts.get i = some c)
    (h : (cleanupRetentionOnce env s now stamped rest).contacts.get i = some c')
    (hheld : c.legalHold = false) (hlive : c.anonymizedAt = none) :
    c'.anonymizedAt.isSome = true ↔ c.IsDue now ∨ c.incidentId ∈ s.expired env now := by
  rw [cleanup_get, hget, Option.map_some, Option.map_some, Option.some_inj] at h
  subst h
  by_cases hdue : c.IsDue now
  · by_cases hexpired : c.incidentId ∈ s.expired env now
    · simp [hdue, hheld, hexpired]
    · simp [hdue, hexpired]
  · by_cases hexpired : c.incidentId ∈ s.expired env now
    · simp [hdue, hheld, hexpired]
    · simp [hdue, hlive, hexpired]

end Anonymised

/-! ## Deadlines -/

section Runs
variable {env : RetentionEnv} {s : RetainedState}

variable (env s) in
/-- The incident is closed, and was closed long enough ago for its contacts or for all its data. -/
def RetainedState.LongClosed (now : Time) (id : Id) : Prop :=
  (∃ row, s.db.feed.incidents.get id = some row ∧ row.status = .closed) ∧
    ∃ t, s.incidentClosedAt id = some t ∧
      (t + days env.piiSettings.retentionDaysAfterIncident ≤ now ∨
        t + days env.piiSettings.businessRetentionDays ≤ now)

theorem RetainedState.longClosed_of_expired {now : Time} {id : Id} (h : id ∈ s.expired env now) :
    s.LongClosed env now id := by
  obtain ⟨hselect, hclosed⟩ := List.mem_filter.mp h
  obtain ⟨row, hrow, hstatus⟩ := Table.mem_select.mp hselect
  obtain ⟨t, ht, hle⟩ := (Option.any_eq_true _ _).mp hclosed
  refine ⟨⟨row, hrow, of_decide_eq_true hstatus⟩, t, ht, Or.inr ?_⟩
  have hcutoff : t ≤ now - days env.piiSettings.businessRetentionDays := of_decide_eq_true hle
  linarith

/-- A contact is anonymised only after its incident has been closed for long. -/
def RetainedState.Lawful (env : RetentionEnv) (s : RetainedState) : RetainedStep → Prop
  | .cleanup now stamped rest => ∀ i c c', s.contacts.get i = some c →
      (cleanupRetentionOnce env s now stamped rest).contacts.get i = some c' →
      c.legalHold = false → c.anonymizedAt = none → c'.anonymizedAt.isSome = true →
      s.LongClosed env now c.incidentId
  | _ => True

/-- At a pass, the contacts of an incident that is open, or has not been closed for long, were
written recently, counting from the closing of that time if there was one. -/
def RetainedState.YoungContacts (env : RetentionEnv) (s : RetainedState) : RetainedStep → Prop
  | .cleanup now _ _ => ∀ i c w, s.contacts.get i = some c → s.writings.get i = some w →
      c.legalHold = false → c.anonymizedAt = none → ¬ s.LongClosed env now c.incidentId →
      now < w.closedAt.getD w.writtenAt + days env.piiSettings.retentionDaysAfterIncident
  | _ => True

variable (env s) in
/-- The stored deadlines are those of the writings. -/
def RetainedState.Dated : Prop :=
  s.contacts.Related (fun c w => c.retentionUntil = w.closedAt.getD w.writtenAt +
    days env.piiSettings.retentionDaysAfterIncident) s.writings

theorem RetainedState.lawful_iff (h : s.Dated env) (step : RetainedStep) :
    s.Lawful env step ↔ s.YoungContacts env step := by
  cases step with
  | cleanup now stamped rest =>
    constructor
    · intro hlawful i c w hc hw hheld hlive hopen
      by_contra hdue
      apply hopen
      obtain ⟨c', hc'⟩ : ∃ c', (cleanupRetentionOnce env s now stamped rest).contacts.get i = some c' := by
        rw [cleanup_get, hc]
        exact ⟨_, rfl⟩
      apply hlawful i c c' hc hc' hheld hlive
      apply (cleanup_contact hc hc' hheld hlive).mpr
      left
      refine ⟨?_, hheld, hlive⟩
      rw [h.get_some hc hw]
      exact not_lt.mp hdue
    · intro hyoung i c c' hc hc' hheld hlive hdone
      rcases (cleanup_contact hc hc' hheld hlive).mp hdone with hdue | hexpired
      · by_contra hopen
        obtain ⟨w, hw, hdate⟩ := h.right_of_some hc
        have hlt := hyoung i c w hc hw hheld hlive hopen
        have hle := hdue.1
        rw [hdate] at hle
        exact absurd hlt (not_lt.mpr hle)
      · exact longClosed_of_expired hexpired
  | _ => exact Iff.rfl

theorem createReporterContact_retentionUntil {lib : PiiLib} {settings : PiiSettings} {now : Time}
    {nonces : String → Bytes} {id device : Id} {closedAt : Option Time} {reporter : ReporterInput}
    {c : StoredContact}
    (h : createReporterContact lib settings now nonces id closedAt device reporter = .ok c) :
    c.incidentId = id ∧ c.retentionUntil = retentionUntil settings now closedAt := by
  simp only [createReporterContact, bind_ok, pure_ok] at h
  obtain ⟨values, -, rfl⟩ := h
  exact ⟨rfl, rfl⟩

theorem updateReporterContact_retentionUntil {lib : PiiLib} {settings : PiiSettings} {now : Time}
    {nonces : String → Bytes} {id : Id} {closedAt : Option Time} {previous c : StoredContact}
    {patch : ReporterPatchInput}
    (h : updateReporterContact lib settings now nonces id closedAt previous patch = .ok c) :
    c.incidentId = id ∧ c.retentionUntil = retentionUntil settings now closedAt := by
  simp only [updateReporterContact, bind_ok, pure_ok] at h
  obtain ⟨_, -, _, -, _, -, _, -, values, -, rfl⟩ := h
  exact ⟨rfl, rfl⟩

/-- A contact is dated when it is written. -/
theorem RetainedState.newContact_dated {op : Op} {fields : ReporterFields} {c : StoredContact}
    (h : s.newContact env op fields = some (.ok c)) :
    c.retentionUntil = retentionUntil env.piiSettings op.now (s.incidentClosedAt c.incidentId) := by
  unfold newContact at h
  split at h
  · have hcreated := Option.some.inj h
    simp only [createdContact, bind_ok] at hcreated
    obtain ⟨⟨id, row⟩, -, hcreated⟩ := hcreated
    obtain ⟨rfl, hdate⟩ := createReporterContact_retentionUntil hcreated
    exact hdate
  · split_ifs at h
    have hupdated := Option.some.inj h
    simp only [updatedContact, bind_ok] at hupdated
    obtain ⟨report, -, previous, -, hupdated⟩ := hupdated
    obtain ⟨hid, hdate⟩ := updateReporterContact_retentionUntil hupdated
    rw [hid]
    exact hdate
  · cases h

theorem RetainedState.operate_dated (h : s.Dated env) (op : Op) (fields : ReporterFields) :
    (s.operate env op fields).Dated env := by
  unfold operate
  split
  · exact h
  · cases hnew : s.newContact env op fields with
    | none => exact h
    | some r =>
      cases r with
      | error e => exact h
      | ok c => exact h.insert (newContact_dated hnew)

theorem cleanup_dated (h : s.Dated env) (now stamped : Time) (rest : Db) :
    (cleanupRetentionOnce env s now stamped rest).Dated env := by
  have hkept : ∀ (ids : List Id) (contacts : Table StoredContact),
      contacts.Related (fun c w => c.retentionUntil = w.closedAt.getD w.writtenAt +
        days env.piiSettings.retentionDaysAfterIncident) s.writings →
      (ids.foldl (anonymizeContacts now env.contactDigest) contacts).Related
        (fun c w => c.retentionUntil = w.closedAt.getD w.writtenAt +
          days env.piiSettings.retentionDaysAfterIncident) s.writings := by
    intro ids
    induction ids with
    | nil => exact fun _ h => h
    | cons id ids ih =>
      intro contacts hcontacts
      apply ih
      apply hcontacts.rewriteLeft
      intro i c w hcw
      split_ifs
      · rw [anonymizeReporterContact_retentionUntil]
        exact hcw
      · exact hcw
  apply hkept
  apply h.rewriteLeft
  intro i c w hcw
  split_ifs
  · rw [anonymizeReporterContact_retentionUntil]
    exact hcw
  · exact hcw

theorem retainedStep_dated (h : s.Dated env) (step : RetainedStep) : (retainedStep env s step).Dated env := by
  cases step with
  | op op fields => exact RetainedState.operate_dated h op fields
  | patchIncident now actor header incident patch =>
    apply commit_induction (P := fun t : RetainedState => t.Dated env) h
    intro t ht
    simp only [patchIncident, bind_ok, pure_ok] at ht
    obtain ⟨_, -, _, -, _, -, _, -, _, -, _, -, rfl⟩ := ht
    exact h
  | hold contact held => exact h.modifyLeft fun _ _ hcw => hcw
  | cleanup now stamped rest => exact cleanup_dated h now stamped rest

/-- In every run, the passes anonymise contacts lawfully if and only if each of them finds the contacts
of the other incidents recently written. -/
theorem contacts_anonymised_lawfully_iff (env : RetentionEnv) (db : Db) (closedAt : Table (Option Time))
    (steps : List RetainedStep) :
    Along (retainedStep env) (fun s step => s.Lawful env step) (.initial db closedAt) steps ↔
      Along (retainedStep env) (fun s step => s.YoungContacts env step) (.initial db closedAt) steps :=
  along_congr (retainedStep env) (I := fun s => s.Dated env)
    (fun _ step h => RetainedState.lawful_iff h step) (fun _ step h _ => retainedStep_dated h step)
    fun _ => .none

end Runs

/-- The contact of a report to an incident that stays open, 91 days later. -/
theorem contact_of_open_incident_is_anonymised :
    ¬ Along (retainedStep Sample.retention) (fun s step => s.Lawful Sample.retention step)
      Sample.unretained [Sample.posted, .cleanup (days 91) (days 91) Sample.initial] := by
  rintro ⟨-, hlawful, -⟩
  obtain ⟨c, hc⟩ : ∃ c, (retainedStep Sample.retention Sample.unretained Sample.posted).contacts.get 0 =
    some c := Table.get_of_lt (by decide +kernel)
  obtain ⟨c', hc'⟩ : ∃ c', (cleanupRetentionOnce Sample.retention
      (retainedStep Sample.retention Sample.unretained Sample.posted) (days 91) (days 91)
      Sample.initial).contacts.get 0 = some c' := Table.get_of_lt (by decide +kernel)
  have hlive : c.legalHold = false ∧ c.anonymizedAt = none ∧ c.incidentId = 0 := by
    have hall : ∀ c ∈ (retainedStep Sample.retention Sample.unretained Sample.posted).contacts.get 0,
        c.legalHold = false ∧ c.anonymizedAt = none ∧ c.incidentId = 0 := by decide +kernel
    exact hall c hc
  have hdone : c'.anonymizedAt.isSome = true := by
    have hall : ∀ c ∈ (cleanupRetentionOnce Sample.retention
        (retainedStep Sample.retention Sample.unretained Sample.posted) (days 91) (days 91)
        Sample.initial).contacts.get 0, c.anonymizedAt.isSome = true := by decide +kernel
    exact hall c' hc'
  obtain ⟨⟨row, hrow, hstatus⟩, -⟩ := hlawful 0 c c' hc hc' hlive.1 hlive.2.1 hdone
  rw [hlive.2.2] at hrow
  have hactive : ∀ row ∈ (retainedStep Sample.retention Sample.unretained
      Sample.posted).db.feed.incidents.get 0, row.status ≠ .closed := by decide +kernel
  exact hactive row hrow hstatus

end CrisisMosaic
