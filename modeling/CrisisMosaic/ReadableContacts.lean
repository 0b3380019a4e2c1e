import CrisisMosaic.ContactDeadlines
import CrisisMosaic.ContactReaders
import CrisisMosaic.ReportChanges

/-!
# The contacts of reports stay readable

The contact of a report that is not deleted is one the service has written and no pass has
anonymised, as long as the passes find no such contact due.
-/

namespace CrisisMosaic
open Relational

section Requests
variable (env : RetentionEnv) (s : RetainedState)

/-- An edit, with what its validation finds. -/
def RetainedState.edit (now : Time) (actor : Actor) (header : Option Ref) (fields : ReporterFields)
    (uploads : Table Upload) (refinements : Table AiAnalysis) (id : Id) (payload : ReportPatch) :
    Result Outcome :=
  let db := { s.db with contacts := s.owners }
  let op : Op := ⟨now, actor, header, .patchReport id payload (pure none)⟩
  let refinement := patchRefinement env.toEnv ⟨db, uploads, refinements, .empty⟩ op id payload
  transact env.toEnv db
    (s.resolve env { op with call := .patchReport id payload refinement } fields)

/-- The requests about contacts end as they may, and the contacts of reports are decrypted. -/
structure RetainedState.Served : Prop where
  read : ∀ actor header id, Declared (readReport env.pii s actor header id)
  recent : ∀ actor directedAnswer, Declared (recentReport env.pii s actor directedAnswer)
  reveal : ∀ actor header id mfaCode fields,
    Declared (revealReporterContact env.pii env.piiSettings s actor header id mfaCode fields)
  edit : ∀ now actor header fields uploads refinements id payload,
    Declared (s.edit env now actor header fields uploads refinements id payload)
  decrypts : ∀ id r, s.db.reports.get id = some r → r.deletedAt = none →
    ∀ c ∈ s.reportContact r, ∃ plain, plainContact env.pii c = .ok plain

/-- At a pass, no report that stays has a contact that is due. -/
def RetainedState.Spares : RetainedStep → Prop
  | .cleanup now _ _ => s.db.reports.All fun _ r => r.deletedAt = none →
      r.incidentId ∉ s.expired env now → ∀ c ∈ s.reportContact r, ¬ c.IsDue now
  | _ => True

end Requests

/-- The contact of the report is in the table, not anonymised, and of the same incident. -/
def Report.LinkedTo (contacts : Table StoredContact) (r : Report) : Prop :=
  ∃ i c, r.reporterContactId = some i ∧ contacts.get i = some c ∧ c.incidentId = r.incidentId ∧
    c.anonymizedAt = none

structure RetainedState.Readable (env : RetentionEnv) (s : RetainedState) : Prop where
  opens : s.contacts.All fun _ c => c.anonymizedAt = none → c.Opens env.pii
  linked : s.db.reports.All fun _ r => r.deletedAt = none → r.LinkedTo s.contacts

theorem Report.LinkedTo.mono {contacts contacts' : Table StoredContact} {r : Report}
    (h : r.LinkedTo contacts)
    (hkeeps : ∀ i c, contacts.get i = some c → contacts'.get i = some c) : r.LinkedTo contacts' := by
  obtain ⟨i, c, hid, hget, hincident, hlive⟩ := h
  exact ⟨i, c, hid, hkeeps i c hget, hincident, hlive⟩

theorem Report.LinkedTo.same {contacts : Table StoredContact} {r r' : Report} (h : r.LinkedTo contacts)
    (hcontact : r'.reporterContactId = r.reporterContactId) (hincident : r'.incidentId = r.incidentId) :
    r'.LinkedTo contacts := by
  obtain ⟨i, c, hid, hget, hof, hlive⟩ := h
  exact ⟨i, c, hcontact.trans hid, hget, hof.trans hincident.symm, hlive⟩

section Served
variable {env : RetentionEnv} {s : RetainedState}

theorem RetainedState.Readable.contactsOpen (h : s.Readable env) : s.ContactsOpen env := by
  intro id r hr hlive c hc
  obtain ⟨i, c', hid, hget, -, hplain⟩ := h.linked id r hr hlive
  rw [RetainedState.reportContact, hid, Option.bind_some, hget] at hc
  obtain rfl := Option.some.inj hc
  exact h.opens i c' hget hplain

theorem RetainedState.Readable.served (h : s.Readable env) : s.Served env where
  read _ _ id := readReport_declared h.contactsOpen id
  recent _ directedAnswer := recentReport_declared h.contactsOpen directedAnswer
  reveal _ _ id mfaCode fields := revealReporterContact_declared h.contactsOpen id mfaCode fields
  edit now actor header fields uploads refinements id payload := by
    apply FailsWith.map
    apply patchReport_declared
    · apply checkReporter_declared
      intro outcome houtcome
      obtain ⟨sent, -, hsent⟩ := Option.map_eq_some_iff.mp houtcome
      obtain ⟨_, -, rfl⟩ := Option.map_eq_some_iff.mp hsent
      apply FailsWith.bind (updatedContact_declared h.contactsOpen _ fields id)
      intro _ _
      exact FailsWith.pure _
    · exact patchRefinement_declared _ _ id payload
  decrypts id r hr hlive c hc := by
    obtain ⟨plain, -, hplain, -⟩ := h.contactsOpen id r hr hlive c hc
    exact ⟨plain, hplain⟩

end Served

/-! ## Operations -/

section Operations
variable {env : RetentionEnv} {s : RetainedState} {op : Op} {fields : ReporterFields}

theorem applyLocation_contact {env : Env} {now : Time} {location : ReportLocation} {r r' : Report}
    (h : applyLocation env now location r = .ok r') : r'.reporterContactId = r.reporterContactId := by
  simp only [applyLocation, bind_ok] at h
  obtain ⟨-, -, h⟩ := h
  split at h
  · simp only [bind_ok, pure_ok, Prod.exists] at h
    obtain ⟨_, _, -, rfl⟩ := h
    rfl
  · rw [pure_ok] at h
    exact h ▸ rfl

theorem bindAttachments_contact {attachments attachments' : Table Attachment} {id : Id} {r r' : Report}
    {ids : List Id} (h : bindAttachments attachments id r ids = .ok (attachments', r')) :
    r'.reporterContactId = r.reporterContactId := by
  simp only [bindAttachments, bind_ok, pure_ok, Prod.mk.injEq] at h
  obtain ⟨-, -, -, rfl⟩ := h
  rfl

theorem applyTo_contact {env : Env} {now : Time} {p : ReportPatch} {next : Id} {r r' : Report}
    (h : p.applyTo env now next r = .ok r') :
    r'.reporterContactId = p.contactId next r.reporterContactId := by
  unfold ReportPatch.applyTo at h
  dsimp only at h
  split at h
  · simp only [bind_ok, pure_ok] at h
    obtain ⟨a, ha, rfl⟩ := h
    have hkept := applyLocation_contact ha
    exact congrArg (p.contactId next) hkept
  · simp only [bind_ok, pure_ok] at h
    obtain ⟨a, rfl, rfl⟩ := h
    rfl

theorem rebind_contact {p : ReportPatch} {attachments attachments' : Table Attachment} {id : Id}
    {r r' : Report} (h : p.rebind attachments id r = .ok (attachments', r')) :
    r'.reporterContactId = r.reporterContactId := by
  unfold ReportPatch.rebind at h
  split at h
  · obtain ⟨-, rfl⟩ := Prod.mk.inj (pure_ok.mp h)
    rfl
  · exact absurd h throw_ok
  · exact bindAttachments_contact h

theorem createdContact_spec {incident : Ref} {c : StoredContact}
    (h : s.createdContact env op fields incident = .ok c) :
    c.Opens env.pii ∧ c.anonymizedAt = none ∧
      ∃ row, getIncident s.db.feed.incidents incident = .ok (c.incidentId, row) := by
  simp only [RetainedState.createdContact, createReporterContact, bind_ok, pure_ok] at h
  obtain ⟨⟨i, row⟩, hi, values, hvalues, rfl⟩ := h
  exact ⟨buildContact_opens hvalues _ _ _ _ _, rfl, row, hi⟩

theorem updatedContact_spec {id : Id} {c : StoredContact} (h : s.updatedContact env op fields id = .ok c) :
    c.Opens env.pii ∧ c.anonymizedAt = none ∧
      ∃ r, s.db.reports.get id = some r ∧ c.incidentId = r.incidentId := by
  simp only [RetainedState.updatedContact, updateReporterContact, bind_ok, pure_ok] at h
  obtain ⟨r, hr, _, -, _, -, _, -, _, -, _, -, values, hvalues, rfl⟩ := h
  exact ⟨buildContact_opens hvalues _ _ _ _ _, rfl, r, (getReport_some hr).1, rfl⟩

theorem newContact_spec {c : StoredContact} (h : s.newContact env op fields = some (.ok c)) :
    c.Opens env.pii ∧ c.anonymizedAt = none := by
  unfold RetainedState.newContact at h
  split at h
  · obtain ⟨hopens, hlive, -⟩ := createdContact_spec (Option.some.inj h)
    exact ⟨hopens, hlive⟩
  · split_ifs at h
    obtain ⟨hopens, hlive, -⟩ := updatedContact_spec (Option.some.inj h)
    exact ⟨hopens, hlive⟩
  · cases h

/-- A report that is posted comes with a new contact. -/
theorem newContact_posted {incident : Ref} {payload : ReportCreate} {refinement : Result (Option Priority)}
    {contact : Result Unit}
    (h : (s.resolve env op fields).call = .postReport incident payload refinement contact) :
    s.newContact env op fields = some (s.createdContact env op fields incident) := by
  unfold RetainedState.resolve at h
  unfold RetainedState.newContact
  dsimp only at h
  split at h
  · cases h
    rfl
  · exact nomatch h
  · next hpost _ => exact absurd h (hpost _ _ _ _)

/-- So does one whose contact is edited. -/
theorem newContact_patched {id : Id} {payload : ReportPatch} {refinement : Result (Option Priority)}
    (h : (s.resolve env op fields).call = .patchReport id payload refinement) :
    s.newContact env op fields =
      if payload.reporter.join.isSome then some (s.updatedContact env op fields id) else none := by
  unfold RetainedState.resolve at h
  unfold RetainedState.newContact
  dsimp only at h
  split at h
  · exact nomatch h
  · next id' payload' _ _ =>
    cases h
    have hjoin : (payload'.reporter.map fun f => f.map fun _ =>
        s.updatedContact env op fields id >>= fun _ => pure ()).join.isSome =
          payload'.reporter.join.isSome := by
      rcases payload'.reporter with _ | _ | _ <;> rfl
    dsimp only
    rw [hjoin]
  · next hpatch => exact absurd h (hpatch _ _ _)

theorem postReport_contact {env : Env} {now : Time} {db : Db} {actor : Actor} {header : Option Ref}
    {incident : Ref} {payload : ReportCreate} {refinement : Result (Option Priority)} {contact : Result Unit}
    {r : Db × Option Detection}
    (h : postReport env now db actor header incident payload refinement contact = .ok r) :
    contact = .ok () := by
  simp only [postReport, createReport, bind_ok] at h
  obtain ⟨_, -, _, -, _, ⟨_, -, _, -, _, hcontact, -⟩, -⟩ := h
  exact hcontact

theorem patchReport_reporter {env : Env} {now : Time} {db : Db} {actor : Actor} {header : Option Ref}
    {id : Id} {payload : ReportPatch} {refinement : Result (Option Priority)} {r : Db × Option Detection}
    (h : patchReport env now db actor header id payload refinement = .ok r) :
    payload.checkReporter = .ok () := by
  simp only [patchReport, bind_ok] at h
  obtain ⟨_, -, _, -, _, -, _, -, _, -, _, hreporter, -⟩ := h
  exact hreporter

/-- The contact of an operation that goes through has been made. -/
theorem newContact_ok {o : Outcome} {x : Result StoredContact}
    (h : transact env.toEnv { s.db with contacts := s.owners } (s.resolve env op fields) = .ok o)
    (hx : s.newContact env op fields = some x) : ∃ c, x = .ok c := by
  unfold RetainedState.newContact at hx
  split at hx
  · next incident payload refinement contact hcall =>
    have hresolved : (s.resolve env op fields).call = .postReport incident payload refinement
        (s.createdContact env op fields incident >>= fun _ => pure ()) := by
      rw [RetainedState.resolve, hcall]
    simp only [transact, handle, hresolved, map_ok] at h
    obtain ⟨r, hr, -⟩ := h
    obtain ⟨c, hc, -⟩ := bind_ok.mp (postReport_contact hr)
    exact ⟨c, (Option.some.inj hx).symm.trans hc⟩
  · next report payload refinement hcall =>
    split_ifs at hx with hsent
    have hresolved : (s.resolve env op fields).call = .patchReport report
        { payload with
          reporter := payload.reporter.map fun f => f.map fun _ =>
            s.updatedContact env op fields report >>= fun _ => pure () } refinement := by
      rw [RetainedState.resolve, hcall]
    simp only [transact, handle, hresolved, map_ok] at h
    obtain ⟨r, hr, -⟩ := h
    have hreporter := patchReport_reporter hr
    obtain ⟨outcome, hjoin⟩ := Option.isSome_iff_exists.mp hsent
    have houtcome : payload.reporter = some (some outcome) := Option.join_eq_some_iff.mp hjoin
    rw [ReportPatch.checkReporter, houtcome] at hreporter
    obtain ⟨c, hc, -⟩ := bind_ok.mp hreporter
    exact ⟨c, (Option.some.inj hx).symm.trans hc⟩
  · cases hx

theorem operate_cases :
    s.operate env op fields = s ∨
      ∃ o, transact env.toEnv { s.db with contacts := s.owners } (s.resolve env op fields) = .ok o ∧
        ((s.newContact env op fields = none ∧ s.operate env op fields = { s with db := o.db }) ∨
          ∃ c, s.newContact env op fields = some (.ok c) ∧
            s.operate env op fields = { s.addContact op.now c with db := o.db }) := by
  unfold RetainedState.operate
  split
  · exact Or.inl rfl
  · next o ho =>
    refine Or.inr ⟨o, ho, ?_⟩
    cases hnew : s.newContact env op fields with
    | none => exact Or.inl ⟨rfl, rfl⟩
    | some x =>
      obtain ⟨c, rfl⟩ := newContact_ok ho hnew
      exact Or.inr ⟨c, rfl, rfl⟩

theorem owners_size : s.owners.size = s.contacts.size := by
  simp [RetainedState.owners, Table.size]

/-- The reports of an operation are linked, whatever table has the old contacts and the new one. -/
theorem transact_linked {contacts : Table StoredContact} {o : Outcome}
    (h : transact env.toEnv { s.db with contacts := s.owners } (s.resolve env op fields) = .ok o)
    (hlinked : s.db.reports.All fun _ r => r.deletedAt = none → r.LinkedTo s.contacts)
    (hkeeps : ∀ i c, s.contacts.get i = some c → contacts.get i = some c)
    (hnew : ∀ x, s.newContact env op fields = some x →
      ∃ c, x = .ok c ∧ contacts.get s.contacts.size = some c) :
    o.db.reports.All fun _ r => r.deletedAt = none → r.LinkedTo contacts := by
  have hold : s.db.reports.All fun _ r => r.deletedAt = none → r.LinkedTo contacts := by
    intro i r hr hlive
    exact (hlinked i r hr hlive).mono hkeeps
  cases handle_reportChange h with
  | kept hreports _ =>
    rw [hreports]
    exact hold
  | @posted incident payload _ _ i row' ai a b _ hcall hi _ ha hb hreports _ =>
    obtain ⟨c, hc, hget⟩ := hnew _ (newContact_posted hcall)
    obtain ⟨-, hplain, row, hrow⟩ := createdContact_spec hc
    have hlife := (applyLocation_sameLife ha).trans (bindAttachments_sameLife hb)
    have hcontact := (bindAttachments_contact hb).trans (applyLocation_contact ha)
    rw [hreports]
    apply Table.All.insert hold
    intro _
    refine ⟨s.contacts.size, c, ?_, hget, ?_, hplain⟩
    · rw [hcontact]
      exact congrArg some owners_size
    · have hincident : c.incidentId = i := congrArg Prod.fst (Except.ok.inj (hrow.symm.trans hi))
      rw [hincident, hlife.incident]
      rfl
  | @patched id payload _ r a b _ ai hcall hr ha hb _ hrevised =>
    obtain ⟨hget, hlive⟩ := openReport_some hr
    have hlife := (applyTo_sameLife ha).trans (rebind_sameLife hb)
    have hcontact := (rebind_contact hb).trans (applyTo_contact ha)
    rw [hrevised.reports]
    apply Table.All.modify hold
    intro r' hr' hr'linked _
    obtain rfl := Option.some.inj (hget.symm.trans hr')
    have hpatched := newContact_patched hcall
    cases hsent : payload.reporter.join with
    | none =>
      have hstored : b.reporterContactId = r.reporterContactId := by
        rw [hcontact, ReportPatch.contactId]
        split
        · next x hx =>
          rw [hx] at hsent
          cases hsent
        · rfl
      exact (hr'linked hlive).same hstored hlife.incident
    | some x =>
      rw [hsent, Option.isSome_some, if_pos rfl] at hpatched
      obtain ⟨c, hc, hcget⟩ := hnew _ hpatched
      obtain ⟨-, hplain, r', hr', hincident⟩ := updatedContact_spec hc
      obtain rfl := Option.some.inj (hget.symm.trans hr')
      refine ⟨s.contacts.size, c, ?_, hcget, hincident.trans hlife.incident.symm, hplain⟩
      have hreporter : payload.reporter = some (some x) := Option.join_eq_some_iff.mp hsent
      show b.reporterContactId = _
      rw [hcontact, ReportPatch.contactId, hreporter]
      exact congrArg some owners_size
  | deleted _ hrevised =>
    rw [hrevised.reports]
    apply Table.All.modify hold
    intro _ _ _ hlive
    exact nomatch hlive
  | moved _ hrevised =>
    rw [hrevised.reports]
    apply Table.All.modify hold
    intro r' hr' hr'linked hlive
    obtain rfl := Option.some.inj (hrevised.stored.symm.trans hr')
    exact (hr'linked hlive).same rfl rfl
  | ranked _ _ _ hrevised =>
    rw [hrevised.reports]
    apply Table.All.modify hold
    intro r' hr' hr'linked hlive
    obtain rfl := Option.some.inj (hrevised.stored.symm.trans hr')
    exact (hr'linked hlive).same rfl rfl

theorem RetainedState.Readable.operate (h : s.Readable env) (op : Op) (fields : ReporterFields) :
    (s.operate env op fields).Readable env := by
  rcases @operate_cases env s op fields with
    heq | ⟨o, ho, ⟨hnone, heq⟩ | ⟨c, hnew, heq⟩⟩ <;> rw [heq]
  · exact h
  · refine ⟨h.opens, transact_linked ho h.linked (fun _ _ hc => hc) ?_⟩
    intro x hx
    rw [hnone] at hx
    cases hx
  · obtain ⟨hopens, hlive⟩ := newContact_spec hnew
    constructor
    · exact h.opens.insert fun _ => hopens
    · apply transact_linked ho h.linked
      · intro i c' hc'
        exact Table.get_insert_of_some c hc'
      · intro x hx
        exact ⟨c, Option.some.inj (hx.symm.trans hnew), Table.get_insert_size _ c⟩

end Operations

/-! ## Passes -/

section Passes
variable {env : RetentionEnv} {s : RetainedState} {now stamped : Time} {rest : Db}

theorem flushed_anonymizeReport_deleted (r : Report) :
    (flushed (fun r => { r with updatedAt := stamped }) r (anonymizeReport now r)).deletedAt.isSome = true := by
  have hnew : (anonymizeReport now r).deletedAt.isSome = true := rfl
  unfold flushed
  split_ifs with hsame
  · rwa [hsame] at hnew
  · exact hnew

/-- A report that is not deleted after the pass is one the pass has left alone. -/
theorem foldl_anonymizeReports_live {ids : List Id} {reports : Table Report} {i : Id} {r : Report}
    (h : (ids.foldl (anonymizeReports now stamped) reports).get i = some r) (hlive : r.deletedAt = none) :
    reports.get i = some r ∧ r.incidentId ∉ ids := by
  induction ids generalizing reports with
  | nil => exact ⟨h, List.not_mem_nil⟩
  | cons id ids ih =>
    obtain ⟨hget, hmem⟩ := ih h
    rw [anonymizeReports, Table.get_sweep] at hget
    obtain ⟨r', hr', heq⟩ := Option.map_eq_some_iff.mp hget
    split_ifs at heq with hid
    · have hdeleted := @flushed_anonymizeReport_deleted now stamped r'
      rw [heq, hlive] at hdeleted
      exact nomatch hdeleted
    · subst heq
      refine ⟨hr', ?_⟩
      rw [List.mem_cons, not_or]
      exact ⟨hid, hmem⟩

theorem cleanup_kept {i : Id} {c : StoredContact} (hget : s.contacts.get i = some c) (hdue : ¬ c.IsDue now)
    (hexpired : c.incidentId ∉ s.expired env now) :
    (cleanupRetentionOnce env s now stamped rest).contacts.get i = some c := by
  rw [cleanup_get, hget, Option.map_some, Option.map_some, if_neg hdue, if_neg fun h => hexpired h.1]

/-- So is a contact that is not anonymised after it. -/
theorem cleanup_live {i : Id} {c : StoredContact}
    (h : (cleanupRetentionOnce env s now stamped rest).contacts.get i = some c)
    (hlive : c.anonymizedAt = none) : s.contacts.get i = some c := by
  rw [cleanup_get, Option.map_map] at h
  obtain ⟨c', hget, heq⟩ := Option.map_eq_some_iff.mp h
  rw [Function.comp_apply] at heq
  split_ifs at heq with hdue hexpired hexpired
  · have hdone := @anonymizeReporterContact_anonymized now env.contactDigest i
      (anonymizeReporterContact now env.contactDigest i c')
    rw [heq, hlive] at hdone
    exact nomatch hdone
  · have hdone := @anonymizeReporterContact_anonymized now env.contactDigest i c'
    rw [heq, hlive] at hdone
    exact nomatch hdone
  · have hdone := @anonymizeReporterContact_anonymized now env.contactDigest i c'
    rw [heq, hlive] at hdone
    exact nomatch hdone
  · rw [hget, heq]

theorem RetainedState.Readable.cleanup (h : s.Readable env)
    (hspares : s.Spares env (.cleanup now stamped rest)) :
    (cleanupRetentionOnce env s now stamped rest).Readable env := by
  constructor
  · intro i c hc hlive
    exact h.opens i c (cleanup_live hc hlive) hlive
  · intro id r hr hlive
    obtain ⟨hget, hexpired⟩ := foldl_anonymizeReports_live hr hlive
    obtain ⟨i, c, hid, hc, hincident, hplain⟩ := h.linked id r hget hlive
    have hdue : ¬ c.IsDue now := by
      apply hspares id r hget hlive hexpired
      rw [reportContact, hid]
      exact hc
    refine ⟨i, c, hid, cleanup_kept hc hdue ?_, hincident, hplain⟩
    rw [hincident]
    exact hexpired

theorem RetainedState.Readable.hold (h : s.Readable env) (contact : Id) (held : Bool) :
    ({ s with contacts := s.contacts.modify contact fun c => { c with legalHold := held } } :
      RetainedState).Readable env := by
  constructor
  · apply h.opens.modify
    intro c _ hopens hlive
    exact hopens hlive
  · intro id r hr hlive
    obtain ⟨i, c, hid, hget, hincident, hplain⟩ := h.linked id r hr hlive
    by_cases hi : contact = i
    · refine ⟨i, { c with legalHold := held }, hid, ?_, hincident, hplain⟩
      rw [hi, Table.get_modify_self, hget]
      rfl
    · exact ⟨i, c, hid, (Table.get_modify_of_ne _ _ hi).trans hget, hincident, hplain⟩

theorem retainedStep_readable (h : s.Readable env) (step : RetainedStep) (hspares : s.Spares env step) :
    (retainedStep env s step).Readable env := by
  cases step with
  | op op fields => exact h.operate op fields
  | patchIncident now actor header incident patch =>
    apply commit_induction (P := fun t : RetainedState => t.Readable env) h
    intro t ht
    simp only [patchIncident, bind_ok, pure_ok] at ht
    obtain ⟨_, -, _, -, _, -, _, -, _, -, _, -, rfl⟩ := ht
    exact ⟨h.opens, h.linked⟩
  | hold contact held => exact h.hold contact held
  | cleanup now stamped rest => exact h.cleanup hspares

/-- The placeholder is no ciphertext. -/
theorem plainContact_anonymized {lib : PiiLib} {digest : Id → String} (i : Id) {c : StoredContact}
    (hlive : c.anonymizedAt = none) :
    plainContact lib (anonymizeReporterContact now digest i c) = .error internalError := by
  have hmarker : Storage.Base64.decode retentionMarker = none := by decide
  have hnot : ¬ c.anonymizedAt.isSome = true := by
    rw [hlive]
    exact Bool.false_ne_true
  rw [anonymizeReporterContact, if_neg hnot]
  simp only [plainContact, StoredContact.decryptField, decrypt, hmarker]
  rfl

theorem foldl_anonymizeReports_kept {ids : List Id} {reports : Table Report} {i : Id} {r : Report}
    (h : reports.get i = some r) (hid : r.incidentId ∉ ids) :
    (ids.foldl (anonymizeReports now stamped) reports).get i = some r := by
  induction ids generalizing reports with
  | nil => exact h
  | cons id ids ih =>
    rw [List.mem_cons, not_or] at hid
    apply ih _ hid.2
    rw [anonymizeReports, Table.get_sweep, h, Option.map_some, if_neg hid.1]

/-- A step is served exactly when it spares the contacts of the reports that stay. -/
theorem RetainedState.Readable.served_iff (h : s.Readable env) (step : RetainedStep) :
    (retainedStep env s step).Served env ↔ s.Spares env step := by
  constructor
  · intro hserved
    cases step with
    | cleanup now stamped rest =>
      intro id r hr hlive hexpired c hc hdue
      obtain ⟨i, c', hid, hget, hincident, hplain⟩ := h.linked id r hr hlive
      rw [reportContact, hid, Option.bind_some, hget] at hc
      obtain rfl := Option.some.inj hc
      have hafter : (cleanupRetentionOnce env s now stamped rest).contacts.get i =
          some (anonymizeReporterContact now env.contactDigest i c') := by
        rw [cleanup_get, hget, Option.map_some, Option.map_some, if_pos hdue, if_neg]
        rw [anonymizeReporterContact_incidentId, hincident]
        exact fun hmem => hexpired hmem.1
      have hreport := @foldl_anonymizeReports_kept now stamped _ _ _ _ hr hexpired
      have hcontact : (cleanupRetentionOnce env s now stamped rest).reportContact r =
          some (anonymizeReporterContact now env.contactDigest i c') := by
        rw [reportContact, hid]
        exact hafter
      obtain ⟨plain, hdecrypts⟩ := hserved.decrypts id r hreport hlive _ hcontact
      rw [plainContact_anonymized i hplain] at hdecrypts
      cases hdecrypts
    | _ => trivial
  · intro hspares
    exact (retainedStep_readable h step hspares).served

end Passes

end CrisisMosaic
