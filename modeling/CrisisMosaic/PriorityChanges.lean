import CrisisMosaic.Anonymization
import CrisisMosaic.GrantedRefinements
import CrisisMosaic.StoredPriorities

/-!
# Changing the priority of a report

The handler validates the refinement of the report once more, with the operator who asks for the
change in the place of the device that uploaded the attachments.
-/

namespace CrisisMosaic
open Relational

/-! ## What a validation leaves to be said -/

/-- The identity of a report in a request context is well formed, or null. -/
def NamesReport (request : Dict) : Prop :=
  ((request.get "report_id").filter fun v => decide (v ≠ .null)) =
      (request.get "report_id").filter (·.asRef.isSome) ∧
    ((request.get "report_revision").filter fun v => decide (v ≠ .null)) =
      (request.get "report_revision").filter fun v => (Questions.number v).isSome

/-- A refinement that has been validated for these texts. -/
structure AiAnalysis.Matches (env : Env) (a : AiAnalysis) (incidentId : Id) (category : Category)
    (content locationText : String) : Prop where
  usable : a.analysisType = .reportRefinement ∧ a.incidentId = incidentId ∧ a.status = .succeeded ∧
    a.isStale = false
  intact : a.isLegacyTextRefinement [] = true ∨
    a.contextSha256 = some (env.canonicalSha256 (.obj a.context))
  texts : ∃ report, (a.context.get "report").bind Json.asDict = some report ∧
    report.get "category" = some (.str category.text) ∧
    (report.get "content" = some (.str content) ∨
      (a.output.bind fun o : Dict => o.get "refined_content") = some (.str content)) ∧
    report.get "location_text" = some (.str locationText)
  names : ∃ request, (a.context.get "request_context").bind Json.asDict = some request ∧
    NamesReport request

section Validation
variable {env : Env} {t : RefinementTables} {actor : Actor} {i incidentId : Id} {category : Category}
  {content locationText : String} {ids : List Id} {use : RefinementUse} {a : AiAnalysis}

theorem isLegacyTextRefinement_nil (h : a.isLegacyTextRefinement ids = true) :
    a.isLegacyTextRefinement [] = true := by
  unfold AiAnalysis.isLegacyTextRefinement at h ⊢
  simp only [Bool.and_eq_true, List.isEmpty_nil] at h ⊢
  obtain ⟨⟨⟨⟨⟨hversion, hsha⟩, hpackage⟩, -⟩, hattachments⟩, hrequest⟩ := h
  exact ⟨⟨⟨⟨⟨hversion, hsha⟩, hpackage⟩, trivial⟩, hattachments⟩, hrequest⟩

/-- A value that is of the form a filter asks for, where another filter takes more. -/
theorem filter_eq_of_map {α β : Type} {p q : α → Bool} {v : Option α} {o : Option β} {f : β → α}
    (h : v.filter p = o.map f) (hform : ∀ b, q (f b) = true) (hsub : ∀ a, q a = true → p a = true) :
    v.filter p = v.filter q := by
  cases v with
  | none => rfl
  | some a =>
    by_cases hp : p a = true
    · rw [Option.filter_some_pos hp] at h ⊢
      obtain ⟨b, -, rfl⟩ := Option.map_eq_some_iff.mp h.symm
      exact (Option.filter_some_pos (hform b)).symm
    · rw [Option.filter_some_eq_none.mpr hp,
        Option.filter_some_eq_none.mpr fun hq => hp (hsub a hq)]

theorem checkedRefinement_matches
    (h : checkedRefinement env t actor i incidentId category content locationText ids use = .ok a) :
    t.refinements.get i = some a ∧ a.Matches env incidentId category content locationText := by
  simp only [checkedRefinement, bind_ok, found_ok, require_ok, pure_ok] at h
  obtain ⟨_, hget, -, husable, -, -, -, hintact, -, -, report, hreport, request, hrequest, -,
    ⟨hcategory, hcontent, hlocation, -, hid, hrevision⟩, rfl⟩ := h
  refine ⟨hget, husable, hintact.imp_left isLegacyTextRefinement_nil,
    ⟨report, hreport, hcategory, hcontent, hlocation⟩, request, hrequest, ?_⟩
  by_cases hstored : use.useStoredReportContext = true
  · rw [if_pos hstored] at hid hrevision
    exact ⟨hid, hrevision⟩
  · rw [if_neg hstored] at hid hrevision
    exact ⟨filter_eq_of_map hid (fun _ => rfl) fun v hv => by cases v <;> simp_all [Json.asRef],
      filter_eq_of_map hrevision (fun _ => rfl) fun v hv => by
        cases v <;> simp_all [Questions.number]⟩

theorem loadOwnAttachments_account {attachments : Table Attachment} {bound : Option Id}
    (haccount : actor.subjectType = .account) :
    loadOwnAttachments attachments incidentId actor bound ids = .ok () ↔ ids = [] := by
  rw [loadOwnAttachments, haccount]
  dsimp only
  rw [loadAttachments_iff]
  cases ids with
  | nil => simp
  | cons id ids =>
    refine iff_of_false (fun h => ?_) nofun
    have hany := h id List.mem_cons_self
    cases hget : attachments.get id <;> simp [hget] at hany

theorem sortedEntries_eq_nil {items : List Dict} : sortedEntries items = [] ↔ items = [] := by
  rw [← List.length_eq_zero_iff, sortedEntries, List.length_insertionSort, List.length_eq_zero_iff]

/-- An account passes the validation of a report exactly when there are no attachments. -/
theorem checkedRefinement_account_iff (haccount : actor.subjectType = .account)
    (hrole : actor.isResident = false) (hget : t.refinements.get i = some a)
    (hmatches : a.Matches env incidentId category content locationText) (bound : Option Id) :
    (∃ b, checkedRefinement env t actor i incidentId category content locationText ids
        { boundReportId := bound, useStoredReportContext := true } = .ok b) ↔
      ids = [] ∧ Json.items (a.context.get "attachments") = [] := by
  obtain ⟨report, hreport, hcategory, hcontent, hlocation⟩ := hmatches.texts
  obtain ⟨request, hrequest, hnames⟩ := hmatches.names
  simp only [checkedRefinement, bind_ok, found_ok, require_ok, pure_ok]
  constructor
  · rintro ⟨_, row, hrow, _, _, _, _, _, _, _, hload, _, _, _, _, _, ⟨-, -, -, hentries, -⟩, -⟩
    obtain rfl := Option.some.inj (hget.symm.trans hrow)
    obtain rfl := (loadOwnAttachments_account haccount).mp hload
    refine ⟨rfl, ?_⟩
    have hnone : sortedEntries ((Json.items (a.context.get "attachments")).map comparedEntry) = [] :=
      hentries
    rwa [sortedEntries_eq_nil, List.map_eq_nil_iff] at hnone
  · rintro ⟨rfl, hitems⟩
    refine ⟨a, a, hget, (), hmatches.usable, (), ?_, (), hmatches.intact, (),
      (loadOwnAttachments_account haccount).mpr rfl, report, hreport, request, hrequest, (), ?_, rfl⟩
    · rw [hrole]
      exact fun h => Bool.false_ne_true h.1
    · rw [hitems]
      exact ⟨hcategory, hcontent, hlocation, rfl, hnames.1, hnames.2⟩

end Validation

/-! ## The reports and their refinements -/

/-- The refinement that the report names has been validated for what the report is. -/
def Report.Refined (env : Env) (refinements : Table AiAnalysis) (r : Report) : Prop :=
  ∀ i ∈ r.aiRefinementId, ∃ a, refinements.get i = some a ∧
    a.Matches env r.incidentId r.category r.contentOriginal r.place.locationText

/-- What a refinement is validated for, and the name of the refinement, are the same. -/
structure Report.SameSubject (r r' : Report) : Prop where
  incidentId : r'.incidentId = r.incidentId
  category : r'.category = r.category
  contentOriginal : r'.contentOriginal = r.contentOriginal
  locationText : r'.place.locationText = r.place.locationText
  aiRefinementId : r'.aiRefinementId = r.aiRefinementId

section Subjects
variable {env : Env} {refinements refinements' : Table AiAnalysis} {r r' : Report}

theorem Report.SameSubject.refined (h : r.SameSubject r') (hr : r.Refined env refinements) :
    r'.Refined env refinements := by
  unfold Report.Refined
  rw [h.aiRefinementId, h.incidentId, h.category, h.contentOriginal, h.locationText]
  exact hr

/-- Rows that have succeeded are all that is looked at. -/
theorem Report.Refined.kept (hr : r.Refined env refinements)
    (hkept : ∀ i a, refinements.get i = some a → a.status = .succeeded →
      a.incidentId = r.incidentId → refinements'.get i = some a) : r.Refined env refinements' := by
  intro i hi
  obtain ⟨a, ha, hmatches⟩ := hr i hi
  obtain ⟨-, hincident, hsucceeded, -⟩ := hmatches.usable
  exact ⟨a, hkept i a ha hsucceeded hincident, hmatches⟩

theorem applyLocation_sameSubject {now : Time} {location : ReportLocation}
    (h : applyLocation env now location r = .ok r') (htext : location.text = r.place.locationText) :
    r.SameSubject r' := by
  simp only [applyLocation, bind_ok] at h
  obtain ⟨-, -, h⟩ := h
  split at h
  · simp only [bind_ok, pure_ok, Prod.exists] at h
    obtain ⟨_, _, -, rfl⟩ := h
    exact ⟨rfl, rfl, rfl, htext, rfl⟩
  · rw [pure_ok] at h
    exact h ▸ ⟨rfl, rfl, rfl, htext, rfl⟩

theorem bindAttachments_sameSubject {attachments attachments' : Table Attachment} {id : Id}
    {ids : List Id} (h : bindAttachments attachments id r ids = .ok (attachments', r')) :
    r.SameSubject r' := by
  simp only [bindAttachments, bind_ok, pure_ok, Prod.mk.injEq] at h
  obtain ⟨-, -, -, rfl⟩ := h
  exact ⟨rfl, rfl, rfl, rfl, rfl⟩

theorem Db.Revised.subjectStep {db db' : Db} {now : Time} {actor : Actor} {id : Id} {tombstone : Dict}
    (h : db.Revised db' now actor id r r' tombstone) (hsame : r.SameSubject r') :
    RankStep (·.Refined env refinements) db db' := .revised h.stored hsame.refined h.reports

theorem refinedPriority_finds {analysisId : Option Id} {check : Id → Result AiAnalysis}
    {found : Id → Prop} {p : Option Priority} (hcheck : ∀ i a, check i = .ok a → found i)
    (h : validateReportRefinement analysisId (refinedPriority analysisId check) = .ok p) :
    ∀ i ∈ analysisId, found i := by
  rintro i rfl
  obtain ⟨a, ha, -⟩ := bind_ok.mp h
  exact hcheck i a ha

end Subjects

namespace RefinedState
variable {env : Env} {s : RefinedState}

theorem handle_refined {op : Op} {o : Outcome}
    (h : handle env s.db.begin (s.resolve env op) = .ok o) :
    RankStep (·.Refined env s.refinements) s.db.begin o.db := by
  cases handle_reportChange h with
  | kept hreports _ => exact .kept hreports
  | @posted incident payload _ _ i row ai _ _ _ hcall hi hai ha hb hreports _ =>
    obtain rfl := resolve_postReport hcall
    have hincident : getIncident s.db.feed.incidents incident = .ok (i, row) := hi
    have hnew : (newReport op.now i s.db.contacts.size op.actor payload ai).Refined env
        s.refinements := by
      simp only [createRefinement, hincident, bind, Except.bind] at hai
      exact refinedPriority_finds (fun _ a hcheck => ⟨a, checkedRefinement_matches hcheck⟩) hai
    exact .created ((bindAttachments_sameSubject hb).refined
      ((applyLocation_sameSubject ha rfl).refined hnew)) hreports
  | @patched id payload _ r a b attachments ai hcall hr ha hb hai hrevised =>
    obtain rfl := resolve_patchReport hcall
    have hrefined : ((b.prioritise b.manualPriority ai).touch op.now).Refined env s.refinements := by
      have hr' : openReport s.db op.actor op.header id payload.revision = .ok r := hr
      have ha' : payload.applyTo env op.now s.db.contacts.size r = .ok a := ha
      have hb' : payload.rebind s.db.attachments id a = .ok (attachments, b) := hb
      simp only [patchRefinement, hr', ha', hb', bind, Except.bind] at hai
      exact refinedPriority_finds (fun _ a hcheck => ⟨a, checkedRefinement_matches hcheck⟩) hai
    exact .revised hrevised.stored (fun _ => hrefined) hrevised.reports
  | deleted _ hrevised => exact hrevised.subjectStep ⟨rfl, rfl, rfl, rfl, rfl⟩
  | moved _ hrevised => exact hrevised.subjectStep ⟨rfl, rfl, rfl, rfl, rfl⟩
  | ranked _ _ _ hrevised => exact hrevised.subjectStep ⟨rfl, rfl, rfl, rfl, rfl⟩

/-- The retention pass over one incident; the rows of the other tables become those of `rest`. -/
def retain (env : Env) (s : RefinedState) (now stamped : Time) (incidentId : Id) (rest : Db) :
    RefinedState :=
  { s with
    db := { rest with reports := anonymizeReports now stamped s.db.reports incidentId }
    refinements := s.refinements.sweep fun a =>
      if a.incidentId = incidentId && !isRetentionExpired a.inputSnapshot then markAnalysis env now a
      else a }

end RefinedState

inductive RankedStep
  | service (step : RefinedStep)
  | retention (now stamped : Time) (incident : Id) (rest : Db)

def rankedStep (env : RefinementEnv) (s : RefinedState) : RankedStep → RefinedState
  | .service step => refinedStep env s step
  | .retention now stamped incident rest => s.retain env.toEnv now stamped incident rest

abbrev rankedRun (env : RefinementEnv) (s : RefinedState) (steps : List RankedStep) : RefinedState :=
  run (rankedStep env) s steps

namespace RefinedState

structure Consistent (env : Env) (s : RefinedState) : Prop extends s.Awaiting where
  reports : s.db.reports.All fun _ r => r.Refined env s.refinements

section Steps
variable {env : RefinementEnv} {s : RefinedState}

theorem Consistent.service (h : s.Consistent env.toEnv) (x : RefinedStep) :
    (refinedStep env s x).Consistent env.toEnv := by
  refine ⟨h.toAwaiting.step x, ?_⟩
  have hreports := @refinedStep_reports env _ _ h.reports x fun op o ho => handle_refined ho
  intro i r hr
  exact (hreports i r hr).kept fun j a ha hsucceeded _ => h.toAwaiting.answered_kept x ha hsucceeded

theorem anonymized_aiRefinementId (now stamped : Time) (r : Report) :
    (flushed (fun r => { r with updatedAt := stamped }) r (anonymizeReport now r)).aiRefinementId =
      none := by
  unfold flushed
  split_ifs with hsame
  · exact (congrArg Report.aiRefinementId hsame).symm
  · rfl

/-- The reports of the incident name no refinement any more, those of the others keep theirs. -/
theorem Consistent.retain (h : s.Consistent env.toEnv) (now stamped : Time) (incidentId : Id)
    (rest : Db) : (s.retain env.toEnv now stamped incidentId rest).Consistent env.toEnv := by
  refine ⟨⟨?_, ?_⟩, ?_⟩
  · intro i request hi a ha
    simp only [RefinedState.retain, Table.get_sweep, Option.map_eq_some_iff] at ha
    obtain ⟨b, hb, rfl⟩ := ha
    have hrunning := h.running i request hi b hb
    split_ifs
    · exact hrunning
    · exact hrunning
  · simp only [RefinedState.retain, Table.size_sweep]
    exact h.aligned
  · intro i r' hr'
    simp only [RefinedState.retain, anonymizeReports, Table.get_sweep, Option.map_eq_some_iff] at hr'
    obtain ⟨r, hr, rfl⟩ := hr'
    by_cases hincident : r.incidentId = incidentId
    · rw [if_pos hincident]
      intro j hj
      rw [anonymized_aiRefinementId] at hj
      cases hj
    · rw [if_neg hincident]
      refine (h.reports i r hr).kept fun j a ha _ hsame => ?_
      simp only [RefinedState.retain, Table.get_sweep, ha, Option.map_some, hsame, hincident,
        decide_false, Bool.false_and, Bool.false_eq_true, if_false]

theorem Consistent.step (h : s.Consistent env.toEnv) (x : RankedStep) :
    (rankedStep env s x).Consistent env.toEnv := by
  cases x with
  | service step => exact h.service step
  | retention now stamped incident rest => exact h.retain now stamped incident rest

theorem rankedRun_consistent (env : RefinementEnv) (incidents : Table Incident)
    (devices : Table AnonymousDevice) (attachments : Table Attachment) (uploads : Table Upload)
    (steps : List RankedStep) :
    (rankedRun env (.initial (.initial incidents devices attachments) uploads) steps).Consistent
      env.toEnv := by
  have hinitial : (RefinedState.initial (.initial incidents devices attachments) uploads).Consistent
      env.toEnv := ⟨⟨fun _ _ h => (nomatch h), rfl⟩, fun _ _ h => (nomatch h)⟩
  exact run_invariant (rankedStep env) (C := fun _ _ => True) (fun _ x h _ => h.step x) hinitial
    (along_true _ _ _)

end Steps

/-- The report has no attachments, and its refinement was made for none. -/
def WithoutAttachments (s : RefinedState) (id : Id) (r : Report) : Prop :=
  boundAttachmentIds s.db.attachments id = [] ∧ ∀ i a, r.aiRefinementId = some i →
    s.refinements.get i = some a → Json.items (a.context.get "attachments") = []

end RefinedState

section Changing
variable {env : Env} {s : RefinedState} {op : Op} {id revision : ℕ} {priority : Option Priority}
  {refinement : Result (Option Priority)} {r : Report}

/-- Past the checks of the request, only the validation of the refinement can refuse. -/
theorem priorityChange_ok_iff (hcall : op.call = .patchReportPriority id revision priority refinement)
    (hoperator : op.actor.isOperator = true)
    (hopen : openReport s.db op.actor op.header id revision = .ok r)
    (hallowed : r.isUrgent = true → priority = none ∨ priority = some .high) :
    (∃ o, transact env s.db (s.resolve env op) = .ok o) ↔
      ∃ ai, validateReportRefinement r.aiRefinementId (priorityRefinement env s op id revision) =
        .ok ai := by
  have hopen' : openReport s.db.begin op.actor op.header id revision = .ok r := hopen
  have hurgent : ¬ (r.isUrgent = true ∧ priority ≠ none ∧ priority ≠ some .high) := by
    rintro ⟨hurgent, hnone, hhigh⟩
    exact (hallowed hurgent).elim hnone hhigh
  have hresolved : s.resolve env op = { op with
      call := .patchReportPriority id revision priority (priorityRefinement env s op id revision) } := by
    unfold RefinedState.resolve
    rw [hcall]
  rw [hresolved]
  simp only [transact, handle, map_ok, patchReportPriority, bind_ok, require_ok, hoperator, hopen',
    Except.ok.injEq, exists_eq_left', hurgent, not_false_eq_true, true_and, exists_const, pure_ok]
  constructor
  · rintro ⟨_, _, ⟨ai, hai, -⟩, -⟩
    exact ⟨ai, hai⟩
  · rintro ⟨ai, hai⟩
    exact ⟨_, _, ⟨ai, hai, rfl⟩, rfl⟩

theorem priorityChange_consistent_iff (hs : s.Consistent env)
    (hcall : op.call = .patchReportPriority id revision priority refinement)
    (hoperator : op.actor.isOperator = true) (haccount : op.actor.subjectType = .account)
    (hopen : openReport s.db op.actor op.header id revision = .ok r)
    (hallowed : r.isUrgent = true → priority = none ∨ priority = some .high) :
    (∃ o, transact env s.db (s.resolve env op) = .ok o) ↔
      r.aiRefinementId = none ∨ s.WithoutAttachments id r := by
  have hrole : op.actor.isResident = false := by
    cases hrole : op.actor.role <;> simp [Actor.isOperator, Actor.isResident, hrole] at hoperator ⊢
  rw [priorityChange_ok_iff hcall hoperator hopen hallowed]
  unfold validateReportRefinement RefinedState.WithoutAttachments
  cases hid : r.aiRefinementId with
  | none => simp
  | some i =>
    obtain ⟨a, ha, hmatches⟩ := hs.reports id r (openReport_stored hopen) i hid
    have hchecked := @checkedRefinement_account_iff env s.tables op.actor i _ _ _ _
      (boundAttachmentIds s.db.attachments id) a haccount hrole ha hmatches (some id)
    have hranked : (∃ ai, priorityRefinement env s op id revision = .ok ai) ↔
        ∃ b, checkedRefinement env s.tables op.actor i r.incidentId r.category r.contentOriginal
          r.place.locationText (boundAttachmentIds s.db.attachments id)
          { boundReportId := some id, useStoredReportContext := true } = .ok b := by
      simp only [priorityRefinement, hopen, hid, refinedPriority, bind, Except.bind]
      cases checkedRefinement env s.tables op.actor i r.incidentId r.category r.contentOriginal
          r.place.locationText (boundAttachmentIds s.db.attachments id)
          { boundReportId := some id, useStoredReportContext := true } with
      | error e => simp
      | ok b => simp [pure, Except.pure]
    rw [Option.isSome_some, if_pos rfl, hranked, hchecked]
    constructor
    · rintro ⟨hids, hitems⟩
      refine Or.inr ⟨hids, ?_⟩
      rintro _ b ⟨⟩ hb
      obtain rfl := Option.some.inj (ha.symm.trans hb)
      exact hitems
    · rintro (hnone | ⟨hids, hitems⟩)
      · cases hnone
      · exact ⟨hids, hitems i a rfl ha⟩

end Changing

/-- A priority that is open to be set is set exactly when there is no refinement to validate, or no
attachment to find in it. -/
theorem priority_change_succeeds_iff (env : RefinementEnv) (incidents : Table Incident)
    (devices : Table AnonymousDevice) (attachments : Table Attachment) (uploads : Table Upload)
    (steps : List RankedStep) {s : RefinedState}
    (hs : s = rankedRun env (.initial (.initial incidents devices attachments) uploads) steps)
    {op : Op} {id revision : ℕ} {priority : Option Priority} {refinement : Result (Option Priority)}
    {r : Report} (hcall : op.call = .patchReportPriority id revision priority refinement)
    (hoperator : op.actor.isOperator = true) (haccount : op.actor.subjectType = .account)
    (hopen : openReport s.db op.actor op.header id revision = .ok r)
    (hallowed : r.isUrgent = true → priority = none ∨ priority = some .high) :
    (∃ o, transact env.toEnv s.db (s.resolve env.toEnv op) = .ok o) ↔
      r.aiRefinementId = none ∨ s.WithoutAttachments id r := by
  subst hs
  exact priorityChange_consistent_iff (RefinedState.rankedRun_consistent ..) hcall hoperator haccount
    hopen hallowed

namespace Sample

def readyPhoto : Attachment :=
  { incidentId := 0
    reportId := none
    directedAnswerId := none
    uploaderDeviceId := 0
    metadataStatus := .ready
    malwareScanStatus := .clean
    mimeType := some "image/jpeg"
    sha256 := some ""
    perceptualHash := none
    sourceClusterId := none
    visionStatus := "disabled"
    visionSummary := none
    sanitizedPath := none
    width := none
    height := none
    createdAt := 0 }

def photoUpload : Upload :=
  { fileName := "p.jpg"
    declaredMimeType := "image/jpeg"
    mediaType := .image
    storageProvider := .localProxy
    objectKey := none
    etag := none
    sizeBytes := 1
    expectedSha256 := ""
    durationMs := none
    originalPath := none
    policySnapshot := none
    rejectionReason := none
    uploadExpiresAt := 0
    uploadedAt := none }

/-- A resident has a report refined and submits it, with these attachments. -/
def submitted (ids : List Id) (h : ids.Nodup) : List RankedStep :=
  [.service (.refine 0 resident none
      { refinementRequest "a" (by decide) with attachmentIds := ids, distinct := h } fun _ => []),
    .service (.answer 1 0 (.ok refinedText)),
    .service (.op ⟨2, resident, none, .postReport (.id 0)
      { waterReport with
        contentOriginal := "a"
        location := { waterReport.location with text := "b" }
        aiRefinementId := some 0
        attachmentIds := ids
        distinct := h } (.ok none) (.ok ())⟩)]

abbrev ranked (steps : List RankedStep) : RefinedState :=
  rankedRun refinementEnv (.initial (.initial ⟨[incident]⟩ ⟨[⟨none⟩, ⟨none⟩]⟩ ⟨[readyPhoto]⟩)
    ⟨[photoUpload]⟩) steps

abbrev plain : RefinedState := ranked (submitted [] List.nodup_nil)
abbrev pictured : RefinedState := ranked (submitted [0] (List.nodup_singleton 0))

/-- An admin gives the report high priority. -/
def raising : Op := ⟨3, admin, none, .patchReportPriority 0 1 (some .high) (.ok none)⟩

theorem plain_report_is_ranked :
    ∃ o, transact env plain.db (plain.resolve env raising) = .ok o := by
  have hopen : (openReport plain.db admin none 0 1).toOption.isSome = true := by decide +kernel
  cases hr : openReport plain.db admin none 0 1 with
  | error e =>
    rw [hr] at hopen
    cases hopen
  | ok r =>
    have hids : boundAttachmentIds plain.db.attachments 0 = [] := by decide +kernel
    refine (@priority_change_succeeds_iff refinementEnv ⟨[incident]⟩ ⟨[⟨none⟩, ⟨none⟩]⟩ ⟨[readyPhoto]⟩
      ⟨[photoUpload]⟩ (submitted [] List.nodup_nil) plain rfl raising 0 1 _ _ r rfl rfl rfl hr
      fun _ => .inr rfl).mpr (.inr ⟨hids, ?_⟩)
    intro i a _ ha
    have hitems : plain.refinements.rows.all
        (fun a : AiAnalysis => (Json.items (a.context.get "attachments")).isEmpty) = true := by
      decide +kernel
    exact List.isEmpty_iff.mp (List.all_eq_true.mp hitems a (List.mem_of_getElem? ha))

/-- A report with a refinement and a photo keeps its priority. -/
theorem report_with_photo_is_not_ranked :
    ¬ ∀ (steps : List RankedStep) (op : Op) (id revision : ℕ) (priority : Option Priority)
        (refinement : Result (Option Priority)) (r : Report),
      op.call = .patchReportPriority id revision priority refinement →
      op.actor.isOperator = true → op.actor.subjectType = .account →
      openReport (ranked steps).db op.actor op.header id revision = .ok r →
      (r.isUrgent = true → priority = none ∨ priority = some .high) →
      ∃ o, transact env (ranked steps).db ((ranked steps).resolve env op) = .ok o := by
  intro h
  have hopen : (openReport pictured.db admin none 0 1).toOption.isSome = true := by decide +kernel
  have hrefused : (transact env pictured.db (pictured.resolve env raising)).toOption.isNone =
      true := by decide +kernel
  cases hr : openReport pictured.db admin none 0 1 with
  | error e =>
    rw [hr] at hopen
    cases hopen
  | ok r =>
    obtain ⟨o, ho⟩ := h (submitted [0] (List.nodup_singleton 0)) raising 0 1 _ _ r rfl rfl rfl hr fun _ => .inr rfl
    rw [ho] at hrefused
    cases hrefused

end Sample
end CrisisMosaic
