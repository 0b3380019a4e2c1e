import CrisisMosaic.Effects
import CrisisMosaic.Ledger

/-!
# The ledger in every transaction

Each handler but the decision and the analyses is a sequence of moves of the
ledger, one lemma for each function that writes to it.
-/

namespace CrisisMosaic
open Relational

theorem findCandidate_incident {env : Env} {now : Time} {s : Store} {call : ConflictCall} {id : Id}
    {x : ConflictCase} (h : findCandidate env now s call = some id) (hx : s.cases.get id = some x) :
    x.incidentId = call.incidentId := by
  have hmem := List.mem_of_find?_eq_some h
  simp only [candidateCases, newestFirst, List.mem_insertionSort, Table.mem_select] at hmem
  obtain ⟨y, hy, hp⟩ := hmem
  obtain rfl : x = y := Option.some.inj (hx.symm.trans hy)
  simp only [Bool.and_eq_true, decide_eq_true_eq] at hp
  exact hp.1

/-- No fragment is lost or goes back to an earlier revision. -/
abbrev RevisionsGrow : Table InformationFragment → Table InformationFragment → Prop :=
  Table.Grows (·.revision)

namespace RevisionsGrow
variable {f g : Table InformationFragment}

theorem of_step (a : f.Evolves Store.FragmentStep g) : RevisionsGrow f g := fun _ _ hx =>
  let ⟨y, hy, hstep⟩ := a.get_some hx
  ⟨y, hy, hstep.1.revision⟩

theorem setStatus (now : Time) (status : FragmentStatus) (ids : List Id) :
    ∀ f : Table InformationFragment, RevisionsGrow f (setFragmentStatus now f status ids) := by
  induction ids with
  | nil => exact .refl
  | cons i ids ih =>
    intro f
    have hone : RevisionsGrow f (f.modify i fun x => { x with status := status, updatedAt := now }) :=
      .modify f fun _ _ => le_rfl
    exact hone.trans (ih _)

end RevisionsGrow

theorem latestRevision_mono {sources sources' : Sources} {f g : Table InformationFragment}
    (hf : RevisionsGrow f g) (hr : sources.reports.Grows (·.revision) sources'.reports)
    (ha : sources.answers.Grows (·.revision) sources'.answers) (kind : EvidenceKind) (id : Id) :
    latestRevision sources f kind id ≤ latestRevision sources' g kind id := by
  cases kind with
  | fragment => exact hf.elim_le id
  | report => exact hr.elim_le id
  | attachment => exact le_rfl
  | answer => exact ha.elim_le id

namespace Moves
variable {base : Ledger} {sources : Sources} {s t : Store} {env : Env} {now : Time}

section Writes

theorem emit (h : Moves base (s.ledger sources)) (now : Time) (incidentId : Id) (e : Event) :
    Moves base ((s.emit now incidentId e).ledger sources) :=
  h.briefs (s.feed.emitEvent_sameAnalyses now incidentId e)

theorem fragments (h : Moves base (s.ledger sources)) {fragments : Table InformationFragment}
    (hf : RevisionsGrow s.fragments fragments) :
    Moves base ({ s with fragments := fragments }.ledger sources) :=
  h.sources (latestRevision_mono hf (.refl _) (.refl _))

theorem addEvidence {c incidentId : Id} {references : List EvidenceReference} :
    ∀ {s : Store} {evidence : Table ConflictEvidence} {added : List Id},
      Moves base (s.ledger sources) →
      addEvidence env now sources s.fragments c incidentId references s.evidence
        = .ok (evidence, added) →
      Moves base ({ s with evidence := evidence }.ledger sources) := by
  induction references with
  | nil =>
    intro s evidence added h hadd
    obtain ⟨rfl, -⟩ := Prod.mk.inj (pure_ok.mp hadd)
    exact h
  | cons reference references ih =>
    intro s evidence added h hadd
    simp only [CrisisMosaic.addEvidence, bind_ok, pure_ok, Prod.exists, Prod.mk.injEq] at hadd
    obtain ⟨version, hv, rest, ids, hrest, rfl, -⟩ := hadd
    have hlatest := latestRevision_of_some (evidenceSnapshot_revision sources s.fragments hv)
    obtain ⟨mid, hmid⟩ : ∃ mid, mid =
        (citeSource env now s.evidence c reference.kind reference.sourceId version).1 := ⟨_, rfl⟩
    have hcited : Moves base ({ s with evidence := mid }.ledger sources) := by
      rw [hmid]
      exact h.cited hlatest.symm
    rw [← hmid] at hrest
    exact ih (s := { s with evidence := mid }) hcited hrest

theorem extendCase (h : Moves base (s.ledger sources)) {id incidentId : Id} {x : ConflictCase}
    (hx : s.cases.get id = some x) (hi : x.incidentId = incidentId) (now : Time) (reason : String) :
    Moves base ((extendCase now s id incidentId reason).ledger sources) := by
  subst hi
  exact h.extended hx rfl

theorem appendEvidence (h : Moves base (s.ledger sources)) {id : Id} {x : ConflictCase}
    (hx : s.cases.get id = some x) {references : List EvidenceReference} {reason : String}
    {added : List Id}
    (happ : appendEvidence env now sources s id x references reason = .ok (t, added)) :
    Moves base (t.ledger sources) := by
  simp only [CrisisMosaic.appendEvidence, bind_ok, pure_ok, Prod.exists, Prod.mk.injEq] at happ
  obtain ⟨evidence, ids, hadd, rfl, -⟩ := happ
  exact (h.addEvidence hadd).extendCase (s := { s with evidence := evidence }) hx rfl now reason

end Writes

section Detection

theorem reopenStructured (h : Moves base (s.ledger sources)) {id : Id} {x : ConflictCase}
    (hx : s.cases.get id = some x) (hr : x.status = .resolved) :
    Moves base ((reopenStructured now s id x).ledger sources) :=
  h.reopened hx hr

theorem openCase (h : Moves base (s.ledger sources)) (env : Env) (now : Time) (call : ConflictCall) :
    Moves base ((openCase env now s call).1.ledger sources) := by
  obtain ⟨-, ho⟩ | ⟨id, x, -, hx, ⟨hr, ho⟩ | ⟨-, ho⟩⟩ := openCase_cases env now s call
  · rw [ho]
    exact h.opened rfl
  · rw [ho]
    exact h.reopenStructured hx hr
  · rw [ho]
    exact h

theorem findOrOpen (h : Moves base (s.ledger sources)) {call : ConflictCall} {id : Id} {opened : Bool}
    (hcall : findOrOpenStructuredConflict env now sources s call = .ok (t, id, opened)) :
    Moves base (t.ledger sources) := by
  simp only [findOrOpenStructuredConflict, bind_ok, pure_ok, Prod.exists, Prod.mk.injEq] at hcall
  obtain ⟨evidence, added, hadd, rfl, -⟩ := hcall
  have hopen := h.openCase env now call
  have hadded := hopen.addEvidence hadd
  rcases openCase_cases env now s call with ⟨-, ho⟩ | ⟨c, x, hc, hx, ⟨-, ho⟩ | ⟨-, ho⟩⟩
  · simp only [ho, Bool.false_and, Bool.false_eq_true, if_false] at hadded ⊢
    exact hadded.fragments (.setStatus now _ _ _)
  · simp only [ho, Bool.not_true, Bool.and_false, Bool.false_eq_true, if_false] at hadded ⊢
    exact hadded.fragments (.setStatus now _ _ _)
  · simp only [ho, Bool.not_false, Bool.true_and, Bool.and_true] at hadded ⊢
    split_ifs
    · exact (hadded.extendCase hx (findCandidate_incident hc hx) now "evidence_updated").fragments
        (.setStatus now _ _ _)
    · exact hadded.fragments (.setStatus now _ _ _)

theorem callFindOrOpen (h : Moves base (s.ledger sources)) {call : ConflictCall} {d : Detection}
    (hcall : callFindOrOpen env now sources s call = .ok d) : Moves base (d.after.ledger sources) :=
  h.findOrOpen (callFindOrOpen_ok hcall).2.2

end Detection

section Reconciliation
variable (env : Env) (now : Time) (incidentId : Id)

theorem reviewAcceptingFact (h : Moves base (s.ledger sources)) (id : Id) (x : ConflictCase)
    (withdrawn : List Id) :
    Moves base ((reviewAcceptingFact now incidentId s id x withdrawn).ledger sources) := by
  unfold CrisisMosaic.reviewAcceptingFact
  split
  · exact h
  · exact emit (s := s.withBoard _) h now incidentId _

/-- The case loses evidence: its revision moves, or has moved before in the transaction. -/
theorem withdrawFromCase (h : Moves base (s.ledger sources)) {id : Id} {x x₀ : ConflictCase}
    {w : Withdrawal} (hx : s.cases.get id = some x) (hx₀ : base.cases.get id = some x₀)
    (hw : w.revision = x₀.revision) :
    Moves base ((withdrawFromCase now incidentId s id x w).ledger sources) := by
  obtain ⟨y, hy, -, hle⟩ := h.case hx₀
  obtain rfl : x = y := Option.some.inj (hx.symm.trans hy)
  unfold CrisisMosaic.withdrawFromCase
  by_cases hr : x.revision = w.revision
  · rw [if_pos hr]
    exact (emit (s := { s with cases := _, feed := _ }) (h.extended (f := fun _ => bumpRevision x) hx rfl) now
      incidentId _).reviewAcceptingFact now incidentId id _ _
  · rw [if_neg hr]
    have hsame : s.cases.modify id (fun _ => x) = s.cases := Table.modify_eq_self hx
    simp only [hsame]
    have hmoved : ∀ z, base.cases.get id = some z → z.revision < x.revision := by
      intro z hz
      obtain rfl := Option.some.inj (hx₀.symm.trans hz)
      omega
    exact (emit (s := { s with feed := _ }) (h.marked hx hmoved) now
      incidentId _).reviewAcceptingFact now incidentId id _ _

theorem settleFragment (h : Moves base (s.ledger sources)) (fragmentId : Id) :
    Moves base ((settleFragment env now s fragmentId).ledger sources) := by
  unfold CrisisMosaic.settleFragment
  split
  · next f hf =>
    dsimp only
    split_ifs
    · refine h.fragments (.modify _ fun g hg => ?_)
      obtain rfl : f = g := Option.some.inj (hf.symm.trans hg)
      exact Nat.le_succ _
    · exact h
  · exact h

theorem settleFragments (ids : List Id) :
    ∀ {s : Store}, Moves base (s.ledger sources) →
      Moves base ((ids.foldl (CrisisMosaic.settleFragment env now) s).ledger sources) := by
  induction ids with
  | nil => exact id
  | cons i ids ih => exact fun h => ih (h.settleFragment env now i)

theorem autoResolve (h : Moves base (s.ledger sources)) {id : Id} {x : ConflictCase}
    (hx : s.cases.get id = some x) (bump : Bool) :
    Moves base ((autoResolve env now incidentId s id x bump).ledger sources) := by
  have hclosed : Moves base ((closeCase now s id x bump).ledger sources) := by
    have hmove := @closed _ _ _ _ now bump "current_conflicting_evidence_withdrawn" h hx
    unfold closeCase
    cases bump <;> exact hmove
  exact (hclosed.settleFragments env now _).emit now incidentId _

theorem settleCase (h : Moves base (s.ledger sources)) {id : Id} {x : ConflictCase}
    (hx : s.cases.get id = some x) (bump : Bool) :
    Moves base ((settleCase env now incidentId s id x bump).ledger sources) := by
  unfold CrisisMosaic.settleCase
  dsimp only
  split_ifs
  · exact h
  · exact h
  · exact h.autoResolve env now incidentId hx bump

theorem reconcileCase (h : Moves base (s.ledger sources)) {withdrawn : List Withdrawal}
    (hw : WithdrawnFrom base.cases withdrawn) (id : Id) :
    Moves base ((reconcileCase env now incidentId withdrawn s id).ledger sources) := by
  unfold CrisisMosaic.reconcileCase
  cases hfind : withdrawn.find? fun w => w.conflictId = id with
  | none =>
    dsimp only
    split
    · next x hx => exact h.settleCase env now incidentId hx _
    · exact h
  | some w =>
    obtain ⟨x₀, hx₀, hr⟩ := hw.case w (List.mem_of_find?_eq_some hfind)
    have hc : w.conflictId = id := by simpa using List.find?_some hfind
    rw [hc] at hx₀
    obtain ⟨x, hx, -⟩ : ∃ x, s.cases.get id = some x ∧ _ := h.case hx₀
    have hwithdrawn := h.withdrawFromCase now incidentId hx hx₀ hr
    rw [hx]
    dsimp only
    split
    · next y hy => exact hwithdrawn.settleCase env now incidentId hy _
    · exact hwithdrawn

theorem reconcileConflicts (h : Moves base (s.ledger sources)) {withdrawn : List Withdrawal}
    (hw : WithdrawnFrom base.cases withdrawn) (cases : List Id) :
    Moves base ((reconcileConflicts env now incidentId withdrawn s cases).ledger sources) := by
  have hfold : ∀ (ids : List Id) {s : Store}, Moves base (s.ledger sources) →
      Moves base ((ids.foldl (CrisisMosaic.reconcileCase env now incidentId withdrawn) s).ledger
        sources) := by
    intro ids
    induction ids with
    | nil => exact id
    | cons c ids ih => exact fun h => ih (h.reconcileCase env now incidentId hw c)
  exact hfold _ h

end Reconciliation

section Observation
variable (env : Env) (now : Time) (incidentId : Id)

theorem publishFragment (h : Moves base (s.ledger sources)) (fragmentId : Id) (eventType : String) :
    Moves base ((publishFragment env now s incidentId fragmentId eventType).ledger sources) := by
  unfold CrisisMosaic.publishFragment
  split
  · exact h
  · exact emit (s := { s with features := _ }) h now incidentId _

theorem publishDetected (h : Moves base (s.ledger sources)) (conflictId : Id)
    (opened announced : Bool) :
    Moves base ((publishDetected env now s incidentId conflictId opened announced).ledger sources) := by
  unfold CrisisMosaic.publishDetected
  split
  · exact h
  · cases announced with
    | true => exact emit (s := { s with features := _ }) h now incidentId _
    | false => exact h

theorem detect (h : Moves base (s.ledger sources)) {id : Id} {f : InformationFragment}
    {detection : Option Detection}
    (hd : detectStructuredFragmentConflict env now sources s id f = .ok detection) :
    Moves base (((detection.map (·.after)).getD s).ledger sources) := by
  cases detection with
  | none => exact h
  | some d =>
    obtain ⟨call, -, hcall⟩ := detect_ok hd
    exact h.callFindOrOpen hcall

theorem settleObservation {detection : Option Detection}
    (h : Moves base (((detection.map (·.after)).getD s).ledger sources)) (fragmentId : Id)
    (created : Bool) {withdrawn : List Withdrawal} (hw : WithdrawnFrom base.cases withdrawn) :
    Moves base ((settleObservation env now s incidentId fragmentId created withdrawn detection).ledger
      sources) := by
  have hpublished := h.publishFragment env now incidentId fragmentId
    (if created then "fragment.created" else "fragment.updated")
  unfold CrisisMosaic.settleObservation
  cases detection with
  | none => exact hpublished.reconcileConflicts env now incidentId hw _
  | some d =>
    exact (hpublished.publishDetected env now incidentId _ _ _).reconcileConflicts env now incidentId hw _

end Observation

section Reports
variable {db : Db} (env : Env) (now : Time) (incidentId : Id)

theorem withSpotBoard (h : Moves base db.ledger) {b : SpotBoard} (hb : db.spotBoard.Draws env now b) :
    Moves base (db.withSpotBoard b).ledger :=
  h.briefs hb.sameAnalyses

theorem scheduleBlindSpot (h : Moves base db.ledger) (fragmentId : Id) (f : InformationFragment) :
    Moves base (scheduleBlindSpot env now db incidentId fragmentId f).ledger := by
  unfold CrisisMosaic.scheduleBlindSpot
  dsimp only
  split_ifs
  · exact withSpotBoard env now (show Moves base ({ db with jobs := _ } : Db).ledger from h)
      (runReportBlindSpotDetection_draws env now _ _ _ _ _ _ _ _)
  · exact h
  · exact h

theorem deactivateSpots (h : Moves base db.ledger) (fragmentId : Id) (f : InformationFragment)
    (reason : String) : Moves base (deactivateSpots env now db incidentId fragmentId f reason).ledger :=
  h.withSpotBoard env now (deactivateAutomaticBlindSpots_draws env now _ _ _ _ _ _ _)

theorem beforeDetection (h : Moves base db.ledger) {u : FragmentUpsert}
    (hu : RevisionsGrow db.fragments u.fragments) :
    Moves base (beforeDetection env now db incidentId u).ledger := by
  have hf : Moves base ({ db with fragments := u.fragments } : Db).ledger := h.fragments (s := db.toStore) hu
  have hw : Moves base ({ db with
      fragments := u.fragments
      evidence := invalidateFragmentEvidence db.evidence u.id } : Db).ledger := hf.withdrawn
  unfold CrisisMosaic.beforeDetection
  refine scheduleBlindSpot env now incidentId ?_ _ _
  split_ifs
  · exact hw.deactivateSpots env now incidentId _ _ _
  · exact hf

theorem processReportObservation {db' : Db} {detection : Option Detection} {reportId : Id}
    {report : Report} (h : Moves base db.ledger) (hcases : db.cases = base.cases)
    (hp : processReportObservation env now db reportId report = .ok (db', detection)) :
    Moves base db'.ledger := by
  obtain ⟨-, -, hstep, -, -⟩ := upsert_spec env now db.fragments reportId report
  rw [processReportObservation_eq] at hp
  dsimp only at hp hstep
  generalize upsertReportFragment env now db.fragments reportId report = u at *
  have hmid := h.beforeDetection env now report.incidentId (.of_step hstep)
  generalize CrisisMosaic.beforeDetection env now db report.incidentId u = db₁ at *
  cases hchanged : u.changed with
  | false =>
    simp only [hchanged, Bool.not_false, if_true, pure_ok, Prod.mk.injEq] at hp
    obtain ⟨rfl, -⟩ := hp
    exact hmid
  | true =>
    simp only [hchanged, Bool.not_true, Bool.false_eq_true, if_false, bind_ok, pure_ok,
      Prod.mk.injEq] at hp
    obtain ⟨det, hdet, rfl, rfl⟩ := hp
    have hset := settleObservation env now report.incidentId
      (detect env now (s := db₁.toStore) hmid hdet) u.id u.created
      (hcases ▸ lostEvidence_from db.toStore u.gone)
    exact withSpotBoard env now (show Moves base ({ db₁ with toStore := _ } : Db).ledger from hset)
      (resolveAutomaticBlindSpots_draws env now _ _ _ _ _)

theorem deactivateReportObservation (h : Moves base db.ledger) (hcases : db.cases = base.cases)
    (reportId : Id) (report : Report) (reason : String) :
    Moves base (deactivateReportObservation env now db reportId report reason).ledger := by
  unfold CrisisMosaic.deactivateReportObservation
  dsimp only
  cases hfind : db.fragments.find (isReportFragment report.incidentId reportId) with
  | none => exact h
  | some r =>
    obtain ⟨id, f⟩ := r
    obtain ⟨hf, -⟩ := Table.find_some hfind
    have hgrow : RevisionsGrow db.fragments (db.fragments.modify id fun _ => withdrawFragment now f) :=
      .modify _ fun g hg => by
        obtain rfl : f = g := Option.some.inj (hf.symm.trans hg)
        exact (withdrawFragment_follows now f).revision
    have hstored : Moves base (withdrawnStore env now db id f).ledger :=
      withdrawn (h.fragments (s := db.toStore) hgrow)
    have hspots := hstored.deactivateSpots env now report.incidentId id (withdrawFragment now f) reason
    exact (hspots.reconcileConflicts (s := Db.toStore _) env now report.incidentId
      (hcases ▸ lostEvidence_from db.toStore (some id)) _).emit now report.incidentId _

end Reports

section ReportRoutes
variable {db db' : Db} {actor : Actor} {header : Option Ref} {detection : Option Detection}

theorem storeReport (h : Moves base db.ledger) {id : Id} {r r' : Report}
    (hr : db.reports.get id = some r) (hle : r.revision ≤ r'.revision) :
    Moves base (db.storeReport id r').ledger := by
  have hgrow : db.reports.Grows (·.revision) (db.reports.modify id fun _ => r') :=
    .modify _ fun a ha => by
      obtain rfl : r = a := Option.some.inj (hr.symm.trans ha)
      exact hle
  exact h.sources (latestRevision_mono (.refl _) hgrow (.refl _))

theorem createReport {incidentId : Id} {payload : ReportCreate} {refinement : Result (Option Priority)}
    {contact : Result Unit} {id : Id} {r : Report}
    (hc : createReport env now db incidentId actor payload refinement contact = .ok (db', id, r)) :
    Moves db.ledger db'.ledger ∧ db'.cases = db.cases := by
  simp only [CrisisMosaic.createReport, bind_ok, pure_ok, Prod.exists, Prod.mk.injEq] at hc
  obtain ⟨-, -, ai, -, -, -, a, -, attachments, b, -, rfl, rfl, rfl⟩ := hc
  exact ⟨Moves.start.sources (latestRevision_mono (.refl _) (.insert _ b) (.refl _)), rfl⟩

theorem postReport {incidentId : Ref} {payload : ReportCreate}
    {refinement : Result (Option Priority)} {contact : Result Unit}
    (hp : postReport env now db actor header incidentId payload refinement contact
      = .ok (db', detection)) : Moves db.ledger db'.ledger := by
  simp only [CrisisMosaic.postReport, bind_ok, Prod.exists] at hp
  obtain ⟨i, incident, -, -, -, m, id, r, hm, hp⟩ := hp
  obtain ⟨hmoves, hcases⟩ := createReport hm
  have hemitted : Moves db.ledger (m.emitReport now id r "report.created"
      (reportData m.attachments id r)).ledger := hmoves.emit (s := m.toStore) now r.incidentId _
  exact hemitted.processReportObservation env now hcases hp

/-- A stored report is projected and announced. -/
theorem announceReport (h : Moves base db.ledger) (now : Time) (id : Id) (r : Report) (eventType : String)
    (payload : Dict) :
    Moves base ((db.projectReport now id r).emitReport now id r eventType payload).ledger :=
  emit (s := { db.toStore with features := _ }) h now r.incidentId _

theorem patchReport {id : Id} {payload : ReportPatch} {refinement : Result (Option Priority)}
    (hp : patchReport env now db actor header id payload refinement = .ok (db', detection)) :
    Moves db.ledger db'.ledger := by
  simp only [CrisisMosaic.patchReport, bind_ok, Prod.exists] at hp
  obtain ⟨-, -, r, hr, -, -, -, -, a, ha, -, -, attachments, b, hb, ai, -, hp⟩ := hp
  obtain ⟨hget, -⟩ := openReport_some hr
  have hlife := (applyTo_sameLife ha).trans (rebind_sameLife hb)
  obtain ⟨c, hc⟩ : ∃ c, c = (b.prioritise b.manualPriority ai).touch now := ⟨_, rfl⟩
  have hle : r.revision ≤ c.revision := by
    rw [hc, ← hlife.revision]
    exact Nat.le_succ _
  rw [← hc] at hp
  obtain ⟨m, hm⟩ : ∃ m : Db, m = { db with
      attachments := attachments
      contacts := payload.recontact db.contacts c } := ⟨_, rfl⟩
  have hstart : Moves db.ledger m.ledger := hm ▸ .start
  have hrevised : Moves db.ledger ((m.storeReport id c).recordRevision now actor id c []).ledger :=
    hstart.storeReport (hm ▸ hget) hle
  have hstored := fun data => hrevised.announceReport now id c "report.updated" data
  rw [← hm] at hp
  split_ifs at hp
  · exact (hstored _).processReportObservation env now (hm ▸ rfl) hp
  · rw [pure_ok, Prod.mk.injEq] at hp
    exact hp.1 ▸ hstored _

theorem deleteReport {id revision : ℕ}
    (hd : deleteReport env now db actor header id revision = .ok db') :
    Moves db.ledger db'.ledger := by
  simp only [CrisisMosaic.deleteReport, getReport, bind_ok, found_ok, pure_ok] at hd
  obtain ⟨-, -, r, ⟨r', hget, -, -, rfl⟩, -, -, -, -, -, -, rfl⟩ := hd
  obtain ⟨c, hc⟩ : ∃ c, c = { r' with deletedAt := some now }.touch now := ⟨_, rfl⟩
  have hle : r'.revision ≤ c.revision := hc ▸ Nat.le_succ _
  rw [← hc]
  exact ((storeReport .start hget hle).deactivateReportObservation env now rfl id c _).announceReport now id c _ _

theorem patchReportStatus {id revision : ℕ} {status : ReportStatus}
    (hp : patchReportStatus env now db actor header id revision status = .ok (db', detection)) :
    Moves db.ledger db'.ledger := by
  simp only [CrisisMosaic.patchReportStatus, bind_ok, require_ok] at hp
  obtain ⟨-, -, r, hr, -, -, -, -, -, -, hp⟩ := hp
  obtain ⟨hget, -⟩ := openReport_some hr
  obtain ⟨c, hc⟩ : ∃ c, c = { r with status := status }.touch now := ⟨_, rfl⟩
  have hle : r.revision ≤ c.revision := hc ▸ Nat.le_succ _
  rw [← hc] at hp
  have hstored : Moves db.ledger (db.storeReport id c).ledger := storeReport .start hget hle
  by_cases hinvalid : status = .invalid
  · rw [if_pos hinvalid] at hp
    simp only [pure_bind, pure_ok, Prod.mk.injEq] at hp
    exact hp.1 ▸ (hstored.deactivateReportObservation env now rfl id c _).announceReport now id c _ _
  · rw [if_neg hinvalid] at hp
    by_cases hbefore : r.status = .invalid
    · simp only [if_pos hbefore, bind_ok, Prod.exists, pure_ok, Prod.mk.injEq] at hp
      obtain ⟨m, d, hm, rfl, rfl⟩ := hp
      exact (hstored.processReportObservation env now rfl hm).announceReport now id c _ _
    · simp only [if_neg hbefore, pure_bind, pure_ok, Prod.mk.injEq] at hp
      exact hp.1 ▸ hstored.announceReport now id c _ _

theorem patchReportPriority {id revision : ℕ} {priority : Option Priority}
    {refinement : Result (Option Priority)}
    (hp : patchReportPriority now db actor header id revision priority refinement = .ok db') :
    Moves db.ledger db'.ledger := by
  simp only [CrisisMosaic.patchReportPriority, bind_ok, pure_ok] at hp
  obtain ⟨-, -, r, hr, -, -, ai, -, rfl⟩ := hp
  obtain ⟨hget, -⟩ := openReport_some hr
  exact (storeReport .start hget (Nat.le_succ _)).announceReport now id _ _ _

end ReportRoutes

section ConflictRoutes
variable {actor : Actor} {header : Option Ref}

theorem createConflict {incidentId : Ref} {payload : ConflictCreate}
    (hc : createConflict env now sources s actor header incidentId payload = .ok t) :
    Moves (s.ledger sources) (t.ledger sources) := by
  simp only [CrisisMosaic.createConflict, bind_ok, pure_ok, Prod.exists] at hc
  obtain ⟨-, -, -, -, i, -, -, -, -, evidence, added, hadd, rfl⟩ := hc
  have hopened := (addEvidence .start hadd).opened (x := manualCase now i payload) rfl
  exact emit (s := { s with features := _, cases := _, evidence := _ }) hopened now i _

theorem appendConflictEvidence {conflictId : Ref} {revision : ℕ} {references : List EvidenceReference}
    (ha : appendConflictEvidence env now sources s actor header conflictId revision references
      = .ok t) : Moves (s.ledger sources) (t.ledger sources) := by
  simp only [CrisisMosaic.appendConflictEvidence, bind_ok, pure_ok, Prod.exists] at ha
  obtain ⟨-, -, id, x, hx, -, -, -, -, i, incident, -, m, added, happ, rfl⟩ := ha
  have hmoves := appendEvidence .start (getCase_some hx) happ
  exact emit (s := { m with features := _ }) hmoves now i _

theorem reopenCase (h : Moves base (s.ledger sources)) {id : Id} {x : ConflictCase}
    (hx : s.cases.get id = some x) (hr : x.status = .resolved) (reason : String) :
    Moves base ((reopenCase env now s id x reason).ledger sources) := by
  have hmove := @reopened _ _ _ _ now "conflict_reopened" h hx hr
  have hopened := fun facts features event => emit (s := { s with
    facts := facts
    features := features
    cases := s.cases.modify id reopen
    feed := s.feed.markAnalysesStale now id x.incidentId "conflict_reopened" }) hmove now x.incidentId event
  unfold CrisisMosaic.reopenCase
  dsimp only
  split
  · exact (hopened _ _ _).emit now _ _
  · exact hopened _ _ _

theorem reopenConflict {conflictId : Ref} {revision : ℕ} {reason : String}
    (hr : reopenConflict env now s actor header conflictId revision reason = .ok t) :
    Moves (s.ledger sources) (t.ledger sources) := by
  simp only [CrisisMosaic.reopenConflict, bind_ok, pure_ok, require_ok, Prod.exists] at hr
  obtain ⟨-, -, id, x, hx, -, -, -, -, -, hresolved, -, -, -, rfl⟩ := hr
  exact reopenCase .start (getCase_some hx) hresolved reason

end ConflictRoutes

section QuestionRoutes
open Questions
variable {db db' : Db} {actor : Actor} {header : Option Ref}

theorem createBlindSpot {incidentId : Ref} {payload : BlindSpotCreate}
    (hc : createBlindSpot env now db actor header incidentId payload = .ok db') :
    Moves db.ledger db'.ledger := by
  simp only [Questions.createBlindSpot, bind_ok, pure_ok, Prod.exists] at hc
  obtain ⟨-, -, -, -, i, -, -, rfl⟩ := hc
  exact (withSpotBoard env now .start (.add .refl _)).emit (s := Db.toStore _) now i _

theorem createQuestion {incidentId : Ref} {payload : DirectedQuestionCreate}
    (hc : createQuestion now db actor header incidentId payload = .ok db') :
    Moves db.ledger db'.ledger := by
  simp only [Questions.createQuestion, bind_ok, pure_ok, Prod.exists] at hc
  obtain ⟨-, -, -, -, -, -, i, -, -, -, -, -, -, rfl⟩ := hc
  exact .start

theorem changeQuestionStatus {id revision : ℕ} {target : QuestionStatus}
    (hc : changeQuestionStatus now db actor header id revision target = .ok db') :
    Moves db.ledger db'.ledger := by
  simp only [Questions.changeQuestionStatus, bind_ok, pure_ok] at hc
  obtain ⟨-, -, q, -, -, -, -, -, -, -, -, -, rfl⟩ := hc
  exact emit (s := db.toStore) .start now q.incidentId _

theorem createFragment {incidentId : Ref} {payload : FragmentCreate} {detection : Option Detection}
    (hc : createFragment env now db actor header incidentId payload = .ok (db', detection)) :
    Moves db.ledger db'.ledger := by
  simp only [Questions.createFragment, bind_ok, pure_ok, Prod.exists, Prod.mk.injEq] at hc
  obtain ⟨-, -, -, -, i, -, -, det, hdet, rfl, -⟩ := hc
  have hinserted : Moves db.ledger ({ db.toStore with
      fragments := db.fragments.insert (operatorFragment now i actor payload) }.ledger db.sources) :=
    fragments (s := db.toStore) .start (.insert _ _)
  have hdetected := hinserted.detect env now hdet
  have hpublished : ∀ {s : Store}, Moves db.ledger (s.ledger db.sources) →
      Moves db.ledger ((publishOperatorFragment env now s i db.fragments.size).ledger db.sources) := by
    intro s hs
    unfold publishOperatorFragment
    split
    · exact emit (s := { s with features := _ }) hs now i _
    · exact hs
  have hannounced : ∀ {d : Detection}, Moves db.ledger (d.after.ledger db.sources) →
      Moves db.ledger ((publishConflict env now d.after i d).ledger db.sources) := by
    intro d hd
    unfold publishConflict
    split
    · exact emit (s := d.after) hd now i _
    · exact hd
  cases det with
  | none => exact hpublished hdetected
  | some d => exact hpublished (hannounced hdetected)

theorem answerFragment (h : Moves base (s.ledger sources)) (answerId : Id) (payload : DirectedAnswerPut)
    (admitted : Admitted) : Moves base ({ s with
      fragments := (upsertAnswerFragment now s.fragments answerId payload admitted).1 }.ledger sources) := by
  refine h.fragments ?_
  unfold upsertAnswerFragment
  split
  · exact .insert _ _
  · exact .modify _ fun f _ => Nat.le_succ _

theorem storeAnswer {answers : Table DirectedAnswer} {questionId deviceId : Id}
    {payload : DirectedAnswerPut} {admitted : Admitted} {stored : StoredAnswer}
    (hs : storeAnswer now answers questionId deviceId payload admitted = .ok stored) :
    answers.Grows (·.revision) stored.answers := by
  unfold Questions.storeAnswer at hs
  split at hs
  · simp only [bind_ok, pure_ok] at hs
    obtain ⟨-, -, rfl⟩ := hs
    exact .insert _ _
  · next id a hfind =>
    simp only [bind_ok, pure_ok] at hs
    obtain ⟨-, -, rfl⟩ := hs
    refine .modify _ fun b hb => ?_
    obtain rfl : a = b := Option.some.inj ((Table.find_some hfind).1.symm.trans hb)
    exact Nat.le_succ _

theorem judgeAnswer {questionId fragmentId : Id} {admitted : Admitted} {created : Bool} {v : Verdict}
    (h : Moves base db.ledger)
    (hj : judgeAnswer env now db questionId fragmentId admitted created = .ok v) :
    Moves base v.db.ledger := by
  unfold Questions.judgeAnswer at hj
  generalize validAnswerConsensus env.text db.answers questionId = consensus at hj
  obtain ⟨value, count, values⟩ := consensus
  dsimp only at hj
  have hagree : ∀ {s : Store} {conflictId : Option Id}, Moves base (s.ledger db.sources) →
      Moves base (agree now { db with toStore := s } questionId fragmentId admitted value count
        conflictId).db.ledger := by
    intro s conflictId hs
    unfold agree
    dsimp only
    by_cases hreached : value.isSome = true ∧ admitted.blind.minValidAnswers ≤ count
    · rw [if_pos hreached]
      exact hs.fragments (.modify _ fun _ _ => le_rfl)
    · rw [if_neg hreached]
      by_cases hresolved : admitted.blind.status = .resolved
      · rw [if_pos hresolved]
        exact hs
      · rw [if_neg hresolved]
        exact hs
  split_ifs at hj with hmany hcreated
  · simp only [disagree, bind_ok, pure_ok] at hj
    obtain ⟨d, hd, rfl⟩ := hj
    have hafter := callFindOrOpen (s := db.toStore) h hd
    show Moves base ((announceOpened now d.after _ d).ledger db.sources)
    unfold announceOpened
    split_ifs
    · split
      · exact hafter.emit now _ _
      · exact hafter
    · exact hafter
  · simp only [pure_bind, pure_ok] at hj
    exact hj ▸ hagree (s := db.toStore) h
  · simp only [bind_ok, pure_ok, Prod.exists] at hj
    obtain ⟨m, conflictId, hcite, rfl⟩ := hj
    refine hagree ?_
    unfold citeAnswer at hcite
    split at hcite
    · rw [pure_ok, Prod.mk.injEq] at hcite
      exact hcite.1 ▸ h
    · simp only [bind_ok, pure_ok, found_ok, Prod.exists, Prod.mk.injEq] at hcite
      obtain ⟨x, hx, t, added, happ, rfl, -⟩ := hcite
      exact (appendEvidence (s := db.toStore) h hx happ).emit now _ _

theorem putMyAnswer {questionId : Id} {payload : DirectedAnswerPut} {o : AnswerOutcome}
    (hp : putMyAnswer env now db actor header questionId payload = .ok o) :
    Moves db.ledger o.db.ledger := by
  simp only [Questions.putMyAnswer, bind_ok, pure_ok, found_ok] at hp
  obtain ⟨admitted, -, stored, hstored, attachments, -, v, hv, f, -, rfl⟩ := hp
  have hanswers : Moves db.ledger ({ db with answers := stored.answers } : Db).ledger :=
    Moves.start.sources (latestRevision_mono (.refl _) (.refl _) (storeAnswer hstored))
  obtain ⟨m, hm⟩ : ∃ m : Db, m = { db with
      answers := stored.answers
      attachments := attachments
      fragments := (upsertAnswerFragment now db.fragments stored.id payload admitted).1 } := ⟨_, rfl⟩
  have hfragment : Moves db.ledger m.ledger := by
    rw [hm]
    exact answerFragment (s := db.toStore) hanswers stored.id payload admitted
  rw [← hm] at hv
  have hjudged := hfragment.judgeAnswer hv
  have hprojected : Moves db.ledger (projectVerdict env now v admitted.question.blindSpotId
      (upsertAnswerFragment now db.fragments stored.id payload admitted).2 f).ledger := by
    unfold projectVerdict
    dsimp only
    split
    · exact hjudged
    · exact hjudged
  unfold announceAnswer
  dsimp only
  have hannounced := fun e₁ e₂ => (hprojected.emit (s := Db.toStore _) now admitted.question.incidentId
    e₁).emit now admitted.question.incidentId e₂
  cases v.changed with
  | true => exact (hannounced _ _).emit now _ _
  | false => exact hannounced _ _

theorem runBlindSpotJob {jobId : Id} (hr : runBlindSpotJob env now db jobId = .ok db') :
    Moves db.ledger db'.ledger := by
  simp only [CrisisMosaic.runBlindSpotJob, bind_ok] at hr
  obtain ⟨job, -, -, -, hr⟩ := hr
  split_ifs at hr
  · obtain rfl := pure_ok.mp hr
    exact .start
  · split at hr
    · obtain rfl := pure_ok.mp hr
      exact withSpotBoard env now .start (runReportBlindSpotDetection_draws env now _ _ _ _ _ _ _ _)
    · exact absurd hr throw_ok

end QuestionRoutes

end Moves

/-- The operation decides a case or is a step of an analysis. -/
def Call.judges : Call → Bool
  | .submitConflictDecision .. | .requestAnalysis .. | .startAnalysis .. | .completeAnalysis ..
  | .failAnalysis .. | .retryAnalysis .. => true
  | _ => false

theorem handle_moves {env : Env} {db : Db} {op : Op} {o : Outcome} (h : handle env db op = .ok o)
    (hop : op.call.judges = false) : Moves db.ledger o.db.ledger := by
  obtain ⟨now, actor, header, call⟩ := op
  cases call with
  | postReport incident payload refinement contact =>
    obtain ⟨r, hr, rfl⟩ := map_ok.mp h
    exact .postReport hr
  | patchReport report payload refinement =>
    obtain ⟨r, hr, rfl⟩ := map_ok.mp h
    exact .patchReport hr
  | deleteReport report revision =>
    obtain ⟨r, hr, rfl⟩ := map_ok.mp h
    exact .deleteReport hr
  | patchReportStatus report revision status =>
    obtain ⟨r, hr, rfl⟩ := map_ok.mp h
    exact .patchReportStatus hr
  | patchReportPriority report revision priority refinement =>
    obtain ⟨r, hr, rfl⟩ := map_ok.mp h
    exact .patchReportPriority hr
  | createBlindSpot incident payload =>
    obtain ⟨r, hr, rfl⟩ := map_ok.mp h
    exact .createBlindSpot hr
  | createQuestion incident payload =>
    obtain ⟨r, hr, rfl⟩ := map_ok.mp h
    exact .createQuestion hr
  | publishQuestion question revision =>
    obtain ⟨r, hr, rfl⟩ := map_ok.mp h
    exact .changeQuestionStatus hr
  | closeQuestion question revision =>
    obtain ⟨r, hr, rfl⟩ := map_ok.mp h
    exact .changeQuestionStatus hr
  | putMyAnswer question payload =>
    obtain ⟨r, hr, rfl⟩ := map_ok.mp h
    exact .putMyAnswer hr
  | createFragment incident payload =>
    obtain ⟨r, hr, rfl⟩ := map_ok.mp h
    exact .createFragment hr
  | createConflict incident payload =>
    obtain ⟨t, ht, rfl⟩ := map_ok.mp h
    exact .createConflict ht
  | appendConflictEvidence conflict revision references =>
    obtain ⟨t, ht, rfl⟩ := map_ok.mp h
    exact .appendConflictEvidence ht
  | reopenConflict conflict revision reason =>
    obtain ⟨t, ht, rfl⟩ := map_ok.mp h
    exact .reopenConflict ht
  | runBlindSpotJob job =>
    obtain ⟨r, hr, rfl⟩ := map_ok.mp h
    exact .runBlindSpotJob hr
  | uploads attachments =>
    rw [handle, pure_ok] at h
    subst h
    exact .start
  | submitConflictDecision | requestAnalysis | startAnalysis | completeAnalysis | failAnalysis
  | retryAnalysis => cases hop

end CrisisMosaic
