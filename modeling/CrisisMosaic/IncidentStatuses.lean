import CrisisMosaic.SettledReports

/-!
# Incidents under operations on reports and cases

Reports, cases and decisions count the events and the revisions of an incident; its
status is left to the operators.
-/

namespace CrisisMosaic
open Relational

namespace Feed.SameStatuses
variable {env : Env} {now : Time} {incidentId : Id} {f : Feed} {s t : Store} {sources : Sources}

theorem emit (h : f.SameStatuses s.feed) (now : Time) (incidentId : Id) (e : Event) :
    f.SameStatuses (s.emit now incidentId e).feed :=
  h.trans (s.feed.emitEvent_sameStatuses now incidentId e)

section Detection

theorem openCase (h : f.SameStatuses s.feed) (env : Env) (now : Time) (call : ConflictCall) :
    f.SameStatuses (openCase env now s call).1.feed := by
  rcases openCase_cases env now s call with ⟨-, ho⟩ | ⟨id, x, -, -, ⟨-, ho⟩ | ⟨-, ho⟩⟩ <;>
    rw [ho] <;> exact h

theorem findOrOpen (h : f.SameStatuses s.feed) {call : ConflictCall} {id : Id} {opened : Bool}
    (hcall : findOrOpenStructuredConflict env now sources s call = .ok (t, id, opened)) :
    f.SameStatuses t.feed := by
  simp only [findOrOpenStructuredConflict, bind_ok, pure_ok, Prod.exists, Prod.mk.injEq] at hcall
  obtain ⟨evidence, added, -, rfl, -⟩ := hcall
  have hopen := h.openCase env now call
  split_ifs <;> exact hopen

theorem detect (h : f.SameStatuses s.feed) {id : Id} {g : InformationFragment}
    {detection : Option Detection}
    (hd : detectStructuredFragmentConflict env now sources s id g = .ok detection) :
    f.SameStatuses ((detection.map (·.after)).getD s).feed := by
  cases detection with
  | none => exact h
  | some d =>
    obtain ⟨call, -, hcall⟩ := detect_ok hd
    exact h.findOrOpen (callFindOrOpen_ok hcall).2.2

end Detection

section Reconciliation
variable (env : Env) (now : Time) (incidentId : Id)

theorem reviewAcceptingFact (h : f.SameStatuses s.feed) (id : Id) (x : ConflictCase)
    (withdrawn : List Id) : f.SameStatuses (reviewAcceptingFact now incidentId s id x withdrawn).feed := by
  unfold CrisisMosaic.reviewAcceptingFact
  split
  · exact h
  · exact emit (s := s.withBoard _) h now incidentId _

theorem withdrawFromCase (h : f.SameStatuses s.feed) (id : Id) (x : ConflictCase) (w : Withdrawal) :
    f.SameStatuses (withdrawFromCase now incidentId s id x w).feed := by
  have hrevised : ∀ (t : Store) (y : ConflictCase), f.SameStatuses t.feed →
      f.SameStatuses (reviseWithdrawn now incidentId t id y w.evidenceIds).feed := fun t y ht =>
    emit (s := { t with feed := t.feed.markAnalysesStale now id y.incidentId "evidence_withdrawn" }) ht now
      incidentId _
  unfold CrisisMosaic.withdrawFromCase
  dsimp only
  exact reviewAcceptingFact now incidentId (hrevised { s with cases := s.cases.modify id fun _ => _ } _ h) id _ _

theorem settleFragment (h : f.SameStatuses s.feed) (k : Id) :
    f.SameStatuses (settleFragment env now s k).feed := by
  unfold CrisisMosaic.settleFragment
  split
  · dsimp only
    split_ifs <;> exact h
  · exact h

theorem settleFragments (ids : List Id) : ∀ {s : Store}, f.SameStatuses s.feed →
    f.SameStatuses (ids.foldl (CrisisMosaic.settleFragment env now) s).feed := by
  induction ids with
  | nil => exact id
  | cons k ids ih => exact fun h => ih (h.settleFragment env now k)

theorem autoResolve (h : f.SameStatuses s.feed) (id : Id) (x : ConflictCase) (bump : Bool) :
    f.SameStatuses (autoResolve env now incidentId s id x bump).feed := by
  have hclosed : f.SameStatuses (closeCase now s id x bump).feed := by
    unfold closeCase
    cases bump <;> exact h
  exact (hclosed.settleFragments env now _).emit now incidentId _

theorem settleCase (h : f.SameStatuses s.feed) (id : Id) (x : ConflictCase) (bump : Bool) :
    f.SameStatuses (settleCase env now incidentId s id x bump).feed := by
  unfold CrisisMosaic.settleCase
  dsimp only
  split_ifs
  · exact h
  · exact h
  · exact h.autoResolve env now incidentId id x bump

theorem reconcileCase (h : f.SameStatuses s.feed) (withdrawn : List Withdrawal) (id : Id) :
    f.SameStatuses (reconcileCase env now incidentId withdrawn s id).feed := by
  unfold CrisisMosaic.reconcileCase
  cases withdrawn.find? fun w => w.conflictId = id with
  | none =>
    dsimp only
    split
    · exact h.settleCase env now incidentId id _ _
    · exact h
  | some w =>
    cases s.cases.get id with
    | none =>
      dsimp only
      split
      · exact h.settleCase env now incidentId id _ _
      · exact h
    | some x =>
      have hw := h.withdrawFromCase now incidentId id x w
      dsimp only
      split
      · exact hw.settleCase env now incidentId id _ _
      · exact hw

theorem reconcileConflicts (h : f.SameStatuses s.feed) (withdrawn : List Withdrawal) (cases : List Id) :
    f.SameStatuses (reconcileConflicts env now incidentId withdrawn s cases).feed := by
  have hfold : ∀ (ids : List Id) {s : Store}, f.SameStatuses s.feed →
      f.SameStatuses (ids.foldl (CrisisMosaic.reconcileCase env now incidentId withdrawn) s).feed := by
    intro ids
    induction ids with
    | nil => exact id
    | cons c ids ih => exact fun h => ih (h.reconcileCase env now incidentId withdrawn c)
  exact hfold _ h

end Reconciliation

section Observation
variable {db db' : Db} (env : Env) (now : Time) (incidentId : Id)

theorem publishFragment (h : f.SameStatuses s.feed) (k : Id) (eventType : String) :
    f.SameStatuses (publishFragment env now s incidentId k eventType).feed := by
  unfold CrisisMosaic.publishFragment
  split
  · exact h
  · exact emit (s := { s with features := _ }) h now incidentId _

theorem publishDetected (h : f.SameStatuses s.feed) (conflictId : Id) (opened announced : Bool) :
    f.SameStatuses (publishDetected env now s incidentId conflictId opened announced).feed := by
  unfold CrisisMosaic.publishDetected
  split
  · exact h
  · cases announced with
    | true => exact emit (s := { s with features := _ }) h now incidentId _
    | false => exact h

theorem settleObservation {detection : Option Detection}
    (h : f.SameStatuses ((detection.map (·.after)).getD s).feed) (k : Id) (created : Bool)
    (withdrawn : List Withdrawal) :
    f.SameStatuses (settleObservation env now s incidentId k created withdrawn detection).feed := by
  have hpublished := h.publishFragment env now incidentId k
    (if created then "fragment.created" else "fragment.updated")
  unfold CrisisMosaic.settleObservation
  cases detection with
  | none => exact hpublished.reconcileConflicts env now incidentId _ _
  | some d =>
    exact (hpublished.publishDetected env now incidentId _ _ _).reconcileConflicts env now incidentId _ _

theorem withSpotBoard (h : f.SameStatuses db.feed) {b : SpotBoard} (hb : db.spotBoard.Draws env now b) :
    f.SameStatuses (db.withSpotBoard b).feed := h.trans hb.sameStatuses

theorem scheduleBlindSpot (h : f.SameStatuses db.feed) (k : Id) (g : InformationFragment) :
    f.SameStatuses (scheduleBlindSpot env now db incidentId k g).feed := by
  unfold CrisisMosaic.scheduleBlindSpot
  dsimp only
  split_ifs
  · exact withSpotBoard env now (show f.SameStatuses ({ db with jobs := _ } : Db).feed from h)
      (runReportBlindSpotDetection_draws env now _ _ _ _ _ _ _ _)
  · exact h
  · exact h

theorem deactivateSpots (h : f.SameStatuses db.feed) (k : Id) (g : InformationFragment) (reason : String) :
    f.SameStatuses (deactivateSpots env now db incidentId k g reason).feed :=
  h.withSpotBoard env now (deactivateAutomaticBlindSpots_draws env now _ _ _ _ _ _ _)

theorem beforeDetection (h : f.SameStatuses db.feed) (u : FragmentUpsert) :
    f.SameStatuses (beforeDetection env now db incidentId u).feed := by
  have hgone : f.SameStatuses ({ db with
      fragments := u.fragments
      evidence := invalidateFragmentEvidence db.evidence u.id } : Db).feed := h
  unfold CrisisMosaic.beforeDetection
  refine scheduleBlindSpot env now incidentId ?_ _ _
  split_ifs
  · exact hgone.deactivateSpots env now incidentId _ _ _
  · exact h

theorem processReportObservation {reportId : Id} {report : Report} {detection : Option Detection}
    (h : f.SameStatuses db.feed)
    (hp : processReportObservation env now db reportId report = .ok (db', detection)) :
    f.SameStatuses db'.feed := by
  rw [processReportObservation_eq] at hp
  dsimp only at hp
  generalize upsertReportFragment env now db.fragments reportId report = u at *
  have hmid := h.beforeDetection env now report.incidentId u
  generalize CrisisMosaic.beforeDetection env now db report.incidentId u = db₁ at *
  cases hchanged : u.changed with
  | false =>
    simp only [hchanged, Bool.not_false, if_true, pure_ok, Prod.mk.injEq] at hp
    exact hp.1 ▸ hmid
  | true =>
    simp only [hchanged, Bool.not_true, Bool.false_eq_true, if_false, bind_ok, pure_ok,
      Prod.mk.injEq] at hp
    obtain ⟨det, hdet, rfl, rfl⟩ := hp
    have hset := settleObservation env now report.incidentId (detect (s := db₁.toStore) hmid hdet) u.id
      u.created (lostEvidence db.toStore u.gone)
    exact withSpotBoard env now (show f.SameStatuses ({ db₁ with toStore := _ } : Db).feed from hset)
      (resolveAutomaticBlindSpots_draws env now _ _ _ _ _)

theorem deactivateReportObservation (h : f.SameStatuses db.feed) (reportId : Id) (report : Report)
    (reason : String) :
    f.SameStatuses (deactivateReportObservation env now db reportId report reason).feed := by
  unfold CrisisMosaic.deactivateReportObservation
  dsimp only
  cases db.fragments.find (isReportFragment report.incidentId reportId) with
  | none => exact h
  | some r =>
    have hgone : f.SameStatuses (withdrawnStore env now db r.1 r.2).feed := h
    have hspots := hgone.deactivateSpots env now report.incidentId r.1 (withdrawFragment now r.2) reason
    exact (hspots.reconcileConflicts (s := Db.toStore _) env now report.incidentId _ _).emit now _ _

end Observation

section Routes
variable {db db' : Db} {op : Op} {o : Outcome} {actor : Actor} {header : Option Ref}

theorem createConflict (h : f.SameStatuses s.feed) {ref : Ref} {payload : ConflictCreate}
    (hc : createConflict env now sources s actor header ref payload = .ok t) : f.SameStatuses t.feed := by
  simp only [CrisisMosaic.createConflict, bind_ok, pure_ok, Prod.exists] at hc
  obtain ⟨-, -, -, -, i, -, -, -, -, evidence, added, -, rfl⟩ := hc
  exact emit (s := { s with features := _, cases := _, evidence := _ }) h now i _

end Routes
end Feed.SameStatuses

theorem runBlindSpotJob_sameStatuses {env : Env} {now : Time} {db db' : Db} {job : Id}
    (h : runBlindSpotJob env now db job = .ok db') : db.feed.SameStatuses db'.feed := by
  simp only [runBlindSpotJob, bind_ok] at h
  obtain ⟨j, -, -, -, h⟩ := h
  split_ifs at h
  · rw [← pure_ok.mp h]
    exact .refl db.feed
  · split at h
    · rw [← pure_ok.mp h]
      exact (Feed.SameStatuses.refl db.feed).withSpotBoard env now
        (runReportBlindSpotDetection_draws env now _ _ _ _ _ _ _ _)
    · exact absurd h throw_ok

theorem ReportStages.sameStatuses {env : Env} {db : Db} {op : Op} {o : Outcome}
    (h : ReportStages env db op o) : db.feed.SameStatuses o.db.feed := by
  cases h with
  | observed _ _ hs _ hp hsame => exact (hs.incidents.processReportObservation env op.now hp).trans hsame.incidents
  | deactivated _ _ hs _ hsame _ =>
    exact (hs.incidents.deactivateReportObservation env op.now _ _ _).trans hsame.incidents
  | edited _ _ hs _ _ hsame _ => exact hs.incidents.trans hsame.incidents
  | detected _ hrun _ => exact runBlindSpotJob_sameStatuses hrun
  | untouched _ _ hsame _ => exact hsame.incidents

end CrisisMosaic
