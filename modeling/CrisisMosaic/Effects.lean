import CrisisMosaic.AnalysisSteps
import CrisisMosaic.DecisionSteps
import CrisisMosaic.ReportSteps
import CrisisMosaic.System

/-!
# What an operation does

Every accepted operation works on the store, decides a case, requests an analysis
or is a worker's step of one. The invariants are proved from these four effects
and never look into a handler again.
-/

namespace CrisisMosaic
open Relational Store

namespace Op

/-- The evidence an operation names itself. -/
def asked (env : Env) (db : Db) (op : Op) : Asked :=
  match op.call with
  | .createConflict _ payload => ⟨citesFragment payload.evidence, fun _ => False⟩
  | .appendConflictEvidence conflict _ references =>
      ⟨citesFragment references, fun e => ∃ id x, getCase db.cases conflict = .ok (id, x) ∧
        isSuperseded db.sources db.fragments id references e⟩
  | .putMyAnswer question payload =>
      ⟨fun _ => False, Questions.Recites env db op.actor question payload⟩
  | _ => .nothing

/-- The operation is an operator's reopening of the case. -/
def reopens (db : Db) (op : Op) (c : Id) : Prop :=
  match op.call with
  | .reopenConflict conflict _ _ => ∃ x, getCase db.cases conflict = .ok (c, x)
  | _ => False

/-- The operation edits the observed fields of the report. -/
def patches (op : Op) (id : Id) : Prop :=
  match op.call with
  | .patchReport report payload _ => id = report ∧ payload.observes = true
  | _ => False

/-- The operation decides the case `id` with `payload`. -/
def decides (db : Db) (op : Op) (id : Id) (payload : DecisionRequest) : Prop :=
  match op.call with
  | .submitConflictDecision conflict p =>
      p = payload ∧ ∃ x, getCase db.cases conflict = .ok (id, x)
  | _ => False

/-- The operation requests an analysis of the case. -/
def requests (db : Db) (op : Op) (id : Id) : Prop :=
  match op.call with
  | .requestAnalysis conflict _ _ _ => ∃ x, getCase db.cases conflict = .ok (id, x)
  | _ => False

end Op

inductive Effect (env : Env) (db : Db) (op : Op) (o : Outcome) : Prop
  | worked :
      db.toStore.Works (op.asked env db) (fun c => op.reopens db c ∨ openedBy o.detection c)
        o.db.toStore →
      ReportsStep db o.db op.patches →
      (∀ k, (op.asked env db).cites k → CalmFragments db.fragments o.db.fragments) →
      (∀ d, o.detection = some d → d.Of env op.now db.toStore) → Effect env db op o
  | decided {id : Id} {payload : DecisionRequest} {x : ConflictCase} {ready : Facts} {factId : Id}
      {record : FactRecord} {draft : VersionDraft} : op.decides db id payload →
      Decision env op.now db.toStore o.db.toStore id payload x ready factId record draft →
      o.db.reports = db.reports → o.detection = none → Effect env db op o
  | requested {id : Id} {x : ConflictCase} : op.requests db id →
      RequestStep db.toStore o.db.toStore id x → o.db.reports = db.reports → o.detection = none →
      Effect env db op o
  | analysed : AnalysisStep db.toStore o.db.toStore → o.db.reports = db.reports →
      o.detection = none → Effect env db op o

section Routes
variable {env : Env} {now : Time} {db db' : Db} {actor : Actor} {header : Option Ref}

theorem Questions.createBlindSpot_quiet {incidentId : Ref} {payload : Questions.BlindSpotCreate}
    (h : Questions.createBlindSpot env now db actor header incidentId payload = .ok db') :
    db.toStore.Quiet db'.toStore ∧ db'.reports = db.reports := by
  simp only [Questions.createBlindSpot, bind_ok, pure_ok, Prod.exists] at h
  obtain ⟨-, -, -, -, i, -, -, rfl⟩ := h
  exact ⟨(withSpotBoard_quiet db (SpotBoard.Draws.add .refl _).quiet).trans (emit_quiet _ now i _), rfl⟩

theorem Questions.createQuestion_quiet {incidentId : Ref}
    {payload : Questions.DirectedQuestionCreate}
    (h : Questions.createQuestion now db actor header incidentId payload = .ok db') :
    db.toStore.Quiet db'.toStore ∧ db'.reports = db.reports := by
  simp only [Questions.createQuestion, bind_ok, pure_ok, Prod.exists] at h
  obtain ⟨-, -, -, -, -, -, i, -, -, -, -, -, -, rfl⟩ := h
  exact ⟨.refl _, rfl⟩

theorem Questions.changeQuestionStatus_quiet {id revision : ℕ} {target : QuestionStatus}
    (h : Questions.changeQuestionStatus now db actor header id revision target = .ok db') :
    db.toStore.Quiet db'.toStore ∧ db'.reports = db.reports := by
  simp only [Questions.changeQuestionStatus, bind_ok, pure_ok] at h
  obtain ⟨-, -, q, -, -, -, -, -, -, -, -, -, rfl⟩ := h
  exact ⟨emit_quiet _ now q.incidentId _, rfl⟩

theorem runBlindSpotJob_quiet {jobId : Id} (h : runBlindSpotJob env now db jobId = .ok db') :
    db.toStore.Quiet db'.toStore ∧ db'.reports = db.reports := by
  simp only [runBlindSpotJob, bind_ok] at h
  obtain ⟨job, -, -, -, h⟩ := h
  split_ifs at h
  · rw [pure_ok] at h
    exact h ▸ ⟨.refl _, rfl⟩
  · split at h
    · rw [pure_ok] at h
      exact h ▸ ⟨withSpotBoard_quiet db
        (runReportBlindSpotDetection_draws env now _ _ _ _ _ _ _ _).quiet, rfl⟩
    · exact absurd h throw_ok

theorem submitConflictDecision_spec {s t : Store} {conflict : Ref} {payload : DecisionRequest}
    (h : submitConflictDecision env now s actor header conflict payload = .ok t) :
    ∃ id x, getCase s.cases conflict = .ok (id, x) ∧ ∃ y ready factId record draft,
      Decision env now s t id payload y ready factId record draft := by
  simp only [submitConflictDecision, bind_ok, Prod.exists] at h
  obtain ⟨-, -, id, x, hx, -, -, h⟩ := h
  exact ⟨id, x, hx, decideConflict_spec h⟩

end Routes

section Handle
variable {env : Env} {db : Db} {op : Op} {o : Outcome}

theorem Effect.of_quiet (hs : db.toStore.Sound) (h : db.toStore.Quiet o.db.toStore)
    (hr : o.db.reports = db.reports) (hd : o.detection = none) : Effect env db op o :=
  .worked (h.works hs _ _) (.kept hr (h.fragments ▸ .refl .refl _))
    (fun _ _ => h.fragments ▸ .refl .refl _) fun _ hd' => nomatch hd.symm.trans hd'

theorem Effect.of_reported (hask : op.asked env db = .nothing)
    (h : Reported env op.now db o.db op.patches o.detection) : Effect env db op o :=
  .worked (hask ▸ { h.works with left := fun c x y hx hy hr =>
    (h.works.left c x y hx hy hr).imp_right Or.inr }) h.reports
    (fun k hk => (hask ▸ hk : Asked.nothing.cites k).elim) h.detected

theorem Effect.of_worked {reopens : Id → Prop}
    (h : Worked env op.now db o.db (op.asked env db) reopens o.detection)
    (hr : ∀ c, reopens c → op.reopens db c ∨ openedBy o.detection c) : Effect env db op o :=
  .worked { h.works with left := fun c x y hx hy hc =>
    (h.works.left c x y hx hy hc).imp_right (hr c) } (.kept h.reports h.fragments)
    (fun _ _ => h.fragments) h.detected

theorem Effect.of_settles {asked : Asked} {reopens : Id → Prop} {t : Store} (hs : db.toStore.Sound)
    (hask : op.asked env db = asked) (ht : o = .ofStore db t)
    (h : db.toStore.Settles none db.toStore asked reopens t)
    (hr : ∀ c, reopens c → op.reopens db c) : Effect env db op o := by
  subst hask ht
  have hworks := (Rewrites.refl db.toStore).works hs.upToDate h
  exact .worked { hworks with left := fun c x y hx hy hc =>
    (hworks.left c x y hx hy hc).imp_right fun hc => Or.inl (hr c hc) }
    (.kept rfl h.advances.fragments) (fun _ _ => h.advances.fragments) fun _ hd => nomatch hd

theorem handle_effect (h : handle env db op = .ok o) (hs : db.toStore.Sound) :
    Effect env db op o := by
  obtain ⟨now, actor, header, call⟩ := op
  cases call with
  | postReport incident payload refinement contact =>
    obtain ⟨r, hr, rfl⟩ := map_ok.mp h
    exact .of_reported rfl (postReport_spec hr hs _)
  | patchReport report payload refinement =>
    obtain ⟨r, hr, rfl⟩ := map_ok.mp h
    exact .of_reported rfl (patchReport_spec hr hs)
  | deleteReport report revision =>
    obtain ⟨r, hr, rfl⟩ := map_ok.mp h
    exact .of_reported rfl (deleteReport_spec hr hs _)
  | patchReportStatus report revision status =>
    obtain ⟨r, hr, rfl⟩ := map_ok.mp h
    exact .of_reported rfl (patchReportStatus_spec hr hs _)
  | patchReportPriority report revision priority refinement =>
    obtain ⟨r, hr, rfl⟩ := map_ok.mp h
    exact .of_reported rfl (patchReportPriority_spec hr hs _)
  | createBlindSpot incident payload =>
    obtain ⟨r, hr, rfl⟩ := map_ok.mp h
    obtain ⟨hq, hreports⟩ := Questions.createBlindSpot_quiet hr
    exact .of_quiet hs hq hreports rfl
  | createQuestion incident payload =>
    obtain ⟨r, hr, rfl⟩ := map_ok.mp h
    obtain ⟨hq, hreports⟩ := Questions.createQuestion_quiet hr
    exact .of_quiet hs hq hreports rfl
  | publishQuestion question revision =>
    obtain ⟨r, hr, rfl⟩ := map_ok.mp h
    obtain ⟨hq, hreports⟩ := Questions.changeQuestionStatus_quiet hr
    exact .of_quiet hs hq hreports rfl
  | closeQuestion question revision =>
    obtain ⟨r, hr, rfl⟩ := map_ok.mp h
    obtain ⟨hq, hreports⟩ := Questions.changeQuestionStatus_quiet hr
    exact .of_quiet hs hq hreports rfl
  | putMyAnswer question payload =>
    obtain ⟨r, hr, rfl⟩ := map_ok.mp h
    exact .of_worked (Questions.putMyAnswer_spec hr hs) fun _ => Or.inr
  | createFragment incident payload =>
    obtain ⟨r, hr, rfl⟩ := map_ok.mp h
    exact .of_worked (Questions.createFragment_spec hr hs) fun _ => Or.inr
  | createConflict incident payload =>
    obtain ⟨t, ht, rfl⟩ := map_ok.mp h
    exact .of_settles hs rfl rfl (createConflict_spec ht hs _) fun _ hc => hc.elim
  | appendConflictEvidence conflict revision references =>
    obtain ⟨t, ht, rfl⟩ := map_ok.mp h
    obtain ⟨id, x, hx, hset⟩ := appendConflictEvidence_spec ht hs db.toStore
    refine .of_settles hs ?_ rfl hset fun _ hc => hc.elim
    simp only [Op.asked, Asked.mk.injEq, true_and]
    funext e
    refine propext ⟨?_, fun he => ⟨id, x, hx, he⟩⟩
    rintro ⟨c, y, hy, he⟩
    obtain ⟨rfl, -⟩ := Prod.mk.inj (Except.ok.inj (hx.symm.trans hy))
    exact he
  | reopenConflict conflict revision reason =>
    obtain ⟨t, ht, rfl⟩ := map_ok.mp h
    obtain ⟨id, x, hx, hset⟩ := reopenConflict_spec ht hs db.toStore
    exact .of_settles hs rfl rfl hset fun c hc => hc ▸ ⟨x, hx⟩
  | submitConflictDecision conflict payload =>
    obtain ⟨t, ht, rfl⟩ := map_ok.mp h
    obtain ⟨id, x, hx, y, ready, factId, record, draft, hdec⟩ := submitConflictDecision_spec ht
    exact .decided ⟨rfl, x, hx⟩ hdec rfl rfl
  | requestAnalysis conflict incident revision requested =>
    obtain ⟨t, ht, rfl⟩ := map_ok.mp h
    obtain ⟨id, x, hx, hreq, hreports⟩ := requestAnalysis_spec ht
    exact .requested ⟨x, hx⟩ hreq hreports rfl
  | startAnalysis analysis =>
    obtain ⟨t, ht, rfl⟩ := map_ok.mp h
    exact .of_quiet hs (startAnalysis_spec ht) rfl rfl
  | completeAnalysis analysis output confidence seenStale =>
    obtain ⟨t, ht, rfl⟩ := map_ok.mp h
    exact .analysed (completeAnalysis_spec ht) rfl rfl
  | failAnalysis analysis error =>
    obtain ⟨t, ht, rfl⟩ := map_ok.mp h
    exact .analysed (failAnalysis_spec ht) rfl rfl
  | retryAnalysis analysis =>
    obtain ⟨r, hr, rfl⟩ := map_ok.mp h
    obtain ⟨hq, hreports⟩ := retryAnalysis_spec hr
    exact .of_quiet hs hq hreports rfl
  | runBlindSpotJob job =>
    obtain ⟨r, hr, rfl⟩ := map_ok.mp h
    obtain ⟨hq, hreports⟩ := runBlindSpotJob_quiet hr
    exact .of_quiet hs hq hreports rfl
  | uploads attachments =>
    rw [handle, pure_ok] at h
    subst h
    exact .of_quiet hs (.refl _) rfl rfl

end Handle
end CrisisMosaic
