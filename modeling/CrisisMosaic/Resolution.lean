import CrisisMosaic.Reachable

/-!
# How a case leaves `resolved`

A case is resolved exactly while it has a time of resolution, and only reopening
it ends that. The one way around is an analysis requested for a resolved case:
the request writes the status whatever it was. A worker's answer does not,
because a resolved case is past the revision of every analysis.
-/

namespace CrisisMosaic
open Relational Store

namespace Store

def CasesConsistent (s : Store) : Prop := ∀ c x, s.cases.get c = some x → x.Consistent

/-- Every analysis is about a revision its case had before it was resolved. -/
def AnalysesBehind (s : Store) : Prop :=
  ∀ i a c, s.feed.analyses.get i = some a → a.analysisType = .conflictAnalysis →
    a.target = some c → ∃ x, s.cases.get c = some x ∧ a.inputVersion ≤ x.revision ∧
      (x.status = .resolved → a.inputVersion < x.revision)

/-- What an analysis was requested for and at which revision, in `t` as it was in `b`. -/
theorem AnalysesBehind.kept {b t : Store} (hb : b.AnalysesBehind)
    (hk : b.feed.AnalysesKept t.feed) {i c : Id} {a : AiAnalysis}
    (ha : t.feed.analyses.get i = some a) (ht : a.analysisType = .conflictAnalysis)
    (hc : a.target = some c) : ∃ x, b.cases.get c = some x ∧ a.inputVersion ≤ x.revision ∧
      (x.status = .resolved → a.inputVersion < x.revision) := by
  obtain ⟨d, hd, hdt, hds, hdv⟩ := hk i a ha ht
  rw [← hdv]
  refine hb i d c hd hdt ?_
  rwa [AiAnalysis.target, hds]

theorem AnalysesBehind.advance {b t : Store} (hb : b.AnalysesBehind)
    (hk : b.feed.AnalysesKept t.feed) (hc : b.cases.Evolves (ConflictCase.Tracks t.facts) t.cases) :
    t.AnalysesBehind := by
  intro i a c ha ht htarget
  obtain ⟨x, hx, hle, hlt⟩ := hb.kept hk ha ht htarget
  obtain ⟨y, hy, hxy⟩ := hc.get_some hx
  have hxy : x.Progress t.facts y := hxy
  refine ⟨y, hy, hle.trans hxy.revision, fun hr => ?_⟩
  by_cases hwas : x.status = .resolved
  · exact (hlt hwas).trans_le hxy.revision
  · exact hle.trans_lt (hxy.entered hwas hr)

theorem AnalysesBehind.restate {b t : Store} {id : Id} {status : CaseStatus} {x : ConflictCase}
    (hb : b.AnalysesBehind) (h : Restated b t id status) (hs : status ≠ .resolved)
    (hx : b.cases.get id = some x)
    (hk : ∀ i y, t.feed.analyses.get i = some y → y.analysisType = .conflictAnalysis →
      (∃ z, b.feed.analyses.get i = some z ∧ z.analysisType = .conflictAnalysis ∧
        z.inputSnapshot = y.inputSnapshot ∧ z.inputVersion = y.inputVersion) ∨
      y.target = some id ∧ y.inputVersion = x.revision) : t.AnalysesBehind := by
  intro i a c ha ht hc
  rcases hk i a ha ht with ⟨z, hz, hzt, hzs, hzv⟩ | ⟨htarget, hv⟩
  · obtain ⟨y, hy, hle, hlt⟩ := hb i z c hz hzt (by rwa [AiAnalysis.target, hzs])
    refine ⟨_, h.case hy, ?_⟩
    rw [← hzv]
    split_ifs
    · exact ⟨hle, fun hr => absurd hr hs⟩
    · exact ⟨hle, hlt⟩
  · obtain rfl := Option.some.inj (htarget.symm.trans hc)
    refine ⟨_, h.case hx, ?_⟩
    rw [if_pos rfl]
    exact ⟨hv.le, fun hr => absurd hr hs⟩

theorem CasesConsistent.advance {b t : Store} (hb : b.CasesConsistent)
    (hc : b.cases.Evolves (ConflictCase.Tracks t.facts) t.cases) : t.CasesConsistent := by
  intro c y hy
  have hrow := hc.rows c y hy
  cases hx : b.cases.get c with
  | none =>
    rw [hx] at hrow
    exact hrow
  | some x =>
    rw [hx] at hrow
    exact ConflictCase.Progress.consistent hrow (hb c x hx)

/-- Writing an open status to a case that is not resolved. -/
theorem CasesConsistent.restate {b t : Store} {id : Id} {status : CaseStatus} (hb : b.CasesConsistent)
    (h : Restated b t id status) (hs : status ≠ .resolved)
    (hx : ∀ x, b.cases.get id = some x → x.status ≠ .resolved) : t.CasesConsistent := by
  intro c y hy
  rw [h.cases] at hy
  rcases Table.get_modify_cases hy with ⟨rfl, x, hget, rfl⟩ | ⟨-, hget⟩
  · have hno : ¬ x.resolvedAt.isSome = true := fun ha => hx x hget ((hb _ x hget).mpr ha)
    exact iff_of_false hs hno
  · exact hb c y hget

end Store

section Steps
variable {env : Env} {db : Db} {op : Op} {o : Outcome}

theorem Decision.casesTrack {now : Time} {s t : Store} {id : Id} {payload : DecisionRequest}
    {x : ConflictCase} {ready : Facts} {factId : Id} {record : FactRecord} {draft : VersionDraft}
    (h : Decision env now s t id payload x ready factId record draft) :
    s.cases.Evolves (ConflictCase.Tracks t.facts) t.cases where
  rows := by
    intro c y hy
    obtain ⟨z, hz, hprogress, -⟩ := h.tracks hy
    rw [hz]
    exact hprogress
  size := by
    obtain ⟨decidedBy, resolution, hcases⟩ := h.cases
    rw [hcases, Table.size_modify]

theorem Effect.analysesBehind (h : Effect env db op o) (hb : db.toStore.AnalysesBehind) :
    o.db.toStore.AnalysesBehind := by
  cases h with
  | worked hw _ _ _ => exact hb.advance hw.analyses hw.cases
  | decided _ hd _ _ => exact hb.advance hd.analyses hd.casesTrack
  | requested _ hr _ _ =>
    obtain ⟨status, hstatus, hrestate⟩ := hr.status
    exact hb.restate hrestate (by rcases hstatus with rfl | rfl <;> decide) hr.case hr.analyses
  | analysed ha _ _ =>
    cases ha with
    | quiet k => exact hb.advance k.analyses (k.cases ▸ .refl (ConflictCase.Progress.refl _) _)
    | answered _ _ _ hx _ hr hk =>
      exact hb.restate hr (by decide) hx fun i y hy ht => Or.inl (hk i y hy ht)
    | released hx _ hr hk =>
      exact hb.restate hr (by decide) hx fun i y hy ht => Or.inl (hk i y hy ht)

/-- No analysis is requested for a case that is resolved, or the request is refused. -/
def RequestsUnresolved (env : Env) (db : Db) (op : Op) : Prop :=
  ∀ c x o, transact env db op = .ok o → op.requests db c → db.cases.get c = some x →
    x.status ≠ .resolved

/-- A worker's step never meets a resolved case. -/
theorem AnalysisStep.unresolved {b t : Store} (h : AnalysisStep b t) (hb : b.AnalysesBehind) :
    b.Quiet t ∨ ∃ id x status, b.cases.get id = some x ∧ x.status ≠ .resolved ∧
      status ≠ .resolved ∧ Restated b t id status := by
  cases h with
  | quiet k => exact Or.inl k
  | @answered i a id x hi htype htarget hx hrev hr _ =>
    refine Or.inr ⟨id, x, _, hx, fun hresolved => ?_, by decide, hr⟩
    obtain ⟨y, hy, -, hlt⟩ := hb i a id hi htype htarget
    obtain rfl := Option.some.inj (hx.symm.trans hy)
    have := hlt hresolved
    omega
  | @released id x hx hstatus hr _ =>
    exact Or.inr ⟨id, x, _, hx, by simp [hstatus], by decide, hr⟩

/-- A case that leaves `resolved` was reopened. -/
def LeavesByReopening (db : Db) (op : Op) (o : Outcome) : Prop :=
  ∀ c x y, db.cases.get c = some x → o.db.cases.get c = some y → x.status = .resolved →
    y.status ≠ .resolved → (op.reopens db c ∨ openedBy o.detection c) ∧ x.LeftResolved y ∧
      o.db.facts.UnderReview x.incidentId x.factKey

theorem leavesByReopening_of_restated {id : Id} {x : ConflictCase} {status : CaseStatus}
    (h : Restated db.toStore o.db.toStore id status) (hx : db.cases.get id = some x)
    (hs : x.status ≠ .resolved) : LeavesByReopening db op o := by
  intro c z y hz hy hr hne
  have hy' := h.case hz
  obtain rfl := Option.some.inj (hy.symm.trans hy')
  split_ifs at hne with hc
  · subst hc
    obtain rfl := Option.some.inj (hx.symm.trans hz)
    exact absurd hr hs
  · exact absurd hr hne

theorem Effect.resolution (h : Effect env db op o) (hc : db.toStore.CasesConsistent)
    (hb : db.toStore.AnalysesBehind)
    (hreq : ∀ c x, op.requests db c → db.cases.get c = some x → x.status ≠ .resolved) :
    o.db.toStore.CasesConsistent ∧ LeavesByReopening db op o := by
  cases h with
  | worked hw _ _ _ =>
    refine ⟨hc.advance hw.cases, fun c x y hx hy hr hne => ?_⟩
    obtain ⟨z, hz, hxz⟩ := hw.cases.get_some hx
    obtain rfl := Option.some.inj (hz.symm.trans hy)
    exact ⟨(hw.left c x _ hx hy hr).resolve_left hne, ConflictCase.Progress.left hxz hr hne⟩
  | decided _ hd _ _ =>
    refine ⟨hc.advance hd.casesTrack, fun c x y hx hy hr hne => ?_⟩
    obtain ⟨z, hz, -, hstay⟩ := hd.tracks hy
    obtain rfl := Option.some.inj (hz.symm.trans hx)
    exact absurd (hstay hr) hne
  | @requested id x hop hr _ _ =>
    obtain ⟨status, hstatus, hrestate⟩ := hr.status
    have hx := hreq id x hop hr.case
    refine ⟨hc.restate hrestate (by rcases hstatus with rfl | rfl <;> decide) fun y hy => ?_,
      leavesByReopening_of_restated hrestate hr.case hx⟩
    exact Option.some.inj (hr.case.symm.trans hy) ▸ hx
  | analysed ha _ _ =>
    rcases ha.unresolved hb with k | ⟨id, x, status, hx, hs, hstatus, hr⟩
    · refine ⟨fun c x hx => hc c x (k.cases ▸ hx), fun c x y hx hy hr hne => ?_⟩
      rw [k.cases] at hy
      exact absurd (Option.some.inj (hx.symm.trans hy) ▸ hr) hne
    · refine ⟨hc.restate hr hstatus fun y hy => ?_, leavesByReopening_of_restated hr hx hs⟩
      exact Option.some.inj (hx.symm.trans hy) ▸ hs

theorem transact_resolution (h : transact env db op = .ok o) (hs : db.toStore.Sound)
    (hc : db.toStore.CasesConsistent) (hb : db.toStore.AnalysesBehind)
    (hreq : RequestsUnresolved env db op) :
    o.db.toStore.CasesConsistent ∧ LeavesByReopening db op o :=
  (transact_effect h hs).resolution hc hb fun c x hop hx => hreq c x o h hop hx

end Steps

namespace Op

/-- The operations of the analysis queue. -/
def isAnalysis (op : Op) : Bool :=
  match op.call with
  | .requestAnalysis .. | .startAnalysis .. | .completeAnalysis .. | .failAnalysis ..
  | .retryAnalysis .. => true
  | _ => false

theorem isAnalysis_detects_nothing {env : Env} {db : Db} {op : Op} {o : Outcome}
    (h : transact env db op = .ok o) (ha : op.isAnalysis = true) (c : Id) :
    ¬ (op.reopens db c ∨ openedBy o.detection c) := by
  obtain ⟨now, actor, header, call⟩ := op
  have hnone : o.detection = none := by
    cases call with
    | requestAnalysis => obtain ⟨r, -, rfl⟩ := map_ok.mp h; rfl
    | startAnalysis => obtain ⟨r, -, rfl⟩ := map_ok.mp h; rfl
    | completeAnalysis => obtain ⟨r, -, rfl⟩ := map_ok.mp h; rfl
    | failAnalysis => obtain ⟨r, -, rfl⟩ := map_ok.mp h; rfl
    | retryAnalysis => obtain ⟨r, -, rfl⟩ := map_ok.mp h; rfl
    | _ => exact nomatch ha
  rw [hnone, openedBy_none]
  cases call <;> simp [isAnalysis, reopens] at ha ⊢

end Op

theorem step_analysesBehind (env : Env) (db : Db) (op : Op) (hs : db.toStore.Sound)
    (hb : db.toStore.AnalysesBehind) : (step env db op).toStore.AnalysesBehind :=
  step_cases (P := fun t : Db => t.toStore.AnalysesBehind) hb fun _ ho =>
    (transact_effect ho hs).analysesBehind hb

section Runs
variable (env : Env) (incidents : Table Incident) (devices : Table AnonymousDevice)
  (attachments : Table Attachment)

theorem reached_analysesBehind (ops : List Op) :
    (reached env incidents devices attachments ops).toStore.AnalysesBehind := by
  refine (run_invariant (step env) (I := fun t : Db => t.toStore.Sound ∧ t.toStore.AnalysesBehind)
    (fun t op ht _ => ⟨step_sound env t op ht.1, step_analysesBehind env t op ht.1 ht.2⟩)
    ⟨initial_sound incidents devices attachments,
      fun _ _ _ h => nomatch (Table.get_empty _).symm.trans h⟩ (along_true (step env) _ ops)).2

theorem reached_casesConsistent {ops : List Op}
    (hreq : Along (step env) (RequestsUnresolved env) (Db.initial incidents devices attachments) ops) :
    (reached env incidents devices attachments ops).toStore.CasesConsistent := by
  refine (run_invariant (step env) (I := fun t : Db => t.toStore.Sound ∧ t.toStore.AnalysesBehind ∧
    t.toStore.CasesConsistent) (fun t op ht hop => ?_) ⟨initial_sound incidents devices attachments,
      reached_analysesBehind env incidents devices attachments [], ?_⟩ hreq).2.2
  · obtain ⟨hs, hb, hc⟩ := ht
    exact ⟨step_sound env t op hs, step_analysesBehind env t op hs hb,
      step_cases (P := fun t : Db => t.toStore.CasesConsistent) hc fun o ho =>
        (transact_resolution ho hs hc hb hop).1⟩
  · exact fun _ _ h => nomatch (Table.get_empty _).symm.trans h

end Runs

/-- In a run that requests no analysis for a resolved case, a case is resolved exactly while it
has a time of resolution, and only a reopening, never the analysis queue, ends that. -/
theorem cases_leave_resolved_by_reopening (env : Env) (incidents : Table Incident)
    (devices : Table AnonymousDevice) (attachments : Table Attachment) (ops : List Op)
    (hreq : Along (step env) (RequestsUnresolved env)
      (Db.initial incidents devices attachments) ops) :
    let s := reached env incidents devices attachments ops
    (∀ c x, s.cases.get c = some x → (x.status = .resolved ↔ x.resolvedAt.isSome = true)) ∧
      ∀ op o, transact env s op = .ok o → RequestsUnresolved env s op → LeavesByReopening s op o ∧
        (op.isAnalysis = true → ∀ c x y, s.cases.get c = some x → o.db.cases.get c = some y →
          x.status = .resolved → y.status = .resolved) := by
  intro s
  have hc := reached_casesConsistent env incidents devices attachments hreq
  refine ⟨hc, fun op o ho hop => ?_⟩
  have hleaves := (transact_resolution ho (reached_sound env incidents devices attachments ops) hc
    (reached_analysesBehind env incidents devices attachments ops) hop).2
  refine ⟨hleaves, fun ha c x y hx hy hr => ?_⟩
  by_contra hne
  exact Op.isAnalysis_detects_nothing ho ha c (hleaves c x y hx hy hr hne).1

theorem decided_case_is_resolved : ∃ x,
    (Sample.reached (Sample.decided ⟨.current, Or.inl rfl⟩)).cases.get 0 = some x ∧
      x.status = .resolved ∧ x.resolvedAt.isSome = true := by
  obtain ⟨x, hx, hr⟩ := (Option.any_eq_true _ _).mp
    (show ((Sample.reached (Sample.decided ⟨.current, Or.inl rfl⟩)).cases.get 0).any
      (fun x => x.status = .resolved) = true by decide +kernel)
  have hreq : Along (step Sample.env) (RequestsUnresolved Sample.env) Sample.initial
      (Sample.decided ⟨.current, Or.inl rfl⟩) :=
    ⟨fun _ _ _ _ h => h.elim, fun _ _ _ _ h => h.elim, fun _ _ _ _ h => h.elim,
      fun _ _ _ _ h => h.elim, trivial⟩
  exact ⟨x, hx, of_decide_eq_true hr, ((cases_leave_resolved_by_reopening _ _ _ _ _ hreq).1 0 x hx).mp
    (of_decide_eq_true hr)⟩

/-- A case is decided, and an analysis of it is requested at the revision of the decision. -/
def analyzedAfterDecision : List Op :=
  Sample.decided ⟨.current, Sample.current_allowed⟩ ++ [⟨3, Sample.admin, none, .requestAnalysis (.id 0) none 2 []⟩]

theorem requested_analysis_ends_resolved : ∃ x,
    (Sample.reached analyzedAfterDecision).cases.get 0 = some x ∧ x.status = .analyzing ∧
      x.resolvedAt.isSome = true := by
  obtain ⟨x, hx, h⟩ := (Option.any_eq_true _ _).mp
    (show ((Sample.reached analyzedAfterDecision).cases.get 0).any
      (fun x => x.status = .analyzing ∧ x.resolvedAt.isSome = true) = true by decide +kernel)
  exact ⟨x, hx, of_decide_eq_true h⟩

end CrisisMosaic
