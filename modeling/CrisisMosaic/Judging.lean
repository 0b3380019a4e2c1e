import CrisisMosaic.LedgerSteps
import CrisisMosaic.Reachable

/-!
# Decisions and analyses on the ledger

Decisions and the steps of an analysis have their own effects on the ledger, one
constructor of `Judges` for each; everything else is a sequence of moves.
-/

namespace CrisisMosaic
open Relational

theorem AiAnalysis.concerns_iff_target {a : AiAnalysis} {c : Id} :
    a.concerns c = true ↔ a.analysisType = .conflictAnalysis ∧ a.target = some c := by
  rw [AiAnalysis.concerns_iff, AiAnalysis.target]
  cases a.inputSnapshot.get "conflict_id" with
  | none => simp
  | some j => cases j <;> simp [Json.isRef, Json.asRef]

/-- What an analysis was requested for, which the worker never changes. -/
structure AiAnalysis.SameRequest (a b : AiAnalysis) : Prop where
  analysisType : b.analysisType = a.analysisType
  incidentId : b.incidentId = a.incidentId
  inputSnapshot : b.inputSnapshot = a.inputSnapshot
  inputVersion : b.inputVersion = a.inputVersion
  contextSha256 : b.contextSha256 = a.contextSha256

theorem AiAnalysis.SameRequest.refl (a : AiAnalysis) : a.SameRequest a := ⟨rfl, rfl, rfl, rfl, rfl⟩

theorem AiAnalysis.SameRequest.trans {a b c : AiAnalysis} (h : a.SameRequest b)
    (k : b.SameRequest c) : a.SameRequest c :=
  ⟨k.analysisType.trans h.analysisType, k.incidentId.trans h.incidentId,
    k.inputSnapshot.trans h.inputSnapshot, k.inputVersion.trans h.inputVersion,
    k.contextSha256.trans h.contextSha256⟩

theorem AiAnalysis.SameRequest.target {a b : AiAnalysis} (h : a.SameRequest b) : b.target = a.target := by
  rw [AiAnalysis.target, h.inputSnapshot, AiAnalysis.target]

/-- The context of an analysis says which case it describes, and at which revision. -/
def Dict.Describes (context : Dict) (c : Id) (x : ConflictCase) : Prop :=
  ∃ conflict : Dict, context.get "conflict" = some (.obj conflict) ∧
    conflict.get "id" = some (.ref c) ∧ conflict.get "revision" = some (.nat x.revision)

/-- A case that waited for the analysis may have been let go. -/
def ReleasedFrom (cases cases' : Table ConflictCase) : Prop :=
  cases' = cases ∨ ∃ c x, cases.get c = some x ∧ x.status = .analyzing ∧
    cases' = cases.modify c fun x => { x with status := .opened }

/-- The analysis whose answer, if it has one, the operation takes back. -/
def Call.undoes : Call → Option Id
  | .startAnalysis analysis | .failAnalysis analysis _ | .retryAnalysis analysis => some analysis
  | _ => none

/-- What a decision or a step of an analysis makes of the ledger. -/
inductive Ledger.Judges (env : Env) (l m : Ledger) : Call → Prop
  | decided {conflict : Ref} {payload : DecisionRequest} {c : Id} {x : ConflictCase} {now : Time}
      {decidedBy : Option Id} {resolution : Dict} : getCase l.cases conflict = .ok (c, x) →
      m.cases = l.cases.modify c (fun _ => resolveCase now x decidedBy resolution true) →
      SameAnalyses l.analyses m.analyses → Judges env l m (.submitConflictDecision conflict payload)
  | answered {call : Call} {c i : Id} {x : ConflictCase} {a : AiAnalysis} {context : Dict} :
      l.cases.get c = some x → l.analyses.get i = some a →
      sameContext env (env.canonicalSha256 (.obj context)) a = true → context.Describes c x →
      m.cases = l.cases.modify c (fun x => { x with status := .analysisReady }) →
      SameAnalyses l.analyses m.analyses → Judges env l m call
  | queued {call : Call} {c : Id} {x : ConflictCase} {now : Time} {actor : Actor} {context : Dict}
      {allowed : List Id} : l.cases.get c = some x → context.Describes c x →
      m.cases = l.cases.modify c (fun x => { x with status := .analyzing }) →
      SameAnalyses (l.analyses.insert (queuedAnalysis env now c x actor context
        (env.canonicalSha256 (.obj context)) allowed)) m.analyses → Judges env l m call
  | undone {call : Call} {i : Id} {a b : AiAnalysis} : call.undoes = some i →
      l.analyses.get i = some a → a.SameRequest b → b.status ≠ .succeeded →
      (b.isStale = true → a.isStale = true) → ReleasedFrom l.cases m.cases →
      SameAnalyses (l.analyses.modify i fun _ => b) m.analyses → Judges env l m call
  | completed {call : Call} {c i : Id} {x : ConflictCase} {a b : AiAnalysis} :
      l.analyses.get i = some a → a.analysisType = .conflictAnalysis → a.SameRequest b →
      b.status = .succeeded → b.isStale = a.isStale →
      a.target = some c → l.cases.get c = some x → x.revision = a.inputVersion →
      m.cases = l.cases.modify c (fun x => { x with status := .analysisReady }) →
      SameAnalyses (l.analyses.modify i fun _ => b) m.analyses → Judges env l m call
  | overtaken {i : Id} {a : AiAnalysis} {now : Time} {output : Dict} {confidence : ℚ}
      {seenStale : Bool} : l.analyses.get i = some a →
      (seenStale || isOutdated a (a.case? l.cases)) = true → ReleasedFrom l.cases m.cases →
      SameAnalyses (l.analyses.modify i fun _ =>
        completedAnalysis now a output confidence seenStale (isOutdated a (a.case? l.cases)))
        m.analyses → Judges env l m (.completeAnalysis i output confidence seenStale)

section Handlers
variable {env : Env} {now : Time} {actor : Actor} {header : Option Ref} {s t : Store}

theorem disposeFragments_feed (env : Env) (payload : DecisionRequest)
    (evidence : Table ConflictEvidence) (ids : List Id) :
    ∀ s : Store, (ids.foldl (disposeFragment now env payload evidence) s).feed = s.feed := by
  induction ids with
  | nil => exact fun _ => rfl
  | cons i ids ih =>
    intro s
    have hone : (disposeFragment now env payload evidence s i).feed = s.feed := by
      unfold disposeFragment
      split
      · next e he =>
        by_cases hk : e.kind = .fragment
        · rw [if_pos hk]
          split <;> rfl
        · rw [if_neg hk]
      · rfl
    exact (ih _).trans hone

variable {sources : Sources} {id : Id}

theorem decideConflict_sameAnalyses {payload : DecisionRequest}
    (h : decideConflict now env actor s id payload = .ok t) :
    SameAnalyses s.feed.analyses t.feed.analyses := by
  simp only [decideConflict, bind_ok, found_ok, require_ok, pure_ok, Prod.exists] at h
  obtain ⟨-, -, -, -, -, -, -, -, analysis, -, facts, j, r, created, -, rfl⟩ := h
  refine SameAnalyses.trans ?_ (Feed.emitEvent_sameAnalyses _ now _ _)
  refine SameAnalyses.trans ?_ (Feed.emitEvent_sameAnalyses _ now _ _)
  dsimp only
  rw [disposeFragments_feed]
  exact .refl _

theorem submitConflictDecision_judges {conflictId : Ref} {payload : DecisionRequest}
    (h : submitConflictDecision env now s actor header conflictId payload = .ok t) :
    (s.ledger sources).Judges env (t.ledger sources) (.submitConflictDecision conflictId payload) := by
  simp only [submitConflictDecision, bind_ok, Prod.exists] at h
  obtain ⟨-, -, id, x, hx, -, -, h⟩ := h
  obtain ⟨y, ready, factId, record, draft, hdec⟩ := decideConflict_spec h
  obtain ⟨decidedBy, resolution, hcases⟩ := hdec.cases
  obtain rfl : x = y := Option.some.inj ((getCase_some hx).symm.trans hdec.case)
  exact .decided hx hcases (decideConflict_sameAnalyses h)

/-- The context of a request describes the case it is made for. -/
theorem buildConflictContext_describes {attachments : Table Attachment} {x : ConflictCase}
    {requested : List Id} {context : Dict} {allowed : List Id}
    (h : buildConflictContext env attachments s id x requested = .ok (context, allowed)) :
    context.Describes id x := by
  simp only [buildConflictContext, bind_ok, pure_ok, Prod.mk.injEq] at h
  obtain ⟨-, -, -, -, rfl, -⟩ := h
  exact ⟨_, rfl, rfl, rfl⟩

theorem requestAnalysis_judges {db db' : Db} {incident : Option Ref} {conflictId : Ref}
    {revision : ℕ} {requested : List Id}
    (h : requestAnalysis env now db actor header conflictId incident revision requested = .ok db') :
    db.ledger.Judges env db'.ledger
      (.requestAnalysis conflictId incident revision requested) := by
  simp only [requestAnalysis, bind_ok, pure_ok, Prod.exists] at h
  obtain ⟨-, -, id, x, hx, -, -, -, -, m, jobs, analysisId, ready, hm, -, -, rfl⟩ := h
  have hcase : db.cases.get id = some x := by
    cases hc : getCase db.cases conflictId with
    | ok r =>
      obtain rfl : r = (id, x) := by simpa [hc, Except.mapError] using hx
      exact getCase_some hc
    | error e => simp [hc, Except.mapError] at hx
  have hemit := fun e => m.feed.emitEvent_sameAnalyses now x.incidentId e
  simp only [enqueueConflictAnalysis, bind_ok, Prod.exists] at hm
  obtain ⟨-, -, -, -, context, allowed, hcontext, hm⟩ := hm
  have hdescribes := buildConflictContext_describes hcontext
  split at hm
  · next i hi =>
    simp only [pure_ok, Prod.mk.injEq] at hm
    obtain ⟨rfl, -⟩ := hm
    have hmem := List.mem_of_mem_head? hi
    simp only [newestFirst, List.mem_insertionSort, Table.mem_select] at hmem
    obtain ⟨a, ha, hsame⟩ := hmem
    exact .answered hcase ha hsame hdescribes rfl (hemit _)
  · simp only [pure_ok, Prod.mk.injEq] at hm
    obtain ⟨rfl, -⟩ := hm
    exact .queued hcase hdescribes rfl (hemit _)

section Worker
variable {a : AiAnalysis}

theorem releaseCase_cases (env : Env) (now : Time) (s : Store) (a : AiAnalysis) :
    ReleasedFrom s.cases (releaseCase env now s (a.case? s.cases)).cases := by
  unfold releaseCase
  by_cases hwait : (a.case? s.cases).any (fun t => t.2.status = .analyzing) = true
  · rw [if_pos hwait]
    obtain ⟨⟨c, x⟩, hx, hstatus⟩ := (Option.any_eq_true _ _).mp hwait
    rw [hx]
    exact Or.inr ⟨c, x, (AiAnalysis.case?_some hx).2, by simpa using hstatus, rfl⟩
  · rw [if_neg hwait]
    exact Or.inl rfl

theorem releaseCase_sameAnalyses (env : Env) (now : Time) (s : Store)
    (target : Option (Id × ConflictCase)) (incidentId : Id) (e : Event) :
    SameAnalyses s.feed.analyses
      ((releaseCase env now s target).emit now incidentId e).feed.analyses := by
  have hfeed : (releaseCase env now s target).feed = s.feed := by
    unfold releaseCase retarget
    split_ifs
    · cases target <;> rfl
    · rfl
  exact hfeed ▸ (releaseCase env now s target).feed.emitEvent_sameAnalyses now incidentId e

theorem startAnalysis_judges (h : startAnalysis s id = .ok t) :
    (s.ledger sources).Judges env (t.ledger sources) (.startAnalysis id) := by
  simp only [startAnalysis, bind_ok, pure_ok] at h
  obtain ⟨a, ha, rfl⟩ := h
  obtain ⟨b, hb⟩ : ∃ b, b = { a with
    status := .running
    errorCode := none
    errorMessage := none } := ⟨_, rfl⟩
  have hsame : a.SameRequest b := hb ▸ ⟨rfl, rfl, rfl, rfl, rfl⟩
  have hstatus : b.status ≠ .succeeded := by simp [hb]
  have hstale : b.isStale = true → a.isStale = true := by simp [hb]
  rw [← hb]
  exact .undone rfl (getAnalysis_ok ha).1 hsame hstatus hstale (Or.inl rfl) (.refl _)

theorem failAnalysis_judges {error : ApiError} (h : failAnalysis env now s id error = .ok t) :
    (s.ledger sources).Judges env (t.ledger sources) (.failAnalysis id error) := by
  simp only [failAnalysis, bind_ok] at h
  obtain ⟨a, ha, h⟩ := h
  obtain ⟨b, hb⟩ : ∃ b, b = { a with
    status := .failed
    errorCode := some error.code
    errorMessage := some error.message
    completedAt := some now } := ⟨_, rfl⟩
  have hsame : a.SameRequest b := hb ▸ ⟨rfl, rfl, rfl, rfl, rfl⟩
  have hstatus : b.status ≠ .succeeded := by simp [hb]
  have hstale : b.isStale = true → a.isStale = true := by simp [hb]
  rw [← hb] at h
  split_ifs at h
  · rw [pure_ok] at h
    exact h ▸ .undone rfl (getAnalysis_ok ha).1 hsame hstatus hstale (Or.inl rfl) (.refl _)
  · rw [pure_ok] at h
    have hreleased := releaseCase_sameAnalyses env now (s.writeAnalysis id b) (a.case? s.cases)
      a.incidentId
    exact h ▸ .undone rfl (getAnalysis_ok ha).1 hsame hstatus hstale
      (releaseCase_cases env now (s.writeAnalysis id b) a) (hreleased _)

theorem retryAnalysis_judges {db db' : Db} (h : retryAnalysis env now db actor header id = .ok db') :
    db.ledger.Judges env db'.ledger (.retryAnalysis id) := by
  simp only [retryAnalysis, bind_ok, pure_ok] at h
  obtain ⟨a, ha, -, -, -, -, -, -, -, -, rfl⟩ := h
  obtain ⟨b, hb⟩ : ∃ b, b = { a with
    status := .queued
    isStale := false
    staleAt := none
    staleReason := none
    errorCode := none
    errorMessage := none
    completedAt := none
    output := none
    confidence := none } := ⟨_, rfl⟩
  have hsame : a.SameRequest b := hb ▸ ⟨rfl, rfl, rfl, rfl, rfl⟩
  have hstatus : b.status ≠ .succeeded := by simp [hb]
  have hstale : b.isStale = true → a.isStale = true := by simp [hb]
  rw [← hb]
  exact .undone rfl (getAnalysis_ok ha).1 hsame hstatus hstale (Or.inl rfl) (.refl _)

theorem completeAnalysis_judges {output : Dict} {confidence : ℚ} {seenStale : Bool}
    (h : completeAnalysis env now s id output confidence seenStale = .ok t) :
    (s.ledger sources).Judges env (t.ledger sources)
      (.completeAnalysis id output confidence seenStale) := by
  simp only [completeAnalysis, bind_ok, pure_ok] at h
  obtain ⟨a, ha, -, -, rfl⟩ := h
  obtain ⟨hget, htype⟩ := getAnalysis_ok ha
  obtain ⟨b, hb⟩ : ∃ b, b = completedAnalysis now a output confidence seenStale
    (isOutdated a (a.case? s.cases)) := ⟨_, rfl⟩
  by_cases hstale : (seenStale || isOutdated a (a.case? s.cases)) = true
  · rw [if_pos hstale, ← hb]
    have hreleased := releaseCase_sameAnalyses env now (s.writeAnalysis id b) (a.case? s.cases)
      a.incidentId
    have hcases := releaseCase_cases env now (s.writeAnalysis id b) a
    subst hb
    exact .overtaken hget hstale hcases (hreleased _)
  · rw [if_neg hstale]
    simp only [Bool.or_eq_true, not_or, Bool.not_eq_true] at hstale
    have hout := hstale.2
    simp only [isOutdated, Bool.not_eq_false'] at hout
    obtain ⟨⟨c, x⟩, hx, hrev⟩ := (Option.any_eq_true _ _).mp hout
    obtain ⟨htarget, hcase⟩ := AiAnalysis.case?_some hx
    have hrow : a.SameRequest b ∧ b.status = .succeeded ∧ b.isStale = a.isStale := by
      rw [hb, hstale.2]
      exact ⟨⟨rfl, rfl, rfl, rfl, rfl⟩, rfl, by simp [completedAnalysis]⟩
    rw [← hb, hx]
    have hemit := (s.writeAnalysis id b).feed.emitEvent_sameAnalyses now a.incidentId
    exact .completed hget htype hrow.1 hrow.2.1 hrow.2.2 htarget hcase (by simpa using hrev) rfl (hemit _)

end Worker

/-- Decisions and the steps of an analysis do to the ledger what `Judges` lists. -/
theorem handle_judges {db : Db} {op : Op} {o : Outcome} (h : handle env db op = .ok o)
    (hop : op.call.judges = true) : db.ledger.Judges env o.db.ledger op.call := by
  obtain ⟨now, actor, header, call⟩ := op
  cases call with
  | submitConflictDecision conflict payload =>
    obtain ⟨t, ht, rfl⟩ := map_ok.mp h
    exact submitConflictDecision_judges ht
  | requestAnalysis conflict incident revision requested =>
    obtain ⟨r, hr, rfl⟩ := map_ok.mp h
    exact requestAnalysis_judges hr
  | startAnalysis analysis =>
    obtain ⟨t, ht, rfl⟩ := map_ok.mp h
    exact startAnalysis_judges ht
  | completeAnalysis analysis output confidence seenStale =>
    obtain ⟨t, ht, rfl⟩ := map_ok.mp h
    exact completeAnalysis_judges ht
  | failAnalysis analysis error =>
    obtain ⟨t, ht, rfl⟩ := map_ok.mp h
    exact failAnalysis_judges ht
  | retryAnalysis analysis =>
    obtain ⟨r, hr, rfl⟩ := map_ok.mp h
    exact retryAnalysis_judges hr
  | _ => exact nomatch hop

end Handlers
end CrisisMosaic
