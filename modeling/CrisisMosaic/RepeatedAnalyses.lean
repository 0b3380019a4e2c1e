import CrisisMosaic.Readiness
import CrisisMosaic.Relational.Keeps

/-!
# Repeated requests for an analysis

A request for the analysis of a case is answered with an earlier analysis of the same context.
The context has the status of the case, which the request and the answer themselves move.
-/

namespace CrisisMosaic
open Relational AiAnalysis

/-! ## The newest row -/

section Newest
variable {α : Type} (t : Table α) (created : α → Time)

/-- No other of the rows was created later, and of those created then it is the first. -/
def IsNewest (ids : List Id) (i : Id) : Prop :=
  i ∈ ids ∧ ∀ j ∈ ids, (t.get j).elim 0 created < (t.get i).elim 0 created ∨
    (t.get j).elim 0 created = (t.get i).elim 0 created ∧ i ≤ j

variable {t} {created}

theorem IsNewest.unique {ids : List Id} {i j : Id} (hi : IsNewest t created ids i)
    (hj : IsNewest t created ids j) : i = j := by
  rcases hi.2 j hj.1 with hlt | ⟨heq, hij⟩
  · rcases hj.2 i hi.1 with hgt | ⟨heq, -⟩
    · exact absurd hgt hlt.asymm
    · exact absurd heq hlt.ne'
  · rcases hj.2 i hi.1 with hgt | ⟨-, hji⟩
    · exact absurd heq hgt.ne'
    · exact le_antisymm hij hji

theorem head?_orderedInsert (r : ℕ → ℕ → Prop) [DecidableRel r] (i : ℕ) (l : List ℕ) :
    ((∀ j, l.head? = some j → r i j) ∧ (l.orderedInsert r i).head? = some i) ∨
      ∃ j, l.head? = some j ∧ ¬ r i j ∧ (l.orderedInsert r i).head? = some j := by
  cases l with
  | nil => exact .inl ⟨fun _ h => (nomatch h), rfl⟩
  | cons j l =>
    rw [List.orderedInsert_cons]
    by_cases hr : r i j
    · rw [if_pos hr]
      refine .inl ⟨fun k hk => ?_, rfl⟩
      rwa [← Option.some.inj hk]
    · rw [if_neg hr]
      exact .inr ⟨j, rfl, hr, rfl⟩

/-- The order puts the newest row in front. -/
theorem isNewest_head? {ids : List Id} (hids : ids.Pairwise (· < ·)) {i : Id}
    (h : (newestFirst t created ids).head? = some i) : IsNewest t created ids i := by
  induction ids generalizing i with
  | nil => exact nomatch h
  | cons k ids ih =>
    obtain ⟨hk, hids⟩ := List.pairwise_cons.mp hids
    change (List.orderedInsert _ k (newestFirst t created ids)).head? = some i at h
    rcases head?_orderedInsert (fun i j => (t.get j).elim 0 created ≤ (t.get i).elim 0 created) k
      (newestFirst t created ids) with ⟨hfront, hhead⟩ | ⟨j, hj, hlater, hhead⟩
    · obtain rfl : k = i := Option.some.inj (hhead.symm.trans h)
      refine ⟨List.mem_cons_self, fun b hb => ?_⟩
      rcases List.mem_cons.mp hb with rfl | hb
      · exact .inr ⟨rfl, le_rfl⟩
      · have hne : newestFirst t created ids ≠ [] := List.ne_nil_of_mem (mem_newestFirst.mpr hb)
        obtain ⟨j, hj⟩ := Option.isSome_iff_exists.mp (List.isSome_head?.mpr hne)
        have hle : (t.get b).elim 0 created ≤ (t.get j).elim 0 created :=
          ((ih hids hj).2 b hb).elim le_of_lt fun heq => heq.1.le
        rcases (hle.trans (hfront j hj)).lt_or_eq with hlt | heq
        · exact .inl hlt
        · exact .inr ⟨heq, (hk b hb).le⟩
    · obtain rfl : j = i := Option.some.inj (hhead.symm.trans h)
      obtain ⟨hmem, hnewest⟩ := ih hids hj
      refine ⟨List.mem_cons_of_mem k hmem, fun b hb => ?_⟩
      rcases List.mem_cons.mp hb with rfl | hb
      · exact .inl (lt_of_not_ge hlater)
      · exact hnewest b hb

theorem head?_newestFirst_iff {ids : List Id} (hids : ids.Pairwise (· < ·)) {i : Id} :
    (newestFirst t created ids).head? = some i ↔ IsNewest t created ids i := by
  refine ⟨isNewest_head? hids, fun hi => ?_⟩
  have hne : newestFirst t created ids ≠ [] := List.ne_nil_of_mem (mem_newestFirst.mpr hi.1)
  obtain ⟨j, hj⟩ := Option.isSome_iff_exists.mp (List.isSome_head?.mpr hne)
  rw [hj, hi.unique (isNewest_head? hids hj)]

end Newest

/-! ## What an analysis was requested for -/

/-- No step of the worker and no mark changes it. -/
def AiAnalysis.stamp (a : AiAnalysis) : AnalysisType × Dict × ℕ × Option String × String × String :=
  (a.analysisType, a.inputSnapshot, a.inputVersion, a.contextSha256, a.modelName, a.promptVersion)

/-- The conflict analyses are still there, for what they were requested. -/
def KeepsStamps (t u : Table AiAnalysis) : Prop :=
  ∀ i a, t.get i = some a → a.analysisType = .conflictAnalysis →
    ∃ b, u.get i = some b ∧ b.stamp = a.stamp

namespace KeepsStamps
variable {t u v : Table AiAnalysis}

theorem of_same (h : SameAnalyses t u) : KeepsStamps t u :=
  fun i a ha hconflict => ⟨a, (h i a hconflict).mp ha, rfl⟩

theorem of_keeps (h : t.Keeps AiAnalysis.stamp u) : KeepsStamps t u := fun i a ha _ => h i a ha

theorem refl (t : Table AiAnalysis) : KeepsStamps t t := of_same (.refl t)

theorem trans (h : KeepsStamps t u) (k : KeepsStamps u v) : KeepsStamps t v := by
  intro i a ha hconflict
  obtain ⟨b, hb, hab⟩ := h i a ha hconflict
  obtain ⟨c, hc, hbc⟩ := k i b hb ((congrArg Prod.fst hab).trans hconflict)
  exact ⟨c, hc, hbc.trans hab⟩

/-- One row is written again, for the same request. -/
theorem modify {i : Id} {a b : AiAnalysis} (ha : t.get i = some a)
    (h : SameAnalyses (t.modify i fun _ => b) u) (hb : b.stamp = a.stamp) : KeepsStamps t u := by
  refine trans (u := t.modify i fun _ => b) (fun j c hc _ => ?_) (of_same h)
  by_cases hij : i = j
  · subst hij
    obtain rfl := Option.some.inj (ha.symm.trans hc)
    exact ⟨b, by rw [Table.get_modify_self, ha]; rfl, hb⟩
  · exact ⟨c, (Table.get_modify_of_ne t _ hij).trans hc, rfl⟩

theorem staleFor (t : Table AiAnalysis) (now : Time) (conflictId incidentId : Id) (reason : String) :
    KeepsStamps t (staleFor t now conflictId incidentId reason) :=
  of_keeps (.sweep t fun a => by split_ifs <;> rfl)

theorem moves {base l : Ledger} (h : Moves base l) : KeepsStamps base.analyses l.analyses := by
  induction h with
  | start => exact .refl _
  | sources _ _ ih => exact ih
  | briefs _ hsame ih => exact ih.trans (.of_same hsame)
  | cited _ _ ih => exact ih
  | withdrawn _ ih => exact ih
  | opened _ _ ih => exact ih
  | extended _ _ _ ih => exact ih.trans (.staleFor _ _ _ _ _)
  | marked _ _ _ ih => exact ih.trans (.staleFor _ _ _ _ _)
  | reopened _ _ _ ih => exact ih.trans (.staleFor _ _ _ _ _)
  | @closed _ _ _ _ bump _ _ _ ih =>
    cases bump with
    | true => exact ih.trans (.staleFor _ _ _ _ _)
    | false => exact ih

end KeepsStamps

/-! ## Requests -/

section Requests
variable {env : Env} {now : Time} {actor : Actor} {header : Option Ref} {db db' : Db}

/-- The evidence of a case as the model is shown it. -/
def shownEvidence (env : Env) (attachments : Table Attachment)
    (rows : List (Id × ConflictEvidence)) : List Json :=
  (timelined env rows).map fun r => Json.obj (evidenceItem attachments r.1 r.2 ++
    [("timeline_at", .str (timelineValue env r.2))])

def evidenceRows (evidence : Table ConflictEvidence) (id : Id) : List (Id × ConflictEvidence) :=
  (currentEvidence evidence id).filterMap fun i => (evidence.get i).map fun e => (i, e)

/-- The context of a case and its evidence. -/
def contextOf (id : Id) (x : ConflictCase) (items : List Json) (dataAsOf : Option Time) : Dict :=
  [("conflict", .obj [("id", .ref id), ("revision", .nat x.revision), ("title", .str x.title),
      ("fact_key", .str x.factKey), ("topic", .str x.topic),
      ("location_text", .str x.place.locationText), ("status", .str x.status.text)]),
    ("evidence", .arr items),
    ("data_as_of", optTime dataAsOf),
    ("rules", .obj [("all_current_evidence_included", .bool true),
      ("duplicate_clusters_are_single_sources", .bool true),
      ("human_decision_required", .bool true)])]

theorem buildConflictContext_ok {attachments : Table Attachment} {s : Store} {id : Id}
    {x : ConflictCase} {requested : List Id} {context : Dict} {allowed : List Id}
    (h : buildConflictContext env attachments s id x requested = .ok (context, allowed)) :
    context = contextOf id x (shownEvidence env attachments (evidenceRows s.evidence id))
      (((evidenceRows s.evidence id).map (·.2.addedAt)).max?) := by
  simp only [buildConflictContext, bind_ok, pure_ok, Prod.mk.injEq] at h
  obtain ⟨-, -, -, -, rfl, -⟩ := h
  rfl

/-- Fresh answers to a context, newest first. -/
def freshAnswers (env : Env) (analyses : Table AiAnalysis) (context : Dict) : List Id :=
  newestFirst analyses (·.createdAt)
    (analyses.select (sameContext env (env.canonicalSha256 (.obj context))))

/-- A request is answered with the newest fresh answer to its context, or queues an analysis. -/
theorem requestAnalysis_answers {conflict : Ref} {incident : Option Ref} {revision : ℕ}
    {requested : List Id}
    (h : requestAnalysis env now db actor header conflict incident revision requested = .ok db') :
    env.settings.aiConfigured = true ∧ ∃ id x context allowed,
      getCase db.cases conflict = .ok (id, x) ∧
      buildConflictContext env db.attachments db.toStore id x requested = .ok (context, allowed) ∧
      (((freshAnswers env db.feed.analyses context).head? ≠ none ∧
          SameAnalyses db.feed.analyses db'.feed.analyses) ∨
        ((freshAnswers env db.feed.analyses context).head? = none ∧
          SameAnalyses (db.feed.analyses.insert (queuedAnalysis env now id x actor context
            (env.canonicalSha256 (.obj context)) allowed)) db'.feed.analyses)) := by
  simp only [requestAnalysis, bind_ok, pure_ok, Prod.exists] at h
  obtain ⟨-, -, id, x, hx, -, -, -, -, m, jobs, analysisId, ready, hm, -, -, rfl⟩ := h
  have hcase : getCase db.cases conflict = .ok (id, x) := by
    cases hc : getCase db.cases conflict with
    | ok r => simpa [hc, Except.mapError] using hx
    | error e => simp [hc, Except.mapError] at hx
  have hemit := fun e => m.feed.emitEvent_sameAnalyses now x.incidentId e
  simp only [enqueueConflictAnalysis, bind_ok, Prod.exists] at hm
  obtain ⟨_, hai, -, -, context, allowed, hcontext, hm⟩ := hm
  refine ⟨require_ok.mp hai, id, x, context, allowed, hcase, hcontext, ?_⟩
  split at hm
  · next existing hhead =>
    replace hhead : (freshAnswers env db.feed.analyses context).head? = some existing := hhead
    obtain ⟨rfl, -⟩ := Prod.mk.inj (pure_ok.mp hm)
    exact .inl ⟨by simp [hhead], hemit _⟩
  · next hhead =>
    obtain ⟨rfl, -⟩ := Prod.mk.inj (pure_ok.mp hm)
    exact .inr ⟨hhead, hemit _⟩

end Requests

/-! ## Steps and runs -/

section Runs
variable {env : Env} {now : Time} {actor : Actor} {header : Option Ref}

theorem decide_keepsStamps {s t : Store} {conflict : Ref} {payload : DecisionRequest}
    (h : submitConflictDecision env now s actor header conflict payload = .ok t) :
    KeepsStamps s.feed.analyses t.feed.analyses := by
  simp only [submitConflictDecision, bind_ok, Prod.exists] at h
  obtain ⟨-, -, id, x, -, -, -, h⟩ := h
  exact .of_same (decideConflict_sameAnalyses h)

theorem start_keepsStamps {s t : Store} {id : Id} (h : startAnalysis s id = .ok t) :
    KeepsStamps s.feed.analyses t.feed.analyses := by
  simp only [startAnalysis, bind_ok, pure_ok] at h
  obtain ⟨a, ha, rfl⟩ := h
  exact .modify (getAnalysis_ok ha).1 (.refl _) rfl

theorem fail_keepsStamps {s t : Store} {id : Id} {error : ApiError}
    (h : failAnalysis env now s id error = .ok t) : KeepsStamps s.feed.analyses t.feed.analyses := by
  simp only [failAnalysis, bind_ok] at h
  obtain ⟨a, ha, h⟩ := h
  obtain ⟨b, hb⟩ : ∃ b, b = { a with
    status := .failed
    errorCode := some error.code
    errorMessage := some error.message
    completedAt := some now } := ⟨_, rfl⟩
  have hstamp : b.stamp = a.stamp := hb ▸ rfl
  rw [← hb] at h
  split_ifs at h
  · rw [pure_ok] at h
    exact h ▸ .modify (getAnalysis_ok ha).1 (.refl _) hstamp
  · rw [pure_ok] at h
    have hreleased := releaseCase_sameAnalyses env now (s.writeAnalysis id b) (a.case? s.cases)
      a.incidentId
    exact h ▸ .modify (getAnalysis_ok ha).1 (hreleased _) hstamp

theorem retarget_sameAnalyses (env : Env) (now : Time) (s : Store)
    (target : Option (Id × ConflictCase)) (status : CaseStatus) (incidentId : Id) (e : Event) :
    SameAnalyses s.feed.analyses
      ((retarget env now s target status).emit now incidentId e).feed.analyses := by
  cases target with
  | none => exact s.feed.emitEvent_sameAnalyses now incidentId e
  | some t => exact s.feed.emitEvent_sameAnalyses now incidentId e

theorem complete_keepsStamps {s t : Store} {id : Id} {output : Dict} {confidence : ℚ}
    {seenStale : Bool} (h : completeAnalysis env now s id output confidence seenStale = .ok t) :
    KeepsStamps s.feed.analyses t.feed.analyses := by
  simp only [completeAnalysis, bind_ok, pure_ok] at h
  obtain ⟨a, ha, -, -, rfl⟩ := h
  obtain ⟨b, hb⟩ : ∃ b, b = completedAnalysis now a output confidence seenStale
    (isOutdated a (a.case? s.cases)) := ⟨_, rfl⟩
  have hstamp : b.stamp = a.stamp := hb ▸ rfl
  rw [← hb]
  refine .modify (getAnalysis_ok ha).1 ?_ hstamp
  by_cases hstale : (seenStale || isOutdated a (a.case? s.cases)) = true
  · rw [if_pos hstale]
    exact releaseCase_sameAnalyses env now (s.writeAnalysis id b) (a.case? s.cases) a.incidentId _
  · rw [if_neg hstale]
    exact retarget_sameAnalyses env now (s.writeAnalysis id b) (a.case? s.cases) .analysisReady
      a.incidentId _

theorem retry_keepsStamps {db db' : Db} {id : Id}
    (h : retryAnalysis env now db actor header id = .ok db') :
    KeepsStamps db.feed.analyses db'.feed.analyses := by
  simp only [retryAnalysis, bind_ok, pure_ok] at h
  obtain ⟨a, ha, -, -, -, -, -, -, -, -, rfl⟩ := h
  exact .modify (getAnalysis_ok ha).1 (.refl _) rfl

theorem request_keepsStamps {db db' : Db} {conflict : Ref} {incident : Option Ref} {revision : ℕ}
    {requested : List Id}
    (h : requestAnalysis env now db actor header conflict incident revision requested = .ok db') :
    KeepsStamps db.feed.analyses db'.feed.analyses := by
  obtain ⟨-, id, x, context, allowed, -, -, ⟨-, hsame⟩ | ⟨-, hsame⟩⟩ := requestAnalysis_answers h
  · exact .of_same hsame
  · exact (KeepsStamps.of_keeps (.insert _ _ _)).trans (.of_same hsame)

theorem handle_keepsStamps {db : Db} {op : Op} {o : Outcome} (h : handle env db op = .ok o) :
    KeepsStamps db.feed.analyses o.db.feed.analyses := by
  cases hop : op.call.judges with
  | false => exact .moves (handle_moves h hop)
  | true =>
    obtain ⟨now, actor, header, call⟩ := op
    cases call with
    | submitConflictDecision conflict payload =>
      obtain ⟨t, ht, rfl⟩ := map_ok.mp h
      exact decide_keepsStamps ht
    | requestAnalysis conflict incident revision requested =>
      obtain ⟨r, hr, rfl⟩ := map_ok.mp h
      exact request_keepsStamps hr
    | startAnalysis analysis =>
      obtain ⟨t, ht, rfl⟩ := map_ok.mp h
      exact start_keepsStamps ht
    | completeAnalysis analysis output confidence seenStale =>
      obtain ⟨t, ht, rfl⟩ := map_ok.mp h
      exact complete_keepsStamps ht
    | failAnalysis analysis error =>
      obtain ⟨t, ht, rfl⟩ := map_ok.mp h
      exact fail_keepsStamps ht
    | retryAnalysis analysis =>
      obtain ⟨r, hr, rfl⟩ := map_ok.mp h
      exact retry_keepsStamps hr
    | _ => exact nomatch hop

theorem step_keepsStamps (env : Env) (db : Db) (op : Op) :
    KeepsStamps db.feed.analyses (step env db op).feed.analyses := by
  refine step_cases (P := fun t : Db => KeepsStamps db.feed.analyses t.feed.analyses) (.refl _) ?_
  intro o ho
  have h := handle_keepsStamps ho
  exact h

theorem run_keepsStamps (env : Env) (db : Db) (ops : List Op) :
    KeepsStamps db.feed.analyses (runFrom env db ops).feed.analyses := by
  induction ops generalizing db with
  | nil => exact .refl _
  | cons op ops ih => exact (step_keepsStamps env db op).trans (ih _)

/-- The age of the analyses needs no condition on the operations. -/
theorem step_aged {db : Db} {op : Op} (h : db.ledger.Aged env) : (step env db op).ledger.Aged env := by
  have hbegin : db.begin.ledger.Aged env := h
  refine step_cases (P := fun t : Db => t.ledger.Aged env) h fun o ho => ?_
  cases hop : op.call.judges with
  | false => exact hbegin.moves (handle_moves ho hop)
  | true => exact hbegin.judges (handle_judges ho hop)

theorem run_aged {db : Db} (h : db.ledger.Aged env) (ops : List Op) :
    (runFrom env db ops).ledger.Aged env := by
  induction ops generalizing db with
  | nil => exact h
  | cons op ops ih => exact ih (step_aged h)

end Runs

/-! ## The repeated request -/

/-- An accepted request that queues the analysis `k` of the case `id`, which is then `x`. -/
structure Db.Queues (env : Env) (db : Db) (op : Op) (id k : Id) (x : ConflictCase) (context : Dict) :
    Prop where
  accepted : ∃ o, transact env db op = .ok o
  request : ∃ conflict incident revision requested allowed,
    op.call = .requestAnalysis conflict incident revision requested ∧
      getCase db.cases conflict = .ok (id, x) ∧
      buildConflictContext env db.attachments db.toStore id x requested = .ok (context, allowed)
  unanswered : (freshAnswers env db.feed.analyses context).head? = none
  next : k = db.feed.analyses.size

/-- The revision of the case, what describes it, its current evidence and what is shown of the images
among it. -/
structure Unchanged (s t : Db) (id : Id) (x y : ConflictCase) : Prop where
  revision : y.revision = x.revision
  title : y.title = x.title
  factKey : y.factKey = x.factKey
  topic : y.topic = x.topic
  locationText : y.place.locationText = x.place.locationText
  current : currentEvidence t.evidence id = currentEvidence s.evidence id
  rows : ∀ i ∈ currentEvidence s.evidence id, t.evidence.get i = s.evidence.get i
  images : ∀ i ∈ currentEvidence s.evidence id, ∀ e, s.evidence.get i = some e →
    e.kind = .attachment →
      imageItem (t.attachments.get e.sourceId) = imageItem (s.attachments.get e.sourceId)

/-- Of the fresh answers to the context none is newer than `a`. -/
def NoneNewer (env : Env) (analyses : Table AiAnalysis) (context : Dict) (k : Id) (a : AiAnalysis) :
    Prop :=
  ∀ j b, analyses.get j = some b → sameContext env (env.canonicalSha256 (.obj context)) b = true →
    b.createdAt < a.createdAt ∨ b.createdAt = a.createdAt ∧ k ≤ j

theorem CaseStatus.text_injective : Function.Injective CaseStatus.text := by
  intro a b h
  cases a <;> cases b <;> first | rfl | exact absurd h (by decide)

theorem contextOf_eq_iff {id : Id} {x y : ConflictCase} {items : List Json} {dataAsOf : Option Time}
    (hrevision : y.revision = x.revision) (htitle : y.title = x.title)
    (hfact : y.factKey = x.factKey) (htopic : y.topic = x.topic)
    (hplace : y.place.locationText = x.place.locationText) :
    contextOf id x items dataAsOf = contextOf id y items dataAsOf ↔ y.status = x.status := by
  unfold contextOf
  rw [hrevision, htitle, hfact, htopic, hplace]
  constructor
  · intro h
    simp only [List.cons.injEq, Prod.mk.injEq, Json.obj.injEq, Json.str.injEq, true_and, and_true] at h
    exact CaseStatus.text_injective h.symm
  · intro h
    rw [h]

section Repeated
variable {env : Env} {s t : Db} {id : Id} {x y : ConflictCase}

theorem Unchanged.evidenceRows (h : Unchanged s t id x y) :
    evidenceRows t.evidence id = evidenceRows s.evidence id := by
  rw [CrisisMosaic.evidenceRows, CrisisMosaic.evidenceRows, h.current]
  exact List.filterMap_congr fun i hi => by rw [h.rows i hi]

theorem mem_evidenceRows {evidence : Table ConflictEvidence} {r : Id × ConflictEvidence}
    (h : r ∈ evidenceRows evidence id) : r.1 ∈ currentEvidence evidence id ∧
      evidence.get r.1 = some r.2 := by
  obtain ⟨i, hi, hr⟩ := List.mem_filterMap.mp h
  obtain ⟨e, he, rfl⟩ := Option.map_eq_some_iff.mp hr
  exact ⟨hi, he⟩

theorem Unchanged.shownEvidence (h : Unchanged s t id x y) :
    shownEvidence env t.attachments (CrisisMosaic.evidenceRows t.evidence id) =
      shownEvidence env s.attachments (CrisisMosaic.evidenceRows s.evidence id) := by
  rw [h.evidenceRows]
  refine List.map_congr_left fun r hr => ?_
  have hmem : r ∈ CrisisMosaic.evidenceRows s.evidence id :=
    (List.perm_insertionSort _ _).mem_iff.mp hr
  obtain ⟨hcurrent, hget⟩ := mem_evidenceRows hmem
  have hitem : evidenceItem t.attachments r.1 r.2 = evidenceItem s.attachments r.1 r.2 := by
    unfold evidenceItem
    by_cases hkind : r.2.kind = .attachment
    · rw [if_pos hkind, if_pos hkind, h.images r.1 hcurrent r.2 hget hkind]
    · rw [if_neg hkind, if_neg hkind]
  rw [hitem]

/-- As long as the rest is unchanged, only the status moves the context. -/
theorem Unchanged.context_eq_iff (h : Unchanged s t id x y) {context context' : Dict}
    {requested requested' allowed allowed' : List Id}
    (hs : buildConflictContext env s.attachments s.toStore id x requested = .ok (context, allowed))
    (ht : buildConflictContext env t.attachments t.toStore id y requested' = .ok (context', allowed')) :
    context = context' ↔ y.status = x.status := by
  rw [buildConflictContext_ok hs, buildConflictContext_ok ht, h.shownEvidence, h.evidenceRows]
  exact contextOf_eq_iff h.revision h.title h.factKey h.topic h.locationText

theorem select_increasing {α : Type*} (t : Table α) (p : α → Bool) :
    (t.select p).Pairwise (· < ·) :=
  List.pairwise_lt_range.filter _

theorem head?_freshAnswers_iff {analyses : Table AiAnalysis} {context : Dict} {k : Id}
    {a : AiAnalysis} (ha : analyses.get k = some a) :
    (freshAnswers env analyses context).head? = some k ↔
      sameContext env (env.canonicalSha256 (.obj context)) a = true ∧
        NoneNewer env analyses context k a := by
  rw [freshAnswers, head?_newestFirst_iff (select_increasing _ _), IsNewest]
  have hmem : k ∈ analyses.select (sameContext env (env.canonicalSha256 (.obj context))) ↔
      sameContext env (env.canonicalSha256 (.obj context)) a = true := by
    rw [Table.mem_select]
    constructor
    · rintro ⟨b, hb, hsame⟩
      exact Option.some.inj (ha.symm.trans hb) ▸ hsame
    · exact fun hsame => ⟨a, ha, hsame⟩
  rw [hmem, ha]
  refine and_congr_right fun _ => ⟨fun h j b hb hsame => ?_, fun h j hj => ?_⟩
  · have hj := h j (Table.mem_select.mpr ⟨b, hb, hsame⟩)
    rwa [hb] at hj
  · obtain ⟨b, hb, hsame⟩ := Table.mem_select.mp hj
    rw [hb]
    exact h j b hb hsame

/-- A request that is not answered makes a new analysis. -/
theorem enqueue_answers_iff {now : Time} {actor : Actor} {requested allowed : List Id}
    {context : Dict} {k : Id} {a : AiAnalysis} (hai : env.settings.aiConfigured = true)
    (hcontext : buildConflictContext env t.attachments t.toStore id y requested =
      .ok (context, allowed)) (ha : t.feed.analyses.get k = some a) :
    (∃ m ready, enqueueConflictAnalysis env now t.attachments t.toStore t.jobs id y actor y.revision
      requested = .ok (m, t.jobs, k, ready)) ↔
        (freshAnswers env t.feed.analyses context).head? = some k := by
  have hlt := Table.lt_size ha
  unfold enqueueConflictAnalysis
  rw [hcontext, require, require, if_pos hai, if_pos rfl]
  dsimp only [bind, Except.bind]
  split
  · next existing hhead =>
    replace hhead : (freshAnswers env t.feed.analyses context).head? = some existing := hhead
    rw [hhead]
    constructor
    · rintro ⟨m, ready, h⟩
      simp only [pure_ok, Prod.mk.injEq] at h
      rw [h.2.2.1]
    · intro h
      obtain rfl := Option.some.inj h
      exact ⟨_, true, rfl⟩
  · next hhead =>
    replace hhead : (freshAnswers env t.feed.analyses context).head? = none := hhead
    rw [hhead]
    refine iff_of_false ?_ (by rintro ⟨⟩)
    rintro ⟨m, ready, h⟩
    simp only [pure_ok, Prod.mk.injEq] at h
    exact absurd h.2.2.1 hlt.ne'

/-- The analysis that a request has queued, and what is left of it at the end of a run. -/
theorem Db.Queues.stored {op : Op} {k : Id} {context : Dict} (h : s.Queues env op id k x context)
    (ops : List Op) {a : AiAnalysis}
    (ha : (runFrom env (step env s op) ops).feed.analyses.get k = some a) :
    env.settings.aiConfigured = true ∧ ∃ allowed, a.stamp = (queuedAnalysis env op.now id x op.actor
      context (env.canonicalSha256 (.obj context)) allowed).stamp := by
  obtain ⟨o, ho⟩ := h.accepted
  obtain ⟨conflict, incident, revision, requested, allowed, hcall, hcase, hcontext⟩ := h.request
  obtain ⟨now, actor, header, call⟩ := op
  obtain rfl : call = .requestAnalysis conflict incident revision requested := hcall
  obtain ⟨db', hdb, rfl⟩ := map_ok.mp ho
  obtain ⟨hai, id', x', context', allowed', hcase', hcontext', hanswers⟩ := requestAnalysis_answers hdb
  obtain ⟨rfl, rfl⟩ := Prod.mk.inj (Except.ok.inj (hcase.symm.trans hcase'))
  obtain ⟨rfl, rfl⟩ := Prod.mk.inj (Except.ok.inj (hcontext.symm.trans hcontext'))
  rcases hanswers with ⟨hanswered, -⟩ | ⟨-, hsame⟩
  · exact absurd h.unanswered hanswered
  obtain ⟨b, hb⟩ : ∃ b, b = queuedAnalysis env now id x actor context
    (env.canonicalSha256 (.obj context)) allowed := ⟨_, rfl⟩
  have hconflict : b.analysisType = .conflictAnalysis := hb ▸ rfl
  rw [← hb] at hsame
  rw [step_of_ok ho] at ha
  have hget : db'.feed.analyses.get k = some b := by
    rw [h.next]
    exact (hsame _ b hconflict).mp (Table.get_insert_size _ b)
  obtain ⟨c, hc, hstamp⟩ := run_keepsStamps env db' ops k b hget hconflict
  obtain rfl := Option.some.inj (ha.symm.trans hc)
  exact ⟨hai, allowed, hb ▸ hstamp⟩

/-- As long as the case keeps the revision of the analysis, the analysis is not marked. -/
theorem Ledger.Aged.not_stale {l : Ledger} {k : Id} {a : AiAnalysis} (h : l.Aged env)
    (ha : l.analyses.get k = some a) (hconcerns : a.concerns id = true) (hy : l.cases.get id = some y)
    (hrevision : a.inputVersion = y.revision) : a.isStale = false := by
  obtain ⟨hconflict, htarget⟩ := concerns_iff_target.mp hconcerns
  obtain ⟨c, hc⟩ := h k a ha hconflict
  obtain rfl := Option.some.inj (htarget.symm.trans hc.target)
  obtain ⟨z, hz, -, hmoved⟩ := hc.case
  obtain rfl := Option.some.inj (hy.symm.trans hz)
  by_contra hstale
  exact absurd hrevision (hmoved (by simpa using hstale)).ne

/-- The answered analysis is fresh, whatever context is asked for. -/
theorem sameContext_stamp_iff {now : Time} {actor : Actor} {allowed : List Id} {a : AiAnalysis}
    {hash hash' : String} {context : Dict}
    (hstamp : a.stamp = (queuedAnalysis env now id x actor context hash allowed).stamp)
    (hsucc : a.status = .succeeded) (hfresh : a.isStale = false) :
    sameContext env hash' a = true ↔ hash = hash' := by
  simp only [AiAnalysis.stamp, queuedAnalysis, Prod.mk.injEq] at hstamp
  obtain ⟨htype, -, -, hsha, hmodel, hprompt⟩ := hstamp
  simp [sameContext, htype, hsucc, hfresh, hsha, hmodel, hprompt]

end Repeated

namespace Sample

/-- What the context says of its case, the status included. -/
def caseMarks (context : Json) : String :=
  match context with
  | .obj d =>
      match (Dict.get d "conflict").bind fun conflict => conflict.asDict.bind (Dict.get · "status") with
      | some (.str status) => status ++ contextMarks context
      | _ => ""
  | _ => ""

/-- The deployment with a hash that tells the cases, their revisions and their statuses apart. -/
def markingEnv : Env := { env with canonicalSha256 := caseMarks }

def caseOpened : List Op :=
  [⟨0, admin, none, .createFragment (.id 0) (fragment none none 0)⟩,
    ⟨0, admin, none, .createFragment (.id 0) (fragment none none 0)⟩,
    ⟨1, admin, none, .createConflict (.id 0) conflict⟩]

def analysisRequest (now : Time) : Op := ⟨now, admin, none, .requestAnalysis (.id 0) none 1 []⟩

/-- An analysis is started and answered. -/
def answering (analysis : Id) (now : Time) : List Op :=
  [⟨now, admin, none, .startAnalysis analysis⟩,
    ⟨now + 1, admin, none, .completeAnalysis analysis [] 0 false⟩]

abbrev marked (ops : List Op) : Db := runFrom markingEnv initial ops

/-- The case has been opened, and its first analysis is requested and answered. -/
abbrev answeredOnce : Db := marked (caseOpened ++ analysisRequest 2 :: answering 0 3)

/-- Once more. -/
abbrev answeredTwice : Db :=
  runFrom markingEnv (step markingEnv answeredOnce (analysisRequest 5)) (answering 1 6)

/-- What describes the case is the same, and it has the statuses `p` and `q`. -/
def sameCase (p q : CaseStatus) (x y : ConflictCase) : Bool :=
  x.status = p && y.status = q && y.revision = x.revision && y.title = x.title &&
    y.factKey = x.factKey && y.topic = x.topic && y.place.locationText = x.place.locationText

theorem unchanged_of {s t : Db} (hevidence : t.evidence = s.evidence)
    (hattachments : t.attachments = s.attachments) {p q : CaseStatus} {x y : ConflictCase}
    (h : sameCase p q x y = true) : x.status = p ∧ y.status = q ∧ Unchanged s t 0 x y := by
  simp only [sameCase, Bool.and_eq_true, decide_eq_true_eq] at h
  obtain ⟨⟨⟨⟨⟨⟨hp, hq⟩, hrevision⟩, htitle⟩, hfact⟩, htopic⟩, hplace⟩ := h
  refine ⟨hp, hq, hrevision, htitle, hfact, htopic, hplace, ?_, ?_, ?_⟩
  · rw [hevidence]
  · exact fun i _ => by rw [hevidence]
  · exact fun i _ e _ _ => by rw [hattachments]

theorem cases_of_any (s t : Db) (p q : CaseStatus)
    (h : ((s.cases.get 0).any fun x => (t.cases.get 0).any (sameCase p q x)) = true) :
    ∃ x y, s.cases.get 0 = some x ∧ t.cases.get 0 = some y ∧ sameCase p q x y = true := by
  obtain ⟨x, hx, h⟩ := (Option.any_eq_true _ _).mp h
  obtain ⟨y, hy, h⟩ := (Option.any_eq_true _ _).mp h
  exact ⟨x, y, hx, hy, h⟩

/-- The freshest answer to the present context of the first case is `front`. -/
def answeredBy (front : Option Id) (s : Db) : Bool :=
  (s.cases.get 0).any fun x =>
    (buildConflictContext markingEnv s.attachments s.toStore 0 x []).toOption.any fun r =>
      (freshAnswers markingEnv s.feed.analyses r.1).head? = front

theorem context_of_answeredBy {s : Db} (front : Option Id) {x : ConflictCase}
    (hx : s.cases.get 0 = some x) (h : answeredBy front s = true) :
    ∃ context allowed, buildConflictContext markingEnv s.attachments s.toStore 0 x [] =
      .ok (context, allowed) ∧ (freshAnswers markingEnv s.feed.analyses context).head? = front := by
  rw [answeredBy, hx] at h
  obtain ⟨⟨context, allowed⟩, hcontext, hfront⟩ := ok_of_any h
  exact ⟨context, allowed, hcontext, of_decide_eq_true hfront⟩

/-- An accepted request without a fresh answer queues. -/
theorem queues_of {s : Db} (now : Time) {x : ConflictCase} (hx : s.cases.get 0 = some x)
    (haccepted : ((transact markingEnv s (analysisRequest now)).toOption.any fun _ => true) = true)
    (hnone : answeredBy none s = true) :
    ∃ context, s.Queues markingEnv (analysisRequest now) 0 s.feed.analyses.size x context := by
  obtain ⟨o, ho, -⟩ := ok_of_any haccepted
  obtain ⟨context, allowed, hcontext, hunanswered⟩ := context_of_answeredBy none hx hnone
  have hcase : getCase s.cases (.id 0) = .ok (0, x) := by
    unfold getCase
    simp [hx]
  exact ⟨context, ⟨o, ho⟩, ⟨.id 0, none, 1, [], allowed, rfl, hcase, hcontext⟩, hunanswered, rfl⟩

end Sample
open Sample

end CrisisMosaic
