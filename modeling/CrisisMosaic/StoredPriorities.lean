import CrisisMosaic.RefinedReports
import CrisisMosaic.ReportChanges

/-!
# The stored priority of a report

The priority of a report and its source are computed by every handler that changes what they
depend on. The analysis a report names has been answered for good when it is named.
-/

namespace CrisisMosaic
open Relational Questions

/-- The priority is the effective one, `ai` being what an analysis asks for, and the analysis
that is named has been answered. -/
structure Report.Backed (ai : Id → Option Priority) (answered : Id → Prop) (r : Report) : Prop where
  rank : (r.priority, r.prioritySource) =
    effectivePriority r.isUrgent r.manualPriority (r.aiRefinementId.bind ai)
  named : ∀ i ∈ r.aiRefinementId, answered i

/-- What a priority is computed from, and the priority, are the same. -/
structure Report.SameRank (r r' : Report) : Prop where
  isUrgent : r'.isUrgent = r.isUrgent
  manualPriority : r'.manualPriority = r.manualPriority
  aiRefinementId : r'.aiRefinementId = r.aiRefinementId
  priority : r'.priority = r.priority
  prioritySource : r'.prioritySource = r.prioritySource

theorem Report.SameRank.backed {ai : Id → Option Priority} {answered : Id → Prop} {r r' : Report}
    (h : r.SameRank r') (hr : r.Backed ai answered) : r'.Backed ai answered := by
  constructor
  · rw [h.priority, h.prioritySource, h.isUrgent, h.manualPriority, h.aiRefinementId]
    exact hr.rank
  · rw [h.aiRefinementId]
    exact hr.named

/-- What an operation does to the reports, as far as their priorities go. -/
inductive RankStep (P : Report → Prop) (db db' : Db) : Prop
  | kept : db'.reports = db.reports → RankStep P db db'
  | created {r : Report} : P r → db'.reports = db.reports.insert r → RankStep P db db'
  | revised {id : Id} {r r' : Report} : db.reports.get id = some r → (P r → P r') →
      db'.reports = db.reports.modify id (fun _ => r') → RankStep P db db'

namespace RankStep
variable {P : Report → Prop} {db db' db'' : Db}

theorem all (h : RankStep P db db') (hdb : db.reports.All fun _ r => P r) :
    db'.reports.All fun _ r => P r := by
  cases h with
  | kept hreports => rwa [hreports]
  | created hr hreports =>
    rw [hreports]
    exact hdb.insert hr
  | @revised id r r' hget hr hreports =>
    rw [hreports]
    apply hdb.modify
    intro _ _ _
    exact hr (hdb id r hget)

end RankStep

section Routes
variable {env : Env} {now : Time} {db db' : Db} {actor : Actor} {header : Option Ref}
  {detection : Option Detection} {ai : Id → Option Priority} {answered : Id → Prop}

variable (ai answered) in
/-- The validation that goes well finds an answered analysis and the priority it asks for. -/
def Backs (analysisId : Option Id) (refinement : Result (Option Priority)) : Prop :=
  ∀ p, validateReportRefinement analysisId refinement = .ok p →
    p = analysisId.bind ai ∧ ∀ i ∈ analysisId, answered i

theorem applyLocation_sameRank {location : ReportLocation} {r r' : Report}
    (h : applyLocation env now location r = .ok r') : r.SameRank r' := by
  simp only [applyLocation, bind_ok] at h
  obtain ⟨-, -, h⟩ := h
  split at h
  · simp only [bind_ok, pure_ok, Prod.exists] at h
    obtain ⟨_, _, -, rfl⟩ := h
    exact ⟨rfl, rfl, rfl, rfl, rfl⟩
  · rw [pure_ok] at h
    exact h ▸ ⟨rfl, rfl, rfl, rfl, rfl⟩

theorem bindAttachments_sameRank {attachments attachments' : Table Attachment} {id : Id}
    {r r' : Report} {ids : List Id}
    (h : bindAttachments attachments id r ids = .ok (attachments', r')) : r.SameRank r' := by
  simp only [bindAttachments, bind_ok, pure_ok, Prod.mk.injEq] at h
  obtain ⟨-, -, -, rfl⟩ := h
  exact ⟨rfl, rfl, rfl, rfl, rfl⟩

/-- A prioritised report is backed, whatever it was before. -/
theorem backed_prioritise {r : Report} {p : Option Priority} (now : Time)
    (h : p = r.aiRefinementId.bind ai ∧ ∀ i ∈ r.aiRefinementId, answered i) :
    ((r.prioritise r.manualPriority p).touch now).Backed ai answered := by
  obtain ⟨rfl, hnamed⟩ := h
  exact ⟨rfl, hnamed⟩

theorem Db.Revised.rankStep {id : Id} {r r' : Report} {tombstone : Dict}
    (h : db.Revised db' now actor id r r' tombstone) (hsame : r.SameRank r') :
    RankStep (·.Backed ai answered) db db' := .revised h.stored hsame.backed h.reports

end Routes

/-! ## Runs -/

namespace RefinedState
variable {env : RefinementEnv} {s : RefinedState}

/-- What the analysis of this id asks for. -/
def aiPriority (s : RefinedState) (id : Id) : Option Priority :=
  aiPriorityFromRefinement (s.refinements.get id)

def Answered (s : RefinedState) (id : Id) : Prop :=
  ∃ a, s.refinements.get id = some a ∧ a.status = .succeeded

theorem refinedPriority_backs {analysisId : Option Id} {check : Id → Result AiAnalysis}
    (hcheck : ∀ i a, check i = .ok a → s.refinements.get i = some a ∧ a.status = .succeeded) :
    Backs s.aiPriority s.Answered analysisId (refinedPriority analysisId check) := by
  intro p hp
  cases analysisId with
  | none =>
    obtain rfl := pure_ok.mp hp
    exact ⟨rfl, nofun⟩
  | some i =>
    obtain ⟨a, ha, hp⟩ := bind_ok.mp hp
    obtain rfl := pure_ok.mp hp
    obtain ⟨hget, hsucceeded⟩ := hcheck i a ha
    constructor
    · rw [Option.bind_some, aiPriority, hget]
    · intro j hj
      obtain rfl := Option.some.inj hj
      exact ⟨a, hget, hsucceeded⟩

theorem checkedRefinement_ok {env : Env} {t : RefinementTables} {actor : Actor}
    {analysisId incidentId : Id} {category : Category} {content locationText : String}
    {attachmentIds : List Id} {use : RefinementUse} {a : AiAnalysis}
    (h : checkedRefinement env t actor analysisId incidentId category content locationText attachmentIds
      use = .ok a) : t.refinements.get analysisId = some a ∧ a.status = .succeeded := by
  simp only [checkedRefinement, bind_ok, found_ok, require_ok, pure_ok] at h
  obtain ⟨a', hget, -, ⟨-, -, hsucceeded, -⟩, -, -, -, -, -, -, -, -, -, -, -, -, rfl⟩ := h
  exact ⟨hget, hsucceeded⟩

theorem createRefinement_backs {env : Env} (op : Op) (incident : Ref) (payload : ReportCreate) :
    Backs s.aiPriority s.Answered payload.aiRefinementId (createRefinement env s op incident payload) := by
  intro p hp
  cases hi : getIncident s.db.feed.incidents incident with
  | ok i =>
    rw [createRefinement, hi] at hp
    exact refinedPriority_backs (fun _ _ => checkedRefinement_ok) p hp
  | error e =>
    cases hid : payload.aiRefinementId with
    | none =>
      rw [hid] at hp
      obtain rfl := pure_ok.mp hp
      exact ⟨rfl, nofun⟩
    | some j =>
      rw [hid, createRefinement, hi] at hp
      cases hp

theorem patchRefinement_backs {env : Env} {op : Op} {id : Id} {payload : ReportPatch} {r a b : Report}
    {attachments : Table Attachment} (hr : openReport s.db op.actor op.header id payload.revision = .ok r)
    (ha : payload.applyTo env op.now s.db.contacts.size r = .ok a)
    (hb : payload.rebind s.db.attachments id a = .ok (attachments, b)) :
    Backs s.aiPriority s.Answered b.aiRefinementId (patchRefinement env s op id payload) := by
  simp only [patchRefinement, hr, ha, hb, bind, Except.bind]
  exact refinedPriority_backs fun _ _ hcheck => checkedRefinement_ok hcheck

theorem priorityRefinement_backs {env : Env} {op : Op} {id revision : ℕ} {r : Report}
    (hr : openReport s.db op.actor op.header id revision = .ok r) :
    Backs s.aiPriority s.Answered r.aiRefinementId (priorityRefinement env s op id revision) := by
  simp only [priorityRefinement, hr, bind, Except.bind]
  exact refinedPriority_backs fun _ _ hcheck => checkedRefinement_ok hcheck

section Resolved
variable {env : Env} {op : Op}

theorem resolve_postReport {incident : Ref} {payload : ReportCreate} {refinement : Result (Option Priority)}
    {contact : Result Unit}
    (h : (s.resolve env op).call = .postReport incident payload refinement contact) :
    refinement = createRefinement env s op incident payload := by
  unfold resolve at h
  dsimp only at h
  split at h
  · cases h
    rfl
  · exact nomatch h
  · exact nomatch h
  · next hnot _ _ => exact absurd h (hnot _ _ _ _)

theorem resolve_patchReport {id : Id} {payload : ReportPatch} {refinement : Result (Option Priority)}
    (h : (s.resolve env op).call = .patchReport id payload refinement) :
    refinement = patchRefinement env s op id payload := by
  unfold resolve at h
  dsimp only at h
  split at h
  · exact nomatch h
  · cases h
    rfl
  · exact nomatch h
  · next hnot _ => exact absurd h (hnot _ _ _)

theorem resolve_patchReportPriority {id revision : ℕ} {priority : Option Priority}
    {refinement : Result (Option Priority)}
    (h : (s.resolve env op).call = .patchReportPriority id revision priority refinement) :
    refinement = priorityRefinement env s op id revision := by
  unfold resolve at h
  dsimp only at h
  split at h
  · exact nomatch h
  · exact nomatch h
  · cases h
    rfl
  · next hnot => exact absurd h (hnot _ _ _ _)

end Resolved

theorem handle_rankStep {env : Env} {op : Op} {o : Outcome}
    (h : handle env s.db.begin (s.resolve env op) = .ok o) :
    RankStep (·.Backed s.aiPriority s.Answered) s.db.begin o.db := by
  cases handle_reportChange h with
  | kept hreports _ => exact .kept hreports
  | @posted incident payload _ _ i _ _ _ _ _ hcall _ hai ha hb hreports _ =>
    obtain rfl := resolve_postReport hcall
    obtain ⟨rfl, hnamed⟩ := createRefinement_backs op incident payload _ hai
    have hnew : (newReport op.now i s.db.contacts.size op.actor payload
        (payload.aiRefinementId.bind s.aiPriority)).Backed s.aiPriority s.Answered := ⟨rfl, hnamed⟩
    exact .created ((bindAttachments_sameRank hb).backed ((applyLocation_sameRank ha).backed hnew)) hreports
  | patched hcall hr ha hb hai hrevised =>
    obtain rfl := resolve_patchReport hcall
    have hbacked := backed_prioritise op.now (patchRefinement_backs (s := s) hr ha hb _ hai)
    exact .revised hrevised.stored (fun _ => hbacked) hrevised.reports
  | deleted _ hrevised =>
    exact hrevised.rankStep ⟨rfl, rfl, rfl, rfl, rfl⟩
  | moved _ hrevised =>
    exact hrevised.rankStep ⟨rfl, rfl, rfl, rfl, rfl⟩
  | @ranked _ _ priority ai _ r hcall hr hai hrevised =>
    obtain rfl := resolve_patchReportPriority hcall
    have hbacked := backed_prioritise (r := { r with manualPriority := priority }) op.now
      (priorityRefinement_backs (s := s) hr _ hai)
    exact .revised hrevised.stored (fun _ => hbacked) hrevised.reports

/-- A request is kept until its analysis is answered. -/
structure Awaiting (s : RefinedState) : Prop where
  running : ∀ i request, s.pending.get i = some (some request) →
    ∀ a, s.refinements.get i = some a → a.status = .running
  aligned : s.pending.size = s.refinements.size

theorem answerRefinement_cases (now : Time) (id : Id) (answer : Result ReportRefinementOutput) :
    answerRefinement env now s id answer = s ∨
      ∃ a request e row, s.refinements.get id = some a ∧ s.pending.get id = some (some request) ∧
        answerRefinement env now s id answer =
          { s with
            db := s.db.begin.emit now a.incidentId e
            refinements := s.refinements.modify id fun _ => row
            pending := s.pending.modify id fun _ => none } := by
  unfold answerRefinement
  split
  · rename_i a actor request ha hp
    exact Or.inr ⟨a, (actor, request), _, _, ha, hp, rfl⟩
  · exact Or.inl rfl

theorem requestRefinement_running {now : Time} {actor : Actor} {header : Option Ref}
    {request : ReportRefinementRequest} {details : Id → Dict} {a : AiAnalysis}
    (ha : requestRefinement env now s actor header request details = .ok a) : a.status = .running := by
  simp only [requestRefinement, bind_ok, pure_ok] at ha
  obtain ⟨-, -, -, -, -, -, -, -, -, -, payload, -, rfl⟩ := ha
  rfl

theorem Awaiting.step (h : s.Awaiting) (x : RefinedStep) : (refinedStep env s x).Awaiting := by
  cases x with
  | op op => exact ⟨h.running, h.aligned⟩
  | refine now actor header request details =>
    unfold refinedStep
    dsimp only
    split
    · rename_i a ha
      refine ⟨?_, ?_⟩
      · intro i request' hi b hb
        rcases Table.get_insert_cases hb with ⟨-, rfl⟩ | hb
        · exact requestRefinement_running ha
        · rcases Table.get_insert_cases hi with ⟨rfl, -⟩ | hi
          · rw [h.aligned] at hb
            exact absurd hb (by rw [Table.get_size]; exact nofun)
          · exact h.running i request' hi b hb
      · show (s.pending.insert _).size = (s.refinements.insert _).size
        rw [Table.size_insert, Table.size_insert, h.aligned]
    · exact h
  | answer now id answer =>
    show (answerRefinement env now s id answer).Awaiting
    rcases @answerRefinement_cases env s now id answer with
      heq | ⟨a, request, e, row, ha, hp, heq⟩ <;> rw [heq]
    · exact h
    refine ⟨?_, ?_⟩
    · intro i request' hi b hb
      rcases Table.get_modify_cases hi with ⟨rfl, _, _, heq⟩ | ⟨hne, hi⟩
      · cases heq
      · have hb' : (s.refinements.modify id fun _ => row).get i = some b := hb
        rw [Table.get_modify_of_ne _ _ hne] at hb'
        exact h.running i request' hi b hb'
    · show (s.pending.modify id _).size = (s.refinements.modify id _).size
      rw [Table.size_modify, Table.size_modify, h.aligned]
  | uploads uploads => exact ⟨h.running, h.aligned⟩

/-- An answered analysis stays as it is. -/
theorem Awaiting.answered_kept (h : s.Awaiting) (x : RefinedStep) {i : Id} {b : AiAnalysis}
    (hb : s.refinements.get i = some b) (hsucceeded : b.status = .succeeded) :
    (refinedStep env s x).refinements.get i = some b := by
  cases x with
  | op op => exact hb
  | refine now actor header request details =>
    unfold refinedStep
    dsimp only
    split
    · exact Table.get_insert_of_some _ hb
    · exact hb
  | answer now id answer =>
    show (answerRefinement env now s id answer).refinements.get i = some b
    rcases @answerRefinement_cases env s now id answer with
      heq | ⟨a, request, e, row, ha, hp, heq⟩ <;> rw [heq]
    · exact hb
    have hne : id ≠ i := by
      rintro rfl
      rw [h.running id request hp b hb] at hsucceeded
      cases hsucceeded
    exact (Table.get_modify_of_ne _ _ hne).trans hb
  | uploads uploads => exact hb

/-- Only operations change the reports. -/
theorem refinedStep_reports {P : Report → Prop} (hdb : s.db.reports.All fun _ r => P r) (x : RefinedStep)
    (hop : ∀ (op : Op) (o : Outcome), handle env.toEnv s.db.begin (s.resolve env.toEnv op) = .ok o →
      RankStep P s.db.begin o.db) : (refinedStep env s x).db.reports.All fun _ r => P r := by
  cases x with
  | op op =>
    exact step_cases (P := fun t => t.reports.All fun _ r => P r) hdb fun o ho => (hop op o ho).all hdb
  | refine now actor header request details =>
    unfold refinedStep
    dsimp only
    split
    · exact hdb
    · exact hdb
  | answer now id answer =>
    show (answerRefinement env now s id answer).db.reports.All _
    rcases @answerRefinement_cases env s now id answer with
      heq | ⟨a, request, e, row, ha, hp, heq⟩ <;> rw [heq] <;> exact hdb
  | uploads uploads => exact hdb

structure Backed (s : RefinedState) : Prop extends s.Awaiting where
  reports : s.db.reports.All fun _ r => r.Backed s.aiPriority s.Answered

/-- A report stays backed while the answered analyses stay as they are. -/
theorem backed_kept {t : RefinedState} {r : Report}
    (hkept : ∀ i a, s.refinements.get i = some a → a.status = .succeeded → t.refinements.get i = some a)
    (hb : r.Backed s.aiPriority s.Answered) : r.Backed t.aiPriority t.Answered := by
  constructor
  · rw [hb.rank]
    congr 1
    cases hid : r.aiRefinementId with
    | none => rfl
    | some j =>
      obtain ⟨a, ha, hsucceeded⟩ := hb.named j hid
      rw [Option.bind_some, Option.bind_some, aiPriority, aiPriority, ha, hkept j a ha hsucceeded]
  · intro j hj
    obtain ⟨a, ha, hsucceeded⟩ := hb.named j hj
    exact ⟨a, hkept j a ha hsucceeded, hsucceeded⟩

theorem Backed.step (h : s.Backed) (x : RefinedStep) : (refinedStep env s x).Backed := by
  refine ⟨h.toAwaiting.step x, ?_⟩
  have hreports := @refinedStep_reports env _ _ h.reports x fun op o ho => handle_rankStep ho
  intro i r hr
  exact backed_kept (fun j a ha hsucceeded => h.toAwaiting.answered_kept x ha hsucceeded) (hreports i r hr)

end RefinedState

/-- In every reachable state the stored priority of every report is the effective one of what the
report is now and what the analysis it names asks for; an urgent report has priority high. -/
theorem stored_priorities_are_effective (env : RefinementEnv) (incidents : Table Incident)
    (devices : Table AnonymousDevice) (attachments : Table Attachment) (uploads : Table Upload)
    (steps : List RefinedStep) :
    let s := refinedRun env (.initial (.initial incidents devices attachments) uploads) steps
    s.db.reports.All fun _ r =>
      (r.priority, r.prioritySource) = effectivePriority r.isUrgent r.manualPriority
          (aiPriorityFromRefinement (r.aiRefinementId.bind s.refinements.get)) ∧
        (r.isUrgent = true → r.priority = .high) := by
  intro s i r hr
  have hinitial : (RefinedState.initial (.initial incidents devices attachments) uploads).Backed :=
    ⟨⟨fun _ _ h => (nomatch h), rfl⟩, fun _ _ h => (nomatch h)⟩
  have hbacked : s.Backed :=
    run_invariant (refinedStep env) (C := fun _ _ => True) (fun _ x h _ => h.step x) hinitial
      (along_true _ _ _)
  have hrank := (hbacked.reports i r hr).rank
  have hai : r.aiRefinementId.bind s.aiPriority =
      aiPriorityFromRefinement (r.aiRefinementId.bind s.refinements.get) := by
    cases r.aiRefinementId with
    | none => rfl
    | some j => rfl
  rw [hai] at hrank
  refine ⟨hrank, fun hurgent => ?_⟩
  rw [hurgent] at hrank
  exact congrArg Prod.fst hrank

end CrisisMosaic
