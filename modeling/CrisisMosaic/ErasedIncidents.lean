import CrisisMosaic.Anonymization
import CrisisMosaic.Reachable

/-!
# What a pass forgets

Two states that differ only in what residents supplied about one expired incident, and in the
copies of it. The pass maps them to the same rows, except where it overwrites nothing: the
projections of conflicts, blind spots and facts, and copies that already look overwritten.
-/

namespace CrisisMosaic
open Relational

/-! Rows without what residents supplied, and without the copies and digests of it. -/

def Report.masked (r : Report) : Report :=
  { r with
    contentOriginal := ""
    contentDisplay := ""
    place := ⟨"", none, none, none⟩
    normalized := none
    locationAccuracyM := none }

def ReportRevision.masked (r : ReportRevision) : ReportRevision := { r with snapshot := [] }

def DirectedAnswer.masked (a : DirectedAnswer) : DirectedAnswer :=
  { a with
    optionId := ""
    semanticValue := ""
    answerText := ""
    observedLatitude := none
    observedLongitude := none
    observedCoordinateSystem := none }

def DirectedAnswerRevision.masked (r : DirectedAnswerRevision) : DirectedAnswerRevision :=
  { r with snapshot := [] }

def FragmentRow.masked (f : FragmentRow) : FragmentRow :=
  { f with
    claimKey := none
    claimValue := none
    label := ""
    description := ""
    place := ⟨"", none, none, none⟩ }

def ConflictEvidence.masked (e : ConflictEvidence) : ConflictEvidence :=
  { e with snapshot := [], snapshotSha256 := "" }

def AiAnalysis.masked (a : AiAnalysis) : AiAnalysis :=
  { a with inputSnapshot := [], contextPackage := none, contextSha256 := none, output := none }

def FeatureRow.masked (f : FeatureRow) : FeatureRow :=
  { f with title := "", position := none, publicData := [], privateData := [] }

/-- The states differ only in what is masked of the rows of one incident. -/
structure AgreeApart (incidentId : Id) (a b : ResidentDb) : Prop where
  incidents : a.incidents = b.incidents
  closedAt : a.closedAt = b.closedAt
  questions : a.questions = b.questions
  cases : a.cases = b.cases
  reports : a.reports.Related
    (ApartFrom (fun r => some r.incidentId) Report.masked incidentId) b.reports
  revisions : a.revisions.Related
    (ApartFrom (fun r => a.owners.report r.reportId) ReportRevision.masked incidentId) b.revisions
  answers : a.answers.Related
    (ApartFrom (fun x => a.owners.question x.questionId) DirectedAnswer.masked incidentId) b.answers
  answerRevisions : a.answerRevisions.Related
    (ApartFrom (fun r => a.owners.answer r.answerId) DirectedAnswerRevision.masked incidentId)
    b.answerRevisions
  fragments : a.fragments.Related
    (ApartFrom (fun f => some f.incidentId) FragmentRow.masked incidentId) b.fragments
  evidence : a.evidence.Related
    (ApartFrom (fun e => a.owners.conflict e.conflictId) ConflictEvidence.masked incidentId) b.evidence
  analyses : a.analyses.Related
    (ApartFrom (fun x => some x.incidentId) AiAnalysis.masked incidentId) b.analyses
  features : a.features.Related
    (ApartFrom (fun f => some f.incidentId) FeatureRow.masked incidentId) b.features

structure SameRows (a b : ResidentDb) : Prop where
  reports : a.reports = b.reports
  revisions : a.revisions = b.revisions
  answers : a.answers = b.answers
  answerRevisions : a.answerRevisions = b.answerRevisions
  fragments : a.fragments = b.fragments
  evidence : a.evidence = b.evidence
  analyses : a.analyses = b.analyses
  features : a.features = b.features

/-- Both rows were overwritten before or none was, or their time is that of the flush. -/
def OverwrittenTogether {α : Type} (anonymize : α → α) (updatedAt : α → Time) (stamped : Time)
    (a b : α) : Prop := (anonymize a = a ↔ anonymize b = b) ∨ updatedAt a = stamped

/-- A copy that has the flag is what the pass would write. -/
def FlaggedAsMarked {α : Type} (flagged : α → Bool) (mark : α → α) (a b : α) : Prop :=
  (flagged a = true → mark a = a) ∧ (flagged b = true → mark b = b)

/-- The condition under which nothing of the incident is left, row by row. -/
structure LeavesNothing (env : Env) (now stamped : Time) (incidentId : Id) (a b : ResidentDb) : Prop where
  reports : a.reports.Related (fun r s => some r.incidentId = some incidentId →
    OverwrittenTogether (anonymizeReport now) (·.updatedAt) stamped r s) b.reports
  revisions : a.revisions.Related (fun r s => a.owners.report r.reportId = some incidentId →
    r = s ∨ FlaggedAsMarked (fun r => isRetentionExpired r.snapshot) markRevision r s) b.revisions
  answers : a.answers.Related (fun x y => a.owners.question x.questionId = some incidentId →
    OverwrittenTogether anonymizeAnswer (·.updatedAt) stamped x y) b.answers
  answerRevisions : a.answerRevisions.Related (fun r s => a.owners.answer r.answerId = some incidentId →
    r = s ∨ FlaggedAsMarked (fun r => isRetentionExpired r.snapshot) markAnswerRevision r s)
    b.answerRevisions
  fragments : a.fragments.Related (fun f g => some f.incidentId = some incidentId →
    OverwrittenTogether anonymizeFragment (·.updatedAt) stamped f g) b.fragments
  evidence : a.evidence.Related (fun e f => a.owners.conflict e.conflictId = some incidentId →
    e = f ∨ FlaggedAsMarked (fun e => isRetentionExpired e.snapshot) (markEvidence env) e f) b.evidence
  analyses : a.analyses.Related (fun x y => some x.incidentId = some incidentId →
    x = y ∨ (FlaggedAsMarked (fun a => isRetentionExpired a.inputSnapshot) (markAnalysis env now) x y ∧
      x.contextPackage.isSome = y.contextPackage.isSome ∧ x.output.isSome = y.output.isSome ∧
      (x.contextPackage = none → x.contextSha256 = y.contextSha256))) b.analyses
  features : a.features.Related (fun f g => some f.incidentId = some incidentId →
    if f.isProjected then OverwrittenTogether anonymizeFeature (·.updatedAt) stamped f g else f = g)
    b.features

section Pass
variable (env : Env) (now stamped : Time)

/-- All the incidents of a pass at once. -/
def erasedDb (db : ResidentDb) (ids : List Id) : ResidentDb :=
  { db with
    reports := eraseAll (fun r => some r.incidentId) (eraseReport now stamped) ids db.reports
    revisions := eraseAll (fun r => db.owners.report r.reportId) eraseRevision ids db.revisions
    answers := eraseAll (fun a => db.owners.question a.questionId) (eraseAnswer stamped) ids db.answers
    answerRevisions := eraseAll (fun r => db.owners.answer r.answerId) eraseAnswerRevision ids
      db.answerRevisions
    fragments := eraseAll (fun f => some f.incidentId) (eraseFragment stamped) ids db.fragments
    evidence := eraseAll (fun e => db.owners.conflict e.conflictId) (eraseEvidence env) ids db.evidence
    analyses := eraseAll (fun a => some a.incidentId) (eraseAnalysis env now) ids db.analyses
    features := eraseAll (fun f => some f.incidentId) (eraseFeature stamped) ids db.features }

section Flushing
variable {α : Type} [DecidableEq α] {stamp mark : α → α} {a b : α}

theorem flushed_cases (stamp : α → α) (a m : α) :
    (m = a ∧ flushed stamp a m = m) ∨ (m ≠ a ∧ flushed stamp a m = stamp m) := by
  unfold flushed
  by_cases h : m = a
  · rw [if_pos h]
    exact Or.inl ⟨h, h.symm⟩
  · rw [if_neg h]
    exact Or.inr ⟨h, rfl⟩

/-- What is marked stays marked when the flush sets its time. -/
theorem mark_flushed (stamp mark : α → α) (hidem : ∀ a, mark (mark a) = mark a)
    (hstamp : ∀ a, mark (stamp a) = stamp (mark a)) (a : α) :
    mark (flushed stamp a (mark a)) = flushed stamp a (mark a) := by
  rcases flushed_cases stamp a (mark a) with ⟨-, hkept⟩ | ⟨-, hstamped⟩
  · rw [hkept, hidem]
  · rw [hstamped, hstamp, hidem]

theorem flushed_of_marked {stamp mark : α → α} (h : mark a = a) : flushed stamp a (mark a) = a := if_pos h

/-- A second flush changes nothing. -/
theorem flushed_flushed (stamp mark : α → α) (hidem : ∀ a, mark (mark a) = mark a) (hstamp : ∀ a, mark (stamp a) = stamp (mark a))
    (a : α) : flushed stamp (flushed stamp a (mark a)) (mark (flushed stamp a (mark a))) =
      flushed stamp a (mark a) :=
  flushed_of_marked (mark_flushed stamp mark hidem hstamp a)

/-- Rows that are overwritten with the same are flushed alike if both or none were like that before,
or if their time is that of the flush. -/
theorem flushed_eq_iff {m : α} :
    flushed stamp a m = flushed stamp b m ↔ (m = a ↔ m = b) ∨ stamp m = m := by
  rcases flushed_cases stamp a m with ⟨ha, hka⟩ | ⟨ha, hka⟩
  · rcases flushed_cases stamp b m with ⟨hb, hkb⟩ | ⟨hb, hkb⟩
    · rw [hka, hkb]
      exact iff_of_true rfl (Or.inl (iff_of_true ha hb))
    · rw [hka, hkb]
      constructor
      · exact fun h => Or.inr h.symm
      · rintro (h | h)
        · exact absurd (h.mp ha) hb
        · exact h.symm
  · rcases flushed_cases stamp b m with ⟨hb, hkb⟩ | ⟨hb, hkb⟩
    · rw [hka, hkb]
      constructor
      · exact Or.inr
      · rintro (h | h)
        · exact absurd (h.mpr hb) ha
        · exact h
    · rw [hka, hkb]
      exact iff_of_true rfl (Or.inl (iff_of_false ha hb))

end Flushing
section Erasures
variable {env now stamped}

theorem eraseReport_incidentId (r : Report) : (eraseReport now stamped r).incidentId = r.incidentId := by
  rcases flushed_cases (fun r : Report => { r with updatedAt := stamped }) r (anonymizeReport now r) with
    ⟨-, h⟩ | ⟨-, h⟩
  · rw [eraseReport, h]
    rfl
  · rw [eraseReport, h]
    rfl

theorem eraseAnswer_questionId (a : DirectedAnswer) : (eraseAnswer stamped a).questionId = a.questionId := by
  rcases flushed_cases (fun a : DirectedAnswer => { a with updatedAt := stamped }) a (anonymizeAnswer a) with
    ⟨-, h⟩ | ⟨-, h⟩
  · rw [eraseAnswer, h]
    rfl
  · rw [eraseAnswer, h]
    rfl

theorem eraseFragment_incidentId (f : FragmentRow) :
    (eraseFragment stamped f).incidentId = f.incidentId := by
  rcases flushed_cases (fun f : FragmentRow => { f with updatedAt := stamped }) f (anonymizeFragment f) with
    ⟨-, h⟩ | ⟨-, h⟩
  · rw [eraseFragment, h]
    rfl
  · rw [eraseFragment, h]
    rfl

theorem eraseFeature_kept (f : FeatureRow) :
    (eraseFeature stamped f).incidentId = f.incidentId ∧ (eraseFeature stamped f).kind = f.kind := by
  unfold eraseFeature
  split_ifs
  · rcases flushed_cases (fun f : FeatureRow => { f with updatedAt := stamped }) f (anonymizeFeature f) with
      ⟨-, h⟩ | ⟨-, h⟩
    · rw [h]
      exact ⟨rfl, rfl⟩
    · rw [h]
      exact ⟨rfl, rfl⟩
  · exact ⟨rfl, rfl⟩

theorem eraseReport_eraseReport (r : Report) :
    eraseReport now stamped (eraseReport now stamped r) = eraseReport now stamped r :=
  flushed_flushed (fun r : Report => { r with updatedAt := stamped }) (anonymizeReport now) (fun _ => rfl)
    (fun _ => rfl) r

theorem eraseAnswer_eraseAnswer (a : DirectedAnswer) :
    eraseAnswer stamped (eraseAnswer stamped a) = eraseAnswer stamped a :=
  flushed_flushed (fun a : DirectedAnswer => { a with updatedAt := stamped }) anonymizeAnswer (fun _ => rfl)
    (fun _ => rfl) a

theorem eraseFragment_eraseFragment (f : FragmentRow) :
    eraseFragment stamped (eraseFragment stamped f) = eraseFragment stamped f :=
  flushed_flushed (fun f : FragmentRow => { f with updatedAt := stamped }) anonymizeFragment (fun _ => rfl)
    (fun _ => rfl) f

theorem eraseFeature_eraseFeature (f : FeatureRow) :
    eraseFeature stamped (eraseFeature stamped f) = eraseFeature stamped f := by
  have hkind : (eraseFeature stamped f).isProjected = f.isProjected := by
    rw [FeatureRow.isProjected, (eraseFeature_kept f).2, FeatureRow.isProjected]
  by_cases hf : f.isProjected = true
  · rw [eraseFeature, if_pos (hkind.trans hf), eraseFeature, if_pos hf]
    exact flushed_flushed (fun f : FeatureRow => { f with updatedAt := stamped }) anonymizeFeature
      (fun _ => rfl) (fun _ => rfl) f
  · rw [eraseFeature, if_neg (by rwa [hkind])]

theorem anonymizeReports_eq (reports : Table Report) (i : Id) :
    anonymizeReports now stamped reports i =
      eraseOwned (fun r => some r.incidentId) (eraseReport now stamped) reports i := by
  simp only [anonymizeReports, eraseOwned, Option.some.injEq]
  rfl

theorem eraseOwned_map {α β : Type} (owner : α → Option Id) (erase : α → α) {f : α → β}
    (hf : ∀ a, f (erase a) = f a) (t : Table α) (i k : Id) :
    ((eraseOwned owner erase t i).get k).map f = (t.get k).map f := by
  rw [eraseOwned, Table.get_sweep, Option.map_map]
  refine Option.map_congr fun a _ => ?_
  dsimp only [Function.comp_apply]
  split_ifs
  · exact hf a
  · rfl

/-- The rows keep their incidents. -/
theorem anonymizeIncident_owners (db : ResidentDb) (i : Id) :
    (anonymizeIncident env now stamped db i).owners = db.owners := by
  have hreport : (anonymizeIncident env now stamped db i).owners.report = db.owners.report := by
    funext k
    simp only [ResidentDb.owners, anonymizeIncident, anonymizeReports_eq]
    exact eraseOwned_map _ _ eraseReport_incidentId _ _ _
  have hanswer : (anonymizeIncident env now stamped db i).owners.answer = db.owners.answer := by
    funext k
    have hquestion := eraseOwned_map (fun a => db.owners.question a.questionId) (eraseAnswer stamped)
      eraseAnswer_questionId db.answers i k
    simp only [ResidentDb.owners, anonymizeIncident] at hquestion ⊢
    have hbind : ∀ o : Option DirectedAnswer, (o.bind fun a =>
        (db.questions.get a.questionId).map (·.incidentId)) =
        (o.map (·.questionId)).bind fun q => (db.questions.get q).map (·.incidentId) := by
      intro o
      cases o <;> rfl
    rw [hbind, hquestion, ← hbind]
  cases hdb : db.owners with
  | mk report question answer conflict =>
    cases hafter : (anonymizeIncident env now stamped db i).owners with
    | mk report' question' answer' conflict' =>
      rw [hdb, hafter] at hreport hanswer
      have hquestion : question' = question :=
        (congrArg Owners.question hafter).symm.trans (congrArg Owners.question hdb)
      have hconflict : conflict' = conflict :=
        (congrArg Owners.conflict hafter).symm.trans (congrArg Owners.conflict hdb)
      rw [hquestion, hconflict]
      exact congrArg₂ (fun r a => (⟨r, question, a, conflict⟩ : Owners)) hreport hanswer

end Erasures

/-- The incidents of a pass, one after the other. -/
theorem foldl_anonymizeIncident (db : ResidentDb) (ids : List Id) :
    ids.foldl (anonymizeIncident env now stamped) db = erasedDb env now stamped db ids := by
  induction ids generalizing db with
  | nil => simp [erasedDb]
  | cons i ids ih =>
    rw [List.foldl_cons, ih, erasedDb, anonymizeIncident_owners]
    simp only [erasedDb, anonymizeIncident, anonymizeReports_eq]
    congr 1
    · refine eraseAll_cons (fun r => ?_) eraseReport_eraseReport _ _ _
      rw [eraseReport_incidentId]
    · refine eraseAll_cons (fun r => ?_) (eraseUnless_eraseUnless fun r => rfl) _ _ _
      unfold eraseUnless
      split <;> rfl
    · refine eraseAll_cons (fun a => ?_) eraseAnswer_eraseAnswer _ _ _
      rw [eraseAnswer_questionId]
    · refine eraseAll_cons (fun r => ?_) (eraseUnless_eraseUnless fun r => rfl) _ _ _
      unfold eraseUnless
      split <;> rfl
    · refine eraseAll_cons (fun f => ?_) eraseFragment_eraseFragment _ _ _
      rw [eraseFragment_incidentId]
    · refine eraseAll_cons (fun e => ?_) (eraseUnless_eraseUnless fun e => rfl) _ _ _
      unfold eraseUnless
      split <;> rfl
    · refine eraseAll_cons (fun a => ?_) (eraseUnless_eraseUnless fun a => rfl) _ _ _
      unfold eraseUnless
      split <;> rfl
    · refine eraseAll_cons (fun f => ?_) eraseFeature_eraseFeature _ _ _
      rw [(eraseFeature_kept f).1]

section Alike

theorem eraseReport_eq_iff {r s : Report} (h : r.masked = s.masked) :
    eraseReport now stamped r = eraseReport now stamped s ↔
      OverwrittenTogether (anonymizeReport now) (·.updatedAt) stamped r s := by
  have hm : anonymizeReport now r = anonymizeReport now s := (congrArg (anonymizeReport now) h :)
  rw [eraseReport, eraseReport, ← hm, flushed_eq_iff]
  refine or_congr ?_ ⟨fun hstamp => (congrArg Report.updatedAt hstamp).symm, fun htime => ?_⟩
  · rw [hm]
  · rw [← htime]
    rfl

theorem eraseAnswer_eq_iff {a b : DirectedAnswer} (h : a.masked = b.masked) :
    eraseAnswer stamped a = eraseAnswer stamped b ↔
      OverwrittenTogether anonymizeAnswer (·.updatedAt) stamped a b := by
  have hm : anonymizeAnswer a = anonymizeAnswer b := (congrArg anonymizeAnswer h :)
  rw [eraseAnswer, eraseAnswer, ← hm, flushed_eq_iff]
  refine or_congr ?_ ⟨fun hstamp => (congrArg DirectedAnswer.updatedAt hstamp).symm, fun htime => ?_⟩
  · rw [hm]
  · rw [← htime]
    rfl

theorem eraseFragment_eq_iff {f g : FragmentRow} (h : f.masked = g.masked) :
    eraseFragment stamped f = eraseFragment stamped g ↔
      OverwrittenTogether anonymizeFragment (·.updatedAt) stamped f g := by
  have hm : anonymizeFragment f = anonymizeFragment g := (congrArg anonymizeFragment h :)
  rw [eraseFragment, eraseFragment, ← hm, flushed_eq_iff]
  refine or_congr ?_ ⟨fun hstamp => (congrArg FragmentRow.updatedAt hstamp).symm, fun htime => ?_⟩
  · rw [hm]
  · rw [← htime]
    rfl

theorem eraseFeature_eq_iff {f g : FeatureRow} (h : f.masked = g.masked) :
    eraseFeature stamped f = eraseFeature stamped g ↔
      if f.isProjected then OverwrittenTogether anonymizeFeature (·.updatedAt) stamped f g else f = g := by
  have hm : anonymizeFeature f = anonymizeFeature g := (congrArg anonymizeFeature h :)
  have hkind : f.isProjected = g.isProjected := (congrArg FeatureRow.isProjected h :)
  rw [eraseFeature, eraseFeature, ← hkind]
  split_ifs
  · rw [← hm, flushed_eq_iff]
    refine or_congr ?_ ⟨fun hstamp => (congrArg FeatureRow.updatedAt hstamp).symm, fun htime => ?_⟩
    · rw [hm]
    · rw [← htime]
      rfl
  · exact Iff.rfl

/-- The marks of two copies are the same, as they do not depend on what was copied. -/
theorem eraseUnless_masked {α : Type} {flagged : α → Bool} (mark masked : α → α)
    (hidem : ∀ a, mark (mark a) = mark a) (hmask : ∀ a, mark a = mark (masked a)) {a b : α}
    (h : masked a = masked b) : eraseUnless flagged mark a = eraseUnless flagged mark b ↔
      a = b ∨ FlaggedAsMarked flagged mark a b := by
  have hm : mark a = mark b := by rw [hmask, h, ← hmask]
  rw [eraseUnless_eq_iff hidem, FlaggedAsMarked]
  simp only [hm, and_true]

theorem eraseRevision_eq_iff {r s : ReportRevision} (h : r.masked = s.masked) :
    eraseRevision r = eraseRevision s ↔
      r = s ∨ FlaggedAsMarked (fun r => isRetentionExpired r.snapshot) markRevision r s :=
  eraseUnless_masked markRevision ReportRevision.masked (fun _ => rfl) (fun _ => rfl) h

theorem eraseAnswerRevision_eq_iff {r s : DirectedAnswerRevision} (h : r.masked = s.masked) :
    eraseAnswerRevision r = eraseAnswerRevision s ↔
      r = s ∨ FlaggedAsMarked (fun r => isRetentionExpired r.snapshot) markAnswerRevision r s :=
  eraseUnless_masked markAnswerRevision DirectedAnswerRevision.masked (fun _ => rfl) (fun _ => rfl) h

theorem eraseEvidence_eq_iff {e f : ConflictEvidence} (h : e.masked = f.masked) :
    eraseEvidence env e = eraseEvidence env f ↔
      e = f ∨ FlaggedAsMarked (fun e => isRetentionExpired e.snapshot) (markEvidence env) e f :=
  eraseUnless_masked (markEvidence env) ConflictEvidence.masked (fun _ => rfl) (fun _ => rfl) h

theorem markAnalysis_eq_iff {x y : AiAnalysis} (h : x.masked = y.masked) :
    markAnalysis env now x = markAnalysis env now y ↔
      x.contextPackage.isSome = y.contextPackage.isSome ∧ x.output.isSome = y.output.isSome ∧
        (x.contextPackage = none → x.contextSha256 = y.contextSha256) := by
  obtain ⟨z, hz⟩ : ∃ z, z = x.masked := ⟨_, rfl⟩
  have hx : markAnalysis env now x = { markAnalysis env now z with
      contextPackage := x.contextPackage.map fun _ => [retentionExpired]
      contextSha256 := if x.contextPackage.isSome then
        some (env.canonicalSha256 (.obj [retentionExpired])) else x.contextSha256
      output := x.output.map fun _ => [retentionExpired] } := by
    rw [hz]
    rfl
  have hy : markAnalysis env now y = { markAnalysis env now z with
      contextPackage := y.contextPackage.map fun _ => [retentionExpired]
      contextSha256 := if y.contextPackage.isSome then
        some (env.canonicalSha256 (.obj [retentionExpired])) else y.contextSha256
      output := y.output.map fun _ => [retentionExpired] } := by
    rw [hz, h]
    rfl
  rw [hx, hy]
  simp only [AiAnalysis.mk.injEq, true_and, and_true]
  cases x.contextPackage <;> cases y.contextPackage <;> cases x.output <;> cases y.output <;> simp

theorem eraseAnalysis_eq_iff {x y : AiAnalysis} (h : x.masked = y.masked) :
    eraseAnalysis env now x = eraseAnalysis env now y ↔
      x = y ∨ (FlaggedAsMarked (fun a => isRetentionExpired a.inputSnapshot) (markAnalysis env now) x y ∧
        x.contextPackage.isSome = y.contextPackage.isSome ∧ x.output.isSome = y.output.isSome ∧
        (x.contextPackage = none → x.contextSha256 = y.contextSha256)) := by
  have hidem : ∀ a, markAnalysis env now (markAnalysis env now a) = markAnalysis env now a := by
    intro a
    cases hc : a.contextPackage <;> cases ho : a.output <;> simp [markAnalysis, hc, ho]
  rw [eraseAnalysis, eraseUnless_eq_iff hidem, markAnalysis_eq_iff env now h, FlaggedAsMarked, and_assoc]

theorem AgreeApart.owners {incidentId : Id} {a b : ResidentDb} (h : AgreeApart incidentId a b) :
    b.owners = a.owners := by
  have hreport : b.owners.report = a.owners.report := by
    funext k
    have hk := h.reports k
    simp only [ResidentDb.owners]
    generalize a.reports.get k = x, b.reports.get k = y at hk ⊢
    cases hk with
    | none => rfl
    | some hrow => exact congrArg some (congrArg Report.incidentId hrow.1).symm
  have hanswer : b.owners.answer = a.owners.answer := by
    funext k
    have hk := h.answers k
    simp only [ResidentDb.owners, ← h.questions]
    generalize a.answers.get k = x, b.answers.get k = y at hk ⊢
    cases hk with
    | none => rfl
    | @some x y hrow =>
      have hquestion : x.questionId = y.questionId := (congrArg DirectedAnswer.questionId hrow.1 :)
      rw [Option.bind_some, Option.bind_some, hquestion]
  have hquestion : b.owners.question = a.owners.question := by
    simp only [ResidentDb.owners, h.questions]
  have hconflict : b.owners.conflict = a.owners.conflict := by
    simp only [ResidentDb.owners, h.cases]
  calc b.owners = ⟨b.owners.report, b.owners.question, b.owners.answer, b.owners.conflict⟩ := rfl
    _ = a.owners := by rw [hreport, hquestion, hanswer, hconflict]

/-- The tables one by one, when the incident is among those of the pass. -/
theorem AgreeApart.erased_iff {incidentId : Id} {a b : ResidentDb} (h : AgreeApart incidentId a b)
    {ids : List Id} (hi : incidentId ∈ ids) :
    SameRows (erasedDb env now stamped a ids) (erasedDb env now stamped b ids) ↔
      LeavesNothing env now stamped incidentId a b := by
  have hreports := eraseAll_eq_iff hi h.reports
    (fun r s hm => congrArg some (congrArg Report.incidentId hm :))
    (fun r s => eraseReport_eq_iff now stamped)
  have hrevisions := eraseAll_eq_iff hi h.revisions
    (fun r s hm => congrArg a.owners.report (congrArg ReportRevision.reportId hm :))
    (fun r s => eraseRevision_eq_iff)
  have hanswers := eraseAll_eq_iff hi h.answers
    (fun x y hm => congrArg a.owners.question (congrArg DirectedAnswer.questionId hm :))
    (fun x y => eraseAnswer_eq_iff stamped)
  have hanswerRevisions := eraseAll_eq_iff hi h.answerRevisions
    (fun r s hm => congrArg a.owners.answer (congrArg DirectedAnswerRevision.answerId hm :))
    (fun r s => eraseAnswerRevision_eq_iff)
  have hfragments := eraseAll_eq_iff hi h.fragments
    (fun f g hm => congrArg some (congrArg FragmentRow.incidentId hm :))
    (fun f g => eraseFragment_eq_iff stamped)
  have hevidence := eraseAll_eq_iff hi h.evidence
    (fun e f hm => congrArg a.owners.conflict (congrArg ConflictEvidence.conflictId hm :))
    (fun e f => eraseEvidence_eq_iff env)
  have hanalyses := eraseAll_eq_iff hi h.analyses
    (fun x y hm => congrArg some (congrArg AiAnalysis.incidentId hm :))
    (fun x y => eraseAnalysis_eq_iff env now)
  have hfeatures := eraseAll_eq_iff hi h.features
    (fun f g hm => congrArg some (congrArg FeatureRow.incidentId hm :))
    (fun f g => eraseFeature_eq_iff stamped)
  simp only [erasedDb, h.owners]
  constructor
  · exact fun hs => ⟨hreports.mp hs.reports, hrevisions.mp hs.revisions, hanswers.mp hs.answers,
      hanswerRevisions.mp hs.answerRevisions, hfragments.mp hs.fragments, hevidence.mp hs.evidence,
      hanalyses.mp hs.analyses, hfeatures.mp hs.features⟩
  · exact fun hl => ⟨hreports.mpr hl.reports, hrevisions.mpr hl.revisions, hanswers.mpr hl.answers,
      hanswerRevisions.mpr hl.answerRevisions, hfragments.mpr hl.fragments, hevidence.mpr hl.evidence,
      hanalyses.mpr hl.analyses, hfeatures.mpr hl.features⟩

end Alike
end Pass

namespace Sample

/-- An incident that was closed at the beginning, with rows about one place. -/
def closedDb (reports : List Report) (features : List FeatureRow) : ResidentDb where
  incidents := ⟨[{ incident with status := .closed }]⟩
  closedAt := ⟨[some 0]⟩
  questions := .empty
  cases := .empty
  reports := ⟨reports⟩
  revisions := .empty
  answers := .empty
  answerRevisions := .empty
  fragments := .empty
  evidence := .empty
  analyses := .empty
  features := ⟨features⟩

def statement (content : String) : Report where
  incidentId := 0
  reporterDeviceId := 0
  reporterContactId := none
  category := .water
  contentOriginal := content
  contentDisplay := content
  place := ⟨"a", none, none, none⟩
  normalized := none
  locationAccuracyM := none
  locationSource := "manual"
  locationProvider := none
  locationObservedAt := none
  isUrgent := false
  priority := .medium
  prioritySource := .categoryDefault
  manualPriority := none
  status := .new
  isDirectedAnswer := false
  aiRefinementId := none
  attachmentCount := 0
  revision := 1
  deletedAt := none
  createdAt := 0
  updatedAt := 0

/-- The projection of a spot that a detection has opened at an address. -/
def spotFeature (address : String) : FeatureRow where
  incidentId := 0
  kind := .blindSpot
  sourceRef := 0
  title := address ++ " 道路通行信息盲区"
  status := "open"
  severity := .medium
  position := none
  revision := 1
  isDeleted := true
  publicData := [("fact_key", .str "road.passability"), ("route_impact_count", .nat 0),
    ("location_text", .str address)]
  privateData := [("fact_key", .str "road.passability"), ("route_impact_count", .nat 0),
    ("location_text", .str address), ("resident_report_derived", .bool true)]
  createdAt := 0
  updatedAt := 0

theorem closedDb_agreeApart {reports reports' : List Report} {features features' : List FeatureRow}
    (hreports : List.Forall₂ (ApartFrom (fun r => some r.incidentId) Report.masked 0) reports reports')
    (hfeatures : List.Forall₂ (ApartFrom (fun f => some f.incidentId) FeatureRow.masked 0)
      features features') : AgreeApart 0 (closedDb reports features) (closedDb reports' features') where
  incidents := rfl
  closedAt := rfl
  questions := rfl
  cases := rfl
  reports := related_of_forall₂ hreports
  revisions := related_of_forall₂ .nil
  answers := related_of_forall₂ .nil
  answerRevisions := related_of_forall₂ .nil
  fragments := related_of_forall₂ .nil
  evidence := related_of_forall₂ .nil
  analyses := related_of_forall₂ .nil
  features := related_of_forall₂ hfeatures

end Sample

/-- A pass maps states that differ in what residents supplied about an expired incident to the same
rows, if and only if it leaves nothing of it. -/
theorem pass_forgets_expired_incident_iff (env : Env) (now stamped cutoff : Time) (incidentId : Id)
    (a b : ResidentDb) (hi : incidentId ∈ a.expired cutoff) (h : AgreeApart incidentId a b) :
    SameRows (anonymizeExpired env now stamped cutoff a) (anonymizeExpired env now stamped cutoff b) ↔
      LeavesNothing env now stamped incidentId a b := by
  have hexpired : b.expired cutoff = a.expired cutoff := by
    simp only [ResidentDb.expired, h.incidents, h.closedAt]
  rw [anonymizeExpired, anonymizeExpired, hexpired, foldl_anonymizeIncident, foldl_anonymizeIncident]
  exact h.erased_iff env now stamped hi

open Sample in
theorem contents_of_reports_are_forgotten :
    SameRows (anonymizeExpired Sample.env 1 1 0 (closedDb [statement "x"] []))
      (anonymizeExpired Sample.env 1 1 0 (closedDb [statement "y"] [])) := by
  have hagree : AgreeApart 0 (closedDb [statement "x"] []) (closedDb [statement "y"] []) :=
    closedDb_agreeApart (.cons ⟨rfl, fun h => absurd rfl h⟩ .nil) .nil
  refine (pass_forgets_expired_incident_iff Sample.env 1 1 0 0 _ _ (by decide +kernel) hagree).mpr ?_
  constructor
  case reports =>
    refine related_of_forall₂ (.cons (fun _ => Or.inl (iff_of_false ?_ ?_)) .nil)
    · decide +kernel
    · decide +kernel
  all_goals exact related_of_forall₂ .nil

open Sample in
/-- The address of an opened spot stays in its projection. -/
theorem address_of_spot_is_kept :
    AgreeApart 0 (closedDb [] [spotFeature "x"]) (closedDb [] [spotFeature "y"]) ∧
      0 ∈ (closedDb [] [spotFeature "x"]).expired 0 ∧
      ¬ SameRows (anonymizeExpired Sample.env 1 1 0 (closedDb [] [spotFeature "x"]))
        (anonymizeExpired Sample.env 1 1 0 (closedDb [] [spotFeature "y"])) := by
  refine ⟨closedDb_agreeApart .nil (.cons ⟨rfl, fun h => absurd rfl h⟩ .nil), by decide +kernel, fun h => ?_⟩
  have htitles := congrArg (fun t : Table FeatureRow => t.rows.map (·.title)) h.features
  exact absurd htitles (by decide +kernel)

end CrisisMosaic
