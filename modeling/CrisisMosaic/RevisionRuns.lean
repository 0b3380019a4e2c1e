import CrisisMosaic.RevisionSteps

/-!
# Requests for one revision

Requests arrive at any time and take the write lock one after the other. Of those that quote one
revision of a resource the first that is accepted leaves the revision behind.
-/

namespace CrisisMosaic
open Relational

/-- A request that had the write lock, with the state it read, what became of it and the state it left. -/
structure Served where
  op : Op
  before : Db
  result : Result Outcome
  after : Db

/-- The requests that wait for the write lock, and those that had it, in the order in which they did. -/
structure Writers where
  db : Db
  waiting : List Op
  served : List Served

inductive WriterStep
  | arrive (op : Op)
  /-- A waiting request takes the lock, and reads the clock and the rows. -/
  | acquire (i : ℕ) (now : Time)

def Op.serve (env : Env) (db : Db) (op : Op) : Served :=
  ⟨op, db, transact env db op, step env db op⟩

namespace Writers

def initial (db : Db) : Writers := ⟨db, [], []⟩

def step (env : Env) (s : Writers) : WriterStep → Writers
  | .arrive op => { s with waiting := s.waiting ++ [op] }
  | .acquire i now =>
      match s.waiting[i]? with
      | none => s
      | some op =>
          let done := { op with now := now }.serve env s.db
          { db := done.after, waiting := s.waiting.eraseIdx i, served := s.served ++ [done] }

end Writers

namespace Served

def Quotes (x : Served) (resource : Resource) (n : ℕ) : Prop :=
  CrisisMosaic.Quotes x.before x.op.actor x.op.call resource n

def Commits (x : Served) : Prop := ∃ o, x.result = .ok o

/-- Refused for the revision, or for a reason that every revision is refused for. -/
def RefusedForRevision (env : Env) (x : Served) (resource : Resource) : Prop :=
  ∃ e, x.result = .error e ∧
    (e.IsRevisionConflict ∨ ∀ m, transact env x.before (x.op.quoting resource m) = .error e)

end Served

/-- One request at most commits for one revision of a resource, and the revision is behind it. -/
structure OneCommit (env : Env) (served : List Served) : Prop where
  refused : served.Pairwise fun x y => ∀ resource n, x.Quotes resource n → y.Quotes resource n →
    x.Commits → y.RefusedForRevision env resource
  unchanged : ∀ x ∈ served, ¬ x.Commits → x.after = x.before
  increases : ∀ x ∈ served, ∀ resource n, x.Quotes resource n → x.Commits →
    x.before.revisionOf resource = n ∧ n < x.after.revisionOf resource
  ordered : served.Pairwise fun x y => ∀ resource, x.after.revisionOf resource ≤ y.before.revisionOf resource

section Serving
variable {env : Env} {db : Db} {op : Op} {x : Served} {s : Writers}

theorem step_revision_le (env : Env) (op : Op) (hs : db.toStore.Sound) (resource : Resource) :
    db.revisionOf resource ≤ (CrisisMosaic.step env db op).revisionOf resource :=
  step_cases (P := fun t => db.revisionOf resource ≤ t.revisionOf resource) le_rfl
    fun _ ho => transact_revision_le ho hs resource

theorem Op.serve_refused (hquotes : (op.serve env db).Quotes resource n)
    (hn : n ≠ db.revisionOf resource) : (op.serve env db).RefusedForRevision env resource := by
  obtain ⟨now, actor, header, call⟩ := op
  replace hquotes : CrisisMosaic.Quotes db actor call resource n := hquotes
  obtain ⟨e, he, hall⟩ := @transact_compares env db actor header now call resource n hquotes n hn
  have hsame : Op.quoting ⟨now, actor, header, call⟩ resource n = ⟨now, actor, header, call⟩ := by
    rw [Op.quoting, hquotes.quoting_self]
  exact ⟨e, (congrArg (transact env db) hsame).symm.trans he, hall⟩

theorem Op.serve_increases (hs : db.toStore.Sound) (hquotes : (op.serve env db).Quotes resource n)
    (hcommits : (op.serve env db).Commits) :
    db.revisionOf resource = n ∧ n < (op.serve env db).after.revisionOf resource := by
  obtain ⟨o, ho⟩ := hcommits
  have hn : n = db.revisionOf resource := by
    by_contra hne
    obtain ⟨e, he, -⟩ := Op.serve_refused hquotes hne
    exact nomatch ho.symm.trans he
  refine ⟨hn.symm, ?_⟩
  have hafter : (op.serve env db).after = o.db := step_of_ok ho
  rw [hn, hafter]
  exact transact_revision_lt ho hs hquotes

theorem Op.serve_unchanged (h : ¬ (op.serve env db).Commits) : (op.serve env db).after = db := by
  change CrisisMosaic.step env db op = db
  cases ho : transact env db op with
  | error e => simp [CrisisMosaic.step, ho, Functor.map, Except.map, commit]
  | ok o => exact absurd ⟨o, ho⟩ h

/-- No revision that a served request left is ahead of the present one. -/
structure Writers.Serial (env : Env) (s : Writers) : Prop where
  sound : s.db.toStore.Sound
  behind : ∀ x ∈ s.served, ∀ resource, x.after.revisionOf resource ≤ s.db.revisionOf resource
  once : OneCommit env s.served

theorem Writers.initial_serial (hs : db.toStore.Sound) : (Writers.initial db).Serial env where
  sound := hs
  behind := fun _ hx => absurd hx List.not_mem_nil
  once := ⟨.nil, fun _ hx => absurd hx List.not_mem_nil, fun _ hx => absurd hx List.not_mem_nil, .nil⟩

theorem Writers.Serial.serve (h : s.Serial env) (op : Op) (waiting : List Op) :
    Writers.Serial env
      ⟨(op.serve env s.db).after, waiting, s.served ++ [op.serve env s.db]⟩ where
  sound := step_sound env s.db op h.sound
  behind := by
    intro x hx resource
    rcases List.mem_append.mp hx with hx | hx
    · exact (h.behind x hx resource).trans (step_revision_le env op h.sound resource)
    · rw [List.mem_singleton.mp hx]
  once :=
    { refused := by
        refine List.pairwise_append.mpr ⟨h.once.refused, List.pairwise_singleton _ _, ?_⟩
        intro x hx y hy resource n hquotes hquotes' hcommits
        obtain rfl := List.mem_singleton.mp hy
        obtain ⟨-, hlt⟩ := h.once.increases x hx resource n hquotes hcommits
        have hbehind := h.behind x hx resource
        exact Op.serve_refused hquotes' (by omega)
      unchanged := by
        intro x hx hcommits
        rcases List.mem_append.mp hx with hx | hx
        · exact h.once.unchanged x hx hcommits
        · obtain rfl := List.mem_singleton.mp hx
          exact Op.serve_unchanged hcommits
      increases := by
        intro x hx resource n hquotes hcommits
        rcases List.mem_append.mp hx with hx | hx
        · exact h.once.increases x hx resource n hquotes hcommits
        · obtain rfl := List.mem_singleton.mp hx
          exact Op.serve_increases h.sound hquotes hcommits
      ordered := by
        refine List.pairwise_append.mpr ⟨h.once.ordered, List.pairwise_singleton _ _, ?_⟩
        intro x hx y hy
        rw [List.mem_singleton.mp hy]
        exact h.behind x hx }

theorem Writers.Serial.step (h : s.Serial env) (i : WriterStep) : (s.step env i).Serial env := by
  cases i with
  | arrive op => exact ⟨h.sound, h.behind, h.once⟩
  | acquire i now =>
    unfold Writers.step
    dsimp only
    split
    · exact h
    · exact h.serve _ _

end Serving

/-- Of the requests that quote one revision of a resource, in whatever order they get the lock, at
most one commits; those that get it later are refused. -/
theorem one_commit_per_revision (env : Env) (incidents : Table Incident) (devices : Table AnonymousDevice)
    (attachments : Table Attachment) (steps : List WriterStep) :
    OneCommit env (run (Writers.step env) (.initial (.initial incidents devices attachments)) steps).served := by
  have hstart := @Writers.initial_serial env _ (initial_sound incidents devices attachments)
  exact (run_invariant (Writers.step env) (I := Writers.Serial env) (C := fun _ _ => True)
    (fun _ i hs _ => hs.step i) hstart (along_true _ _ _)).once

/-- Every other request for the revision is refused for the revision. -/
def RefusesForRevision (served : List Served) : Prop :=
  ∀ (i j : ℕ) (x y : Served) (resource : Resource) (n : ℕ), i ≠ j → served[i]? = some x → served[j]? = some y → x.Quotes resource n →
    y.Quotes resource n → x.Commits → ∃ e, y.result = .error e ∧ e.IsRevisionConflict

namespace Sample

/-- A resident asks twice for the deletion of a report. -/
def deletedTwice : List WriterStep :=
  [.arrive ⟨0, resident, none, .postReport (.id 0) waterReport (.ok none) (.ok ())⟩, .acquire 0 0,
    .arrive ⟨1, resident, none, .deleteReport 0 1⟩, .arrive ⟨1, resident, none, .deleteReport 0 1⟩,
    .acquire 1 2, .acquire 0 3]

def deletesReport (x : Served) : Bool :=
  match x.op.call with
  | .deleteReport 0 1 => true
  | _ => false

def refusedOtherwise (x : Served) : Bool :=
  match x.result with
  | .ok _ => false
  | .error e => !decide e.IsRevisionConflict

theorem quotes_of_deletes {x : Served} (h : deletesReport x = true) : x.Quotes (.report 0) 1 := by
  obtain ⟨⟨now, actor, header, call⟩, before, result, after⟩ := x
  unfold deletesReport at h
  split at h
  · next hcall =>
    obtain rfl : call = .deleteReport 0 1 := hcall
    exact .deleteReport
  · exact nomatch h

end Sample

open Sample in
/-- The second deletion is refused because there is no such report any more. -/
theorem second_deletion_finds_no_report : ¬ RefusesForRevision
    (run (Writers.step env) (.initial initial) deletedTwice).served := by
  have hfirst : ((run (Writers.step env) (.initial initial) deletedTwice).served[1]?).any
      (fun x => deletesReport x && x.result.toOption.isSome) = true := by decide +kernel
  have hsecond : ((run (Writers.step env) (.initial initial) deletedTwice).served[2]?).any
      (fun x => deletesReport x && refusedOtherwise x) = true := by decide +kernel
  generalize (run (Writers.step env) (.initial initial) deletedTwice).served = served at *
  intro hrefuses
  obtain ⟨x, hx, hcommits⟩ := (Option.any_eq_true _ _).mp hfirst
  obtain ⟨y, hy, hgone⟩ := (Option.any_eq_true _ _).mp hsecond
  simp only [Bool.and_eq_true, Option.isSome_iff_exists, toOption_some] at hcommits hgone
  obtain ⟨e, he, hconflict⟩ := hrefuses 1 2 x y (.report 0) 1 (by decide) hx hy
    (quotes_of_deletes hcommits.1) (quotes_of_deletes hgone.1) hcommits.2
  simp [refusedOtherwise, he, hconflict] at hgone

end CrisisMosaic
