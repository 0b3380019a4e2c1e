import CrisisMosaic.ReportChanges
import CrisisMosaic.SpotTurns

/-!
# The revisions of a report

Every handler that changes a report counts its revision and adds one row with the snapshot of
what it made of the report; nothing else writes the rows or the reports.
-/

namespace CrisisMosaic
open Relational Questions

/-- The keys of a snapshot that tell a time. -/
def isTimestamp (key : String) : Bool :=
  key = "created_at" || key = "updated_at" || key = "deleted_at"

def SnapshotsAgree (a b : Dict) : Prop := ∀ key, isTimestamp key = false → a.get key = b.get key

def Db.revisionRows (db : Db) (id revision : ℕ) : List Id :=
  db.revisions.select fun v => v.reportId = id && v.revision = revision

/-- The rows of a report are its revisions, each once, and the last tells what it is now. -/
structure Db.Audited (db : Db) : Prop where
  positive : db.reports.All fun _ r => 1 ≤ r.revision
  revisions : db.reports.All fun id r => ∀ k,
    (db.revisionRows id k).length = if 1 ≤ k ∧ k ≤ r.revision then 1 else 0
  latest : db.reports.All fun id r => ∀ i ∈ db.revisionRows id r.revision, ∀ v,
    db.revisions.get i = some v → SnapshotsAgree v.snapshot (reportSnapshot id r)

/-- The row is about this version of the report. -/
structure ReportRevision.Records (v : ReportRevision) (id : Id) (r : Report) : Prop where
  reportId : v.reportId = id
  revision : v.revision = r.revision
  snapshot : SnapshotsAgree v.snapshot (reportSnapshot id r)

/-- What an operation does to the reports and their revisions. -/
inductive RevisionStep (db db' : Db) : Prop
  | kept : db'.reports = db.reports → db'.revisions = db.revisions → RevisionStep db db'
  | created {r : Report} {v : ReportRevision} : r.revision = 1 → v.Records db.reports.size r →
      db'.reports = db.reports.insert r → db'.revisions = db.revisions.insert v → RevisionStep db db'
  | revised {id : Id} {r r' : Report} {v : ReportRevision} : db.reports.get id = some r →
      r'.revision = r.revision + 1 → v.Records id r' →
      db'.reports = db.reports.modify id (fun _ => r') → db'.revisions = db.revisions.insert v →
      RevisionStep db db'

/-- The rows are about reports there are. -/
def Db.KnownRevisions (db : Db) : Prop := db.revisions.All fun _ v => v.reportId < db.reports.size

section Preservation
variable {db db' : Db}

theorem revisionRows_insert {v : ReportRevision} (h : db'.revisions = db.revisions.insert v)
    (id revision : ℕ) : db'.revisionRows id revision = db.revisionRows id revision ++
      if v.reportId = id ∧ v.revision = revision then [db.revisions.size] else [] := by
  unfold Db.revisionRows
  rw [h, Table.select_insert]
  simp only [Bool.and_eq_true, decide_eq_true_eq]

theorem RevisionStep.known (h : RevisionStep db db') (hdb : db.KnownRevisions) :
    db'.KnownRevisions := by
  cases h with
  | kept hreports hrevisions =>
    unfold Db.KnownRevisions
    rw [hreports, hrevisions]
    exact hdb
  | @created r v _ hrecords hreports hrevisions =>
    unfold Db.KnownRevisions
    rw [hreports, hrevisions, Table.size_insert]
    apply Table.All.insert
    · intro i w hw
      exact Nat.lt_succ_of_lt (hdb i w hw)
    · rw [hrecords.reportId]
      exact Nat.lt_succ_self _
  | @revised id r r' v hget _ hrecords hreports hrevisions =>
    unfold Db.KnownRevisions
    rw [hreports, hrevisions, Table.size_modify]
    apply Table.All.insert hdb
    rw [hrecords.reportId]
    exact Table.lt_size hget

/-- A row is added for another report. -/
theorem revisionRows_of_ne {v : ReportRevision} (h : db'.revisions = db.revisions.insert v) {id : Id}
    (hid : v.reportId ≠ id) (revision : ℕ) :
    db'.revisionRows id revision = db.revisionRows id revision := by
  rw [revisionRows_insert h, if_neg fun heq => hid heq.1, List.append_nil]

/-- The next revision of a report is stored with its row. -/
theorem Db.Audited.insert (h : db.Audited) {id p : ℕ} {r : Report} {v : ReportRevision}
    (hget : db'.reports.get id = some r)
    (hothers : ∀ j, j ≠ id → db'.reports.get j = db.reports.get j) (hnext : r.revision = p + 1)
    (hcounts : ∀ k, (db.revisionRows id k).length = if 1 ≤ k ∧ k ≤ p then 1 else 0)
    (hrecords : v.Records id r) (hrevisions : db'.revisions = db.revisions.insert v) :
    db'.Audited := by
  have hold : ∀ j, j ≠ id → ∀ k, db'.revisionRows j k = db.revisionRows j k := by
    intro j hj k
    apply revisionRows_of_ne hrevisions
    rw [hrecords.reportId]
    exact Ne.symm hj
  have hnew : ∀ k, db'.revisionRows id k = db.revisionRows id k ++
      if k = p + 1 then [db.revisions.size] else [] := by
    intro k
    rw [revisionRows_insert hrevisions, hrecords.reportId, hrecords.revision, hnext]
    simp only [true_and, eq_comm]
  constructor
  · intro j row hrow
    by_cases hj : j = id
    · subst hj
      obtain rfl := Option.some.inj (hget.symm.trans hrow)
      omega
    · exact h.positive j row ((hothers j hj).symm.trans hrow)
  · intro j row hrow k
    by_cases hj : j = id
    · subst hj
      obtain rfl := Option.some.inj (hget.symm.trans hrow)
      rw [hnew, List.length_append, hcounts, hnext]
      by_cases hk : k = p + 1
      · subst hk
        simp
      · rw [if_neg hk, List.length_nil, Nat.add_zero]
        exact if_congr (by omega) rfl rfl
    · rw [hold j hj]
      exact h.revisions j row ((hothers j hj).symm.trans hrow) k
  · intro j row hrow i hi w hw
    by_cases hj : j = id
    · subst hj
      obtain rfl := Option.some.inj (hget.symm.trans hrow)
      have hnone : db.revisionRows j (p + 1) = [] := by
        apply List.length_eq_zero_iff.mp
        rw [hcounts, if_neg]
        omega
      rw [hnext, hnew, hnone, if_pos rfl] at hi
      obtain rfl := List.mem_singleton.mp hi
      rw [hrevisions, Table.get_insert_size] at hw
      obtain rfl := Option.some.inj hw
      exact hrecords.snapshot
    · rw [hold j hj] at hi
      obtain ⟨u, hu, -⟩ := Table.mem_select.mp hi
      have hkept := Table.get_insert_of_some v hu
      rw [← hrevisions, hw] at hkept
      obtain rfl := Option.some.inj hkept
      exact h.latest j row ((hothers j hj).symm.trans hrow) i hi w hu

theorem RevisionStep.audited (h : RevisionStep db db') (hdb : db.Audited)
    (hknown : db.KnownRevisions) : db'.Audited := by
  cases h with
  | kept hreports hrevisions =>
    have hrows : db'.revisionRows = db.revisionRows := by
      funext id revision
      rw [Db.revisionRows, Db.revisionRows, hrevisions]
    constructor
    · exact hreports ▸ hdb.positive
    · rw [hreports, hrows]
      exact hdb.revisions
    · rw [hreports, hrows, hrevisions]
      exact hdb.latest
  | @created r v hone hrecords hreports hrevisions =>
    apply hdb.insert (p := 0) _ _ hone _ hrecords hrevisions
    · rw [hreports, Table.get_insert_size]
    · intro j hj
      rw [hreports, Table.get_insert, if_neg hj]
    · intro k
      have hempty : ¬ (1 ≤ k ∧ k ≤ 0) := by omega
      rw [if_neg hempty]
      apply List.length_eq_zero_iff.mpr
      apply List.eq_nil_iff_forall_not_mem.mpr
      intro i hi
      obtain ⟨w, hw, hof⟩ := Table.mem_select.mp hi
      simp only [Bool.and_eq_true, decide_eq_true_eq] at hof
      have hlt : w.reportId < db.reports.size := hknown i w hw
      rw [hof.1] at hlt
      exact absurd hlt (Nat.lt_irrefl _)
  | @revised id r r' v hget hnext hrecords hreports hrevisions =>
    apply hdb.insert _ _ hnext (hdb.revisions id r hget) hrecords hrevisions
    · rw [hreports, Table.get_modify_self, hget]
      rfl
    · intro j hj
      rw [hreports, Table.get_modify_of_ne _ _ (Ne.symm hj)]

end Preservation

section Changes

/-- The snapshot of a deletion tells when it was. -/
theorem snapshotsAgree_tombstone (snapshot tombstone : Dict)
    (h : ∀ entry ∈ tombstone, isTimestamp entry.1 = true) :
    SnapshotsAgree (snapshot ++ tombstone) snapshot := by
  intro key hkey
  have hnone : tombstone.get key = none := by
    apply Dict.get_none_of_any
    rw [← Bool.not_eq_true, List.any_eq_true]
    rintro ⟨entry, hentry, heq⟩
    rw [← eq_of_beq heq, h entry hentry] at hkey
    exact nomatch hkey
  rw [Dict.get_append, hnone, Option.or_none]

theorem reportRevision_records (now : Time) (actor : Actor) (id : Id) (r : Report) (tombstone : Dict)
    (h : ∀ entry ∈ tombstone, isTimestamp entry.1 = true) :
    (reportRevision now actor id r (reportSnapshot id r ++ tombstone)).Records id r :=
  ⟨rfl, rfl, snapshotsAgree_tombstone _ tombstone h⟩

theorem Db.Revised.revisionStep {db db' : Db} {now : Time} {actor : Actor} {id : Id} {r r' : Report}
    {tombstone : Dict} (h : db.Revised db' now actor id r r' tombstone)
    (hnext : r'.revision = r.revision + 1) (htombstone : ∀ entry ∈ tombstone, isTimestamp entry.1 = true) :
    RevisionStep db db' :=
  .revised h.stored hnext (reportRevision_records now actor id r' tombstone htombstone) h.reports h.revisions

theorem no_tombstone : ∀ entry ∈ ([] : Dict), isTimestamp entry.1 = true :=
  fun _ h => absurd h List.not_mem_nil

theorem ReportChange.revisionStep {env : Env} {db db' : Db} {op : Op} (h : ReportChange env db op db') :
    RevisionStep db db' := by
  cases h with
  | kept hreports hrevisions => exact .kept hreports hrevisions
  | posted _ _ _ ha hb hreports hrecorded =>
    have hlife := (applyLocation_sameLife ha).trans (bindAttachments_sameLife hb)
    exact .created hlife.revision (reportRevision_records _ _ _ _ [] no_tombstone) hreports
      hrecorded.revisions
  | patched _ _ ha hb _ hrevised =>
    have hlife := (applyTo_sameLife ha).trans (rebind_sameLife hb)
    exact hrevised.revisionStep (congrArg (· + 1) hlife.revision) no_tombstone
  | deleted _ hrevised =>
    apply hrevised.revisionStep rfl
    intro entry hentry
    rw [List.mem_singleton.mp hentry]
    rfl
  | moved _ hrevised => exact hrevised.revisionStep rfl no_tombstone
  | ranked _ _ _ hrevised => exact hrevised.revisionStep rfl no_tombstone

end Changes

theorem step_audited (env : Env) (db : Db) (op : Op) (h : db.Audited ∧ db.KnownRevisions) :
    (step env db op).Audited ∧ (step env db op).KnownRevisions := by
  apply step_cases (P := fun t => t.Audited ∧ t.KnownRevisions) h
  intro o ho
  have hbegin : db.begin.Audited := ⟨h.1.positive, h.1.revisions, h.1.latest⟩
  have hknown : db.begin.KnownRevisions := h.2
  have hstep := (handle_reportChange ho).revisionStep
  exact ⟨hstep.audited hbegin hknown, hstep.known hknown⟩

theorem initial_audited (incidents : Table Incident) (devices : Table AnonymousDevice)
    (attachments : Table Attachment) : (Db.initial incidents devices attachments).Audited where
  positive := fun _ _ h => nomatch h
  revisions := fun _ _ h => nomatch h
  latest := fun _ _ h => nomatch h

/-- In every reachable state the rows of every report are its revisions, each once, and the last
one's snapshot agrees with the report in all but timestamps. -/
theorem reports_are_audited (env : Env) (incidents : Table Incident)
    (devices : Table AnonymousDevice) (attachments : Table Attachment) (ops : List Op) :
    (runFrom env (.initial incidents devices attachments) ops).Audited :=
  (run_invariant (step env) (I := fun db => db.Audited ∧ db.KnownRevisions)
    (fun db op h _ => step_audited env db op h)
    ⟨initial_audited incidents devices attachments, fun _ _ h => nomatch h⟩ (along_true _ _ _)).1

end CrisisMosaic
