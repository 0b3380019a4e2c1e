import CrisisMosaic.Reachable
import CrisisMosaic.Relational.Keeps
import CrisisMosaic.ReportListing

/-!
# What a traversal of the listing returns

The cursor fixes the time and the identifier of the boundary; its priority and urgency are read
again. While they are what they were, the traversal is one by key.
-/

namespace CrisisMosaic
open Relational Keyset

section Rows
variable {reports : Table Report} {incidentId : Id} {actor : Actor} {q : ReportQuery}

theorem mem_listedRows {i : Id} {r : Report} :
    (i, r) ∈ listedRows reports incidentId actor q ↔
      reports.get i = some r ∧ r.isListed incidentId actor q = true :=
  Table.mem_rowsWith

theorem listedRows_nodup : (listedRows reports incidentId actor q).Nodup := Table.nodup_rowsWith _ _

variable (uuid : Id ↪ ℕ)

/-- Two rows with one key are the same row. -/
theorem operatorKey_inj : ∀ a ∈ listedRows reports incidentId actor q,
    ∀ b ∈ listedRows reports incidentId actor q, operatorKey uuid a = operatorKey uuid b → a = b := by
  intro a ha b hb heq
  exact Table.rowsWith_inj ha hb (uuid.injective
    (congrArg (fun k : OperatorKey => (ofLex (ofLex (ofLex k).2).2).2) heq))

theorem operatorKey_lt {a b : Id × Report} : operatorKey uuid a < operatorKey uuid b ↔
    a.2.priority.rank < b.2.priority.rank ∨
    (a.2.priority.rank = b.2.priority.rank ∧ a.2.urgentRank < b.2.urgentRank) ∨
    (a.2.priority.rank = b.2.priority.rank ∧ a.2.urgentRank = b.2.urgentRank ∧
      (a.2.updatedAt < b.2.updatedAt ∨ (a.2.updatedAt = b.2.updatedAt ∧ uuid a.1 < uuid b.1))) := by
  simp only [operatorKey, residentKey, Prod.Lex.toLex_lt_toLex]
  tauto

end Rows

section Traversal
variable {uuid : Id ↪ ℕ} {env : Env} {actor : Actor} {header : Option Ref} {incident : Ref}
  {q : ReportQuery} {s : ListingState} {p : ReportPage}

namespace ListingState

variable (uuid) in
/-- What has been read, as a traversal by key. -/
def traversal (s : ListingState) : Traversal (Id × Report) OperatorKey :=
  ⟨s.lastRow.map (operatorKey uuid), s.returned, s.finished⟩

/-- The report the cursor names has the priority and the urgency it had when its page was read. -/
def CursorHeld (s : ListingState) : Prop :=
  ∀ last ∈ s.lastRow, ∃ r ∈ s.db.reports.get last.1, r.priority = last.2.priority ∧
    r.isUrgent = last.2.isUrgent

instance (s : ListingState) : Decidable s.CursorHeld := inferInstanceAs (Decidable (∀ _ ∈ _, _))

/-- The filters accept the report. -/
def Lists (s : ListingState) (actor : Actor) (incident : Ref) (q : ReportQuery) (r : Report) : Bool :=
  (getIncident s.db.feed.incidents incident).toOption.all fun x => r.isListed x.1 actor q

end ListingState

/-- Re-read, the boundary is the key of the last row. -/
theorem applyOperatorCursor_held {last : Id × Report} {reports : Table Report} {incidentId : Id}
    {below : Id × Report → Bool} {r : Report} (hget : reports.get last.1 = some r)
    (hpriority : r.priority = last.2.priority) (hurgent : r.isUrgent = last.2.isUrgent)
    (h : applyOperatorCursor uuid reports incidentId (some (encodeCursor last)) = .ok below) :
    below = fun row => decide (operatorKey uuid row < operatorKey uuid last) := by
  simp only [applyOperatorCursor, bind_ok, found_ok, pure_ok, Option.filter_eq_some_iff] at h
  obtain ⟨t, ⟨ht, -⟩, rfl⟩ := h
  obtain rfl := Option.some.inj (hget.symm.trans ht)
  funext row
  have hrank : r.urgentRank = last.2.urgentRank := by rw [Report.urgentRank, Report.urgentRank, hurgent]
  rw [Bool.eq_iff_iff, decide_eq_true_eq, operatorKey_lt, ← hpriority, ← hrank]
  simp only [Bool.or_eq_true, Bool.and_eq_true, decide_eq_true_eq, or_assoc, and_assoc]
  rfl

theorem ListingState.cursor_eq (hopen : s.finished = false) :
    s.cursor = s.lastRow.map encodeCursor := by
  unfold finished at hopen
  unfold cursor lastRow
  cases hlast : s.pages.getLast? with
  | none => rfl
  | some p =>
    rw [hlast] at hopen
    simp only [Option.any_some, ReportPage.nextCursor] at hopen
    simp only [Option.bind_some, ReportPage.nextCursor]
    split_ifs with hmore
    · rfl
    · simp [hmore] at hopen

/-- A page by key, of the rows below the boundary. -/
theorem listReports_page (hactor : actor.isResident = false) (hheld : s.CursorHeld)
    (hopen : s.finished = false) (h : listReports uuid s.db actor header incident q s.cursor = .ok p) :
    ∃ id row, getIncident s.db.feed.incidents incident = .ok (id, row) ∧
      (⟨p.items, p.hasMore⟩ : Page _) = page (operatorKey uuid) q.limit
        ((s.traversal uuid).remaining (operatorKey uuid) (listedRows s.db.reports id actor q)) := by
  simp only [listReports, bind_ok, hactor, Bool.false_eq_true, if_false, pure_ok] at h
  obtain ⟨⟨id, row⟩, hget, -, -, below, hbelow, _, rfl, rfl⟩ := h
  refine ⟨id, row, hget, ?_⟩
  have hfilter : (listedRows s.db.reports id actor q).filter below =
      (s.traversal uuid).remaining (operatorKey uuid) (listedRows s.db.reports id actor q) := by
    rw [s.cursor_eq hopen] at hbelow
    unfold Traversal.remaining ListingState.traversal
    cases hlast : s.lastRow with
    | none =>
      rw [hlast] at hbelow
      obtain rfl := pure_ok.mp hbelow
      rfl
    | some last =>
      obtain ⟨r, hr, hpriority, hurgent⟩ := hheld last hlast
      rw [hlast] at hbelow
      rw [applyOperatorCursor_held hr hpriority hurgent hbelow]
      rfl
  rw [← hfilter]
  rfl

/-- Reading a page is one fetch by key. -/
theorem traversal_fetch (hactor : actor.isResident = false) (hheld : s.CursorHeld)
    (hopen : s.finished = false) (h : listReports uuid s.db actor header incident q s.cursor = .ok p) :
    ∃ id row, getIncident s.db.feed.incidents incident = .ok (id, row) ∧
      ListingState.traversal uuid { s with pages := s.pages ++ [p] } =
        (s.traversal uuid).fetch (operatorKey uuid) q.limit (listedRows s.db.reports id actor q) := by
  obtain ⟨id, row, hget, hpage⟩ := listReports_page hactor hheld hopen h
  refine ⟨id, row, hget, ?_⟩
  obtain ⟨rows, hrows⟩ : ∃ rows, rows = (s.traversal uuid).remaining (operatorKey uuid)
    (listedRows s.db.reports id actor q) := ⟨_, rfl⟩
  unfold Traversal.fetch
  rw [← hrows] at hpage ⊢
  have hitems : p.items = (page (operatorKey uuid) q.limit rows).items := congrArg Page.items hpage
  have hmore : p.hasMore = (page (operatorKey uuid) q.limit rows).more := congrArg Page.more hpage
  have hdone : p.nextCursor.isNone = !(page (operatorKey uuid) q.limit rows).more := by
    unfold ReportPage.nextCursor
    rw [← hmore]
    cases hm : p.hasMore with
    | false => rfl
    | true =>
      have hne : p.items ≠ [] := hitems ▸ page_ne_nil q.limit_bounds.1 (hmore ▸ hm)
      rw [List.getLast?_eq_some_getLast hne]
      rfl
  dsimp only
  rw [← hitems, ← hdone]
  simp [ListingState.traversal, ListingState.lastRow, ListingState.returned, ListingState.finished]

theorem listingStep_returnsOnce {step : ListingStep} {i : Id} {r : Report}
    (hactor : actor.isResident = false)
    (hkept : step.isFetch = true → s.finished = false →
      s.db.reports.get i = some r ∧ s.Lists actor incident q r)
    (hheld : step.isFetch = true → s.finished = false → s.CursorHeld)
    (h : (s.traversal uuid).ReturnsOnce (operatorKey uuid) (·.1 = i) (i, r)) :
    ((listingStep uuid env actor header incident q s step).traversal uuid).ReturnsOnce
      (operatorKey uuid) (·.1 = i) (i, r) := by
  cases step with
  | op op => exact h
  | fetch =>
    unfold listingStep
    cases hopen : s.finished with
    | true => exact h
    | false =>
      obtain ⟨hget, hlists⟩ := hkept rfl hopen
      rw [if_neg Bool.false_ne_true]
      cases hp : listReports uuid s.db actor header incident q s.cursor with
      | error e => exact h
      | ok p =>
        obtain ⟨id, row, hincident, hfetch⟩ := traversal_fetch hactor (hheld rfl hopen) hopen hp
        have hmem : (i, r) ∈ listedRows s.db.reports id actor q := by
          rw [ListingState.Lists, hincident] at hlists
          exact mem_listedRows.mpr ⟨hget, hlists⟩
        have honly : ∀ y ∈ listedRows s.db.reports id actor q, decide (y.1 = i) = true → y = (i, r) := by
          rintro ⟨j, t⟩ hy hj
          obtain rfl := of_decide_eq_true hj
          rw [Option.some.inj ((mem_listedRows.mp hy).1.symm.trans hget)]
        show (ListingState.traversal uuid { s with pages := s.pages ++ [p] }).ReturnsOnce _ _ _
        rw [hfetch]
        exact h.fetch q.limit_bounds.1 listedRows_nodup (operatorKey_inj uuid) hmem
          (decide_eq_true rfl) honly hopen

variable (uuid env actor header incident q) in
/-- A condition on every state a page is read from. -/
def AtEachPage (C : ListingState → Prop) (s : ListingState) (steps : List ListingStep) : Prop :=
  Along (listingStep uuid env actor header incident q) (fun s i => i.isFetch = true → s.finished = false → C s)
    s steps

instance {C : ListingState → Prop} [DecidablePred C] (s : ListingState) (steps : List ListingStep) :
    Decidable (AtEachPage uuid env actor header incident q C s steps) :=
  inferInstanceAs (Decidable (Along _ _ _ _))

/-- The pages of a traversal hold each report that keeps its row and its place in the listing once,
whatever happens to the others, as long as the reports that the cursors name keep their priority and
urgency until the next page is read. -/
theorem unmodified_report_is_listed_once (hactor : actor.isResident = false) (hnew : s.pages = [])
    {steps : List ListingStep} {i : Id} {r : Report}
    (hkept : AtEachPage uuid env actor header incident q
      (fun s => s.db.reports.get i = some r ∧ s.Lists actor incident q r) s steps)
    (hheld : AtEachPage uuid env actor header incident q ListingState.CursorHeld s steps)
    (hend : (run (listingStep uuid env actor header incident q) s steps).finished = true) :
    (run (listingStep uuid env actor header incident q) s steps).returned.filter (·.1 = i) = [(i, r)] := by
  have hrun := run_invariant (listingStep uuid env actor header incident q)
    (I := fun s => (s.traversal uuid).ReturnsOnce (operatorKey uuid) (·.1 = i) (i, r))
    (fun _ _ hs hc => listingStep_returnsOnce hactor hc.1 hc.2 hs) ?_
    ((along_and _).mpr ⟨hkept, hheld⟩)
  · exact hrun.1 (Or.inl hend)
  · have hstart : s.traversal uuid = .start := by
      simp [ListingState.traversal, ListingState.lastRow, ListingState.returned, ListingState.finished,
        hnew, Traversal.start]
    rw [hstart]
    exact Traversal.start_returnsOnce _ _

end Traversal

namespace Sample

def everyReport : ReportQuery := ⟨none, none, none, none, none, 1, by decide⟩

/-- Two reports, the first of high and the second of medium priority. -/
def listed : Db := reached
  [⟨0, resident, none, .postReport (.id 0) waterReport (.ok none) (.ok ())⟩,
    ⟨1, resident, none, .postReport (.id 0) waterReport (.ok none) (.ok ())⟩,
    ⟨2, admin, none, .patchReportPriority 0 1 (some .high) (.ok none)⟩,
    ⟨3, admin, none, .patchReportPriority 1 1 (some .medium) (.ok none)⟩]

def second : Report := (listed.reports.get 1).get (by decide +kernel)

/-- The first report's priority is lowered. -/
def lower : Op := ⟨4, admin, none, .patchReportPriority 0 2 (some .low) (.ok none)⟩

abbrev listing : ListingState → ListingStep → ListingState :=
  listingStep (.refl _) env admin none (.id 0) everyReport

end Sample

theorem second_report_is_listed :
    (run Sample.listing ⟨Sample.listed, []⟩ [.fetch, .fetch]).returned.filter (·.1 = 1) =
      [(1, Sample.second)] :=
  unmodified_report_is_listed_once (s := ⟨Sample.listed, []⟩) rfl rfl
    (by decide +kernel) (by decide +kernel) (by decide +kernel)

/-- The report the cursor names is lowered between two pages, and the next page starts too low. -/
theorem lowered_cursor_skips_a_report :
    AtEachPage (.refl _) Sample.env Sample.admin none (.id 0) Sample.everyReport
      (fun s => s.db.reports.get 1 = some Sample.second ∧
        s.Lists Sample.admin (.id 0) Sample.everyReport Sample.second)
      ⟨Sample.listed, []⟩ [.fetch, .op Sample.lower, .fetch] ∧
    (run Sample.listing ⟨Sample.listed, []⟩ [.fetch, .op Sample.lower, .fetch]).finished = true ∧
    (run Sample.listing ⟨Sample.listed, []⟩ [.fetch, .op Sample.lower, .fetch]).returned.filter
      (·.1 = 1) = [] := by
  decide +kernel

end CrisisMosaic
