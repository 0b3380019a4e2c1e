import CrisisMosaic.CursorRoutes
import CrisisMosaic.ListedReports
import CrisisMosaic.Storage.CursorPages

/-!
# Following the cursors of a listing

Read with the cursor of a row, both listings give the page of the rows below it. Whatever happens to
the other rows between two pages, a traversal by key is what the reader makes.
-/

namespace CrisisMosaic
open Relational Keyset CursorTexts

/-- All stored times lie in the calendar. -/
structure Db.Dated (db : Db) : Prop where
  reports : db.reports.All fun _ r => IsoTime.InRange r.updatedAt
  facts : db.facts.records.All fun _ r => IsoTime.InRange r.updatedAt

abbrev DatedDb := {db : Db // db.Dated}

def TextPage.answer {α : Type} (p : TextPage α) : Answer (Id × α) := ⟨p.items, p.nextCursor⟩

theorem TextPage.answer_of {α κ : Type} [LinearOrder κ] {key : Id × α → κ} {encode : Id × α → String}
    {limit total : ℕ} {rows : List (Id × α)} :
    (TextPage.of encode limit total (descending key rows)).answer =
      Keyset.answer key limit encode rows := rfl

theorem filter_encodeRow (always : Bool) (t : Time) (id : String) :
    (some (encodeRow always t id)).filter (· ≠ "") = some (encodeRow always t id) := by
  rw [Option.filter_some, if_pos (decide_eq_true (encodeRow_ne_empty always t id))]

theorem asUtc_ok {t : Time} (h : IsoTime.InRange t) : asUtc t = .ok t := if_pos h

section Rows
variable {α : Type} {uuids : Uuids} {updatedAt : α → Time}

theorem rowKey_lt {t u : Time} {a b : String} :
    (toLex (t, a) : RowKey) < toLex (u, b) ↔ t < u ∨ (t = u ∧ a < b) :=
  Prod.Lex.toLex_lt_toLex

theorem rowsWith_distinct (t : Table α) (p : α → Bool) :
    Distinct (fun row : Id × α => (toLex (updatedAt row.2, uuids.text row.1) : RowKey))
      (t.rowsWith p) where
  nodup := Table.nodup_rowsWith t p
  inj _ ha _ hb h := Table.rowsWith_inj ha hb (uuids.text.injective
    (congrArg (fun k : RowKey => (ofLex k).2) h))

end Rows

/-! ## The reports of a resident -/

section Reports
variable {lib : ReaderLib} {uuids : Uuids} {actor : Actor} {header : Option Ref} {incident : Ref}
  {q : ReportQuery}

/-- The rows a page is taken from. -/
def ownReportRows (actor : Actor) (incident : Ref) (q : ReportQuery) (db : Db) : List (Id × Report) :=
  match getIncident db.feed.incidents incident with
  | .ok (incidentId, _) => listedRows db.reports incidentId actor q
  | .error _ => []

theorem listedRows_eq (reports : Table Report) (incidentId : Id) :
    listedRows reports incidentId actor q = reports.rowsWith (·.isListed incidentId actor q) := rfl

theorem mem_ownReportRows {db : Db} {i : Id} {r : Report} :
    (i, r) ∈ ownReportRows actor incident q db ↔ db.reports.get i = some r ∧
      ∃ id row, getIncident db.feed.incidents incident = .ok (id, row) ∧ r.isListed id actor q = true := by
  unfold ownReportRows
  cases hget : getIncident db.feed.incidents incident with
  | error e => simp
  | ok x =>
    obtain ⟨id, row⟩ := x
    simp only [mem_listedRows, Except.ok.injEq, Prod.mk.injEq]
    constructor
    · exact fun ⟨hr, hlisted⟩ => ⟨hr, id, row, ⟨rfl, rfl⟩, hlisted⟩
    · rintro ⟨hr, _, _, ⟨rfl, rfl⟩, hlisted⟩
      exact ⟨hr, hlisted⟩

/-- The cursor of a row cuts at the row. -/
theorem applyTextCursor_encoded {last : Option (Id × Report)}
    (h : ∀ x ∈ last, IsoTime.InRange x.2.updatedAt) :
    applyTextCursor lib uuids (last.map (CursorTexts.encodeCursor uuids)) =
      .ok fun row => last.all fun x => decide (reportRowKey uuids row < reportRowKey uuids x) := by
  cases last with
  | none => rfl
  | some x =>
    rw [Option.map_some, applyTextCursor, CursorTexts.encodeCursor, filter_encodeRow]
    dsimp only
    rw [← CursorTexts.encodeCursor, decodeCursor_encodeCursor uuids (h x rfl)]
    show (asUtc x.2.updatedAt).bind _ = _
    rw [asUtc_ok (h x rfl)]
    refine congrArg Except.ok (funext fun row => ?_)
    rw [Option.all_some, Bool.eq_iff_iff, decide_eq_true_eq, reportRowKey, reportRowKey, rowKey_lt]
    simp

theorem ownReportRows_distinct (db : Db) :
    Distinct (reportRowKey uuids) (ownReportRows actor incident q db) := by
  unfold ownReportRows
  split
  · rw [listedRows_eq]
    exact rowsWith_distinct _ _
  · exact ⟨List.nodup_nil, fun _ h => absurd h List.not_mem_nil⟩

theorem listOwnReports_reads (db : DatedDb) :
    ReadsBelow (reportRowKey uuids) q.limit (CursorTexts.encodeCursor uuids)
      (fun x => IsoTime.InRange x.2.updatedAt) (ownReportRows actor incident q db.val)
      fun cursor => (listOwnReports lib uuids db.val actor header incident q cursor).map
        TextPage.answer where
  distinct := ownReportRows_distinct db.val
  legal x hx := db.property.reports x.1 x.2 (mem_ownReportRows.mp hx).1
  below last hlast := by
    have hfirst : applyTextCursor lib uuids none = .ok fun _ => true := rfl
    unfold listOwnReports ownReportRows
    rw [applyTextCursor_encoded hlast, hfirst]
    cases getIncident db.val.feed.incidents incident with
    | error e => rfl
    | ok x =>
      obtain ⟨id, row⟩ := x
      dsimp only [bind, Except.bind]
      cases assertIncidentAccess actor id row header with
      | error e => rfl
      | ok u => rfl

/-- Where the texts of the identifiers are ordered as their numbers are, the page is that of the
listing with cursors that are not encoded. -/
theorem listOwnReports_listReports {uuid : Id ↪ ℕ} (hactor : actor.isResident = true)
    (horder : ∀ i j, uuids.text i < uuids.text j ↔ uuid i < uuid j) {db : Db} {last : Option (Id × Report)}
    (hlast : ∀ x ∈ last, IsoTime.InRange x.2.updatedAt) :
    (listOwnReports lib uuids db actor header incident q
        (last.map (CursorTexts.encodeCursor uuids))).map (fun p => (p.items, p.total, p.hasMore)) =
      (listReports uuid db actor header incident q (last.map CrisisMosaic.encodeCursor)).map
        fun p => (p.items, p.total, p.hasMore) := by
  have hlt : ∀ a b : Id × Report, reportRowKey uuids a < reportRowKey uuids b ↔
      residentKey uuid a < residentKey uuid b := by
    intro a b
    rw [reportRowKey, reportRowKey, rowKey_lt, horder, residentKey, residentKey, Prod.Lex.toLex_lt_toLex]
  have hsort : ∀ rows, descending (reportRowKey uuids) rows = descending (residentKey uuid) rows :=
    descending_congr fun a b => by rw [← not_lt, ← not_lt, hlt]
  have hcut : applyCursor uuid (last.map CrisisMosaic.encodeCursor) =
      fun row => last.all fun x => decide (reportRowKey uuids row < reportRowKey uuids x) := by
    funext row
    cases last with
    | none => rfl
    | some x =>
      rw [Option.map_some, Option.all_some, Bool.eq_iff_iff, decide_eq_true_eq, reportRowKey, reportRowKey,
        rowKey_lt, horder]
      simp only [applyCursor, Bool.or_eq_true, Bool.and_eq_true, decide_eq_true_eq]
      rfl
  unfold listOwnReports listReports
  rw [applyTextCursor_encoded hlast, hactor, hcut]
  cases getIncident db.feed.incidents incident with
  | error e => rfl
  | ok x =>
    obtain ⟨id, row⟩ := x
    dsimp only [bind, Except.bind]
    cases assertIncidentAccess actor id row header with
    | error e => rfl
    | ok u =>
      simp only [hsort]
      rfl

end Reports

/-! ## The fact records -/

section Facts
variable {text : TextLib} {math : MathLib} {lib : ReaderLib} {uuids : Uuids} {actor : Actor}
  {header : Option Ref} {incident : Ref} {q : FactQuery}

/-- The rows the query is about. -/
def factRows (text : TextLib) (math : MathLib) (actor : Actor) (incident : Ref) (q : FactQuery)
    (facts : Facts) : List (Id × FactRecord) :=
  match parseBbox q.bbox, parseFactStatuses text q.status with
  | .ok bbox, .ok statuses =>
      (facts.records.rowsWith (·.isSelected incident actor statuses q)).filter
        (·.2.isInBox math q.system bbox)
  | _, _ => []

theorem mem_factRows {facts : Facts} {i : Id} {r : FactRecord} :
    (i, r) ∈ factRows text math actor incident q facts ↔ facts.records.get i = some r ∧
      ∃ bbox statuses, parseBbox q.bbox = .ok bbox ∧ parseFactStatuses text q.status = .ok statuses ∧
        r.isSelected incident actor statuses q = true ∧ r.isInBox math q.system bbox = true := by
  unfold factRows
  cases parseBbox q.bbox with
  | error e => simp
  | ok bbox =>
    cases parseFactStatuses text q.status with
    | error e => simp
    | ok statuses =>
      simp only [List.mem_filter, Table.mem_rowsWith, Except.ok.injEq]
      constructor
      · exact fun ⟨⟨hr, hselected⟩, hbox⟩ => ⟨hr, bbox, statuses, rfl, rfl, hselected, hbox⟩
      · rintro ⟨hr, _, _, rfl, rfl, hselected, hbox⟩
        exact ⟨⟨hr, hselected⟩, hbox⟩

theorem factRows_distinct (facts : Facts) :
    Distinct (factRowKey uuids) (factRows text math actor incident q facts) := by
  unfold factRows
  split
  · exact (rowsWith_distinct _ _).filter _
  · exact ⟨List.nodup_nil, fun _ h => absurd h List.not_mem_nil⟩

theorem cutAtCursor_encoded {last : Option (Id × FactRecord)} {rows : List (Id × FactRecord)}
    (h : ∀ x ∈ last, IsoTime.InRange x.2.updatedAt) :
    cutAtCursor lib uuids (last.map (encodeFactCursor uuids)) rows =
      .ok (rows.filter fun row => last.all fun x => decide (factRowKey uuids row < factRowKey uuids x)) := by
  cases last with
  | none =>
    simp only [Option.all_none, List.filter_true]
    rfl
  | some x =>
    rw [Option.map_some, cutAtCursor, encodeFactCursor, filter_encodeRow]
    dsimp only
    rw [← encodeFactCursor, decodeFactCursor_encodeFactCursor uuids (h x rfl)]
    refine congrArg Except.ok (List.filter_congr fun row _ => ?_)
    rw [Option.all_some, Bool.eq_iff_iff, decide_eq_true_eq, factRowKey, factRowKey, rowKey_lt]
    simp [afterFactCursor]

theorem listFactRecords_reads (db : DatedDb) :
    ReadsBelow (factRowKey uuids) q.limit (encodeFactCursor uuids)
      (fun x => IsoTime.InRange x.2.updatedAt) (factRows text math actor incident q db.val.facts)
      fun cursor => (listFactRecords text math lib uuids db.val.facts actor header incident q 0
        cursor).map TextPage.answer where
  distinct := factRows_distinct db.val.facts
  legal x hx := db.property.facts x.1 x.2 (mem_factRows.mp hx).1
  below last hlast := by
    unfold listFactRecords factRows
    cases ensureIncidentAccess actor incident header with
    | error e => rfl
    | ok u =>
      cases parseBbox q.bbox with
      | error e => rfl
      | ok bbox =>
        cases parseFactStatuses text q.status with
        | error e => rfl
        | ok statuses =>
          obtain ⟨rows, hrows⟩ : ∃ rows,
            rows = db.val.facts.records.rowsWith (·.isSelected incident actor statuses q) := ⟨_, rfl⟩
          have hdistinct : Distinct (factRowKey uuids) rows := hrows ▸ rowsWith_distinct _ _
          dsimp only [bind, Except.bind]
          rw [← hrows, hdistinct.filter_descending, cutAtCursor_encoded hlast,
            (hdistinct.filter _).filter_descending]
          rfl

end Facts

/-! ## Whole listings -/

section Listings
variable {α : Type}

/-- The pages a client reads from one state of the database after the other. -/
def listPages (list : DatedDb → Option String → Result (TextPage α)) (states : List DatedDb) :
    List (Answer (Id × α)) :=
  followPages (fun db cursor => (list db cursor).map TextPage.answer) states

/-- Rows come from the last updated down, and those that stay come once. A cursor is refused only
where the first page is, and there is an end while nothing changes. -/
structure ListsOnce (key : Id × α → RowKey) (Stays : DatedDb → Id → α → Prop)
    (list : DatedDb → Option String → Result (TextPage α)) : Prop where
  accepted : ∀ states db p, isFinished (listPages list states) = false → list db none = .ok p →
    ∃ next, list db (nextCursor (listPages list states)) = .ok next
  descends : ∀ states, (returned (listPages list states)).Pairwise fun a b => key b < key a
  once : ∀ states i r, (∀ db ∈ states, Stays db i r) → isFinished (listPages list states) = true →
    (returned (listPages list states)).filter (·.1 = i) = [(i, r)]
  ends : ∀ db p, list db none = .ok p → ∃ n, isFinished (listPages list (List.replicate n db)) = true

theorem ReadsBelow.listsOnce {key : Id × α → RowKey} {limit : ℕ} {encode : Id × α → String}
    {Legal : Id × α → Prop} {rows : DatedDb → List (Id × α)} {Stays : DatedDb → Id → α → Prop}
    {list : DatedDb → Option String → Result (TextPage α)} (hlimit : 1 ≤ limit)
    (hstays : ∀ db i r, (i, r) ∈ rows db ↔ Stays db i r)
    (hone : ∀ db i r t, Stays db i r → Stays db i t → t = r)
    (h : ∀ db, ReadsBelow key limit encode Legal (rows db) fun cursor =>
      (list db cursor).map TextPage.answer) : ListsOnce key Stays list where
  accepted states db p hopen hfirst := by
    have hread : (list db none).map TextPage.answer = .ok p.answer := by rw [hfirst]; rfl
    obtain ⟨a, ha⟩ := (h db).accepts (followPages_named hlimit h) hopen hread
    cases hnext : list db (nextCursor (listPages list states)) with
    | ok next => exact ⟨next, rfl⟩
    | error e =>
      rw [listPages] at hnext
      rw [hnext] at ha
      cases ha
  descends := followPages_descends hlimit h
  once states i r hrow hend := by
    refine followPages_returnsOnce hlimit h (decide_eq_true rfl)
      (fun db hdb => (hstays db i r).mpr (hrow db hdb)) ?_ hend
    rintro db hdb ⟨j, t⟩ hy hj
    obtain rfl := of_decide_eq_true hj
    rw [hone db j r t (hrow db hdb) ((hstays db j t).mp hy)]
  ends db p hfirst := by
    have hread : (list db none).map TextPage.answer = .ok p.answer := by rw [hfirst]; rfl
    exact ⟨_, followPages_finishes hlimit (h db) hread (Nat.lt_succ_self _)⟩

end Listings

/-- The report is one of those the resident asks for. -/
def StaysListed (actor : Actor) (incident : Ref) (q : ReportQuery) (db : DatedDb) (i : Id) (r : Report) :
    Prop :=
  db.val.reports.get i = some r ∧ ∃ id row, getIncident db.val.feed.incidents incident = .ok (id, row) ∧
    r.isListed id actor q = true

/-- The fact is one of those the actor asks for. -/
def StaysSelected (text : TextLib) (math : MathLib) (actor : Actor) (incident : Ref) (q : FactQuery)
    (db : DatedDb) (i : Id) (r : FactRecord) : Prop :=
  db.val.facts.records.get i = some r ∧ ∃ bbox statuses, parseBbox q.bbox = .ok bbox ∧
    parseFactStatuses text q.status = .ok statuses ∧
    r.isSelected incident actor statuses q = true ∧ r.isInBox math q.system bbox = true

/-- Decoding a cursor gives the key of its row. Following the cursors from the first page to the last,
while other rows come, change and go, lists each row that stays once, and all in order. -/
theorem following_the_cursors_lists_each_row_once (text : TextLib) (math : MathLib) (lib : ReaderLib)
    (uuids : Uuids) :
    (∀ row : Id × Report, IsoTime.InRange row.2.updatedAt →
      decodeCursor lib (CursorTexts.encodeCursor uuids row) = .ok (row.2.updatedAt, uuids.text row.1)) ∧
    (∀ row : Id × FactRecord, IsoTime.InRange row.2.updatedAt →
      decodeFactCursor lib (encodeFactCursor uuids row) = .ok (row.2.updatedAt, uuids.text row.1)) ∧
    (∀ actor header incident q, ListsOnce (reportRowKey uuids) (StaysListed actor incident q)
      fun db cursor => listOwnReports lib uuids db.val actor header incident q cursor) ∧
    (∀ actor header incident q, ListsOnce (factRowKey uuids) (StaysSelected text math actor incident q)
      fun db cursor =>
        listFactRecords text math lib uuids db.val.facts actor header incident q 0 cursor) := by
  refine ⟨fun _ h => decodeCursor_encodeCursor uuids h,
    fun _ h => decodeFactCursor_encodeFactCursor uuids h, ?_, ?_⟩
  all_goals intro actor header incident q
  · exact ReadsBelow.listsOnce q.limit_bounds.1 (fun db i r => mem_ownReportRows)
      (fun _ _ _ _ ha hb => Option.some.inj (hb.1.symm.trans ha.1)) listOwnReports_reads
  · exact ReadsBelow.listsOnce q.limit_bounds.1 (fun db i r => mem_factRows)
      (fun _ _ _ _ ha hb => Option.some.inj (hb.1.symm.trans ha.1)) listFactRecords_reads

namespace Sample

def rowTexts : Uuids where
  text := ⟨fun i => String.ofList (List.replicate (i + 1) 'x'), fun i j h => by
    simpa using congrArg String.length h⟩
  nonempty i h := by
    have hchars : List.replicate (i + 1) 'x' = "".toList := String.ofList_eq.mp h
    cases hchars

def strictReader : ReaderLib := ⟨fun _ => none, fun _ => none⟩

theorem dated_of_rows {db : Db} (hreports : ∀ r ∈ db.reports.rows, IsoTime.InRange r.updatedAt)
    (hfacts : ∀ r ∈ db.facts.records.rows, IsoTime.InRange r.updatedAt) : db.Dated where
  reports _ _ h := hreports _ (List.mem_of_getElem? h)
  facts _ _ h := hfacts _ (List.mem_of_getElem? h)

abbrev twoReports : DatedDb := ⟨listed, dated_of_rows (by decide +kernel) (by decide +kernel)⟩

/-- The second report was given another priority. -/
abbrev secondLowered : DatedDb :=
  ⟨step env listed ⟨4, admin, none, .patchReportPriority 1 2 (some .low) (.ok none)⟩,
    dated_of_rows (by decide +kernel) (by decide +kernel)⟩

def first : Report := (listed.reports.get 0).get (by decide +kernel)

abbrev ownReports (db : DatedDb) (cursor : Option String) : Result (TextPage Report) :=
  listOwnReports strictReader rowTexts db.val resident none (.id 0) everyReport cursor

end Sample

theorem first_report_is_listed_while_the_second_changes :
    (returned (listPages Sample.ownReports [Sample.twoReports, Sample.secondLowered])).filter (·.1 = 0) =
      [(0, Sample.first)] := by
  obtain ⟨-, -, hreports, -⟩ := following_the_cursors_lists_each_row_once Sample.env.text Sample.env.math
    Sample.strictReader Sample.rowTexts
  refine (hreports Sample.resident none (.id 0) Sample.everyReport).once
    [Sample.twoReports, Sample.secondLowered] 0 Sample.first ?_ (by decide +kernel)
  have hcheck : ∀ db ∈ [Sample.twoReports, Sample.secondLowered],
      db.val.reports.get 0 = some Sample.first ∧ (getIncident db.val.feed.incidents (.id 0)).toOption.any
        (fun x => Sample.first.isListed x.1 Sample.resident Sample.everyReport) = true := by
    decide +kernel
  intro db hdb
  obtain ⟨hget, hlisted⟩ := hcheck db hdb
  obtain ⟨⟨id, row⟩, hincident, hrow⟩ := ok_of_any hlisted
  exact ⟨hget, id, row, hincident, hrow⟩

end CrisisMosaic
