import Mathlib.Data.String.Basic
import CrisisMosaic.MapView
import CrisisMosaic.Relational.Keeps
import CrisisMosaic.ReportListing
import CrisisMosaic.Storage.IsoTime
import CrisisMosaic.Storage.JsonText
import CrisisMosaic.Storage.Tokens

/-!
# Text cursors and their listings

A cursor holds the time and the identifier of the last row of a page, as an object in JSON. The
reports leave out the fraction of a whole second, the facts write it always.
-/

namespace CrisisMosaic.CursorTexts
open Relational Storage

/-- What the standard library makes of texts that the encoders do not write. -/
structure ReaderLib where
  /-- The two entries as text, where not all values of the object are strings. -/
  otherJson : String → Option (String × String)
  otherTime : List Char → Option Time

/-- The identifiers of the rows. -/
structure Uuids where
  text : Id ↪ String
  nonempty : ∀ i, text i ≠ ""

/-- The text of a time in UTC. -/
def isoText (always : Bool) (t : Time) : String := String.ofList (IsoTime.isoformat always t ++ ['Z'])

def encodeRow (always : Bool) (updatedAt : Time) (id : String) : String :=
  token.encode (JsonText.dumps [("updated_at", isoText always updatedAt), ("id", id)])

section Encoding
variable (uuids : Uuids)

def encodeCursor (row : Id × Report) : String := encodeRow false row.2.updatedAt (uuids.text row.1)

def encodeFactCursor (row : Id × FactRecord) : String :=
  encodeRow true row.2.updatedAt (uuids.text row.1)

end Encoding

section Decoding
variable (lib : ReaderLib)

/-- Of two entries with one key the last one counts. -/
def entry (entries : List (String × String)) (key : String) : Option String :=
  entries.reverse.lookup key

def loadRow (s : String) : Option (String × String) :=
  match JsonText.loads s with
  | some entries => do
      let updatedAt ← entry entries "updated_at"
      let id ← entry entries "id"
      some (updatedAt, id)
  | none => lib.otherJson s

/-- `value.replace("Z", "+00:00")` -/
def replaceZ (cs : List Char) : List Char :=
  cs.flatMap fun c => if c = 'Z' then "+00:00".toList else [c]

def parseTime (s : String) : Option Time :=
  let cs := replaceZ s.toList
  (IsoTime.fromisoformat cs).or (lib.otherTime cs)

def decodeRow (cursor : String) : Option (Time × String) := do
  let raw ← token.decode cursor
  let (updatedAt, id) ← loadRow lib raw
  let t ← parseTime lib updatedAt
  some (t, id)

/-- An offset can put a time out of the calendar, which nothing handles. -/
def asUtc (t : Time) : Result Time := if IsoTime.InRange t then pure t else throw internalError

def decodeCursor (cursor : String) : Result (Time × String) := found (decodeRow lib cursor) invalidCursor

def decodeFactCursor (cursor : String) : Result (Time × String) := do
  let (updatedAt, factId) ← found ((decodeRow lib cursor).filter (·.2 ≠ "")) invalidCursor
  let updatedAt ← asUtc updatedAt
  pure (updatedAt, factId)

end Decoding

/-! ## The round trip -/

section RoundTrip
variable {lib : ReaderLib}

theorem replaceZ_isoformat (always : Bool) {t : Time} (h : IsoTime.InRange t) :
    replaceZ (IsoTime.isoformat always t ++ ['Z']) = IsoTime.isoformat always t ++ "+00:00".toList := by
  have hkept : ∀ cs : List Char, (∀ c ∈ cs, c ∈ IsoTime.characters) → replaceZ cs = cs := by
    intro cs hcs
    induction cs with
    | nil => rfl
    | cons c cs ih =>
      obtain ⟨hc, hcs⟩ := List.forall_mem_cons.mp hcs
      have hne : c ≠ 'Z' := fun heq => absurd (heq ▸ hc) (by decide)
      rw [replaceZ, List.flatMap_cons, if_neg hne, List.singleton_append]
      exact congrArg (c :: ·) (ih hcs)
  have hlast : replaceZ ['Z'] = "+00:00".toList := by decide
  calc replaceZ (IsoTime.isoformat always t ++ ['Z'])
      = replaceZ (IsoTime.isoformat always t) ++ replaceZ ['Z'] := List.flatMap_append
    _ = IsoTime.isoformat always t ++ "+00:00".toList := by
      rw [hkept _ (IsoTime.isoformat_characters always h), hlast]

theorem parseTime_isoText (always : Bool) {t : Time} (h : IsoTime.InRange t) :
    parseTime lib (isoText always t) = some t := by
  rw [parseTime, isoText, String.toList_ofList, replaceZ_isoformat always h,
    IsoTime.fromisoformat_isoformat always h]
  rfl

theorem decodeRow_encodeRow (always : Bool) {t : Time} (h : IsoTime.InRange t) (id : String) :
    decodeRow lib (encodeRow always t id) = some (t, id) := by
  have hload : loadRow lib (JsonText.dumps [("updated_at", isoText always t), ("id", id)]) =
      some (isoText always t, id) := by
    rw [loadRow, JsonText.loads_dumps (List.cons_ne_nil _ _)]
    rfl
  rw [decodeRow, encodeRow, token.decode_encode]
  simp only [Option.bind_eq_bind, Option.bind_some, hload, parseTime_isoText always h]

theorem decodeCursor_encodeCursor (uuids : Uuids) {row : Id × Report}
    (h : IsoTime.InRange row.2.updatedAt) :
    decodeCursor lib (encodeCursor uuids row) = .ok (row.2.updatedAt, uuids.text row.1) := by
  rw [decodeCursor, encodeCursor, decodeRow_encodeRow false h]
  rfl

theorem decodeFactCursor_encodeFactCursor (uuids : Uuids) {row : Id × FactRecord}
    (h : IsoTime.InRange row.2.updatedAt) :
    decodeFactCursor lib (encodeFactCursor uuids row) = .ok (row.2.updatedAt, uuids.text row.1) := by
  have hid : uuids.text row.1 ≠ "" := uuids.nonempty _
  rw [decodeFactCursor, encodeFactCursor, decodeRow_encodeRow true h, Option.filter_some,
    if_pos (decide_eq_true hid)]
  show (asUtc row.2.updatedAt).bind _ = _
  rw [asUtc, if_pos h]
  rfl

theorem encodeRow_ne_empty (always : Bool) (t : Time) (id : String) : encodeRow always t id ≠ "" := by
  intro heq
  have hread := @token.decode_encode (JsonText.dumps [("updated_at", isoText always t), ("id", id)])
  have hempty : token.decode "" = some "" := by decide +kernel
  rw [encodeRow] at heq
  rw [heq, hempty] at hread
  have hload := @JsonText.loads_dumps [("updated_at", isoText always t), ("id", id)]
    (List.cons_ne_nil _ _)
  have hnone : JsonText.loads "" = none := by decide
  rw [← Option.some.inj hread, hnone] at hload
  cases hload

end RoundTrip
end CrisisMosaic.CursorTexts

/-!
## Listings

`list_reports` as a resident calls it, and `list_fact_records`. The reports are cut at the cursor in
the database, the facts after their positions are known.
-/

namespace CrisisMosaic
open Relational Keyset CursorTexts

structure TextPage (α : Type) where
  items : List (Id × α)
  total : ℕ
  hasMore : Bool
  nextCursor : Option String

/-- The first of the rows, which are in order. -/
def TextPage.of {α : Type} (encode : Id × α → String) (limit total : ℕ) (rows : List (Id × α)) :
    TextPage α :=
  let taken := rows.take (limit + 1)
  let more := decide (limit < taken.length)
  ⟨taken.take limit, total, more, if more then (taken.take limit).getLast?.map encode else none⟩

section Reports
variable (lib : ReaderLib) (uuids : Uuids)

abbrev RowKey := Time ×ₗ String

def reportRowKey (row : Id × Report) : RowKey := toLex (row.2.updatedAt, uuids.text row.1)

/-- An empty cursor is none. -/
def applyTextCursor (cursor : Option String) : Result (Id × Report → Bool) :=
  match cursor.filter (· ≠ "") with
  | none => pure fun _ => true
  | some c => do
      let (updatedAt, reportId) ← decodeCursor lib c
      let updatedAt ← asUtc updatedAt
      pure fun (i, r) =>
        r.updatedAt < updatedAt || (r.updatedAt = updatedAt && uuids.text i < reportId)

def listOwnReports (db : Db) (actor : Actor) (header : Option Ref) (incident : Ref) (q : ReportQuery)
    (cursor : Option String) : Result (TextPage Report) := do
  let (incidentId, row) ← getIncident db.feed.incidents incident
  assertIncidentAccess actor incidentId row header
  let rows := listedRows db.reports incidentId actor q
  let below ← applyTextCursor lib uuids cursor
  pure (.of (CursorTexts.encodeCursor uuids) q.limit rows.length
    (descending (reportRowKey uuids) (rows.filter below)))

end Reports

/-! ## Fact records -/

/-- The query string: the parts of `bbox`, each a number or not one. -/
structure FactQuery where
  status : Option String
  topic : Option String
  bbox : Option (List (Option ℚ))
  system : CoordinateSystem
  updatedAfter : Option Time
  limit : ℕ
  limit_bounds : 1 ≤ limit ∧ limit ≤ 500

def FactStatus.ofText : String → Option FactStatus
  | "current" => some .current | "under_review" => some .underReview
  | "superseded" => some .superseded | "revoked" => some .revoked | _ => none

section Facts
variable (text : TextLib) (math : MathLib) (lib : ReaderLib) (uuids : Uuids)

/-- By default, the facts that are current or under review. -/
def parseFactStatuses (status : Option String) : Result (List FactStatus) :=
  match status.filter (· ≠ "") with
  | none => pure [.current, .underReview]
  | some s => do
      let parts := (s.toList.splitOnP (· = ',')).map (strip text)
      let statuses := (parts.filter (!·.isEmpty)).map String.ofList
      let invalid := (statuses.filter fun s => (FactStatus.ofText s).isNone).dedup.insertionSort (· ≤ ·)
      require (statuses ≠ [] ∧ invalid = [])
        ⟨422, "INVALID_FACT_STATUS", "status contains unsupported fact-record states",
          [("invalid", .arr (invalid.map .str))]⟩
      pure (statuses.filterMap FactStatus.ofText)

def factRowKey (row : Id × FactRecord) : RowKey := toLex (row.2.updatedAt, uuids.text row.1)

/-- The filters of the statement. Residents see public facts that are current. -/
def FactRecord.isSelected (incident : Ref) (actor : Actor) (statuses : List FactStatus) (q : FactQuery)
    (r : FactRecord) : Bool :=
  .id r.incidentId = incident && statuses.contains r.status &&
    (!actor.isResident || r.isPublic && r.status = .current) &&
    (q.topic.filter (· ≠ "")).all (r.topic = ·) && q.updatedAfter.all (· < r.updatedAt)

def FactRecord.isInBox (system : CoordinateSystem) (bbox : Option BoundingBox) (r : FactRecord) : Bool :=
  bbox.all fun b => (r.place.position math).any fun p => b.contains (p.at system)

def afterFactCursor (row : Id × FactRecord) (cursor : Time × String) : Bool :=
  row.2.updatedAt < cursor.1 || (row.2.updatedAt = cursor.1 && uuids.text row.1 < cursor.2)

def cutAtCursor (cursor : Option String) (rows : List (Id × FactRecord)) :
    Result (List (Id × FactRecord)) :=
  match cursor.filter (· ≠ "") with
  | none => pure rows
  | some c => do
      let value ← decodeFactCursor lib c
      pure (rows.filter fun row => afterFactCursor uuids row value)

def listFactRecords (facts : Facts) (actor : Actor) (header : Option Ref) (incident : Ref)
    (q : FactQuery) (offset : ℕ) (cursor : Option String) : Result (TextPage FactRecord) := do
  ensureIncidentAccess actor incident header
  let bbox ← parseBbox q.bbox
  let statuses ← parseFactStatuses text q.status
  let selected := descending (factRowKey uuids)
    (facts.records.rowsWith (·.isSelected incident actor statuses q))
  let matching := selected.filter (·.2.isInBox math q.system bbox)
  let rest ← cutAtCursor lib uuids cursor matching
  pure (.of (encodeFactCursor uuids) q.limit matching.length (rest.drop offset))

end Facts
end CrisisMosaic
