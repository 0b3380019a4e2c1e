import CrisisMosaic.MapPrivacy
import CrisisMosaic.ReopenedSpots
import CrisisMosaic.StandingCases

/-!
# What residents learn of a blind spot's place

An automatic blind spot stands where the report of one resident was made. The map
shows other residents its cell; the list of blind spots, the answer to a question
about it and the events of an answer show the exact coordinates.
-/

namespace CrisisMosaic
open Relational Questions

/-- Exact coordinates, as a resident reports them. -/
structure ExactPlace where
  latitude : Latitude
  longitude : Longitude
  system : CoordinateSystem

namespace ExactPlace

def normalized (m : MathLib) (e : ExactPlace) : NormalizedCoordinates := normalize m e.latitude e.longitude e.system

/-- The map shows the same cell for both, in both coordinate systems. -/
def SameCell (m : MathLib) (e e' : ExactPlace) : Prop :=
  ∀ system, ((e.normalized m).at system).round3 = ((e'.normalized m).at system).round3

def Legal (m : MathLib) (e : ExactPlace) : Prop := ∀ system, ((e.normalized m).at system).Legal

end ExactPlace

def Place.put (p : Place) (e : ExactPlace) : Place :=
  { p with
    latitude := some e.latitude
    longitude := some e.longitude
    coordinateSystem := some e.system }

def Report.put (m : MathLib) (r : Report) (e : ExactPlace) : Report :=
  { r with
    place := r.place.put e
    normalized := some (e.normalized m) }

def InformationFragment.put (f : InformationFragment) (e : ExactPlace) : InformationFragment :=
  { f with place := f.place.put e }

def BlindSpot.put (b : BlindSpot) (e : ExactPlace) : BlindSpot := { b with place := b.place.put e }

/-- An automatic blind spot with the fragment it was opened for and the report of that fragment. -/
structure ReportGap (db : Db) where
  reportId : Id
  report : Report
  fragmentId : Id
  fragment : InformationFragment
  spotId : Id
  spot : BlindSpot
  reported : db.reports.get reportId = some report
  observed : db.fragments.get fragmentId = some fragment
  opened : db.blindSpots.get spotId = some spot
  ofReport : fragment.sourceType = .residentReport ∧ fragment.sourceRefId = some reportId
  ofFragment : spot.pointsTo "origin_fragment_id" fragmentId = true
  automatic : isResidentReportGap spot.scopeData = true

namespace ReportGap
variable {db : Db} (g : ReportGap db)

/-- The features of the report and of the blind spot; the fragment of a resident has none. -/
def isShownBy (f : MapFeature) : Bool :=
  f.kind = .report && f.sourceRef = g.reportId || f.kind = .blindSpot && f.sourceRef = g.spotId

def moveFeature (m : MathLib) (e : ExactPlace) (f : MapFeature) : MapFeature :=
  if g.isShownBy f then { f with position := some (e.normalized m) } else f

/-- The state in which the report was made at `e`. -/
def reportedAt (m : MathLib) (e : ExactPlace) : Db :=
  { db with
    reports := db.reports.modify g.reportId fun r => r.put m e
    fragments := db.fragments.modify g.fragmentId fun f => f.put e
    blindSpots := db.blindSpots.modify g.spotId fun b => b.put e
    features := db.features.sweep (g.moveFeature m e) }

end ReportGap

/-! ## What a resident obtains -/

def isSpotItem (item : Dict) : Bool := (item.get "kind").any (Json.isStr FeatureKind.blindSpot.text)

def shownSpots (r : Result MapResponse) : Result (List Dict) := r.map fun r => r.items.filter isSpotItem

def isPublicSpotEvent (e : OutboxEvent) : Bool := e.resourceType = .blindSpot && e.visibility = .public

def publicSpotPayloads (feed : Feed) : List Dict := (feed.outbox.rows.filter isPublicSpotEvent).map (·.payload)

/-- What the actor obtains of the blind spots of the gap's incident is the same in both states. -/
structure ReportGap.SameOutputs {db : Db} (g : ReportGap db) (env : Env) (actor : Actor) (s t : Db) : Prop where
  maps : ∀ header q, q.bbox = none →
    shownSpots (mapView env s.feed.incidents s.features actor header (.id g.spot.incidentId) q) =
      shownSpots (mapView env t.feed.incidents t.features actor header (.id g.spot.incidentId) q)
  lists : ∀ header status, listBlindSpots s actor header (.id g.spot.incidentId) status =
    listBlindSpots t actor header (.id g.spot.incidentId) status
  answers : ∀ now header questionId payload,
    (∀ q, s.questions.get questionId = some q → q.incidentId = g.spot.incidentId) →
      (putMyAnswer env now s actor header questionId payload).map (·.response.get "blind_spot") =
        (putMyAnswer env now t actor header questionId payload).map (·.response.get "blind_spot")
  -- a public event is delivered to those who may read the incident
  events : g.spot.incidentId ∈ actor.incidentIds → ∀ op,
    publicSpotPayloads (step env s op).feed = publicSpotPayloads (step env t op).feed

section Lists
variable {actor : Actor} {incidentId : Id}

theorem blindSpotData_put_inj {id : Id} {b : BlindSpot} {e e' : ExactPlace}
    (h : blindSpotData id (b.put e) = blindSpotData id (b.put e')) : e = e' := by
  simp only [blindSpotData, BlindSpot.put, Place.put, Place.entries, Json.opt, List.cons_append,
    List.nil_append, List.cons.injEq, Prod.mk.injEq, Json.num.injEq, Json.str.injEq, true_and, and_true] at h
  obtain ⟨hlat, hlon, hsys⟩ := h
  have hsystem : e.system = e'.system := by
    revert hsys
    cases e.system <;> cases e'.system <;> decide
  cases e
  cases e'
  exact congr (congrArg₂ _ (Subtype.ext hlat) (Subtype.ext hlon)) hsystem

theorem blindSpotData_id {i j : Id} {b c : BlindSpot} (h : blindSpotData i b = blindSpotData j c) : i = j := by
  have hget := congrArg (Dict.get · "id") h
  exact Json.ref.inj (Option.some.inj hget)

/-- Whoever may read the incident reads every row of the list. -/
theorem listBlindSpots_ok (db : Db) (hactor : incidentId ∈ actor.incidentIds) :
    ∃ items, listBlindSpots db actor none (.id incidentId) none = .ok items ∧
      ∀ d, d ∈ items ↔ ∃ id b, db.blindSpots.get id = some b ∧ b.incidentId = incidentId ∧
        blindSpotData id b = d := by
  refine ⟨(newestFirst db.blindSpots (·.createdAt) (db.blindSpots.select fun b =>
    Ref.id b.incidentId = Ref.id incidentId && (!truthy none || none = some b.status.text))).filterMap
      fun id => (db.blindSpots.get id).map (blindSpotData id), ?_, fun d => ?_⟩
  · have haccess : ensureIncidentAccess actor (.id incidentId) none = .ok () := by
      simp [ensureIncidentAccess, require, Ref.isIn, hactor, bind, Except.bind]
    unfold listBlindSpots
    rw [haccess]
    rfl
  · rw [List.mem_filterMap]
    constructor
    · rintro ⟨id, hid, hd⟩
      obtain ⟨b, hb, hincident⟩ := Table.mem_select.mp (mem_newestFirst.mp hid)
      rw [hb] at hd
      simp only [Bool.and_eq_true, decide_eq_true_eq, Ref.id.injEq] at hincident
      exact ⟨id, b, hb, hincident.1, Option.some.inj hd⟩
    · rintro ⟨id, b, hb, hincident, rfl⟩
      refine ⟨id, mem_newestFirst.mpr (Table.mem_select.mpr ⟨b, hb, ?_⟩), by rw [hb]; rfl⟩
      simp [hincident, truthy]

end Lists

namespace ReportGap
variable {db : Db} (g : ReportGap db) {m : MathLib} {env : Env} {actor : Actor} {e e' : ExactPlace}

theorem get_spot (m : MathLib) (e : ExactPlace) :
    (g.reportedAt m e).blindSpots.get g.spotId = some (g.spot.put e) := by
  simp only [reportedAt, Table.get_modify_self, g.opened, Option.map_some]

/-- The list of two states with different coordinates differs in the row of the blind spot. -/
theorem eq_of_lists (hactor : g.spot.incidentId ∈ actor.incidentIds)
    (h : listBlindSpots (g.reportedAt m e) actor none (.id g.spot.incidentId) none =
      listBlindSpots (g.reportedAt m e') actor none (.id g.spot.incidentId) none) : e = e' := by
  obtain ⟨items, hitems, hmem⟩ := listBlindSpots_ok (g.reportedAt m e) hactor
  obtain ⟨items', hitems', hmem'⟩ := listBlindSpots_ok (g.reportedAt m e') hactor
  obtain rfl : items = items' := Except.ok.inj (hitems.symm.trans (h.trans hitems'))
  have hlisted : blindSpotData g.spotId (g.spot.put e) ∈ items :=
    (hmem _).mpr ⟨g.spotId, g.spot.put e, g.get_spot m e, rfl, rfl⟩
  obtain ⟨id, b, hb, -, hdata⟩ := (hmem' _).mp hlisted
  obtain rfl := blindSpotData_id hdata
  obtain rfl : g.spot.put e' = b := Option.some.inj ((g.get_spot m e').symm.trans hb)
  exact (blindSpotData_put_inj hdata).symm

section Refused
variable (hactor : g.spot.incidentId ∉ actor.incidentIds)
include hactor

theorem ensureIncidentAccess_denied (header : Option Ref) :
    ∃ error, ensureIncidentAccess actor (.id g.spot.incidentId) header = .error error := by
  cases h : ensureIncidentAccess actor (.id g.spot.incidentId) header with
  | error error => exact ⟨error, rfl⟩
  | ok u =>
    simp only [ensureIncidentAccess, bind_ok, require_ok] at h
    obtain ⟨-, -, hin⟩ := h
    exact absurd (List.contains_iff_mem.mp hin) hactor

theorem lists_refused (header : Option Ref) (status : Option String) :
    listBlindSpots (g.reportedAt m e) actor header (.id g.spot.incidentId) status =
      listBlindSpots (g.reportedAt m e') actor header (.id g.spot.incidentId) status := by
  obtain ⟨error, hdenied⟩ := g.ensureIncidentAccess_denied hactor header
  unfold listBlindSpots
  rw [hdenied]
  rfl

theorem maps_refused (header : Option Ref) (q : MapQuery) (F G : Table MapFeature) :
    mapView env db.feed.incidents F actor header (.id g.spot.incidentId) q =
      mapView env db.feed.incidents G actor header (.id g.spot.incidentId) q := by
  cases h : mapScope env.settings db.feed.incidents actor header (.id g.spot.incidentId) q with
  | error error =>
    unfold mapView
    rw [h]
    rfl
  | ok scope =>
    simp only [mapScope, getIncident, assertIncidentAccess, bind_ok, require_ok, found_ok,
      Option.map_eq_some_iff] at h
    obtain ⟨_, _, _, _, _, _, _, _, ⟨id, _⟩, ⟨_, -, hid⟩, _, ⟨_, _, hin⟩, -⟩ := h
    obtain rfl := (Prod.mk.inj hid).1
    exact absurd hin hactor

theorem answers_refused (env : Env) (m : MathLib) (now : Time) (header : Option Ref) (questionId : Id)
    (payload : DirectedAnswerPut)
    (hq : ∀ q, db.questions.get questionId = some q → q.incidentId = g.spot.incidentId) :
    ∃ error, ∀ e, putMyAnswer env now (g.reportedAt m e) actor header questionId payload = .error error := by
  suffices hrefused : ∃ error, ∀ e,
      admitAnswer env now (g.reportedAt m e) actor header questionId payload = .error error by
    obtain ⟨error, hrefused⟩ := hrefused
    refine ⟨error, fun e => ?_⟩
    unfold putMyAnswer
    rw [hrefused e]
    rfl
  by_cases hres : actor.isResident = true
  · cases hget : db.questions.get questionId with
    | none =>
      refine ⟨notFound "question", fun e => ?_⟩
      simp [admitAnswer, require, hres, reportedAt, hget, found, bind, Except.bind]
    | some q =>
      obtain ⟨error, hdenied⟩ := g.ensureIncidentAccess_denied hactor header
      rw [← hq q hget] at hdenied
      refine ⟨error, fun e => ?_⟩
      simp [admitAnswer, require, hres, reportedAt, hget, found, hdenied, bind, Except.bind]
  · refine ⟨forbidden "RESIDENT_REQUIRED" "only resident devices can answer", fun e => ?_⟩
    simp [admitAnswer, require, hres, bind, Except.bind]

end Refused

section Answers
variable {now : Time} {header : Option Ref} {questionId : Id} {payload : DirectedAnswerPut} {o : AnswerOutcome}

/-- However the answers are judged, the blind spot stays where it is. -/
theorem judgeAnswer_place {db : Db} {fragmentId : Id} {admitted : Admitted} {created : Bool} {v : Verdict}
    (h : judgeAnswer env now db questionId fragmentId admitted created = .ok v) :
    v.blind.place = admitted.blind.place := by
  rcases judgeAnswer_cases h with ⟨-, hv⟩ | ⟨-, s, conflictId, rfl⟩
  · simp only [disagree, bind_ok, pure_ok] at hv
    obtain ⟨d, -, rfl⟩ := hv
    dsimp only
    split_ifs <;> rfl
  · unfold agree
    dsimp only
    split_ifs <;> rfl

/-- An answer that is accepted is told the exact place of the blind spot. -/
theorem answer_shows_place {q : DirectedQuestion} (hq : db.questions.get questionId = some q)
    (hspot : q.blindSpotId = g.spotId)
    (h : putMyAnswer env now (g.reportedAt m e) actor header questionId payload = .ok o) :
    ∃ b, o.response.get "blind_spot" = some (.obj (blindSpotData g.spotId b)) ∧
      b.place = g.spot.place.put e := by
  simp only [putMyAnswer, bind_ok, pure_ok] at h
  obtain ⟨admitted, haccepted, stored, -, attachments, -, v, hv, f, -, rfl⟩ := h
  obtain ⟨hquestion, hblind, -⟩ := admitAnswer_spec haccepted
  obtain rfl : q = admitted.question := Option.some.inj (hq.symm.trans hquestion)
  rw [hspot, g.get_spot] at hblind
  refine ⟨v.blind, ?_, ?_⟩
  · rw [← hspot]
    rfl
  · rw [judgeAnswer_place hv, ← Option.some.inj hblind]
    rfl

end Answers

/-! ## The map -/

section Maps

theorem seesExactly_moveFeature (f : MapFeature) :
    seesExactly (g.moveFeature m e f) actor = seesExactly f actor := by
  unfold moveFeature
  split_ifs <;> rfl

/-- Two places of one cell look the same to a resident who is not shown the exact ones. -/
theorem features_sameToActor (hhidden : db.features.All fun _ f => g.isShownBy f = true → seesExactly f actor = false)
    (hcell : e.SameCell m e') :
    (g.reportedAt m e).features.Related (SameToActor actor) (g.reportedAt m e').features := by
  intro i
  simp only [reportedAt, Table.get_sweep]
  cases hf : db.features.get i with
  | none => exact .none
  | some f =>
    refine .some ?_
    unfold moveFeature
    by_cases hshown : g.isShownBy f = true
    · rw [if_pos hshown, if_pos hshown]
      exact
        { rest := rfl
          exact := fun h => nomatch (hhidden i f hf hshown).symm.trans h
          cell := fun system => congrArg some (hcell system) }
    · rw [if_neg hshown, if_neg hshown]
      exact ⟨rfl, fun _ => rfl, fun _ => rfl⟩

theorem features_legal (hlegal : db.features.All fun _ f => f.Legal) (he : e.Legal m) :
    (g.reportedAt m e).features.All fun _ f => f.Legal := by
  intro i f hf
  simp only [reportedAt, Table.get_sweep, Option.map_eq_some_iff] at hf
  obtain ⟨f, hf, rfl⟩ := hf
  unfold moveFeature
  split_ifs
  · intro c hc system
    exact Option.some.inj hc ▸ he system
  · exact hlegal i f hf

/-- The whole map keeps the exact place to itself. -/
theorem maps_hide_place (hhidden : db.features.All fun _ f => g.isShownBy f = true → seesExactly f actor = false)
    (hlegal : db.features.All fun _ f => f.Legal) (he : e.Legal env.math) (he' : e'.Legal env.math)
    (hcell : e.SameCell env.math e') (header : Option Ref) (incident : Ref) {q : MapQuery} (hq : q.bbox = none) :
    mapView env db.feed.incidents (g.reportedAt env.math e).features actor header incident q =
      mapView env db.feed.incidents (g.reportedAt env.math e').features actor header incident q := by
  cases h : mapScope env.settings db.feed.incidents actor header incident q with
  | error error =>
    unfold mapView
    rw [h]
    rfl
  | ok scope =>
    have hbox : scope.bbox = none := by
      simp only [mapScope, hq, parseBbox, bind_ok, pure_ok] at h
      obtain ⟨_, -, _, -, _, rfl, _, -, _, -, _, -, _, -, rfl⟩ := h
      rfl
    rw [mapView_of_scope h, mapView_of_scope h]
    exact respond_eq (g.features_sameToActor hhidden hcell) (g.features_legal hlegal he)
      (g.features_legal hlegal he') (Or.inl fun b hb => by cases hbox.symm.trans hb) env

end Maps
end ReportGap

/-- Two states that differ in the exact coordinates of a report, its fragment and its blind spot
show the actor the same exactly when the actor may not read the incident or the coordinates
are the same. -/
theorem resident_outputs_hide_place_iff (env : Env) {db : Db} (g : ReportGap db) (actor : Actor)
    (e e' : ExactPlace) :
    g.SameOutputs env actor (g.reportedAt env.math e) (g.reportedAt env.math e') ↔
      (g.spot.incidentId ∈ actor.incidentIds → e = e') := by
  constructor
  · intro h hactor
    exact g.eq_of_lists hactor (h.lists none none)
  · intro h
    by_cases hactor : g.spot.incidentId ∈ actor.incidentIds
    · obtain rfl := h hactor
      exact ⟨fun _ _ _ => rfl, fun _ _ => rfl, fun _ _ _ _ _ => rfl, fun _ _ => rfl⟩
    · refine ⟨fun header q _ => ?_, g.lists_refused hactor, fun now header questionId payload hq => ?_,
        fun hin => absurd hin hactor⟩
      · exact congrArg shownSpots (g.maps_refused hactor header q _ _)
      · obtain ⟨error, hrefused⟩ := g.answers_refused hactor env env.math now header questionId payload hq
        rw [hrefused e, hrefused e']

namespace Sample

/-- The two places of one cell, as they are reported. -/
def westEnd : ExactPlace := ⟨⟨30, north⟩, ⟨10.0001, by norm_num⟩, .wgs84⟩
def eastEnd : ExactPlace := ⟨⟨30, north⟩, ⟨10.0004, by norm_num⟩, .wgs84⟩

theorem end_system : (some (30 : ℚ)).isSome → (some CoordinateSystem.wgs84).isSome := id

def unknownRoadAt (e : ExactPlace) : ReportCreate :=
  { roadReport "road unknown" with
    location := ⟨"a", some e.latitude, some e.longitude, none, "manual", none, some e.system, none, rfl, end_system⟩ }

/-- The neighbour does not know whether the road is open. -/
def unknownRoad : Db :=
  reached [⟨0, neighbour, none, .postReport (.id 0) (unknownRoadAt westEnd) (.ok none) (.ok ())⟩]

theorem unknownRoad_gap : ∃ g : ReportGap unknownRoad,
    g.spot.incidentId = 0 ∧ g.report.reporterDeviceId ≠ resident.subjectId := by
  obtain ⟨r, hr, hother⟩ := (Option.any_eq_true _ _).mp
    (show (unknownRoad.reports.get 0).any (fun r => r.reporterDeviceId ≠ resident.subjectId) = true by
      decide +kernel)
  obtain ⟨f, hf, hreport⟩ := (Option.any_eq_true _ _).mp
    (show (unknownRoad.fragments.get 0).any (fun f => f.sourceType = .residentReport ∧ f.sourceRefId = some 0) =
      true by decide +kernel)
  obtain ⟨b, hb, hspot⟩ := (Option.any_eq_true _ _).mp
    (show (unknownRoad.blindSpots.get 0).any (fun b => b.pointsTo "origin_fragment_id" 0 &&
      (isResidentReportGap b.scopeData && decide (b.incidentId = 0))) = true by decide +kernel)
  simp only [Bool.and_eq_true, decide_eq_true_eq] at hspot
  exact ⟨⟨0, r, 0, f, 0, b, hr, hf, hb, of_decide_eq_true hreport, hspot.1, hspot.2.1⟩, hspot.2.2,
    of_decide_eq_true hother⟩

end Sample

open Sample in
/-- Another resident reads from the list which of two places of the cell it was. -/
theorem list_reveals_place_in_cell : ∃ g : ReportGap unknownRoad,
    g.report.reporterDeviceId ≠ resident.subjectId ∧ westEnd.SameCell env.math eastEnd ∧
      ¬ g.SameOutputs env resident (g.reportedAt env.math westEnd) (g.reportedAt env.math eastEnd) := by
  obtain ⟨g, hincident, hother⟩ := unknownRoad_gap
  refine ⟨g, hother, fun system => ?_, fun h => ?_⟩
  · cases system <;> decide +kernel
  · have hread : g.spot.incidentId ∈ resident.incidentIds := by
      rw [hincident]
      exact List.mem_cons_self
    have heq : westEnd.longitude.val = eastEnd.longitude.val :=
      congrArg (·.longitude.val) (g.eq_of_lists hread (h.lists none none))
    norm_num [westEnd, eastEnd] at heq

end CrisisMosaic
