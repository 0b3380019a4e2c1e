import CrisisMosaic.Records

/-!
# Outbox events

`emitEvent` follows `emit_event`: every event takes the next sequence number of
its incident; the first data event of a transaction bumps the data revision and
stales the briefs made from an older one; the first map event bumps the map
revision and announces it.
-/

namespace CrisisMosaic
open Relational

structure Event where
  eventType : String
  resourceType : ResourceType
  resourceId : Option Id
  resourceRevision : Option ℕ
  payload : Dict
  visibility : Visibility := .operators
  ownerDeviceId : Option Id := none

def ResourceType.dataAffecting : ResourceType → Bool
  | .aiAnalysis | .mapView => false
  | _ => true

def ResourceType.mapAffecting : ResourceType → Bool
  | .report | .blindSpot | .fact | .conflict | .fragment => true
  | _ => false

namespace Feed

def sequence (feed : Feed) (incidentId : Id) : ℕ :=
  (feed.incidents.get incidentId).elim 0 (·.eventSequence)

def dataRevision (feed : Feed) (incidentId : Id) : ℕ :=
  (feed.incidents.get incidentId).elim 0 (·.dataRevision)

def mapRevision (feed : Feed) (incidentId : Id) : ℕ :=
  (feed.incidents.get incidentId).elim 0 (·.mapRevision)

def append (feed : Feed) (now : Time) (incidentId : Id) (e : Event) : Feed :=
  { feed with
    incidents := feed.incidents.modify incidentId fun i =>
      { i with eventSequence := i.eventSequence + 1 }
    outbox := feed.outbox.insert
      ⟨incidentId, feed.sequence incidentId + 1, e.eventType, e.visibility, e.resourceType,
        e.resourceId, e.resourceRevision, e.ownerDeviceId, e.payload, now⟩ }

def bumpData (feed : Feed) (incidentId : Id) : Feed :=
  { feed with
    incidents := feed.incidents.modify incidentId fun i =>
      { i with dataRevision := i.dataRevision + 1 }
    dataMarker := some incidentId }

def bumpMap (feed : Feed) (incidentId : Id) : Feed :=
  { feed with
    incidents := feed.incidents.modify incidentId fun i =>
      { i with mapRevision := i.mapRevision + 1 }
    mapMarker := some incidentId }

def isCurrentBrief (incidentId : Id) (dataRevision : ℕ) (a : AiAnalysis) : Bool :=
  a.incidentId = incidentId && a.analysisType = .commandBrief && a.status = .succeeded &&
    !a.isStale && a.inputVersion ≠ dataRevision

def staleBrief (feed : Feed) (now : Time) (incidentId : Id) (reason : String) (id : Id) : Feed :=
  let revision := (feed.analyses.get id).map (·.inputVersion)
  let feed := { feed with
    analyses := feed.analyses.modify id fun a =>
      { a with isStale := true, staleAt := some now, staleReason := some reason } }
  feed.append now incidentId
    { eventType := "command_brief.stale"
      resourceType := .aiAnalysis
      resourceId := some id
      resourceRevision := revision
      payload := [("analysis_id", .ref id), ("reason", .str reason),
        ("current_data_revision", .nat (feed.dataRevision incidentId))] }

def staleBriefs (feed : Feed) (now : Time) (incidentId : Id) (reason : String) : Feed :=
  (feed.analyses.select (isCurrentBrief incidentId (feed.dataRevision incidentId))).foldl
    (fun feed id => feed.staleBrief now incidentId reason id) feed

def announceMap (feed : Feed) (now : Time) (incidentId : Id) : Feed :=
  feed.append now incidentId
    { eventType := "map_view.invalidated"
      resourceType := .mapView
      resourceId := some incidentId
      resourceRevision := some (feed.mapRevision incidentId)
      payload := [("map_revision", .nat (feed.mapRevision incidentId))]
      visibility := .public }

def mapBumps (feed : Feed) (incidentId : Id) (resource : ResourceType) : Bool :=
  resource.mapAffecting && feed.mapMarker ≠ some incidentId

def touchData (feed : Feed) (incidentId : Id) (resource : ResourceType) : Feed :=
  if resource.dataAffecting && feed.dataMarker ≠ some incidentId then feed.bumpData incidentId
  else feed

def touchMap (feed : Feed) (incidentId : Id) (resource : ResourceType) : Feed :=
  if feed.mapBumps incidentId resource then feed.bumpMap incidentId else feed

def emitEvent (feed : Feed) (now : Time) (incidentId : Id) (e : Event) : Feed :=
  let mapBumped := feed.mapBumps incidentId e.resourceType
  let feed := feed.append now incidentId e
  let feed := feed.touchData incidentId e.resourceType
  let feed := feed.touchMap incidentId e.resourceType
  let feed := if e.resourceType.dataAffecting then
    feed.staleBriefs now incidentId ("incident_changed:" ++ e.eventType) else feed
  if mapBumped then feed.announceMap now incidentId else feed

/-- A fresh transaction has bumped nothing yet. -/
def begin (feed : Feed) : Feed := { feed with dataMarker := none, mapMarker := none }

/-- Every conflict analysis of `b` was one of `a`, about the same input. -/
def AnalysesKept (a b : Feed) : Prop :=
  ∀ i y, b.analyses.get i = some y → y.analysisType = .conflictAnalysis →
    ∃ x, a.analyses.get i = some x ∧ x.analysisType = .conflictAnalysis ∧
      x.inputSnapshot = y.inputSnapshot ∧ x.inputVersion = y.inputVersion

theorem AnalysesKept.refl (a : Feed) : a.AnalysesKept a :=
  fun _ y hy ht => ⟨y, hy, ht, rfl, rfl⟩

theorem AnalysesKept.trans {a b c : Feed} (h : a.AnalysesKept b) (k : b.AnalysesKept c) :
    a.AnalysesKept c := by
  intro i z hz ht
  obtain ⟨y, hy, hyt, hys, hyv⟩ := k i z hz ht
  obtain ⟨x, hx, hxt, hxs, hxv⟩ := h i y hy hyt
  exact ⟨x, hx, hxt, hxs.trans hys, hxv.trans hyv⟩

theorem append_analysesKept (feed : Feed) (now : Time) (incidentId : Id) (e : Event) :
    feed.AnalysesKept (feed.append now incidentId e) := AnalysesKept.refl feed

theorem staleBrief_analysesKept (feed : Feed) (now : Time) (incidentId : Id) (reason : String)
    (id : Id) : feed.AnalysesKept (feed.staleBrief now incidentId reason id) := by
  intro i y hy ht
  simp only [staleBrief, append] at hy
  rcases Table.get_modify_cases hy with ⟨-, x, hx, rfl⟩ | ⟨-, hy⟩
  · exact ⟨x, hx, ht, rfl, rfl⟩
  · exact ⟨y, hy, ht, rfl, rfl⟩

theorem staleBriefs_analysesKept (feed : Feed) (now : Time) (incidentId : Id) (reason : String) :
    feed.AnalysesKept (feed.staleBriefs now incidentId reason) := by
  have hfold : ∀ (ids : List Id) (g : Feed),
      g.AnalysesKept (ids.foldl (fun g id => g.staleBrief now incidentId reason id) g) := by
    intro ids
    induction ids with
    | nil => exact AnalysesKept.refl
    | cons id ids ih =>
      exact fun g => (staleBrief_analysesKept g now incidentId reason id).trans (ih _)
  exact hfold _ feed

theorem touchData_analysesKept (feed : Feed) (incidentId : Id) (resource : ResourceType) :
    feed.AnalysesKept (feed.touchData incidentId resource) := by
  unfold touchData
  split <;> exact AnalysesKept.refl feed

theorem touchMap_analysesKept (feed : Feed) (incidentId : Id) (resource : ResourceType) :
    feed.AnalysesKept (feed.touchMap incidentId resource) := by
  unfold touchMap
  split <;> exact AnalysesKept.refl feed

theorem emitEvent_analysesKept (feed : Feed) (now : Time) (incidentId : Id) (e : Event) :
    feed.AnalysesKept (feed.emitEvent now incidentId e) := by
  have h := (append_analysesKept feed now incidentId e).trans
    ((touchData_analysesKept _ incidentId e.resourceType).trans
      (touchMap_analysesKept _ incidentId e.resourceType))
  unfold emitEvent
  dsimp only
  split_ifs
  · exact h.trans ((staleBriefs_analysesKept _ now incidentId _).trans
      (append_analysesKept _ now incidentId _))
  · exact h.trans (append_analysesKept _ now incidentId _)
  · exact h.trans (staleBriefs_analysesKept _ now incidentId _)
  · exact h

/-- The incidents have the statuses they had. -/
def SameStatuses (a b : Feed) : Prop :=
  a.incidents.Related (fun i j => j.status = i.status) b.incidents

theorem SameStatuses.refl (a : Feed) : a.SameStatuses a :=
  Table.Related.refl (R := fun i j : Incident => j.status = i.status) (fun _ => rfl) a.incidents

theorem SameStatuses.trans {a b c : Feed} (h : a.SameStatuses b) (k : b.SameStatuses c) :
    a.SameStatuses c := Table.Related.trans (fun _ _ _ h k => k.trans h) h k

theorem SameStatuses.active {a b : Feed} (h : a.SameStatuses b) (incidentId : Id) :
    (b.incidents.get incidentId).any (fun i => i.status = .active) =
      (a.incidents.get incidentId).any fun i => i.status = .active := by
  have hrow := h incidentId
  generalize a.incidents.get incidentId = x, b.incidents.get incidentId = y at hrow
  cases hrow with
  | none => rfl
  | some hab => simp [hab]

/-- Counting an event or a revision leaves every status. -/
theorem sameStatuses_modify (feed : Feed) (incidentId : Id) (f : Incident → Incident)
    (hf : ∀ i, (f i).status = i.status) :
    feed.incidents.Related (fun i j => j.status = i.status) (feed.incidents.modify incidentId f) :=
  Table.Related.modify (R := fun i j : Incident => j.status = i.status) (fun _ => rfl) feed.incidents
    fun i _ => hf i

theorem append_sameStatuses (feed : Feed) (now : Time) (incidentId : Id) (e : Event) :
    feed.SameStatuses (feed.append now incidentId e) := feed.sameStatuses_modify _ _ fun _ => rfl

theorem staleBriefs_sameStatuses (feed : Feed) (now : Time) (incidentId : Id) (reason : String) :
    feed.SameStatuses (feed.staleBriefs now incidentId reason) := by
  have hfold : ∀ (ids : List Id) (g : Feed),
      g.SameStatuses (ids.foldl (fun g id => g.staleBrief now incidentId reason id) g) := by
    intro ids
    induction ids with
    | nil => exact .refl
    | cons id ids ih =>
      intro g
      have hone : g.SameStatuses (g.staleBrief now incidentId reason id) :=
        g.sameStatuses_modify _ _ fun _ => rfl
      exact hone.trans (ih _)
  exact hfold _ feed

theorem emitEvent_sameStatuses (feed : Feed) (now : Time) (incidentId : Id) (e : Event) :
    feed.SameStatuses (feed.emitEvent now incidentId e) := by
  have hdata : ∀ g : Feed, g.SameStatuses (g.touchData incidentId e.resourceType) := by
    intro g
    unfold touchData
    split
    · exact g.sameStatuses_modify _ _ fun _ => rfl
    · exact .refl g
  have hmap : ∀ g : Feed, g.SameStatuses (g.touchMap incidentId e.resourceType) := by
    intro g
    unfold touchMap
    split
    · exact g.sameStatuses_modify _ _ fun _ => rfl
    · exact .refl g
  have h := (append_sameStatuses feed now incidentId e).trans ((hdata _).trans (hmap _))
  unfold emitEvent
  dsimp only
  split_ifs
  · exact h.trans ((staleBriefs_sameStatuses _ now incidentId _).trans
      (append_sameStatuses _ now incidentId _))
  · exact h.trans (append_sameStatuses _ now incidentId _)
  · exact h.trans (staleBriefs_sameStatuses _ now incidentId _)
  · exact h

end Feed

def Surface.emit (s : Surface) (now : Time) (incidentId : Id) (e : Event) : Surface :=
  { s with feed := s.feed.emitEvent now incidentId e }

end CrisisMosaic
