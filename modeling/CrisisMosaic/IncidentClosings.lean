import Mathlib
import CrisisMosaic.Relational.Outcomes
import CrisisMosaic.RetentionRuns

/-!
# When incidents were closed

Incidents are created with any status and patched to any other. A patch that sends `closed` writes the
time; nothing else does, and nothing removes it.
-/

namespace CrisisMosaic
open Relational

theorem defaultZoom : (1 : ℚ) ≤ 12 ∧ (12 : ℚ) ≤ 22 := by norm_num

structure IncidentCreate where
  aliasName : Option (Bounded 0 80) := none
  status : IncidentStatus := .preparing
  centerLatitude : Option ℚ := none
  centerLongitude : Option ℚ := none
  mapCoordinateSystem : CoordinateSystem := .gcj02
  mapDefaultZoom : {z : ℚ // 1 ≤ z ∧ z ≤ 22} := ⟨12, defaultZoom⟩
  featureFlags : Dict := []
  together : centerLatitude.isSome = centerLongitude.isSome := by rfl

/-- The center in the coordinate system of the incident. -/
def IncidentCreate.center (math : MathLib) (body : IncidentCreate) : Result (Option ℚ × Option ℚ) :=
  match body.centerLatitude, body.centerLongitude with
  | some lat, some lon => do
    let (lat, lon) ← validateCoordinates lat lon
    let point := (normalize math lat lon body.mapCoordinateSystem).at body.mapCoordinateSystem
    pure (some point.latitude, some point.longitude)
  | lat, lon => pure (lat, lon)

/-- The alias column is unique. -/
def createIncident (env : RetentionEnv) (s : RetainedState) (actor : Actor) (body : IncidentCreate) :
    Result RetainedState := do
  require (actor.role = .admin) (forbidden "FORBIDDEN" "当前角色无权执行此操作")
  require (¬ (body.status = .active ∧ (s.db.feed.incidents.first (·.status = .active)).isSome))
    (conflictError "ACTIVE_INCIDENT_EXISTS" "已有启用事件" [])
  let center ← body.center env.math
  require (body.aliasName.all fun a =>
    (s.db.feed.incidents.first fun row => row.aliasName = some a.val).isNone) internalError
  let row : Incident :=
    { aliasName := body.aliasName.map (·.val)
      status := body.status
      centerLatitude := center.1
      centerLongitude := center.2
      mapCoordinateSystem := body.mapCoordinateSystem
      mapDefaultZoom := body.mapDefaultZoom
      featureFlags := body.featureFlags
      eventSequence := 0
      dataRevision := 0
      mapRevision := 0 }
  let feed := s.db.feed.begin
  pure { s with
    db := { s.db with feed := { feed with incidents := feed.incidents.insert row } }
    closedAt := s.closedAt.insert none }

inductive IncidentStep
  | create (now : Time) (actor : Actor) (body : IncidentCreate)
  | patch (now : Time) (actor : Actor) (header : Option Ref) (incident : Id) (patch : IncidentPatch)

def RetainedState.isClosed (s : RetainedState) (id : Id) : Bool :=
  (s.db.feed.incidents.get id).any (·.status = .closed)

/-- `closings` remembers when the status of each incident last became `closed`. -/
structure IncidentHistory where
  service : RetainedState
  closings : Id → Option Time

namespace IncidentHistory
variable (env : RetentionEnv) (h : IncidentHistory)

def follow (now : Time) (next : RetainedState) : IncidentHistory :=
  ⟨next, fun id => if next.isClosed id && !h.service.isClosed id then some now else h.closings id⟩

def step : IncidentStep → IncidentHistory
  | .create now actor body => h.follow now (commit h.service (createIncident env h.service actor body))
  | .patch now actor header id p =>
      h.follow now (commit h.service (patchIncident env now h.service actor header id p))

/-- `closed_at` is there for the closed incidents, with the time at which they became closed. -/
def ClosedAtCurrent : Prop := ∀ id, (h.service.incidentClosedAt id).isSome = h.service.isClosed id ∧
  ∀ t, h.service.incidentClosedAt id = some t → h.closings id = some t

/-- The request, if it is accepted, does not create a closed incident, and leaves the status of a closed
one, or closes it again at the time at which it was closed. -/
def KeepsClosings : IncidentStep → Prop
  | .create _ actor body => Completes (createIncident env h.service actor body) → body.status ≠ .closed
  | .patch now actor header id p => Completes (patchIncident env now h.service actor header id p) →
      h.service.isClosed id = true →
        p.status = none ∨ p.status = some .closed ∧ h.closings id = some now

/-- No incident was created yet. -/
def initial (db : Db) : IncidentHistory :=
  ⟨.initial { db with feed := { db.feed with incidents := .empty } } .empty, fun _ => none⟩

/-- The column is a column of the incidents. -/
def Aligned : Prop := h.service.closedAt.size = h.service.db.feed.incidents.size

end IncidentHistory

/-! ## Requests -/

section Requests
variable {env : RetentionEnv} {now : Time} {s t : RetainedState} {actor : Actor} {header : Option Ref} {id : Id}

theorem createIncident_spec {body : IncidentCreate} (h : createIncident env s actor body = .ok t) :
    (∃ row : Incident, row.status = body.status ∧
      t.db.feed.incidents = s.db.feed.incidents.insert row) ∧ t.closedAt = s.closedAt.insert none := by
  simp only [createIncident, bind_ok, pure_ok] at h
  obtain ⟨_, -, _, -, center, -, _, -, rfl⟩ := h
  exact ⟨⟨_, rfl, rfl⟩, rfl⟩

theorem patchIncident_spec {p : IncidentPatch} (h : patchIncident env now s actor header id p = .ok t) :
    (∃ row next : Incident, s.db.feed.incidents.get id = some row ∧
      next.status = p.status.getD row.status ∧
      (s.db.feed.incidents.modify id fun _ => next).Related (fun i j => j.status = i.status)
        t.db.feed.incidents) ∧
      t.closedAt =
        if p.status = some .closed then s.closedAt.modify id fun _ => some now else s.closedAt := by
  simp only [patchIncident, bind_ok, pure_ok, found_ok] at h
  obtain ⟨_, -, row, hrow, _, -, _, -, _, -, next, hnext, rfl⟩ := h
  refine ⟨⟨row, next, hrow, ?_, ?_⟩, rfl⟩
  swap
  · exact Feed.emitEvent_sameStatuses
      { s.db.feed.begin with incidents := s.db.feed.incidents.modify id fun _ => next } now id _
  simp only [IncidentPatch.center] at hnext
  split_ifs at hnext
  · split at hnext
    · simp only [bind_ok, pure_ok] at hnext
      obtain ⟨_, -, rfl⟩ := hnext
      rfl
    · exact absurd hnext (by simp)
  · exact congrArg Incident.status (pure_ok.mp hnext).symm

theorem Incident.isClosed_congr {o p : Option Incident} (h : Option.Rel (fun i j => j.status = i.status) o p) :
    p.any (·.status = .closed) = o.any (·.status = .closed) := by
  cases h with
  | none => rfl
  | some hstatus => simp [hstatus]

theorem RetainedState.isClosed_of_none {s : RetainedState} (h : s.db.feed.incidents.get id = none) :
    s.isClosed id = false := by
  rw [isClosed, h]
  rfl

/-- The created incident is the only one that changes. -/
theorem created_isClosed {body : IncidentCreate} (h : createIncident env s actor body = .ok t) (i : Id) :
    t.isClosed i = if i = s.db.feed.incidents.size then decide (body.status = .closed) else s.isClosed i := by
  obtain ⟨⟨row, hstatus, hincidents⟩, -⟩ := createIncident_spec h
  simp only [RetainedState.isClosed, hincidents, Table.get_insert]
  split_ifs with hi
  · rw [Option.any_some, hstatus]
  · rfl

theorem created_closedAt {body : IncidentCreate} (h : createIncident env s actor body = .ok t) (i : Id) :
    t.incidentClosedAt i = s.incidentClosedAt i := by
  simp only [RetainedState.incidentClosedAt, (createIncident_spec h).2, Table.get_insert]
  split_ifs with hi
  · rw [hi, Table.get_size]
    rfl
  · rfl

theorem patched_isClosed {p : IncidentPatch} (h : patchIncident env now s actor header id p = .ok t) (i : Id) :
    t.isClosed i = if i = id then p.status.elim (s.isClosed id) (fun status => status = .closed)
      else s.isClosed i := by
  obtain ⟨⟨row, next, hrow, hstatus, hrelated⟩, -⟩ := patchIncident_spec h
  rw [RetainedState.isClosed, Incident.isClosed_congr (hrelated i)]
  split_ifs with hi
  · rw [hi, Table.get_modify_self, hrow, Option.map_some, Option.any_some, hstatus]
    cases hp : p.status with
    | none =>
      rw [Option.getD_none, Option.elim_none, RetainedState.isClosed, hrow]
      rfl
    | some status => rfl
  · rw [Table.get_modify_of_ne _ _ (Ne.symm hi)]
    rfl

theorem patched_closedAt {p : IncidentPatch} (h : patchIncident env now s actor header id p = .ok t)
    (hsize : s.closedAt.size = s.db.feed.incidents.size) (i : Id) :
    t.incidentClosedAt i = if i = id ∧ p.status = some .closed then some now else s.incidentClosedAt i := by
  obtain ⟨⟨row, next, hrow, -⟩, hclosedAt⟩ := patchIncident_spec h
  obtain ⟨closedAt, hget⟩ : ∃ closedAt, s.closedAt.get id = some closedAt :=
    Table.get_of_lt (hsize ▸ Table.lt_size hrow)
  simp only [RetainedState.incidentClosedAt, hclosedAt]
  by_cases hp : p.status = some .closed
  · rw [if_pos hp]
    by_cases hi : i = id
    · rw [if_pos ⟨hi, hp⟩, hi, Table.get_modify_self, hget]
      rfl
    · rw [if_neg fun hand => hi hand.1, Table.get_modify_of_ne _ _ (Ne.symm hi)]
  · rw [if_neg hp, if_neg fun hand => hp hand.2]

end Requests

/-! ## Runs -/

namespace IncidentHistory
variable {env : RetentionEnv} {h : IncidentHistory}

theorem Aligned.step (ha : h.Aligned) (step : IncidentStep) : (h.step env step).Aligned := by
  cases step with
  | create now actor body =>
    refine commit_induction (P := fun t : RetainedState => t.closedAt.size = t.db.feed.incidents.size) ha ?_
    intro t ht
    obtain ⟨⟨row, -, hincidents⟩, hclosedAt⟩ := createIncident_spec ht
    rw [hincidents, hclosedAt, Table.size_insert, Table.size_insert, ha]
  | patch now actor header id p =>
    refine commit_induction (P := fun t : RetainedState => t.closedAt.size = t.db.feed.incidents.size) ha ?_
    intro t ht
    obtain ⟨⟨row, next, -, -, hrelated⟩, hclosedAt⟩ := patchIncident_spec ht
    rw [← hrelated.size_eq, hclosedAt, Table.size_modify]
    split_ifs
    · rw [Table.size_modify]
      exact ha
    · exact ha

theorem follow_closings (now : Time) (t : RetainedState) (id : Id) : (h.follow now t).closings id =
    if t.isClosed id && !h.service.isClosed id then some now else h.closings id := rfl

theorem follow_self (now : Time) : h.follow now h.service = h := by
  have hclosings : (h.follow now h.service).closings = h.closings := by
    funext id
    simp [follow]
  exact congrArg (IncidentHistory.mk h.service) hclosings

theorem closedAt_none (hc : h.ClosedAtCurrent) {id : Id} (hopen : h.service.isClosed id = false) :
    h.service.incidentClosedAt id = none := by
  have hsome := (hc id).1
  rw [hopen] at hsome
  exact Option.isSome_eq_false_iff.mp hsome |> Option.isNone_iff_eq_none.mp

/-- An incident whose status and time are left stays as it should be. -/
theorem current_of_same (hc : h.ClosedAtCurrent) {t : RetainedState} {id : Id} {now : Time}
    (hstatus : t.isClosed id = h.service.isClosed id)
    (htime : t.incidentClosedAt id = h.service.incidentClosedAt id) :
    (t.incidentClosedAt id).isSome = t.isClosed id ∧
      ∀ u, t.incidentClosedAt id = some u → (h.follow now t).closings id = some u := by
  rw [htime, hstatus]
  refine ⟨(hc id).1, fun u hu => ?_⟩
  rw [follow_closings, hstatus, Bool.and_not_self, if_neg Bool.false_ne_true]
  exact (hc id).2 u hu

theorem create_iff (hc : h.ClosedAtCurrent) (now : Time) (actor : Actor) (body : IncidentCreate) :
    (h.step env (.create now actor body)).ClosedAtCurrent ↔ h.KeepsClosings env (.create now actor body) := by
  simp only [step, KeepsClosings]
  cases ht : createIncident env h.service actor body with
  | error e =>
    rw [commit_error, follow_self]
    exact iff_of_true hc fun hcompletes => absurd hcompletes (not_completes_error e)
  | ok t =>
    rw [commit_ok]
    have hfresh : h.service.isClosed h.service.db.feed.incidents.size = false :=
      RetainedState.isClosed_of_none (Table.get_size _)
    have hnone := created_closedAt ht h.service.db.feed.incidents.size
    rw [closedAt_none hc hfresh] at hnone
    have hstatus := created_isClosed ht h.service.db.feed.incidents.size
    rw [if_pos rfl] at hstatus
    constructor
    · intro hafter _ hclosed
      have hsome := (hafter h.service.db.feed.incidents.size).1
      simp only [follow] at hsome
      rw [hnone, hstatus, hclosed] at hsome
      exact nomatch hsome
    · intro hkeeps id
      by_cases hid : id = h.service.db.feed.incidents.size
      · have hopen : t.isClosed id = false := by
          rw [hid, hstatus]
          exact decide_eq_false (hkeeps (completes_ok t))
        have htime : t.incidentClosedAt id = none := hid ▸ hnone
        refine ⟨?_, fun u hu => ?_⟩
        · exact (congrArg Option.isSome htime).trans hopen.symm
        · exact absurd (htime.symm.trans hu) nofun
      · exact current_of_same hc ((created_isClosed ht id).trans (if_neg hid)) (created_closedAt ht id)

theorem patch_iff (hc : h.ClosedAtCurrent) (ha : h.Aligned) (now : Time) (actor : Actor)
    (header : Option Ref) (id : Id) (p : IncidentPatch) :
    (h.step env (.patch now actor header id p)).ClosedAtCurrent ↔
      h.KeepsClosings env (.patch now actor header id p) := by
  simp only [step, KeepsClosings]
  cases ht : patchIncident env now h.service actor header id p with
  | error e =>
    rw [commit_error, follow_self]
    exact iff_of_true hc fun hcompletes => absurd hcompletes (not_completes_error e)
  | ok t =>
    rw [commit_ok]
    have hstatus := patched_isClosed ht id
    have htime := patched_closedAt ht ha id
    rw [if_pos rfl] at hstatus
    constructor
    · intro hafter _ hclosed
      obtain ⟨hsome, hclosings⟩ := hafter id
      simp only [follow] at hsome hclosings
      cases hp : p.status with
      | none => exact Or.inl rfl
      | some status =>
        right
        rw [hp] at hstatus htime
        by_cases hst : status = .closed
        · subst hst
          rw [if_pos ⟨rfl, rfl⟩] at htime
          have hlast := hclosings now htime
          rw [hclosed, Bool.not_true, Bool.and_false, if_neg Bool.false_ne_true] at hlast
          exact ⟨rfl, hlast⟩
        · rw [if_neg fun hand => hst (Option.some.inj hand.2)] at htime
          rw [htime, hstatus, (hc id).1, hclosed, Option.elim_some, decide_eq_false hst] at hsome
          exact nomatch hsome
    · intro hkeeps i
      by_cases hi : i = id
      · subst hi
        cases hp : p.status with
        | none =>
          rw [hp] at hstatus htime
          exact current_of_same hc hstatus (htime.trans (if_neg fun hand => nomatch hand.2))
        | some status =>
          rw [hp] at hstatus htime hkeeps
          by_cases hst : status = .closed
          · subst hst
            rw [if_pos ⟨rfl, rfl⟩] at htime
            have hclosed : t.isClosed i = true := hstatus
            refine ⟨?_, fun u hu => ?_⟩
            · exact (congrArg Option.isSome htime).trans hclosed.symm
            · obtain rfl := Option.some.inj (htime.symm.trans hu)
              cases hbefore : h.service.isClosed i with
              | false => simp [follow, hclosed, hbefore]
              | true =>
                rcases hkeeps (completes_ok t) hbefore with hnone | ⟨-, hlast⟩
                · exact nomatch hnone
                · simp [follow, hclosed, hbefore, hlast]
          · have hopen : h.service.isClosed i = false := by
              by_contra hclosed
              rcases hkeeps (completes_ok t) (Bool.eq_true_of_not_eq_false hclosed) with hnone | ⟨hsame, -⟩
              · exact nomatch hnone
              · exact hst (Option.some.inj hsame)
            have hsame : t.isClosed i = h.service.isClosed i := by
              rw [hstatus, hopen]
              exact decide_eq_false hst
            exact current_of_same hc hsame (htime.trans (if_neg fun hand => hst (Option.some.inj hand.2)))
      · exact current_of_same hc ((patched_isClosed ht i).trans (if_neg hi))
          ((patched_closedAt ht ha i).trans (if_neg fun hand => hi hand.1))

end IncidentHistory

/-- In a run of creations and patches, `closed_at` always tells since when each closed incident has been
closed exactly if the requests keep it so. -/
theorem closed_at_is_current_iff (env : RetentionEnv) (db : Db) (steps : List IncidentStep) :
    Along (IncidentHistory.step env) (fun h step => (h.step env step).ClosedAtCurrent) (.initial db) steps ↔
      Along (IncidentHistory.step env) (fun h step => h.KeepsClosings env step) (.initial db) steps := by
  apply along_congr (IncidentHistory.step env) (I := fun h => h.ClosedAtCurrent ∧ h.Aligned)
  · intro h step hinv
    cases step with
    | create now actor body => exact IncidentHistory.create_iff hinv.1 now actor body
    | patch now actor header id p => exact IncidentHistory.patch_iff hinv.1 hinv.2 now actor header id p
  · exact fun h step hinv hafter => ⟨hafter, hinv.2.step step⟩
  · exact ⟨fun _ => ⟨rfl, nofun⟩, rfl⟩

namespace Sample

def statusPatch (revision : ℕ) (status : IncidentStatus) : IncidentPatch :=
  ⟨revision, some status, none, none, none, none⟩

/-- An incident is created, closed and opened again. -/
def reopening : List IncidentStep :=
  [.create 0 admin { together := unplaced }, .patch 1 admin none 0 (statusPatch 0 .closed),
    .patch 2 admin none 0 (statusPatch 1 .active)]

end Sample

/-- An incident that is open again keeps the time of its closing, and one that is created closed has
none. -/
theorem closed_at_outlives_the_closing :
    ¬ Along (IncidentHistory.step Sample.retention)
      (fun h step => (h.step Sample.retention step).ClosedAtCurrent) (.initial Sample.initial)
        Sample.reopening ∧
    ¬ Along (IncidentHistory.step Sample.retention)
      (fun h step => (h.step Sample.retention step).ClosedAtCurrent) (.initial Sample.initial)
        [.create 0 Sample.admin { status := .closed }] := by
  constructor
  · rintro ⟨-, -, hafter, -⟩
    have hopen : ((run (IncidentHistory.step Sample.retention) (.initial Sample.initial)
        Sample.reopening).service.incidentClosedAt 0).isSome ≠
          (run (IncidentHistory.step Sample.retention) (.initial Sample.initial)
            Sample.reopening).service.isClosed 0 := by decide +kernel
    exact hopen (hafter 0).1
  · rintro ⟨hafter, -⟩
    have hclosed : ((run (IncidentHistory.step Sample.retention) (.initial Sample.initial)
        [.create 0 Sample.admin { status := .closed }]).service.incidentClosedAt 0).isSome ≠
          (run (IncidentHistory.step Sample.retention) (.initial Sample.initial)
            [.create 0 Sample.admin { status := .closed }]).service.isClosed 0 := by decide +kernel
    exact hclosed (hafter 0).1

end CrisisMosaic
