import CrisisMosaic.Evidence
import CrisisMosaic.RoadClaims

/-!
# Automatic blind spots

A blind spot opened for a resident report that leaves its claim unknown is
resolved, handed over, reopened or retired as the fragments around it change.
-/

namespace CrisisMosaic
open Relational

structure SpotBoard extends Surface where
  spots : Table BlindSpot

section Place
variable (env : Env)

def sameLocation (first second : Place) : Bool :=
  match first.position env.math, second.position env.math with
  | some a, some b => decide (haversineM env.math a.wgs84 b.wgs84 ≤ env.settings.conflictRadiusM)
  | _, _ =>
      let text := normalizedLocation env.text first.locationText
      !text.isEmpty && text = normalizedLocation env.text second.locationText

end Place

def blindSpotData (id : Id) (b : BlindSpot) : Dict :=
  [("id", .ref id), ("incident_id", .ref b.incidentId), ("claim_key", .str b.claimKey),
    ("title", .str b.title)] ++ b.place.entries ++
  [("scope_type", .str b.scopeType), ("scope_data", .opt .obj b.scopeData),
    ("severity", .str b.severity.text), ("route_impact_count", .nat b.routeImpactCount),
    ("min_valid_answers", .nat b.minValidAnswers), ("status", .str b.status.text),
    ("resolution_value", optStr b.resolutionValue), ("revision", .nat b.revision),
    ("created_at", .time b.createdAt), ("updated_at", .time b.updatedAt)]

def BlindSpot.isOpen (b : BlindSpot) : Bool := b.status = .opened || b.status = .reopened

def BlindSpot.scope (b : BlindSpot) : Dict := b.scopeData.getD []

/-- `scope.get(key) == fragment.id` -/
def BlindSpot.pointsTo (b : BlindSpot) (key : String) (fragmentId : Id) : Bool :=
  (b.scope.get key).any (Json.isRef fragmentId)

def isConcrete (value : Option String) : Bool := value.isSome && value ≠ some "unknown"

namespace SpotBoard
variable (env : Env) (now : Time)

def emit (b : SpotBoard) (incidentId : Id) (e : Event) : SpotBoard :=
  { b with feed := b.feed.emitEvent now incidentId e }

/-- Store a changed blind spot, one revision later, and project it. -/
def save (b : SpotBoard) (id : Id) (spot : BlindSpot) : SpotBoard :=
  let spot := { spot with revision := spot.revision + 1, updatedAt := now }
  { b with
    spots := b.spots.modify id fun _ => spot
    features := upsertBlindSpotMapFeature env now b.features id spot }

def retire (b : SpotBoard) (id : Id) (spot : BlindSpot) : SpotBoard :=
  let spot := { spot with revision := spot.revision + 1, updatedAt := now }
  { b with
    spots := b.spots.modify id fun _ => spot
    features := hideBlindSpotMapFeature now b.features id spot }

def add (b : SpotBoard) (spot : BlindSpot) : SpotBoard :=
  { b with
    spots := b.spots.insert spot
    features := upsertBlindSpotMapFeature env now b.features b.spots.size spot }

def announce (b : SpotBoard) (incidentId id : Id) (eventType : String)
    (payload : BlindSpot → Dict) : SpotBoard :=
  match b.spots.get id with
  | some spot => b.emit now incidentId
      { eventType := eventType
        resourceType := .blindSpot
        resourceId := some id
        resourceRevision := some spot.revision
        payload := payload spot }
  | none => b

end SpotBoard

section Resolve
variable (env : Env) (now : Time) (incidentId fragmentId : Id) (f : InformationFragment)

def resolutionValue (conflicted : Bool) : Option String :=
  if conflicted then some "conflicting_evidence" else f.claimValue

def resolveSpot (conflicted : Bool) (b : SpotBoard) (id : Id) : SpotBoard :=
  match b.spots.get id with
  | some spot =>
      if isResidentReportGap spot.scopeData && sameLocation env f.place spot.place then
        let b := b.save env now id
          { spot with
            status := .resolved
            resolutionValue := resolutionValue f conflicted
            scopeData := some (spot.scope.set "resolution_fragment_id" (.ref fragmentId)) }
        b.announce now incidentId id "blind_spot.resolved" (blindSpotData id)
      else b
  | none => b

def resolveAutomaticBlindSpots (conflicted : Bool) (b : SpotBoard) : SpotBoard :=
  if truthy f.claimKey && isConcrete f.claimValue then
    (b.spots.select fun spot => spot.incidentId = incidentId && some spot.claimKey = f.claimKey &&
      spot.isOpen).foldl (resolveSpot env now incidentId fragmentId f conflicted) b
  else b

end Resolve

section Deactivate
variable (env : Env) (now : Time) (incidentId : Id) (reports : Table Report)
  (fragments : Table InformationFragment)

def reportFragmentIsActive (f : InformationFragment) : Bool :=
  f.status ≠ .withdrawn &&
    (f.sourceType ≠ .residentReport || (f.sourceRefId.bind reports.get).any (·.isLive))

def activeNearby (spot : BlindSpot) (fragmentId : Id) : List Id :=
  (fragments.select fun f => f.incidentId = incidentId && f.claimKey = some spot.claimKey &&
    reportFragmentIsActive reports f && sameLocation env spot.place f.place).filter (· ≠ fragmentId)

def claimValueOf (id : Id) : Option String := (fragments.get id).bind (·.claimValue)

/-- The fragment still supports the resolution it gave. -/
def stillResolves (spot : BlindSpot) (f : InformationFragment) : Bool :=
  spot.status = .resolved && f.claimKey = some spot.claimKey &&
    f.claimValue = spot.resolutionValue && reportFragmentIsActive reports f &&
    sameLocation env spot.place f.place

def originStillUnknown (spot : BlindSpot) : Bool :=
  (((spot.scope.get "origin_fragment_id").bind Json.asRef).bind fragments.get).any fun f =>
    f.claimValue = some "unknown" && reportFragmentIsActive reports f

/-- The resolver changed: hand the resolution over or reopen; `none` when neither applies. -/
def replaceResolver (b : SpotBoard) (id fragmentId : Id) (spot : BlindSpot) (reason : String) :
    Option SpotBoard :=
  match (activeNearby env incidentId reports fragments spot fragmentId).find? fun c =>
      isConcrete (claimValueOf fragments c) with
  | some c => some (b.save env now id
      { spot with
        resolutionValue := claimValueOf fragments c
        scopeData := some (spot.scope.set "resolution_fragment_id" (.ref c)) })
  | none =>
      if originStillUnknown reports fragments spot then
        let b := b.save env now id
          { spot with
            status := .reopened
            resolutionValue := none
            scopeData := some (spot.scope.erase "resolution_fragment_id") }
        some (b.announce now incidentId id "blind_spot.reopened" fun _ =>
          [("blind_spot_id", .ref id), ("reason", .str reason)])
      else none

/-- The origin changed: keep, answer, hand over or retire the blind spot. -/
def replaceOrigin (b : SpotBoard) (id fragmentId : Id) (f : InformationFragment)
    (spot : BlindSpot) (reason : String) : SpotBoard :=
  let active := reportFragmentIsActive reports f
  if f.claimKey = some spot.claimKey && f.claimValue = some "unknown" && active &&
      sameLocation env spot.place f.place then b
  else if f.claimKey = some spot.claimKey && isConcrete f.claimValue && active then
    b.save env now id
      { spot with
        status := .resolved
        resolutionValue := f.claimValue
        scopeData := some (spot.scope.set "resolution_fragment_id" (.ref fragmentId)) }
  else
    match (activeNearby env incidentId reports fragments spot fragmentId).find? fun c =>
        claimValueOf fragments c = some "unknown" with
    | some c => b.save env now id
        { spot with scopeData := some (spot.scope.set "origin_fragment_id" (.ref c)) }
    | none =>
        let b := b.retire now id { spot with status := .resolved, resolutionValue := some reason }
        b.announce now incidentId id "blind_spot.resolved" fun _ =>
          [("blind_spot_id", .ref id), ("reason", .str reason)]

def deactivateSpot (fragmentId : Id) (f : InformationFragment) (reason : String) (b : SpotBoard)
    (id : Id) : SpotBoard :=
  match b.spots.get id with
  | none => b
  | some spot =>
      let isOrigin := spot.pointsTo "origin_fragment_id" fragmentId
      let isResolver := spot.pointsTo "resolution_fragment_id" fragmentId
      if !isResidentReportGap spot.scopeData || (!isOrigin && !isResolver) ||
          (isResolver && stillResolves env reports spot f) then b
      else
        let replaced :=
          if isResolver && spot.status = .resolved then
            replaceResolver env now incidentId reports fragments b id fragmentId spot reason
          else none
        match replaced with
        | some b => b
        | none =>
            if isOrigin && spot.isOpen then
              replaceOrigin env now incidentId reports fragments b id fragmentId f spot reason
            else b

def deactivateAutomaticBlindSpots (fragmentId : Id) (f : InformationFragment) (reason : String)
    (b : SpotBoard) : SpotBoard :=
  (b.spots.select fun spot => spot.incidentId = incidentId).foldl
    (deactivateSpot env now incidentId reports fragments fragmentId f reason) b

end Deactivate

section Detect
variable (env : Env) (now : Time)

def graceOverride (flags : Dict) : Option ℕ :=
  match flags.get "blind_spot_report_grace_minutes" with
  | some (.num q) => if q.den = 1 ∧ 0 ≤ q then some q.num.toNat else none
  | _ => none

def graceMinutes (incident : Incident) (f : InformationFragment) : ℕ :=
  if isExplicitlyUncertain env f then 0
  else (graceOverride incident.featureFlags).getD env.settings.blindSpotReportGraceMinutes

/-- The report whose gap the detection is about, when every guard passes. -/
def gapReport (b : SpotBoard) (reports : Table Report) (incidentId fragmentRevision : ℕ)
    (f : InformationFragment) : Option (Incident × Report) :=
  match b.feed.incidents.get incidentId, f.sourceRefId.bind reports.get with
  | some incident, some report =>
      if incident.status = .active && f.incidentId = incidentId &&
          f.sourceType = .residentReport && f.revision = fragmentRevision && truthy f.claimKey &&
          f.claimValue = some "unknown" && (f.status = .normal || f.status = .conflict) &&
          report.isLive then some (incident, report)
      else none
  | _, _ => none

/-- Another active fragment already answers the claim here. -/
def gapIsAnswered (reports : Table Report) (fragments : Table InformationFragment)
    (fragmentId : Id) (f : InformationFragment) : Bool :=
  ((fragments.select fun c => c.incidentId = f.incidentId && c.claimKey = f.claimKey &&
    isConcrete c.claimValue && decide (f.receivedAt ≤ c.receivedAt) &&
    reportFragmentIsActive reports c && sameLocation env f.place c.place).filter
      (· ≠ fragmentId)) ≠ []

def openSpot (incidentId fragmentId : Id) (f : InformationFragment) (report : Report)
    (grace : ℕ) (dueAt : Time) : BlindSpot :=
  { incidentId := incidentId
    claimKey := f.claimKey.getD ""
    title := f.place.locationText ++ " 道路通行信息盲区"
    place := f.place
    scopeType := if f.place.latitude.isSome then "radius" else "incident"
    scopeData := some [("source", .str "resident_report_gap"), ("origin_fragment_id", .ref fragmentId),
      ("grace_minutes", .nat grace), ("due_at", .time dueAt),
      ("radius_m", .num env.settings.conflictRadiusM)]
    severity := if report.isUrgent || report.priority = .high then .high else .medium
    routeImpactCount := 0
    minValidAnswers := env.settings.directedMinValidAnswers
    status := .opened
    resolutionValue := none
    revision := 1
    createdAt := now
    updatedAt := now }

def reopenSpot (b : SpotBoard) (id fragmentId : Id) (spot : BlindSpot) (grace : ℕ)
    (dueAt : Time) : SpotBoard :=
  b.save env now id
    { spot with
      status := .reopened
      resolutionValue := none
      scopeData := some (Dict.merge spot.scope
        [("origin_fragment_id", .ref fragmentId), ("grace_minutes", .nat grace),
          ("due_at", .time dueAt)]) }

def runReportBlindSpotDetection (reports : Table Report) (fragments : Table InformationFragment)
    (b : SpotBoard) (incidentId fragmentId fragmentRevision : ℕ) (dueAt : Option Time)
    (grace : Option ℕ) : SpotBoard :=
  match fragments.get fragmentId with
  | none => b
  | some f =>
      match gapReport b reports incidentId fragmentRevision f with
      | none => b
      | some (incident, report) =>
          let grace := grace.getD (graceMinutes env incident f)
          let dueAt := dueAt.getD (f.receivedAt + minutes grace)
          if now < dueAt || gapIsAnswered env reports fragments fragmentId f then b
          else
            match b.spots.find fun spot => spot.incidentId = incidentId &&
                some spot.claimKey = f.claimKey && sameLocation env f.place spot.place with
            | some (id, spot) =>
                if !isResidentReportGap spot.scopeData || spot.isOpen then b
                else (reopenSpot env now b id fragmentId spot grace dueAt).announce now incidentId
                  id "blind_spot.reopened" (blindSpotData id)
            | none =>
                let spot := openSpot env now incidentId fragmentId f report grace dueAt
                let id := b.spots.size
                (b.add env now spot).announce now incidentId id "blind_spot.created" (blindSpotData id)

end Detect

/-- The automatic blind spots change by these writes only. -/
inductive SpotBoard.Draws (env : Env) (now : Time) (b : SpotBoard) : SpotBoard → Prop
  | refl : Draws env now b b
  | save {c : SpotBoard} : Draws env now b c → ∀ id spot, Draws env now b (c.save env now id spot)
  | retire {c : SpotBoard} : Draws env now b c → ∀ id spot, Draws env now b (c.retire now id spot)
  | add {c : SpotBoard} : Draws env now b c → ∀ spot, Draws env now b (c.add env now spot)
  | announce {c : SpotBoard} : Draws env now b c → ∀ incidentId id eventType payload,
      Draws env now b (c.announce now incidentId id eventType payload)

/-- What the automatic blind spots do to the rest of the surface. -/
structure SpotBoard.Quiet (a b : SpotBoard) : Prop where
  features : FactSilent a.features b.features
  analyses : a.feed.AnalysesKept b.feed

namespace SpotBoard
variable {env : Env} {now : Time}

theorem Draws.trans {a b c : SpotBoard} (h : a.Draws env now b) (k : b.Draws env now c) :
    a.Draws env now c := by
  induction k with
  | refl => exact h
  | save _ id spot ih => exact ih.save id spot
  | retire _ id spot ih => exact ih.retire id spot
  | add _ spot ih => exact ih.add spot
  | announce _ incidentId id eventType payload ih => exact ih.announce incidentId id eventType payload

theorem Draws.foldl {step : SpotBoard → Id → SpotBoard}
    (h : ∀ (b : SpotBoard) (id : Id), b.Draws env now (step b id)) :
    ∀ (ids : List Id) (b : SpotBoard), b.Draws env now (ids.foldl step b) := by
  intro ids
  induction ids with
  | nil => exact fun b => .refl
  | cons id ids ih => exact fun b => (h b id).trans (ih _)

theorem Quiet.refl (a : SpotBoard) : a.Quiet a := ⟨.refl _, .refl _⟩

theorem Quiet.trans {a b c : SpotBoard} (h : a.Quiet b) (k : b.Quiet c) : a.Quiet c :=
  ⟨h.features.trans k.features, h.analyses.trans k.analyses⟩

theorem announce_quiet (b : SpotBoard) (incidentId id : Id) (eventType : String)
    (payload : BlindSpot → Dict) : b.Quiet (b.announce now incidentId id eventType payload) := by
  unfold announce
  split
  · exact ⟨.refl _, Feed.emitEvent_analysesKept _ now incidentId _⟩
  · exact .refl b

theorem Draws.quiet {a b : SpotBoard} (h : a.Draws env now b) : a.Quiet b := by
  induction h with
  | refl => exact .refl a
  | save _ id spot ih =>
    exact ih.trans ⟨upsertBlindSpotMapFeature_factSilent env now _ _ _, .refl _⟩
  | retire _ id spot ih => exact ih.trans ⟨hideBlindSpotMapFeature_factSilent now _ _ _, .refl _⟩
  | add _ spot ih => exact ih.trans ⟨upsertBlindSpotMapFeature_factSilent env now _ _ _, .refl _⟩
  | announce _ incidentId id eventType payload ih => exact ih.trans (announce_quiet _ incidentId id _ _)

theorem Draws.sameStatuses {a b : SpotBoard} (h : a.Draws env now b) : a.feed.SameStatuses b.feed := by
  induction h with
  | refl => exact .refl a.feed
  | save _ id spot ih => exact ih
  | retire _ id spot ih => exact ih
  | add _ spot ih => exact ih
  | @announce c _ incidentId id eventType payload ih =>
    refine ih.trans ?_
    unfold SpotBoard.announce
    split
    · exact c.feed.emitEvent_sameStatuses now incidentId _
    · exact .refl c.feed

end SpotBoard

section Draws
variable (env : Env) (now : Time)
open SpotBoard

theorem resolveAutomaticBlindSpots_draws (incidentId fragmentId : Id) (f : InformationFragment)
    (conflicted : Bool) (b : SpotBoard) :
    b.Draws env now (resolveAutomaticBlindSpots env now incidentId fragmentId f conflicted b) := by
  unfold resolveAutomaticBlindSpots
  split_ifs
  · refine Draws.foldl (fun b id => ?_) _ b
    unfold resolveSpot
    split
    · split_ifs
      · exact (Draws.refl.save id _).announce incidentId id _ _
      · exact .refl
    · exact .refl
  · exact .refl

theorem deactivateAutomaticBlindSpots_draws (incidentId : Id) (reports : Table Report)
    (fragments : Table InformationFragment) (fragmentId : Id) (f : InformationFragment)
    (reason : String) (b : SpotBoard) :
    b.Draws env now (deactivateAutomaticBlindSpots env now incidentId reports fragments fragmentId f
      reason b) := by
  have hresolver : ∀ {b c : SpotBoard} {id : Id} {spot : BlindSpot},
      replaceResolver env now incidentId reports fragments b id fragmentId spot reason = some c →
      b.Draws env now c := by
    intro b c id spot h
    unfold replaceResolver at h
    split at h
    · exact Option.some.inj h ▸ Draws.refl.save id _
    · split_ifs at h
      exact Option.some.inj h ▸ (Draws.refl.save id _).announce incidentId id _ _
  have horigin : ∀ (b : SpotBoard) (id : Id) (spot : BlindSpot), b.Draws env now
      (replaceOrigin env now incidentId reports fragments b id fragmentId f spot reason) := by
    intro b id spot
    unfold replaceOrigin
    dsimp only
    split_ifs
    · exact .refl
    · exact Draws.refl.save id _
    · split
      · exact Draws.refl.save id _
      · exact (Draws.refl.retire id _).announce incidentId id _ _
  refine Draws.foldl (fun b id => ?_) _ b
  unfold deactivateSpot
  split
  · exact .refl
  · dsimp only
    split_ifs with hskip hres horig
    · exact .refl
    · split
      · next h => exact hresolver h
      · exact horigin b id _
    · split
      · next h => exact hresolver h
      · exact .refl
    · exact horigin b id _
    · exact .refl

theorem runReportBlindSpotDetection_draws (reports : Table Report)
    (fragments : Table InformationFragment) (b : SpotBoard)
    (incidentId fragmentId fragmentRevision : ℕ) (dueAt : Option Time) (grace : Option ℕ) :
    b.Draws env now (runReportBlindSpotDetection env now reports fragments b incidentId fragmentId
      fragmentRevision dueAt grace) := by
  unfold runReportBlindSpotDetection
  split
  · exact .refl
  split
  · exact .refl
  dsimp only
  split_ifs
  · exact .refl
  split
  · split_ifs
    · exact .refl
    · exact (Draws.refl.save _ _).announce incidentId _ _ _
  · exact (Draws.refl.add _).announce incidentId _ _ _

end Draws
end CrisisMosaic
