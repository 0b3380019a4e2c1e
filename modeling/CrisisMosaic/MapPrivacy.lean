import CrisisMosaic.Reachable
import CrisisMosaic.Rounding

/-!
# What the map reveals of a hidden position

Two projections are the same to a resident when they differ only in positions the
resident sees rounded, inside their cells. The map tells them apart exactly when
a bound of its box cuts a cell.
-/

namespace CrisisMosaic
open Relational

def Point.Legal (p : Point) : Prop :=
  (-90 ≤ p.latitude ∧ p.latitude ≤ 90) ∧ -180 ≤ p.longitude ∧ p.longitude ≤ 180

def MapFeature.Legal (f : MapFeature) : Prop :=
  ∀ c, f.position = some c → ∀ system, (c.at system).Legal

/-- One feature, but for a position that the actor sees rounded: the cell is the same in both
coordinate systems. -/
structure SameToActor (actor : Actor) (f g : MapFeature) : Prop where
  rest : { f with position := g.position } = g
  exact : seesExactly f actor = true → f.position = g.position
  cell : ∀ system, f.position.map (fun c => (c.at system).round3) =
    g.position.map fun c => (c.at system).round3

/-- Every bound of the box is the end of a closed cell, or no legal coordinate is beyond it. -/
structure BoundingBox.Aligned (b : BoundingBox) : Prop where
  west : AlignedMin (-180) b.minLongitude
  east : AlignedMax 180 b.maxLongitude
  south : AlignedMin (-90) b.minLatitude
  north : AlignedMax 90 b.maxLatitude

/-- The box, if there is one, is aligned, or no layer shows a rounded position. -/
def MapScope.KeepsCells (scope : MapScope) : Prop :=
  (∀ b, scope.bbox = some b → b.Aligned) ∨ ∀ l ∈ scope.layers, l = .fragments ∨ l = .facts

section Boxes
variable {b : BoundingBox} {p p' : Point}

theorem BoundingBox.contains_iff : b.contains p = true ↔
    (b.minLongitude ≤ p.longitude ∧ p.longitude ≤ b.maxLongitude) ∧
      b.minLatitude ≤ p.latitude ∧ p.latitude ≤ b.maxLatitude := by
  simp [contains]

theorem BoundingBox.Aligned.contains_eq (h : b.Aligned) (hp : p.Legal) (hp' : p'.Legal)
    (hcell : p.round3 = p'.round3) : b.contains p = b.contains p' := by
  obtain ⟨hlat, hlon⟩ := Point.mk.inj hcell
  rw [Bool.eq_iff_iff, contains_iff, contains_iff]
  exact and_congr
    (and_congr (h.west.same hp.2.1 hp'.2.1 hlon) (h.east.same hp.2.2 hp'.2.2 hlon))
    (and_congr (h.south.same hp.1.1 hp'.1.1 hlat) (h.north.same hp.1.2 hp'.1.2 hlat))

/-- A box that is not aligned has two legal points of one cell on different sides. -/
theorem BoundingBox.exists_split (h : ¬b.Aligned) : ∃ p p', p.Legal ∧ p'.Legal ∧
    p.round3 = p'.round3 ∧ b.contains p = true ∧ b.contains p' = false := by
  obtain ⟨hwest, hlon, heast⟩ := b.longitudes
  obtain ⟨hsouth, hlat, hnorth⟩ := b.latitudes
  have hlow : Point.Legal ⟨b.minLatitude, b.minLongitude⟩ :=
    ⟨⟨hsouth, hlat.le.trans hnorth⟩, hwest, hlon.le.trans heast⟩
  have hhigh : Point.Legal ⟨b.maxLatitude, b.maxLongitude⟩ :=
    ⟨⟨hsouth.trans hlat.le, hnorth⟩, hwest.trans hlon.le, heast⟩
  have hlowIn : b.contains ⟨b.minLatitude, b.minLongitude⟩ = true :=
    contains_iff.mpr ⟨⟨le_rfl, hlon.le⟩, le_rfl, hlat.le⟩
  have hhighIn : b.contains ⟨b.maxLatitude, b.maxLongitude⟩ = true :=
    contains_iff.mpr ⟨⟨hlon.le, le_rfl⟩, hlat.le, le_rfl⟩
  have hout : ∀ q : Point, ¬((b.minLongitude ≤ q.longitude ∧ q.longitude ≤ b.maxLongitude) ∧
      b.minLatitude ≤ q.latitude ∧ q.latitude ≤ b.maxLatitude) → b.contains q = false :=
    fun q hq => Bool.eq_false_iff.mpr fun hc => hq (contains_iff.mp hc)
  by_cases hw : AlignedMin (-180) b.minLongitude
  · by_cases he : AlignedMax 180 b.maxLongitude
    · by_cases hs : AlignedMin (-90) b.minLatitude
      · have hn : ¬AlignedMax 90 b.maxLatitude := fun hn => h ⟨hw, he, hs, hn⟩
        obtain ⟨x, hx, hlt, hr⟩ := exists_above hn
        refine ⟨_, ⟨x, b.maxLongitude⟩, hhigh, ⟨⟨?_, hx⟩, hhigh.2⟩, ?_, hhighIn, ?_⟩
        · exact hhigh.1.1.trans hlt.le
        · simp only [Point.round3, hr]
        · exact hout _ fun hc => absurd hc.2.2 hlt.not_ge
      · obtain ⟨x, hx, hlt, hr⟩ := exists_below hs
        refine ⟨_, ⟨x, b.minLongitude⟩, hlow, ⟨⟨hx, ?_⟩, hlow.2⟩, ?_, hlowIn, ?_⟩
        · exact hlt.le.trans hlow.1.2
        · simp only [Point.round3, hr]
        · exact hout _ fun hc => absurd hc.2.1 hlt.not_ge
    · obtain ⟨x, hx, hlt, hr⟩ := exists_above he
      refine ⟨_, ⟨b.maxLatitude, x⟩, hhigh, ⟨hhigh.1, ?_, hx⟩, ?_, hhighIn, ?_⟩
      · exact hhigh.2.1.trans hlt.le
      · simp only [Point.round3, hr]
      · exact hout _ fun hc => absurd hc.1.2 hlt.not_ge
  · obtain ⟨x, hx, hlt, hr⟩ := exists_below hw
    refine ⟨_, ⟨b.minLatitude, x⟩, hlow, ⟨hlow.1, hx, ?_⟩, ?_, hlowIn, ?_⟩
    · exact hlt.le.trans hlow.2.2
    · simp only [Point.round3, hr]
    · exact hout _ fun hc => absurd hc.1.1 hlt.not_ge

end Boxes

section Views
variable {scope : MapScope} {actor : Actor} {f g : MapFeature} {F G : Table MapFeature}

namespace SameToActor

theorem requested (h : SameToActor actor f g) :
    isRequested scope actor f = isRequested scope actor g := by
  rw [← h.rest]
  rfl

theorem updatedAt (h : SameToActor actor f g) : f.updatedAt = g.updatedAt := by
  rw [← h.rest]

theorem item (h : SameToActor actor f g) (system : CoordinateSystem) :
    f.position.map (fun c => mapItem f actor (c.at system)) =
      g.position.map fun c => mapItem g actor (c.at system) := by
  have hitem : ∀ p, mapItem g actor p = mapItem f actor p := by
    intro p
    rw [← h.rest]
    rfl
  simp only [hitem]
  by_cases hsee : seesExactly f actor = true
  · rw [h.exact hsee]
  · have hcell : ∀ p p' : Point, p.round3 = p'.round3 → mapItem f actor p = mapItem f actor p' := by
      intro p p' hp
      simp only [mapItem, residentPosition, if_neg hsee, hp]
    have hround := h.cell system
    cases hf : f.position with
    | none => simp_all
    | some c =>
      cases hg : g.position with
      | none => simp_all
      | some c' =>
        rw [hf, hg] at hround
        exact congrArg some (hcell _ _ (Option.some.inj hround))

/-- Both are in the view or neither is, unless a bound of the box cuts a cell. -/
theorem inView_eq (h : SameToActor actor f g) (hf : f.Legal) (hg : g.Legal)
    (hreq : isRequested scope actor f = true) (hscope : scope.KeepsCells) :
    inView scope f = inView scope g := by
  rcases hscope with haligned | hlayers
  · have hround := h.cell scope.system
    unfold inView
    cases hfp : f.position with
    | none => simp_all
    | some c =>
      cases hgp : g.position with
      | none => simp_all
      | some c' =>
        rw [hfp, hgp] at hround
        cases hb : scope.bbox with
        | none => rfl
        | some b => exact (haligned b hb).contains_eq (hf c hfp _) (hg c' hgp _) (Option.some.inj hround)
  · have hsee : seesExactly f actor = true := by
      simp only [isRequested, Bool.and_eq_true, List.contains_iff_mem, List.mem_map] at hreq
      obtain ⟨l, hl, hk⟩ := hreq.1.1.1.1.2
      rcases hlayers l hl with rfl | rfl <;> simp only [MapLayer.kind] at hk <;>
        simp [seesExactly, isResidentReportDerived, ← hk]
    unfold inView
    rw [h.exact hsee]

end SameToActor

section Selection
variable (hrel : F.Related (SameToActor actor) G) (hF : F.All fun _ f => f.Legal) (hG : G.All fun _ g => g.Legal) (hscope : scope.KeepsCells)
include hrel

theorem recentFirst_eq (ids : List Id) : recentFirst F ids = recentFirst G ids := by
  have htime : ∀ i, (F.get i).elim 0 (·.updatedAt) = (G.get i).elim 0 (·.updatedAt) := by
    intro i
    have hi := hrel i
    generalize F.get i = x, G.get i = y at hi
    cases hi with
    | none => rfl
    | some h => exact h.updatedAt
  simp only [recentFirst, htime]

include hF hG hscope

theorem selected_forall₂ : List.Forall₂ (SameToActor actor) (selectedFeatures scope actor F)
    (selectedFeatures scope actor G) := by
  have hselect : F.select (isSelected scope actor) = G.select (isSelected scope actor) := by
    refine hrel.select_eq fun i f g hf hg h => ?_
    unfold isSelected
    rw [← h.requested]
    cases hreq : isRequested scope actor f with
    | false => rfl
    | true => exact h.inView_eq (hF i f hf) (hG i g hg) hreq hscope
  unfold selectedFeatures
  rw [hselect, recentFirst_eq hrel]
  exact hrel.forall₂_filterMap _

theorem respond_eq (env : Env) : respond env scope actor (selectedFeatures scope actor F) =
    respond env scope actor (selectedFeatures scope actor G) := by
  have hall := selected_forall₂ hrel hF hG hscope
  have hitems : mapItems scope actor (selectedFeatures scope actor F) =
      mapItems scope actor (selectedFeatures scope actor G) := by
    unfold mapItems
    generalize selectedFeatures scope actor F = fs, selectedFeatures scope actor G = gs at hall
    induction hall with
    | nil => rfl
    | cons h _ ih => rw [List.filterMap_cons, List.filterMap_cons, h.item, ih]
  unfold respond
  rw [hitems, hall.length_eq]

end Selection

/-- A feature of another resident's report, or derived from one, at `p`. -/
def hiddenFeature (scope : MapScope) (layer : MapLayer) (p : Point) (id : Id) : MapFeature :=
  { incidentId := scope.incidentId
    kind := layer.kind
    sourceRef := id
    title := ""
    status := .blindSpot .opened
    severity := .medium
    position := some ⟨p, p⟩
    revision := 1
    isDeleted := false
    publicData := []
    privateData := [("resident_report_derived", .bool true)]
    updatedAt := scope.updatedAfter.elim 0 (· + 1) }

/-- One more of them than the map shows. -/
def crowd (scope : MapScope) (layer : MapLayer) (limit : ℕ) (p : Point) : Table MapFeature :=
  ⟨(List.range (limit + 1)).map (hiddenFeature scope layer p)⟩

section Crowds
variable {layer : MapLayer} {limit : ℕ} {p p' : Point}

theorem get_crowd_some {i : Id} (h : (crowd scope layer limit p).get i = some f) :
    f = hiddenFeature scope layer p i := by
  simp only [crowd, Table.get, List.getElem?_map, Option.map_eq_some_iff] at h
  obtain ⟨j, hj, rfl⟩ := h
  rw [List.getElem?_eq_some_iff] at hj
  obtain ⟨hi, rfl⟩ := hj
  simp

theorem crowd_legal (hp : p.Legal) : (crowd scope layer limit p).All fun _ f => f.Legal := by
  intro i f hf c hc system
  rw [get_crowd_some hf] at hc
  obtain rfl := Option.some.inj hc
  cases system <;> exact hp

theorem hiddenFeature_unseen (hres : actor.isResident = true) (hlayer : layer ≠ .fragments ∧ layer ≠ .facts)
    (i : Id) : seesExactly (hiddenFeature scope layer p i) actor = false := by
  obtain ⟨hfragments, hfacts⟩ := hlayer
  cases layer with
  | fragments => exact absurd rfl hfragments
  | facts => exact absurd rfl hfacts
  | reports =>
    have hnone : Dict.get [("resident_report_derived", .bool true)] "owner_device_id" = none := rfl
    simp [seesExactly, isOwnerReport, hiddenFeature, MapLayer.kind, hres, hnone]
  | conflicts | blindSpots =>
    simp [seesExactly, isResidentReportDerived, hiddenFeature, MapLayer.kind, hres, Dict.get, Json.isTrue]

theorem crowd_related (hres : actor.isResident = true)
    (hlayer : layer ≠ .fragments ∧ layer ≠ .facts) (hcell : p.round3 = p'.round3) :
    (crowd scope layer limit p).Related (SameToActor actor) (crowd scope layer limit p') := by
  have hsame : ∀ i, SameToActor actor (hiddenFeature scope layer p i) (hiddenFeature scope layer p' i) :=
    fun i =>
      { rest := rfl
        exact := fun h => nomatch (hiddenFeature_unseen hres hlayer i).symm.trans h
        cell := fun system => by cases system <;> exact congrArg some hcell }
  intro i
  simp only [crowd, Table.get, List.getElem?_map]
  cases (List.range (limit + 1))[i]? with
  | none => exact .none
  | some j => exact .some (hsame j)

theorem isSelected_crowd (hlayer : layer ∈ scope.layers ∧ layer ≠ .fragments ∧ layer ≠ .facts) (i : Id) :
    isSelected scope actor (hiddenFeature scope layer p i) =
      scope.bbox.all fun b => b.contains p := by
  have hreq : isRequested scope actor (hiddenFeature scope layer p i) = true := by
    have hkind : layer.kind ≠ .fact := by
      cases layer <;> simp [MapLayer.kind] at hlayer ⊢
    have htime : scope.updatedAfter.all (fun t => decide (t < scope.updatedAfter.elim 0 (· + 1))) = true := by
      cases scope.updatedAfter with
      | none => rfl
      | some t => simp
    have hmem : (scope.layers.map (·.kind)).contains layer.kind = true :=
      List.contains_iff_mem.mpr (List.mem_map_of_mem hlayer.1)
    simp only [isRequested, hiddenFeature, hmem]
    simp [hkind]
    exact htime
  unfold isSelected
  rw [hreq]
  cases hs : scope.system <;> simp [inView, hiddenFeature, NormalizedCoordinates.at, hs]

theorem length_selectedFeatures :
    (selectedFeatures scope actor F).length = (F.select (isSelected scope actor)).length := by
  unfold selectedFeatures
  rw [List.filterMap_length_eq_length.mpr]
  · exact List.length_insertionSort _ _
  · intro i hi
    obtain ⟨f, hf, -⟩ := Table.mem_select.mp (List.mem_insertionSort _ |>.mp hi)
    exact hf ▸ rfl

theorem length_crowd (hlayer : layer ∈ scope.layers ∧ layer ≠ .fragments ∧ layer ≠ .facts) :
    (selectedFeatures scope actor (crowd scope layer limit p)).length =
      if scope.bbox.all (fun b => b.contains p) then limit + 1 else 0 := by
  rw [length_selectedFeatures]
  have hall : ∀ i ∈ List.range (limit + 1),
      ((crowd scope layer limit p).get i).any (isSelected scope actor) =
        scope.bbox.all fun b => b.contains p := by
    intro i hi
    have hi := List.mem_range.mp hi
    have hget : (crowd scope layer limit p).get i = some (hiddenFeature scope layer p i) := by
      simp [crowd, Table.get, hi]
    rw [hget]
    exact isSelected_crowd hlayer i
  have hsize : (crowd scope layer limit p).size = limit + 1 := by simp [crowd, Table.size]
  unfold Table.select
  rw [hsize, List.filter_congr hall]
  split_ifs with h <;> simp [h]

theorem respond_crowded {env : Env} {selected : List MapFeature} (scope : MapScope) (actor : Actor)
    (h : min env.settings.mapMaxPoints 500 < selected.length) :
    (∃ e, respond env scope actor selected = .error e ∧ e.code = "MAP_VIEW_TOO_LARGE") := by
  unfold respond
  simp only [require, if_neg h.not_ge]
  exact ⟨_, rfl, rfl⟩

theorem respond_empty {env : Env} {e : ApiError} (h : respond env scope actor [] = .error e) :
    e.code = "INVALID_COORDINATES" := by
  unfold respond validateCoordinates at h
  simp only [require, List.length_nil, Nat.zero_le, if_true] at h
  split_ifs at h with hc
  · cases h
  · exact (Except.error.inj h) ▸ rfl

end Crowds

end Views

theorem mapView_of_scope {env : Env} {incidents : Table Incident} {features : Table MapFeature}
    {actor : Actor} {header : Option Ref} {incidentId : Ref} {q : MapQuery} {scope : MapScope}
    (h : mapScope env.settings incidents actor header incidentId q = .ok scope) :
    mapView env incidents features actor header incidentId q =
      respond env scope actor (selectedFeatures scope actor features) := by
  unfold mapView
  rw [h]
  rfl

/-- For a resident and a query, the map shows the same items whatever hidden positions are
behind the published cells, exactly when the query is refused, has no box or an aligned one, or
asks only for layers without hidden positions. -/
theorem resident_map_reveals_only_cells_iff (env : Env) (incidents : Table Incident) (actor : Actor)
    (header : Option Ref) (incidentId : Ref) (q : MapQuery) (hres : actor.isResident = true) :
    (∀ F G : Table MapFeature, (F.All fun _ f => f.Legal) → (G.All fun _ g => g.Legal) →
        F.Related (SameToActor actor) G →
        (mapView env incidents F actor header incidentId q).map (·.items) =
          (mapView env incidents G actor header incidentId q).map (·.items)) ↔
      ∀ scope, mapScope env.settings incidents actor header incidentId q = .ok scope →
        scope.KeepsCells := by
  constructor
  · intro hsame scope hscope
    by_contra hcuts
    simp only [MapScope.KeepsCells, not_or, not_forall] at hcuts
    obtain ⟨⟨b, hb, hcut⟩, layer, hlayer, hkind⟩ := hcuts
    obtain ⟨p, p', hp, hp', hcell, hin, hout⟩ := BoundingBox.exists_split hcut
    obtain ⟨limit, hlimit⟩ : ∃ limit, limit = min env.settings.mapMaxPoints 500 := ⟨_, rfl⟩
    have heq := hsame (crowd scope layer limit p) (crowd scope layer limit p') (crowd_legal hp)
      (crowd_legal hp') (crowd_related hres hkind hcell)
    have hcrowded : min env.settings.mapMaxPoints 500 <
        (selectedFeatures scope actor (crowd scope layer limit p)).length := by
      rw [length_crowd ⟨hlayer, hkind⟩, hb, Option.all_some, hin, if_pos rfl, hlimit]
      exact Nat.lt_succ_self _
    have hempty : selectedFeatures scope actor (crowd scope layer limit p') = [] := by
      rw [← List.length_eq_zero_iff, length_crowd ⟨hlayer, hkind⟩, hb, Option.all_some, hout]
      rfl
    obtain ⟨e, he, hcode⟩ := respond_crowded scope actor hcrowded
    rw [mapView_of_scope hscope, mapView_of_scope hscope, he, hempty] at heq
    cases hr : respond env scope actor [] with
    | ok response => exact nomatch hr ▸ heq
    | error e' =>
      rw [hr] at heq
      obtain rfl : e = e' := Except.error.inj heq
      exact absurd (hcode.symm.trans (respond_empty hr)) (by decide)
  · intro hscope F G hF hG hrel
    cases h : mapScope env.settings incidents actor header incidentId q with
    | error e =>
      unfold mapView
      rw [h]
      rfl
    | ok scope =>
      rw [mapView_of_scope h, mapView_of_scope h, respond_eq hrel hF hG (hscope scope h) env]

/-- A resident asks for the part of the map east of `west`. -/
def eastOf (west : ℚ) : MapQuery := ⟨some [some west, some 29, some 11, some 31], "wgs84", none, none, none⟩

/-- Two places of one cell, thirty metres apart. -/
def westPlace : Point := ⟨30, 10.0001⟩
def eastPlace : Point := ⟨30, 10.0004⟩

/-- The report of another resident at `p`. -/
def reportAt (p : Point) : Table MapFeature :=
  crowd ⟨0, Sample.incident, .wgs84, none, none, MapLayer.all, none⟩ .reports 0 p

theorem westReport_legal : (reportAt westPlace).All fun _ f => f.Legal :=
  crowd_legal (by norm_num [Point.Legal, westPlace])

theorem eastReport_legal : (reportAt eastPlace).All fun _ f => f.Legal :=
  crowd_legal (by norm_num [Point.Legal, eastPlace])

theorem reports_sameToResident :
    (reportAt westPlace).Related (SameToActor Sample.resident) (reportAt eastPlace) :=
  crowd_related rfl (by decide) (by decide +kernel)

def shownWhole (features : Table MapFeature) : Result (List Dict) :=
  (mapView Sample.env ⟨[Sample.incident]⟩ features Sample.resident none (.id 0)
    ⟨none, "wgs84", none, none, none⟩).map (·.items)

theorem whole_map_reveals_only_cells :
    shownWhole (reportAt westPlace) = shownWhole (reportAt eastPlace) :=
  (resident_map_reveals_only_cells_iff Sample.env ⟨[Sample.incident]⟩ Sample.resident none (.id 0)
    ⟨none, "wgs84", none, none, none⟩ rfl).mpr
    (fun scope hscope => by
      obtain rfl : _ = scope := Except.ok.inj hscope
      exact Or.inl fun b hb => nomatch hb)
    _ _ westReport_legal eastReport_legal reports_sameToResident

def shownEastOf (west : ℚ) (features : Table MapFeature) : Result (List Dict) :=
  (mapView Sample.env ⟨[Sample.incident]⟩ features Sample.resident none (.id 0) (eastOf west)).map (·.items)

/-- The box that starts between the two places tells them apart. -/
theorem box_reveals_place_in_cell : ∃ F G : Table MapFeature,
    (F.All fun _ f => f.Legal) ∧ (G.All fun _ g => g.Legal) ∧
      F.Related (SameToActor Sample.resident) G ∧ shownEastOf 10.0002 F ≠ shownEastOf 10.0002 G := by
  refine ⟨reportAt westPlace, reportAt eastPlace, westReport_legal, eastReport_legal,
    reports_sameToResident, fun h => ?_⟩
  have hwest : (shownEastOf 10.0002 (reportAt westPlace)).toOption.map (·.length) = some 0 := by
    decide +kernel
  have heast : (shownEastOf 10.0002 (reportAt eastPlace)).toOption.map (·.length) = some 1 := by
    decide +kernel
  rw [h, heast] at hwest
  exact nomatch hwest

end CrisisMosaic
