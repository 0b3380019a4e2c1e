import CrisisMosaic.MapView
import CrisisMosaic.Reachable

/-!
# Facts on the map

Each fact has one feature. It is published while the fact is public and current,
unless a decision publishes a fact that it leaves under review. A statement on a
resident's map is then one the fact endpoint would give to the resident too.
-/

namespace CrisisMosaic
open Relational Store

/-- What a feature shows of its fact: nothing while the fact is closed to residents, and its
current statement otherwise. -/
inductive Shows (facts : Facts) (r : FactRecord) (f : MapFeature) : Prop
  | hidden : f.publicData = [] → r.isOpen = false → Shows facts r f
  | stated {v : FactVersion} : r.isOpen = true → facts.currentVersion r = some v →
      f.publicData.get "statement" = some (.str v.statement) → Shows facts r f

structure FactsShown (facts : Facts) (features : Table MapFeature) : Prop where
  listed : ∀ i f, features.get i = some f → f.kind = .fact →
    ∃ r, facts.records.get f.sourceRef = some r ∧ r.incidentId = f.incidentId
  unique : ∀ i j f g, features.get i = some f → features.get j = some g → f.kind = .fact →
    g.kind = .fact → f.sourceRef = g.sourceRef → i = j
  projected : ∀ id r, facts.records.get id = some r →
    ∃ i f, features.get i = some f ∧ f.kind = .fact ∧ f.sourceRef = id
  agrees : ∀ i f r, features.get i = some f → f.kind = .fact →
    facts.records.get f.sourceRef = some r → Shows facts r f
  unstated : features.All fun _ f => f.kind ≠ .fact → f.publicData.get "statement" = none

namespace FactsShown
variable {facts : Facts} {features features' : Table MapFeature}

theorem silent (h : FactsShown facts features) (hf : FactSilent features features') :
    FactsShown facts features' where
  listed := fun i f hi hk => h.listed i f ((hf.fact i f hk).mpr hi) hk
  unique := fun i j f g hi hj hfk hgk =>
    h.unique i j f g ((hf.fact i f hfk).mpr hi) ((hf.fact j g hgk).mpr hj) hfk hgk
  projected := fun id r hr =>
    let ⟨i, f, hi, hk, hs⟩ := h.projected id r hr
    ⟨i, f, (hf.fact i f hk).mp hi, hk, hs⟩
  agrees := fun i f r hi hk hr => h.agrees i f r ((hf.fact i f hk).mpr hi) hk hr
  unstated := hf.unstated h.unstated

/-- The feature of a fact is the one found for it. -/
theorem first_feature (h : FactsShown facts features) {id : Id} {r : FactRecord}
    (hr : facts.records.get id = some r) : ∃ i f,
      features.first (MapFeature.isFor r.incidentId .fact id) = some i ∧
      features.get i = some f ∧ f.kind = .fact ∧ f.sourceRef = id ∧ f.incidentId = r.incidentId := by
  obtain ⟨i, f, hi, hk, rfl⟩ := h.projected id r hr
  obtain ⟨r', hr', hinc⟩ := h.listed i f hi hk
  obtain rfl := Option.some.inj (hr.symm.trans hr')
  cases hfirst : features.first (MapFeature.isFor r.incidentId .fact f.sourceRef) with
  | none =>
    have hno := Table.first_none hfirst hi
    rw [MapFeature.isFor_iff.mpr ⟨hinc.symm, hk, rfl⟩] at hno
    exact nomatch hno
  | some j =>
    obtain ⟨g, hg, hp⟩ := Table.first_some hfirst
    obtain ⟨hgi, hgk, hgs⟩ := MapFeature.isFor_iff.mp hp
    exact ⟨j, g, rfl, hg, hgk, hgs, hgi⟩

/-- The record `id` gets a version and its feature is rewritten; nothing else changes. -/
theorem rewrite (h : FactsShown facts features) {facts' : Facts} {i : Id} {f : MapFeature}
    {id : Id} {r : FactRecord} (hi : features.get i = some f)
    (hk : f.kind = .fact) (hs : f.sourceRef = id) {update : MapFeature → MapFeature}
    (hupdate : (update f).kind = .fact ∧ (update f).sourceRef = id ∧ (update f).incidentId = r.incidentId)
    {r' : FactRecord} (hr' : facts'.records.get id = some r') (hinc : r'.incidentId = r.incidentId)
    (hrest : ∀ j s, j ≠ id → (facts'.records.get j = some s ↔ facts.records.get j = some s))
    (hversions : ∀ j s, j ≠ id → facts.records.get j = some s →
      facts'.currentVersion s = facts.currentVersion s)
    (hshows : Shows facts' r' (update f)) : FactsShown facts' (features.modify i update) := by
  obtain ⟨hk', hs', hi'⟩ := hupdate
  have hcases : ∀ j g, (features.modify i update).get j = some g → g.kind = .fact →
      (i = j ∧ g = update f) ∨ (i ≠ j ∧ g.sourceRef ≠ id ∧ features.get j = some g) := by
    intro j g hg hgk
    rcases Table.get_modify_cases hg with ⟨rfl, f', hf', rfl⟩ | ⟨hne, hg⟩
    · exact Or.inl ⟨rfl, Option.some.inj (hi.symm.trans hf') ▸ rfl⟩
    · exact Or.inr ⟨hne, fun he => hne (h.unique i j f g hi hg hk hgk (hs.trans he.symm)), hg⟩
  exact
    { listed := by
        intro j g hg hgk
        rcases hcases j g hg hgk with ⟨rfl, rfl⟩ | ⟨-, hne, hg⟩
        · exact ⟨r', hs'.symm ▸ hr', hinc.trans hi'.symm⟩
        · obtain ⟨s, hget, hsi⟩ := h.listed j g hg hgk
          exact ⟨s, (hrest _ s hne).mpr hget, hsi⟩
      unique := by
        intro j l g g' hg hg' hgk hgk' heq
        rcases hcases j g hg hgk with ⟨rfl, rfl⟩ | ⟨-, hne, hg⟩ <;>
          rcases hcases l g' hg' hgk' with ⟨rfl, rfl⟩ | ⟨-, hne', hg'⟩
        · rfl
        · exact absurd (heq.symm.trans hs') hne'
        · exact absurd (heq.trans hs') hne
        · exact h.unique j l g g' hg hg' hgk hgk' heq
      projected := by
        intro j s hj
        by_cases hjd : j = id
        · exact ⟨i, update f, by simp [hi], hk', hs'.trans hjd.symm⟩
        · obtain ⟨l, g, hg, hgk, hgs⟩ := h.projected j s ((hrest j s hjd).mp hj)
          have hl : i ≠ l := by
            rintro rfl
            obtain rfl := Option.some.inj (hi.symm.trans hg)
            exact hjd (hgs.symm.trans hs)
          exact ⟨l, g, by rwa [Table.get_modify_of_ne _ _ hl], hgk, hgs⟩
      agrees := by
        intro j g s hg hgk hget
        rcases hcases j g hg hgk with ⟨rfl, rfl⟩ | ⟨-, hne, hg⟩
        · obtain rfl := Option.some.inj (hr'.symm.trans (hs' ▸ hget))
          exact hshows
        · have hget' := (hrest _ s hne).mp hget
          cases h.agrees j g s hg hgk hget' with
          | hidden hp ho => exact .hidden hp ho
          | stated ho hv hp => exact .stated ho ((hversions _ s hne hget').trans hv) hp
      unstated := h.unstated.modify fun g hg _ hgk => by
        obtain rfl := Option.some.inj (hi.symm.trans hg)
        exact absurd hk' hgk }

/-- A new fact gets a feature of its own. -/
theorem publish (h : FactsShown facts features) {facts' : Facts} {id : Id} {r : FactRecord}
    {f : MapFeature} (hnew : facts.records.get id = none) (hr : facts'.records.get id = some r)
    (hk : f.kind = .fact) (hs : f.sourceRef = id) (hinc : f.incidentId = r.incidentId)
    (hrest : ∀ j s, j ≠ id → (facts'.records.get j = some s ↔ facts.records.get j = some s))
    (hversions : ∀ j s, j ≠ id → facts.records.get j = some s →
      facts'.currentVersion s = facts.currentVersion s)
    (hshows : Shows facts' r f) : FactsShown facts' (features.insert f) := by
  have hold : ∀ j g, features.get j = some g → g.kind = .fact → g.sourceRef ≠ id := by
    rintro j g hg hgk rfl
    obtain ⟨s, hget, -⟩ := h.listed j g hg hgk
    exact nomatch hnew.symm.trans hget
  exact
    { listed := by
        intro j g hg hgk
        rcases Table.get_insert_cases hg with ⟨-, rfl⟩ | hg
        · exact ⟨r, hs.symm ▸ hr, hinc.symm⟩
        · obtain ⟨s, hget, hsi⟩ := h.listed j g hg hgk
          exact ⟨s, (hrest _ s (hold j g hg hgk)).mpr hget, hsi⟩
      unique := by
        intro j l g g' hg hg' hgk hgk' heq
        rcases Table.get_insert_cases hg with ⟨rfl, rfl⟩ | hold₁ <;>
          rcases Table.get_insert_cases hg' with ⟨rfl, rfl⟩ | hold₂
        · rfl
        · exact absurd (heq.symm.trans hs) (hold l g' hold₂ hgk')
        · exact absurd (heq.trans hs) (hold j g hold₁ hgk)
        · exact h.unique j l g g' hold₁ hold₂ hgk hgk' heq
      projected := by
        intro j s hj
        by_cases hjd : j = id
        · exact ⟨_, f, Table.get_insert_size _ _, hk, hs.trans hjd.symm⟩
        · obtain ⟨l, g, hg, hgk, hgs⟩ := h.projected j s ((hrest j s hjd).mp hj)
          exact ⟨l, g, Table.get_insert_of_some f hg, hgk, hgs⟩
      agrees := by
        intro j g s hg hgk hget
        rcases Table.get_insert_cases hg with ⟨rfl, rfl⟩ | hg
        · obtain rfl := Option.some.inj (hr.symm.trans (hs ▸ hget))
          exact hshows
        · have hne := hold j g hg hgk
          have hget' := (hrest _ s hne).mp hget
          cases h.agrees j g s hg hgk hget' with
          | hidden hp ho => exact .hidden hp ho
          | stated ho hv hp => exact .stated ho ((hversions _ s hne hget').trans hv) hp
      unstated := h.unstated.insert fun hgk => absurd hk hgk }

/-- A review withdraws the statement and closes the fact. -/
theorem reviewed {a b : FactBoard} (h : FactsShown a.facts a.features) (hwf : a.facts.WellFormed)
    (hb : FactBoard.Reviewed a b) : FactsShown b.facts b.features := by
  induction hb with
  | refl => exact h
  | silent _ hf ih => exact ih.silent hf
  | @review b now conflictId conflict reason id record hab hl _ ih =>
    obtain ⟨hr, hinc, -⟩ := Facts.lookup_some hl
    obtain ⟨i, f, hfirst, hi, hk, hs, hfi⟩ := ih.first_feature hr
    rw [hinc] at hfirst
    obtain ⟨update, hupdate, hsame, hhidden⟩ : ∃ update : MapFeature → MapFeature,
        reviewFactFeature now b.features conflict.incidentId id (record.currentRevision + 1) =
          b.features.modify i update ∧ ((update f).kind = f.kind ∧
          (update f).sourceRef = f.sourceRef ∧ (update f).incidentId = f.incidentId) ∧
          (update f).publicData = [] := by
      unfold reviewFactFeature
      rw [hfirst]
      exact ⟨_, rfl, ⟨rfl, rfl, rfl⟩, rfl⟩
    have hwfb := hab.wellFormed hwf
    simp only [FactBoard.review, hupdate]
    refine ih.rewrite hi hk hs ⟨hsame.1.trans hk, hsame.2.1.trans hs, hsame.2.2.trans hfi⟩
      (Facts.get_appendRecord_self now _ hr) rfl (fun j s hj => ?_)
      (fun j s hj hget => hwfb.appendVersion_currentVersion now _ hr hget hj.symm)
      (.hidden hhidden rfl)
    rw [Facts.get_appendRecord_of_ne now _ hj]

end FactsShown

section Steps
variable {env : Env} {db : Db} {op : Op} {o : Outcome}

theorem Decision.factsShown {now : Time} {s t : Store} {id : Id} {payload : DecisionRequest}
    {x : ConflictCase} {ready : Facts} {factId : Id} {record : FactRecord} {draft : VersionDraft}
    (h : Decision env now s t id payload x ready factId record draft) (hwf : s.facts.WellFormed)
    (hs : FactsShown s.facts s.features)
    (hvisible : payload.isPublic = true → payload.factStatus.1 = .current) :
    FactsShown t.facts t.features := by
  obtain ⟨features, hsilent, hfeatures⟩ := h.features
  have hs := hs.silent hsilent
  have hnew : t.facts.records.get factId = some (ready.mirror now record draft record) := by
    rw [h.facts]
    exact Facts.get_appendRecord_self now draft h.fact.stored
  have hrest : ∀ j r, j ≠ factId → (t.facts.records.get j = some r ↔ s.facts.records.get j = some r) := by
    intro j r hj
    rw [h.facts, Facts.get_appendRecord_of_ne now draft hj]
    exact h.fact.others j r hj
  have hversions : ∀ j r, j ≠ factId → s.facts.records.get j = some r →
      t.facts.currentVersion r = s.facts.currentVersion r := by
    intro j r hj hget
    rcases h.record_cases hwf ((hrest j r hj).mpr hget) with ⟨he, -⟩ | ⟨-, -, hsame⟩
    · exact absurd he hj
    · exact hsame
  generalize hr : ready.mirror now record draft record = r at hnew
  obtain ⟨-, v, hv, hwrites⟩ | ⟨hne, -⟩ := h.record_cases hwf hnew
  swap
  · exact absurd rfl hne
  have hshows : ∀ f : MapFeature, f.publicData = (if payload.isPublic then factFeatureData factId
      x.factKey payload.conclusion (record.currentRevision + 1) id else []) → Shows t.facts r f := by
    intro f hf
    cases hpub : payload.isPublic with
    | false =>
      rw [hpub] at hf
      exact .hidden hf (by simp [FactRecord.isOpen, hwrites.isPublic, hpub])
    | true =>
      rw [hpub] at hf
      refine .stated ?_ hv ?_
      · simp [FactRecord.isOpen, hwrites.isPublic, hpub, hwrites.status, hvisible hpub]
      · rw [hf, hwrites.statement]
        rfl
  rw [hfeatures]
  unfold publishFactFeature
  rcases h.fact.former with hnone | hsome
  · have hfirst : features.first (MapFeature.isFor x.incidentId .fact factId) = none := by
      by_contra hne
      obtain ⟨i, hi⟩ := Option.ne_none_iff_exists'.mp hne
      obtain ⟨g, hg, hp⟩ := Table.first_some hi
      obtain ⟨-, hgk, rfl⟩ := MapFeature.isFor_iff.mp hp
      obtain ⟨s, hget, -⟩ := hs.listed i g hg hgk
      exact nomatch hnone.symm.trans hget
    simp only [decidedFeature, hfirst]
    exact hs.publish hnone hnew rfl rfl hwrites.incident.symm hrest hversions (hshows _ rfl)
  · obtain ⟨i, f, hfirst, hi, hk, hsrc, hfi⟩ := hs.first_feature hsome
    rw [h.fact.key.1] at hfirst hfi
    simp only [decidedFeature, hfirst]
    exact hs.rewrite hi hk hsrc ⟨rfl, rfl, h.fact.key.1.symm⟩ hnew (hwrites.incident.trans h.fact.key.1.symm)
      hrest hversions (hshows _ rfl)

/-- No decision publishes a fact that it leaves under review. -/
def PublishesOnlyCurrent (env : Env) (db : Db) (op : Op) : Prop :=
  ∀ id payload o, transact env db op = .ok o → op.decides db id payload →
    payload.isPublic = true → payload.factStatus.1 = .current

theorem Restated.factsShown {b t : Store} {id : Id} {status : CaseStatus} (h : Restated b t id status)
    (hb : FactsShown b.facts b.features) : FactsShown t.facts t.features :=
  h.facts ▸ hb.silent h.features

theorem Effect.factsShown (h : Effect env db op o) (hs : db.toStore.Sound)
    (hi : FactsShown db.facts db.features)
    (hvisible : ∀ id payload, op.decides db id payload → payload.isPublic = true →
      payload.factStatus.1 = .current) : FactsShown o.db.facts o.db.features := by
  cases h with
  | worked hw _ _ _ => exact FactsShown.reviewed (a := db.toStore.board) hi hs.facts hw.board
  | decided hop hd _ _ => exact hd.factsShown hs.facts hi (hvisible _ _ hop)
  | requested _ hr _ _ =>
    obtain ⟨status, -, hrestate⟩ := hr.status
    exact hrestate.factsShown hi
  | analysed ha _ _ =>
    cases ha with
    | quiet k => exact k.facts ▸ hi.silent k.features
    | answered _ _ _ _ _ hr _ => exact hr.factsShown hi
    | released _ _ hr _ => exact hr.factsShown hi

theorem step_factsShown (env : Env) (db : Db) (op : Op) (hs : db.toStore.Sound)
    (hi : FactsShown db.facts db.features) (hop : PublishesOnlyCurrent env db op) :
    FactsShown (step env db op).facts (step env db op).features :=
  step_cases (P := fun t : Db => FactsShown t.facts t.features) hi fun o ho =>
    (transact_effect ho hs).factsShown ⟨hs.facts, hs.upToDate, hs.withdrawn⟩ hi
      fun id payload hd => hop id payload o ho hd

end Steps

section View
variable {env : Env} {incidents : Table Incident} {features : Table MapFeature} {actor : Actor}
  {header : Option Ref} {incidentId : Ref} {q : MapQuery} {response : MapResponse}

theorem mem_selectedFeatures {scope : MapScope} {f : MapFeature} :
    f ∈ selectedFeatures scope actor features ↔
      ∃ i, features.get i = some f ∧ isSelected scope actor f = true := by
  simp only [selectedFeatures, recentFirst, List.mem_filterMap, List.mem_insertionSort,
    Table.mem_select]
  constructor
  · rintro ⟨i, ⟨g, hg, hsel⟩, hf⟩
    obtain rfl := Option.some.inj (hg.symm.trans hf)
    exact ⟨i, hg, hsel⟩
  · rintro ⟨i, hf, hsel⟩
    exact ⟨i, ⟨f, hf, hsel⟩, hf⟩

/-- Where the items of an answer come from. -/
theorem mapView_items (h : mapView env incidents features actor header incidentId q = .ok response)
    {item : Dict} (hitem : item ∈ response.items) : ∃ i f p, features.get i = some f ∧
      f.incidentId ∈ actor.incidentIds ∧ item = mapItem f actor p := by
  simp only [mapView, bind_ok] at h
  obtain ⟨scope, hscope, h⟩ := h
  have haccess : scope.incidentId ∈ actor.incidentIds := by
    simp only [mapScope, assertIncidentAccess, bind_ok, require_ok, pure_ok, Prod.exists] at hscope
    obtain ⟨-, -, -, -, -, -, -, -, i, incident, -, -, ⟨-, -, hmem⟩, -, -, rfl⟩ := hscope
    exact hmem
  simp only [respond, bind_ok, pure_ok, Prod.exists] at h
  obtain ⟨-, -, lat, lon, -, rfl⟩ := h
  simp only [mapItems, List.mem_filterMap, Option.map_eq_some_iff, mem_selectedFeatures] at hitem
  obtain ⟨f, ⟨i, hf, hsel⟩, c, -, rfl⟩ := hitem
  simp only [isSelected, isRequested, Bool.and_eq_true, decide_eq_true_eq] at hsel
  refine ⟨i, f, c.at scope.system, hf, ?_, rfl⟩
  rw [hsel.1.1.1.1.1.1]
  exact haccess

theorem Dict.get_filter_some {d : Dict} (p : String × Json → Bool) {k : String} {v : Json}
    (h : Dict.get (d.filter p) k = some v) (hp : ∀ w, p (k, w) = true) : d.get k = some v := by
  induction d with
  | nil => exact h
  | cons e d ih =>
    obtain ⟨k', w⟩ := e
    by_cases hk : k = k'
    · subst hk
      simpa [Dict.get, List.filter_cons, hp, List.lookup_cons] using h
    · have hk' : (k == k') = false := by simpa using hk
      have hskip : Dict.get ((k', w) :: d) k = Dict.get d k := by
        simp [Dict.get, List.lookup_cons, hk']
      rw [hskip]
      apply ih
      by_cases hpe : p (k', w) = true
      · simpa [Dict.get, List.filter_cons, hpe, List.lookup_cons, hk'] using h
      · simpa [Dict.get, List.filter_cons, hpe] using h

/-- The statement of a resident's item is the published one. -/
theorem mapItem_statement {f : MapFeature} {p : Point} {v : Json} (hres : actor.isResident = true)
    (h : (mapItem f actor p).get "statement" = some v) : f.publicData.get "statement" = some v := by
  have hdata : (visibleData f actor).get "statement" = some v := h
  simp only [visibleData, hres, if_true, Bool.true_and] at hdata
  have hshown := Dict.get_filter_some (fun e => publicMapFields.contains e.1) hdata fun _ => by
    simp [publicMapFields]
  split_ifs at hshown
  · exact Dict.get_filter_some (fun e => decide (e.1 ≠ "location_text")) hshown fun _ => by simp
  · exact hshown

end View

section Runs
variable (env : Env) (incidents : Table Incident) (devices : Table AnonymousDevice)
  (attachments : Table Attachment)

theorem reached_factsShown {ops : List Op}
    (hops : Along (step env) (PublishesOnlyCurrent env) (Db.initial incidents devices attachments)
      ops) :
    FactsShown (reached env incidents devices attachments ops).facts
      (reached env incidents devices attachments ops).features := by
  refine (run_invariant (step env) (I := fun t : Db => t.toStore.Sound ∧ FactsShown t.facts t.features)
    (fun t op ht hop => ⟨step_sound env t op ht.1, step_factsShown env t op ht.1 ht.2 hop⟩)
    ⟨initial_sound incidents devices attachments, ?_⟩ hops).2
  exact
    { listed := fun _ _ h => nomatch (Table.get_empty _).symm.trans h
      unique := fun _ _ _ _ h => nomatch (Table.get_empty _).symm.trans h
      projected := fun _ _ h => nomatch (Table.get_empty _).symm.trans h
      agrees := fun _ _ _ h => nomatch (Table.get_empty _).symm.trans h
      unstated := fun _ _ h => nomatch (Table.get_empty _).symm.trans h }

end Runs

/-- In a run whose decisions publish only what they leave current, the projection publishes
exactly the facts that residents may read, and a statement a resident sees on the map is the
current statement of a fact that the fact endpoint gives to the resident. -/
theorem statements_on_map_are_readable (env : Env) (incidents : Table Incident)
    (devices : Table AnonymousDevice) (attachments : Table Attachment) (ops : List Op)
    (hops : Along (step env) (PublishesOnlyCurrent env) (Db.initial incidents devices attachments)
      ops) :
    let s := reached env incidents devices attachments ops
    (∀ i f r, s.features.get i = some f → f.kind = .fact →
        s.facts.records.get f.sourceRef = some r →
        (f.publicData.isEmpty = false ↔ r.isOpen = true)) ∧
      ∀ (actor : Actor) header incidentId q response item v, actor.isResident = true →
        mapView env s.feed.incidents s.features actor header incidentId q = .ok response →
        item ∈ response.items → item.get "statement" = some v →
        ∃ id r version, item.get "source_ref" = some (.ref id) ∧
          s.facts.records.get id = some r ∧ r.isOpen = true ∧
          s.facts.currentVersion r = some version ∧ v = .str version.statement ∧
          ∀ system, ∃ data, getFactRecord env.math s.toStore actor none id system = .ok data := by
  intro s
  have hinv := reached_factsShown env incidents devices attachments hops
  refine ⟨fun i f r hf hk hr => ?_, ?_⟩
  · cases hinv.agrees i f r hf hk hr with
    | hidden hp ho => simp [hp, ho]
    | stated ho _ hp =>
      refine iff_of_true ?_ ho
      cases hd : f.publicData with
      | nil => simp [hd, Dict.get] at hp
      | cons => rfl
  · intro actor header incidentId q response item v hres hview hitem hstatement
    obtain ⟨i, f, p, hf, haccess, rfl⟩ := mapView_items hview hitem
    have hpublic := mapItem_statement hres hstatement
    have hk : f.kind = .fact := by
      by_contra hne
      exact nomatch (hinv.unstated i f hf hne).symm.trans hpublic
    obtain ⟨r, hr, hinc⟩ := hinv.listed i f hf hk
    cases hinv.agrees i f r hf hk hr with
    | hidden hp _ => simp [hp, Dict.get] at hpublic
    | @stated version ho hv hp =>
      refine ⟨f.sourceRef, r, version, rfl, hr, ho, hv, Option.some.inj (hpublic.symm.trans hp),
        fun system => ⟨factData env.math s.toStore f.sourceRef r system !actor.isResident, ?_⟩⟩
      simp only [getFactRecord, bind_ok, found_ok, require_ok, pure_ok]
      refine ⟨r, hr, ⟨⟩, ?_, ⟨⟩, fun _ => ho, rfl⟩
      simp [ensureIncidentAccess, Ref.isIn, hinc, haccess]

/-- A resident's map once the case of the small deployment is decided. -/
def decidedMap (status : {s : FactStatus // s = .current ∨ s = .underReview}) : Result MapResponse :=
  let s := Sample.reached (Sample.decided status)
  mapView Sample.env s.feed.incidents s.features Sample.resident none (.id 0)
    ⟨none, "wgs84", none, none, none⟩

theorem decided_fact_is_readable : ∃ response item v id data,
    decidedMap ⟨.current, Or.inl rfl⟩ = .ok response ∧ item ∈ response.items ∧
      item.get "statement" = some v ∧ item.get "source_ref" = some (.ref id) ∧
      getFactRecord Sample.env.math (Sample.reached (Sample.decided ⟨.current, Or.inl rfl⟩)).toStore
        Sample.resident none id .wgs84 = .ok data := by
  obtain ⟨response, hview, h⟩ := ok_of_any
    (show (decidedMap ⟨.current, Or.inl rfl⟩).toOption.any (fun response =>
      response.items.any fun item => (item.get "statement").isSome) = true by decide +kernel)
  obtain ⟨item, hitem, h⟩ := List.any_eq_true.mp h
  obtain ⟨v, hv⟩ := Option.isSome_iff_exists.mp h
  have hops : Along (step Sample.env) (PublishesOnlyCurrent Sample.env) Sample.initial
      (Sample.decided ⟨.current, Or.inl rfl⟩) := by
    refine ⟨fun _ _ _ _ h => h.elim, fun _ _ _ _ h => h.elim, fun _ _ _ _ h => h.elim, ?_, trivial⟩
    rintro _ _ _ _ ⟨rfl, -⟩ -
    rfl
  obtain ⟨id, -, -, hsrc, -, -, -, -, hdata⟩ := (statements_on_map_are_readable _ _ _ _ _ hops).2
    Sample.resident none _ _ response item v rfl hview hitem hv
  obtain ⟨data, hdata⟩ := hdata .wgs84
  exact ⟨response, item, v, id, data, hview, hitem, hv, hsrc, hdata⟩

theorem fact_under_review_is_on_map : ∃ response item,
    decidedMap ⟨.underReview, Or.inr rfl⟩ = .ok response ∧ item ∈ response.items ∧
      (item.get "statement").isSome = true ∧ (item.get "source_ref").any (Json.isRef 0) = true ∧
      ∀ data, getFactRecord Sample.env.math
        (Sample.reached (Sample.decided ⟨.underReview, Or.inr rfl⟩)).toStore Sample.resident none 0 .wgs84 ≠
          .ok data := by
  obtain ⟨response, hview, h⟩ := ok_of_any
    (show (decidedMap ⟨.underReview, Or.inr rfl⟩).toOption.any (fun response =>
      response.items.any fun item => (item.get "statement").isSome &&
        (item.get "source_ref").any (Json.isRef 0)) = true by decide +kernel)
  obtain ⟨item, hitem, h⟩ := List.any_eq_true.mp h
  obtain ⟨hstatement, hsrc⟩ := Bool.and_eq_true_iff.mp h
  refine ⟨response, item, hview, hitem, hstatement, hsrc, fun data hdata => ?_⟩
  have hnone : (getFactRecord Sample.env.math
      (Sample.reached (Sample.decided ⟨.underReview, Or.inr rfl⟩)).toStore Sample.resident none 0
      .wgs84).toOption.isSome = false := by decide +kernel
  exact nomatch (congrArg (fun x => x.toOption.isSome) hdata).symm.trans hnone

end CrisisMosaic
