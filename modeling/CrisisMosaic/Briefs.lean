import CrisisMosaic.Conflicts
import CrisisMosaic.Relational.WriteBack

/-!
# Command briefs and the data revision

A command brief is made from one data revision of its incident. `Feed.transact` is
what a transaction with events makes of the feed: `emitEvent` counts on the incident
rows the session holds, and the counters it changed are written at the commit. If
every fresh brief was made from the present revision before, so it is afterwards.
-/

namespace CrisisMosaic
open Relational

def AiAnalysis.isFreshBrief (a : AiAnalysis) : Bool :=
  a.analysisType = .commandBrief && a.status = .succeeded && !a.isStale

/-- The counters of an incident, as a session that held `loaded` writes them. -/
def Incident.save (loaded value stored : Incident) : Incident :=
  { stored with
    eventSequence := written loaded.eventSequence value.eventSequence stored.eventSequence
    dataRevision := written loaded.dataRevision value.dataRevision stored.dataRevision
    mapRevision := written loaded.mapRevision value.mapRevision stored.mapRevision }

namespace Feed

def emitEvents (feed : Feed) (now : Time) (events : List (Id × Event)) : Feed :=
  events.foldl (fun feed e => feed.emitEvent now e.1 e.2) feed

/-- A transaction that emits the events on the incident rows its session holds. -/
def transact (feed : Feed) (now : Time) (loaded : Table Incident) (events : List (Id × Event)) :
    Feed :=
  let view := { feed.begin with incidents := loaded }.emitEvents now events
  { view with incidents := Table.writeBack Incident.save loaded view.incidents feed.incidents }

def BriefsCurrent (feed : Feed) : Prop :=
  ∀ k a, feed.analyses.get k = some a → a.isFreshBrief = true →
    ∀ i, feed.incidents.get a.incidentId = some i → a.inputVersion = i.dataRevision

end Feed

/-- Marking an analysis stale writes these columns only. -/
def AiAnalysis.Stales (a b : AiAnalysis) : Prop :=
  b = { a with isStale := b.isStale, staleAt := b.staleAt, staleReason := b.staleReason } ∧
    (a.isStale = true → b.isStale = true)

namespace AiAnalysis.Stales
variable {a b c : AiAnalysis}

theorem refl (a : AiAnalysis) : a.Stales a := ⟨rfl, id⟩

theorem trans (h : a.Stales b) (k : b.Stales c) : a.Stales c := by
  refine ⟨?_, fun ha => k.2 (h.2 ha)⟩
  rw [k.1, h.1]

theorem marked (a : AiAnalysis) (now : Option Time) (reason : Option String) :
    a.Stales { a with isStale := true, staleAt := now, staleReason := reason } :=
  ⟨rfl, fun _ => rfl⟩

end AiAnalysis.Stales

namespace Feed

section Staling

theorem staleBriefs_stales (feed : Feed) (now : Time) (incidentId : Id) (reason : String) :
    feed.analyses.Related AiAnalysis.Stales (feed.staleBriefs now incidentId reason).analyses := by
  unfold staleBriefs
  generalize feed.analyses.select _ = ids
  induction ids generalizing feed with
  | nil => exact Table.Related.refl .refl _
  | cons id ids ih =>
    have hone : feed.analyses.Related AiAnalysis.Stales
        (feed.staleBrief now incidentId reason id).analyses :=
      Table.Related.modify .refl _ fun a _ => .marked a _ _
    exact hone.trans (fun _ _ _ => .trans) (ih _)

theorem emitEvent_stales (feed : Feed) (now : Time) (incidentId : Id) (e : Event) :
    feed.analyses.Related AiAnalysis.Stales (feed.emitEvent now incidentId e).analyses := by
  have hcounted : (((feed.append now incidentId e).touchData incidentId e.resourceType).touchMap
      incidentId e.resourceType).analyses = feed.analyses := by
    unfold touchMap touchData
    split_ifs <;> rfl
  unfold emitEvent
  dsimp only
  rw [← hcounted]
  split_ifs
  · exact staleBriefs_stales _ now incidentId _
  · exact Table.Related.refl .refl _
  · exact staleBriefs_stales _ now incidentId _
  · exact Table.Related.refl .refl _

theorem transact_stales (feed : Feed) (now : Time) (loaded : Table Incident)
    (events : List (Id × Event)) :
    feed.analyses.Related AiAnalysis.Stales (feed.transact now loaded events).analyses := by
  suffices h : ∀ g : Feed, g.analyses.Related AiAnalysis.Stales (g.emitEvents now events).analyses from
    h { feed.begin with incidents := loaded }
  unfold emitEvents
  induction events with
  | nil => exact fun g => Table.Related.refl .refl _
  | cons e events ih =>
    intro g
    exact (emitEvent_stales g now e.1 e.2).trans (fun _ _ _ => .trans) (ih _)

theorem markAnalysesStale_stales (feed : Feed) (now : Time) (conflictId incidentId : Id)
    (reason : String) : feed.analyses.Related AiAnalysis.Stales
      (feed.markAnalysesStale now conflictId incidentId reason).analyses := by
  intro k
  rw [markAnalysesStale, Table.get_sweep]
  cases feed.analyses.get k with
  | none => exact .none
  | some a =>
    rw [Option.map_some]
    split_ifs
    · exact .some (.marked a _ _)
    · exact .some (.refl a)

end Staling

/-- Every fresh brief of the incident was made from the revision. -/
def BriefsMatch (feed : Feed) (incidentId : Id) (revision : ℕ) : Prop :=
  ∀ k a, feed.analyses.get k = some a → a.isFreshBrief = true → a.incidentId = incidentId →
    a.inputVersion = revision

/-- What a session has made of the analyses it found and of the incidents it loaded: where it
has counted a change of the data, only briefs of the new revision are still fresh. The briefs
of the incident `bumped` have yet to be looked through. -/
structure TracksBriefs (loaded : Table Incident) (found : Table AiAnalysis) (bumped : Option Id)
    (feed : Feed) : Prop where
  kept : ∀ k a, feed.analyses.get k = some a → a.isFreshBrief = true → found.get k = some a
  counted : ∀ id i, feed.incidents.get id = some i → ∃ l, loaded.get id = some l ∧
    ((i.dataRevision = l.dataRevision ∧ feed.dataMarker ≠ some id) ∨
      (l.dataRevision < i.dataRevision ∧ (bumped = some id ∨ feed.BriefsMatch id i.dataRevision)))

/-- The incidents have the data revisions they had. -/
def SameRevisions (a b : Feed) : Prop :=
  a.incidents.Related (fun i j => j.dataRevision = i.dataRevision) b.incidents

theorem SameRevisions.refl (a : Feed) : a.SameRevisions a :=
  Table.Related.refl (R := fun i j : Incident => j.dataRevision = i.dataRevision) (fun _ => rfl) _

/-- Counting an event or a change of the map leaves every data revision. -/
theorem sameRevisions_modify {a b : Feed} {incidentId : Id} {f : Incident → Incident}
    (hb : b.incidents = a.incidents.modify incidentId f)
    (hf : ∀ i, (f i).dataRevision = i.dataRevision) : a.SameRevisions b := by
  unfold SameRevisions
  rw [hb]
  exact Table.Related.modify (R := fun i j : Incident => j.dataRevision = i.dataRevision)
    (fun _ => rfl) a.incidents fun i _ => hf i

/-- Fewer fresh briefs, the same marker and the same data revisions. -/
structure FewerBriefs (a b : Feed) : Prop where
  fresh : ∀ k x, b.analyses.get k = some x → x.isFreshBrief = true → a.analyses.get k = some x
  revisions : a.SameRevisions b
  marker : b.dataMarker = a.dataMarker

namespace FewerBriefs
variable {a b c : Feed}

theorem refl (a : Feed) : a.FewerBriefs a :=
  ⟨fun _ _ h _ => h, .refl a, rfl⟩

theorem trans (h : a.FewerBriefs b) (k : b.FewerBriefs c) : a.FewerBriefs c := by
  refine ⟨fun i x hx hfresh => h.fresh i x (k.fresh i x hx hfresh) hfresh, ?_,
    k.marker.trans h.marker⟩
  exact Table.Related.trans (fun _ _ _ hij hjk => hjk.trans hij) h.revisions k.revisions

theorem briefsMatch (h : a.FewerBriefs b) {id : Id} {revision : ℕ} (hm : a.BriefsMatch id revision) :
    b.BriefsMatch id revision :=
  fun k x hx hfresh => hm k x (h.fresh k x hx hfresh) hfresh

theorem dataRevision (h : a.FewerBriefs b) (id : Id) : b.dataRevision id = a.dataRevision id := by
  have hid := h.revisions id
  unfold Feed.dataRevision
  generalize a.incidents.get id = x, b.incidents.get id = y at hid
  cases hid with
  | none => rfl
  | some hij => exact hij

end FewerBriefs

section Counting
variable {loaded : Table Incident} {found : Table AiAnalysis} {bumped : Option Id} {feed g : Feed}

theorem append_fewerBriefs (feed : Feed) (now : Time) (incidentId : Id) (e : Event) :
    feed.FewerBriefs (feed.append now incidentId e) :=
  ⟨fun _ _ h _ => h, sameRevisions_modify rfl fun _ => rfl, rfl⟩

theorem touchMap_fewerBriefs (feed : Feed) (incidentId : Id) (resource : ResourceType) :
    feed.FewerBriefs (feed.touchMap incidentId resource) := by
  unfold touchMap
  split
  · exact ⟨fun _ _ h _ => h, sameRevisions_modify rfl fun _ => rfl, rfl⟩
  · exact .refl feed

theorem staleBrief_fewerBriefs (feed : Feed) (now : Time) (incidentId : Id) (reason : String)
    (id : Id) : feed.FewerBriefs (feed.staleBrief now incidentId reason id) := by
  refine ⟨fun k x hx hfresh => ?_, sameRevisions_modify rfl fun _ => rfl, rfl⟩
  simp only [staleBrief, append] at hx
  rcases Table.get_modify_cases hx with ⟨-, a, -, rfl⟩ | ⟨-, hx⟩
  · simp [AiAnalysis.isFreshBrief] at hfresh
  · exact hx

/-- The briefs that are looked through are stale afterwards. -/
theorem staleBriefs_fold (now : Time) (incidentId : Id) (reason : String) (ids : List Id)
    (feed : Feed) :
    feed.FewerBriefs (ids.foldl (fun g id => g.staleBrief now incidentId reason id) feed) ∧
    ∀ k ∈ ids, ∀ x, (ids.foldl (fun g id => g.staleBrief now incidentId reason id)
      feed).analyses.get k = some x → x.isFreshBrief = false := by
  induction ids generalizing feed with
  | nil => exact ⟨.refl feed, fun k hk => absurd hk List.not_mem_nil⟩
  | cons id ids ih =>
    obtain ⟨hrest, hstale⟩ := ih (feed.staleBrief now incidentId reason id)
    refine ⟨(staleBrief_fewerBriefs feed now incidentId reason id).trans hrest, ?_⟩
    intro k hk x hx
    rcases List.mem_cons.mp hk with rfl | hk
    · by_contra hfresh
      have hone := hrest.fresh k x hx (by simpa using hfresh)
      simp only [staleBrief, append] at hone
      rcases Table.get_modify_cases hone with ⟨-, a, -, rfl⟩ | ⟨hne, -⟩
      · simp [AiAnalysis.isFreshBrief] at hfresh
      · exact hne rfl
    · exact hstale k hk x hx

theorem staleBriefs_fewerBriefs (feed : Feed) (now : Time) (incidentId : Id) (reason : String) :
    feed.FewerBriefs (feed.staleBriefs now incidentId reason) :=
  (staleBriefs_fold now incidentId reason _ feed).1

theorem staleBriefs_match (feed : Feed) (now : Time) (incidentId : Id) (reason : String) :
    (feed.staleBriefs now incidentId reason).BriefsMatch incidentId (feed.dataRevision incidentId) := by
  intro k x hx hfresh hincident
  by_contra hne
  have hmem : k ∈ feed.analyses.select (isCurrentBrief incidentId (feed.dataRevision incidentId)) := by
    refine Table.mem_select.mpr
      ⟨x, (staleBriefs_fewerBriefs feed now incidentId reason).fresh k x hx hfresh, ?_⟩
    simp only [AiAnalysis.isFreshBrief, Bool.and_eq_true, decide_eq_true_eq] at hfresh
    simp [isCurrentBrief, hincident, hfresh, hne]
  have hstale := (staleBriefs_fold now incidentId reason _ feed).2 k hmem x hx
  exact Bool.false_ne_true (hstale.symm.trans hfresh)

theorem TracksBriefs.mono (h : TracksBriefs loaded found bumped feed) (k : feed.FewerBriefs g) :
    TracksBriefs loaded found bumped g := by
  refine ⟨fun i x hx hfresh => h.kept i x (k.fresh i x hx hfresh) hfresh, ?_⟩
  intro id j hj
  obtain ⟨i, hi, hij⟩ := k.revisions.left_of_some hj
  obtain ⟨l, hl, hcases⟩ := h.counted id i hi
  refine ⟨l, hl, ?_⟩
  rw [hij, k.marker]
  apply hcases.imp_right
  exact fun hgrown => ⟨hgrown.1, hgrown.2.imp_right k.briefsMatch⟩

/-- The first change of the data in a transaction takes the incident to a revision no brief was
made from. -/
theorem TracksBriefs.touchData (h : TracksBriefs loaded found none feed) (incidentId : Id)
    (resource : ResourceType) (hdata : resource.dataAffecting = true) :
    TracksBriefs loaded found (some incidentId) (feed.touchData incidentId resource) := by
  by_cases hmarker : feed.dataMarker = some incidentId
  · have hsame : feed.touchData incidentId resource = feed := by simp [Feed.touchData, hmarker]
    rw [hsame]
    refine ⟨h.kept, fun id i hi => ?_⟩
    obtain ⟨l, hl, hcases⟩ := h.counted id i hi
    exact ⟨l, hl, hcases.imp_right fun hgrown =>
      ⟨hgrown.1, Or.inr (hgrown.2.resolve_left nofun)⟩⟩
  · have hbump : feed.touchData incidentId resource = feed.bumpData incidentId := by
      simp [Feed.touchData, hmarker, hdata]
    rw [hbump]
    refine ⟨h.kept, fun id j hj => ?_⟩
    rcases Table.get_modify_cases hj with ⟨rfl, i, hi, rfl⟩ | ⟨hne, hi⟩
    · obtain ⟨l, hl, hcases⟩ := h.counted _ i hi
      refine ⟨l, hl, Or.inr ⟨?_, Or.inl rfl⟩⟩
      have hle : l.dataRevision ≤ i.dataRevision := by
        rcases hcases with ⟨heq, -⟩ | ⟨hlt, -⟩
        · exact heq.ge
        · exact hlt.le
      exact Nat.lt_succ_of_le hle
    · obtain ⟨l, hl, hcases⟩ := h.counted id j hi
      refine ⟨l, hl, hcases.imp (fun hsame => ⟨hsame.1, ?_⟩) fun hgrown =>
        ⟨hgrown.1, Or.inr (hgrown.2.resolve_left nofun)⟩⟩
      exact fun heq => hne (Option.some.inj heq)

theorem TracksBriefs.staleBriefs {incidentId : Id} (h : TracksBriefs loaded found (some incidentId) feed)
    (now : Time) (reason : String) :
    TracksBriefs loaded found none (feed.staleBriefs now incidentId reason) := by
  have hless := staleBriefs_fewerBriefs feed now incidentId reason
  have hmatch := staleBriefs_match feed now incidentId reason
  obtain ⟨hkept, hcounted⟩ := h.mono hless
  refine ⟨hkept, fun id i hi => ?_⟩
  obtain ⟨l, hl, hcases⟩ := hcounted id i hi
  refine ⟨l, hl, hcases.imp_right fun hgrown => ⟨hgrown.1, Or.inr ?_⟩⟩
  rcases hgrown.2 with heq | hbriefs
  · obtain rfl := Option.some.inj heq
    have hrevision : feed.dataRevision incidentId = i.dataRevision := by
      rw [← hless.dataRevision, Feed.dataRevision, hi]
      rfl
    exact hrevision ▸ hmatch
  · exact hbriefs

theorem TracksBriefs.emitEvent (h : TracksBriefs loaded found none feed) (now : Time) (incidentId : Id)
    (e : Event) : TracksBriefs loaded found none (feed.emitEvent now incidentId e) := by
  have happended := h.mono (append_fewerBriefs feed now incidentId e)
  have hannounce : ∀ g : Feed, TracksBriefs loaded found none g → ∀ b : Bool,
      TracksBriefs loaded found none (if b then g.announceMap now incidentId else g) := by
    intro g hg b
    split
    · exact hg.mono (append_fewerBriefs g now incidentId _)
    · exact hg
  unfold Feed.emitEvent
  apply hannounce
  by_cases hdata : e.resourceType.dataAffecting = true
  · rw [if_pos hdata]
    apply TracksBriefs.staleBriefs
    exact (happended.touchData incidentId _ hdata).mono (touchMap_fewerBriefs _ _ _)
  · have hsame : (feed.append now incidentId e).touchData incidentId e.resourceType =
        feed.append now incidentId e := by simp [Feed.touchData, hdata]
    rw [if_neg hdata, hsame]
    exact happended.mono (touchMap_fewerBriefs _ _ _)

/-- **A transaction leaves the fresh briefs current**, whatever rows its session had loaded. -/
theorem transact_briefsCurrent (hfeed : feed.BriefsCurrent) (now : Time) (loaded : Table Incident)
    (events : List (Id × Event)) : (feed.transact now loaded events).BriefsCurrent := by
  have hrun : ∀ g : Feed, TracksBriefs loaded feed.analyses none g →
      TracksBriefs loaded feed.analyses none (g.emitEvents now events) := by
    unfold emitEvents
    induction events with
    | nil => exact fun g hg => hg
    | cons e events ih => exact fun g hg => ih _ (hg.emitEvent now e.1 e.2)
  have hview := hrun { feed.begin with incidents := loaded }
    ⟨fun _ _ hx _ => hx, fun _ i hi => ⟨i, hi, Or.inl ⟨rfl, nofun⟩⟩⟩
  intro k a ha hfresh t ht
  obtain ⟨s, hs, hcases⟩ := Table.get_writeBack Incident.save ht
  have hbefore := hfeed k a (hview.kept k a ha hfresh) hfresh s hs
  rcases hcases with rfl | ⟨l, v, hl, hv, rfl⟩
  · exact hbefore
  · obtain ⟨l', hl', hcounted⟩ := hview.counted _ v hv
    obtain rfl := Option.some.inj (hl.symm.trans hl')
    rcases hcounted with ⟨heq, -⟩ | ⟨hlt, hbumped | hmatch⟩
    · simpa only [Incident.save, heq, written_unchanged] using hbefore
    · exact nomatch hbumped
    · rw [Incident.save, written_of_ne hlt.ne']
      exact hmatch k a ha hfresh rfl

/-- An event about an analysis changes neither the data nor the map. -/
theorem emitEvent_aiAnalysis (feed : Feed) (now : Time) (incidentId : Id) {e : Event}
    (he : e.resourceType = .aiAnalysis) :
    feed.emitEvent now incidentId e = feed.append now incidentId e := by
  simp [Feed.emitEvent, mapBumps, Feed.touchData, touchMap, ResourceType.dataAffecting,
    ResourceType.mapAffecting, he]

theorem transact_aiAnalysis_analyses (feed : Feed) (now : Time) (loaded : Table Incident)
    (incidentId : Id) {e : Event} (he : e.resourceType = .aiAnalysis) :
    (feed.transact now loaded [(incidentId, e)]).analyses = feed.analyses := by
  simp only [transact, emitEvents, List.foldl_cons, List.foldl_nil]
  rw [emitEvent_aiAnalysis _ now incidentId he]
  rfl

theorem transact_aiAnalysis_revision (feed : Feed) (now : Time) (incidentId : Id) {e : Event}
    (he : e.resourceType = .aiAnalysis) {k : Id} {i : Incident} (hi : feed.incidents.get k = some i) :
    ∃ j, (feed.transact now feed.incidents [(incidentId, e)]).incidents.get k = some j ∧
      j.dataRevision = i.dataRevision := by
  obtain ⟨j, hj⟩ : ∃ j, (feed.transact now feed.incidents [(incidentId, e)]).incidents.get k = some j :=
    Table.get_of_lt ((Table.lt_size hi).trans_eq (Table.size_writeBack _ _ _ _).symm)
  refine ⟨j, hj, ?_⟩
  simp only [transact, emitEvents, List.foldl_cons, List.foldl_nil] at hj
  rw [emitEvent_aiAnalysis _ now incidentId he] at hj
  obtain ⟨s, hs, hcases⟩ := Table.get_writeBack Incident.save hj
  obtain rfl := Option.some.inj (hi.symm.trans hs)
  rcases hcases with rfl | ⟨l, v, hl, hv, rfl⟩
  · rfl
  · obtain rfl := Option.some.inj (hi.symm.trans hl)
    have hv' : v.dataRevision = i.dataRevision := by
      rcases Table.get_modify_cases hv with ⟨-, a, ha, rfl⟩ | ⟨-, ha⟩
      · obtain rfl := Option.some.inj (ha.symm.trans hi)
        rfl
      · obtain rfl := Option.some.inj (ha.symm.trans hi)
        rfl
    simp only [Incident.save, hv', written_loaded]

end Counting
end Feed
end CrisisMosaic
