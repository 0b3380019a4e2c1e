import CrisisMosaic.ProjectedSteps

/-!
# Reports and the map

Whatever a report operation changes is projected again: its blind spots as they are saved, the
fragments of a detected contradiction with their case, a case that lost evidence and the
fragments it frees.
-/

namespace CrisisMosaic
open Relational Originals

/-- The map shows the blind spots of the board and the rows beside it. -/
def SpotBoard.Shown (b : SpotBoard) (fragments : Table InformationFragment)
    (cases : Table ConflictCase) : Prop :=
  ShownBut ⟨fragments, cases, b.spots⟩ ∅ b.features

namespace SpotBoard.Shown
variable {env : Env} {now : Time} {b : SpotBoard} {fragments : Table InformationFragment}
  {cases : Table ConflictCase} {id i : Id} {old spot : BlindSpot}

theorem save (h : b.Shown fragments cases) (hget : b.spots.get id = some old)
    (hi : spot.incidentId = old.incidentId) : (b.save env now id spot).Shown fragments cases := by
  obtain ⟨new, hnew⟩ : ∃ s, s = { spot with revision := spot.revision + 1, updatedAt := now } := ⟨_, rfl⟩
  have hmodified := ShownBut.spot_replaced (T := {new.key id}) h hget
    (show new.incidentId = old.incidentId from hnew ▸ hi) (Set.empty_subset _) rfl
  have hrow : (b.spots.modify id fun _ => new).get id = some new := by simp [hget]
  unfold SpotBoard.save
  rw [← hnew]
  exact ShownBut.mono (hmodified.spot hrow) fun _ hk => hk.2 hk.1

theorem retire (h : b.Shown fragments cases) (hget : b.spots.get id = some old)
    (hi : spot.incidentId = old.incidentId) : (b.retire now id spot).Shown fragments cases := by
  obtain ⟨new, hnew⟩ : ∃ s, s = { spot with revision := spot.revision + 1, updatedAt := now } := ⟨_, rfl⟩
  have hmodified := ShownBut.spot_replaced (T := {new.key id}) h hget
    (show new.incidentId = old.incidentId from hnew ▸ hi) (Set.empty_subset _) rfl
  have hrow : (b.spots.modify id fun _ => new).get id = some new := by simp [hget]
  unfold SpotBoard.retire
  rw [← hnew]
  exact ShownBut.mono (hmodified.hideSpot hrow) fun _ hk => hk.2 hk.1

theorem add (h : b.Shown fragments cases) (spot : BlindSpot) :
    (b.add env now spot).Shown fragments cases := by
  have hinserted : ShownBut ⟨fragments, cases, b.spots.insert spot⟩ ∅ b.features :=
    ShownBut.spots_changed h subset_rfl fun _ c hc =>
      ⟨c, Table.get_insert_of_some spot hc, rfl, Or.inr ⟨rfl, rfl⟩⟩
  exact ShownBut.mono (hinserted.spot (Table.get_insert_size _ _)) fun _ hk => hk.1

theorem announce (h : b.Shown fragments cases) (i id : Id) (eventType : String)
    (payload : BlindSpot → Dict) : (b.announce now i id eventType payload).Shown fragments cases := by
  unfold SpotBoard.announce
  split <;> exact h

section Automatic
variable {reports : Table Report} {rows : Table InformationFragment} {fragmentId : Id}
  {f : InformationFragment}

theorem resolveAutomaticBlindSpots (h : b.Shown fragments cases) (conflicted : Bool) :
    (resolveAutomaticBlindSpots env now i fragmentId f conflicted b).Shown fragments cases := by
  unfold CrisisMosaic.resolveAutomaticBlindSpots
  split_ifs
  · apply List.foldlRecOn (motive := fun b => SpotBoard.Shown b fragments cases) _ _ h
    intro c hc id _
    unfold resolveSpot
    split
    · next spot hspot =>
      split_ifs
      · apply announce
        exact hc.save hspot rfl
      · exact hc
    · exact hc
  · exact h

theorem replaceResolver {c : SpotBoard} {reason : String} (h : b.Shown fragments cases)
    (hspot : b.spots.get id = some spot)
    (hc : replaceResolver env now i reports rows b id fragmentId spot reason = some c) :
    c.Shown fragments cases := by
  unfold CrisisMosaic.replaceResolver at hc
  split at hc
  · obtain rfl := Option.some.inj hc
    exact h.save hspot rfl
  · split_ifs at hc
    obtain rfl := Option.some.inj hc
    apply announce
    exact h.save hspot rfl

theorem replaceOrigin (h : b.Shown fragments cases) (hspot : b.spots.get id = some spot)
    (reason : String) :
    (replaceOrigin env now i reports rows b id fragmentId f spot reason).Shown fragments cases := by
  unfold CrisisMosaic.replaceOrigin
  dsimp only
  split_ifs
  · exact h
  · exact h.save hspot rfl
  · split
    · exact h.save hspot rfl
    · apply announce
      exact h.retire hspot rfl

theorem deactivateAutomaticBlindSpots (h : b.Shown fragments cases) (reason : String) :
    (deactivateAutomaticBlindSpots env now i reports rows fragmentId f reason b).Shown fragments
      cases := by
  apply List.foldlRecOn (motive := fun b => SpotBoard.Shown b fragments cases) _ _ h
  intro c hc id _
  unfold deactivateSpot
  cases hspot : c.spots.get id with
  | none => exact hc
  | some spot =>
    dsimp only
    split_ifs with hskip hres horig
    · exact hc
    · split
      · next hd => exact hc.replaceResolver hspot hd
      · exact hc.replaceOrigin hspot reason
    · split
      · next hd => exact hc.replaceResolver hspot hd
      · exact hc
    · exact hc.replaceOrigin hspot reason
    · exact hc

theorem runReportBlindSpotDetection (h : b.Shown fragments cases) (fragmentId revision : ℕ)
    (dueAt : Option Time) (grace : Option ℕ) :
    (runReportBlindSpotDetection env now reports rows b i fragmentId revision dueAt grace).Shown
      fragments cases := by
  unfold CrisisMosaic.runReportBlindSpotDetection
  split
  · exact h
  split
  · exact h
  dsimp only
  split_ifs
  · exact h
  split
  · next id spot hfind =>
    split_ifs
    · exact h
    · apply announce
      exact h.save (Table.find_some hfind).1 rfl
  · exact (h.add _).announce i _ _ _

end Automatic
end SpotBoard.Shown

/-- The map shows every row it projects. -/
def Db.Shown (db : Db) : Prop := db.toStore.ShownBut db.blindSpots ∅

namespace Db.Shown
variable {env : Env} {now : Time} {db db' : Db} {actor : Actor} {header : Option Ref}
  {detection : Option Detection} {id i : Id} {r : Report}

theorem spotBoard (h : db.Shown) : db.spotBoard.Shown db.fragments db.cases := h

theorem withSpotBoard {b : SpotBoard} (h : b.Shown db.fragments db.cases) :
    (db.withSpotBoard b).Shown := h

/-- The map and what it shows are the same. -/
theorem same (h : db.Shown) (hfeatures : db'.features = db.features)
    (hfragments : db'.fragments = db.fragments) (hcases : db'.cases = db.cases)
    (hspots : db'.blindSpots = db.blindSpots) : db'.Shown := by
  unfold Db.Shown Store.ShownBut Store.originals
  rw [hfeatures, hfragments, hcases, hspots]
  exact h

section Reports

theorem upsertReportFragment (h : db.Shown) (env : Env) (now : Time) (id : Id) (r : Report) :
    { db with fragments := (upsertReportFragment env now db.fragments id r).fragments }.Shown := by
  rcases upsertReportFragment_cases env now db.fragments id r with
    ⟨g, -, hu, -⟩ | ⟨k, f, hf, hreport, ⟨hu, -⟩ | ⟨g, -, hu⟩⟩ <;> rw [hu]
  · exact Store.ShownBut.insertFragment h g
  · exact h
  · apply Store.ShownBut.modifyFragment h subset_rfl (f := fun _ => g)
    intro e he hres
    obtain rfl := Option.some.inj (hf.symm.trans he)
    exact absurd (isReportFragment_iff.mp hreport).2.1 hres

theorem scheduleBlindSpot (h : db.Shown) (k : Id) (f : InformationFragment) :
    (scheduleBlindSpot env now db i k f).Shown := by
  unfold CrisisMosaic.scheduleBlindSpot
  dsimp only
  split_ifs
  · exact withSpotBoard (h.spotBoard.runReportBlindSpotDetection k _ _ _)
  · exact h
  · exact h

theorem beforeDetection (h : db.Shown) (env : Env) (now : Time) (i id : Id) (r : Report) :
    (beforeDetection env now db i (CrisisMosaic.upsertReportFragment env now db.fragments id r)).Shown := by
  have hupsert := h.upsertReportFragment env now id r
  unfold CrisisMosaic.beforeDetection
  dsimp only
  split_ifs
  · apply scheduleBlindSpot
    exact withSpotBoard (hupsert.spotBoard.deactivateAutomaticBlindSpots _)
  · exact scheduleBlindSpot hupsert _ _

theorem settleObservation {s : Store} {spots : Table BlindSpot} {sources : Sources} {k : Id}
    {f : InformationFragment} (h : s.ShownBut spots ∅) (created : Bool) (withdrawn : List Withdrawal)
    (hd : detectStructuredFragmentConflict env now sources s k f = .ok detection) :
    (settleObservation env now s i k created withdrawn detection).ShownBut spots ∅ := by
  unfold CrisisMosaic.settleObservation
  cases detection with
  | none => exact (h.publishFragment k _).reconcileConflicts withdrawn _
  | some d =>
    obtain ⟨call, -, hcall⟩ := detect_ok hd
    have hok := (callFindOrOpen_ok hcall).2.2
    have hexact := findOrOpen_exact hok
    obtain ⟨hafter, x, hx, hi⟩ := h.findOrOpen (T := {⟨call.incidentId, .conflict, d.conflictId⟩} ∪
        {key | ∃ k ∈ call.fragments, ∃ f, s.fragments.get k = some f ∧
          f.sourceType ≠ .residentReport ∧ key = f.key k}) hok (Set.empty_subset _) (Or.inl rfl)
      fun k hk f hf hres => Or.inr (Or.inr ⟨k, hk, f, hf, hres, rfl⟩)
    obtain ⟨p, hp⟩ : ∃ p, p = publishFragment env now d.after i k
      (if created then "fragment.created" else "fragment.updated") := ⟨_, rfl⟩
    have hquiet : d.after.Quiet p := hp ▸ publishFragment_quiet env now d.after i k _
    have hshown : p.ShownBut spots _ := hp ▸ hafter.publishFragment k _
    have hxp : p.cases.get d.conflictId = some x := hquiet.cases ▸ hx
    dsimp only [Option.map_some, Option.getD_some]
    rw [← hp]
    apply Store.ShownBut.reconcileConflicts
    apply Store.ShownBut.publishDetected hxp
    apply hshown.mono
    rintro key (rfl | ⟨j, hj, g, hg, hres, rfl⟩)
    · exact Or.inl (by rw [ConflictCase.key, hi]; rfl)
    · obtain ⟨e, he, hcontent, -⟩ := hexact.fragments.right_of_some hg
      refine Or.inr ⟨j, e, hquiet.fragments ▸ he, by rwa [hcontent], ?_, by rw [hcontent]; rfl⟩
      exact hquiet.evidence ▸ (hexact.cites _ _).mpr (Or.inr ⟨rfl, hj⟩)

theorem processReportObservation (h : db.Shown)
    (hok : processReportObservation env now db id r = .ok (db', detection)) : db'.Shown := by
  rw [processReportObservation_eq] at hok
  dsimp only at hok
  have hbefore := h.beforeDetection env now r.incidentId id r
  split_ifs at hok
  · obtain ⟨rfl, -⟩ := Prod.mk.inj (pure_ok.mp hok)
    exact hbefore
  · simp only [bind_ok, pure_ok, Prod.mk.injEq] at hok
    obtain ⟨d, hd, rfl, -⟩ := hok
    apply withSpotBoard
    apply SpotBoard.Shown.resolveAutomaticBlindSpots
    apply spotBoard
    exact settleObservation hbefore _ _ hd

theorem deactivateReportObservation (h : db.Shown) (reason : String) :
    (deactivateReportObservation env now db id r reason).Shown := by
  unfold CrisisMosaic.deactivateReportObservation
  dsimp only
  split
  · exact h
  · next k f hfind =>
    have hsame : (withdrawFragment now f).incidentId = f.incidentId ∧
        (withdrawFragment now f).sourceType = f.sourceType := by
      unfold withdrawFragment
      split_ifs <;> exact ⟨rfl, rfl⟩
    have hwithdrawn : Db.Shown { db with
        fragments := db.fragments.modify k fun _ => withdrawFragment now f
        features := upsertFragmentMapFeature env now db.features k (withdrawFragment now f) } :=
      Store.ShownBut.replaceFragment h (Table.find_some hfind).1 hsame.1 hsame.2
    apply Store.ShownBut.reconcileConflicts
    exact withSpotBoard (hwithdrawn.spotBoard.deactivateAutomaticBlindSpots reason)

theorem projectReport (h : db.Shown) (now : Time) (id : Id) (r : Report) :
    (db.projectReport now id r).Shown :=
  Originals.ShownBut.report h now id r

theorem announceReport (h : db.Shown) (now : Time) (actor : Actor) (id : Id) (r : Report)
    (tombstone : Dict) (eventType : String) (payload : Dict) :
    (((db.recordRevision now actor id r tombstone).projectReport now id r).emitReport now id r
      eventType payload).Shown := by
  have hrecorded : (db.recordRevision now actor id r tombstone).Shown := h
  exact (hrecorded.projectReport now id r).same rfl rfl rfl rfl

theorem createReport {payload : ReportCreate} {refinement : Result (Option Priority)}
    {contact : Result Unit} (h : db.Shown)
    (hok : createReport env now db i actor payload refinement contact = .ok (db', id, r)) :
    db'.Shown := by
  simp only [CrisisMosaic.createReport, bind_ok, pure_ok, Prod.exists, Prod.mk.injEq] at hok
  obtain ⟨-, -, ai, -, -, -, a, -, attachments, b, -, rfl, rfl, rfl⟩ := hok
  apply projectReport
  exact h.same rfl rfl rfl rfl

theorem postReport {incidentId : Ref} {payload : ReportCreate} {refinement : Result (Option Priority)}
    {contact : Result Unit} (h : db.Shown)
    (hok : postReport env now db actor header incidentId payload refinement contact
      = .ok (db', detection)) : db'.Shown := by
  simp only [CrisisMosaic.postReport, bind_ok, Prod.exists] at hok
  obtain ⟨i, incident, -, -, -, m, id, r, hm, hok⟩ := hok
  have hcreated : (m.emitReport now id r "report.created" (reportData m.attachments id r)).Shown :=
    (h.createReport hm).same rfl rfl rfl rfl
  exact hcreated.processReportObservation hok

theorem patchReport {payload : ReportPatch} {refinement : Result (Option Priority)} (h : db.Shown)
    (hok : patchReport env now db actor header id payload refinement = .ok (db', detection)) :
    db'.Shown := by
  simp only [CrisisMosaic.patchReport, bind_ok, Prod.exists] at hok
  obtain ⟨-, -, r, -, -, -, -, -, a, -, -, -, attachments, b, -, ai, -, hok⟩ := hok
  obtain ⟨c, hc⟩ : ∃ c, c = (b.prioritise b.manualPriority ai).touch now := ⟨_, rfl⟩
  rw [← hc] at hok
  have hstored : (Db.storeReport { db with
      attachments := attachments
      contacts := payload.recontact db.contacts c } id c).Shown := h.same rfl rfl rfl rfl
  split_ifs at hok
  · exact (hstored.announceReport now actor id c _ _ _).processReportObservation hok
  · obtain ⟨rfl, -⟩ := Prod.mk.inj (pure_ok.mp hok)
    exact hstored.announceReport now actor id c _ _ _

theorem deleteReport {revision : ℕ} (h : db.Shown)
    (hok : deleteReport env now db actor header id revision = .ok db') : db'.Shown := by
  simp only [CrisisMosaic.deleteReport, getReport, bind_ok, found_ok, pure_ok] at hok
  obtain ⟨-, -, r, -, -, -, -, -, -, -, rfl⟩ := hok
  obtain ⟨c, hc⟩ : ∃ c, c = { r with deletedAt := some now }.touch now := ⟨_, rfl⟩
  rw [← hc]
  have hstored : (db.storeReport id c).Shown := h.same rfl rfl rfl rfl
  exact (hstored.deactivateReportObservation _).announceReport now actor id c _ _ _

theorem patchReportStatus {revision : ℕ} {status : ReportStatus} (h : db.Shown)
    (hok : patchReportStatus env now db actor header id revision status = .ok (db', detection)) :
    db'.Shown := by
  simp only [CrisisMosaic.patchReportStatus, bind_ok, require_ok] at hok
  obtain ⟨-, -, r, -, -, -, -, -, -, -, hok⟩ := hok
  obtain ⟨c, hc⟩ : ∃ c, c = { r with status := status }.touch now := ⟨_, rfl⟩
  rw [← hc] at hok
  have hstored : (db.storeReport id c).Shown := h.same rfl rfl rfl rfl
  split_ifs at hok
  · obtain ⟨rfl, -⟩ := Prod.mk.inj (pure_ok.mp hok)
    exact (hstored.deactivateReportObservation _).announceReport now actor id c _ _ _
  · simp only [bind_ok, Prod.exists, pure_ok, Prod.mk.injEq] at hok
    obtain ⟨m, d, hm, rfl, -⟩ := hok
    exact (hstored.processReportObservation hm).announceReport now actor id c _ _ _
  · obtain ⟨rfl, -⟩ := Prod.mk.inj (pure_ok.mp hok)
    exact hstored.announceReport now actor id c _ _ _

theorem patchReportPriority {revision : ℕ} {priority : Option Priority}
    {refinement : Result (Option Priority)} (h : db.Shown)
    (hok : patchReportPriority now db actor header id revision priority refinement = .ok db') :
    db'.Shown := by
  simp only [CrisisMosaic.patchReportPriority, bind_ok, pure_ok] at hok
  obtain ⟨-, -, r, -, -, -, ai, -, rfl⟩ := hok
  obtain ⟨c, hc⟩ : ∃ c, c = ({ r with manualPriority := priority }.prioritise priority ai).touch now :=
    ⟨_, rfl⟩
  rw [← hc]
  have hstored : (db.storeReport id c).Shown := h.same rfl rfl rfl rfl
  exact hstored.announceReport now actor id c _ _ _

end Reports
end Db.Shown
end CrisisMosaic
