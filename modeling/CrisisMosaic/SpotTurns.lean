import Mathlib
import CrisisMosaic.BlindSpots

/-!
# Turns of an automatic blind spot

What `_deactivate_automatic_blind_spots`, `_resolve_automatic_blind_spots` and
`run_report_blind_spot_detection` do to each row, read through its status, its
resolution and the two fragments its scope names.
-/

namespace CrisisMosaic
open Relational

theorem nodup_select {α : Type*} (t : Table α) (p : α → Bool) : (t.select p).Nodup :=
  List.nodup_range.filter _

namespace Dict
variable {d : Dict} {k j : String} {v : Json}

theorem get_cons (e : String × Json) (d : Dict) (j : String) :
    get (e :: d) j = if j = e.1 then some e.2 else get d j := by
  rw [get, List.lookup.eq_def]
  by_cases h : j = e.1
  · simp [h]
  · have hj : (j == e.1) = false := by simpa using h
    simp [h, hj, get]

theorem get_map_entry (d : Dict) (k : String) (v : Json) (j : String) :
    get (d.map fun e => if e.1 == k then (k, v) else e) j =
      if j = k then (if d.any fun e => e.1 == k then some v else none) else get d j := by
  induction d with
  | nil => simp [get]
  | cons e d ih =>
    rw [List.map_cons, get_cons, get_cons, ih, List.any_cons]
    by_cases he : e.1 = k
    · subst he
      by_cases hj : j = e.1 <;> simp [hj]
    · have hek : (e.1 == k) = false := by simpa using he
      rw [hek, Bool.false_or]
      by_cases hj : j = k
      · simp [hj, Ne.symm he]
      · simp [hj]

theorem get_append (d e : Dict) (j : String) : get (d ++ e) j = (get d j).or (get e j) := by
  induction d with
  | nil => simp [get]
  | cons p d ih =>
    rw [List.cons_append, get_cons, get_cons, ih]
    split_ifs <;> simp

theorem get_none_of_any (h : (d.any fun e => e.1 == k) = false) : get d k = none := by
  induction d with
  | nil => rfl
  | cons e d ih =>
    simp only [List.any_cons, Bool.or_eq_false_iff, beq_eq_false_iff_ne] at h
    rw [get_cons, if_neg (Ne.symm h.1)]
    exact ih h.2

@[simp] theorem get_set_self : get (set d k v) k = some v := by
  unfold set
  split_ifs with h
  · rw [get_map_entry, if_pos rfl, if_pos h]
  · rw [get_append, get_none_of_any ((Bool.not_eq_true _).mp h)]
    simp [get_cons]

theorem get_set_of_ne (h : j ≠ k) : get (set d k v) j = get d j := by
  unfold set
  split_ifs
  · rw [get_map_entry, if_neg h]
  · rw [get_append, get_cons, if_neg h]
    simp [get]

@[simp] theorem get_erase_self : get (erase d k) k = none := by
  refine get_none_of_any ?_
  rw [← Bool.not_eq_true, List.any_eq_true]
  rintro ⟨e, he, hk⟩
  simp only [erase, List.mem_filter, bne_iff_ne, beq_iff_eq] at he hk
  exact he.2 hk

theorem get_erase_of_ne (h : j ≠ k) : get (erase d k) j = get d j := by
  induction d with
  | nil => rfl
  | cons e d ih =>
    rw [erase, List.filter_cons, get_cons]
    by_cases he : e.1 = k
    · rw [if_neg (by simp [he]), if_neg (fun hj => h (hj.trans he))]
      exact ih
    · rw [if_pos (by simp [he]), get_cons]
      split_ifs
      · rfl
      · exact ih

end Dict

namespace BlindSpot

/-- It was opened for a gap in the reports. -/
def isAutomatic (b : BlindSpot) : Bool := isResidentReportGap b.scopeData

def origin (b : BlindSpot) : Option Id := (b.scope.get "origin_fragment_id").bind Json.asRef
def resolver (b : BlindSpot) : Option Id := (b.scope.get "resolution_fragment_id").bind Json.asRef

theorem pointsTo_origin {b : BlindSpot} {k : Id} :
    b.pointsTo "origin_fragment_id" k = true ↔ b.origin = some k := by
  unfold pointsTo origin
  cases b.scope.get "origin_fragment_id" with
  | none => simp
  | some j => cases j <;> simp [Json.isRef, Json.asRef]

theorem pointsTo_resolver {b : BlindSpot} {k : Id} :
    b.pointsTo "resolution_fragment_id" k = true ↔ b.resolver = some k := by
  unfold pointsTo resolver
  cases b.scope.get "resolution_fragment_id" with
  | none => simp
  | some j => cases j <;> simp [Json.isRef, Json.asRef]

/-- What a turn may change of the row. -/
structure View where
  status : BlindSpotStatus
  value : Option String
  origin : Option Id
  resolver : Option Id

def view (b : BlindSpot) : View := ⟨b.status, b.resolutionValue, b.origin, b.resolver⟩

/-- What no turn changes: the gap itself. -/
structure SameGap (a b : BlindSpot) : Prop where
  incident : b.incidentId = a.incidentId
  claimKey : b.claimKey = a.claimKey
  place : b.place = a.place
  automatic : b.isAutomatic = a.isAutomatic

theorem SameGap.refl (a : BlindSpot) : a.SameGap a := ⟨rfl, rfl, rfl, rfl⟩

theorem SameGap.trans {a b c : BlindSpot} (h : a.SameGap b) (k : b.SameGap c) : a.SameGap c :=
  ⟨k.incident.trans h.incident, k.claimKey.trans h.claimKey, k.place.trans h.place,
    k.automatic.trans h.automatic⟩

theorem isOpen_iff {b : BlindSpot} : b.isOpen = true ↔ b.status ≠ .resolved := by
  unfold isOpen
  cases b.status <;> simp

/-- The row as `SpotBoard.save` leaves it. -/
def saved (now : Time) (b : BlindSpot) : BlindSpot := { b with revision := b.revision + 1, updatedAt := now }

variable {now : Time} {a : BlindSpot} {status : BlindSpotStatus} {value : Option String} {c : Id}

/-- Writing another fragment under `key` moves nothing else of the scope. -/
theorem rescoped {key : String} (hkey : key ≠ "source") {d : Dict}
    (hother : ∀ j, j ≠ key → Dict.get d j = a.scope.get j) :
    let b := saved now { a with status := status, resolutionValue := value, scopeData := some d }
    a.SameGap b ∧ (key ≠ "origin_fragment_id" → b.origin = a.origin) ∧
      (key ≠ "resolution_fragment_id" → b.resolver = a.resolver) := by
  refine ⟨⟨rfl, rfl, rfl, ?_⟩, fun hne => ?_, fun hne => ?_⟩
  · exact congrArg (Option.any _) (hother "source" (Ne.symm hkey))
  · exact congrArg (Option.bind · _) (hother _ (Ne.symm hne))
  · exact congrArg (Option.bind · _) (hother _ (Ne.symm hne))

theorem resolved_by :
    let b := saved now { a with
      status := status
      resolutionValue := value
      scopeData := some (a.scope.set "resolution_fragment_id" (.ref c)) }
    a.SameGap b ∧ b.view = ⟨status, value, a.origin, some c⟩ := by
  obtain ⟨hgap, horigin, -⟩ := @rescoped now a status value "resolution_fragment_id" (by decide)
    (a.scope.set "resolution_fragment_id" (.ref c)) fun j hj => Dict.get_set_of_ne hj
  refine ⟨hgap, ?_⟩
  rw [view, horigin (by decide)]
  simp [saved, resolver, scope, Json.asRef]

theorem rehomed_to :
    let b := saved now { a with scopeData := some (a.scope.set "origin_fragment_id" (.ref c)) }
    a.SameGap b ∧ b.view = ⟨a.status, a.resolutionValue, some c, a.resolver⟩ := by
  obtain ⟨hgap, -, hresolver⟩ := @rescoped now a a.status a.resolutionValue "origin_fragment_id" (by decide)
    (a.scope.set "origin_fragment_id" (.ref c)) fun j hj => Dict.get_set_of_ne hj
  refine ⟨hgap, ?_⟩
  have hresolver := hresolver (by decide)
  rw [view, hresolver]
  simp [saved, origin, scope, Json.asRef]

theorem reopened_by :
    let b := saved now { a with
      status := .reopened
      resolutionValue := none
      scopeData := some (a.scope.erase "resolution_fragment_id") }
    a.SameGap b ∧ b.view = ⟨.reopened, none, a.origin, none⟩ := by
  obtain ⟨hgap, horigin, -⟩ := @rescoped now a .reopened none "resolution_fragment_id" (by decide)
    (a.scope.erase "resolution_fragment_id") fun j hj => Dict.get_erase_of_ne hj
  refine ⟨hgap, ?_⟩
  rw [view, horigin (by decide)]
  simp [saved, resolver, scope]

theorem retired_with :
    let b := saved now { a with status := .resolved, resolutionValue := value }
    a.SameGap b ∧ b.view = ⟨.resolved, value, a.origin, a.resolver⟩ := ⟨⟨rfl, rfl, rfl, rfl⟩, rfl⟩

end BlindSpot

section Turn
variable (env : Env) (now : Time) (incidentId : Id) (reports : Table Report)
  (fragments : Table InformationFragment) (k : Id) (f : InformationFragment) (reason : String)

/-- No active fragment near the spot but `k` has a value `p` accepts. -/
def NoneNearby (spot : BlindSpot) (p : Option String → Bool) : Prop :=
  ∀ c ∈ activeNearby env incidentId reports fragments spot k, p (claimValueOf fragments c) = false

/-- The fragment `k`, as written, still leaves the gap of the spot. -/
def stillUnknownHere (spot : BlindSpot) : Bool :=
  f.claimKey = some spot.claimKey && f.claimValue = some "unknown" &&
    reportFragmentIsActive reports f && sameLocation env spot.place f.place

/-- The fragment `k`, as written, answers the claim of the spot, wherever it is. -/
def answersClaim (spot : BlindSpot) : Bool :=
  f.claimKey = some spot.claimKey && isConcrete f.claimValue && reportFragmentIsActive reports f

/-- How the turn of an automatic spot goes when the fragment `k` is rewritten or withdrawn. -/
inductive Turn (a : BlindSpot) : BlindSpot.View → Prop
  | kept : (a.resolver = some k → a.status = .resolved → stillResolves env reports a f = true) →
      (a.origin = some k → a.isOpen = false) → Turn a a.view
  | stranded : a.resolver = some k → a.status = .resolved → stillResolves env reports a f = false →
      NoneNearby env incidentId reports fragments k a isConcrete →
      originStillUnknown reports fragments a = false → Turn a a.view
  | handedOver (c : Id) : a.resolver = some k → a.status = .resolved →
      c ∈ activeNearby env incidentId reports fragments a k →
      isConcrete (claimValueOf fragments c) = true →
      Turn a ⟨a.status, claimValueOf fragments c, a.origin, some c⟩
  | reopened : a.resolver = some k → a.status = .resolved → stillResolves env reports a f = false →
      NoneNearby env incidentId reports fragments k a isConcrete →
      originStillUnknown reports fragments a = true → Turn a ⟨.reopened, none, a.origin, none⟩
  | unknownHere : a.origin = some k → a.isOpen = true → stillUnknownHere env reports f a = true →
      Turn a a.view
  | answered : a.origin = some k → a.isOpen = true → stillUnknownHere env reports f a = false →
      answersClaim reports f a = true → Turn a ⟨.resolved, f.claimValue, a.origin, some k⟩
  | rehomed (c : Id) : a.origin = some k → a.isOpen = true →
      c ∈ activeNearby env incidentId reports fragments a k →
      claimValueOf fragments c = some "unknown" →
      Turn a ⟨a.status, a.resolutionValue, some c, a.resolver⟩
  | retired : a.origin = some k → a.isOpen = true → stillUnknownHere env reports f a = false →
      answersClaim reports f a = false →
      NoneNearby env incidentId reports fragments k a (fun v => v = some "unknown") →
      Turn a ⟨.resolved, some reason, a.origin, a.resolver⟩

/-- The row of a spot after its turn. -/
def Turned (a b : BlindSpot) : Prop :=
  if a.incidentId = incidentId ∧ a.isAutomatic = true then
    a.SameGap b ∧ Turn env incidentId reports fragments k f reason a b.view
  else b = a

variable {env now incidentId reports fragments k f reason}

theorem mem_activeNearby {a : BlindSpot} {c : Id}
    (h : c ∈ activeNearby env incidentId reports fragments a k) :
    ∃ g, fragments.get c = some g ∧ g.incidentId = incidentId ∧ g.claimKey = some a.claimKey ∧
      reportFragmentIsActive reports g = true ∧ sameLocation env a.place g.place = true ∧ c ≠ k := by
  simp only [activeNearby, List.mem_filter, Table.mem_select, Bool.and_eq_true,
    decide_eq_true_eq] at h
  obtain ⟨⟨g, hg, ⟨⟨hinc, hkey⟩, hactive⟩, hnear⟩, hck⟩ := h
  exact ⟨g, hg, hinc, hkey, hactive, hnear, hck⟩

theorem SpotBoard.get_save {b : SpotBoard} {i : Id} {a spot : BlindSpot} (h : b.spots.get i = some a) :
    (b.save env now i spot).spots.get i = some (spot.saved now) := by
  simp [save, h, BlindSpot.saved]

theorem SpotBoard.get_retire {b : SpotBoard} {i : Id} {a spot : BlindSpot} (h : b.spots.get i = some a) :
    (b.retire now i spot).spots.get i = some (spot.saved now) := by
  simp [retire, h, BlindSpot.saved]

@[simp] theorem SpotBoard.announce_spots (b : SpotBoard) (incidentId i : Id) (eventType : String)
    (payload : BlindSpot → Dict) : (b.announce now incidentId i eventType payload).spots = b.spots := by
  unfold announce
  split <;> rfl

theorem SpotBoard.save_others (b : SpotBoard) {i j : Id} (spot : BlindSpot) (h : j ≠ i) :
    (b.save env now i spot).spots.get j = b.spots.get j := Table.get_modify_of_ne _ _ (Ne.symm h)

theorem SpotBoard.retire_others (b : SpotBoard) {i j : Id} (spot : BlindSpot) (h : j ≠ i) :
    (b.retire now i spot).spots.get j = b.spots.get j := Table.get_modify_of_ne _ _ (Ne.symm h)

/-- The resolver is replaced in one of two ways, and when neither applies nothing happens. -/
theorem replaceResolver_turn {b : SpotBoard} {i : Id} {a : BlindSpot} (ha : b.spots.get i = some a)
    (hresolver : a.resolver = some k) (hresolved : a.status = .resolved)
    (hstill : stillResolves env reports a f = false) :
    match replaceResolver env now incidentId reports fragments b i k a reason with
    | some b' => (∀ j, j ≠ i → b'.spots.get j = b.spots.get j) ∧ ∃ a', b'.spots.get i = some a' ∧
        a.SameGap a' ∧ Turn env incidentId reports fragments k f reason a a'.view
    | none => Turn env incidentId reports fragments k f reason a a.view := by
  unfold replaceResolver
  cases hfind : (activeNearby env incidentId reports fragments a k).find? fun c =>
      isConcrete (claimValueOf fragments c) with
  | some c =>
    have hc := List.find?_some hfind
    obtain ⟨hgap, hview⟩ := @BlindSpot.resolved_by now a a.status (claimValueOf fragments c) c
    refine ⟨fun j hj => b.save_others _ hj, _, SpotBoard.get_save ha, hgap, ?_⟩
    rw [hview]
    exact .handedOver c hresolver hresolved (List.mem_of_find?_eq_some hfind) hc
  | none =>
    have hnone : NoneNearby env incidentId reports fragments k a isConcrete := fun c hc =>
      (Bool.not_eq_true _).mp (List.find?_eq_none.mp hfind c hc)
    cases horigin : originStillUnknown reports fragments a with
    | true =>
      obtain ⟨hgap, hview⟩ := @BlindSpot.reopened_by now a
      simp only [if_true]
      refine ⟨fun j hj => ?_, _, by rw [SpotBoard.announce_spots]; exact SpotBoard.get_save ha, hgap, ?_⟩
      · rw [SpotBoard.announce_spots]
        exact b.save_others _ hj
      · rw [hview]
        exact .reopened hresolver hresolved hstill hnone horigin
    | false =>
      simp only [Bool.false_eq_true, if_false]
      exact .stranded hresolver hresolved hstill hnone horigin

theorem replaceOrigin_eq (b : SpotBoard) (i : Id) (a : BlindSpot) :
    replaceOrigin env now incidentId reports fragments b i k f a reason =
      if stillUnknownHere env reports f a then b
      else if answersClaim reports f a then
        b.save env now i { a with
          status := .resolved
          resolutionValue := f.claimValue
          scopeData := some (a.scope.set "resolution_fragment_id" (.ref k)) }
      else
        match (activeNearby env incidentId reports fragments a k).find? fun c =>
            claimValueOf fragments c = some "unknown" with
        | some c => b.save env now i { a with scopeData := some (a.scope.set "origin_fragment_id" (.ref c)) }
        | none => (b.retire now i { a with status := .resolved, resolutionValue := some reason }).announce
            now incidentId i "blind_spot.resolved" fun _ =>
              [("blind_spot_id", .ref i), ("reason", .str reason)] := rfl

theorem replaceOrigin_turn {b : SpotBoard} {i : Id} {a : BlindSpot} (ha : b.spots.get i = some a)
    (horigin : a.origin = some k) (hopen : a.isOpen = true) :
    let b' := replaceOrigin env now incidentId reports fragments b i k f a reason
    (∀ j, j ≠ i → b'.spots.get j = b.spots.get j) ∧ ∃ a', b'.spots.get i = some a' ∧
      a.SameGap a' ∧ Turn env incidentId reports fragments k f reason a a'.view := by
  rw [replaceOrigin_eq]
  dsimp only
  by_cases hunknown : stillUnknownHere env reports f a = true
  · rw [if_pos hunknown]
    exact ⟨fun _ _ => rfl, a, ha, .refl a, .unknownHere horigin hopen hunknown⟩
  · rw [if_neg hunknown]
    rw [Bool.not_eq_true] at hunknown
    by_cases hanswers : answersClaim reports f a = true
    · rw [if_pos hanswers]
      obtain ⟨hgap, hview⟩ := @BlindSpot.resolved_by now a .resolved f.claimValue k
      refine ⟨fun j hj => b.save_others _ hj, _, SpotBoard.get_save ha, hgap, ?_⟩
      rw [hview]
      exact .answered horigin hopen hunknown hanswers
    · rw [if_neg hanswers]
      rw [Bool.not_eq_true] at hanswers
      cases hfind : (activeNearby env incidentId reports fragments a k).find? fun c =>
          claimValueOf fragments c = some "unknown" with
      | some c =>
        have hc := List.find?_some hfind
        obtain ⟨hgap, hview⟩ := @BlindSpot.rehomed_to now a c
        refine ⟨fun j hj => b.save_others _ hj, _, SpotBoard.get_save ha, hgap, ?_⟩
        rw [hview]
        exact .rehomed c horigin hopen (List.mem_of_find?_eq_some hfind) (by simpa using hc)
      | none =>
        have hnone : NoneNearby env incidentId reports fragments k a (fun v => v = some "unknown") :=
          fun c hc => (Bool.not_eq_true _).mp (List.find?_eq_none.mp hfind c hc)
        obtain ⟨hgap, hview⟩ := @BlindSpot.retired_with now a (some reason)
        refine ⟨fun j hj => ?_, _, by rw [SpotBoard.announce_spots]; exact SpotBoard.get_retire ha, hgap, ?_⟩
        · rw [SpotBoard.announce_spots]
          exact b.retire_others _ hj
        · rw [hview]
          exact .retired horigin hopen hunknown hanswers hnone

theorem deactivateSpot_turn (b : SpotBoard) (i : Id) :
    let b' := deactivateSpot env now incidentId reports fragments k f reason b i
    (∀ j, j ≠ i → b'.spots.get j = b.spots.get j) ∧
      ∀ a, b.spots.get i = some a → ∃ a', b'.spots.get i = some a' ∧ (a.isAutomatic = false → a' = a) ∧
        (a.isAutomatic = true →
          a.SameGap a' ∧ Turn env incidentId reports fragments k f reason a a'.view) := by
  unfold deactivateSpot
  cases ha : b.spots.get i with
  | none => exact ⟨fun _ _ => rfl, fun a h => nomatch h⟩
  | some a =>
    dsimp only
    by_cases hskip : (!isResidentReportGap a.scopeData ||
        (!a.pointsTo "origin_fragment_id" k && !a.pointsTo "resolution_fragment_id" k) ||
        (a.pointsTo "resolution_fragment_id" k && stillResolves env reports a f)) = true
    · rw [if_pos hskip]
      refine ⟨fun _ _ => rfl, fun c hc => ?_⟩
      obtain rfl := Option.some.inj hc
      refine ⟨a, ha, fun _ => rfl, fun hauto => ⟨.refl a, .kept (fun hr hres => ?_) fun ho => ?_⟩⟩
      all_goals
        have hauto : isResidentReportGap a.scopeData = true := hauto
        simp only [hauto, Bool.not_true, Bool.false_or, Bool.or_eq_true, Bool.and_eq_true,
          Bool.not_eq_true', ← Bool.not_eq_true, BlindSpot.pointsTo_origin,
          BlindSpot.pointsTo_resolver] at hskip
      · exact hskip.elim (fun h => absurd hr h.2) fun h => h.2
      · have hstill := (hskip.resolve_left fun h => h.1 ho).2
        unfold stillResolves at hstill
        simp only [Bool.and_eq_true, decide_eq_true_eq] at hstill
        rw [← Bool.not_eq_true, BlindSpot.isOpen_iff, not_not]
        exact hstill.1.1.1.1
    · rw [if_neg hskip]
      simp only [Bool.or_eq_true, not_or, Bool.not_eq_true', Bool.and_eq_true, not_and,
        Bool.not_eq_false, Bool.not_eq_true] at hskip
      obtain ⟨⟨hauto, hpoints⟩, hstill⟩ := hskip
      have hauto : a.isAutomatic = true := hauto
      -- what the origin's turn does, when the resolver's has not settled the spot
      have horigin : ∀ (hkept : a.origin = some k → a.isOpen = false →
            Turn env incidentId reports fragments k f reason a a.view)
          (hother : a.origin ≠ some k → Turn env incidentId reports fragments k f reason a a.view),
          let b' := if (a.pointsTo "origin_fragment_id" k && a.isOpen) = true then
            replaceOrigin env now incidentId reports fragments b i k f a reason else b
          (∀ j, j ≠ i → b'.spots.get j = b.spots.get j) ∧
            ∀ c, some a = some c → ∃ a', b'.spots.get i = some a' ∧ (c.isAutomatic = false → a' = c) ∧
              (c.isAutomatic = true →
                c.SameGap a' ∧ Turn env incidentId reports fragments k f reason c a'.view) := by
        intro hkept hother
        by_cases ho : (a.pointsTo "origin_fragment_id" k && a.isOpen) = true
        · rw [if_pos ho]
          rw [Bool.and_eq_true, BlindSpot.pointsTo_origin] at ho
          obtain ⟨hothers, a', ha', hturn⟩ := @replaceOrigin_turn env now incidentId reports
            fragments k f reason b i a ha ho.1 ho.2
          refine ⟨hothers, fun c hc => ?_⟩
          obtain rfl := Option.some.inj hc
          exact ⟨a', ha', fun hno => absurd (hauto.symm.trans hno) nofun, fun _ => hturn⟩
        · rw [if_neg ho]
          refine ⟨fun _ _ => rfl, fun c hc => ?_⟩
          obtain rfl := Option.some.inj hc
          refine ⟨a, ha, fun _ => rfl, fun _ => ⟨.refl a, ?_⟩⟩
          rw [Bool.and_eq_true, BlindSpot.pointsTo_origin, not_and, Bool.not_eq_true] at ho
          by_cases hk : a.origin = some k
          · exact hkept hk (ho hk)
          · exact hother hk
      by_cases hres : (a.pointsTo "resolution_fragment_id" k && decide (a.status = .resolved)) = true
      · rw [if_pos hres]
        simp only [Bool.and_eq_true, decide_eq_true_eq] at hres
        obtain ⟨hpoint, hresolved⟩ := hres
        have hturn := @replaceResolver_turn env now incidentId reports fragments k f reason b i a ha
          (BlindSpot.pointsTo_resolver.mp hpoint) hresolved (hstill hpoint)
        cases hreplaced : replaceResolver env now incidentId reports fragments b i k a reason with
        | some b' =>
          rw [hreplaced] at hturn
          obtain ⟨hothers, a', ha', hgap⟩ := hturn
          refine ⟨hothers, fun c hc => ?_⟩
          obtain rfl := Option.some.inj hc
          exact ⟨a', ha', fun hno => absurd (hauto.symm.trans hno) nofun, fun _ => hgap⟩
        | none =>
          rw [hreplaced] at hturn
          exact horigin (fun _ _ => hturn) fun _ => hturn
      · rw [if_neg hres]
        have hidle : a.resolver = some k → a.status = .resolved → stillResolves env reports a f = true := by
          intro hr hs
          exact absurd (by simp [BlindSpot.pointsTo_resolver.mpr hr, hs]) hres
        exact horigin (fun _ hopen => .kept hidle fun _ => hopen) fun hk =>
          .kept hidle fun ho => absurd ho hk

/-- Folding steps that each see and change one row gives every row its own step. -/
theorem SpotBoard.foldl_rows {step : SpotBoard → Id → SpotBoard} {R : BlindSpot → BlindSpot → Prop}
    (hstep : ∀ b i, (∀ j, j ≠ i → (step b i).spots.get j = b.spots.get j) ∧
      ∀ a, b.spots.get i = some a → ∃ a', (step b i).spots.get i = some a' ∧ R a a') :
    ∀ (ids : List Id), ids.Nodup → ∀ (b : SpotBoard) (j : Id) (a : BlindSpot), b.spots.get j = some a →
      ∃ a', (ids.foldl step b).spots.get j = some a' ∧ (j ∉ ids → a' = a) ∧ (j ∈ ids → R a a') := by
  intro ids
  induction ids with
  | nil => exact fun _ b j a ha => ⟨a, ha, fun _ => rfl, fun h => nomatch h⟩
  | cons i ids ih =>
    intro hnd b j a ha
    obtain ⟨hi, hrest⟩ := List.nodup_cons.mp hnd
    obtain ⟨hothers, hself⟩ := hstep b i
    by_cases hj : j = i
    · subst hj
      obtain ⟨a₁, ha₁, hR⟩ := hself a ha
      obtain ⟨a', ha', hkept, -⟩ := ih hrest (step b j) j a₁ ha₁
      obtain rfl := hkept hi
      exact ⟨a', ha', fun h => absurd List.mem_cons_self h, fun _ => hR⟩
    · obtain ⟨a', ha', hkept, hR⟩ := ih hrest (step b i) j a ((hothers j hj).trans ha)
      refine ⟨a', ha', fun h => hkept fun hm => h (List.mem_cons_of_mem _ hm), fun h => hR ?_⟩
      exact (List.mem_cons.mp h).resolve_left hj

theorem SpotBoard.foldl_none {step : SpotBoard → Id → SpotBoard}
    (hothers : ∀ b i j, j ≠ i → (step b i).spots.get j = b.spots.get j)
    (hnone : ∀ b i, b.spots.get i = none → step b i = b) :
    ∀ (ids : List Id) (b : SpotBoard) (j : Id), b.spots.get j = none →
      (ids.foldl step b).spots.get j = none := by
  intro ids
  induction ids with
  | nil => exact fun b j h => h
  | cons i ids ih =>
    intro b j h
    refine ih (step b i) j ?_
    by_cases hj : j = i
    · rw [hnone b i (hj ▸ h), h]
    · rw [hothers b i j hj, h]

/-- Rows related one by one, under the same keys. -/
theorem related_of_rows {R : BlindSpot → BlindSpot → Prop} {a b : Table BlindSpot}
    (hnone : ∀ j, a.get j = none → b.get j = none)
    (hsome : ∀ j x, a.get j = some x → ∃ y, b.get j = some y ∧ R x y) : a.Related R b := by
  intro j
  cases hx : a.get j with
  | none =>
    rw [hnone j hx]
    exact .none
  | some x =>
    obtain ⟨y, hy, hR⟩ := hsome j x hx
    rw [hy]
    exact .some hR

theorem deactivateAutomaticBlindSpots_turns (b : SpotBoard) :
    b.spots.Related (Turned env incidentId reports fragments k f reason)
      (deactivateAutomaticBlindSpots env now incidentId reports fragments k f reason b).spots := by
  have hstep := @deactivateSpot_turn env now incidentId reports fragments k f reason
  refine related_of_rows (fun j hj => ?_) fun j a ha => ?_
  · refine SpotBoard.foldl_none (fun b i => (hstep b i).1) (fun b i h => ?_) _ b j hj
    unfold deactivateSpot
    rw [h]
  obtain ⟨a', ha', hkept, hR⟩ := SpotBoard.foldl_rows hstep _
    (nodup_select b.spots fun spot => spot.incidentId = incidentId) b j a ha
  refine ⟨a', ha', ?_⟩
  unfold Turned
  by_cases hmem : a.incidentId = incidentId
  · obtain ⟨hmanual, hturn⟩ := hR (Table.mem_select.mpr ⟨a, ha, by simpa using hmem⟩)
    split_ifs with h
    · exact hturn h.2
    · exact hmanual ((Bool.not_eq_true _).mp fun hauto => h ⟨hmem, hauto⟩)
  · rw [if_neg fun h => hmem h.1]
    refine hkept fun hm => hmem ?_
    obtain ⟨a₀, ha₀, h⟩ := Table.mem_select.mp hm
    obtain rfl := Option.some.inj (ha.symm.trans ha₀)
    simpa using h

end Turn

section Resolution
variable (env : Env) (incidentId : Id) (k : Id) (f : InformationFragment) (conflicted : Bool)

/-- The fragment resolves the spot, when it has a concrete claim. -/
def resolvesSpot (a : BlindSpot) : Bool :=
  a.incidentId = incidentId && some a.claimKey = f.claimKey && a.isOpen && a.isAutomatic &&
    sameLocation env f.place a.place

/-- The row of a spot after the fragment `k` was read for an answer. -/
def Answered (a b : BlindSpot) : Prop :=
  if truthy f.claimKey = true ∧ isConcrete f.claimValue = true ∧ resolvesSpot env incidentId f a = true then
    a.SameGap b ∧ b.view = ⟨.resolved, resolutionValue f conflicted, a.origin, some k⟩
  else b = a

variable {env incidentId k f conflicted}

theorem resolveSpot_answers {now : Time} (b : SpotBoard) (i : Id) :
    let b' := resolveSpot env now incidentId k f conflicted b i
    (∀ j, j ≠ i → b'.spots.get j = b.spots.get j) ∧
      ∀ a, b.spots.get i = some a → ∃ a', b'.spots.get i = some a' ∧
        if (a.isAutomatic && sameLocation env f.place a.place) = true then
          a.SameGap a' ∧ a'.view = ⟨.resolved, resolutionValue f conflicted, a.origin, some k⟩
        else a' = a := by
  unfold resolveSpot
  cases ha : b.spots.get i with
  | none => exact ⟨fun _ _ => rfl, fun a h => nomatch h⟩
  | some a =>
    dsimp only
    by_cases h : (isResidentReportGap a.scopeData && sameLocation env f.place a.place) = true
    · rw [if_pos h]
      obtain ⟨hgap, hview⟩ := @BlindSpot.resolved_by now a .resolved (resolutionValue f conflicted) k
      refine ⟨fun j hj => ?_, fun c hc => ?_⟩
      · rw [SpotBoard.announce_spots]
        exact b.save_others _ hj
      · obtain rfl := Option.some.inj hc
        have hauto : (a.isAutomatic && sameLocation env f.place a.place) = true := h
        refine ⟨_, by rw [SpotBoard.announce_spots]; exact SpotBoard.get_save ha, ?_⟩
        rw [if_pos hauto]
        exact ⟨hgap, hview⟩
    · rw [if_neg h]
      refine ⟨fun _ _ => rfl, fun c hc => ?_⟩
      obtain rfl := Option.some.inj hc
      have hauto : ¬ (a.isAutomatic && sameLocation env f.place a.place) = true := h
      exact ⟨a, ha, by rw [if_neg hauto]⟩

theorem resolveAutomaticBlindSpots_answers {now : Time} (b : SpotBoard) :
    b.spots.Related (Answered env incidentId k f conflicted)
      (resolveAutomaticBlindSpots env now incidentId k f conflicted b).spots := by
  have hstep := @resolveSpot_answers env incidentId k f conflicted now
  refine related_of_rows (fun j hj => ?_) fun j a ha => ?_
  · unfold resolveAutomaticBlindSpots
    split_ifs
    · refine SpotBoard.foldl_none (fun b i => (hstep b i).1) (fun b i h => ?_) _ b j hj
      unfold resolveSpot
      rw [h]
    · exact hj
  unfold resolveAutomaticBlindSpots Answered
  by_cases hclaim : (truthy f.claimKey && isConcrete f.claimValue) = true
  · rw [if_pos hclaim]
    obtain ⟨hkey, hvalue⟩ := (Bool.and_eq_true _ _).mp hclaim
    obtain ⟨a', ha', hkept, hR⟩ := SpotBoard.foldl_rows hstep _
      (nodup_select b.spots fun spot => spot.incidentId = incidentId &&
        some spot.claimKey = f.claimKey && spot.isOpen) b j a ha
    refine ⟨a', ha', ?_⟩
    by_cases hmem : (decide (a.incidentId = incidentId) && decide (some a.claimKey = f.claimKey) &&
        a.isOpen) = true
    · have hrow := hR (Table.mem_select.mpr ⟨a, ha, hmem⟩)
      simp only [resolvesSpot, hmem, hkey, hvalue, Bool.true_and, true_and]
      exact hrow
    · rw [if_neg fun h => hmem ?_]
      · refine hkept fun hm => hmem ?_
        obtain ⟨a₀, ha₀, h⟩ := Table.mem_select.mp hm
        obtain rfl := Option.some.inj (ha.symm.trans ha₀)
        exact h
      · have hres := h.2.2
        unfold resolvesSpot at hres
        simp only [Bool.and_eq_true] at hres ⊢
        exact hres.1.1
  · rw [if_neg hclaim]
    refine ⟨a, ha, ?_⟩
    rw [if_neg fun h => hclaim (by simp [h.1, h.2.1])]

end Resolution

section Detection
variable (env : Env) (now : Time) (incidents : Table Incident) (reports : Table Report)
  (fragments : Table InformationFragment) (incidentId k revision : ℕ)

/-- The row is where detection for `f` would look for a blind spot. -/
def spotFor (f : InformationFragment) (a : BlindSpot) : Bool :=
  a.incidentId = incidentId && some a.claimKey = f.claimKey && sameLocation env f.place a.place

/-- The guards of the detection that concern the fragment and its report. -/
structure HasGap (f : InformationFragment) : Prop where
  stored : fragments.get k = some f
  active : (incidents.get incidentId).any (fun i => i.status = .active) = true
  incident : f.incidentId = incidentId
  sourceType : f.sourceType = .residentReport
  revision : f.revision = revision
  claimKey : truthy f.claimKey = true
  claimValue : f.claimValue = some "unknown"
  status : f.status = .normal ∨ f.status = .conflict
  live : (f.sourceRefId.bind reports.get).any (·.isLive) = true

/-- What the detection leaves of the blind spots. -/
inductive Detected (dueAt : Option Time) (a : Table BlindSpot) : Table BlindSpot → Prop
  | noGap : (∀ f, ¬ HasGap incidents reports fragments incidentId k revision f) → Detected dueAt a a
  | early (f : InformationFragment) : HasGap incidents reports fragments incidentId k revision f →
      (∀ t, dueAt = some t → now < t) → Detected dueAt a a
  | settled (f : InformationFragment) : HasGap incidents reports fragments incidentId k revision f →
      gapIsAnswered env reports fragments k f = true → Detected dueAt a a
  | present (f : InformationFragment) {i : Id} {x : BlindSpot} :
      HasGap incidents reports fragments incidentId k revision f →
      a.find (spotFor env incidentId f) = some (i, x) →
      (x.isAutomatic = false ∨ x.isOpen = true) → Detected dueAt a a
  | reopened (f : InformationFragment) {i : Id} {x y : BlindSpot} :
      HasGap incidents reports fragments incidentId k revision f →
      a.find (spotFor env incidentId f) = some (i, x) → x.isAutomatic = true → x.isOpen = false →
      x.SameGap y → y.view = ⟨.reopened, none, some k, x.resolver⟩ →
      Detected dueAt a (a.modify i fun _ => y)
  | created (f : InformationFragment) {y : BlindSpot} :
      HasGap incidents reports fragments incidentId k revision f →
      a.find (spotFor env incidentId f) = none → y.isAutomatic = true →
      y.incidentId = incidentId → some y.claimKey = f.claimKey → y.place = f.place →
      y.view = ⟨.opened, none, some k, none⟩ → Detected dueAt a (a.insert y)

variable {env now incidents reports fragments incidentId k revision}

theorem gapReport_some {b : SpotBoard} {f : InformationFragment} {p : Incident × Report}
    (hf : fragments.get k = some f) (h : gapReport b reports incidentId revision f = some p) :
    HasGap b.feed.incidents reports fragments incidentId k revision f := by
  unfold gapReport at h
  split at h
  · next incident report hi hr =>
    split_ifs at h with hguards
    simp only [Bool.and_eq_true, Bool.or_eq_true, decide_eq_true_eq] at hguards
    obtain ⟨⟨⟨⟨⟨⟨⟨h₁, h₂⟩, h₃⟩, h₄⟩, h₅⟩, h₆⟩, h₇⟩, h₈⟩ := hguards
    exact ⟨hf, by simp [hi, h₁], h₂, h₃, h₄, h₅, h₆, h₇, by simp [hr, h₈]⟩
  · exact nomatch h

theorem gapReport_none {b : SpotBoard} {f : InformationFragment}
    (h : gapReport b reports incidentId revision f = none) :
    ¬ HasGap b.feed.incidents reports fragments incidentId k revision f := by
  rintro ⟨-, h₁, h₂, h₃, h₄, h₅, h₆, h₇, h₈⟩
  obtain ⟨incident, hi, h₁⟩ := (Option.any_eq_true _ _).mp h₁
  obtain ⟨report, hr, h₈⟩ := (Option.any_eq_true _ _).mp h₈
  unfold gapReport at h
  rw [hi, hr] at h
  simp_all

theorem gap_reopened {a : BlindSpot} {grace : ℕ} {dueAt : Time} :
    let b := BlindSpot.saved now { a with
      status := .reopened
      resolutionValue := none
      scopeData := some (Dict.merge a.scope
        [("origin_fragment_id", .ref k), ("grace_minutes", .nat grace), ("due_at", .time dueAt)]) }
    a.SameGap b ∧ b.view = ⟨.reopened, none, some k, a.resolver⟩ := by
  have hget : ∀ j, j ≠ "grace_minutes" → j ≠ "due_at" → Dict.get (Dict.merge a.scope
      [("origin_fragment_id", .ref k), ("grace_minutes", .nat grace), ("due_at", .time dueAt)]) j =
      Dict.get (a.scope.set "origin_fragment_id" (.ref k)) j := by
    intro j h₁ h₂
    simp only [Dict.merge, List.foldl_cons, List.foldl_nil]
    rw [Dict.get_set_of_ne h₂, Dict.get_set_of_ne h₁]
  refine ⟨⟨rfl, rfl, rfl, ?_⟩, ?_⟩
  · refine congrArg (Option.any _) ((hget "source" (by decide) (by decide)).trans ?_)
    exact Dict.get_set_of_ne (by decide)
  · have horigin : BlindSpot.origin (BlindSpot.saved now { a with
        status := .reopened
        resolutionValue := none
        scopeData := some (Dict.merge a.scope
          [("origin_fragment_id", .ref k), ("grace_minutes", .nat grace), ("due_at", .time dueAt)]) })
        = some k := by
      refine (congrArg (Option.bind · _) (hget _ (by decide) (by decide))).trans ?_
      simp [Json.asRef]
    have hresolver : BlindSpot.resolver (BlindSpot.saved now { a with
        status := .reopened
        resolutionValue := none
        scopeData := some (Dict.merge a.scope
          [("origin_fragment_id", .ref k), ("grace_minutes", .nat grace), ("due_at", .time dueAt)]) })
        = a.resolver := by
      refine congrArg (Option.bind · _) ((hget _ (by decide) (by decide)).trans ?_)
      exact Dict.get_set_of_ne (by decide)
    rw [BlindSpot.view, horigin, hresolver]
    rfl

theorem runReportBlindSpotDetection_detects (b : SpotBoard) (dueAt : Option Time) (grace : Option ℕ) :
    Detected env now b.feed.incidents reports fragments incidentId k revision dueAt b.spots
      (runReportBlindSpotDetection env now reports fragments b incidentId k revision dueAt grace).spots := by
  unfold runReportBlindSpotDetection
  cases hf : fragments.get k with
  | none => exact .noGap fun f hgap => nomatch hf.symm.trans hgap.stored
  | some f =>
    dsimp only
    cases hreport : gapReport b reports incidentId revision f with
    | none =>
      refine .noGap fun g hgap => ?_
      obtain rfl := Option.some.inj (hf.symm.trans hgap.stored)
      exact gapReport_none hreport hgap
    | some p =>
      obtain ⟨incident, report⟩ := p
      have hgap := gapReport_some hf hreport
      dsimp only
      by_cases hwait : (decide (now < dueAt.getD (f.receivedAt +
          minutes (grace.getD (graceMinutes env incident f)))) ||
          gapIsAnswered env reports fragments k f) = true
      · rw [if_pos hwait]
        rw [Bool.or_eq_true, decide_eq_true_eq] at hwait
        rcases hwait with hearly | hanswered
        · refine .early f hgap fun t ht => ?_
          rw [ht] at hearly
          exact hearly
        · exact .settled f hgap hanswered
      · rw [if_neg hwait]
        cases hfind : b.spots.find fun spot => spot.incidentId = incidentId &&
            some spot.claimKey = f.claimKey && sameLocation env f.place spot.place with
        | some q =>
          obtain ⟨i, x⟩ := q
          have hspot : b.spots.find (spotFor env incidentId f) = some (i, x) := hfind
          dsimp only
          by_cases hpresent : (!isResidentReportGap x.scopeData || x.isOpen) = true
          · rw [if_pos hpresent]
            refine .present f hgap hspot ?_
            simpa [BlindSpot.isAutomatic] using hpresent
          · rw [if_neg hpresent, SpotBoard.announce_spots]
            simp only [Bool.or_eq_true, Bool.not_eq_true', not_or, Bool.not_eq_false,
              Bool.not_eq_true] at hpresent
            obtain ⟨hsame, hview⟩ := @gap_reopened now k x (grace.getD (graceMinutes env incident f))
              (dueAt.getD (f.receivedAt + minutes (grace.getD (graceMinutes env incident f))))
            exact .reopened f hgap hspot hpresent.1 hpresent.2 hsame hview
        | none =>
          dsimp only
          rw [SpotBoard.announce_spots]
          obtain ⟨key, hkey⟩ : ∃ key, f.claimKey = some key := by
            have htruthy := hgap.claimKey
            cases hk : f.claimKey with
            | none => simp [hk, truthy] at htruthy
            | some key => exact ⟨key, rfl⟩
          exact .created f hgap hfind rfl rfl (by simp [openSpot, hkey]) rfl rfl

end Detection
end CrisisMosaic
