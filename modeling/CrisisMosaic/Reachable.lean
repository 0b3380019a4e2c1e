import CrisisMosaic.Effects

/-!
# Reachable states

What every reachable state satisfies, whatever the operations were: the evidence
agrees with the fragments it cites, and the versions of each fact form a chain.
-/

namespace CrisisMosaic
open Relational Store

section Steps
variable {env : Env} {db : Db} {op : Op} {o : Outcome}

theorem InformationFragment.Disposed.step {f g : InformationFragment} (h : f.Disposed g) :
    FragmentStep (some f) g :=
  ⟨h.follows, fun hr => absurd hr h.revision.ne', fun hw => absurd hw h.status⟩

/-- A step that leaves the evidence as it is keeps it in step with the fragments. -/
theorem Store.Sound.of_fragments {b t : Store} (hb : b.Sound) (hf : t.facts.WellFormed)
    (he : t.evidence = b.evidence) (h : b.fragments.Evolves FragmentStep t.fragments) : t.Sound where
  facts := hf
  upToDate := by
    intro i e hi hk
    obtain ⟨f, hf, hle, hcur⟩ := hb.upToDate i e (he ▸ hi) hk
    obtain ⟨g, hg, hfg, hw, -⟩ := h.get_some hf
    have := hfg.revision
    exact ⟨g, hg, by omega, fun hr hno => hw (by omega) (hcur (by omega) hno)⟩
  withdrawn := withdrawn_resident h hb.withdrawn

theorem Decision.fragmentStep {now : Time} {s t : Store} {id : Id} {payload : DecisionRequest}
    {x : ConflictCase} {ready : Facts} {factId : Id} {record : FactRecord} {draft : VersionDraft}
    (h : Decision env now s t id payload x ready factId record draft) :
    s.fragments.Evolves FragmentStep t.fragments where
  rows := by
    intro k g hg
    obtain ⟨f, hf, rfl | ⟨-, hfg⟩⟩ := h.fragments k g hg
    · exact hf ▸ .refl g
    · exact hf ▸ hfg.step
  size := h.size.ge

theorem Restated.sound {b t : Store} {id : Id} {status : CaseStatus} (h : Restated b t id status)
    (hb : b.Sound) : t.Sound :=
  hb.of_fragments (h.facts ▸ hb.facts) h.evidence (h.fragments ▸ .refl .refl _)

theorem AnalysisStep.sound {b t : Store} (h : AnalysisStep b t) (hb : b.Sound) : t.Sound := by
  cases h with
  | quiet k => exact k.sound hb
  | answered _ _ _ _ _ hr _ => exact hr.sound hb
  | released _ _ hr _ => exact hr.sound hb

theorem Effect.sound (h : Effect env db op o) (hs : db.toStore.Sound) : o.db.toStore.Sound := by
  cases h with
  | worked hw _ _ _ => exact hw.sound hs
  | decided _ hd _ _ => exact hs.of_fragments (hd.wellFormed hs.facts) hd.evidence hd.fragmentStep
  | requested _ hr _ _ =>
    obtain ⟨status, -, hr⟩ := hr.status
    exact hr.sound hs
  | analysed ha _ _ => exact ha.sound hs

/-- Beginning a transaction touches no table. -/
theorem transact_effect (h : transact env db op = .ok o) (hs : db.toStore.Sound) :
    Effect env db.begin op o :=
  handle_effect h ⟨hs.facts, hs.upToDate, hs.withdrawn⟩

theorem transact_sound (h : transact env db op = .ok o) (hs : db.toStore.Sound) :
    o.db.toStore.Sound :=
  (transact_effect h hs).sound ⟨hs.facts, hs.upToDate, hs.withdrawn⟩

theorem step_sound (env : Env) (db : Db) (op : Op) (hs : db.toStore.Sound) :
    (step env db op).toStore.Sound :=
  step_cases (P := fun t : Db => t.toStore.Sound) hs fun _ ho => transact_sound ho hs

end Steps

section Runs
variable (env : Env) (incidents : Table Incident) (devices : Table AnonymousDevice)
  (attachments : Table Attachment)

theorem initial_sound : (Db.initial incidents devices attachments).toStore.Sound where
  facts := Facts.wellFormed_empty
  upToDate := fun _ _ h => nomatch (Table.get_empty _).symm.trans h
  withdrawn := fun _ _ h => nomatch (Table.get_empty _).symm.trans h

theorem run_sound {db : Db} (hs : db.toStore.Sound) (ops : List Op) :
    (runFrom env db ops).toStore.Sound :=
  run_invariant (step env) (I := fun t : Db => t.toStore.Sound)
    (fun t op ht _ => step_sound env t op ht) hs (along_true (step env) db ops)

/-- The states of a deployment are those its operations lead to. -/
abbrev reached (ops : List Op) : Db := runFrom env (Db.initial incidents devices attachments) ops

theorem reached_append (ops later : List Op) :
    reached env incidents devices attachments (ops ++ later) =
      runFrom env (reached env incidents devices attachments ops) later :=
  run_append _ _ _ _

theorem reached_sound (ops : List Op) : (reached env incidents devices attachments ops).toStore.Sound :=
  run_sound env (initial_sound incidents devices attachments) ops

end Runs

/-! A small deployment: one incident, two devices and two operators. -/

namespace Sample

/-- Python's string methods on ASCII. -/
def text : TextLib :=
  { casefold := fun c => [c.toLower]
    lower := fun c => [c.toLower]
    isAlnum := Char.isAlphanum
    isDecimal := Char.isDigit
    digit := fun c => if c.isDigit then some (c.toNat - 48) else none
    isSpace := fun c => c = ' '
    isWord := fun c => c.isAlphanum || c = '_' }

def settings : Settings :=
  { conflictRadiusM := 100
    conflictWindowHours := 24
    directedMinValidAnswers := 2
    blindSpotReportGraceMinutes := 10
    jobMaxAttempts := 3
    mapMaxPoints := 500
    mapMaxBboxAreaDegrees := 4
    mapDefaultLatitude := 30
    mapDefaultLongitude := 104
    locationFutureToleranceMinutes := 5
    installationIdPepper := ""
    aiConfigured := true
    aiProvider := "fake"
    aiVisionModel := "fake" }

def env : Env :=
  { settings := settings
    text := text
    math := ⟨3, fun _ => 0, fun _ => 1, id, id⟩
    str := fun _ => ""
    sha256 := id
    canonicalSha256 := fun _ => ""
    hmac := fun _ _ => "" }

def incident : Incident :=
  { aliasName := none
    status := .active
    centerLatitude := none
    centerLongitude := none
    mapCoordinateSystem := .gcj02
    mapDefaultZoom := 10
    featureFlags := []
    eventSequence := 0
    dataRevision := 0
    mapRevision := 0 }

def resident : Actor := ⟨.device, 0, .resident, [0]⟩
def neighbour : Actor := ⟨.device, 1, .resident, [0]⟩
def admin : Actor := ⟨.account, 0, .admin, [0]⟩
def secondAdmin : Actor := ⟨.account, 1, .admin, [0]⟩

abbrev initial : Db := Db.initial ⟨[incident]⟩ ⟨[⟨none⟩, ⟨none⟩]⟩ .empty
abbrev reached (ops : List Op) : Db := runFrom env initial ops

/-- Both names of the state are unfolded here once, and not inside its projections. -/
theorem reached_eq (ops : List Op) :
    CrisisMosaic.reached env ⟨[incident]⟩ ⟨[⟨none⟩, ⟨none⟩]⟩ .empty ops = reached ops := rfl

theorem unplaced : (none : Option ℚ).isSome = (none : Option ℚ).isSome := rfl
theorem no_system : (none : Option ℚ).isSome → (none : Option CoordinateSystem).isSome := id
theorem north : (-90 : ℚ) ≤ 30 ∧ (30 : ℚ) ≤ 90 := by norm_num
theorem east : (-180 : ℚ) ≤ 10 ∧ (10 : ℚ) ≤ 180 := by norm_num
theorem current_allowed : FactStatus.current = .current ∨ FactStatus.current = .underReview := Or.inl rfl

def waterReport : ReportCreate :=
  { category := .water
    contentOriginal := "x"
    contentDisplay := none
    location := ⟨"a", none, none, none, "manual", none, none, none, rfl, by simp⟩
    isUrgent := false
    aiRefinementId := none
    attachmentIds := []
    distinct := by simp }

/-- A fragment an operator writes, which claims `value` for `key` when both are given. -/
def fragment (key value : Option String) (observed : Time) : Questions.FragmentCreate :=
  { latitude := none
    longitude := none
    coordinateSystem := none
    paired := rfl
    systemGiven := by simp
    topic := "t"
    claimKey := key
    claimValue := value
    label := "l"
    description := "d"
    locationText := "a"
    confidence := 0
    observedAt := some observed }

/-- A case over the first two fragments. -/
def conflict : ConflictCreate :=
  { aliasName := none
    factKey := "k"
    title := "t"
    topic := "t"
    locationText := "a"
    latitude := some ⟨30, by norm_num⟩
    longitude := some ⟨10, by norm_num⟩
    coordinateSystem := some .wgs84
    severity := .high
    evidence := [⟨.fragment, 0, none⟩, ⟨.fragment, 1, none⟩]
    paired := rfl
    systemGiven := by simp
    enough := by simp }

/-- The first decision of that case: its first row is accepted and its second rejected. -/
def decision (status : {s : FactStatus // s = .current ∨ s = .underReview}) : DecisionRequest :=
  { revision := 1
    decision := "accept_evidence"
    evidenceDecisions := [⟨0, .accepted, none⟩, ⟨1, .rejected, none⟩]
    conclusion := "c"
    note := none
    analysisId := none
    expectedFactRevision := 0
    confidence := none
    factStatus := status
    isPublic := true
    distinct := by simp
    someAccepted := ⟨_, List.mem_cons_self, rfl⟩ }

/-- The case is opened and decided. -/
def decided (status : {s : FactStatus // s = .current ∨ s = .underReview}) : List Op :=
  [⟨0, admin, none, .createFragment (.id 0) (fragment none none 0)⟩,
    ⟨0, admin, none, .createFragment (.id 0) (fragment none none 0)⟩,
    ⟨1, admin, none, .createConflict (.id 0) conflict⟩,
    ⟨2, admin, none, .submitConflictDecision (.id 0) (decision status)⟩]

end Sample

section Versions

/-- The versions of a fact, as its record describes them. -/
structure FactRecord.Chained (facts : Facts) (id : Id) (r : FactRecord) : Prop where
  numbered : ∀ n, (∃ k v, facts.versions.get k = some v ∧ v.factRecordId = id ∧ v.revision = n) ↔
    1 ≤ n ∧ n ≤ r.currentRevision
  distinct : ∀ k l v w, facts.versions.get k = some v → facts.versions.get l = some w →
    v.factRecordId = id → w.factRecordId = id → v.revision = w.revision → k = l
  first : ∀ k v, facts.versions.get k = some v → v.factRecordId = id → v.revision = 1 →
    v.previousVersionId = none
  linked : ∀ k v, facts.versions.get k = some v → v.factRecordId = id → v.revision ≠ 1 →
    ∃ l w, v.previousVersionId = some l ∧ facts.versions.get l = some w ∧ w.factRecordId = id ∧
      w.revision + 1 = v.revision
  head : ∃ k v, r.currentVersionId = some k ∧ facts.versions.get k = some v ∧
    v.factRecordId = id ∧ v.revision = r.currentRevision ∧ r.status = v.status
  opened : ∀ k v, facts.versions.get k = some v → v.factRecordId = id →
    (v.validTo = none ↔ r.currentVersionId = some k)

theorem Facts.WellFormed.chainedRecord {facts : Facts} (h : facts.WellFormed) {id : Id}
    {r : FactRecord} (hr : facts.records.get id = some r) : r.Chained facts id := by
  have hc := h.chained hr
  obtain ⟨k, v, hk, hv, ho, hrev⟩ := h.currentVersion hr
  exact
    { numbered := fun n =>
        ⟨fun ⟨_, _, hl, hlo, hn⟩ => hn ▸ hc.bounds hl hlo, fun hn => hc.numbered hn.1 hn.2⟩
      distinct := fun _ _ _ _ hl hm hlo hmo heq => hc.unique hl hm hlo hmo heq
      first := fun _ _ hl hlo hone => hc.first hl hlo hone
      linked := by
        intro l w hl hlo hne
        have hb : 1 ≤ w.revision ∧ w.revision ≤ r.currentRevision := hc.bounds hl hlo
        obtain ⟨m, u, hm, hmo, hu⟩ := hc.numbered (n := w.revision - 1) (by omega) (by omega)
        have hu : u.revision = w.revision - 1 := hu
        have hnext : w.revision = u.revision + 1 := by omega
        exact ⟨m, u, hc.linked hm hl hmo hlo hnext, hm, hmo, hnext.symm⟩
      head := ⟨k, v, hk, hv, ho, hrev, h.mirrored hr (by simp [Facts.currentVersion, hk, hv])⟩
      opened := by
        intro l w hl hlo
        rw [hk, Option.some.injEq]
        refine (hc.opened hl hlo).trans ⟨fun hw => hc.unique hv hl ho hlo (hrev.trans hw.symm), ?_⟩
        rintro rfl
        exact Option.some.inj (hl.symm.trans hv) ▸ hrev }

/-- In every reachable state the versions of every fact are numbered without gaps, linked in
order, and only the last one is open; the record mirrors it. -/
theorem reached_facts_chained (env : Env) (incidents : Table Incident)
    (devices : Table AnonymousDevice) (attachments : Table Attachment) (ops : List Op) :
    let facts := (reached env incidents devices attachments ops).facts
    facts.records.All (FactRecord.Chained facts) :=
  fun _ _ hr => (reached_sound env incidents devices attachments ops).facts.chainedRecord hr

end Versions
end CrisisMosaic
