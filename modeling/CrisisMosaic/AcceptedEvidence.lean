import CrisisMosaic.Resolution

/-!
# What a current fact rests on

A current fact was decided by a case that is still resolved, and every row it
accepted is current evidence of that case. The rows of a resolved case stay
current or its fact is reviewed, except where a request supersedes an accepted
row itself.
-/

namespace CrisisMosaic
open Relational Store

namespace Store

/-- The accepted rows of the version are current evidence of the case `c`, which decided it. -/
structure Supports (s : Store) (c : Id) (r : FactRecord) (v : FactVersion) : Prop where
  case : ∃ x, s.cases.get c = some x ∧ x.incidentId = r.incidentId ∧ x.factKey = r.factKey ∧
    x.status = .resolved
  accepted : ∀ i ∈ v.acceptedEvidenceIds, ∃ e, s.evidence.get i = some e ∧ e.conflictId = c ∧
    e.isCurrent = true

def FactsSupported (s : Store) : Prop :=
  ∀ id r v, s.facts.records.get id = some r → r.status = .current →
    s.facts.currentVersion r = some v → ∃ c, s.Supports c r v

variable {b t : Store}

/-- The row was accepted by the current version of a current fact. -/
def IsAccepted (s : Store) (i : Id) : Prop :=
  ∃ id r v, s.facts.records.get id = some r ∧ r.status = .current ∧
    s.facts.currentVersion r = some v ∧ i ∈ v.acceptedEvidenceIds

theorem Works.factsSupported {asked : Asked} {reopens : Id → Prop} (h : b.Works asked reopens t)
    (hwf : b.facts.WellFormed) (hb : b.FactsSupported)
    (hkept : ∀ i e, b.IsAccepted i → b.evidence.get i = some e → ¬ asked.supersedes e) :
    t.FactsSupported := by
  intro id r v hr hcur hv
  have hreview : r.status ≠ .underReview := by simp [hcur]
  obtain ⟨hr₀, hv₀⟩ := h.board.untouched hwf hr hreview
  have hv₀ : b.facts.currentVersion r = some v := hv₀.trans hv
  obtain ⟨c, ⟨x, hx, hi, hk, hres⟩, hacc⟩ := hb id r v hr₀ hcur hv₀
  obtain ⟨y, hy, hxy⟩ := h.cases.get_some hx
  have hxy : x.Progress t.facts y := hxy
  refine ⟨c, ⟨y, hy, hxy.incident.trans hi, hxy.factKey.trans hk, ?_⟩, fun i hmem => ?_⟩
  · by_contra hne
    exact hreview ((hxy.left hres hne).2 id r hr hi.symm hk.symm)
  · obtain ⟨e, he, hec, hecur⟩ := hacc i hmem
    obtain ⟨e', he'⟩ := Table.get_of_lt ((Table.lt_size he).trans_le h.size)
    have hrow := h.evidence i e' he'
    rw [he] at hrow
    cases hrow with
    | kept => exact ⟨e, he', hec, hecur⟩
    | gained _ hno _ _ => exact absurd hecur (by simp [hno])
    | lost _ _ _ hwhy _ =>
      -- the row was not superseded, so the fact of its resolved case disowns it
      rcases hwhy with hasked | hreleased
      · exact absurd hasked (hkept i e ⟨id, r, v, hr₀, hcur, hv₀, hmem⟩ he)
      · have hdis := (hreleased x (hec ▸ hx)).resolve_left fun hne => hne hres
        exact absurd (List.mem_singleton_self i)
          (hdis id r v hr hi.symm hk.symm hreview hv i hmem)

theorem Quiet.factsSupported (k : b.Quiet t) (hb : b.FactsSupported) : t.FactsSupported := by
  intro id r v hr hcur hv
  rw [k.facts] at hr hv
  obtain ⟨c, ⟨x, hx⟩, hacc⟩ := hb id r v hr hcur hv
  exact ⟨c, ⟨x, k.cases ▸ hx⟩, k.evidence ▸ hacc⟩

end Store

section Steps
variable {env : Env} {db : Db} {op : Op} {o : Outcome}

/-- A case that supports a fact is resolved, so restating another leaves it alone. -/
theorem Restated.factsSupported {b t : Store} {id : Id} {status : CaseStatus} {x : ConflictCase}
    (h : Restated b t id status) (hx : b.cases.get id = some x) (hne : x.status ≠ .resolved)
    (hb : b.FactsSupported) : t.FactsSupported := by
  intro fid r v hr hcur hv
  rw [h.facts] at hr hv
  obtain ⟨c, ⟨y, hy, hi, hk, hres⟩, hacc⟩ := hb fid r v hr hcur hv
  have hc : id ≠ c := by
    rintro rfl
    exact hne (Option.some.inj (hx.symm.trans hy) ▸ hres)
  refine ⟨c, ⟨y, ?_, hi, hk, hres⟩, h.evidence ▸ hacc⟩
  rw [h.cases, Table.get_modify_of_ne _ _ hc, hy]

theorem DecisionRequest.acceptedIds_submitted (p : DecisionRequest) {i : Id}
    (h : i ∈ p.acceptedIds) : i ∈ p.submittedIds := by
  simp only [acceptedIds, List.mem_map, List.mem_filter] at h
  obtain ⟨d, ⟨hd, -⟩, rfl⟩ := h
  exact List.mem_map_of_mem hd

theorem Decision.factsSupported {now : Time} {s t : Store} {id : Id} {payload : DecisionRequest}
    {x : ConflictCase} {ready : Facts} {factId : Id} {record : FactRecord} {draft : VersionDraft}
    (h : Decision env now s t id payload x ready factId record draft) (hwf : s.facts.WellFormed)
    (hs : s.FactsSupported) : t.FactsSupported := by
  intro j r v hr hcur hv
  rcases h.record_cases hwf hr with ⟨rfl, w, hw, hwrite⟩ | ⟨hne, hr₀, hsame⟩
  · obtain rfl := Option.some.inj (hw.symm.trans hv)
    obtain ⟨decidedBy, resolution, hcases⟩ := h.cases
    refine ⟨id, ⟨resolveCase now x decidedBy resolution true, ?_, hwrite.incident.symm,
      hwrite.factKey.symm, rfl⟩, fun i hi => ?_⟩
    · simp [hcases, h.case]
    · rw [hwrite.accepted] at hi
      rw [h.evidence]
      exact mem_currentEvidence.mp ((h.disposed i).mp (payload.acceptedIds_submitted hi))
  · obtain ⟨c, ⟨y, hy, hi, hk, hres⟩, hacc⟩ := hs j r v hr₀ hcur (hsame.symm.trans hv)
    obtain ⟨z, hz, -⟩ := h.casesTrack.get_some hy
    obtain ⟨y', hy', hprogress, hstay⟩ := h.tracks hz
    obtain rfl := Option.some.inj (hy.symm.trans hy')
    exact ⟨c, ⟨z, hz, hprogress.incident.trans hi, hprogress.factKey.trans hk, hstay hres⟩,
      h.evidence ▸ hacc⟩

/-- No accepted row of a current fact is superseded by a request that cites its source again. -/
def SupersedesNoAccepted (env : Env) (db : Db) (op : Op) : Prop :=
  ∀ i e o, transact env db op = .ok o → db.toStore.IsAccepted i → db.evidence.get i = some e →
    ¬ (op.asked env db).supersedes e

theorem Effect.factsSupported (h : Effect env db op o) (hs : db.toStore.Sound)
    (hi : db.toStore.FactsSupported) (hb : db.toStore.AnalysesBehind)
    (hreq : ∀ c x, op.requests db c → db.cases.get c = some x → x.status ≠ .resolved)
    (hkept : ∀ i e, db.toStore.IsAccepted i → db.evidence.get i = some e →
      ¬ (op.asked env db).supersedes e) : o.db.toStore.FactsSupported := by
  cases h with
  | worked hw _ _ _ => exact hw.factsSupported hs.facts hi hkept
  | decided _ hd _ _ => exact hd.factsSupported hs.facts hi
  | @requested id x hop hr _ _ =>
    obtain ⟨status, -, hrestate⟩ := hr.status
    exact hrestate.factsSupported hr.case (hreq id x hop hr.case) hi
  | analysed ha _ _ =>
    rcases ha.unresolved hb with k | ⟨id, x, status, hx, hne, -, hr⟩
    · exact k.factsSupported hi
    · exact hr.factsSupported hx hne hi

theorem step_factsSupported (env : Env) (db : Db) (op : Op) (hs : db.toStore.Sound)
    (hb : db.toStore.AnalysesBehind) (hi : db.toStore.FactsSupported)
    (hreq : RequestsUnresolved env db op) (hkept : SupersedesNoAccepted env db op) :
    (step env db op).toStore.FactsSupported := by
  refine step_cases (P := fun t : Db => t.toStore.FactsSupported) hi fun o ho => ?_
  have hbegin : db.begin.toStore.FactsSupported := fun id r v hr hcur hv =>
    let ⟨c, hsup⟩ := hi id r v hr hcur hv
    ⟨c, hsup.case, hsup.accepted⟩
  exact (transact_effect ho hs).factsSupported ⟨hs.facts, hs.upToDate, hs.withdrawn⟩ hbegin hb
    (fun c x hop hx => hreq c x o ho hop hx) fun i e ha he => hkept i e o ho ha he

end Steps

/-- In a run that requests no analysis for a resolved case and supersedes no accepted row, a
current fact rests on current evidence. -/
theorem current_facts_rest_on_current_evidence (env : Env) (incidents : Table Incident)
    (devices : Table AnonymousDevice) (attachments : Table Attachment) (ops : List Op)
    (hops : Along (step env) (fun db op => RequestsUnresolved env db op ∧
      SupersedesNoAccepted env db op) (Db.initial incidents devices attachments) ops) :
    let s := reached env incidents devices attachments ops
    ∀ id r v i, s.facts.records.get id = some r → r.status = .current →
      s.facts.currentVersion r = some v → i ∈ v.acceptedEvidenceIds →
      ∃ e, s.evidence.get i = some e ∧ e.isCurrent = true := by
  intro s id r v i hr hcur hv hi
  have hinv := (run_invariant (step env) (I := fun t : Db => t.toStore.Sound ∧
    t.toStore.AnalysesBehind ∧ t.toStore.FactsSupported)
    (fun t op ht hop => ⟨step_sound env t op ht.1, step_analysesBehind env t op ht.1 ht.2.1,
      step_factsSupported env t op ht.1 ht.2.1 ht.2.2 hop.1 hop.2⟩)
    ⟨initial_sound incidents devices attachments,
      reached_analysesBehind env incidents devices attachments [],
      fun _ _ _ h => nomatch (Table.get_empty _).symm.trans h⟩ hops).2.2
  obtain ⟨c, -, hacc⟩ := hinv id r v hr hcur hv
  obtain ⟨e, he, -, hecur⟩ := hacc i hi
  exact ⟨e, he, hecur⟩

theorem decided_fact_rests_on_its_evidence : ∃ r v e,
    let s := Sample.reached (Sample.decided ⟨.current, Or.inl rfl⟩)
    s.facts.records.get 0 = some r ∧ r.status = .current ∧ s.facts.currentVersion r = some v ∧
      0 ∈ v.acceptedEvidenceIds ∧ s.evidence.get 0 = some e ∧ e.isCurrent = true := by
  obtain ⟨r, hr, h⟩ := (Option.any_eq_true _ _).mp
    (show ((Sample.reached (Sample.decided ⟨.current, Or.inl rfl⟩)).facts.records.get 0).any
      (fun r => r.status = .current ∧
        ((Sample.reached (Sample.decided ⟨.current, Or.inl rfl⟩)).facts.currentVersion r).any
          (fun v => 0 ∈ v.acceptedEvidenceIds) = true) = true by decide +kernel)
  obtain ⟨hcur, h⟩ := of_decide_eq_true h
  obtain ⟨v, hv, hmem⟩ := (Option.any_eq_true _ _).mp h
  have hops : Along (step Sample.env) (fun db op => RequestsUnresolved Sample.env db op ∧
      SupersedesNoAccepted Sample.env db op) Sample.initial (Sample.decided ⟨.current, Or.inl rfl⟩) :=
    ⟨⟨fun _ _ _ _ h => h.elim, fun _ _ _ _ _ _ h => h.elim⟩,
      ⟨fun _ _ _ _ h => h.elim, fun _ _ _ _ _ _ h => h.elim⟩,
      ⟨fun _ _ _ _ h => h.elim, fun _ _ _ _ _ _ h => h.elim⟩,
      ⟨fun _ _ _ _ h => h.elim, fun _ _ _ _ _ _ h => h.elim⟩, trivial⟩
  obtain ⟨e, he, hecur⟩ := current_facts_rest_on_current_evidence _ _ _ _ _ hops 0 r v 0 hr hcur hv
    (of_decide_eq_true hmem)
  exact ⟨r, v, e, hr, hcur, hv, of_decide_eq_true hmem, he, hecur⟩

/-- A case is decided, and the source of the accepted row is appended again. -/
def appendedAfterDecision : List Op :=
  Sample.decided ⟨.current, Sample.current_allowed⟩ ++
    [⟨3, Sample.admin, none, .appendConflictEvidence (.id 0) 2 [⟨.fragment, 0, none⟩]⟩]

theorem superseded_evidence_leaves_fact_current : ∃ r v e,
    let s := Sample.reached appendedAfterDecision
    s.facts.records.get 0 = some r ∧ r.status = .current ∧ s.facts.currentVersion r = some v ∧
      0 ∈ v.acceptedEvidenceIds ∧ s.evidence.get 0 = some e ∧ e.isCurrent = false := by
  obtain ⟨r, hr, h⟩ := (Option.any_eq_true _ _).mp
    (show ((Sample.reached appendedAfterDecision).facts.records.get 0).any (fun r => r.status = .current ∧
      ((Sample.reached appendedAfterDecision).facts.currentVersion r).any
        (fun v => 0 ∈ v.acceptedEvidenceIds) = true) = true by decide +kernel)
  obtain ⟨hcur, h⟩ := of_decide_eq_true h
  obtain ⟨v, hv, hmem⟩ := (Option.any_eq_true _ _).mp h
  obtain ⟨e, he, hecur⟩ := (Option.any_eq_true _ _).mp
    (show ((Sample.reached appendedAfterDecision).evidence.get 0).any (fun e => !e.isCurrent) = true by
      decide +kernel)
  exact ⟨r, v, e, hr, hcur, hv, of_decide_eq_true hmem, he, by simpa using hecur⟩

end CrisisMosaic
