import CrisisMosaic.Reachable
import CrisisMosaic.Relational.Log
import CrisisMosaic.Submissions

/-!
# One report in a validity window

A report and the response that is stored for it are committed together, so a key that is
valid stands for one report: every success is answered with its response, and a body with
another hash is refused.
-/

namespace CrisisMosaic
open Relational

/-- The request passes the checks of the route, and this is the key of its record. -/
def ReportRequest.Addresses (r : ReportRequest) (db : Db) (key : RequestKey) : Prop :=
  ∃ incidentId incident, getIncident db.feed.incidents r.incident = .ok (incidentId, incident) ∧
    assertIncidentAccess r.actor incidentId incident r.header = .ok () ∧
    r.recordKey incidentId = key

def idempotencyConflict : ApiError :=
  conflictError "IDEMPOTENCY_CONFLICT" "该 Idempotency-Key 已用于不同请求" []

/-- What holds of the requests with one key. The validity window of a report is the time from its
creation until its record expires. -/
structure SubmittedOnce (env : Env) (settings : SubmissionSettings) (s : SubmissionState)
    (key : RequestKey) : Prop where
  /-- A report is created after the windows of all earlier ones have ended. -/
  reports : (s.creations key).Pairwise fun newer older => older.expiresAt ≤ newer.createdAt
  window : ∀ c ∈ s.creations key, c.expiresAt = c.createdAt + hours settings.idempotencyHours
  answers : ∀ c ∈ s.creations key, ∀ a ∈ s.answers key, c.createdAt ≤ a.time →
    a.time < c.expiresAt → a.response = c.response
  conflict : ∀ c ∈ s.creations key, s.now < c.expiresAt → ∀ r : ReportRequest,
    r.Addresses s.db.begin key → settings.requestHash r.body ≠ settings.requestHash c.body →
      submitReport env settings s.now s.db.begin s.records r = .error idempotencyConflict ∧
      ∀ fate, submissionStep env settings s (.post r fate) = s

/-- The record keeps the response of the report, and the hash of its body. -/
structure ReportCreation.Stored (settings : SubmissionSettings) (c : ReportCreation)
    (r : IdempotencyRecord) : Prop where
  expires : r.expiresAt = c.expiresAt
  hash : r.requestHash = settings.requestHash c.body
  body : r.responseBody = some c.response

structure ReportAnswer.Of (settings : SubmissionSettings) (c : ReportCreation) (a : ReportAnswer) :
    Prop where
  response : a.response = c.response
  created : c.createdAt ≤ a.time
  valid : a.time < c.expiresAt ∨ a.time = c.createdAt

structure SubmissionsKept (settings : SubmissionSettings) (key : RequestKey) (s : SubmissionState) :
    Prop where
  live : ∀ i r, s.records.record i = some r → r.key = key →
    ∃ c rest, s.creations key = c :: rest ∧ c.Stored settings r
  unique : ∀ i r j q, s.records.record i = some r → r.key = key → s.records.record j = some q →
    q.key = key → i = j
  gone : ∀ c rest, s.creations key = c :: rest →
    (∃ i r, s.records.record i = some r ∧ r.key = key) ∨ c.expiresAt ≤ s.now
  follows : (s.creations key).Pairwise fun newer older => older.expiresAt ≤ newer.createdAt
  past : ∀ c ∈ s.creations key, c.createdAt ≤ s.now
  window : ∀ c ∈ s.creations key, c.expiresAt = c.createdAt + hours settings.idempotencyHours
  answered : ∀ a ∈ s.answers key, ∃ c ∈ s.creations key, a.Of settings c
  valid : s.creations key ≠ [] → key.idempotencyKey ≠ "" ∧ key.idempotencyKey.length ≤ 200

section Kept
variable {env : Env} {settings : SubmissionSettings} {key : RequestKey} {s : SubmissionState}
  {c : ReportCreation}

/-- A creation whose window has not ended is the last one. -/
theorem SubmissionsKept.head (h : SubmissionsKept settings key s) (hc : c ∈ s.creations key)
    (hvalid : s.now < c.expiresAt) : ∃ rest, s.creations key = c :: rest := by
  cases hs : s.creations key with
  | nil => exact nomatch hs ▸ hc
  | cons d rest =>
    rw [hs] at hc
    rcases List.mem_cons.mp hc with rfl | hc
    · exact ⟨rest, rfl⟩
    · have hfollows := h.follows
      rw [hs, List.pairwise_cons] at hfollows
      have hended := hfollows.1 c hc
      have hpast := h.past d (hs ▸ List.mem_cons_self)
      exact absurd hvalid (not_lt.mpr (hended.trans hpast))

/-- Of the windows of a key, one at most contains the time. -/
theorem SubmissionsKept.window_unique (h : SubmissionsKept settings key s) {d : ReportCreation}
    {t : Time} (hc : c ∈ s.creations key) (hd : d ∈ s.creations key)
    (hct : c.createdAt ≤ t ∧ t < c.expiresAt) (hdt : d.createdAt ≤ t ∧ t < d.expiresAt) : c = d := by
  have hrel : (s.creations key).Pairwise fun x y =>
      x.createdAt ≤ t ∧ t < x.expiresAt → ¬ (y.createdAt ≤ t ∧ t < y.expiresAt) :=
    h.follows.imp fun hxy hx hy => absurd hy.2 (not_lt.mpr (hxy.trans hx.1))
  exact eq_of_pairwise_excludes hrel hc hd hct hdt

theorem SubmissionsKept.answer (h : SubmissionsKept settings key s) {a : ReportAnswer}
    (hc : c ∈ s.creations key) (ha : a ∈ s.answers key) (hcreated : c.createdAt ≤ a.time)
    (hvalid : a.time < c.expiresAt) : a.response = c.response := by
  obtain ⟨d, hd, hof⟩ := h.answered a ha
  have hlate : a.time < d.expiresAt := by
    rcases hof.valid with hlate | heq
    · exact hlate
    · have hcw := h.window c hc
      have hdw := h.window d hd
      linarith
  rw [h.window_unique hc hd ⟨hcreated, hvalid⟩ ⟨hof.created, hlate⟩]
  exact hof.response

/-- A valid key stands for its report: another body is refused and changes nothing. -/
theorem SubmissionsKept.conflict (env : Env) (h : SubmissionsKept settings key s) (hc : c ∈ s.creations key)
    (hvalid : s.now < c.expiresAt) {r : ReportRequest} (hr : r.Addresses s.db.begin key)
    (hbody : settings.requestHash r.body ≠ settings.requestHash c.body) :
    submitReport env settings s.now s.db.begin s.records r = .error idempotencyConflict := by
  obtain ⟨incidentId, incident, hincident, haccess, rfl⟩ := hr
  obtain ⟨rest, hcreations⟩ := h.head hc hvalid
  have hlive := (h.gone c rest hcreations).resolve_right (not_le.mpr hvalid)
  obtain ⟨i, q, hq⟩ := hlive
  have hconflict : s.records.reserveOrReplay settings.toIdempotencySettings s.now
      (r.recordKey incidentId) (settings.requestHash r.body) = .error idempotencyConflict := by
    refine IdempotencyRecords.reserveOrReplay_conflict (h.valid (List.ne_nil_of_mem hc)) hq ?_
    intro j p hp hpkey
    obtain ⟨d, rest', hd, hstored⟩ := h.live j p hp hpkey
    obtain ⟨rfl, -⟩ := List.cons.inj (hcreations.symm.trans hd)
    rw [hstored.expires, hstored.hash]
    exact ⟨hvalid, hbody.symm⟩
  unfold submitReport
  rw [hincident]
  simp only [bind, Except.bind]
  rw [haccess, hconflict]

theorem SubmissionsKept.submittedOnce (h : SubmissionsKept settings key s) :
    SubmittedOnce env settings s key where
  reports := h.follows
  window := h.window
  answers := fun c hc a ha hcreated hvalid => h.answer hc ha hcreated hvalid
  conflict := by
    intro c hc hvalid r hr hbody
    have hconflict := h.conflict env hc hvalid hr hbody
    refine ⟨hconflict, fun fate => ?_⟩
    simp only [submissionStep, hconflict, ite_self]

/-- Only the records of the key matter. -/
theorem SubmissionsKept.records (h : SubmissionsKept settings key s) (db : Db)
    {records : IdempotencyRecords}
    (hrecords : ∀ i r, r.key = key → (records.record i = some r ↔ s.records.record i = some r)) :
    SubmissionsKept settings key { s with db := db, records := records } where
  live := fun i r hr hkey => h.live i r ((hrecords i r hkey).mp hr) hkey
  unique := fun i r j q hr hkey hq hqkey =>
    h.unique i r j q ((hrecords i r hkey).mp hr) hkey ((hrecords j q hqkey).mp hq) hqkey
  gone := fun c rest hc => (h.gone c rest hc).imp_left fun ⟨i, r, hr, hkey⟩ =>
    ⟨i, r, (hrecords i r hkey).mpr hr, hkey⟩
  follows := h.follows
  past := h.past
  window := h.window
  answered := h.answered
  valid := h.valid

/-- A success is answered with the response of a report in whose window it falls. -/
theorem SubmissionsKept.noteAnswer (h : SubmissionsKept settings key s) {k : RequestKey}
    {a : ReportAnswer} (ha : k = key → ∃ c ∈ s.creations key, a.Of settings c) :
    SubmissionsKept settings key
      { s with answers := Function.update s.answers k (a :: s.answers k) } where
  live := h.live
  unique := h.unique
  gone := h.gone
  follows := h.follows
  past := h.past
  window := h.window
  valid := h.valid
  answered := by
    by_cases hk : k = key
    · subst hk
      dsimp only
      rw [Function.update_self]
      intro b hb
      rcases List.mem_cons.mp hb with rfl | hb
      · exact ha rfl
      · exact h.answered b hb
    · dsimp only
      rw [Function.update_of_ne (Ne.symm hk)]
      exact h.answered

theorem SubmissionsKept.retain (h : SubmissionsKept settings key s) {started : Time}
    (hstarted : started ≤ s.now) :
    SubmissionsKept settings key { s with records := s.records.deleteExpired started } where
  live := fun i r hr hkey => h.live i r (IdempotencyRecords.record_deleteExpired.mp hr).1 hkey
  unique := fun i r j q hr hkey hq hqkey =>
    h.unique i r j q (IdempotencyRecords.record_deleteExpired.mp hr).1 hkey
      (IdempotencyRecords.record_deleteExpired.mp hq).1 hqkey
  gone := by
    intro c rest hc
    rcases h.gone c rest hc with ⟨i, r, hr, hkey⟩ | hended
    · by_cases hvalid : started < r.expiresAt
      · exact Or.inl ⟨i, r, IdempotencyRecords.record_deleteExpired.mpr ⟨hr, hvalid⟩, hkey⟩
      · obtain ⟨d, rest', hd, hstored⟩ := h.live i r hr hkey
        obtain ⟨rfl, -⟩ := List.cons.inj (hd.symm.trans hc)
        exact Or.inr (hstored.expires ▸ (not_lt.mp hvalid).trans hstarted)
    · exact Or.inr hended
  follows := h.follows
  past := h.past
  window := h.window
  answered := h.answered
  valid := h.valid

open IdempotencyRecords in
/-- The report of a new window is created when the earlier ones have ended. -/
theorem SubmissionsKept.create (h : SubmissionsKept settings key s) {k : RequestKey}
    {r : ReportRequest} {reserved : IdempotencyRecords} {recordId : Id}
    (hreserves : Reserves settings.toIdempotencySettings s.now s.records k
      (settings.requestHash r.body) reserved recordId)
    (hvalid : k.idempotencyKey ≠ "" ∧ k.idempotencyKey.length ≤ 200) (db : Db) (id : Id)
    (response : Dict) :
    SubmissionsKept settings key
      { s with
        db := db
        records := reserved.finishReservation recordId 201 response
        creations := Function.update s.creations k
          (⟨id, r.body, response, s.now, s.now + hours settings.idempotencyHours⟩ ::
            s.creations k) } := by
  by_cases hk : k = key
  · subst hk
    have honly : ∀ j p, (reserved.finishReservation recordId 201 response).record j = some p →
        p.key = k → j = recordId ∧ p =
          { reservation settings.toIdempotencySettings s.now k (settings.requestHash r.body) with
            responseStatus := 201, responseBody := some response } := by
      intro j p hp hpkey
      have honce := fun {j p} => hreserves.record_eq (j := j) (r := p) fun i r j q hr hrk hq hqk =>
        h.unique i r j q hr hrk hq hqk
      rcases record_finishReservation hp with ⟨rfl, q, hq, rfl⟩ | ⟨hne, hold⟩
      · exact ⟨rfl, by rw [(honce hq hpkey).2]⟩
      · exact absurd (honce hold hpkey).1 hne
    have hcreations : Function.update s.creations k
        (⟨id, r.body, response, s.now, s.now + hours settings.idempotencyHours⟩ ::
          s.creations k) k = ⟨id, r.body, response, s.now, s.now + hours settings.idempotencyHours⟩ ::
            s.creations k := Function.update_self ..
    refine ⟨?_, ?_, ?_, ?_, ?_, ?_, ?_, fun _ => hvalid⟩
    · intro j p hp hpkey
      refine ⟨_, _, hcreations, ?_⟩
      rw [(honly j p hp hpkey).2]
      exact ⟨rfl, rfl, rfl⟩
    · intro j p j' p' hp hpkey hp' hpkey'
      rw [(honly j p hp hpkey).1, (honly j' p' hp' hpkey').1]
    · exact fun c rest _ =>
        Or.inl ⟨recordId, _, record_finishReservation_of_some hreserves.stored, rfl⟩
    · dsimp only
      rw [hcreations]
      refine List.pairwise_cons.mpr ⟨fun d hd => ?_, h.follows⟩
      by_contra hlate
      -- a window that has not ended has a record that is valid
      have hopen : s.now < d.expiresAt := not_le.mp hlate
      obtain ⟨rest, hs⟩ := h.head hd hopen
      obtain ⟨j, p, hp, hpkey⟩ := (h.gone d rest hs).resolve_right (not_le.mpr hopen)
      rcases hreserves.free with ⟨-, hnone⟩ | ⟨q, hq, hqkey, hexpired⟩
      · exact hnone j p hp hpkey
      · obtain ⟨d', rest', hd', hstored⟩ := h.live recordId q hq hqkey
        obtain ⟨rfl, -⟩ := List.cons.inj (hs.symm.trans hd')
        exact hlate (hstored.expires ▸ hexpired)
    · dsimp only
      rw [hcreations]
      intro d hd
      rcases List.mem_cons.mp hd with rfl | hd
      · exact le_rfl
      · exact h.past d hd
    · dsimp only
      rw [hcreations]
      intro d hd
      rcases List.mem_cons.mp hd with rfl | hd
      · rfl
      · exact h.window d hd
    · dsimp only
      rw [hcreations]
      intro a ha
      obtain ⟨d, hd, hof⟩ := h.answered a ha
      exact ⟨d, List.mem_cons_of_mem _ hd, hof⟩
  · have hcreations : Function.update s.creations k
        (⟨id, r.body, response, s.now, s.now + hours settings.idempotencyHours⟩ ::
          s.creations k) key = s.creations key := Function.update_of_ne (Ne.symm hk) ..
    have hrecords : ∀ j p, p.key = key →
        ((reserved.finishReservation recordId 201 response).record j = some p ↔
          s.records.record j = some p) := by
      intro j p hp
      refine (finishReservation_other (fun q hq => ?_) hp).trans
        (hreserves.record_iff (hp ▸ Ne.symm hk))
      rw [← Option.some.inj (hreserves.stored.symm.trans hq)]
      exact hk
    have hsame := h.records db hrecords
    refine ⟨?_, hsame.unique, ?_, ?_, ?_, ?_, ?_, ?_⟩ <;> dsimp only <;> rw [hcreations]
    · exact hsame.live
    · exact hsame.gone
    · exact hsame.follows
    · exact hsame.past
    · exact hsame.window
    · exact hsame.answered
    · exact hsame.valid

theorem SubmissionsKept.post (h : SubmissionsKept settings key s) {r : ReportRequest} {db : Db}
    {records : IdempotencyRecords} {submission : Submission} (answered : Bool)
    (hpost : submitReport env settings s.now s.db.begin s.records r = .ok (db, records, submission)) :
    SubmissionsKept settings key (s.accept settings r answered db records submission) := by
  obtain ⟨hsubmits, hvalid⟩ := submitReport_spec hpost
  cases hsubmits with
  | @replayed k status body hreplay =>
    have hsame := h.records s.db.begin fun _ _ _ => Iff.rfl
    cases answered with
    | false => exact hsame
    | true =>
      refine hsame.noteAnswer fun hk => ?_
      cases hreplay with
      | @replayed i q _ hq hqkey hopen hhash hbody =>
        obtain ⟨c, rest, hc, hstored⟩ := h.live i q hq (hqkey.trans hk)
        have hmem : c ∈ s.creations key := hc ▸ List.mem_cons_self
        refine ⟨c, hmem, ?_, h.past c hmem, Or.inl (hstored.expires ▸ hopen)⟩
        exact Option.some.inj (hbody.symm.trans hstored.body)
  | @created k recordId id _ reserved detection response hreserves hreport =>
    have hcreated := h.create hreserves hvalid db id response
    cases answered with
    | false => exact hcreated
    | true =>
      refine hcreated.noteAnswer fun hk => ?_
      subst hk
      refine ⟨⟨id, r.body, response, s.now, s.now + hours settings.idempotencyHours⟩, ?_, rfl, le_rfl,
        Or.inr rfl⟩
      dsimp only
      rw [Function.update_self]
      exact List.mem_cons_self

theorem SubmissionsKept.other (h : SubmissionsKept settings key s)
    (hkey : key.isReportRoute = true) {i : Id} (hother : s.isOther i = true)
    {q : IdempotencyRecord} (hq : s.records.record i = some q) : q.key ≠ key := by
  rintro rfl
  simp [SubmissionState.isOther, hq, hkey] at hother

/-- **A step keeps what holds of a key.** -/
theorem SubmissionsKept.step (h : SubmissionsKept settings key s) (hkey : key.isReportRoute = true)
    (x : SubmissionStep) : SubmissionsKept settings key (submissionStep env settings s x) := by
  cases x with
  | tick elapsed =>
    have hlater : s.now ≤ s.now + (elapsed : ℤ) := le_add_of_nonneg_right (Int.natCast_nonneg _)
    exact { h with
      gone := fun c rest hc => (h.gone c rest hc).imp_right fun he => he.trans hlater
      past := fun c hc => (h.past c hc).trans hlater }
  | post r fate =>
    simp only [submissionStep]
    split
    · exact h
    · split
      · rename_i db records submission hpost
        exact h.post _ hpost
      · exact h
  | operate op =>
    simp only [submissionStep]
    split
    · exact h
    · exact h.records _ fun _ _ _ => Iff.rfl
  | reserve k fingerprint started =>
    simp only [submissionStep]
    split
    · rename_i hother
      refine h.records s.db fun i r hr => ?_
      cases hreserve : s.records.reserveOrReplay settings.toIdempotencySettings started k fingerprint with
      | error e => exact Iff.rfl
      | ok x =>
        obtain ⟨records, outcome⟩ := x
        cases IdempotencyRecords.reserveOrReplay_spec hreserve with
        | replayed => exact Iff.rfl
        | reserved hreserves =>
          refine hreserves.record_iff fun hk => ?_
          rw [← hk, hr, hkey] at hother
          simp at hother
    · exact h
  | finish recordId statusCode body =>
    simp only [submissionStep]
    split
    · rename_i hother
      exact h.records s.db fun i r hr =>
        IdempotencyRecords.finishReservation_other (fun q hq => h.other hkey hother hq) hr
    · exact h
  | release recordId =>
    simp only [submissionStep]
    split
    · rename_i hother
      exact h.records s.db fun i r hr =>
        IdempotencyRecords.releaseReservation_other (fun q hq => h.other hkey hother hq) hr
    · exact h
  | retain started =>
    simp only [submissionStep]
    split
    · rename_i hstarted
      exact h.retain hstarted
    · exact h

theorem SubmissionsKept.initial (settings : SubmissionSettings) (key : RequestKey) (now : Time)
    (db : Db) : SubmissionsKept settings key (.initial now db) where
  live := nofun
  unique := nofun
  gone := nofun
  follows := .nil
  past := nofun
  window := nofun
  answered := nofun
  valid := fun hne => (hne rfl).elim

end Kept

end CrisisMosaic
