import CrisisMosaic.RateLimits

/-!
# How many reports are created in a minute

Each key has its own count. The reports of one actor to one incident are limited while the requests
for them name the incident in one way.
-/

namespace CrisisMosaic
open Relational Storage

namespace LimitedCreation
variable (c d : LimitedCreation)

def key : String := reportCreateKey c.subject c.header

def IsIn (subject : SubjectType × Id) (incidentId : Id) (t : Time) : Prop :=
  c.subject = subject ∧ c.incidentId = incidentId ∧ t - seconds 60 < c.time ∧ c.time ≤ t

instance (subject : SubjectType × Id) (incidentId : Id) (t : Time) :
    Decidable (c.IsIn subject incidentId t) := inferInstanceAs (Decidable (_ ∧ _ ∧ _ ∧ _))

/-- The two are of one subject and one incident, `d` less than a minute before `c`. -/
def Follows : Prop :=
  d.subject = c.subject ∧ d.incidentId = c.incidentId ∧ c.time - seconds 60 < d.time

end LimitedCreation

namespace LimitedService
variable {env : LimitedEnv} {s : LimitedService}

variable (env s) in
/-- No minute has more creations of one actor in one incident than may be. -/
def Limited : Prop := ∀ subject incidentId t,
  (s.created.filter (·.IsIn subject incidentId t)).length ≤ env.limits.rateLimitReportCreatesPerMinute

variable (env s) in
/-- The limiter is on, and a request names the incident as those did with which its actor has created
reports there in the last minute. -/
def SameSpelling : LimitedStep → Prop
  | .request _ r => env.limits.rateLimitEnabled = true ∧
      ∀ incidentId ∈ ((getIncident s.db.feed.incidents r.incident).toOption.map Prod.fst),
        ∀ c ∈ s.created, c.subject = r.subject → c.incidentId = incidentId →
          s.clock - seconds 60 < c.time → c.header = r.header
  | _ => True

variable (env s) in
/-- `log` has all the times at which a key was admitted. -/
structure Tracked (log : String → List Time) : Prop where
  tracks : ∀ key, SlidingWindow.Tracks (seconds 60) env.limits.rateLimitReportCreatesPerMinute s.clock
    (s.limiter.entries key) (log key)
  logged : ∀ key, ((s.created.filter (·.key = key)).map (·.time)).reverse.Sublist (log key)
  spelled : s.created.Pairwise fun c d => c.Follows d → d.header = c.header

/-- Creations in one minute have one key, so they are among the times of that key. -/
theorem Tracked.limited {log : String → List Time} (h : s.Tracked env log) : s.Limited env := by
  intro subject incidentId t
  obtain ⟨l, hl⟩ : ∃ l, l = s.created.filter (·.IsIn subject incidentId t) := ⟨_, rfl⟩
  rw [← hl]
  have hin : ∀ c ∈ l, c.IsIn subject incidentId t := by
    intro c hc
    rw [hl, List.mem_filter] at hc
    exact of_decide_eq_true hc.2
  have hspelled : l.Pairwise fun c d => c.Follows d → d.header = c.header := by
    rw [hl]
    exact h.spelled.sublist List.filter_sublist
  cases hcases : l with
  | nil => exact Nat.zero_le _
  | cons c rest =>
    have hc := hin c (hcases ▸ List.mem_cons_self)
    have hkey : ∀ d ∈ l, d.key = c.key := by
      intro d hd
      have hdin := hin d hd
      rw [hcases] at hd hspelled
      rcases List.mem_cons.mp hd with rfl | hd
      · rfl
      · have hfollows : c.Follows d := by
          refine ⟨hdin.1.trans hc.1.symm, hdin.2.1.trans hc.2.1.symm, ?_⟩
          exact lt_of_le_of_lt (sub_le_sub_right hc.2.2.2 _) hdin.2.2.1
        have hheader := (List.pairwise_cons.mp hspelled).1 d hd hfollows
        rw [LimitedCreation.key, LimitedCreation.key, hheader, hfollows.1]
    rw [← hcases]
    have hsub : l.Sublist (s.created.filter (·.key = c.key)) := by
      have hall : l.filter (·.key = c.key) = l :=
        List.filter_eq_self.mpr fun d hd => decide_eq_true (hkey d hd)
      rw [← hall, hl]
      exact List.filter_sublist.filter _
    have htimes : (l.map (·.time)).reverse.Sublist (log c.key) :=
      ((hsub.map _).reverse).trans (h.logged c.key)
    have hwindow : SlidingWindow.within (seconds 60) t (l.map (·.time)).reverse =
        (l.map (·.time)).reverse := by
      apply List.filter_eq_self.mpr
      intro x hx
      obtain ⟨d, hd, rfl⟩ := List.mem_map.mp (List.mem_reverse.mp hx)
      exact decide_eq_true (hin d hd).2.2
    have hle := (htimes.filter fun x => decide (t - seconds 60 < x ∧ x ≤ t)).length_le
    rw [← SlidingWindow.within, ← SlidingWindow.within, hwindow, List.length_reverse, List.length_map] at hle
    exact hle.trans ((h.tracks c.key).bounded t)

/-! ## Steps -/

theorem Tracked.kept {log : String → List Time} (h : s.Tracked env log) (db : Db)
    (records : IdempotencyRecords) : ({ s with db := db, records := records } : LimitedService).Tracked env
      log := ⟨h.tracks, h.logged, h.spelled⟩

theorem Tracked.wait {log : String → List Time} (h : s.Tracked env log) (elapsed : ℕ) :
    ({ s with clock := s.clock + elapsed } : LimitedService).Tracked env log := by
  refine ⟨?_, h.logged, h.spelled⟩
  intro key
  have hlater : s.clock ≤ s.clock + elapsed := le_add_of_nonneg_right (Int.natCast_nonneg elapsed)
  exact (h.tracks key).wait hlater

/-- A refused request leaves the times there were. -/
theorem Tracked.refused {log : String → List Time} (h : s.Tracked env log) {key : String} {retryAfter : ℤ}
    {limiter : RateLimiter}
    (hcheck : s.limiter.check s.clock key env.limits.rateLimitReportCreatesPerMinute =
      (some retryAfter, limiter)) : ({ s with limiter := limiter } : LimitedService).Tracked env log := by
  refine ⟨?_, h.logged, h.spelled⟩
  intro k
  unfold RateLimiter.check at hcheck
  dsimp only at hcheck
  split_ifs at hcheck
  · obtain rfl := (Prod.mk.inj hcheck).2
    dsimp only
    by_cases hk : k = key
    · subst hk
      rw [Function.update_self]
      exact (h.tracks k).expire le_rfl
    · rw [Function.update_of_ne hk]
      exact h.tracks k
  · exact nomatch (Prod.mk.inj hcheck).1

/-- An admitted one adds its own. -/
theorem Tracked.admitted {log : String → List Time} (h : s.Tracked env log) {key : String}
    {limiter : RateLimiter}
    (hcheck : s.limiter.check s.clock key env.limits.rateLimitReportCreatesPerMinute = (none, limiter)) :
    ({ s with limiter := limiter } : LimitedService).Tracked env
      (Function.update log key (log key ++ [s.clock])) := by
  unfold RateLimiter.check at hcheck
  dsimp only at hcheck
  split_ifs at hcheck with hfull
  · exact nomatch (Prod.mk.inj hcheck).1
  · obtain rfl := (Prod.mk.inj hcheck).2
    refine ⟨?_, ?_, h.spelled⟩
    · intro k
      dsimp only
      by_cases hk : k = key
      · subst hk
        rw [Function.update_self, Function.update_self]
        exact (h.tracks k).admitted le_rfl (by decide) (not_le.mp hfull)
      · rw [Function.update_of_ne hk, Function.update_of_ne hk]
        exact h.tracks k
    · intro k
      by_cases hk : k = key
      · subst hk
        rw [Function.update_self]
        exact (h.logged k).trans (List.sublist_append_left _ _)
      · rw [Function.update_of_ne hk]
        exact h.logged k

/-- The creation of an admitted request. -/
theorem Tracked.created {log : String → List Time} (h : s.Tracked env log) {c : LimitedCreation}
    {limiter : RateLimiter} (htime : c.time = s.clock)
    (hcheck : s.limiter.check s.clock c.key env.limits.rateLimitReportCreatesPerMinute = (none, limiter))
    (hspelled : ∀ d ∈ s.created, c.Follows d → d.header = c.header) :
    ({ s with limiter := limiter, created := c :: s.created } : LimitedService).Tracked env
      (Function.update log c.key (log c.key ++ [s.clock])) := by
  have hadmitted := h.admitted hcheck
  refine ⟨hadmitted.tracks, ?_, List.pairwise_cons.mpr ⟨hspelled, h.spelled⟩⟩
  intro k
  by_cases hk : c.key = k
  · subst hk
    have hfilter : (c :: s.created).filter (·.key = c.key) = c :: s.created.filter (·.key = c.key) :=
      List.filter_cons_of_pos (decide_eq_true rfl)
    show (((c :: s.created).filter (·.key = c.key)).map (·.time)).reverse.Sublist _
    rw [hfilter, List.map_cons, List.reverse_cons, Function.update_self, htime]
    exact (h.logged c.key).append (List.Sublist.refl _)
  · have hfilter : (c :: s.created).filter (·.key = k) = s.created.filter (·.key = k) :=
      List.filter_cons_of_neg (by simpa using hk)
    show (((c :: s.created).filter (·.key = k)).map (·.time)).reverse.Sublist _
    rw [hfilter, Function.update_of_ne (Ne.symm hk)]
    exact h.logged k

theorem Tracked.request {log : String → List Time} (h : s.Tracked env log) (now : Time) (r : ReportRequest)
    (hspelling : s.SameSpelling env (.request now r)) :
    ∃ log', (s.request env now r).Tracked env log' := by
  obtain ⟨henabled, hspelling⟩ := hspelling
  unfold LimitedService.request
  rw [ReportRequest.rateLimitRule, if_pos henabled]
  dsimp only
  split
  · next retryAfter limiter hcheck => exact ⟨log, h.refused hcheck⟩
  · next limiter hcheck =>
    refine ⟨Function.update log (reportCreateKey r.subject r.header)
      (log (reportCreateKey r.subject r.header) ++ [s.clock]), ?_⟩
    unfold LimitedService.serve
    dsimp only
    split
    · next incidentId row db records submission hincident hsubmit =>
      split_ifs
      · have hcreated := h.created (c := ⟨s.clock, r.subject, incidentId, r.header⟩) rfl hcheck (by
          intro d hd hfollows
          apply hspelling incidentId _ d hd hfollows.1 hfollows.2.1 hfollows.2.2
          rw [hincident]
          rfl)
        exact hcreated.kept db records
      · exact (h.admitted hcheck).kept db records
    · exact h.admitted hcheck

theorem Tracked.step (h : ∃ log, s.Tracked env log) (x : LimitedStep) (hspelling : s.SameSpelling env x) :
    ∃ log, (limitedStep env s x).Tracked env log := by
  obtain ⟨log, h⟩ := h
  cases x with
  | wait elapsed => exact ⟨log, h.wait elapsed⟩
  | request now r => exact h.request now r hspelling
  | others db records => exact ⟨log, h.kept db records⟩

end LimitedService

/-- While the limiter is on and the requests of an actor name an incident in one way within a minute,
no minute has more creations of the actor in the incident than may be. -/
theorem report_creations_are_limited (env : LimitedEnv) (clock : Time) (db : Db) (steps : List LimitedStep)
    (h : Along (limitedStep env) (fun s x => s.SameSpelling env x) (.initial clock db) steps) :
    (run (limitedStep env) (.initial clock db) steps).Limited env := by
  have hinitial : ∃ log, (LimitedService.initial clock db).Tracked env log :=
    ⟨fun _ => [], fun _ => .empty _ _ _, fun _ => List.Sublist.refl _, .nil⟩
  obtain ⟨log, htracked⟩ := run_invariant (limitedStep env) (I := fun s => ∃ log, s.Tracked env log)
    (fun _ x hs hx => LimitedService.Tracked.step hs x hx) hinitial h
  exact htracked.limited

/-! The limit is one report a minute. -/

namespace Sample

def limited : LimitedEnv where
  toEnv := env
  submission := ⟨⟨24⟩, fun _ => ""⟩
  limits := ⟨true, 1⟩

def create (header : Option Ref) (idempotencyKey : String) : LimitedStep :=
  .request 0 ⟨resident, header, .id 0, idempotencyKey, "r", waterReport, [], .ok none, .ok ()⟩

end Sample

/-- Two requests without the header, the second of which is refused. -/
theorem second_creation_is_refused :
    (run (limitedStep Sample.limited) (.initial 0 Sample.initial)
      [Sample.create none "a", Sample.create none "b"]).Limited Sample.limited := by
  apply report_creations_are_limited
  refine ⟨⟨rfl, ?_⟩, ⟨rfl, ?_⟩, trivial⟩ <;> decide +kernel

/-- One without the header, and one with the id in it. -/
theorem second_spelling_is_admitted :
    ¬ (run (limitedStep Sample.limited) (.initial 0 Sample.initial)
      [Sample.create none "a", Sample.create (some (.id 0)) "b"]).Limited Sample.limited := by
  intro h
  have hcount := h (.device, 0) 0 0
  exact absurd hcount (by decide +kernel)

end CrisisMosaic
