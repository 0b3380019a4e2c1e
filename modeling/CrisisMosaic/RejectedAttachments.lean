import CrisisMosaic.Announcements

/-!
# Rejections are final

While an attachment is announced rejected, the only live job that may be left of it is
the one whose failure the worker is about to record, at its last attempt.
-/

namespace CrisisMosaic
open Relational

/-- The job the worker holds. -/
def MediaWorker.job : MediaWorker → Option Id
  | .idle => none
  | .claimed job | .executing job _ _ | .finishing job _ => some job

/-- The worker's job is running, and nobody else assigns a rejection. -/
structure UploadState.Working (s : UploadState) : Prop where
  running : ∀ job ∈ s.worker.job, ∃ j, s.db.jobs.get job = some j ∧ j.status = .running
  reasons : ∀ job task m, s.worker = .executing job task m →
    ∃ u, s.db.uploads.get m.id = some u ∧ u.rejectionReason = m.upload.rejectionReason

/-- What is left to do for an attachment that is announced rejected. -/
def UploadState.Final (s : UploadState) (log : List Announcement) : Prop :=
  ∀ a, RejectedSince a log → ∀ k j, s.db.jobs.get k = some j → j.payload.attachmentId = a →
    j.isLive = true → (∃ e, s.worker = .finishing k (some e)) ∧ j.maxAttempts ≤ j.attempts

structure UploadState.Settled (settings : MediaSettings) (s : UploadState)
    (log : List Announcement) : Prop where
  faithful : Faithful log
  consistent : s.Consistent settings
  working : s.Working
  final : s.Final log

section Working
variable {settings : MediaSettings} {text : TextLib} {s : UploadState} {t : MediaDb}

theorem MediaStep.reasons_keep {x : UploadStep} (h : MediaStep settings s t x)
    (hx : ∀ file remote, x ≠ .execute file remote) :
    s.db.uploads.Keeps (·.rejectionReason) t.uploads := by
  cases h with
  | quiet _ _ hu => exact hu ▸ .refl _ _
  | announced i incident device u _ _ hu => exact hu ▸ .insert _ _ _
  | received i m sha256 receivedAt hw ht =>
    exact ht ▸ .modify _ fun u => written_unchanged m.upload.rejectionReason u.rejectionReason
  | queued i m payload hw hlocal hidle ht => exact ht ▸ .refl _ _
  | completed i w m payload hw hc haccepts _ hu =>
    exact hu ▸ .modify _ fun u => written_unchanged m.upload.rejectionReason u.rejectionReason
  | claimed job j hworker hj hdue ht => exact ht ▸ .refl _ _
  | executed job task m file remote hworker ht => exact absurd rfl (hx file remote)
  | finished job error hworker ht => exact ht ▸ .refl _ _
  | bound _ _ hu => exact hu ▸ .refl _ _

/-- Requests add jobs and leave those there are. -/
theorem MediaStep.jobs_stay {i : Id} (h : MediaStep settings s t (.serve i)) {k : Id}
    {j : Job MediaPayload} (hj : s.db.jobs.get k = some j) : t.jobs.get k = some j := by
  cases h with
  | quiet _ _ _ hjobs => exact hjobs ▸ hj
  | announced _ incident device u _ _ _ hjobs => exact hjobs ▸ hj
  | received _ m sha256 receivedAt hw ht => exact ht ▸ hj
  | queued _ m payload hw hlocal hidle ht => exact ht ▸ Table.get_insert_of_some _ hj
  | completed _ w m payload hw hc haccepts _ _ hjobs =>
    exact hjobs ▸ Table.get_insert_of_some _ hj
  | bound _ _ _ hjobs => exact hjobs ▸ hj

/-- A worker that goes on with what it did still holds a running job. -/
theorem UploadState.Working.kept (h : s.Working) {t : UploadState} (hworker : t.worker = s.worker)
    (hjobs : ∀ k j, s.db.jobs.get k = some j → t.db.jobs.get k = some j)
    (hreasons : s.db.uploads.Keeps (·.rejectionReason) t.db.uploads) : t.Working where
  running := by
    intro job hjob
    rw [hworker] at hjob
    obtain ⟨j, hj, hrunning⟩ := h.running job hjob
    exact ⟨j, hjobs job j hj, hrunning⟩
  reasons := by
    intro job task m hm
    rw [hworker] at hm
    obtain ⟨u, hu, hreason⟩ := h.reasons job task m hm
    obtain ⟨v, hv, huv⟩ := hreasons _ u hu
    exact ⟨v, hv, huv.trans hreason⟩

theorem working_idle {t : UploadState} (h : t.worker = .idle) : t.Working where
  running := fun job hjob => by rw [h] at hjob; exact nomatch hjob
  reasons := fun job task m hm => by rw [h] at hm; exact nomatch hm

theorem uploadStep_working (hs : s.Working) (x : UploadStep) :
    (uploadStep settings text s x).Working := by
  have hreasons : (∀ file remote, x ≠ .execute file remote) →
      s.db.uploads.Keeps (·.rejectionReason) (uploadStep settings text s x).db.uploads :=
    (uploadStep_media settings text s x).reasons_keep
  cases x with
  | tick elapsed => exact hs.kept rfl (fun _ _ h => h) (.refl _ _)
  | restart => exact working_idle rfl
  | arrive r =>
    simp only [uploadStep]
    split <;> exact hs.kept rfl (fun _ _ h => h) (.refl _ _)
  | serve i =>
    refine hs.kept ?_ (fun k j hj => (uploadStep_media settings text s (.serve i)).jobs_stay hj)
      (hreasons fun _ _ h => by cases h)
    simp only [uploadStep]
    split <;> rfl
  | claim =>
    simp only [uploadStep]
    split
    · next job jobs hworker hclaim =>
      obtain ⟨⟨j, hj, hdue⟩, rfl⟩ := claimJob_some hclaim
      refine ⟨fun job' hjob => ?_, fun _ _ _ h => by cases h⟩
      obtain rfl := Option.some.inj hjob
      exact ⟨j.claimed s.now settings.jobLeaseSeconds,
        by rw [Table.get_modify_self, hj, Option.map_some], rfl⟩
    · exact hs
  | load =>
    simp only [uploadStep]
    split
    · next job hworker =>
      dsimp only [UploadState.startTask]
      split
      · exact working_idle rfl
      · next j hj =>
        by_cases hrunning : j.status = .running
        · rw [if_neg (not_not_intro hrunning)]
          cases hm : s.db.media j.payload.attachmentId with
          | error e =>
            refine ⟨fun job' hjob => ?_, fun _ _ _ h => by cases h⟩
            obtain rfl := Option.some.inj hjob
            exact ⟨j, hj, hrunning⟩
          | ok m =>
            refine ⟨fun job' hjob => ?_, fun _ _ m' h => ?_⟩
            · obtain rfl := Option.some.inj hjob
              exact ⟨j, hj, hrunning⟩
            · obtain ⟨-, -, rfl⟩ := MediaWorker.executing.inj h
              obtain ⟨hid, -, hu⟩ := media_ok hm
              exact ⟨_, hid ▸ hu, rfl⟩
        · rw [if_pos hrunning]
          exact working_idle rfl
    · exact hs
  | execute file remote =>
    simp only [uploadStep]
    split
    · next job task m hworker =>
      refine ⟨fun job' hjob => ?_, fun _ _ _ h => by cases h⟩
      obtain rfl := Option.some.inj hjob
      exact hs.running job (by rw [hworker]; rfl)
    · exact hs
  | finish =>
    simp only [uploadStep]
    split
    · exact working_idle rfl
    · exact hs
  | bindReport report row ids =>
    simp only [uploadStep]
    split <;> exact hs.kept rfl (fun _ _ h => h) (.refl _ _)
  | rebindReport report row ids =>
    simp only [uploadStep]
    split <;> exact hs.kept rfl (fun _ _ h => h) (.refl _ _)
  | bindAnswer answer incident device ids =>
    simp only [uploadStep]
    split <;> exact hs.kept rfl (fun _ _ h => h) (.refl _ _)

end Working

section Final
variable {settings : MediaSettings} {text : TextLib} {s : UploadState} {log : List Announcement}

/-- The reason an execution leaves is written over the row it was loaded from. -/
theorem state_rejected {job : Id} {task : MediaTask} {m : Media} {r : Media × Option ApiError}
    (hc : s.db.Holds m) (hs : s.Working) (hworker : s.worker = .executing job task m)
    (hr : LeavesReason r) : (s.db.saveMedia m r.1).state m.id = some .rejected := by
  obtain ⟨a, ha, -⟩ := hc.attachment
  obtain ⟨u, hu, hreason⟩ := hs.reasons job task m hworker
  have hrejected : (m.upload.save r.1.upload u).rejectionReason.any (· ≠ "") = true := by
    simp only [Upload.save, hreason, written_loaded]
    exact hr.2
  simp only [MediaDb.state, MediaDb.saveMedia, Table.get_modify_self, ha, hu, Option.map_some,
    attachmentState, hrejected, if_true]

/-- A worker that is not recording a failure leaves no live job to a rejected attachment. -/
theorem UploadState.Final.none_live (h : s.Final log) (hworker : ∀ job e, s.worker ≠ .finishing job (some e))
    {a : Id} (ha : RejectedSince a log) {k : Id} {j : Job MediaPayload}
    (hj : s.db.jobs.get k = some j) (hpayload : j.payload.attachmentId = a) : j.isLive = false := by
  by_contra hlive
  obtain ⟨⟨e, he⟩, -⟩ := h a ha k j hj hpayload (by simpa using hlive)
  exact hworker k e he

/-- Without an announcement the jobs must not change, unless to one that is over. -/
theorem UploadState.Final.kept (h : s.Final log) {t : UploadState} (hworker : t.worker = s.worker)
    (hjobs : t.db.jobs = s.db.jobs) : t.Final log := by
  intro a ha k j hj
  rw [hjobs] at hj
  rw [hworker]
  exact h a ha k j hj

/-- The executing worker announces what the execution left. -/
theorem settled_executed (hs : s.Settled settings log) {job : Id} {task : MediaTask} {m : Media}
    (hworker : s.worker = .executing job task m) {file : QuarantinedFile} {remote : RemoteObject}
    (hx : ClearsTask settings m file remote task ∨
      RejectsTask settings m file remote task ∧ s.LastAttempt job m.id) :
    Faithful (executed settings s task m file remote ++ log) ∧
      (uploadStep settings text s (.execute file remote)).Final
        (executed settings s task m file remote ++ log) := by
  obtain ⟨hholds, j, hj, hpayload⟩ := hs.consistent.executing job task m hworker
  have hnot : ∀ k e, s.worker ≠ .finishing k (some e) := fun k e h => nomatch hworker.symm.trans h
  obtain ⟨j', hj', hrunning⟩ := hs.working.running job (by rw [hworker]; rfl)
  obtain rfl := Option.some.inj (hj.symm.trans hj')
  have hjobs : (uploadStep settings text s (.execute file remote)).db.jobs = s.db.jobs := by
    simp only [uploadStep, hworker, MediaDb.saveMedia]
  have hafter : (uploadStep settings text s (.execute file remote)).worker =
      .finishing job (runTask settings task m file remote).2 := by
    simp only [uploadStep, hworker]
  rcases hx with hclears | ⟨hrejects, hlast⟩
  · have hnone := runTask_clears hclears
    have hlog : executed settings s task m file remote = [.ready m.id] := by
      simp only [executed, hnone]
    rw [hlog]
    refine ⟨⟨fun hrejected => ?_, hs.faithful⟩, fun a ha k i hi hattachment hlive => ?_⟩
    · have hdead := hs.final.none_live hnot hrejected hj (by rw [hpayload])
      simp [Job.isLive, hrunning] at hdead
    · rw [hjobs] at hi
      have hdead := hs.final.none_live hnot ha hi hattachment
      exact absurd (hdead.symm.trans hlive) Bool.false_ne_true
  · have hreason := runTask_rejects hrejects
    obtain ⟨e, he⟩ := Option.isSome_iff_exists.mp hreason.1
    have hlog : executed settings s task m file remote =
        [.rejected m.id ((s.db.saveMedia m (runTask settings task m file remote).1).state m.id)] := by
      simp only [executed, he]
    rw [hlog]
    refine ⟨⟨state_rejected hholds hs.working hworker hreason, hs.faithful⟩,
      fun a ha k i hi hattachment hlive => ?_⟩
    rw [hjobs] at hi
    rcases ha with rfl | ha
    · obtain rfl := hlast.only k (mem_liveJobs.mpr ⟨i, hi, hattachment, hlive⟩)
      exact ⟨⟨e, hafter.trans (by rw [he])⟩, hlast.exhausted i hi⟩
    · have hdead := hs.final.none_live hnot ha hi hattachment
      exact absurd (hdead.symm.trans hlive) Bool.false_ne_true

/-- A recorded failure without an attempt left is the end of the job. -/
theorem final_finished (hs : s.Settled settings log) {job : Id} {error : Option ApiError}
    (hworker : s.worker = .finishing job error) :
    (uploadStep settings text s .finish).Final log := by
  intro a ha k j hj hpayload hlive
  have hjobs : (uploadStep settings text s .finish).db.jobs =
      finishJob s.now (error.map ("ApiError: " ++ ·.message)) s.db.jobs job := by
    simp only [uploadStep, hworker]
  rw [hjobs] at hj
  rcases Table.get_modify_cases hj with ⟨rfl, i, hi, rfl⟩ | ⟨hne, hold⟩
  · have hpayload' : i.payload.attachmentId = a := by
      rw [← hpayload]
      split_ifs
      · rw [Job.payload_finished]
      · rfl
    obtain ⟨⟨e, he⟩, hexhausted⟩ := hs.final a ha job i hi hpayload' (Job.isLive_of_finished hlive)
    obtain ⟨-, rfl⟩ := MediaWorker.finishing.inj (hworker.symm.trans he)
    obtain ⟨i', hi', hrunning⟩ := hs.working.running job (by rw [hworker]; rfl)
    obtain rfl := Option.some.inj (hi.symm.trans hi')
    rw [if_pos hrunning] at hlive
    simp [Job.finished, hexhausted, Job.isLive] at hlive
  · obtain ⟨⟨e, he⟩, -⟩ := hs.final a ha k j hold hpayload hlive
    obtain ⟨rfl, -⟩ := MediaWorker.finishing.inj (hworker.symm.trans he)
    exact absurd rfl hne

theorem completes_of_completesRemote {w : Waiting} {m : Media} {payload : UploadCompleteRequest}
    (h : w.completesRemote = some (m, payload)) : w.completes = some m.id := by
  cases w with
  | complete k given =>
    simp only [Waiting.completesRemote] at h
    split_ifs at h
    obtain ⟨rfl, rfl⟩ := Prod.mk.inj (Option.some.inj h)
    rfl
  | callback k key etag size =>
    obtain ⟨rfl, rfl⟩ := Prod.mk.inj (Option.some.inj h)
    rfl
  | imageIntent device payload => cases h
  | mediaIntent device payload => cases h
  | content m sha256 receivedAt => cases h
  | createSession m device payload drawn => cases h
  | recordPart session loaded payload => cases h
  | renew session loaded drawn => cases h
  | delete session loaded => cases h
  | answered => cases h

/-- A request adds a job only for the attachment it completes. -/
theorem serveRequest_jobs {i : Id} {w : Waiting} {t : MediaDb}
    (hw : s.waiting.get i = some (some w))
    (h : serveRequest settings text s.now s.db w = .ok t) :
    t.jobs = s.db.jobs ∨ ∃ id task, w.completes = some id ∧
      t.jobs = s.db.jobs.insert (mediaJob settings s.now task id) := by
  have hstep := serve_media hw h
  cases hstep with
  | quiet _ _ _ hj => exact Or.inl hj
  | announced _ incident device u _ _ _ hj => exact Or.inl hj
  | received _ m sha256 receivedAt _ ht => exact Or.inl (by rw [ht]; rfl)
  | queued _ m payload hw' hlocal hidle ht =>
    obtain rfl := Option.some.inj (Option.some.inj (hw.symm.trans hw'))
    exact Or.inr ⟨m.id, _, rfl, congrArg MediaDb.jobs ht⟩
  | completed _ w' m payload hw' hc haccepts _ _ hj =>
    obtain rfl := Option.some.inj (Option.some.inj (hw.symm.trans hw'))
    exact Or.inr ⟨m.id, _, completes_of_completesRemote hc, hj⟩
  | bound _ _ _ hj => exact Or.inl hj

theorem served_settled (hs : s.Settled settings log) {i : Id} {w : Waiting}
    (hw : s.waiting.get i = some (some w)) {t : UploadState}
    (ht : t.db = commit s.db (serveRequest settings text s.now s.db w))
    (hworker : t.worker = s.worker) :
    Faithful (served settings text s w ++ log) ∧ t.Final (served settings text s w ++ log) := by
  cases hserve : serveRequest settings text s.now s.db w with
  | error e =>
    have hlog : served settings text s w = [] := by
      unfold served
      rw [hserve]
      cases w.completes <;> rfl
    rw [hlog]
    exact ⟨hs.faithful, hs.final.kept hworker (by rw [ht, hserve, commit_error])⟩
  | ok u =>
    rw [hserve, commit_ok] at ht
    cases hc : w.completes with
    | none =>
      have hlog : served settings text s w = [] := by
        unfold served
        rw [hserve, hc]
      rw [hlog]
      refine ⟨hs.faithful, hs.final.kept hworker ?_⟩
      rcases serveRequest_jobs hw hserve with hj | ⟨id, task, hid, -⟩
      · exact ht ▸ hj
      · exact nomatch hc.symm.trans hid
    | some id =>
      have hlog : served settings text s w = [.processing id] := by
        unfold served
        rw [hserve, hc]
      rw [hlog]
      refine ⟨hs.faithful, fun a ha k j hj hpayload hlive => ?_⟩
      obtain ⟨hne, ha⟩ := ha
      have hold : s.db.jobs.get k = some j := by
        rw [ht] at hj
        rcases serveRequest_jobs hw hserve with hsame | ⟨id', task, hid, hinsert⟩
        · exact hsame ▸ hj
        · obtain rfl := Option.some.inj (hc.symm.trans hid)
          rw [hinsert] at hj
          rcases Table.get_insert_cases hj with ⟨-, rfl⟩ | hold
          · exact absurd hpayload hne
          · exact hold
      rw [hworker]
      exact hs.final a ha k j hold hpayload hlive

theorem settled_served (hs : s.Settled settings log) (i : Id) :
    Faithful (announcements settings text s (.serve i) ++ log) ∧
      (uploadStep settings text s (.serve i)).Final
        (announcements settings text s (.serve i) ++ log) := by
  cases hw : s.waiting.get i with
  | none => simp only [uploadStep, announcements, hw]; exact ⟨hs.faithful, hs.final⟩
  | some waiting =>
    cases waiting with
    | none => simp only [uploadStep, announcements, hw]; exact ⟨hs.faithful, hs.final⟩
    | some w =>
      have hafter : (uploadStep settings text s (.serve i)).db =
          commit s.db (serveRequest settings text s.now s.db w) := by
        simp only [uploadStep, hw]
      have hworker : (uploadStep settings text s (.serve i)).worker = s.worker := by
        simp only [uploadStep, hw]
      have hlog : announcements settings text s (.serve i) = served settings text s w := by
        simp only [announcements, hw]
      rw [hlog]
      exact served_settled hs hw hafter hworker

theorem uploadStep_settled (hs : s.Settled settings log) (x : UploadStep)
    (hx : RejectsFinally settings s x) :
    (uploadStep settings text s x).Settled settings (announcements settings text s x ++ log) := by
  have hsettled : Faithful (announcements settings text s x ++ log) ∧
      (uploadStep settings text s x).Final (announcements settings text s x ++ log) := by
    -- a worker without a failure to record can take up no job of a rejected attachment
    have hidle : (∀ job e, s.worker ≠ .finishing job (some e)) → ∀ a, RejectedSince a log →
        ∀ k j, s.db.jobs.get k = some j → j.payload.attachmentId = a → j.isLive = false :=
      fun hworker a ha k j hj hpayload => hs.final.none_live hworker ha hj hpayload
    cases x with
    | serve i => exact settled_served hs i
    | execute file remote =>
      cases hworker : s.worker with
      | executing job task m =>
        simp only [announcements, hworker]
        exact settled_executed hs hworker (hx.executed file remote job task m rfl hworker)
      | idle => simp only [announcements, uploadStep, hworker]; exact ⟨hs.faithful, hs.final⟩
      | claimed job => simp only [announcements, uploadStep, hworker]; exact ⟨hs.faithful, hs.final⟩
      | finishing job error =>
        simp only [announcements, uploadStep, hworker]
        exact ⟨hs.faithful, hs.final⟩
    | finish =>
      cases hworker : s.worker with
      | finishing job error => exact ⟨hs.faithful, final_finished hs hworker⟩
      | idle => simp only [uploadStep, hworker]; exact ⟨hs.faithful, hs.final⟩
      | claimed job => simp only [uploadStep, hworker]; exact ⟨hs.faithful, hs.final⟩
      | executing job task m => simp only [uploadStep, hworker]; exact ⟨hs.faithful, hs.final⟩
    | claim =>
      refine ⟨hs.faithful, ?_⟩
      simp only [uploadStep]
      split
      · next job jobs hworker hclaim =>
        obtain ⟨⟨i, hi, hdue⟩, rfl⟩ := claimJob_some hclaim
        have hnot : ∀ job e, s.worker ≠ .finishing job (some e) :=
          fun job e h => by cases hworker.symm.trans h
        intro a ha k j hj hpayload hlive
        rcases Table.get_modify_cases hj with ⟨rfl, i', hi', rfl⟩ | ⟨-, hold⟩
        · obtain rfl := Option.some.inj (hi.symm.trans hi')
          have hdead := hidle hnot a ha job i hi hpayload
          exact absurd (hdead.symm.trans (Job.isLive_of_isDue hdue)) Bool.false_ne_true
        · have hdead := hidle hnot a ha k j hold hpayload
          exact absurd (hdead.symm.trans hlive) Bool.false_ne_true
      · exact hs.final
    | load =>
      refine ⟨hs.faithful, ?_⟩
      simp only [uploadStep]
      split
      · next job hworker =>
        have hnot : ∀ job e, s.worker ≠ .finishing job (some e) :=
          fun job e h => by cases hworker.symm.trans h
        intro a ha k j hj hpayload hlive
        have hdead := hidle hnot a ha k j hj hpayload
        exact absurd (hdead.symm.trans hlive) Bool.false_ne_true
      · exact hs.final
    | restart =>
      refine ⟨hs.faithful, fun a ha k j hj hpayload hlive => ?_⟩
      have hdead := hidle (hx.restarted rfl) a ha k j hj hpayload
      exact absurd (hdead.symm.trans hlive) Bool.false_ne_true
    | tick elapsed => exact ⟨hs.faithful, hs.final.kept rfl rfl⟩
    | arrive r =>
      refine ⟨hs.faithful, ?_⟩
      simp only [uploadStep]
      split <;> exact hs.final.kept rfl rfl
    | bindReport report row ids =>
      refine ⟨hs.faithful, ?_⟩
      simp only [uploadStep]
      split <;> exact hs.final.kept rfl rfl
    | rebindReport report row ids =>
      refine ⟨hs.faithful, ?_⟩
      simp only [uploadStep]
      split <;> exact hs.final.kept rfl rfl
    | bindAnswer answer incident device ids =>
      refine ⟨hs.faithful, ?_⟩
      simp only [uploadStep]
      split <;> exact hs.final.kept rfl rfl
  exact ⟨hsettled.1, uploadStep_consistent hs.consistent x, uploadStep_working hs.working x,
    hsettled.2⟩

end Final

theorem initial_settled (settings : MediaSettings) (now : Time) :
    (UploadState.initial now).Settled settings [] where
  faithful := trivial
  consistent := initial_consistent settings now
  working := working_idle rfl
  final := fun _ h => h.elim

theorem rejectsFinally_of_other {settings : MediaSettings} {s : UploadState} {x : UploadStep}
    (hexecute : ∀ file remote, x ≠ .execute file remote) (hrestart : x ≠ .restart) :
    RejectsFinally settings s x where
  executed := fun file remote _ _ _ hx => absurd hx (hexecute file remote)
  restarted := fun hx => absurd hx hrestart

namespace Sample

/-- The clip is announced, completed and loaded by the worker. -/
def loadedClip : List UploadStep :=
  [send (.mediaIntent clip), .serve 0, send (.complete 0 .none), .serve 1, .claim, .load]

/-- The worker processes media that it has complete. -/
def processesMedia (s : UploadState) : Bool :=
  match s.worker with
  | .executing _ task m => decide (task = .mediaProcess) && m.upload.uploadedAt.isSome &&
      m.upload.objectKey.any (· ≠ "") && decide (m.upload.storageProvider ≠ .qiniuKodo)
  | _ => false

def picture : ImageIntentRequest := ⟨0, "a.png", "image/png", 10, "h", ten_pos⟩

def sanitizedPicture : SanitizedImage :=
  ⟨"sanitized/0.jpg", "image/png", 2, 3, "p", ⟨"unavailable", none⟩⟩

/-- The quarantined file is missing at the first attempt and there at the second. -/
def retriedPicture : List UploadStep :=
  [send (.imageIntent picture), .serve 0, send (.content 0 "image/png" 10 "h"), .serve 1,
    send (.complete 0 .none), .serve 2, .claim, .load, .execute .missing storedObject, .finish,
    .tick 1000000, .claim, .load, .execute (.read "h" (.image sanitizedPicture)) storedObject]

end Sample

end CrisisMosaic
