import CrisisMosaic.MediaSteps

/-!
# Live processing jobs

A local upload is queued only when no live job processes it; a completion in remote
storage adds a job whether one is live or not. Apart from that, a job that is over
stays over.
-/

namespace CrisisMosaic
open Relational

/-! ### What is loaded -/

/-- The columns of an attachment that nobody assigns to. -/
def Attachment.identity (a : Attachment) : Id × Id × Time :=
  (a.incidentId, a.uploaderDeviceId, a.createdAt)

structure MediaDb.Holds (db : MediaDb) (m : Media) : Prop where
  attachment : ∃ a, db.attachments.get m.id = some a ∧ a.identity = m.attachment.identity
  upload : ∃ u, db.uploads.get m.id = some u ∧ u.fixed = m.upload.fixed

def Waiting.media : Waiting → Option Media
  | .content m _ _ | .complete m _ | .createSession m _ _ _ | .callback m _ _ _ => some m
  | _ => none

/-- What was loaded is of the stored rows, and a job is of the kind its upload is for. -/
structure UploadState.Consistent (settings : MediaSettings) (s : UploadState) : Prop where
  objectKeys : s.db.uploads.All fun _ u =>
    ∀ key ∈ u.objectKey, u.storageProvider = settings.mediaStorageProvider
  tasks : s.db.jobs.All fun _ j => ∃ u, s.db.uploads.get j.payload.attachmentId = some u ∧
    (j.payload.task = .attachmentProcess ↔ u.storageProvider = .localProxy)
  waiting : ∀ i w, s.waiting.get i = some (some w) → ∀ m ∈ w.media, s.db.Holds m
  callbacks : ∀ i m key etag size, s.waiting.get i = some (some (.callback m key etag size)) →
    m.upload.storageProvider ≠ .localProxy
  executing : ∀ job task m, s.worker = .executing job task m →
    s.db.Holds m ∧ ∃ j, s.db.jobs.get job = some j ∧ j.payload = ⟨task, m.id⟩

section Loaded
variable {settings : MediaSettings} {text : TextLib} {now : Time} {s : UploadState} {db t : MediaDb}
  {x : UploadStep} {m : Media}

theorem Waiting.IsLoaded.holds {w : Waiting} (h : w.IsLoaded db) (hm : m ∈ w.media) :
    db.Holds m := by
  cases w with
  | content k sha256 receivedAt =>
    obtain rfl := Option.some.inj hm
    exact ⟨⟨_, h.1, rfl⟩, ⟨_, h.2, rfl⟩⟩
  | complete k payload =>
    obtain rfl := Option.some.inj hm
    exact ⟨⟨_, h.1, rfl⟩, ⟨_, h.2, rfl⟩⟩
  | createSession k device payload drawn =>
    obtain rfl := Option.some.inj hm
    exact ⟨⟨_, h.1, rfl⟩, ⟨_, h.2, rfl⟩⟩
  | callback k key etag size =>
    obtain rfl := Option.some.inj hm
    exact ⟨⟨_, h.1, rfl⟩, ⟨_, h.2, rfl⟩⟩
  | imageIntent device payload => exact nomatch hm
  | mediaIntent device payload => exact nomatch hm
  | recordPart session loaded payload => exact nomatch hm
  | renew session loaded drawn => exact nomatch hm
  | delete session loaded => exact nomatch hm
  | answered => exact nomatch hm

/-- A callback is for the object of a remote upload. -/
theorem loadRequest_callback {r : UploadRequest} {key : String} {etag : Option String}
    {size : Option ℕ} (h : loadRequest settings now db r = .ok (.callback m key etag size)) :
    settings.mediaStorageProvider = .qiniuKodo ∧ m.upload.objectKey = some key := by
  unfold loadRequest at h
  cases hcall : r.call with
  | callback authorized objectKey given declared =>
    simp only [hcall, bind_ok, require_ok, found_ok, pure_ok] at h
    obtain ⟨-, hprovider, -, -, -, -, ⟨id, u⟩, hfind, k, hk, h⟩ := h
    obtain ⟨hget, hkey⟩ := Table.find_some hfind
    obtain ⟨-, -, hu⟩ := media_ok hk
    split_ifs at h
    obtain ⟨rfl, rfl, -, -⟩ := Waiting.callback.inj h
    obtain rfl := Option.some.inj (hget.symm.trans hu)
    exact ⟨hprovider, of_decide_eq_true hkey⟩
  | imageIntent payload => simp [hcall] at h
  | mediaIntent payload => simp [hcall] at h
  | content attachment contentType size sha256 => simp [hcall] at h
  | complete attachment payload => simp [hcall] at h
  | createSession attachment payload => simp [hcall] at h
  | recordPart attachment session payload => simp [hcall] at h
  | renew attachment session => simp [hcall] at h
  | delete attachment session => simp [hcall] at h

theorem MediaStep.attachments_keep (h : MediaStep settings s t x) :
    s.db.attachments.Keeps (·.identity) t.attachments := by
  cases h with
  | quiet _ ha => exact ha ▸ .refl _ _
  | announced i incident device u hu ha => exact ha ▸ .insert _ _ _
  | received i m sha256 receivedAt hw ht => exact ht ▸ .modify _ fun _ => rfl
  | queued i m payload hw hlocal hidle ht => exact ht ▸ .refl _ _
  | completed i w m payload hw hc haccepts ha => exact ha ▸ .modify _ fun _ => rfl
  | claimed job j hworker hj hdue ht => exact ht ▸ .refl _ _
  | executed job task m file remote hworker ht => exact ht ▸ .modify _ fun _ => rfl
  | finished job error hworker ht => exact ht ▸ .refl _ _
  | bound _ ha =>
    intro i a hget
    obtain ⟨b, hb, hsame⟩ := ha.right_of_some hget
    have hunbound : b.unbound = a.unbound := hsame
    have hidentity : b.unbound.identity = a.unbound.identity := congrArg Attachment.identity hunbound
    exact ⟨b, hb, hidentity⟩

theorem MediaStep.jobs_keep (h : MediaStep settings s t x) :
    s.db.jobs.Keeps (·.payload) t.jobs := by
  cases h with
  | quiet _ _ _ hj => exact hj ▸ .refl _ _
  | announced i incident device u hu _ _ hj => exact hj ▸ .refl _ _
  | received i m sha256 receivedAt hw ht => exact ht ▸ .refl _ _
  | queued i m payload hw hlocal hidle ht => exact ht ▸ .insert _ _ _
  | completed i w m payload hw hc haccepts _ _ hj => exact hj ▸ .insert _ _ _
  | claimed job j hworker hj hdue ht => exact ht ▸ .modify _ fun _ => rfl
  | executed job task m file remote hworker ht => exact ht ▸ .refl _ _
  | finished job error hworker ht =>
    refine ht ▸ .modify _ fun j => ?_
    split_ifs
    · exact Job.payload_finished _ _ j
    · rfl
  | bound _ _ _ hj => exact hj ▸ .refl _ _

theorem MediaDb.Holds.step (h : s.db.Holds m) (x : UploadStep) :
    (uploadStep settings text s x).db.Holds m := by
  obtain ⟨a, ha, hsame⟩ := h.attachment
  obtain ⟨u, hu, hfixed⟩ := h.upload
  obtain ⟨b, hb, hab⟩ := (uploadStep_media settings text s x).attachments_keep _ a ha
  obtain ⟨v, hv, huv⟩ := uploadStep_uploads settings text s x _ u hu
  exact ⟨⟨b, hb, hab.trans hsame⟩, ⟨v, hv, huv.trans hfixed⟩⟩

theorem MediaStep.objectKeys (h : MediaStep settings s t x) (hs : s.Consistent settings) :
    t.uploads.All fun _ u => ∀ key ∈ u.objectKey, u.storageProvider = settings.mediaStorageProvider := by
  have hold := hs.objectKeys
  cases h with
  | quiet _ _ hu => exact hu ▸ hold
  | announced i incident device u hu _ huploads => exact huploads ▸ hold.insert hu.objectKey
  | received i m sha256 receivedAt hw ht => exact ht ▸ hold.modify fun _ _ ha => ha
  | queued i m payload hw hlocal hidle ht => exact ht ▸ hold
  | completed i w m payload hw hc haccepts _ hu => exact hu ▸ hold.modify fun _ _ ha => ha
  | claimed job j hworker hj hdue ht => exact ht ▸ hold
  | executed job task m file remote hworker ht => exact ht ▸ hold.modify fun _ _ ha => ha
  | finished job error hworker ht => exact ht ▸ hold
  | bound _ _ hu => exact hu ▸ hold

/-- A row of the jobs after a step was there before, with its payload, or is new and of the kind
its upload is for. -/
theorem MediaStep.tasks (h : MediaStep settings s t x) (hs : s.Consistent settings) :
    t.jobs.All fun _ j => ∃ u, s.db.uploads.get j.payload.attachmentId = some u ∧
      (j.payload.task = .attachmentProcess ↔ u.storageProvider = .localProxy) := by
  have hold := hs.tasks
  cases h with
  | quiet _ _ _ hj => exact hj ▸ hold
  | announced i incident device u hu _ _ hj => exact hj ▸ hold
  | received i m sha256 receivedAt hw ht => exact ht ▸ hold
  | queued i m payload hw hlocal hidle ht =>
    obtain ⟨u, hu, hfixed⟩ := (hs.waiting i _ hw m rfl).upload
    have hprovider : u.storageProvider = m.upload.storageProvider := congrArg (·.1) hfixed
    exact ht ▸ hold.insert ⟨u, hu, iff_of_true rfl (hprovider.trans hlocal)⟩
  | completed i w m payload hw hc haccepts _ _ hj =>
    have hmedia : m ∈ w.media ∧ m.upload.storageProvider ≠ .localProxy := by
      cases w with
      | complete k given =>
        simp only [Waiting.completesRemote] at hc
        split_ifs at hc with hlocal
        obtain ⟨rfl, rfl⟩ := Prod.mk.inj (Option.some.inj hc)
        exact ⟨rfl, hlocal⟩
      | callback k key etag size =>
        obtain ⟨rfl, rfl⟩ := Prod.mk.inj (Option.some.inj hc)
        exact ⟨rfl, hs.callbacks i _ _ _ _ hw⟩
      | imageIntent device payload => cases hc
      | mediaIntent device payload => cases hc
      | content m sha256 receivedAt => cases hc
      | createSession m device payload drawn => cases hc
      | recordPart session loaded payload => cases hc
      | renew session loaded drawn => cases hc
      | delete session loaded => cases hc
      | answered => cases hc
    obtain ⟨u, hu, hfixed⟩ := (hs.waiting i w hw m hmedia.1).upload
    have hprovider : u.storageProvider = m.upload.storageProvider := congrArg (·.1) hfixed
    refine hj ▸ hold.insert ⟨u, hu, iff_of_false (fun htask => by cases htask) ?_⟩
    rw [hprovider]
    exact hmedia.2
  | claimed job j hworker hj hdue ht => exact ht ▸ hold.modify fun _ _ ha => ha
  | executed job task m file remote hworker ht => exact ht ▸ hold
  | finished job error hworker ht =>
    refine ht ▸ hold.modify fun j _ ha => ?_
    split_ifs
    · rw [Job.payload_finished]
      exact ha
    · exact ha
  | bound _ _ _ hj => exact hj ▸ hold

theorem uploadStep_consistent (hs : s.Consistent settings) (x : UploadStep) :
    (uploadStep settings text s x).Consistent settings where
  objectKeys := (uploadStep_media settings text s x).objectKeys hs
  tasks := by
    intro k j hj
    obtain ⟨u, hu, htask⟩ := (uploadStep_media settings text s x).tasks hs k j hj
    obtain ⟨v, hv, huv⟩ := uploadStep_uploads settings text s x _ u hu
    have hprovider : v.storageProvider = u.storageProvider := congrArg (·.1) huv
    exact ⟨v, hv, hprovider ▸ htask⟩
  waiting := by
    intro i w hw m hm
    rcases waiting_cases hw with hold | ⟨⟨r, -, hload⟩, hdb⟩
    · exact (hs.waiting i w hold m hm).step x
    · exact hdb ▸ (loadRequest_isLoaded hload).holds hm
  callbacks := by
    intro i m key etag size hw
    rcases waiting_cases hw with hold | ⟨⟨r, -, hload⟩, hdb⟩
    · exact hs.callbacks i m key etag size hold
    · obtain ⟨hkodo, hkey⟩ := loadRequest_callback hload
      have hprovider := hs.objectKeys m.id m.upload (loadRequest_isLoaded hload).2 key hkey
      rw [hprovider, hkodo]
      exact fun h => nomatch h
  executing := by
    intro job task m hworker
    have hstep := uploadStep_worker settings text s x
    rw [hworker] at hstep
    generalize hw : (MediaWorker.executing job task m) = w at hstep
    cases hstep with
    | kept _ =>
      obtain ⟨hholds, j, hj, hpayload⟩ := hs.executing job task m hw.symm
      obtain ⟨j', hj', hsame⟩ := (uploadStep_media settings text s x).jobs_keep job j hj
      exact ⟨hholds.step x, j', hj', hsame.trans hpayload⟩
    | loaded job' j m' hclaimed hj hrunning hm =>
      obtain ⟨rfl, rfl, rfl⟩ := MediaWorker.executing.inj hw
      obtain ⟨hid, ha, hu⟩ := media_ok hm
      have hholds : s.db.Holds m := ⟨⟨_, hid ▸ ha, rfl⟩, ⟨_, hid ▸ hu, rfl⟩⟩
      obtain ⟨j', hj', hsame⟩ := (uploadStep_media settings text s .load).jobs_keep job j hj
      exact ⟨hholds.step .load, j', hj', hsame.trans (by rw [hid])⟩
    | idle _ => exact nomatch hw
    | claimed _ _ _ _ _ => exact nomatch hw
    | refused _ _ _ _ _ _ _ => exact nomatch hw
    | executed _ _ _ _ _ _ => exact nomatch hw

end Loaded

/-! ### Live jobs -/

def MediaDb.liveJobs (db : MediaDb) (attachment : Id) : List Id :=
  db.jobs.select fun j => j.payload.attachmentId = attachment && j.isLive

def MediaDb.OneLiveJob (db : MediaDb) : Prop := ∀ attachment, (db.liveJobs attachment).length ≤ 1

/-- A completion in remote storage is accepted only while no live job processes the attachment. -/
def CompletesIdle (s : UploadState) (x : UploadStep) : Prop :=
  ∀ i w m payload, x = .serve i → s.waiting.get i = some (some w) →
    w.completesRemote = some (m, payload) → s.db.Accepts m payload → s.db.liveJobs m.id = []

section Jobs
variable {settings : MediaSettings} {text : TextLib} {s : UploadState} {db t : MediaDb}

theorem mem_liveJobs {a k : Id} : k ∈ db.liveJobs a ↔
    ∃ j, db.jobs.get k = some j ∧ j.payload.attachmentId = a ∧ j.isLive = true := by
  simp [MediaDb.liveJobs, Table.mem_select]

theorem length_liveJobs_queued {task : MediaTask} {a b : Id}
    (hj : t.jobs = db.jobs.insert (mediaJob settings s.now task a)) :
    (t.liveJobs b).length = (db.liveJobs b).length + if a = b then 1 else 0 := by
  rw [MediaDb.liveJobs, hj, Table.length_select_insert]
  by_cases hab : a = b
  · simp [MediaDb.liveJobs, mediaJob, Job.enqueued, Job.isLive, hab]
  · simp [MediaDb.liveJobs, mediaJob, Job.enqueued, hab]

/-- A local upload is queued while it has no live job. -/
theorem liveJobs_of_idle {m : Media} (hs : s.Consistent settings) (hm : s.db.Holds m)
    (hlocal : m.upload.storageProvider = .localProxy)
    (hidle : ∀ k j, s.db.jobs.get k = some j → j.payload = ⟨.attachmentProcess, m.id⟩ →
      j.isLive = false) : s.db.liveJobs m.id = [] := by
  rw [List.eq_nil_iff_forall_not_mem]
  intro k hk
  obtain ⟨j, hj, hpayload, hlive⟩ := mem_liveJobs.mp hk
  obtain ⟨u, hu, htask⟩ := hs.tasks k j hj
  obtain ⟨v, hv, hfixed⟩ := hm.upload
  rw [hpayload] at hu
  obtain rfl := Option.some.inj (hu.symm.trans hv)
  have hprovider : u.storageProvider = m.upload.storageProvider := congrArg (·.1) hfixed
  have htask' : j.payload.task = .attachmentProcess := htask.mpr (hprovider.trans hlocal)
  have hdead := hidle k j hj (by rw [← htask', ← hpayload])
  exact Bool.false_ne_true (hdead.symm.trans hlive)

/-- How the number of live jobs may grow. -/
theorem MediaStep.liveJobs {x : UploadStep} (h : MediaStep settings s t x)
    (hs : s.Consistent settings) (a : Id) :
    (t.liveJobs a).length ≤ max (s.db.liveJobs a).length 1 ∨
    ∃ i w m payload, x = .serve i ∧ s.waiting.get i = some (some w) ∧
      w.completesRemote = some (m, payload) ∧ s.db.Accepts m payload ∧ m.id = a ∧
      (t.liveJobs a).length = (s.db.liveJobs a).length + 1 := by
  have hsame : t.jobs = s.db.jobs → (t.liveJobs a).length ≤ max (s.db.liveJobs a).length 1 := by
    intro hj
    rw [MediaDb.liveJobs, hj]
    exact le_max_left _ _
  cases h with
  | quiet _ _ _ hj => exact Or.inl (hsame hj)
  | announced i incident device u hu _ _ hj => exact Or.inl (hsame hj)
  | received i m sha256 receivedAt hw ht => exact Or.inl (hsame (by rw [ht]; rfl))
  | executed job task m file remote hworker ht => exact Or.inl (hsame (by rw [ht]; rfl))
  | bound _ _ _ hj => exact Or.inl (hsame hj)
  | queued i m payload hw hlocal hidle ht =>
    left
    rw [length_liveJobs_queued (congrArg MediaDb.jobs ht)]
    by_cases hown : m.id = a
    · have hnone := liveJobs_of_idle hs (hs.waiting i _ hw m rfl) hlocal hidle
      rw [if_pos hown, ← hown, hnone]
      exact le_max_right _ _
    · rw [if_neg hown]
      exact le_max_left _ _
  | completed i w m payload hw hc haccepts _ _ hj =>
    have hlength : (t.liveJobs a).length = (s.db.liveJobs a).length + if m.id = a then 1 else 0 :=
      length_liveJobs_queued hj
    by_cases hown : m.id = a
    · rw [if_pos hown] at hlength
      exact Or.inr ⟨i, w, m, payload, rfl, hw, hc, haccepts, hown, hlength⟩
    · rw [if_neg hown] at hlength
      exact Or.inl (hlength.le.trans (le_max_left _ _))
  | claimed job j hworker hj hdue ht =>
    left
    subst ht
    refine le_max_of_le_left (Table.length_select_le fun k b hb hlive => ?_)
    rcases Table.get_modify_cases hb with ⟨rfl, c, hc, rfl⟩ | ⟨-, hold⟩
    · obtain rfl := Option.some.inj (hc.symm.trans hj)
      simp only [Bool.and_eq_true, decide_eq_true_eq, Job.payload_claimed] at hlive ⊢
      exact ⟨c, hc, of_decide_eq_true hlive.1, Job.isLive_of_isDue hdue⟩
    · exact ⟨b, hold, hlive⟩
  | finished job error hworker ht =>
    left
    subst ht
    refine le_max_of_le_left (Table.length_select_modify_le _ fun j hlive => ?_)
    simp only [Bool.and_eq_true, decide_eq_true_eq] at hlive ⊢
    refine ⟨?_, Job.isLive_of_finished hlive.2⟩
    rw [← hlive.1]
    split_ifs
    · rw [Job.payload_finished]
    · rfl

/-- An accepted completion in remote storage adds a live job. -/
theorem liveJobs_completed (settings : MediaSettings) (text : TextLib) {i : Id} {w : Waiting}
    {m : Media} {payload : UploadCompleteRequest}
    (hw : s.waiting.get i = some (some w)) (hc : w.completesRemote = some (m, payload))
    (haccepts : s.db.Accepts m payload) :
    ((uploadStep settings text s (.serve i)).db.liveJobs m.id).length =
      (s.db.liveJobs m.id).length + 1 := by
  obtain ⟨t, ht⟩ : ∃ t, serveRequest settings text s.now s.db w = .ok t := by
    obtain ⟨u, hu⟩ : ∃ u, completeRemoteUpload settings s.now s.db m payload = .ok u :=
      completeRemoteUpload_of_accepts haccepts
    rcases serveRequest_completes settings text s.now s.db hc with heq | heq
    · exact ⟨u, heq.trans hu⟩
    · exact ⟨finishSessions u m.id, by rw [heq, hu]; rfl⟩
  obtain ⟨-, -, -, hjobs⟩ := serveRequest_completed hc ht
  have hdb : (uploadStep settings text s (.serve i)).db = t := by
    simp only [uploadStep, hw, ht, commit_ok]
  rw [hdb, length_liveJobs_queued hjobs, if_pos rfl]

theorem oneLiveJob_iff (hs : s.Consistent settings) (hone : s.db.OneLiveJob) (x : UploadStep) :
    (uploadStep settings text s x).db.OneLiveJob ↔ CompletesIdle s x := by
  constructor
  · rintro hafter i w m payload rfl hw hc haccepts
    have hlength := liveJobs_completed settings text hw hc haccepts
    have hle := hafter m.id
    exact List.length_eq_zero_iff.mp (by omega)
  · intro hidle a
    rcases (uploadStep_media settings text s x).liveJobs hs a with
      hle | ⟨i, w, m, payload, hx, hw, hc, haccepts, rfl, hlength⟩
    · exact hle.trans (max_le (hone a) le_rfl)
    · rw [hlength, hidle i w m payload hx hw hc haccepts]
      exact le_rfl

end Jobs

theorem initial_consistent (settings : MediaSettings) (now : Time) :
    (UploadState.initial now).Consistent settings :=
  ⟨fun _ _ h => (nomatch h), fun _ _ h => (nomatch h), fun _ _ h => (nomatch h),
    fun _ _ _ _ _ h => (nomatch h), fun _ _ _ h => (nomatch h)⟩

/-- Along a run every attachment has at most one live job exactly when completions in remote
storage are accepted only for attachments without one. -/
theorem attachments_have_one_live_job_iff (settings : MediaSettings) (text : TextLib) (now : Time)
    (steps : List UploadStep) :
    Along (uploadStep settings text) (fun s x => (uploadStep settings text s x).db.OneLiveJob)
        (.initial now) steps ↔
      Along (uploadStep settings text) CompletesIdle (.initial now) steps :=
  along_congr (uploadStep settings text)
    (I := fun s => s.db.OneLiveJob ∧ s.Consistent settings)
    (fun _ x hs => oneLiveJob_iff hs.2 hs.1 x)
    (fun _ x hs h => ⟨h, uploadStep_consistent hs.2 x⟩)
    ⟨fun _ => Nat.zero_le _, initial_consistent settings now⟩

/-- The clip is completed twice before the worker claims a job. -/
theorem clip_has_two_live_jobs :
    ¬ (Sample.uploads [Sample.send (.mediaIntent Sample.clip), .serve 0,
      Sample.send (.complete 0 .none), .serve 1,
      Sample.send (.complete 0 .none), .serve 2]).db.OneLiveJob := by
  intro h
  have hone := h 0
  exact absurd hone (by decide +kernel)

end CrisisMosaic
