import CrisisMosaic.UploadCoverage

/-!
# What a step of the upload service does to attachments and jobs

`MediaStep` says it once, together with what the step found: the request it served,
the job it worked on, the completion it accepted. What a step does to the sessions
and their parts is `SessionsStep`.
-/

namespace CrisisMosaic
open Relational

/-- A completion in remote storage that waits for the write lock. -/
def Waiting.completesRemote : Waiting → Option (Media × UploadCompleteRequest)
  | .complete m payload => if m.upload.storageProvider = .localProxy then none else some (m, payload)
  | .callback m key etag size => some (m, ⟨none, some key, etag, size, []⟩)
  | _ => none

/-- The object key and the size fit, and a session that is named is active and holds the file. -/
structure MediaDb.Accepts (db : MediaDb) (m : Media) (payload : UploadCompleteRequest) : Prop where
  objectKey : ∀ declared ∈ m.upload.objectKey, ∀ key ∈ payload.objectKey,
    declared ≠ "" → key ≠ "" → declared = key
  sizeBytes : ∀ size ∈ payload.sizeBytes, size = m.upload.sizeBytes
  session : ∃ t, closeSession db m payload = .ok t

/-- All columns but the two that name the owner. -/
def Attachment.unbound (a : Attachment) : Attachment :=
  { a with reportId := none, directedAnswerId := none }

def Attachment.SameUpload (a b : Attachment) : Prop := b.unbound = a.unbound

abbrev SameButOwner (t u : Table Attachment) : Prop := t.Related Attachment.SameUpload u

section Binding
variable {t u v : Table Attachment}

theorem sameButOwner_trans (h : SameButOwner t u) (k : SameButOwner u v) : SameButOwner t v :=
  Table.Related.trans (fun _ _ _ hab hbc => Eq.trans hbc hab) h k

theorem bind_same {f : Attachment → Attachment} (hf : ∀ a : Attachment, a.SameUpload (f a))
    (ids : List Id) (t : Table Attachment) :
    SameButOwner t (ids.foldl (fun t i => t.modify i f) t) := by
  induction ids generalizing t with
  | nil => exact Table.Related.refl (R := Attachment.SameUpload) (fun _ => rfl) t
  | cons i ids ih =>
    have hfirst : SameButOwner t (t.modify i f) :=
      Table.Related.modify (R := Attachment.SameUpload) (fun _ => rfl) t fun a _ => hf a
    exact sameButOwner_trans hfirst (ih (t.modify i f))

theorem release_same {f : Attachment → Attachment} (hf : ∀ a : Attachment, a.SameUpload (f a))
    (t : Table Attachment) : SameButOwner t (t.sweep f) := by
  intro i
  rw [Table.get_sweep]
  cases t.get i with
  | none => exact .none
  | some a => exact .some (hf a)

theorem bindAttachments_same {reportId : Id} {report row : Report} {ids : List Id}
    (h : bindAttachments t reportId report ids = .ok (u, row)) : SameButOwner t u := by
  unfold bindAttachments at h
  simp only [bind_ok, pure_ok, Prod.mk.injEq] at h
  obtain ⟨-, -, rfl, -⟩ := h
  exact bind_same (f := fun a => { a with reportId := some reportId }) (fun _ => rfl) ids t

theorem replaceAttachments_same {reportId : Id} {report row : Report} {ids : List Id}
    (h : replaceAttachments t reportId report ids = .ok (u, row)) : SameButOwner t u := by
  refine sameButOwner_trans (release_same (fun a => ?_) t) (bindAttachments_same h)
  split_ifs <;> rfl

theorem replaceAnswerAttachments_same {answerId incidentId deviceId : Id} {ids : List Id}
    (h : replaceAnswerAttachments t answerId incidentId deviceId ids = .ok u) :
    SameButOwner t u := by
  unfold replaceAnswerAttachments at h
  simp only [bind_ok, pure_ok] at h
  obtain ⟨-, -, rfl⟩ := h
  refine sameButOwner_trans (release_same (fun a => ?_) t)
    (bind_same (f := fun a => { a with directedAnswerId := some answerId }) (fun _ => rfl) ids _)
  split_ifs <;> rfl

end Binding

/-- A report or an answer binds attachments. -/
def UploadStep.isBinding : UploadStep → Bool
  | .bindReport .. | .rebindReport .. | .bindAnswer .. => true
  | _ => false

inductive MediaStep (settings : MediaSettings) (s : UploadState) (t : MediaDb) : UploadStep → Prop
  | quiet (x : UploadStep) (attachments : t.attachments = s.db.attachments)
      (uploads : t.uploads = s.db.uploads) (jobs : t.jobs = s.db.jobs) : MediaStep settings s t x
  | announced (i incident device : Id) (u : Upload) (fresh : u.Announced settings)
      (attachments : t.attachments = s.db.attachments.insert (pendingAttachment s.now incident device))
      (uploads : t.uploads = s.db.uploads.insert u) (jobs : t.jobs = s.db.jobs) :
      MediaStep settings s t (.serve i)
  | received (i : Id) (m : Media) (sha256 : String) (receivedAt : Time)
      (waits : s.waiting.get i = some (some (.content m sha256 receivedAt)))
      (saved : t = s.db.saveMedia m (m.quarantined sha256 receivedAt)) :
      MediaStep settings s t (.serve i)
  | queued (i : Id) (m : Media) (payload : UploadCompleteRequest)
      (waits : s.waiting.get i = some (some (.complete m payload)))
      (isLocal : m.upload.storageProvider = .localProxy)
      (idle : ∀ k j, s.db.jobs.get k = some j → j.payload = ⟨.attachmentProcess, m.id⟩ →
        j.isLive = false)
      (saved : t = { s.db with
        jobs := s.db.jobs.insert (mediaJob settings s.now .attachmentProcess m.id) }) :
      MediaStep settings s t (.serve i)
  | completed (i : Id) (w : Waiting) (m : Media) (payload : UploadCompleteRequest)
      (waits : s.waiting.get i = some (some w)) (completes : w.completesRemote = some (m, payload))
      (accepted : s.db.Accepts m payload)
      (attachments : t.attachments = s.db.attachments.modify m.id
        (m.attachment.save (m.received s.now payload.etag).attachment))
      (uploads : t.uploads = s.db.uploads.modify m.id
        (m.upload.save (m.received s.now payload.etag).upload))
      (jobs : t.jobs = s.db.jobs.insert (mediaJob settings s.now .mediaProcess m.id)) :
      MediaStep settings s t (.serve i)
  | claimed (job : Id) (j : Job MediaPayload) (worker : s.worker = .idle)
      (row : s.db.jobs.get job = some j) (due : j.isDue s.now = true)
      (saved : t = { s.db with
        jobs := s.db.jobs.modify job (·.claimed s.now settings.jobLeaseSeconds) }) :
      MediaStep settings s t .claim
  | executed (job : Id) (task : MediaTask) (m : Media) (file : QuarantinedFile)
      (remote : RemoteObject) (worker : s.worker = .executing job task m)
      (saved : t = s.db.saveMedia m (runTask settings task m file remote).1) :
      MediaStep settings s t (.execute file remote)
  | finished (job : Id) (error : Option ApiError) (worker : s.worker = .finishing job error)
      (saved : t = { s.db with
        jobs := finishJob s.now (error.map ("ApiError: " ++ ·.message)) s.db.jobs job }) :
      MediaStep settings s t .finish
  | bound (x : UploadStep) (attachments : SameButOwner s.db.attachments t.attachments)
      (uploads : t.uploads = s.db.uploads) (jobs : t.jobs = s.db.jobs)
      (binds : x.isBinding = true) : MediaStep settings s t x

section Serving
variable {settings : MediaSettings} {text : TextLib} {now : Time} {db t : MediaDb}

theorem completeRemoteUpload_accepts {m : Media} {payload : UploadCompleteRequest}
    (h : completeRemoteUpload settings now db m payload = .ok t) : db.Accepts m payload := by
  unfold completeRemoteUpload at h
  simp only [bind_ok, require_ok] at h
  obtain ⟨-, hkey, -, hsize, closed, hclosed, -⟩ := h
  exact ⟨hkey, hsize, closed, hclosed⟩

theorem completeRemoteUpload_of_accepts {m : Media} {payload : UploadCompleteRequest}
    (h : db.Accepts m payload) : ∃ t, completeRemoteUpload settings now db m payload = .ok t := by
  obtain ⟨closed, hclosed⟩ := h.session
  unfold completeRemoteUpload
  simp only [bind_ok, require_ok, pure_ok]
  exact ⟨_, ⟨⟩, h.objectKey, ⟨⟩, h.sizeBytes, closed, hclosed, rfl⟩

/-- Closing a session changes no other table. -/
theorem completeRemoteUpload_tables {m : Media} {payload : UploadCompleteRequest}
    (h : completeRemoteUpload settings now db m payload = .ok t) :
    t.attachments = db.attachments.modify m.id
        (m.attachment.save (m.received now payload.etag).attachment) ∧
      t.uploads = db.uploads.modify m.id (m.upload.save (m.received now payload.etag).upload) ∧
      t.jobs = db.jobs.insert (mediaJob settings now .mediaProcess m.id) := by
  obtain ⟨closed, hclosed, rfl⟩ := completeRemoteUpload_ok h
  rcases closeSession_cases hclosed with ⟨-, rfl⟩ | ⟨id, r, -, -, -, -, -, rfl⟩
  · exact ⟨rfl, rfl, rfl⟩
  · exact ⟨rfl, rfl, rfl⟩

/-- A waiting completion is served by `complete_remote_upload`; a callback closes the sessions
that are still active as well. -/
theorem serveRequest_completes (settings : MediaSettings) (text : TextLib) (now : Time)
    (db : MediaDb) {w : Waiting} {m : Media} {payload : UploadCompleteRequest}
    (hc : w.completesRemote = some (m, payload)) :
    serveRequest settings text now db w = completeRemoteUpload settings now db m payload ∨
      serveRequest settings text now db w =
        (fun u => finishSessions u m.id) <$> completeRemoteUpload settings now db m payload := by
  cases w with
  | complete k given =>
    simp only [Waiting.completesRemote] at hc
    split_ifs at hc with hlocal
    obtain ⟨rfl, rfl⟩ := Prod.mk.inj (Option.some.inj hc)
    left
    simp only [serveRequest, completeUpload, if_neg hlocal]
  | callback k key etag size =>
    obtain ⟨rfl, rfl⟩ := Prod.mk.inj (Option.some.inj hc)
    right
    simp only [serveRequest, finishByCallback]
    cases completeRemoteUpload settings now db k ⟨none, some key, etag, size, []⟩ <;> rfl
  | imageIntent device payload => exact nomatch hc
  | mediaIntent device payload => exact nomatch hc
  | content m sha256 receivedAt => exact nomatch hc
  | createSession m device payload drawn => exact nomatch hc
  | recordPart session loaded payload => exact nomatch hc
  | renew session loaded drawn => exact nomatch hc
  | delete session loaded => exact nomatch hc
  | answered => exact nomatch hc

theorem serveRequest_completed {w : Waiting} {m : Media} {payload : UploadCompleteRequest}
    (hc : w.completesRemote = some (m, payload)) (h : serveRequest settings text now db w = .ok t) :
    db.Accepts m payload ∧
      t.attachments = db.attachments.modify m.id
        (m.attachment.save (m.received now payload.etag).attachment) ∧
      t.uploads = db.uploads.modify m.id (m.upload.save (m.received now payload.etag).upload) ∧
      t.jobs = db.jobs.insert (mediaJob settings now .mediaProcess m.id) := by
  rcases serveRequest_completes settings text now db hc with heq | heq
  · rw [heq] at h
    exact ⟨completeRemoteUpload_accepts h, completeRemoteUpload_tables h⟩
  · rw [heq] at h
    obtain ⟨u, hu, rfl⟩ := map_ok.mp h
    obtain ⟨hattachments, huploads, hjobs⟩ := completeRemoteUpload_tables hu
    exact ⟨completeRemoteUpload_accepts hu, hattachments, huploads, hjobs⟩

end Serving

section Steps
variable {settings : MediaSettings} {text : TextLib} {s : UploadState}

theorem MediaStep.refl (x : UploadStep) : MediaStep settings s s.db x := .quiet x rfl rfl rfl

theorem serve_media {i : Id} {w : Waiting} {t : MediaDb} (hw : s.waiting.get i = some (some w))
    (h : serveRequest settings text s.now s.db w = .ok t) : MediaStep settings s t (.serve i) := by
  have hremote : ∀ {m : Media} {payload : UploadCompleteRequest},
      w.completesRemote = some (m, payload) → MediaStep settings s t (.serve i) := by
    intro m payload hc
    obtain ⟨haccepts, hattachments, huploads, hjobs⟩ := serveRequest_completed hc h
    exact .completed i w m payload hw hc haccepts hattachments huploads hjobs
  cases w with
  | imageIntent device payload =>
    obtain ⟨u, hu, rfl⟩ := createImageIntent_ok h
    exact .announced i payload.incidentId device u hu rfl rfl rfl
  | mediaIntent device payload =>
    obtain ⟨u, hu, rfl⟩ := createMediaIntent_ok h
    exact .announced i payload.incidentId device u hu rfl rfl rfl
  | content m sha256 receivedAt => exact .received i m sha256 receivedAt hw (pure_ok.mp h).symm
  | complete m payload =>
    by_cases hlocal : m.upload.storageProvider = .localProxy
    · simp only [serveRequest, completeUpload, if_pos hlocal, queueProcessing, bind_ok,
        require_ok] at h
      obtain ⟨-, -, h⟩ := h
      split at h
      · exact pure_ok.mp h ▸ .refl (.serve i)
      · next hnone =>
        refine .queued i m payload hw hlocal (fun k j hj hpayload => ?_) (pure_ok.mp h).symm
        have hfound := Table.find_none hnone hj
        simpa [hpayload] using hfound
    · have hc : (Waiting.complete m payload).completesRemote = some (m, payload) := if_neg hlocal
      exact hremote hc
  | createSession m device payload drawn =>
    obtain ⟨u, -, h⟩ := bind_ok.mp h
    exact pure_ok.mp h ▸ .quiet (.serve i) rfl rfl rfl
  | recordPart id loaded payload =>
    rcases recordResumablePart_cases h with rfl | ⟨-, rfl⟩
    · exact .refl (.serve i)
    · exact .quiet (.serve i) rfl rfl rfl
  | renew id loaded drawn => cases (renewResumableSession_eq id loaded drawn).symm.trans h
  | delete id loaded =>
    obtain rfl := pure_ok.mp h
    unfold deleteResumableSession
    split_ifs
    · exact .refl (.serve i)
    · exact .quiet (.serve i) rfl rfl rfl
  | callback m key etag size => exact hremote rfl
  | answered => exact pure_ok.mp h ▸ .refl (.serve i)

theorem uploadStep_media (settings : MediaSettings) (text : TextLib) (s : UploadState)
    (x : UploadStep) :
    MediaStep settings s (uploadStep settings text s x).db x := by
  cases x with
  | tick elapsed => exact .refl _
  | restart => exact .refl _
  | arrive r => simp only [uploadStep]; split <;> exact .refl _
  | serve i =>
    simp only [uploadStep]
    split
    · next w hw =>
      exact commit_induction (P := fun t => MediaStep settings s t (.serve i)) (.refl _)
        fun t ht => serve_media hw ht
    · exact .refl _
  | claim =>
    simp only [uploadStep]
    split
    · next job jobs hworker hclaim =>
      obtain ⟨⟨j, hj, hdue⟩, rfl⟩ := claimJob_some hclaim
      exact .claimed job j hworker hj hdue rfl
    · exact .refl _
  | load => simp only [uploadStep]; split <;> exact .refl _
  | execute file remote =>
    simp only [uploadStep]
    split
    · next job task m hworker => exact .executed job task m file remote hworker rfl
    · exact .refl _
  | finish =>
    simp only [uploadStep]
    split
    · next job error hworker => exact .finished job error hworker rfl
    · exact .refl _
  | bindReport report row ids =>
    simp only [uploadStep]
    split
    · next r hr => exact .bound _ (bindAttachments_same hr) rfl rfl rfl
    · exact .refl _
  | rebindReport report row ids =>
    simp only [uploadStep]
    split
    · next r hr => exact .bound _ (replaceAttachments_same hr) rfl rfl rfl
    · exact .refl _
  | bindAnswer answer incident device ids =>
    simp only [uploadStep]
    split
    · next attachments hr => exact .bound _ (replaceAnswerAttachments_same hr) rfl rfl rfl
    · exact .refl _

/-- What the worker does after a step. -/
inductive WorkerStep (settings : MediaSettings) (s : UploadState) : UploadStep → MediaWorker → Prop
  | kept (x : UploadStep) : WorkerStep settings s x s.worker
  | idle (x : UploadStep) : WorkerStep settings s x .idle
  | claimed (job : Id) (j : Job MediaPayload) (worker : s.worker = .idle)
      (row : s.db.jobs.get job = some j) (due : j.isDue s.now = true) :
      WorkerStep settings s .claim (.claimed job)
  | loaded (job : Id) (j : Job MediaPayload) (m : Media) (worker : s.worker = .claimed job)
      (row : s.db.jobs.get job = some j) (running : j.status = .running)
      (media : s.db.media j.payload.attachmentId = .ok m) :
      WorkerStep settings s .load (.executing job j.payload.task m)
  | refused (job : Id) (j : Job MediaPayload) (e : ApiError) (worker : s.worker = .claimed job)
      (row : s.db.jobs.get job = some j) (running : j.status = .running)
      (media : s.db.media j.payload.attachmentId = .error e) :
      WorkerStep settings s .load (.finishing job (some e))
  | executed (job : Id) (task : MediaTask) (m : Media) (file : QuarantinedFile)
      (remote : RemoteObject) (worker : s.worker = .executing job task m) :
      WorkerStep settings s (.execute file remote)
        (.finishing job (runTask settings task m file remote).2)

theorem uploadStep_worker (settings : MediaSettings) (text : TextLib) (s : UploadState)
    (x : UploadStep) :
    WorkerStep settings s x (uploadStep settings text s x).worker := by
  cases x with
  | tick elapsed => exact .kept _
  | restart => exact .idle _
  | arrive r => simp only [uploadStep]; split <;> exact .kept _
  | serve i => simp only [uploadStep]; split <;> exact .kept _
  | claim =>
    simp only [uploadStep]
    split
    · next job jobs hworker hclaim =>
      obtain ⟨⟨j, hj, hdue⟩, -⟩ := claimJob_some hclaim
      exact .claimed job j hworker hj hdue
    · exact .kept _
  | load =>
    simp only [uploadStep]
    split
    · next job hworker =>
      dsimp only [UploadState.startTask]
      split
      · exact .idle _
      · next j hj =>
        by_cases hrunning : j.status = .running
        · rw [if_neg (not_not_intro hrunning)]
          cases hm : s.db.media j.payload.attachmentId with
          | error e => exact .refused job j e hworker hj hrunning hm
          | ok m => exact .loaded job j m hworker hj hrunning hm
        · rw [if_pos hrunning]
          exact .idle _
    · exact .kept _
  | execute file remote =>
    simp only [uploadStep]
    split
    · next job task m hworker => exact .executed job task m file remote hworker
    · exact .kept _
  | finish =>
    simp only [uploadStep]
    split
    · exact .idle _
    · exact .kept _
  | bindReport report row ids => simp only [uploadStep]; split <;> exact .kept _
  | rebindReport report row ids => simp only [uploadStep]; split <;> exact .kept _
  | bindAnswer answer incident device ids => simp only [uploadStep]; split <;> exact .kept _

end Steps
end CrisisMosaic
