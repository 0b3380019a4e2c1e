import CrisisMosaic.Relational.Keeps
import CrisisMosaic.UploadRequests

/-!
# What serving a request does to the upload sessions

`SessionsStep` says everything a served request can do to the sessions and their
parts. What a row is created with stays: the size of an upload, and the attachment,
device, size and expiry of a session.
-/

namespace CrisisMosaic
open Relational

section Services
variable {settings : MediaSettings} {text : TextLib} {now : Time} {db t : MediaDb}

theorem closeSession_cases {m : Media} {payload : UploadCompleteRequest}
    (h : closeSession db m payload = .ok t) :
    (payload.uploadSessionId = none ∧ t = db) ∨
    ∃ id r, payload.uploadSessionId = some id ∧ db.sessions.get id = some r ∧
      r.attachmentId = m.id ∧ r.status = .active ∧ db.confirmedSize id = m.upload.sizeBytes ∧
      t = db.saveSession id r { r with status := .completed } := by
  unfold closeSession at h
  cases hid : payload.uploadSessionId with
  | none =>
    rw [hid] at h
    exact Or.inl ⟨rfl, (pure_ok.mp h).symm⟩
  | some id =>
    rw [hid] at h
    simp only [bind_ok, found_ok, require_ok, pure_ok] at h
    obtain ⟨r, hr, -, ⟨hsize, -⟩, rfl⟩ := h
    obtain ⟨hget, hkeep⟩ := Option.filter_eq_some_iff.mp hr
    simp only [Bool.and_eq_true, decide_eq_true_eq] at hkeep
    exact Or.inr ⟨id, r, rfl, hget, hkeep.1, hkeep.2, hsize, rfl⟩

theorem completeRemoteUpload_ok {m : Media} {payload : UploadCompleteRequest}
    (h : completeRemoteUpload settings now db m payload = .ok t) :
    ∃ closed, closeSession db m payload = .ok closed ∧
      t = { closed.saveMedia m (m.received now payload.etag) with
        jobs := closed.jobs.insert (mediaJob settings now .mediaProcess m.id) } := by
  unfold completeRemoteUpload at h
  simp only [bind_ok, require_ok, pure_ok] at h
  obtain ⟨-, -, -, -, closed, hclosed, rfl⟩ := h
  exact ⟨closed, hclosed, rfl⟩

theorem queueProcessing_ok {m : Media} (h : queueProcessing settings now db m = .ok t) :
    ∃ jobs, t = { db with jobs := jobs } := by
  unfold queueProcessing at h
  simp only [bind_ok, require_ok] at h
  obtain ⟨-, -, h⟩ := h
  split at h
  · exact ⟨db.jobs, (pure_ok.mp h).symm⟩
  · exact ⟨_, (pure_ok.mp h).symm⟩

theorem completeUpload_cases {m : Media} {payload : UploadCompleteRequest}
    (h : completeUpload settings now db m payload = .ok t) :
    (∃ jobs, t = { db with jobs := jobs }) ∨
      completeRemoteUpload settings now db m payload = .ok t := by
  unfold completeUpload at h
  split_ifs at h with hlocal
  · exact Or.inl (queueProcessing_ok h)
  · exact Or.inr h

/-- Renewing never gets past the comparison of the expiry with the current time. -/
theorem renewResumableSession_eq (id : Id) (loaded : MediaUploadSession) (drawn : UploadToken) :
    renewResumableSession settings now db id loaded drawn =
      .error (if loaded.status = .active then internalError else notActive "上传会话不可续签") := by
  unfold renewResumableSession require
  split_ifs <;> rfl

/-- A row as an intent leaves it; only remote storage has object keys. -/
structure Upload.Announced (settings : MediaSettings) (u : Upload) : Prop where
  uploadedAt : u.uploadedAt = none
  rejectionReason : u.rejectionReason = none
  objectKey : ∀ key ∈ u.objectKey, u.storageProvider = settings.mediaStorageProvider

theorem createImageIntent_ok {device : Id} {payload : ImageIntentRequest}
    (h : createImageIntent settings now db device payload = .ok t) :
    ∃ u, u.Announced settings ∧ t = { db with
      attachments := db.attachments.insert (pendingAttachment now payload.incidentId device)
      uploads := db.uploads.insert u } := by
  unfold createImageIntent at h
  simp only [bind_ok, require_ok, pure_ok] at h
  obtain ⟨-, -, -, -, rfl⟩ := h
  exact ⟨_, ⟨rfl, rfl, fun key hkey => absurd hkey (Option.not_mem_none key)⟩, rfl⟩

theorem createMediaIntent_ok {device : Id} {payload : MediaIntentRequest}
    (h : createMediaIntent settings now text db device payload = .ok t) :
    ∃ u, u.Announced settings ∧ t = { db with
      attachments := db.attachments.insert (pendingAttachment now payload.incidentId device)
      uploads := db.uploads.insert u } := by
  unfold createMediaIntent at h
  simp only [bind_ok, require_ok, pure_ok] at h
  obtain ⟨-, -, -, -, -, -, rfl⟩ := h
  exact ⟨_, ⟨rfl, rfl, fun _ _ => rfl⟩, rfl⟩

end Services

/-- The part is in range of a session that was loaded active, and its number is new. -/
structure Recordable (db : MediaDb) (id : Id) (loaded : MediaUploadSession)
    (payload : ResumablePartRequest) : Prop where
  active : loaded.status = .active
  inRange : payload.offset + payload.sizeBytes ≤ loaded.expectedSizeBytes
  new : (db.parts.find fun p =>
    p.uploadSessionId = id && p.partNumber = payload.partNumber) = none

def MediaDb.recordPart (db : MediaDb) (id : Id) (loaded : MediaUploadSession)
    (payload : ResumablePartRequest) : MediaDb :=
  let db := { db with parts := db.parts.insert (newPart id payload) }
  db.saveSession id loaded { loaded with confirmedBytes := db.confirmedSize id }

theorem MediaDb.recordPart_sessions (db : MediaDb) (id : Id) (loaded : MediaUploadSession)
    (payload : ResumablePartRequest) :
    ∃ confirmed, (db.recordPart id loaded payload).sessions = db.sessions.modify id
      (loaded.save { loaded with confirmedBytes := confirmed }) := ⟨_, rfl⟩

theorem recordResumablePart_cases {db t : MediaDb} {id : Id} {loaded : MediaUploadSession}
    {payload : ResumablePartRequest} (h : recordResumablePart db id loaded payload = .ok t) :
    t = db ∨ (Recordable db id loaded payload ∧ t = db.recordPart id loaded payload) := by
  unfold recordResumablePart at h
  simp only [bind_ok, require_ok] at h
  obtain ⟨-, hactive, -, hrange, h⟩ := h
  split at h
  · simp only [bind_ok, require_ok, pure_ok] at h
    obtain ⟨-, -, rfl⟩ := h
    exact Or.inl rfl
  · next hnew => exact Or.inr ⟨⟨hactive, hrange, hnew⟩, (pure_ok.mp h).symm⟩

theorem recordResumablePart_of_recordable {db : MediaDb} {id : Id} {loaded : MediaUploadSession}
    {payload : ResumablePartRequest} (h : Recordable db id loaded payload) :
    recordResumablePart db id loaded payload = .ok (db.recordPart id loaded payload) := by
  unfold recordResumablePart
  rw [h.new]
  simp [require, h.active, h.inRange, bind, Except.bind, pure, Except.pure, MediaDb.recordPart]

/-- Everything a served request can do to the sessions and their parts. -/
inductive SessionsStep (settings : MediaSettings) (now : Time) (db t : MediaDb) : Waiting → Prop
  | none (w) (sessions : t.sessions = db.sessions) (parts : t.parts = db.parts) :
      SessionsStep settings now db t w
  | created (m device payload drawn) (checked : checkResumable db m device payload = .ok ())
      (sessions : t.sessions = db.sessions.insert (newSession settings now m device payload drawn))
      (parts : t.parts = db.parts) :
      SessionsStep settings now db t (.createSession m device payload drawn)
  | recorded (id loaded payload) (recordable : Recordable db id loaded payload)
      (eq : t = db.recordPart id loaded payload) :
      SessionsStep settings now db t (.recordPart id loaded payload)
  | deleted (id loaded) (eq : t = deleteResumableSession now db id loaded) :
      SessionsStep settings now db t (.delete id loaded)
  | closed (m payload id r) (session : payload.uploadSessionId = some id)
      (get : db.sessions.get id = some r) (attachment : r.attachmentId = m.id)
      (active : r.status = .active) (size : db.confirmedSize id = m.upload.sizeBytes)
      (sessions : t.sessions = db.sessions.modify id
        (MediaUploadSession.save r { r with status := .completed })) (parts : t.parts = db.parts) :
      SessionsStep settings now db t (.complete m payload)
  | calledBack (m key etag size) (sessions : t.sessions = (finishSessions db m.id).sessions)
      (parts : t.parts = db.parts) :
      SessionsStep settings now db t (.callback m key etag size)

section Serving
variable {settings : MediaSettings} {text : TextLib} {now : Time} {db t : MediaDb} {w : Waiting}

theorem serveRequest_sessions (h : serveRequest settings text now db w = .ok t) :
    SessionsStep settings now db t w := by
  cases w with
  | imageIntent device payload =>
    obtain ⟨u, -, rfl⟩ := createImageIntent_ok h
    exact .none _ rfl rfl
  | mediaIntent device payload =>
    obtain ⟨u, -, rfl⟩ := createMediaIntent_ok h
    exact .none _ rfl rfl
  | content m sha256 receivedAt =>
    obtain rfl := pure_ok.mp h
    exact .none _ rfl rfl
  | complete m payload =>
    rcases completeUpload_cases h with ⟨jobs, rfl⟩ | h
    · exact .none _ rfl rfl
    · obtain ⟨closed, hclosed, rfl⟩ := completeRemoteUpload_ok h
      rcases closeSession_cases hclosed with ⟨-, rfl⟩ | ⟨id, r, hid, hget, hm, hactive, hsize, rfl⟩
      · exact .none _ rfl rfl
      · exact .closed m payload id r hid hget hm hactive hsize rfl rfl
  | createSession m device payload drawn =>
    obtain ⟨u, hchecked, h⟩ := bind_ok.mp h
    obtain rfl := pure_ok.mp h
    exact .created m device payload drawn hchecked rfl rfl
  | recordPart id loaded payload =>
    rcases recordResumablePart_cases h with rfl | ⟨hrecordable, rfl⟩
    · exact .none _ rfl rfl
    · exact .recorded id loaded payload hrecordable rfl
  | renew id loaded drawn => exact nomatch (renewResumableSession_eq id loaded drawn).symm.trans h
  | delete id loaded => exact .deleted id loaded (pure_ok.mp h).symm
  | callback m key etag size =>
    obtain ⟨mid, hmid, h⟩ := bind_ok.mp h
    obtain rfl := pure_ok.mp h
    obtain ⟨closed, hclosed, rfl⟩ := completeRemoteUpload_ok hmid
    rcases closeSession_cases hclosed with ⟨-, rfl⟩ | ⟨id, r, hid, -⟩
    · exact .calledBack m key etag size rfl rfl
    · exact nomatch hid
  | answered =>
    obtain rfl := pure_ok.mp h
    exact .none _ rfl rfl

end Serving

/-! ### What rows keep -/

/-- The columns of a session that no request assigns to. -/
def MediaUploadSession.fixed (s : MediaUploadSession) : Id × Id × ℕ × Time :=
  (s.attachmentId, s.residentDeviceId, s.expectedSizeBytes, s.expiresAt)

structure MediaDb.Grows (db t : MediaDb) : Prop where
  uploads : db.uploads.Keeps (·.sizeBytes) t.uploads
  sessions : db.sessions.Keeps MediaUploadSession.fixed t.sessions

namespace MediaDb.Grows
variable {db t u : MediaDb}

theorem refl (db : MediaDb) : db.Grows db := ⟨.refl _ _, .refl _ _⟩

theorem trans (h : db.Grows t) (k : t.Grows u) : db.Grows u :=
  ⟨h.uploads.trans k.uploads, h.sessions.trans k.sessions⟩

theorem saveMedia (db : MediaDb) (loaded new : Media) : db.Grows (db.saveMedia loaded new) :=
  ⟨.modify _ fun _ => rfl, .refl _ _⟩

end MediaDb.Grows

theorem SessionsStep.keeps {settings : MediaSettings} {now : Time} {db t : MediaDb} {w : Waiting}
    (h : SessionsStep settings now db t w) :
    db.sessions.Keeps MediaUploadSession.fixed t.sessions := by
  cases h with
  | none _ hs => exact hs ▸ .refl _ _
  | created _ _ _ _ _ hs => exact hs ▸ .insert _ _ _
  | recorded id loaded payload _ ht => exact ht ▸ .modify _ fun _ => rfl
  | deleted id loaded ht =>
    subst ht
    unfold deleteResumableSession
    split_ifs
    · exact .refl _ _
    · exact .modify _ fun _ => rfl
  | closed _ _ _ _ _ _ _ _ _ hs => exact hs ▸ .modify _ fun _ => rfl
  | calledBack _ _ _ _ hs =>
    rw [hs]
    refine .sweep _ fun r => ?_
    split_ifs <;> rfl

/-- The columns of an upload that no request assigns to. -/
def Upload.fixed (u : Upload) :
    StorageProvider × MediaType × Option String × String × ℕ × String :=
  (u.storageProvider, u.mediaType, u.objectKey, u.declaredMimeType, u.sizeBytes, u.expectedSha256)

theorem serveRequest_uploads {settings : MediaSettings} {text : TextLib} {now : Time}
    {db t : MediaDb} {w : Waiting} (h : serveRequest settings text now db w = .ok t) :
    db.uploads.Keeps (·.fixed) t.uploads := by
  have hcomplete : ∀ {m : Media} {payload : UploadCompleteRequest} {u : MediaDb},
      completeRemoteUpload settings now db m payload = .ok u →
        db.uploads.Keeps (·.fixed) u.uploads := by
    intro m payload u hu
    obtain ⟨closed, hclosed, rfl⟩ := completeRemoteUpload_ok hu
    rcases closeSession_cases hclosed with ⟨-, rfl⟩ | ⟨id, r, -, -, -, -, -, rfl⟩
    · exact .modify _ fun _ => rfl
    · exact .modify _ fun _ => rfl
  cases w with
  | imageIntent device payload =>
    obtain ⟨u, -, rfl⟩ := createImageIntent_ok h
    exact .insert _ _ _
  | mediaIntent device payload =>
    obtain ⟨u, -, rfl⟩ := createMediaIntent_ok h
    exact .insert _ _ _
  | content m sha256 receivedAt =>
    obtain rfl := pure_ok.mp h
    exact .modify _ fun _ => rfl
  | complete m payload =>
    rcases completeUpload_cases h with ⟨jobs, rfl⟩ | h
    · exact .refl _ _
    · exact hcomplete h
  | createSession m device payload drawn =>
    obtain ⟨u, hchecked, h⟩ := bind_ok.mp h
    obtain rfl := pure_ok.mp h
    exact .refl _ _
  | recordPart id loaded payload =>
    rcases recordResumablePart_cases h with rfl | ⟨hrecordable, rfl⟩
    · exact .refl _ _
    · exact .refl _ _
  | renew id loaded drawn => exact nomatch (renewResumableSession_eq id loaded drawn).symm.trans h
  | delete id loaded =>
    obtain rfl := pure_ok.mp h
    unfold deleteResumableSession
    split_ifs <;> exact .refl _ _
  | callback m key etag size =>
    obtain ⟨mid, hmid, h⟩ := bind_ok.mp h
    obtain rfl := pure_ok.mp h
    have huploads := hcomplete hmid
    exact huploads
  | answered =>
    obtain rfl := pure_ok.mp h
    exact .refl _ _

/-! ### What a request loads -/

/-- The attachment and the session a request waits with are rows of the database. -/
def Waiting.IsLoaded (db : MediaDb) : Waiting → Prop
  | .content m _ _ | .complete m _ | .createSession m _ _ _ | .callback m _ _ _ =>
    db.attachments.get m.id = some m.attachment ∧ db.uploads.get m.id = some m.upload
  | .recordPart id s _ | .renew id s _ | .delete id s => db.sessions.get id = some s
  | .imageIntent _ _ | .mediaIntent _ _ | .answered => True

section Loading
variable {settings : MediaSettings} {now : Time} {db : MediaDb}

theorem media_ok {id : Id} {m : Media} (h : db.media id = .ok m) :
    m.id = id ∧ db.attachments.get id = some m.attachment ∧ db.uploads.get id = some m.upload := by
  unfold MediaDb.media at h
  simp only [bind_ok, found_ok, pure_ok] at h
  obtain ⟨a, ha, u, hu, rfl⟩ := h
  exact ⟨rfl, ha, hu⟩

theorem authorizedMedia_ok {actor : Actor} {header : Option Ref} {id : Id} {m : Media}
    (h : authorizedMedia db actor header id = .ok m) :
    db.attachments.get m.id = some m.attachment ∧ db.uploads.get m.id = some m.upload := by
  unfold authorizedMedia at h
  simp only [bind_ok, pure_ok] at h
  obtain ⟨m, hm, -, -, rfl⟩ := h
  obtain ⟨rfl, ha, hu⟩ := media_ok hm
  exact ⟨ha, hu⟩

theorem uploadSession_ok {attachment id : Id} {s : MediaUploadSession}
    (h : uploadSession db attachment id = .ok s) :
    db.sessions.get id = some s ∧ s.attachmentId = attachment := by
  obtain ⟨hget, hkeep⟩ := Option.filter_eq_some_iff.mp (found_ok.mp h)
  exact ⟨hget, of_decide_eq_true hkeep⟩

theorem loadRequest_isLoaded {r : UploadRequest} {w : Waiting}
    (h : loadRequest settings now db r = .ok w) : w.IsLoaded db := by
  unfold loadRequest at h
  cases hcall : r.call with
  | imageIntent payload =>
    simp only [hcall, bind_ok, pure_ok] at h
    obtain ⟨-, -, -, -, rfl⟩ := h
    trivial
  | mediaIntent payload =>
    simp only [hcall, bind_ok, pure_ok] at h
    obtain ⟨-, -, -, -, rfl⟩ := h
    trivial
  | content attachment contentType size sha256 =>
    simp only [hcall, bind_ok, pure_ok] at h
    obtain ⟨m, hm, -, -, -, -, -, -, rfl⟩ := h
    exact authorizedMedia_ok hm
  | complete attachment payload =>
    simp only [hcall, bind_ok, pure_ok] at h
    obtain ⟨m, hm, rfl⟩ := h
    exact authorizedMedia_ok hm
  | createSession attachment payload =>
    simp only [hcall, bind_ok, pure_ok] at h
    obtain ⟨m, hm, -, -, rfl⟩ := h
    exact authorizedMedia_ok hm
  | recordPart attachment session payload =>
    simp only [hcall, bind_ok, pure_ok] at h
    obtain ⟨m, -, s, hs, rfl⟩ := h
    exact (uploadSession_ok hs).1
  | renew attachment session =>
    simp only [hcall, bind_ok, pure_ok] at h
    obtain ⟨m, -, s, hs, rfl⟩ := h
    exact (uploadSession_ok hs).1
  | delete attachment session =>
    simp only [hcall, bind_ok, pure_ok] at h
    obtain ⟨m, -, s, hs, rfl⟩ := h
    exact (uploadSession_ok hs).1
  | callback authorized objectKey etag size =>
    simp only [hcall, bind_ok, pure_ok] at h
    obtain ⟨-, -, -, -, -, -, k, -, m, hm, rfl⟩ := h
    obtain ⟨hid, ha, hu⟩ := media_ok hm
    split_ifs
    · exact ⟨hid ▸ ha, hid ▸ hu⟩
    · trivial

end Loading

/-! ### Steps of the service -/

section Steps
variable {settings : MediaSettings} {text : TextLib}

/-- What a step leaves of the requests that wait: they waited before, or just arrived. -/
theorem waiting_cases {s : UploadState} {x : UploadStep} {i : Id} {w : Waiting}
    (h : (uploadStep settings text s x).waiting.get i = some (some w)) :
    s.waiting.get i = some (some w) ∨
      ((∃ r, x = .arrive r ∧ loadRequest settings s.now s.db r = .ok w) ∧
        (uploadStep settings text s x).db = s.db) := by
  cases x with
  | arrive r =>
    simp only [uploadStep] at h ⊢
    cases hr : loadRequest settings s.now s.db r with
    | error e => rw [hr] at h; exact Or.inl h
    | ok v =>
      rw [hr] at h
      rcases Table.get_insert_cases h with ⟨-, heq⟩ | hold
      · obtain rfl := Option.some.inj heq
        exact Or.inr ⟨⟨r, rfl, hr⟩, rfl⟩
      · exact Or.inl hold
  | serve k =>
    simp only [uploadStep] at h
    split at h
    · rcases Table.get_modify_cases h with ⟨-, a, -, heq⟩ | ⟨-, hold⟩
      · exact nomatch heq
      · exact Or.inl hold
    · exact Or.inl h
  | restart =>
    simp only [uploadStep, Table.get_sweep, Option.map_eq_some_iff] at h
    obtain ⟨a, -, heq⟩ := h
    exact nomatch heq
  | tick elapsed => exact Or.inl h
  | claim => simp only [uploadStep] at h; split at h <;> exact Or.inl h
  | load => simp only [uploadStep] at h; split at h <;> exact Or.inl h
  | execute file remote => simp only [uploadStep] at h; split at h <;> exact Or.inl h
  | finish => simp only [uploadStep] at h; split at h <;> exact Or.inl h
  | bindReport report row ids => simp only [uploadStep] at h; split at h <;> exact Or.inl h
  | rebindReport report row ids => simp only [uploadStep] at h; split at h <;> exact Or.inl h
  | bindAnswer answer incident device ids =>
    simp only [uploadStep] at h
    split at h <;> exact Or.inl h

/-- A step that serves no request leaves the sessions and the parts alone. -/
theorem uploadStep_sessions (settings : MediaSettings) (text : TextLib) (s : UploadState)
    (x : UploadStep) :
    ((uploadStep settings text s x).db.sessions = s.db.sessions ∧
      (uploadStep settings text s x).db.parts = s.db.parts) ∨
    ∃ i w, x = .serve i ∧ s.waiting.get i = some (some w) ∧
      SessionsStep settings s.now s.db (uploadStep settings text s x).db w := by
  cases x with
  | serve i =>
    simp only [uploadStep]
    split
    · next w hw =>
      cases hserve : serveRequest settings text s.now s.db w with
      | error e => exact Or.inl ⟨rfl, rfl⟩
      | ok t => exact Or.inr ⟨i, w, rfl, hw, serveRequest_sessions hserve⟩
    · exact Or.inl ⟨rfl, rfl⟩
  | tick elapsed => exact Or.inl ⟨rfl, rfl⟩
  | restart => exact Or.inl ⟨rfl, rfl⟩
  | arrive r => simp only [uploadStep]; split <;> exact Or.inl ⟨rfl, rfl⟩
  | claim => simp only [uploadStep]; split <;> exact Or.inl ⟨rfl, rfl⟩
  | load => simp only [uploadStep]; split <;> exact Or.inl ⟨rfl, rfl⟩
  | execute file remote => simp only [uploadStep]; split <;> exact Or.inl ⟨rfl, rfl⟩
  | finish => simp only [uploadStep]; split <;> exact Or.inl ⟨rfl, rfl⟩
  | bindReport report row ids => simp only [uploadStep]; split <;> exact Or.inl ⟨rfl, rfl⟩
  | rebindReport report row ids => simp only [uploadStep]; split <;> exact Or.inl ⟨rfl, rfl⟩
  | bindAnswer answer incident device ids =>
    simp only [uploadStep]
    split <;> exact Or.inl ⟨rfl, rfl⟩

theorem uploadStep_uploads (settings : MediaSettings) (text : TextLib) (s : UploadState)
    (x : UploadStep) :
    s.db.uploads.Keeps (·.fixed) (uploadStep settings text s x).db.uploads := by
  cases x with
  | serve i =>
    simp only [uploadStep]
    split
    · next w hw =>
      exact commit_induction (P := fun t : MediaDb => s.db.uploads.Keeps (·.fixed) t.uploads)
        (.refl _ _) fun t ht => serveRequest_uploads ht
    · exact .refl _ _
  | execute file remote =>
    simp only [uploadStep]
    split
    · exact .modify _ fun _ => rfl
    · exact .refl _ _
  | tick elapsed => exact .refl _ _
  | restart => exact .refl _ _
  | arrive r => simp only [uploadStep]; split <;> exact .refl _ _
  | claim => simp only [uploadStep]; split <;> exact .refl _ _
  | load => simp only [uploadStep]; split <;> exact .refl _ _
  | finish => simp only [uploadStep]; split <;> exact .refl _ _
  | bindReport report row ids => simp only [uploadStep]; split <;> exact .refl _ _
  | rebindReport report row ids => simp only [uploadStep]; split <;> exact .refl _ _
  | bindAnswer answer incident device ids =>
    simp only [uploadStep]
    split <;> exact .refl _ _

theorem uploadStep_grows (settings : MediaSettings) (text : TextLib) (s : UploadState) (x : UploadStep) :
    s.db.Grows (uploadStep settings text s x).db where
  uploads := (uploadStep_uploads settings text s x).mono fun _ _ h => congrArg (·.2.2.2.2.1) h
  sessions := by
    rcases uploadStep_sessions settings text s x with ⟨h, -⟩ | ⟨i, w, -, -, h⟩
    · exact h ▸ .refl _ _
    · exact h.keeps

end Steps
end CrisisMosaic
