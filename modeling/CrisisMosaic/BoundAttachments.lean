import CrisisMosaic.UploadQuota

/-!
# Attachments bound to a report or an answer

Binding asks for a ready and clean attachment, but a bound attachment may be
completed or processed again. It stays ready and clean as long as no completion of
a bound attachment is accepted and its processing passes.
-/

namespace CrisisMosaic
open Relational

def Attachment.isBound (a : Attachment) : Bool := a.reportId.isSome || a.directedAnswerId.isSome

def BoundReady (attachments : Table Attachment) : Prop :=
  attachments.All fun _ a => a.isBound = true → a.isReady = true

/-! ### Processing that leaves a ready attachment ready -/

/-- The checks of a quarantined file are passed or not reached. -/
def PassesLocal (m : Media) : QuarantinedFile → Prop
  | .missing => True
  | .unreadable => False
  | .read sha256 sanitized =>
    (sha256 = m.upload.expectedSha256 ∧ some sha256 = m.attachment.sha256) ∧
      ∃ i, sanitized = .image i ∧ i.mime = m.upload.declaredMimeType

def PassesImage (settings : MediaSettings) (m : Media) (o : RemoteObject) : Prop :=
  ∀ sha256, o.image = .ok sha256 →
    (m.upload.sizeBytes ≤ settings.maxImageBytes → sha256 = m.upload.expectedSha256) ∧
      o.decoded = .ok ()

def PassesVideo (settings : MediaSettings) (o : RemoteObject) : Prop :=
  (∃ durationMs, checkVideo settings o = .ok durationMs) ∧ o.keyframes = .ok ()

def PassesKodo (settings : MediaSettings) (m : Media) (o : RemoteObject) : Prop :=
  ∀ stat, o.stat = .ok stat → checkStat m stat = .ok () ∧
    match m.upload.mediaType with
    | .image => PassesImage settings m o
    | .video => PassesVideo settings o

def Media.hasObject (m : Media) : Prop :=
  m.upload.uploadedAt ≠ none ∧ m.upload.objectKey.any (· ≠ "") = true

def PassesTask (settings : MediaSettings) (m : Media) (file : QuarantinedFile)
    (remote : RemoteObject) : MediaTask → Prop
  | .attachmentProcess => m.hasContent = true → PassesLocal m file
  | .mediaProcess =>
    m.hasObject → m.upload.storageProvider = .qiniuKodo → PassesKodo settings m remote

section Processing
variable {settings : MediaSettings} {m : Media}

theorem isReady_iff {a : Attachment} : a.isReady = true ↔
    a.metadataStatus = .ready ∧ (a.malwareScanStatus = .clean ∨ a.malwareScanStatus = .fakeClean) := by
  simp [Attachment.isReady]

theorem processAttachment_isReady (hm : m.attachment.isReady = true) (file : QuarantinedFile) :
    (processAttachment m file).1.attachment.isReady = true ↔
      (m.hasContent = true → PassesLocal m file) := by
  unfold processAttachment
  by_cases hcontent : m.hasContent = true
  · rw [if_neg (by simp [hcontent]), imp_iff_right hcontent]
    cases file with
    | missing => exact ⟨fun _ => trivial, fun _ => hm⟩
    | unreadable => simp [PassesLocal, Media.assess, isReady_iff]
    | read sha256 sanitized =>
      unfold PassesLocal
      by_cases hsha : sha256 = m.upload.expectedSha256 ∧ some sha256 = m.attachment.sha256
      · have hmatch : ¬ (sha256 ≠ m.upload.expectedSha256 ∨ some sha256 ≠ m.attachment.sha256) := by
          tauto
        dsimp only
        rw [if_neg hmatch, and_iff_right hsha]
        cases sanitized with
        | crashed => simp [Media.assess, isReady_iff]
        | refused e => simp [Media.assess, isReady_iff]
        | image i =>
          by_cases hmime : i.mime = m.upload.declaredMimeType
          · simp [hmime, Media.assess, isReady_iff]
          · simp [hmime, Media.assess, isReady_iff]
      · have hmismatch : sha256 ≠ m.upload.expectedSha256 ∨ some sha256 ≠ m.attachment.sha256 := by
          tauto
        dsimp only
        rw [if_pos hmismatch]
        simp [Media.assess, isReady_iff, hsha]
  · rw [if_pos (by simpa using hcontent)]
    exact ⟨fun _ h => absurd h hcontent, fun _ => hm⟩

theorem reject_not_isReady (m : Media) (e : ApiError) : (m.reject e).1.attachment.isReady = false := by
  simp [Media.reject, Media.assess, Attachment.isReady]

theorem ready_isReady {m : Media} (h : m.attachment.malwareScanStatus = .clean) :
    m.ready.1.attachment.isReady = true := by
  simp [Media.ready, Media.assess, Attachment.isReady, h]

theorem processImage_isReady (hready : m.attachment.metadataStatus = .ready)
    (hclean : m.attachment.malwareScanStatus = .clean) (o : RemoteObject) :
    (processImage settings m o).1.attachment.isReady = true ↔ PassesImage settings m o := by
  unfold processImage PassesImage
  dsimp only
  obtain ⟨u, hu⟩ : ∃ u, u = if m.upload.sizeBytes ≤ settings.maxImageBytes then m else
    { m with attachment := { m.attachment with sha256 := none } } := ⟨_, rfl⟩
  have huready : u.attachment.metadataStatus = .ready ∧ u.attachment.malwareScanStatus = .clean ∧
      u.upload = m.upload := by
    rw [hu]
    split_ifs <;> exact ⟨hready, hclean, rfl⟩
  obtain ⟨hmetadata, hmalware, hupload⟩ := huready
  rw [← hu, hupload]
  cases himage : o.image with
  | error e => simp [isReady_iff, hmetadata, hmalware]
  | ok sha256 =>
    simp only [Except.ok.injEq, forall_eq']
    by_cases hmismatch : m.upload.sizeBytes ≤ settings.maxImageBytes ∧ sha256 ≠ m.upload.expectedSha256
    · rw [if_pos hmismatch, reject_not_isReady]
      simp only [Bool.false_eq_true, false_iff, not_and]
      exact fun h => absurd (h hmismatch.1) hmismatch.2
    · have hverified : m.upload.sizeBytes ≤ settings.maxImageBytes →
          sha256 = m.upload.expectedSha256 := by
        tauto
      rw [if_neg hmismatch, and_iff_right hverified]
      cases o.decoded with
      | error e => simp [reject_not_isReady]
      | ok v =>
        refine iff_of_true (ready_isReady ?_) rfl
        change Attachment.malwareScanStatus (ite _ _ _ : Media).attachment = _
        split_ifs <;> exact hmalware

theorem processVideo_isReady (hclean : m.attachment.malwareScanStatus = .clean) (o : RemoteObject) :
    (processVideo settings m o).1.attachment.isReady = true ↔ PassesVideo settings o := by
  unfold processVideo PassesVideo
  cases checkVideo settings o with
  | error e => simp [reject_not_isReady]
  | ok durationMs =>
    cases o.keyframes with
    | error e => simp [reject_not_isReady]
    | ok v => exact iff_of_true (ready_isReady hclean) ⟨⟨_, rfl⟩, rfl⟩

theorem processRemoteMedia_isReady (hm : m.attachment.isReady = true) (o : RemoteObject) :
    (processRemoteMedia settings m o).1.attachment.isReady = true ↔
      (m.hasObject → m.upload.storageProvider = .qiniuKodo → PassesKodo settings m o) := by
  unfold processRemoteMedia Media.hasObject
  dsimp only
  by_cases hobject : m.upload.uploadedAt ≠ none ∧ m.upload.objectKey.any (· ≠ "") = true
  · rw [if_neg (by tauto), imp_iff_right hobject]
    by_cases hkodo : m.upload.storageProvider = .qiniuKodo
    · rw [if_pos hkodo, imp_iff_right hkodo]
      unfold PassesKodo
      cases o.stat with
      | error e => simp [hm]
      | ok stat =>
        simp only [Except.ok.injEq, forall_eq']
        cases checkStat m stat with
        | error e => simp [reject_not_isReady]
        | ok v =>
          rw [and_iff_right rfl]
          cases hmedia : m.upload.mediaType with
          | image =>
            refine (processImage_isReady ?_ ?_ o).trans ?_
            · exact (isReady_iff.mp hm).1
            · rfl
            · exact Iff.rfl
          | video =>
            apply processVideo_isReady
            rfl
    · rw [if_neg hkodo]
      refine iff_of_true ?_ fun h => absurd h hkodo
      apply ready_isReady
      rfl
  · rw [if_pos (by tauto)]
    exact iff_of_true hm fun h => absurd h hobject

theorem runTask_isReady (hm : m.attachment.isReady = true) (task : MediaTask)
    (file : QuarantinedFile) (remote : RemoteObject) :
    (runTask settings task m file remote).1.attachment.isReady = true ↔
      PassesTask settings m file remote task := by
  cases task with
  | attachmentProcess => exact processAttachment_isReady hm file
  | mediaProcess => exact processRemoteMedia_isReady hm remote

end Processing

/-! ### Rows that become bound, and rows that become ready -/

/-- Whatever is ready now was ready before. -/
def NoneReadied (t u : Table Attachment) : Prop :=
  ∀ i b, u.get i = some b → b.isReady = true → ∃ a, t.get i = some a ∧ a.isReady = true

theorem NoneReadied.refl (t : Table Attachment) : NoneReadied t t := fun _ b hb hready => ⟨b, hb, hready⟩

section Rows
variable {t u : Table Attachment} {loaded new a : Attachment}

@[simp] theorem isBound_save : (loaded.save new a).isBound = a.isBound := rfl

theorem isReady_save (hloaded : loaded.isReady = true) (ha : a.isReady = true) :
    (loaded.save new a).isReady = true ↔ new.isReady = true := by
  simp only [isReady_iff, Attachment.save] at hloaded ha ⊢
  have hmetadata : written loaded.metadataStatus new.metadataStatus a.metadataStatus = .ready ↔
      new.metadataStatus = .ready := by
    by_cases hsame : new.metadataStatus = loaded.metadataStatus
    · rw [hsame, written_unchanged, ha.1, hloaded.1]
    · rw [written_of_ne hsame]
  by_cases hsame : new.malwareScanStatus = loaded.malwareScanStatus
  · rw [hmetadata, hsame, written_unchanged]
    simp only [ha.2, hloaded.2]
  · rw [hmetadata, written_of_ne hsame]

/-- Setting both statuses back to pending shows only where they were not loaded as pending. -/
theorem isReady_save_pending (hmetadata : new.metadataStatus = .pending)
    (hmalware : new.malwareScanStatus = .pending) : (loaded.save new a).isReady = true ↔
      a.isReady = true ∧ loaded.metadataStatus = .pending ∧ loaded.malwareScanStatus = .pending := by
  simp only [isReady_iff, Attachment.save, hmetadata, hmalware, written]
  split_ifs with h k
  · simp [← h, ← k]
  · simp [← h, Ne.symm k]
  · simp [Ne.symm h]
  · simp [Ne.symm h]

theorem boundReady_modify (ht : BoundReady t) (id : Id) :
    BoundReady (t.modify id (loaded.save new)) ↔
      ∀ a, t.get id = some a → a.isBound = true → (loaded.save new a).isReady = true := by
  constructor
  · intro h a ha hbound
    exact h id _ (by rw [Table.get_modify_self, ha, Option.map_some]) hbound
  · intro h i b hb hbound
    rcases Table.get_modify_cases hb with ⟨rfl, a, ha, rfl⟩ | ⟨-, hold⟩
    · exact h a ha hbound
    · exact ht i b hold hbound

theorem BoundReady.insert (h : BoundReady t) (now : Time) (incidentId deviceId : Id) :
    BoundReady (t.insert (pendingAttachment now incidentId deviceId)) :=
  Table.All.insert h fun hbound => nomatch hbound

theorem noneReadied_insert (now : Time) (incidentId deviceId : Id) :
    NoneReadied t (t.insert (pendingAttachment now incidentId deviceId)) := by
  intro i b hb hready
  rcases Table.get_insert_cases hb with ⟨-, rfl⟩ | hold
  · exact absurd hready (by simp [pendingAttachment, Attachment.isReady])
  · exact ⟨b, hold, hready⟩

theorem noneReadied_modify {id : Id}
    (h : ∀ a, (loaded.save new a).isReady = true → a.isReady = true) :
    NoneReadied t (t.modify id (loaded.save new)) := by
  intro i b hb hready
  rcases Table.get_modify_cases hb with ⟨-, a, ha, rfl⟩ | ⟨-, hold⟩
  · exact ⟨a, ha, h a hready⟩
  · exact ⟨b, hold, hready⟩

end Rows

section Binding
variable {t u : Table Attachment}

theorem loadAttachments_ok {usable : Attachment → Bool} {ids : List Id}
    (h : loadAttachments t usable ids = .ok ()) :
    ∀ i ∈ ids, ∃ a, t.get i = some a ∧ usable a = true := by
  unfold loadAttachments at h
  simp only [bind_ok, require_ok] at h
  obtain ⟨-, -, h⟩ := h
  intro i hi
  exact (Option.any_eq_true _ _).mp (List.all_eq_true.mp h i hi)

/-- Binding rows changes nothing else about them. -/
theorem foldl_bind_cases {f : Attachment → Attachment} (hf : ∀ a, (f a).isReady = a.isReady)
    (ids : List Id) {i : Id} {b : Attachment}
    (hb : (ids.foldl (fun t i => t.modify i f) t).get i = some b) :
    ∃ a, t.get i = some a ∧ b.isReady = a.isReady ∧ (b.isBound = true → a.isBound = true ∨ i ∈ ids) := by
  induction ids generalizing t with
  | nil => exact ⟨b, hb, rfl, Or.inl⟩
  | cons k ids ih =>
    obtain ⟨a, ha, hready, hbound⟩ := ih hb
    rcases Table.get_modify_cases ha with ⟨rfl, c, hc, rfl⟩ | ⟨-, hold⟩
    · exact ⟨c, hc, hready.trans (hf c), fun _ => Or.inr List.mem_cons_self⟩
    · exact ⟨a, hold, hready, fun h => (hbound h).imp_right (List.mem_cons_of_mem k)⟩

theorem sweep_release {f : Attachment → Attachment}
    (hf : ∀ a, (f a).isReady = a.isReady ∧ ((f a).isBound = true → a.isBound = true)) :
    (BoundReady t → BoundReady (t.sweep f)) ∧ NoneReadied t (t.sweep f) := by
  refine ⟨fun ht => Table.All.sweep ht fun i a ha hbound => ?_, fun i b hb hready => ?_⟩
  · exact (hf a).1.trans (ha ((hf a).2 hbound))
  · rw [Table.get_sweep, Option.map_eq_some_iff] at hb
    obtain ⟨a, ha, rfl⟩ := hb
    exact ⟨a, ha, (hf a).1 ▸ hready⟩

/-- What a binding leaves is bound only to attachments that are ready. -/
theorem foldl_bind_ready {f : Attachment → Attachment} (hf : ∀ a, (f a).isReady = a.isReady)
    {ids : List Id} (hids : ∀ i ∈ ids, ∀ a, t.get i = some a → a.isReady = true) :
    (BoundReady t → BoundReady (ids.foldl (fun t i => t.modify i f) t)) ∧
      NoneReadied t (ids.foldl (fun t i => t.modify i f) t) := by
  refine ⟨fun ht i b hb hbound => ?_, fun i b hb hready => ?_⟩
  · obtain ⟨a, ha, hready, hcases⟩ := foldl_bind_cases hf ids hb
    rw [hready]
    rcases hcases hbound with h | h
    · exact ht i a ha h
    · exact hids i h a ha
  · obtain ⟨a, ha, hsame, -⟩ := foldl_bind_cases hf ids hb
    exact ⟨a, ha, hsame ▸ hready⟩

theorem isReady_of_usable {usable : Attachment → Bool} {ids : List Id}
    (h : loadAttachments t usable ids = .ok ()) (husable : ∀ a, usable a = true → a.isReady = true) :
    ∀ i ∈ ids, ∀ a, t.get i = some a → a.isReady = true := by
  intro i hi a ha
  obtain ⟨b, hb, hu⟩ := loadAttachments_ok h i hi
  obtain rfl := Option.some.inj (ha.symm.trans hb)
  exact husable a hu

theorem bindAttachments_keeps {reportId : Id} {report row : Report} {ids : List Id}
    (h : bindAttachments t reportId report ids = .ok (u, row)) :
    (BoundReady t → BoundReady u) ∧ NoneReadied t u := by
  unfold bindAttachments loadBindableAttachments at h
  simp only [bind_ok, pure_ok, Prod.mk.injEq] at h
  obtain ⟨⟨⟩, hload, rfl, -⟩ := h
  refine foldl_bind_ready (f := fun a => { a with reportId := some reportId }) (fun _ => rfl)
    (isReady_of_usable hload fun a ha => ?_)
  simp only [Attachment.isUsableBy, Bool.and_eq_true] at ha
  exact ha.1.1.2

theorem NoneReadied.trans {v : Table Attachment} (h : NoneReadied t u) (k : NoneReadied u v) :
    NoneReadied t v := by
  intro i c hc hready
  obtain ⟨b, hb, hbready⟩ := k i c hc hready
  exact h i b hb hbready

theorem replaceAttachments_keeps {reportId : Id} {report row : Report} {ids : List Id}
    (h : replaceAttachments t reportId report ids = .ok (u, row)) :
    (BoundReady t → BoundReady u) ∧ NoneReadied t u := by
  obtain ⟨hbound, hready⟩ := bindAttachments_keeps h
  obtain ⟨hbound', hready'⟩ := sweep_release (t := t) (f := fun a =>
    if a.reportId = some reportId && a.incidentId = report.incidentId then { a with reportId := none }
    else a) fun a => by
      split_ifs
      · exact ⟨rfl, fun h => by simp only [Attachment.isBound, Bool.or_eq_true] at h ⊢; exact Or.inr (by simpa using h)⟩
      · exact ⟨rfl, id⟩
  exact ⟨fun ht => hbound (hbound' ht), hready'.trans hready⟩

theorem replaceAnswerAttachments_keeps {answerId incidentId deviceId : Id} {ids : List Id}
    (h : replaceAnswerAttachments t answerId incidentId deviceId ids = .ok u) :
    (BoundReady t → BoundReady u) ∧ NoneReadied t u := by
  unfold replaceAnswerAttachments at h
  simp only [bind_ok, pure_ok] at h
  obtain ⟨⟨⟩, hload, rfl⟩ := h
  have hids : ∀ i ∈ ids, ∀ a, t.get i = some a → a.isReady = true :=
    isReady_of_usable hload fun a ha => by
      simp only [Attachment.isUsableBy, Bool.and_eq_true] at ha
      exact ha.1.1.2
  obtain ⟨hbound, hready⟩ := sweep_release (t := t) (f := fun a =>
    if a.directedAnswerId = some answerId then { a with directedAnswerId := none } else a) fun a => by
      split_ifs
      · exact ⟨rfl, fun h => by simp only [Attachment.isBound, Bool.or_eq_true] at h ⊢; exact Or.inl (by simpa using h)⟩
      · exact ⟨rfl, id⟩
  have hswept : ∀ i ∈ ids, ∀ a, (t.sweep fun a => if a.directedAnswerId = some answerId then
      { a with directedAnswerId := none } else a).get i = some a → a.isReady = true := by
    intro i hi a ha
    rw [Table.get_sweep, Option.map_eq_some_iff] at ha
    obtain ⟨b, hb, rfl⟩ := ha
    split_ifs
    · exact hids i hi b hb
    · exact hids i hi b hb
  obtain ⟨hbound', hready'⟩ := foldl_bind_ready
    (f := fun a => { a with directedAnswerId := some answerId }) (fun _ => rfl) hswept
  exact ⟨fun ht => hbound' (hbound ht), hready.trans hready'⟩

end Binding

/-! ### Steps -/

/-- Completing the attachment again leaves it as it is: it is not bound, or it was loaded while
both of its statuses were still pending. -/
def MediaDb.SparesBound (db : MediaDb) (m : Media) : Prop :=
  ∀ a, db.attachments.get m.id = some a → a.isBound = true →
    m.attachment.metadataStatus = .pending ∧ m.attachment.malwareScanStatus = .pending

def Waiting.KeepsBound (settings : MediaSettings) (now : Time) (db : MediaDb) : Waiting → Prop
  | .complete m payload => m.upload.storageProvider ≠ .localProxy →
    (∃ t, completeRemoteUpload settings now db m payload = .ok t) → db.SparesBound m
  | .callback m key etag size =>
    (∃ t, completeRemoteUpload settings now db m ⟨none, some key, etag, size, []⟩ = .ok t) →
      db.SparesBound m
  | _ => True

/-- No remote completion of a bound attachment is accepted, unless it was loaded pending, and
the processing of a bound attachment passes its checks or stops before them. -/
structure KeepsBound (settings : MediaSettings) (s : UploadState) (x : UploadStep) : Prop where
  completed : ∀ i w, x = .serve i → s.waiting.get i = some (some w) →
    w.KeepsBound settings s.now s.db
  processed : ∀ file remote job task m, x = .execute file remote →
    s.worker = .executing job task m → ∀ a, s.db.attachments.get m.id = some a →
      a.isBound = true → PassesTask settings m file remote task

/-- The worker loaded what is ready now when it was ready. -/
def UploadState.ExecutesReady (s : UploadState) : Prop :=
  ∀ job task m, s.worker = .executing job task m → ∀ a, s.db.attachments.get m.id = some a →
    a.isReady = true → m.attachment.isReady = true

section Steps
variable {settings : MediaSettings} {text : TextLib} {now : Time} {db t : MediaDb}

theorem completeRemoteUpload_attachments {m : Media} {payload : UploadCompleteRequest}
    (h : completeRemoteUpload settings now db m payload = .ok t) :
    t.attachments = db.attachments.modify m.id
      (m.attachment.save (m.received now payload.etag).attachment) := by
  obtain ⟨closed, hclosed, rfl⟩ := completeRemoteUpload_ok h
  rcases closeSession_cases hclosed with ⟨-, rfl⟩ | ⟨id, r, -, -, -, -, -, rfl⟩ <;> rfl

theorem completed_boundReady {m : Media} {payload : UploadCompleteRequest}
    (hdb : BoundReady db.attachments)
    (h : completeRemoteUpload settings now db m payload = .ok t) :
    BoundReady t.attachments ↔ db.SparesBound m := by
  rw [completeRemoteUpload_attachments h, boundReady_modify hdb]
  refine forall_congr' fun a => forall_congr' fun ha => forall_congr' fun hbound => ?_
  rw [isReady_save_pending rfl rfl, and_iff_right (hdb _ a ha hbound)]

theorem completed_noneReadied {m : Media} {payload : UploadCompleteRequest}
    (h : completeRemoteUpload settings now db m payload = .ok t) :
    NoneReadied db.attachments t.attachments := by
  rw [completeRemoteUpload_attachments h]
  exact noneReadied_modify fun a ha => ((isReady_save_pending rfl rfl).mp ha).1

theorem quarantined_isReady {m : Media} {sha256 : String} {receivedAt : Time} {a : Attachment} :
    (m.attachment.save (m.quarantined sha256 receivedAt).attachment a).isReady = a.isReady := by
  simp [Attachment.isReady, Attachment.save, Media.quarantined]

/-- What serving a request does to the attachments that are bound, and which become ready. -/
theorem serveRequest_boundReady {w : Waiting} (hdb : BoundReady db.attachments) :
    (BoundReady (commit db (serveRequest settings text now db w)).attachments ↔
      w.KeepsBound settings now db) ∧
    NoneReadied db.attachments (commit db (serveRequest settings text now db w)).attachments := by
  have hsame : ∀ {x : Result MediaDb} {P : Prop}, P →
      (∀ t, x = .ok t → BoundReady t.attachments ∧ NoneReadied db.attachments t.attachments) →
      (BoundReady (commit db x).attachments ↔ P) ∧
        NoneReadied db.attachments (commit db x).attachments := by
    intro x P hP hok
    cases x with
    | error e => exact ⟨iff_of_true hdb hP, .refl _⟩
    | ok t => exact ⟨iff_of_true (hok t rfl).1 hP, (hok t rfl).2⟩
  have hcompleted : ∀ {m : Media} {payload : UploadCompleteRequest} {P : Prop} {x : Result MediaDb},
      (∀ t, completeRemoteUpload settings now db m payload = .ok t →
        ∃ u, x = .ok u ∧ u.attachments = t.attachments) →
      (∀ e, completeRemoteUpload settings now db m payload = .error e → ∃ e', x = .error e') →
      (P ↔ ((∃ t, completeRemoteUpload settings now db m payload = .ok t) → db.SparesBound m)) →
      (BoundReady (commit db x).attachments ↔ P) ∧
        NoneReadied db.attachments (commit db x).attachments := by
    intro m payload P x hok herror hP
    cases hc : completeRemoteUpload settings now db m payload with
    | error e =>
      obtain ⟨e', rfl⟩ := herror e hc
      rw [hc] at hP
      refine ⟨iff_of_true hdb (hP.mpr ?_), .refl _⟩
      rintro ⟨t, ht⟩
      cases ht
    | ok t =>
      obtain ⟨u, rfl, hu⟩ := hok t hc
      rw [commit_ok, hu, hP, completed_boundReady hdb hc, hc]
      exact ⟨⟨fun h _ => h, fun h => h ⟨t, rfl⟩⟩, completed_noneReadied hc⟩
  cases w with
  | imageIntent device payload =>
    refine hsame trivial fun t ht => ?_
    obtain ⟨u, -, rfl⟩ := createImageIntent_ok ht
    exact ⟨hdb.insert _ _ _, noneReadied_insert _ _ _⟩
  | mediaIntent device payload =>
    refine hsame trivial fun t ht => ?_
    obtain ⟨u, -, rfl⟩ := createMediaIntent_ok ht
    exact ⟨hdb.insert _ _ _, noneReadied_insert _ _ _⟩
  | content m sha256 receivedAt =>
    refine hsame trivial fun t ht => ?_
    obtain rfl := pure_ok.mp ht
    refine ⟨(boundReady_modify hdb m.id).mpr fun a ha hbound => ?_,
      noneReadied_modify fun a ha => quarantined_isReady ▸ ha⟩
    rw [quarantined_isReady]
    exact hdb _ a ha hbound
  | complete m payload =>
    by_cases hlocal : m.upload.storageProvider = .localProxy
    · refine hsame (fun h => absurd hlocal h) fun t ht => ?_
      simp only [serveRequest, completeUpload, if_pos hlocal] at ht
      obtain ⟨jobs, rfl⟩ := queueProcessing_ok ht
      exact ⟨hdb, .refl _⟩
    · simp only [serveRequest, completeUpload, if_neg hlocal]
      exact hcompleted (fun t ht => ⟨t, ht, rfl⟩) (fun e he => ⟨e, he⟩) (imp_iff_right hlocal)
  | createSession m device payload drawn =>
    refine hsame trivial fun t ht => ?_
    obtain ⟨u, -, ht⟩ := bind_ok.mp ht
    obtain rfl := pure_ok.mp ht
    exact ⟨hdb, .refl _⟩
  | recordPart id loaded payload =>
    refine hsame trivial fun t ht => ?_
    rcases recordResumablePart_cases ht with rfl | ⟨-, rfl⟩
    · exact ⟨hdb, .refl _⟩
    · exact ⟨hdb, .refl _⟩
  | renew id loaded drawn =>
    exact hsame trivial fun t ht => by cases (renewResumableSession_eq id loaded drawn).symm.trans ht
  | delete id loaded =>
    refine hsame trivial fun t ht => ?_
    obtain rfl := pure_ok.mp ht
    unfold deleteResumableSession
    split_ifs
    · exact ⟨hdb, .refl _⟩
    · exact ⟨hdb, .refl _⟩
  | callback m key etag size =>
    refine hcompleted (fun t ht => ?_) (fun e he => ?_) Iff.rfl
    · exact ⟨finishSessions t m.id, by simp only [serveRequest, finishByCallback, ht]; rfl, rfl⟩
    · exact ⟨e, by simp only [serveRequest, finishByCallback, he]; rfl⟩
  | answered => exact hsame trivial fun t ht => pure_ok.mp ht ▸ ⟨hdb, .refl _⟩

theorem startTask_executing {job job' : Id} {task : MediaTask} {m : Media}
    (h : UploadState.startTask db job = .executing job' task m) :
    db.attachments.get m.id = some m.attachment := by
  unfold UploadState.startTask at h
  split at h
  · exact nomatch h
  · split_ifs at h
    split at h
    · exact nomatch h
    · next j hj m' hm =>
      obtain ⟨-, -, rfl⟩ := MediaWorker.executing.inj h
      obtain ⟨hid, ha, -⟩ := media_ok hm
      exact hid ▸ ha

theorem executed_boundReady {s : UploadState} (hs : BoundReady s.db.attachments)
    (hready : s.ExecutesReady) {job : Id} {task : MediaTask} {m : Media}
    (hm : s.worker = .executing job task m) (file : QuarantinedFile) (remote : RemoteObject) :
    BoundReady (s.db.saveMedia m (runTask settings task m file remote).1).attachments ↔
      ∀ a, s.db.attachments.get m.id = some a → a.isBound = true →
        PassesTask settings m file remote task := by
  rw [MediaDb.saveMedia, boundReady_modify hs]
  refine forall_congr' fun a => forall_congr' fun ha => forall_congr' fun hbound => ?_
  have ha' := hs _ a ha hbound
  have hloaded := hready job task m hm a ha ha'
  rw [isReady_save hloaded ha', runTask_isReady hloaded]

/-- Only the execution of a job makes an attachment ready. -/
theorem uploadStep_noneReadied {s : UploadState} (hs : BoundReady s.db.attachments) {x : UploadStep}
    (hx : ∀ file remote, x ≠ .execute file remote) :
    NoneReadied s.db.attachments (uploadStep settings text s x).db.attachments := by
  cases x with
  | execute file remote => exact absurd rfl (hx file remote)
  | serve i =>
    simp only [uploadStep]
    split
    · exact (serveRequest_boundReady hs).2
    · exact .refl _
  | bindReport report row ids =>
    simp only [uploadStep]
    split
    · next r hr => exact (bindAttachments_keeps hr).2
    · exact .refl _
  | rebindReport report row ids =>
    simp only [uploadStep]
    split
    · next r hr => exact (replaceAttachments_keeps hr).2
    · exact .refl _
  | bindAnswer answer incident device ids =>
    simp only [uploadStep]
    split
    · next r hr => exact (replaceAnswerAttachments_keeps hr).2
    · exact .refl _
  | tick elapsed => exact .refl _
  | restart => exact .refl _
  | arrive r => simp only [uploadStep]; split <;> exact .refl _
  | claim => simp only [uploadStep]; split <;> exact .refl _
  | load => simp only [uploadStep]; split <;> exact .refl _
  | finish => simp only [uploadStep]; split <;> exact .refl _

theorem uploadStep_boundReady {s : UploadState} (hs : BoundReady s.db.attachments)
    (hready : s.ExecutesReady) (x : UploadStep) :
    BoundReady (uploadStep settings text s x).db.attachments ↔ KeepsBound settings s x := by
  have hidle : (∀ i, x ≠ .serve i) → (∀ file remote, x ≠ .execute file remote) →
      BoundReady (uploadStep settings text s x).db.attachments →
        (BoundReady (uploadStep settings text s x).db.attachments ↔ KeepsBound settings s x) :=
    fun hserve hexecute hafter =>
      iff_of_true hafter ⟨fun i w hx => absurd hx (hserve i),
        fun file remote job task m hx => absurd hx (hexecute file remote)⟩
  cases x with
  | serve i =>
    have hiff : KeepsBound settings s (.serve i) ↔
        ∀ w, s.waiting.get i = some (some w) → w.KeepsBound settings s.now s.db := by
      constructor
      · exact fun h w hw => h.completed i w rfl hw
      · intro h
        refine ⟨?_, fun file remote job task m hx => by cases hx⟩
        rintro k w hx hw
        obtain rfl := UploadStep.serve.inj hx
        exact h w hw
    rw [hiff]
    simp only [uploadStep]
    split
    · next w hw =>
      simp only [hw, Option.some.injEq, forall_eq']
      exact (serveRequest_boundReady hs).1
    · next hnone => exact iff_of_true hs fun w hw => absurd hw (hnone w)
  | execute file remote =>
    have hiff : KeepsBound settings s (.execute file remote) ↔
        ∀ job task m, s.worker = .executing job task m → ∀ a, s.db.attachments.get m.id = some a →
          a.isBound = true → PassesTask settings m file remote task := by
      constructor
      · exact fun h job task m hm => h.processed file remote job task m rfl hm
      · intro h
        refine ⟨fun i w hx => (by cases hx), ?_⟩
        rintro file' remote' job task m hx hm
        obtain ⟨rfl, rfl⟩ := UploadStep.execute.inj hx
        exact h job task m hm
    rw [hiff]
    simp only [uploadStep]
    split
    · next job task m hm =>
      refine (executed_boundReady hs hready hm file remote).trans ?_
      constructor
      · intro h job' task' m' hm'
        obtain ⟨-, rfl, rfl⟩ := MediaWorker.executing.inj (hm.symm.trans hm')
        exact h
      · exact fun h => h job task m hm
    · next hnot => exact iff_of_true hs fun job task m hm => absurd hm (hnot job task m)
  | bindReport report row ids =>
    refine hidle (fun _ h => by cases h) (fun _ _ h => by cases h) ?_
    simp only [uploadStep]
    split
    · next r hr => exact (bindAttachments_keeps hr).1 hs
    · exact hs
  | rebindReport report row ids =>
    refine hidle (fun _ h => by cases h) (fun _ _ h => by cases h) ?_
    simp only [uploadStep]
    split
    · next r hr => exact (replaceAttachments_keeps hr).1 hs
    · exact hs
  | bindAnswer answer incident device ids =>
    refine hidle (fun _ h => by cases h) (fun _ _ h => by cases h) ?_
    simp only [uploadStep]
    split
    · next r hr => exact (replaceAnswerAttachments_keeps hr).1 hs
    · exact hs
  | tick elapsed => exact hidle (fun _ h => by cases h) (fun _ _ h => by cases h) hs
  | restart => exact hidle (fun _ h => by cases h) (fun _ _ h => by cases h) hs
  | arrive r =>
    refine hidle (fun _ h => by cases h) (fun _ _ h => by cases h) ?_
    simp only [uploadStep]; split <;> exact hs
  | claim =>
    refine hidle (fun _ h => by cases h) (fun _ _ h => by cases h) ?_
    simp only [uploadStep]; split <;> exact hs
  | load =>
    refine hidle (fun _ h => by cases h) (fun _ _ h => by cases h) ?_
    simp only [uploadStep]; split <;> exact hs
  | finish =>
    refine hidle (fun _ h => by cases h) (fun _ _ h => by cases h) ?_
    simp only [uploadStep]; split <;> exact hs

theorem uploadStep_executesReady {s : UploadState} (hs : BoundReady s.db.attachments)
    (hready : s.ExecutesReady) (x : UploadStep) : (uploadStep settings text s x).ExecutesReady := by
  intro job task m hm a ha hreadied
  have hkept : (∀ file remote, x ≠ .execute file remote) → s.worker = .executing job task m →
      m.attachment.isReady = true := by
    intro hx hworker
    obtain ⟨b, hb, hbready⟩ := uploadStep_noneReadied hs hx _ a ha hreadied
    exact hready job task m hworker b hb hbready
  cases x with
  | load =>
    cases hworker : s.worker with
    | claimed job' =>
      simp only [uploadStep, hworker] at hm ha
      have hloaded := startTask_executing hm
      obtain rfl := Option.some.inj (hloaded.symm.trans ha)
      exact hreadied
    | idle => simp only [uploadStep, hworker] at hm; cases hm
    | executing job' task' m' =>
      simp only [uploadStep, hworker] at hm
      exact hkept (fun _ _ h => by cases h) (hworker.trans hm)
    | finishing job' error => simp only [uploadStep, hworker] at hm; cases hm
  | execute file remote =>
    simp only [uploadStep] at hm
    split at hm
    · cases hm
    · next hnot => exact absurd hm (hnot job task m)
  | finish =>
    simp only [uploadStep] at hm
    split at hm
    · cases hm
    · exact hkept (fun _ _ h => by cases h) hm
  | claim =>
    simp only [uploadStep] at hm
    split at hm
    · cases hm
    · exact hkept (fun _ _ h => by cases h) hm
  | restart => cases hm
  | tick elapsed => exact hkept (fun _ _ h => by cases h) hm
  | arrive r =>
    simp only [uploadStep] at hm
    split at hm <;> exact hkept (fun _ _ h => by cases h) hm
  | serve i =>
    simp only [uploadStep] at hm
    split at hm <;> exact hkept (fun _ _ h => by cases h) hm
  | bindReport report row ids =>
    simp only [uploadStep] at hm
    split at hm <;> exact hkept (fun _ _ h => by cases h) hm
  | rebindReport report row ids =>
    simp only [uploadStep] at hm
    split at hm <;> exact hkept (fun _ _ h => by cases h) hm
  | bindAnswer answer incident device ids =>
    simp only [uploadStep] at hm
    split at hm <;> exact hkept (fun _ _ h => by cases h) hm

end Steps

/-- Along a run every bound attachment is ready and clean exactly when bound attachments are
not completed again and pass the processing. -/
theorem bound_attachments_ready_iff (settings : MediaSettings) (text : TextLib) (now : Time)
    (steps : List UploadStep) :
    Along (uploadStep settings text)
        (fun s x => BoundReady (uploadStep settings text s x).db.attachments) (.initial now) steps ↔
      Along (uploadStep settings text) (KeepsBound settings) (.initial now) steps :=
  along_congr (uploadStep settings text)
    (I := fun s => BoundReady s.db.attachments ∧ s.ExecutesReady)
    (fun _ x hs => uploadStep_boundReady hs.1 hs.2 x)
    (fun _ x hs h => ⟨h, uploadStep_executesReady hs.1 hs.2 x⟩)
    ⟨fun _ _ h => (nomatch h), fun _ _ _ h => nomatch h⟩

namespace Sample

def storedObject : RemoteObject :=
  ⟨.ok ⟨10, none, "image/png"⟩, .ok "h", .ok (), .ok none, .ok (), ⟨"unavailable", none⟩⟩

/-- The clip is completed, processed and bound to an answer, and then completed once more. -/
def completedTwice : List UploadStep :=
  [send (.mediaIntent clip), .serve 0, send (.complete 0 .none), .serve 1, .claim, .load,
    .execute .missing storedObject, .finish, .bindAnswer 0 0 0 [0], send (.complete 0 .none), .serve 2]

end Sample

theorem bound_attachment_is_completed_again :
    ¬ BoundReady (Sample.uploads Sample.completedTwice).db.attachments := by
  obtain ⟨a, ha, hbound⟩ := (Option.any_eq_true _ _).mp (show
    ((Sample.uploads Sample.completedTwice).db.attachments.get 0).any
      (fun a => a.isBound && !a.isReady) = true by decide +kernel)
  simp only [Bool.and_eq_true, Bool.not_eq_true'] at hbound
  exact fun h => Bool.false_ne_true (hbound.2.symm.trans (h 0 a ha hbound.1))

end CrisisMosaic
