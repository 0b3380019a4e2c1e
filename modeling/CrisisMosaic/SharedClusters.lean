import CrisisMosaic.DuplicateClusters
import CrisisMosaic.RejectedAttachments

/-!
# Duplicates share a cluster

The hashes of a ready local attachment are those of its declared content, so its duplicates
are duplicates of each other and in one cluster already: whichever is the oldest, joining it
joins them all. Remote attachments join nothing, and a duplicate that is processed again can
become the duplicate of its own duplicate.
-/

namespace CrisisMosaic
open Relational Relation

section Lookup
variable {db : MediaDb}

theorem mem_duplicates {id incidentId j : Id} {sha256 perceptualHash : String} :
    j ∈ db.duplicates id incidentId sha256 perceptualHash ↔
      j ≠ id ∧ ∃ b, db.attachments.get j = some b ∧ b.incidentId = incidentId ∧
        b.metadataStatus = .ready ∧ (b.sha256 = some sha256 ∨ b.perceptualHash = some perceptualHash) := by
  simp only [MediaDb.duplicates, List.mem_filter, Table.mem_select, Bool.and_eq_true,
    Bool.or_eq_true, decide_eq_true_eq, ne_eq]
  constructor
  · rintro ⟨⟨b, hb, ⟨hincident, hready⟩, hsame⟩, hne⟩
    exact ⟨hne, b, hb, hincident, hready, hsame⟩
  · rintro ⟨hne, b, hb, hincident, hready, hsame⟩
    exact ⟨⟨b, hb, ⟨hincident, hready⟩, hsame⟩, hne⟩

theorem oldest_mem {ids : List Id} {d : Id} (h : db.oldest ids = some d) : d ∈ ids := by
  induction ids generalizing d with
  | nil => exact nomatch h
  | cons i ids ih =>
    unfold MediaDb.oldest at h
    cases hrest : db.oldest ids with
    | none =>
      rw [hrest] at h
      exact Option.some.inj h ▸ List.mem_cons_self
    | some other =>
      rw [hrest] at h
      dsimp only at h
      split_ifs at h
      · exact Option.some.inj h ▸ List.mem_cons_self
      · exact Option.some.inj h ▸ List.mem_cons_of_mem _ (ih hrest)

theorem oldest_eq_none {ids : List Id} (h : db.oldest ids = none) : ids = [] := by
  cases ids with
  | nil => rfl
  | cons i ids =>
    unfold MediaDb.oldest at h
    cases hrest : db.oldest ids with
    | none => simp [hrest] at h
    | some other =>
      rw [hrest] at h
      dsimp only at h
      split_ifs at h

end Lookup

/-! ### What the processing leaves of a row -/

/-- The row of a processing that fails: it is no longer ready, or its status is what it was and
its digest is not new. -/
structure Media.Failed (m new : Media) : Prop where
  perceptualHash : new.attachment.perceptualHash = m.attachment.perceptualHash
  digest : new.attachment.sha256 = m.attachment.sha256 ∨ new.attachment.sha256 = none ∨
    new.attachment.sha256 = some m.upload.expectedSha256
  status : new.attachment.metadataStatus ≠ .ready ∨
    new.attachment.metadataStatus = m.attachment.metadataStatus ∧
      (new.attachment.sha256 = m.attachment.sha256 ∨ new.attachment.sha256 = none)

section Processing
variable {settings : MediaSettings} {m : Media} {file : QuarantinedFile} {remote : RemoteObject}

theorem Media.Failed.refl (m : Media) : m.Failed m := ⟨rfl, Or.inl rfl, Or.inr ⟨rfl, Or.inl rfl⟩⟩

/-- The outcome of a local processing. -/
theorem processAttachment_outcome (m : Media) (file : QuarantinedFile) :
    (∃ sha256 i, file = .read sha256 (.image i) ∧ (processAttachment m file).2 = none ∧
        m.hasContent = true ∧ PassesLocal m file ∧
        (processAttachment m file).1.attachment.metadataStatus = .ready ∧
        (processAttachment m file).1.attachment.sha256 = m.attachment.sha256 ∧
        (processAttachment m file).1.attachment.perceptualHash = some i.perceptualHash) ∨
      (processAttachment m file).2.isSome = true ∧ m.Failed (processAttachment m file).1 ∧
        (processAttachment m file).1.attachment.sha256 = m.attachment.sha256 := by
  unfold processAttachment
  by_cases hcontent : m.hasContent = false
  · rw [if_pos hcontent]
    exact Or.inr ⟨rfl, .refl m, rfl⟩
  · rw [if_neg hcontent]
    cases file with
    | missing => exact Or.inr ⟨rfl, .refl m, rfl⟩
    | unreadable => exact Or.inr ⟨rfl, ⟨rfl, Or.inl rfl, Or.inl nofun⟩, rfl⟩
    | read sha256 sanitized =>
      dsimp only
      by_cases hsha : sha256 ≠ m.upload.expectedSha256 ∨ some sha256 ≠ m.attachment.sha256
      · rw [if_pos hsha]
        exact Or.inr ⟨rfl, ⟨rfl, Or.inl rfl, Or.inl nofun⟩, rfl⟩
      · rw [if_neg hsha]
        cases sanitized with
        | crashed => exact Or.inr ⟨rfl, ⟨rfl, Or.inl rfl, Or.inl nofun⟩, rfl⟩
        | refused e => exact Or.inr ⟨rfl, ⟨rfl, Or.inl rfl, Or.inl nofun⟩, rfl⟩
        | image i =>
          dsimp only
          by_cases hmime : i.mime ≠ m.upload.declaredMimeType
          · rw [if_pos hmime]
            exact Or.inr ⟨rfl, ⟨rfl, Or.inl rfl, Or.inl nofun⟩, rfl⟩
          · rw [if_neg hmime]
            have hpasses : PassesLocal m (.read sha256 (.image i)) := by
              push Not at hsha hmime
              exact ⟨hsha, i, rfl, hmime⟩
            exact Or.inl ⟨sha256, i, rfl, rfl, by simpa using hcontent, hpasses, rfl, rfl, rfl⟩

theorem processImage_outcome (settings : MediaSettings) (m : Media) (remote : RemoteObject) :
    ((processImage settings m remote).2 = none ∧ (∃ sha256, remote.image = .ok sha256) ∧
        PassesImage settings m remote ∧
        (processImage settings m remote).1.attachment.metadataStatus = .ready ∧
        (processImage settings m remote).1.attachment.perceptualHash = m.attachment.perceptualHash ∧
        (processImage settings m remote).1.attachment.sha256 =
          if m.upload.sizeBytes ≤ settings.maxImageBytes then some m.upload.expectedSha256 else none) ∨
      (processImage settings m remote).2.isSome = true ∧
        m.Failed (processImage settings m remote).1 := by
  unfold processImage
  dsimp only
  by_cases hsmall : m.upload.sizeBytes ≤ settings.maxImageBytes
  · simp only [hsmall, if_true, true_and]
    cases himage : remote.image with
    | error e => exact Or.inr ⟨rfl, .refl m⟩
    | ok sha256 =>
      dsimp only
      by_cases hsha : sha256 = m.upload.expectedSha256
      · rw [if_neg (not_not_intro hsha)]
        cases hdecoded : remote.decoded with
        | error e => exact Or.inr ⟨rfl, rfl, Or.inr (Or.inr (congrArg some hsha)), Or.inl nofun⟩
        | ok u =>
          refine Or.inl ⟨rfl, ⟨sha256, rfl⟩, fun given hgiven => ?_, rfl, rfl, congrArg some hsha⟩
          obtain rfl := Except.ok.inj (himage.symm.trans hgiven)
          exact ⟨fun _ => hsha, hdecoded⟩
      · rw [if_pos hsha]
        exact Or.inr ⟨rfl, rfl, Or.inl rfl, Or.inl nofun⟩
  · simp only [hsmall, if_false, false_and]
    cases himage : remote.image with
    | error e => exact Or.inr ⟨rfl, rfl, Or.inr (Or.inl rfl), Or.inr ⟨rfl, Or.inr rfl⟩⟩
    | ok sha256 =>
      dsimp only
      cases hdecoded : remote.decoded with
      | error e => exact Or.inr ⟨rfl, rfl, Or.inr (Or.inl rfl), Or.inl nofun⟩
      | ok u =>
        exact Or.inl ⟨rfl, ⟨sha256, rfl⟩, fun _ _ => ⟨fun h => absurd h hsmall, hdecoded⟩, rfl, rfl, rfl⟩

theorem processVideo_outcome (settings : MediaSettings) (m : Media) (remote : RemoteObject) :
    ((processVideo settings m remote).2 = none ∧ PassesVideo settings remote ∧
        (processVideo settings m remote).1.attachment.metadataStatus = .ready ∧
        (processVideo settings m remote).1.attachment.perceptualHash = m.attachment.perceptualHash ∧
        (processVideo settings m remote).1.attachment.sha256 = m.attachment.sha256) ∨
      (processVideo settings m remote).2.isSome = true ∧
        m.Failed (processVideo settings m remote).1 := by
  unfold processVideo
  cases hvideo : checkVideo settings remote with
  | error e => exact Or.inr ⟨rfl, rfl, Or.inl rfl, Or.inl nofun⟩
  | ok durationMs =>
    dsimp only
    cases hkeyframes : remote.keyframes with
    | error e => exact Or.inr ⟨rfl, rfl, Or.inl rfl, Or.inl nofun⟩
    | ok u => exact Or.inl ⟨rfl, ⟨⟨durationMs, hvideo⟩, hkeyframes⟩, rfl, rfl, rfl⟩

/-- The outcome of a remote processing. -/
theorem processRemoteMedia_outcome (settings : MediaSettings) (m : Media) (file : QuarantinedFile)
    (remote : RemoteObject) :
    ((processRemoteMedia settings m remote).2 = none ∧
        ClearsTask settings m file remote .mediaProcess ∧
        (processRemoteMedia settings m remote).1.attachment.metadataStatus = .ready ∧
        (processRemoteMedia settings m remote).1.attachment.perceptualHash =
          m.attachment.perceptualHash ∧
        (processRemoteMedia settings m remote).1.attachment.sha256 =
          if m.upload.storageProvider = .qiniuKodo ∧ m.upload.mediaType = .image then
            if m.upload.sizeBytes ≤ settings.maxImageBytes then some m.upload.expectedSha256 else none
          else m.attachment.sha256) ∨
      (processRemoteMedia settings m remote).2.isSome = true ∧
        m.Failed (processRemoteMedia settings m remote).1 := by
  unfold processRemoteMedia
  dsimp only
  by_cases hobject : m.upload.uploadedAt = none ∨ ¬ m.upload.objectKey.any (· ≠ "") = true
  · rw [if_pos hobject]
    exact Or.inr ⟨rfl, .refl m⟩
  · rw [if_neg hobject]
    push Not at hobject
    by_cases hkodo : m.upload.storageProvider = .qiniuKodo
    · rw [if_pos hkodo]
      cases hstat : remote.stat with
      | error e => exact Or.inr ⟨rfl, .refl m⟩
      | ok stat =>
        dsimp only
        cases hchecked : checkStat m stat with
        | error e =>
          refine Or.inr ⟨rfl, ?_⟩
          dsimp only
          split_ifs <;> exact ⟨rfl, Or.inl rfl, Or.inl nofun⟩
        | ok u =>
          dsimp only [Media.assess]
          cases hkind : m.upload.mediaType with
          | image =>
            rcases processImage_outcome settings _ remote with
              ⟨hok, himage, hpasses, hready, hhash, hsha⟩ | ⟨herror, hfailed⟩
            · refine Or.inl ⟨hok, ⟨hobject, fun _ => ⟨⟨stat, hstat, hchecked⟩, ?_⟩⟩, hready, hhash, ?_⟩
              · rw [hkind]
                exact ⟨himage, hpasses⟩
              · rw [if_pos ⟨hkodo, rfl⟩]
                exact hsha
            · exact Or.inr ⟨herror, hfailed.perceptualHash, hfailed.digest, hfailed.status⟩
          | video =>
            rcases processVideo_outcome settings _ remote with
              ⟨hok, hpasses, hready, hhash, hsha⟩ | ⟨herror, hfailed⟩
            · refine Or.inl ⟨hok, ⟨hobject, fun _ => ⟨⟨stat, hstat, hchecked⟩, ?_⟩⟩, hready, hhash, ?_⟩
              · rw [hkind]
                exact hpasses
              · rw [if_neg fun h => nomatch h.2]
                exact hsha
            · exact Or.inr ⟨herror, hfailed.perceptualHash, hfailed.digest, hfailed.status⟩
    · rw [if_neg hkodo]
      refine Or.inl ⟨rfl, ⟨hobject, fun h => absurd h hkodo⟩, rfl, rfl, ?_⟩
      rw [if_neg fun h => hkodo h.1]
      rfl

end Processing
/-! ### What the rows tell of their content -/

/-- The hashes of a row are those of its declared content; a local row that is ready has them. -/
structure Attachment.Describes (phash : String → String) (u : Upload) (a : Attachment) : Prop where
  digest : ∀ d ∈ a.sha256, d = u.expectedSha256
  hash : ∀ p ∈ a.perceptualHash, p = phash u.expectedSha256 ∧ u.storageProvider = .localProxy
  ready : u.storageProvider = .localProxy → a.metadataStatus = .ready →
    a.sha256 ≠ none ∧ a.perceptualHash ≠ none

/-- What a row may become while the worker holds it. -/
structure Attachment.Gains (a b : Attachment) : Prop where
  incidentId : b.incidentId = a.incidentId
  ready : b.metadataStatus = .ready → a.metadataStatus = .ready
  digest : a.sha256 ≠ none → b.sha256 ≠ none
  hash : b.perceptualHash = a.perceptualHash

structure UploadState.Described (settings : MediaSettings) (phash : String → String)
    (s : UploadState) : Prop where
  consistent : s.Consistent settings
  paired : s.db.attachments.size = s.db.uploads.size
  rows : ∀ i a u, s.db.attachments.get i = some a → s.db.uploads.get i = some u → a.Describes phash u
  contents : ∀ i m sha256 receivedAt,
    s.waiting.get i = some (some (.content m sha256 receivedAt)) → sha256 = m.upload.expectedSha256
  loaded : ∀ i w m, s.waiting.get i = some (some w) → m ∈ w.media →
    ∀ d ∈ m.attachment.sha256, d = m.upload.expectedSha256
  held : ∀ job task m a, s.worker = .executing job task m → s.db.attachments.get m.id = some a →
    m.attachment.Gains a

section Describing
variable {settings : MediaSettings} {text : TextLib} {phash : String → String} {s : UploadState}
  {t : MediaDb} {x : UploadStep} {u v : Upload} {a b : Attachment}

theorem Attachment.Describes.of_fixed (h : a.Describes phash u) (hv : v.fixed = u.fixed) :
    a.Describes phash v := by
  have hprovider : v.storageProvider = u.storageProvider := congrArg (·.1) hv
  have hexpected : v.expectedSha256 = u.expectedSha256 := congrArg (·.2.2.2.2.2) hv
  constructor
  · rw [hexpected]
    exact h.digest
  · rw [hexpected, hprovider]
    exact h.hash
  · rw [hprovider]
    exact h.ready

theorem Attachment.Gains.refl (a : Attachment) : a.Gains a := ⟨rfl, id, id, rfl⟩

theorem Attachment.Gains.trans {c : Attachment} (h : a.Gains b) (k : b.Gains c) : a.Gains c :=
  ⟨k.incidentId.trans h.incidentId, h.ready ∘ k.ready, k.digest ∘ h.digest, k.hash.trans h.hash⟩

theorem gains_of_sameUpload (h : a.SameUpload b) : a.Gains b := by
  have hsame : b.unbound = a.unbound := h
  have hmetadata : b.unbound.metadataStatus = a.unbound.metadataStatus := by rw [hsame]
  have hdigest : b.unbound.sha256 = a.unbound.sha256 := by rw [hsame]
  have hhash : b.unbound.perceptualHash = a.unbound.perceptualHash := by rw [hsame]
  have hincident : b.unbound.incidentId = a.unbound.incidentId := by rw [hsame]
  exact ⟨hincident, fun h => hmetadata.symm.trans h, fun h k => h (hdigest.symm.trans k), hhash⟩

/-- What a request writes to a row: the declared digest, and perhaps that it is to be processed. -/
theorem gains_of_save {m new : Media} (hsha : new.attachment.sha256 ≠ none)
    (hhash : new.attachment.perceptualHash = m.attachment.perceptualHash)
    (hstatus : new.attachment.metadataStatus = m.attachment.metadataStatus ∨
      new.attachment.metadataStatus ≠ .ready) :
    a.Gains (m.attachment.save new.attachment a) := by
  constructor
  · rfl
  · intro hready
    rcases hstatus with hsame | hother
    · simp only [Attachment.save, hsame, written_unchanged] at hready
      exact hready
    · rcases written_eq_or m.attachment.metadataStatus new.attachment.metadataStatus
        a.metadataStatus with hstored | hnew
      · exact hstored.symm.trans hready
      · exact absurd (hnew.symm.trans hready) hother
  · intro hold hnone
    rcases written_eq_or m.attachment.sha256 new.attachment.sha256 a.sha256 with hstored | hnew
    · exact hold (hstored.symm.trans hnone)
    · exact hsha (hnew.symm.trans hnone)
  · simp only [Attachment.save, hhash, written_unchanged]

/-- A step in which the worker executes nothing. -/
theorem MediaStep.gains (h : MediaStep settings s t x)
    (hx : ∀ file remote, x = .execute file remote → ∀ job task m, s.worker ≠ .executing job task m)
    {i : Id} (ha : s.db.attachments.get i = some a) :
    ∃ b, t.attachments.get i = some b ∧ a.Gains b := by
  have hsaved : ∀ {m new : Media},
      t.attachments = s.db.attachments.modify m.id (m.attachment.save new.attachment) →
      new.attachment.sha256 ≠ none →
      new.attachment.perceptualHash = m.attachment.perceptualHash →
      (new.attachment.metadataStatus = m.attachment.metadataStatus ∨
        new.attachment.metadataStatus ≠ .ready) →
      ∃ b, t.attachments.get i = some b ∧ a.Gains b := by
    intro m new htable hsha hhash hstatus
    rw [htable, Table.get_modify, ha]
    split_ifs with hid
    · exact ⟨_, rfl, gains_of_save hsha hhash hstatus⟩
    · exact ⟨a, rfl, .refl a⟩
  cases h with
  | quiet _ hattachments => exact ⟨a, hattachments ▸ ha, .refl a⟩
  | announced k incident device u hu hattachments =>
    exact ⟨a, hattachments ▸ Table.get_insert_of_some _ ha, .refl a⟩
  | received k m sha256 receivedAt hw ht =>
    exact hsaved (m := m) (congrArg (·.attachments) ht) nofun rfl (Or.inl rfl)
  | queued k m payload hw hlocal hidle ht => exact ⟨a, ht ▸ ha, .refl a⟩
  | completed k w m payload hw hc haccepts hattachments =>
    exact hsaved (m := m) hattachments nofun rfl (Or.inr nofun)
  | claimed job j hworker hj hdue ht => exact ⟨a, ht ▸ ha, .refl a⟩
  | executed job task m file remote hworker ht => exact absurd hworker (hx file remote rfl job task m)
  | finished job error hworker ht => exact ⟨a, ht ▸ ha, .refl a⟩
  | bound _ hsame =>
    obtain ⟨b, hb, hab⟩ := hsame.right_of_some ha
    exact ⟨b, hb, gains_of_sameUpload hab⟩

/-- A row that has not become ready, and whose content is not new. -/
structure Attachment.Fades (a b : Attachment) : Prop where
  incidentId : b.incidentId = a.incidentId
  ready : b.metadataStatus = .ready → a.metadataStatus = .ready
  digest : b.metadataStatus = .ready → b.sha256 = none ∨ b.sha256 = a.sha256
  hash : b.perceptualHash = a.perceptualHash

theorem Attachment.Fades.refl (a : Attachment) : a.Fades a := ⟨rfl, id, fun _ => Or.inr rfl, rfl⟩

theorem fades_of_failed {m new : Media} (h : m.Failed new) (ha : m.attachment.Gains a) :
    a.Fades (m.attachment.save new.attachment a) where
  incidentId := rfl
  ready := by
    intro hready
    rcases written_eq_or m.attachment.metadataStatus new.attachment.metadataStatus a.metadataStatus
      with hstored | hnew
    · exact hstored.symm.trans hready
    · rcases h.status with hother | ⟨hsame, -⟩
      · exact absurd (hnew.symm.trans hready) hother
      · simp only [Attachment.save, hsame, written_unchanged] at hready
        exact hready
  digest := by
    intro hready
    rcases h.status with hother | ⟨-, hsame | hnone⟩
    · rcases written_eq_or m.attachment.metadataStatus new.attachment.metadataStatus
        a.metadataStatus with hstored | hnew
      · -- the status was not written, so it is the one that was loaded
        have hloaded := ha.ready (hstored.symm.trans hready)
        have hwritten : written m.attachment.metadataStatus new.attachment.metadataStatus
            a.metadataStatus = new.attachment.metadataStatus :=
          written_of_ne (fun heq => hother (heq.trans hloaded)) _
        exact absurd (hwritten.symm.trans hready) hother
      · exact absurd (hnew.symm.trans hready) hother
    · right
      simp only [Attachment.save, hsame, written_unchanged]
    · rcases written_eq_or m.attachment.sha256 new.attachment.sha256 a.sha256 with hstored | hnew
      · exact Or.inr hstored
      · exact Or.inl (hnew.trans hnone)
  hash := by simp only [Attachment.save, h.perceptualHash, written_unchanged]

theorem Attachment.Describes.of_gains (h : a.Describes phash u) (hab : a.Gains b)
    (hdigest : ∀ d ∈ b.sha256, d = u.expectedSha256) : b.Describes phash u where
  digest := hdigest
  hash := hab.hash ▸ h.hash
  ready := by
    intro hlocal hready
    obtain ⟨hsha, hhash⟩ := h.ready hlocal (hab.ready hready)
    exact ⟨hab.digest hsha, hab.hash ▸ hhash⟩

theorem mem_written {loaded value stored : Option String} {d : String}
    (h : d ∈ written loaded value stored) : d ∈ stored ∨ d ∈ value := by
  rcases written_eq_or loaded value stored with heq | heq
  · exact Or.inl (heq ▸ h)
  · exact Or.inr (heq ▸ h)

/-- The row of a processed attachment. -/
theorem describes_processed {job : Id} {task : MediaTask} {m : Media} {file : QuarantinedFile}
    {remote : RemoteObject} (hs : s.Described settings phash)
    (hphash : HashesContent phash (.execute file remote))
    (hworker : s.worker = .executing job task m) (ha : s.db.attachments.get m.id = some a)
    (hu : s.db.uploads.get m.id = some u) :
    (m.attachment.save (runTask settings task m file remote).1.attachment a).Describes phash u := by
  have hrow := hs.rows m.id a u ha hu
  have hheld := hs.held job task m a hworker ha
  obtain ⟨hholds, j, hj, hpayload⟩ := hs.consistent.executing job task m hworker
  obtain ⟨u', hu', hfixed⟩ := hholds.upload
  obtain rfl := Option.some.inj (hu'.symm.trans hu)
  have hexpected : u'.expectedSha256 = m.upload.expectedSha256 := congrArg (·.2.2.2.2.2) hfixed
  obtain ⟨v, hv, htask⟩ := hs.consistent.tasks job j hj
  rw [hpayload] at hv htask
  obtain rfl := Option.some.inj (hv.symm.trans hu')
  cases task with
  | attachmentProcess =>
    have hlocal : v.storageProvider = .localProxy := htask.mp rfl
    rcases processAttachment_outcome m file with
      ⟨sha256, i, rfl, -, -, ⟨⟨hsha, hloaded⟩, -⟩, -, hsame, hhash⟩ | ⟨-, hfailed, hsame⟩
    · have hcontent : i.perceptualHash = phash v.expectedSha256 := by
        rw [hphash sha256 i remote rfl, hsha, hexpected]
      have hnew : written m.attachment.perceptualHash (some i.perceptualHash) a.perceptualHash =
          some i.perceptualHash := by
        rw [hheld.hash, written_loaded]
      have hdigest : a.sha256 ≠ none := hheld.digest (fun h => by cases hloaded.trans h)
      simp only [runTask, Attachment.save, hsame, hhash, hnew, written_unchanged]
      constructor
      · exact hrow.digest
      · intro p hp
        exact ⟨(Option.some.inj hp).symm.trans hcontent, hlocal⟩
      · exact fun _ _ => ⟨hdigest, by rintro ⟨⟩⟩
    · have hfades := fades_of_failed hfailed hheld
      refine ⟨?_, ?_, fun _ hready => ?_⟩
      · simp only [runTask, Attachment.save, hsame, written_unchanged]
        exact hrow.digest
      · rw [runTask, hfades.hash]
        exact hrow.hash
      · obtain ⟨hdigest, hhash⟩ := hrow.ready hlocal (hfades.ready hready)
        rw [runTask, hfades.hash]
        refine ⟨?_, hhash⟩
        simp only [Attachment.save, hsame, written_unchanged]
        exact hdigest
  | mediaProcess =>
    have hremote : v.storageProvider ≠ .localProxy := fun h => by cases htask.mpr h
    have hnew : (runTask settings .mediaProcess m file remote).1.attachment.perceptualHash =
          m.attachment.perceptualHash ∧
        ((runTask settings .mediaProcess m file remote).1.attachment.sha256 = m.attachment.sha256 ∨
          (runTask settings .mediaProcess m file remote).1.attachment.sha256 = none ∨
          (runTask settings .mediaProcess m file remote).1.attachment.sha256 =
            some m.upload.expectedSha256) := by
      rcases processRemoteMedia_outcome settings m file remote with
        ⟨-, -, -, hhash, hsha⟩ | ⟨-, hfailed⟩
      · refine ⟨hhash, ?_⟩
        simp only [runTask, hsha]
        split_ifs <;> simp
      · exact ⟨hfailed.perceptualHash, hfailed.digest⟩
    obtain ⟨hhash, hsha⟩ := hnew
    refine ⟨fun d hd => ?_, ?_, fun h => absurd h hremote⟩
    · rcases hsha with hsame | hnone | hdeclared
      · simp only [Attachment.save, hsame, written_unchanged] at hd
        exact hrow.digest d hd
      · rcases mem_written hd with hstored | hnew
        · exact hrow.digest d hstored
        · exact absurd (hnone ▸ hnew) (Option.not_mem_none d)
      · rcases mem_written hd with hstored | hnew
        · exact hrow.digest d hstored
        · rw [hdeclared] at hnew
          exact (Option.some.inj hnew).symm.trans hexpected.symm
    · simp only [Attachment.save, hhash, written_unchanged]
      exact hrow.hash

theorem MediaStep.paired (h : MediaStep settings s t x)
    (hs : s.db.attachments.size = s.db.uploads.size) : t.attachments.size = t.uploads.size := by
  cases h with
  | quiet _ ha hu => rw [ha, hu, hs]
  | announced k incident device u hu ha huploads => simp [ha, huploads, hs]
  | received k m sha256 receivedAt hw ht => simp [ht, MediaDb.saveMedia, hs]
  | queued k m payload hw hlocal hidle ht => simp [ht, hs]
  | completed k w m payload hw hc haccepts ha hu => simp [ha, hu, hs]
  | claimed job j hworker hj hdue ht => simp [ht, hs]
  | executed job task m file remote hworker ht => simp [ht, MediaDb.saveMedia, hs]
  | finished job error hworker ht => simp [ht, hs]
  | bound _ ha hu => rw [hu, ← hs, ← ha.size_eq]

theorem loadRequest_content {now : Time} {db : MediaDb} {r : UploadRequest} {m : Media}
    {sha256 : String} {receivedAt : Time}
    (h : loadRequest settings now db r = .ok (.content m sha256 receivedAt)) :
    sha256 = m.upload.expectedSha256 := by
  unfold loadRequest at h
  cases hcall : r.call with
  | content attachment contentType size given =>
    simp only [hcall, bind_ok, require_ok, pure_ok] at h
    obtain ⟨k, -, -, -, -, -, u, hchecked, h⟩ := h
    obtain ⟨rfl, rfl, -⟩ := Waiting.content.inj h
    simp only [checkContent, bind_ok, require_ok] at hchecked
    obtain ⟨-, -, -, -, -, -, hsha⟩ := hchecked
    exact hsha
  | imageIntent payload => simp [hcall] at h
  | mediaIntent payload => simp [hcall] at h
  | complete attachment payload => simp [hcall] at h
  | createSession attachment payload => simp [hcall] at h
  | recordPart attachment session payload => simp [hcall] at h
  | renew attachment session => simp [hcall] at h
  | delete attachment session => simp [hcall] at h
  | callback authorized objectKey given declared =>
    simp only [hcall, bind_ok, require_ok, found_ok, pure_ok] at h
    obtain ⟨-, -, -, -, -, -, y, -, k, -, h⟩ := h
    split_ifs at h

/-- The media a completion is for. -/
theorem Waiting.completesRemote_media {w : Waiting} {m : Media} {payload : UploadCompleteRequest}
    (h : w.completesRemote = some (m, payload)) : m ∈ w.media := by
  cases w with
  | complete k given =>
    simp only [Waiting.completesRemote] at h
    split_ifs at h
    exact congrArg some (Prod.mk.inj (Option.some.inj h)).1
  | callback k key etag size => exact congrArg some (Prod.mk.inj (Option.some.inj h)).1
  | imageIntent device payload => cases h
  | mediaIntent device payload => cases h
  | content m sha256 receivedAt => cases h
  | createSession m device payload drawn => cases h
  | recordPart session loaded payload => cases h
  | renew session loaded drawn => cases h
  | delete session loaded => cases h
  | answered => cases h

theorem MediaStep.describes (h : MediaStep settings s t x) (hs : s.Described settings phash)
    (hphash : HashesContent phash x) {i : Id} (ha : s.db.attachments.get i = some a)
    (hu : s.db.uploads.get i = some u) (hb : t.attachments.get i = some b) : b.Describes phash u := by
  have hrow := hs.rows i a u ha hu
  have hkept : b = a → b.Describes phash u := fun h => h ▸ hrow
  have hsame : t.attachments = s.db.attachments → b.Describes phash u := by
    intro htable
    rw [htable, ha] at hb
    exact hkept (Option.some.inj hb).symm
  -- a request that writes the declared digest
  have hsaved : ∀ (m new : Media) {d : String}, s.db.Holds m →
      t.attachments = s.db.attachments.modify m.id (m.attachment.save new.attachment) →
      new.attachment.sha256 = some d → d = m.upload.expectedSha256 →
      new.attachment.perceptualHash = m.attachment.perceptualHash →
      (new.attachment.metadataStatus = m.attachment.metadataStatus ∨
        new.attachment.metadataStatus ≠ .ready) → b.Describes phash u := by
    intro m new d hholds htable hsha hd hhash hstatus
    rw [htable, Table.get_modify, ha] at hb
    split_ifs at hb with hid
    · obtain rfl := Option.some.inj hb
      subst hid
      obtain ⟨u', hu', hfixed⟩ := hholds.upload
      obtain rfl := Option.some.inj (hu'.symm.trans hu)
      have hexpected : u'.expectedSha256 = m.upload.expectedSha256 := congrArg (·.2.2.2.2.2) hfixed
      have hnew : new.attachment.sha256 ≠ none := fun h => nomatch hsha.symm.trans h
      refine hrow.of_gains (gains_of_save hnew hhash hstatus) fun e he => ?_
      rcases mem_written he with hstored | hgiven
      · exact hrow.digest e hstored
      · rw [hsha] at hgiven
        rw [hexpected, ← hd, Option.some.inj hgiven]
    · exact hkept (Option.some.inj hb).symm
  cases h with
  | quiet _ hattachments => exact hsame hattachments
  | announced k incident device new hnew hattachments =>
    rw [hattachments, Table.get_insert_of_some _ ha] at hb
    exact hkept (Option.some.inj hb).symm
  | received k m sha256 receivedAt hw ht =>
    exact hsaved m (m.quarantined sha256 receivedAt) (hs.consistent.waiting k _ hw m rfl)
      (congrArg (·.attachments) ht) rfl (hs.contents k m sha256 receivedAt hw) rfl (Or.inl rfl)
  | queued k m payload hw hlocal hidle ht => exact hsame (congrArg (·.attachments) ht)
  | completed k w m payload hw hc haccepts hattachments =>
    exact hsaved m (m.received s.now payload.etag)
      (hs.consistent.waiting k w hw m (Waiting.completesRemote_media hc)) hattachments rfl rfl rfl
      (Or.inr nofun)
  | claimed job j hworker hj hdue ht => exact hsame (congrArg (·.attachments) ht)
  | executed job task m file remote hworker ht =>
    rw [ht, MediaDb.saveMedia, Table.get_modify, ha] at hb
    split_ifs at hb with hid
    · obtain rfl := Option.some.inj hb
      subst hid
      exact describes_processed hs hphash hworker ha hu
    · exact hkept (Option.some.inj hb).symm
  | finished job error hworker ht => exact hsame (congrArg (·.attachments) ht)
  | bound _ hrows =>
    have hgains := gains_of_sameUpload (hrows.get_some ha hb)
    refine hrow.of_gains hgains ?_
    have hunbound : b.unbound = a.unbound := hrows.get_some ha hb
    have hdigest : b.unbound.sha256 = a.unbound.sha256 := by rw [hunbound]
    intro d hd
    exact hrow.digest d (hdigest ▸ hd)

/-- A row that was not there is not processed yet. -/
theorem MediaStep.announces (h : MediaStep settings s t x) {i : Id}
    (ha : s.db.attachments.get i = none) (hb : t.attachments.get i = some b) :
    b.sha256 = none ∧ b.perceptualHash = none ∧ b.metadataStatus = .pending := by
  have hsame : t.attachments ≠ s.db.attachments := by
    intro htable
    rw [htable, ha] at hb
    exact nomatch hb
  have hmodified : ∀ {k : Id} {f : Attachment → Attachment},
      t.attachments ≠ s.db.attachments.modify k f := by
    intro k f htable
    rw [htable, Table.get_modify, ha] at hb
    split_ifs at hb
    exact nomatch hb
  cases h with
  | quiet _ hattachments => exact absurd hattachments hsame
  | announced k incident device u hu hattachments =>
    rw [hattachments] at hb
    rcases Table.get_insert_cases hb with ⟨-, rfl⟩ | hold
    · exact ⟨rfl, rfl, rfl⟩
    · exact nomatch ha.symm.trans hold
  | received k m sha256 receivedAt hw ht => exact absurd (congrArg (·.attachments) ht) hmodified
  | queued k m payload hw hlocal hidle ht => exact absurd (congrArg (·.attachments) ht) hsame
  | completed k w m payload hw hc haccepts hattachments => exact absurd hattachments hmodified
  | claimed job j hworker hj hdue ht => exact absurd (congrArg (·.attachments) ht) hsame
  | executed job task m file remote hworker ht => exact absurd (congrArg (·.attachments) ht) hmodified
  | finished job error hworker ht => exact absurd (congrArg (·.attachments) ht) hsame
  | bound _ hrows =>
    obtain ⟨c, hc, -⟩ := hrows.left_of_some hb
    exact nomatch ha.symm.trans hc

theorem Waiting.IsLoaded.rows {db : MediaDb} {w : Waiting} {m : Media} (h : w.IsLoaded db)
    (hm : m ∈ w.media) :
    db.attachments.get m.id = some m.attachment ∧ db.uploads.get m.id = some m.upload := by
  cases w with
  | content k sha256 receivedAt => exact Option.some.inj hm ▸ h
  | complete k payload => exact Option.some.inj hm ▸ h
  | createSession k device payload drawn => exact Option.some.inj hm ▸ h
  | callback k key etag size => exact Option.some.inj hm ▸ h
  | imageIntent device payload => exact nomatch hm
  | mediaIntent device payload => exact nomatch hm
  | recordPart session loaded payload => exact nomatch hm
  | renew session loaded drawn => exact nomatch hm
  | delete session loaded => exact nomatch hm
  | answered => exact nomatch hm

theorem uploadStep_described (text : TextLib) (hs : s.Described settings phash)
    (hphash : HashesContent phash x) : (uploadStep settings text s x).Described settings phash where
  consistent := uploadStep_consistent hs.consistent x
  paired := (uploadStep_media settings text s x).paired hs.paired
  rows := by
    intro i b v hb hv
    have hstep := uploadStep_media settings text s x
    cases ha : s.db.attachments.get i with
    | none =>
      obtain ⟨hsha, hhash, hstatus⟩ := hstep.announces ha hb
      refine ⟨?_, ?_, fun _ h => by cases hstatus.symm.trans h⟩
      · rw [hsha]
        exact fun d h => absurd h (Option.not_mem_none d)
      · rw [hhash]
        exact fun p h => absurd h (Option.not_mem_none p)
    | some a =>
      obtain ⟨u, hu⟩ := Table.get_of_lt (hs.paired ▸ Table.lt_size ha)
      obtain ⟨v', hv', hfixed⟩ := uploadStep_uploads settings text s x i u hu
      obtain rfl := Option.some.inj (hv'.symm.trans hv)
      exact (hstep.describes hs hphash ha hu hb).of_fixed hfixed
  contents := by
    intro i m sha256 receivedAt hw
    rcases waiting_cases hw with hold | ⟨⟨r, -, hload⟩, -⟩
    · exact hs.contents i m sha256 receivedAt hold
    · exact loadRequest_content hload
  loaded := by
    intro i w m hw hm
    rcases waiting_cases hw with hold | ⟨⟨r, -, hload⟩, -⟩
    · exact hs.loaded i w m hold hm
    · obtain ⟨ha, hu⟩ := (loadRequest_isLoaded hload).rows hm
      exact (hs.rows m.id m.attachment m.upload ha hu).digest
  held := by
    intro job task m b hworker hb
    have hidle : ∀ file remote, x = .execute file remote → ∀ job task m,
        s.worker ≠ .executing job task m := by
      rintro file remote rfl job' task' m' hs
      simp [uploadStep, hs] at hworker
    have hstep := uploadStep_worker settings text s x
    rw [hworker] at hstep
    generalize hw : (MediaWorker.executing job task m) = w at hstep
    cases hstep with
    | kept _ =>
      have hold := hs.consistent.executing job task m hw.symm
      obtain ⟨a, ha, -⟩ := hold.1.attachment
      obtain ⟨b', hb', hgains⟩ := (uploadStep_media settings text s x).gains hidle ha
      obtain rfl := Option.some.inj (hb'.symm.trans hb)
      exact (hs.held job task m a hw.symm ha).trans hgains
    | loaded job' j m' hclaimed hj hrunning hm =>
      obtain ⟨rfl, rfl, rfl⟩ := MediaWorker.executing.inj hw
      obtain ⟨hid, ha, -⟩ := media_ok hm
      rw [← hid] at ha
      obtain ⟨b', hb', hgains⟩ := (uploadStep_media settings text s .load).gains hidle ha
      obtain rfl := Option.some.inj (hb'.symm.trans hb)
      exact hgains
    | idle _ => cases hw
    | claimed _ _ _ _ _ => cases hw
    | refused _ _ _ _ _ _ _ => cases hw
    | executed _ _ _ _ _ _ => cases hw

end Describing
/-! ### Clusters -/

/-- What a step does to the content of the rows, and to the links. -/
inductive ContentStep (phash : String → String) (c d : ClusterState) : Prop
  | faded (rows : ∀ i b, d.uploads.db.attachments.get i = some b → b.metadataStatus = .ready →
        ∃ a, c.uploads.db.attachments.get i = some a ∧ a.Fades b) (links : d.links = c.links)
  | gathered (m : Media)
      (row : ∀ b, d.uploads.db.attachments.get m.id = some b → b.metadataStatus = .ready →
        b.incidentId = m.attachment.incidentId ∧ b.perceptualHash = none ∧
          ∀ e ∈ b.sha256, e = m.upload.expectedSha256 ∧ c.Gathered m)
      (rows : ∀ i b, i ≠ m.id → d.uploads.db.attachments.get i = some b →
        b.metadataStatus = .ready → ∃ a, c.uploads.db.attachments.get i = some a ∧ a.Fades b)
      (links : d.links = c.links)
  | joined (m : Media)
      (row : ∀ b, d.uploads.db.attachments.get m.id = some b →
        b.incidentId = m.attachment.incidentId ∧ b.sha256 = some m.upload.expectedSha256 ∧
          b.perceptualHash = some (phash m.upload.expectedSha256))
      (rows : ∀ i, i ≠ m.id →
        d.uploads.db.attachments.get i = c.uploads.db.attachments.get i)
      (links : d.links = assignCluster c.links m.id (c.uploads.db.oldestDuplicate m.id
        m.attachment.incidentId m.upload.expectedSha256 (phash m.upload.expectedSha256)))
      (original : ∀ o, c.uploads.db.oldestDuplicate m.id m.attachment.incidentId
          m.upload.expectedSha256 (phash m.upload.expectedSha256) = some o →
        ((∃ j ∈ c.uploads.db.duplicates m.id m.attachment.incidentId m.upload.expectedSha256
              (phash m.upload.expectedSha256),
            ∃ u, c.uploads.db.uploads.get j = some u ∧ u.storageProvider ≠ .localProxy) →
          ∀ j ∈ c.uploads.db.duplicates m.id m.attachment.incidentId m.upload.expectedSha256
              (phash m.upload.expectedSha256), j ≠ o → c.SameCluster o j) ∧
        ¬ ReflTransGen c.NamesOriginal o m.id)

section Clusters
variable {settings : MediaSettings} {phash : String → String} {c d : ClusterState}

theorem ClusterState.SameCluster.symm {i j : Id} (h : c.SameCluster i j) : c.SameCluster j i :=
  ⟨h.2 ▸ h.1, h.2.symm⟩

theorem Attachment.SameContent.symm {a b : Attachment} (h : a.SameContent b) : b.SameContent a := by
  rcases h with ⟨hsome, heq⟩ | ⟨hsome, heq⟩
  · exact Or.inl ⟨heq ▸ hsome, heq.symm⟩
  · exact Or.inr ⟨heq ▸ hsome, heq.symm⟩

/-- The content two rows have in common was there before. -/
theorem Attachment.SameContent.of_fades {a a' b b' : Attachment} (h : b.SameContent b')
    (hready : b.metadataStatus = .ready) (hready' : b'.metadataStatus = .ready)
    (ha : a.Fades b) (ha' : a'.Fades b') : a.SameContent a' := by
  rcases h with ⟨hsome, heq⟩ | ⟨hsome, heq⟩
  · left
    have hsha := (ha.digest hready).resolve_left hsome
    have hsha' := (ha'.digest hready').resolve_left (heq ▸ hsome)
    rw [← hsha, ← hsha']
    exact ⟨hsome, heq⟩
  · right
    rw [← ha.hash, ← ha'.hash]
    exact ⟨hsome, heq⟩

section Assigning
variable (links : Id → DuplicateLinks) {id o i : Id}

theorem assignCluster_original :
    (assignCluster links id (some o) o).sourceClusterId = some ((links o).sourceClusterId.getD o) ∧
      (assignCluster links id (some o) o).duplicateOf = (links o).duplicateOf := by
  simp [assignCluster]

theorem assignCluster_self (h : id ≠ o) : assignCluster links id (some o) id =
    ⟨some o, some ((links o).sourceClusterId.getD o)⟩ := by
  simp [assignCluster, h]

theorem assignCluster_other (hid : i ≠ id) (ho : i ≠ o) :
    assignCluster links id (some o) i = links i := by
  simp [assignCluster, hid, ho]

theorem assignCluster_alone (hid : i ≠ id) : assignCluster links id none i = links i := by
  simp [assignCluster, hid]

theorem assignCluster_names {d : Id} (ho : id ≠ o)
    (h : (assignCluster links id (some o) i).duplicateOf = some d) :
    (i = id ∧ d = o) ∨ (links i).duplicateOf = some d := by
  by_cases hid : i = id
  · subst hid
    rw [assignCluster_self links ho] at h
    exact Or.inl ⟨rfl, (Option.some.inj h).symm⟩
  · by_cases hio : i = o
    · subst hio
      rw [(assignCluster_original links).2] at h
      exact Or.inr h
    · rw [assignCluster_other links hid hio] at h
      exact Or.inr h

theorem assignCluster_alone_names :
    (assignCluster links id none i).duplicateOf = (links i).duplicateOf := by
  by_cases hid : i = id
  · subst hid
    simp [assignCluster]
  · rw [assignCluster_alone links hid]

end Assigning

/-- Two local duplicates of one picture are duplicates of each other. -/
theorem sameContent_of_duplicates {a b : Attachment} {u v : Upload}
    (ha : a.Describes phash u) (hb : b.Describes phash v)
    (hu : u.storageProvider = .localProxy) (hv : v.storageProvider = .localProxy)
    (hready : a.metadataStatus = .ready) (hready' : b.metadataStatus = .ready)
    {sha256 : String} (hsame : a.sha256 = some sha256 ∨ a.perceptualHash = some (phash sha256))
    (hsame' : b.sha256 = some sha256 ∨ b.perceptualHash = some (phash sha256)) :
    a.SameContent b := by
  have hhash : ∀ {a : Attachment} {u : Upload}, a.Describes phash u →
      u.storageProvider = .localProxy → a.metadataStatus = .ready →
      (a.sha256 = some sha256 ∨ a.perceptualHash = some (phash sha256)) →
      a.perceptualHash = some (phash sha256) := by
    intro a u ha hu hready hsame
    rcases hsame with hsha | hhash
    · obtain ⟨p, hp⟩ := Option.ne_none_iff_exists'.mp (ha.ready hu hready).2
      rw [hp, (ha.hash p hp).1, ← ha.digest sha256 hsha]
    · exact hhash
  have h := hhash ha hu hready hsame
  have h' := hhash hb hv hready' hsame'
  exact Or.inr ⟨fun hnone => (nomatch h.symm.trans hnone), h.trans h'.symm⟩

theorem ContentStep.clustered (h : ContentStep phash c d) (hs : c.uploads.Described settings phash)
    (hc : c.Clustered) : d.Clustered := by
  -- two rows that have faded
  have hfaded : ∀ i j b b', d.uploads.db.attachments.get i = some b →
      d.uploads.db.attachments.get j = some b' → i ≠ j → b.incidentId = b'.incidentId →
      b.metadataStatus = .ready → b'.metadataStatus = .ready → b.SameContent b' →
      (∃ a, c.uploads.db.attachments.get i = some a ∧ a.Fades b) →
      (∃ a, c.uploads.db.attachments.get j = some a ∧ a.Fades b') → c.SameCluster i j := by
    rintro i j b b' - - hne hincident hready hready' hsame ⟨a, ha, hab⟩ ⟨a', ha', hab'⟩
    have hincident' : a.incidentId = a'.incidentId := by
      rw [← hab.incidentId, ← hab'.incidentId, hincident]
    exact hc.shared i j a a' ha ha' hne hincident' (hab.ready hready) (hab'.ready hready')
      (hsame.of_fades hready hready' hab hab')
  cases h with
  | faded rows links =>
    refine ⟨fun i j b b' hb hb' hne hincident hready hready' hsame => ?_, ?_⟩
    · have hold := hfaded i j b b' hb hb' hne hincident hready hready' hsame
        (rows i b hb hready) (rows j b' hb' hready')
      unfold ClusterState.SameCluster
      rw [links]
      exact hold
    · unfold ClusterState.NamesOriginal
      rw [links]
      exact hc.acyclic
  | gathered m row rows links =>
    have hgathered : ∀ j b b', d.uploads.db.attachments.get m.id = some b →
        d.uploads.db.attachments.get j = some b' → j ≠ m.id → b.incidentId = b'.incidentId →
        b.metadataStatus = .ready → b'.metadataStatus = .ready → b.SameContent b' →
        c.SameCluster m.id j := by
      intro j b b' hb hb' hne hincident hready hready' hsame
      obtain ⟨hm, hhash, hdigest⟩ := row b hb hready
      obtain ⟨a', ha', hab'⟩ := rows j b' hne hb' hready'
      rcases hsame with ⟨hsome, heq⟩ | ⟨hsome, -⟩
      · obtain ⟨e, he⟩ := Option.ne_none_iff_exists'.mp hsome
        obtain ⟨rfl, hgather⟩ := hdigest e he
        have hsha := (hab'.digest hready').resolve_left (heq ▸ hsome)
        refine hgather j a' ha' hne ?_ (hab'.ready hready') ?_
        · rw [← hab'.incidentId, ← hincident, hm]
        · rw [← hsha, ← heq, he]
      · exact absurd hhash hsome
    refine ⟨fun i j b b' hb hb' hne hincident hready hready' hsame => ?_, ?_⟩
    · unfold ClusterState.SameCluster
      rw [links]
      by_cases hi : i = m.id
      · subst hi
        exact hgathered j b b' hb hb' (Ne.symm hne) hincident hready hready' hsame
      · by_cases hj : j = m.id
        · subst hj
          exact (hgathered i b' b hb' hb hne hincident.symm hready' hready hsame.symm).symm
        · exact hfaded i j b b' hb hb' hne hincident hready hready' hsame
            (rows i b hi hb hready) (rows j b' hj hb' hready')
    · unfold ClusterState.NamesOriginal
      rw [links]
      exact hc.acyclic
  | joined m row rows links original =>
    obtain ⟨sha256, hsha256⟩ : ∃ e, e = m.upload.expectedSha256 := ⟨_, rfl⟩
    rw [← hsha256] at row links original
    -- a ready row with the content of the new one was found by the lookup
    have hfound : ∀ j b b', d.uploads.db.attachments.get m.id = some b →
        d.uploads.db.attachments.get j = some b' → j ≠ m.id → b.incidentId = b'.incidentId →
        b'.metadataStatus = .ready → b.SameContent b' →
        j ∈ c.uploads.db.duplicates m.id m.attachment.incidentId sha256 (phash sha256) := by
      intro j b b' hb hb' hne hincident hready' hsame
      obtain ⟨hm, hsha, hhash⟩ := row b hb
      rw [rows j hne] at hb'
      refine mem_duplicates.mpr ⟨hne, b', hb', hincident.symm.trans hm, hready', ?_⟩
      rcases hsame with ⟨-, heq⟩ | ⟨-, heq⟩
      · exact Or.inl (heq.symm.trans hsha)
      · exact Or.inr (heq.symm.trans hhash)
    cases horiginal : c.uploads.db.oldestDuplicate m.id m.attachment.incidentId sha256 (phash sha256) with
    | none =>
      rw [horiginal] at links
      have hempty := oldest_eq_none horiginal
      have halone : ∀ j b b', d.uploads.db.attachments.get m.id = some b →
          d.uploads.db.attachments.get j = some b' → j ≠ m.id → b.incidentId = b'.incidentId →
          b'.metadataStatus = .ready → ¬ b.SameContent b' := by
        intro j b b' hb hb' hne hincident hready' hsame
        have hmem := hfound j b b' hb hb' hne hincident hready' hsame
        rw [hempty] at hmem
        exact nomatch hmem
      refine ⟨fun i j b b' hb hb' hne hincident hready hready' hsame => ?_, ?_⟩
      · by_cases hi : i = m.id
        · subst hi
          exact absurd hsame (halone j b b' hb hb' (Ne.symm hne) hincident hready')
        · by_cases hj : j = m.id
          · subst hj
            exact absurd hsame.symm (halone i b' b hb' hb hne hincident.symm hready)
          · rw [rows i hi] at hb
            rw [rows j hj] at hb'
            unfold ClusterState.SameCluster
            rw [links, assignCluster_alone c.links hi, assignCluster_alone c.links hj]
            exact hc.shared i j b b' hb hb' hne hincident hready hready' hsame
      · refine hc.acyclic.mono fun i j hnames => ?_
        unfold ClusterState.NamesOriginal at hnames ⊢
        rw [links, assignCluster_alone_names] at hnames
        exact hnames
    | some o =>
      rw [horiginal] at links
      obtain ⟨hremote, hcycle⟩ := original o horiginal
      have ho := oldest_mem horiginal
      obtain ⟨hne, ao, hao, hincidento, hreadyo, hsameo⟩ := mem_duplicates.mp ho
      have hself : (d.links m.id).sourceClusterId = some ((c.links o).sourceClusterId.getD o) := by
        rw [links, assignCluster_self c.links (Ne.symm hne)]
      have hold : (d.links o).sourceClusterId = some ((c.links o).sourceClusterId.getD o) := by
        rw [links, (assignCluster_original c.links).1]
      -- whoever is in the cluster of the oldest stays there
      have hjoins : ∀ j, j ≠ m.id → j ≠ o → c.SameCluster o j →
          (d.links j).sourceClusterId = some ((c.links o).sourceClusterId.getD o) := by
        rintro j hj hjo ⟨hsome, heq⟩
        obtain ⟨k, hk⟩ := Option.ne_none_iff_exists'.mp hsome
        rw [links, assignCluster_other c.links hj hjo, ← heq, hk]
        rfl
      have hduplicate : ∀ j, j ∈ c.uploads.db.duplicates m.id m.attachment.incidentId sha256
          (phash sha256) → j ≠ o → c.SameCluster o j := by
        intro j hj hjo
        by_cases hany : ∃ j ∈ c.uploads.db.duplicates m.id m.attachment.incidentId sha256
            (phash sha256), ∃ u, c.uploads.db.uploads.get j = some u ∧ u.storageProvider ≠ .localProxy
        · exact hremote hany j hj hjo
        · push Not at hany
          obtain ⟨-, aj, haj, hincidentj, hreadyj, hsamej⟩ := mem_duplicates.mp hj
          obtain ⟨uo, huo⟩ := Table.get_of_lt (hs.paired ▸ Table.lt_size hao)
          obtain ⟨uj, huj⟩ := Table.get_of_lt (hs.paired ▸ Table.lt_size haj)
          have hcontent := sameContent_of_duplicates (hs.rows o ao uo hao huo)
            (hs.rows j aj uj haj huj) (hany o ho uo huo) (hany j hj uj huj) hreadyo hreadyj
            hsameo hsamej
          exact hc.shared o j ao aj hao haj (Ne.symm hjo) (hincidento.trans hincidentj.symm) hreadyo
            hreadyj hcontent
      have hm : ∀ j b b', d.uploads.db.attachments.get m.id = some b →
          d.uploads.db.attachments.get j = some b' → j ≠ m.id → b.incidentId = b'.incidentId →
          b'.metadataStatus = .ready → b.SameContent b' → d.SameCluster m.id j := by
        intro j b b' hb hb' hj hincident hready' hsame
        have hmem := hfound j b b' hb hb' hj hincident hready' hsame
        refine ⟨fun hnone => (nomatch hself.symm.trans hnone), hself.trans ?_⟩
        by_cases hjo : j = o
        · rw [hjo, hold]
        · exact (hjoins j hj hjo (hduplicate j hmem hjo)).symm
      have hoj : ∀ j b b', d.uploads.db.attachments.get o = some b →
          d.uploads.db.attachments.get j = some b' → j ≠ m.id → j ≠ o →
          b.incidentId = b'.incidentId → b.metadataStatus = .ready → b'.metadataStatus = .ready →
          b.SameContent b' → d.SameCluster o j := by
        intro j b b' hb hb' hj hjo hincident hready hready' hsame
        rw [rows o hne] at hb
        rw [rows j hj] at hb'
        have hshared := hc.shared o j b b' hb hb' (Ne.symm hjo) hincident hready hready' hsame
        exact ⟨fun hnone => (nomatch hold.symm.trans hnone), hold.trans (hjoins j hj hjo hshared).symm⟩
      refine ⟨fun i j b b' hb hb' hij hincident hready hready' hsame => ?_, ?_⟩
      · by_cases hi : i = m.id
        · subst hi
          exact hm j b b' hb hb' (Ne.symm hij) hincident hready' hsame
        · by_cases hj : j = m.id
          · subst hj
            exact (hm i b' b hb' hb hij hincident.symm hready hsame.symm).symm
          · by_cases hio : i = o
            · subst hio
              exact hoj j b b' hb hb' hj (Ne.symm hij) hincident hready hready' hsame
            · by_cases hjo : j = o
              · subst hjo
                exact (hoj i b' b hb' hb hi hij hincident.symm hready' hready hsame.symm).symm
              · rw [rows i hi] at hb
                rw [rows j hj] at hb'
                unfold ClusterState.SameCluster
                rw [links, assignCluster_other c.links hi hio, assignCluster_other c.links hj hjo]
                exact hc.shared i j b b' hb hb' hij hincident hready hready' hsame
      · refine hc.acyclic.add_edge (m := m.id) (d := o) (fun i j hnames => ?_) hcycle
        unfold ClusterState.NamesOriginal at hnames
        rw [links] at hnames
        exact assignCluster_names c.links (Ne.symm hne) hnames

theorem fades_of_sameUpload {a b : Attachment} (h : a.SameUpload b) : a.Fades b := by
  have hgains := gains_of_sameUpload h
  have hsame : b.unbound = a.unbound := h
  have hdigest : b.unbound.sha256 = a.unbound.sha256 := by rw [hsame]
  exact ⟨hgains.incidentId, hgains.ready, fun _ => Or.inr hdigest, hgains.hash⟩

/-- A request that writes the declared digest to a row. -/
theorem ContentStep.of_saved {m : Media} (new : Media) (hs : c.uploads.Described settings phash)
    (hholds : c.uploads.db.Holds m)
    (htable : d.uploads.db.attachments =
      c.uploads.db.attachments.modify m.id (m.attachment.save new.attachment))
    (hsha : new.attachment.sha256 = some m.upload.expectedSha256)
    (hhash : new.attachment.perceptualHash = m.attachment.perceptualHash)
    (hstatus : new.attachment.metadataStatus = m.attachment.metadataStatus ∨
      new.attachment.metadataStatus ≠ .ready)
    (hloaded : ∀ e ∈ m.attachment.sha256, e = m.upload.expectedSha256)
    (hlate : ∀ row, m.upload.storageProvider ≠ .localProxy →
      c.uploads.db.attachments.get m.id = some row → row.metadataStatus = .ready →
      new.attachment.metadataStatus = m.attachment.metadataStatus →
      m.attachment.sha256 = none → c.Gathered m)
    (hlinks : d.links = c.links) : ContentStep phash c d := by
  obtain ⟨a, ha, hidentity⟩ := hholds.attachment
  obtain ⟨u, hu, hfixed⟩ := hholds.upload
  have hprovider : u.storageProvider = m.upload.storageProvider := congrArg (·.1) hfixed
  have hexpected : u.expectedSha256 = m.upload.expectedSha256 := congrArg (·.2.2.2.2.2) hfixed
  have hincident : a.incidentId = m.attachment.incidentId := congrArg (·.1) hidentity
  have hrow := hs.rows m.id a u ha hu
  have hnew : new.attachment.sha256 ≠ none := fun h => nomatch hsha.symm.trans h
  have hgains := gains_of_save (a := a) hnew hhash hstatus
  have hothers : ∀ i b, i ≠ m.id → d.uploads.db.attachments.get i = some b →
      ∃ a, c.uploads.db.attachments.get i = some a ∧ a.Fades b := by
    intro i b hi hb
    rw [htable, Table.get_modify_of_ne _ _ (Ne.symm hi)] at hb
    exact ⟨b, hb, .refl b⟩
  have hget : d.uploads.db.attachments.get m.id = some (m.attachment.save new.attachment a) := by
    rw [htable, Table.get_modify_self, ha]
    rfl
  by_cases hgather : m.upload.storageProvider ≠ .localProxy ∧ a.metadataStatus = .ready ∧
      new.attachment.metadataStatus = m.attachment.metadataStatus ∧ m.attachment.sha256 = none
  · obtain ⟨hremote, hready, hsame, hnone⟩ := hgather
    have hg := hlate a hremote ha hready hsame hnone
    refine .gathered m (fun b hb hbready => ?_) (fun i b hi hb _ => hothers i b hi hb) hlinks
    obtain rfl := Option.some.inj (hget.symm.trans hb)
    refine ⟨hincident, ?_, fun e he => ⟨?_, hg⟩⟩
    · rw [hgains.hash]
      cases hp : a.perceptualHash with
      | none => rfl
      | some p => exact absurd (hprovider ▸ (hrow.hash p hp).2) hremote
    · rcases mem_written he with hstored | hgiven
      · rw [hrow.digest e hstored, hexpected]
      · rw [hsha] at hgiven
        exact (Option.some.inj hgiven).symm
  · refine .faded (fun i b hb hbready => ?_) hlinks
    by_cases hi : i = m.id
    · subst hi
      obtain rfl := Option.some.inj (hget.symm.trans hb)
      refine ⟨a, ha, hgains.incidentId, hgains.ready, fun _ => Or.inr ?_, hgains.hash⟩
      have hready := hgains.ready hbready
      by_cases hnone : m.attachment.sha256 = none
      · by_cases hlocal : m.upload.storageProvider = .localProxy
        · -- a local row that is ready has the digest
          obtain ⟨e, he⟩ := Option.ne_none_iff_exists'.mp (hrow.ready (hprovider.trans hlocal) hready).1
          have hdigest : a.sha256 = new.attachment.sha256 := by
            rw [he, hsha, hrow.digest e he, hexpected]
          simp only [Attachment.save, hdigest]
          rcases written_eq_or m.attachment.sha256 new.attachment.sha256 new.attachment.sha256
            with heq | heq <;> exact heq
        · -- the status was written, so the row is not ready
          have hchanged : new.attachment.metadataStatus ≠ m.attachment.metadataStatus :=
            fun hsame => hgather ⟨hlocal, hready, hsame, hnone⟩
          have hwritten : (m.attachment.save new.attachment a).metadataStatus =
              new.attachment.metadataStatus := written_of_ne hchanged _
          exact absurd (hwritten.symm.trans hbready) (hstatus.resolve_left hchanged)
      · obtain ⟨e, he⟩ := Option.ne_none_iff_exists'.mp hnone
        have hsame : new.attachment.sha256 = m.attachment.sha256 := by
          rw [hsha, he, hloaded e he]
        simp only [Attachment.save, hsame, written_unchanged]
    · exact hothers i b hi hb

section Steps
variable {text : TextLib} {x : UploadStep} {job : Id} {m : Media} {file : QuarantinedFile}
  {remote : RemoteObject}

theorem clusterLinks_idle
    (hx : ∀ file remote, x = .execute file remote → ∀ job m,
      c.uploads.worker ≠ .executing job .attachmentProcess m) : clusterLinks c x = c.links := by
  unfold clusterLinks
  split
  · next sha256 i remote =>
    split
    · next job m hworker => exact absurd hworker (hx _ remote rfl job m)
    · rfl
  · rfl

theorem execute_attachments {task : MediaTask} (hworker : c.uploads.worker = .executing job task m) :
    (clusterStep settings text c (.execute file remote)).uploads.db.attachments =
      c.uploads.db.attachments.modify m.id
        (m.attachment.save (runTask settings task m file remote).1.attachment) := by
  simp only [clusterStep, uploadStep, hworker, MediaDb.saveMedia]

theorem held_row {task : MediaTask} (hs : c.uploads.Described settings phash)
    (hworker : c.uploads.worker = .executing job task m) :
    ∃ a u, c.uploads.db.attachments.get m.id = some a ∧ c.uploads.db.uploads.get m.id = some u ∧
      m.attachment.Gains a ∧ u.fixed = m.upload.fixed ∧
      (task = .attachmentProcess ↔ u.storageProvider = .localProxy) := by
  obtain ⟨hholds, j, hj, hpayload⟩ := hs.consistent.executing job task m hworker
  obtain ⟨a, ha, -⟩ := hholds.attachment
  obtain ⟨u, hu, hfixed⟩ := hholds.upload
  obtain ⟨v, hv, htask⟩ := hs.consistent.tasks job j hj
  rw [hpayload] at hv htask
  obtain rfl := Option.some.inj (hv.symm.trans hu)
  exact ⟨a, v, ha, hu, hs.held job task m a hworker ha, hfixed, htask⟩

/-- A processing that fails. -/
theorem content_failed {task : MediaTask} (hs : c.uploads.Described settings phash)
    (hworker : c.uploads.worker = .executing job task m)
    (hfailed : m.Failed (runTask settings task m file remote).1)
    (hlinks : clusterLinks c (.execute file remote) = c.links) :
    ContentStep phash c (clusterStep settings text c (.execute file remote)) := by
  obtain ⟨a, u, ha, -, hheld, -⟩ := held_row hs hworker
  refine .faded (fun i b hb _ => ?_) hlinks
  rw [execute_attachments hworker, Table.get_modify] at hb
  split_ifs at hb with hid
  · subst hid
    rw [ha] at hb
    obtain rfl := Option.some.inj hb
    exact ⟨a, ha, fades_of_failed hfailed hheld⟩
  · exact ⟨b, hb, .refl b⟩

theorem content_remote (hs : c.uploads.Described settings phash)
    (hworker : c.uploads.worker = .executing job .mediaProcess m)
    (hx : Gathers settings text c (.execute file remote)) :
    ContentStep phash c (clusterStep settings text c (.execute file remote)) := by
  have hlinks : clusterLinks c (.execute file remote) = c.links :=
    clusterLinks_idle fun _ _ _ job' m' h => nomatch hworker.symm.trans h
  rcases processRemoteMedia_outcome settings m file remote with
    ⟨-, hclears, hready, hhash, hsha⟩ | ⟨-, hfailed⟩
  · obtain ⟨a, u, ha, hu, hheld, hfixed, htask⟩ := held_row hs hworker
    have hremote : u.storageProvider ≠ .localProxy := fun h => nomatch htask.mpr h
    have hexpected : u.expectedSha256 = m.upload.expectedSha256 := congrArg (·.2.2.2.2.2) hfixed
    have hrow := hs.rows m.id a u ha hu
    refine .gathered m (fun b hb _ => ?_) (fun i b hi hb _ => ?_) hlinks
    · rw [execute_attachments hworker, Table.get_modify_self, ha] at hb
      obtain rfl := Option.some.inj hb
      refine ⟨hheld.incidentId, ?_, fun e he => ?_⟩
      · simp only [runTask, Attachment.save, hhash, written_unchanged]
        cases hp : a.perceptualHash with
        | none => rfl
        | some p => exact absurd (hrow.hash p hp).2 hremote
      · simp only [runTask, Attachment.save, hsha] at he
        have hgathered : m.KeepsDigest settings a → c.Gathered m :=
          hx.remote file remote job m a rfl hworker hclears ha
        by_cases hpicture : m.upload.storageProvider = .qiniuKodo ∧ m.upload.mediaType = .image
        · rw [if_pos hpicture] at he
          by_cases hsmall : m.upload.sizeBytes ≤ settings.maxImageBytes
          · rw [if_pos hsmall] at he
            refine ⟨?_, hgathered ?_⟩
            · rcases mem_written he with hstored | hnew
              · rw [hrow.digest e hstored, hexpected]
              · exact (Option.some.inj hnew).symm
            · rw [Media.KeepsDigest, if_pos hpicture]
              exact fun hlarge => absurd hsmall (not_le.mpr hlarge)
          · rw [if_neg hsmall] at he
            by_cases hnone : m.attachment.sha256 = none
            · rw [hnone, written_unchanged] at he
              refine ⟨by rw [hrow.digest e he, hexpected], hgathered ?_⟩
              rw [Media.KeepsDigest, if_pos hpicture]
              exact fun _ => ⟨hnone, fun h => absurd (h ▸ he) (Option.not_mem_none e)⟩
            · rw [written_of_ne (Ne.symm hnone)] at he
              exact absurd he (Option.not_mem_none e)
        · rw [if_neg hpicture, written_unchanged] at he
          refine ⟨by rw [hrow.digest e he, hexpected], hgathered ?_⟩
          rw [Media.KeepsDigest, if_neg hpicture]
          exact fun h => absurd (h ▸ he) (Option.not_mem_none e)
    · rw [execute_attachments hworker, Table.get_modify_of_ne _ _ (Ne.symm hi)] at hb
      exact ⟨b, hb, .refl b⟩
  · exact content_failed hs hworker hfailed hlinks

theorem content_local (hs : c.uploads.Described settings phash)
    (hworker : c.uploads.worker = .executing job .attachmentProcess m)
    (hphash : HashesContent phash (.execute file remote))
    (hx : Gathers settings text c (.execute file remote)) :
    ContentStep phash c (clusterStep settings text c (.execute file remote)) := by
  rcases processAttachment_outcome m file with
    ⟨sha256, i, rfl, hok, hcontent, hpasses, hready, hsame, hhash⟩ | ⟨herror, hfailed, -⟩
  · obtain ⟨⟨hsha, hloaded⟩, -⟩ := id hpasses
    have hclears : ClearsTask settings m (.read sha256 (.image i)) remote .attachmentProcess :=
      ⟨hcontent, hpasses, sha256, _, rfl⟩
    have hi : i.perceptualHash = phash m.upload.expectedSha256 := by
      rw [hphash sha256 i remote rfl, hsha]
    obtain ⟨a, u, ha, hu, hheld, hfixed, htask⟩ := held_row hs hworker
    have hlocal : u.storageProvider = .localProxy := htask.mp rfl
    have hexpected : u.expectedSha256 = m.upload.expectedSha256 := congrArg (·.2.2.2.2.2) hfixed
    have hrow := hs.rows m.id a u ha hu
    have horiginal := fun o => hx.locals sha256 i remote job m o rfl hworker hclears
    rw [hi, hsha] at horiginal
    refine .joined m (fun b hb => ?_) (fun j hj => ?_) ?_ horiginal
    · rw [execute_attachments hworker, Table.get_modify_self, ha] at hb
      obtain rfl := Option.some.inj hb
      refine ⟨hheld.incidentId, ?_, ?_⟩
      · obtain ⟨e, he⟩ := Option.ne_none_iff_exists'.mp
          (hheld.digest fun h => nomatch hloaded.trans h)
        simp only [runTask, Attachment.save, hsame, written_unchanged]
        rw [he, hrow.digest e he, hexpected]
      · simp only [runTask, Attachment.save, hhash, hheld.hash, written_loaded, hi]
    · rw [execute_attachments hworker, Table.get_modify_of_ne _ _ (Ne.symm hj)]
    · simp only [clusterStep, clusterLinks, hworker, hok, Option.isNone_none, if_true]
      rw [hi, hsha]
  · refine content_failed hs hworker hfailed ?_
    unfold clusterLinks
    split
    · next sha256 i remote' heq =>
      obtain ⟨rfl, -⟩ := UploadStep.execute.inj heq
      simp [hworker, Option.isSome_iff_ne_none.mp herror]
    · rfl

/-- A step in which the worker executes nothing. -/
theorem content_idle (hs : c.uploads.Described settings phash) (hx : Gathers settings text c x)
    (hidle : ∀ file remote, x = .execute file remote → ∀ job task m,
      c.uploads.worker ≠ .executing job task m) :
    ContentStep phash c (clusterStep settings text c x) := by
  have hlinks : clusterLinks c x = c.links :=
    clusterLinks_idle fun file remote h job m => hidle file remote h job .attachmentProcess m
  have hsame : (uploadStep settings text c.uploads x).db.attachments = c.uploads.db.attachments →
      ContentStep phash c (clusterStep settings text c x) := by
    intro htable
    exact .faded (fun i b hb _ => ⟨b, htable ▸ hb, .refl b⟩) hlinks
  have hstep := uploadStep_media settings text c.uploads x
  generalize ht : (uploadStep settings text c.uploads x).db = t at hstep
  cases hstep with
  | quiet _ hattachments => exact hsame (ht ▸ hattachments)
  | announced k incident device u hu hattachments =>
    refine .faded (fun i b hb hready => ?_) hlinks
    have hb' : t.attachments.get i = some b := ht ▸ hb
    rw [hattachments] at hb'
    rcases Table.get_insert_cases hb' with ⟨-, rfl⟩ | hold
    · exact nomatch hready
    · exact ⟨b, hold, .refl b⟩
  | received k m sha256 receivedAt hw hsaved =>
    have hdeclared := hs.contents k m sha256 receivedAt hw
    refine .of_saved (m.quarantined sha256 receivedAt) hs
      (hs.consistent.waiting k _ hw m rfl) ?_ (congrArg some hdeclared) rfl (Or.inl rfl)
      (hs.loaded k _ m hw rfl) (fun row hremote hrow hready _ hnone => ?_) hlinks
    · exact (congrArg (·.attachments) ht).trans (congrArg (·.attachments) hsaved)
    · exact hx.late k _ m row _ rfl hw rfl hremote hrow hready hnone rfl
  | queued k m payload hw hlocal hnone hsaved =>
    exact hsame ((congrArg (·.attachments) ht).trans (congrArg (·.attachments) hsaved))
  | completed k w m payload hw hc haccepts hattachments =>
    have hmedia := Waiting.completesRemote_media hc
    refine .of_saved (m.received c.uploads.now payload.etag) hs
      (hs.consistent.waiting k w hw m hmedia) (ht ▸ hattachments) rfl rfl (Or.inr nofun)
      (hs.loaded k w m hw hmedia) (fun row hremote hrow hready hstatus hnone => ?_) hlinks
    have hpending : m.attachment.metadataStatus = .pending := hstatus.symm
    have hwrites : w.writesDigest = some m := by
      cases w with
      | complete k given =>
        obtain rfl := Option.some.inj hmedia
        exact if_pos hpending
      | callback k key etag size =>
        obtain rfl := Option.some.inj hmedia
        exact if_pos hpending
      | imageIntent device payload => exact nomatch hc
      | mediaIntent device payload => exact nomatch hc
      | content k sha256 receivedAt => exact nomatch hc
      | createSession k device payload drawn => exact nomatch hc
      | recordPart session loaded payload => exact nomatch hc
      | renew session loaded drawn => exact nomatch hc
      | delete session loaded => exact nomatch hc
      | answered => exact nomatch hc
    obtain ⟨v, hv⟩ : ∃ v, completeRemoteUpload settings c.uploads.now c.uploads.db m payload =
        .ok v := completeRemoteUpload_of_accepts haccepts
    rcases serveRequest_completes settings text c.uploads.now c.uploads.db hc with heq | heq
    · exact hx.late k w m row v rfl hw hwrites hremote hrow hready hnone (heq.trans hv)
    · refine hx.late k w m row (finishSessions v m.id) rfl hw hwrites hremote hrow hready hnone ?_
      rw [heq, hv]
      rfl
  | claimed job j hworker hj hdue hsaved =>
    exact hsame ((congrArg (·.attachments) ht).trans (congrArg (·.attachments) hsaved))
  | executed job task m file remote hworker hsaved =>
    exact absurd hworker (hidle file remote rfl job task m)
  | finished job error hworker hsaved =>
    exact hsame ((congrArg (·.attachments) ht).trans (congrArg (·.attachments) hsaved))
  | bound _ hrows =>
    refine .faded (fun i b hb _ => ?_) hlinks
    have hb' : t.attachments.get i = some b := ht ▸ hb
    obtain ⟨a, ha, hab⟩ := hrows.left_of_some hb'
    exact ⟨a, ha, fades_of_sameUpload hab⟩

theorem clusterStep_content (hs : c.uploads.Described settings phash)
    (hphash : HashesContent phash x) (hx : Gathers settings text c x) :
    ContentStep phash c (clusterStep settings text c x) := by
  by_cases hidle : ∀ file remote, x = .execute file remote → ∀ job task m,
      c.uploads.worker ≠ .executing job task m
  · exact content_idle hs hx hidle
  · push Not at hidle
    obtain ⟨file, remote, rfl, job, task, m, hworker⟩ := hidle
    cases task with
    | attachmentProcess => exact content_local hs hworker hphash hx
    | mediaProcess => exact content_remote hs hworker hx

end Steps

theorem initial_described (settings : MediaSettings) (phash : String → String) (now : Time) :
    (UploadState.initial now).Described settings phash where
  consistent := initial_consistent settings now
  paired := rfl
  rows := fun _ _ _ h => nomatch h
  contents := fun _ _ _ _ h => nomatch h
  loaded := fun _ _ _ h => nomatch h
  held := fun _ _ _ _ h => nomatch h

theorem initial_clustered (now : Time) : (ClusterState.initial now).Clustered where
  shared := fun _ _ _ _ h => nomatch h
  acyclic := by
    intro i h
    cases h with
    | single hnames => exact nomatch hnames
    | tail _ hnames => exact nomatch hnames

/-- Along a run ready attachments with the same content are in one cluster and no attachment
duplicates itself, when the attachments that become ready are with their duplicates. -/
theorem ready_duplicates_share_clusters (settings : MediaSettings) (text : TextLib)
    (phash : String → String) (now : Time) (steps : List UploadStep)
    (h : Along (clusterStep settings text)
      (fun c x => Gathers settings text c x ∧ HashesContent phash x) (.initial now) steps) :
    (run (clusterStep settings text) (.initial now) steps).Clustered :=
  (run_invariant (clusterStep settings text)
    (I := fun c => c.uploads.Described settings phash ∧ c.Clustered)
    (fun _ _ hc hx => ⟨uploadStep_described text hc.1 hx.2,
      (clusterStep_content hc.1 hx.2 hx.1).clustered hc.1 hc.2⟩)
    ⟨initial_described settings phash now, initial_clustered now⟩ h).2

theorem gathers_of_unready {settings : MediaSettings} {text : TextLib} {c : ClusterState}
    (h : c.uploads.db.attachments.select (·.metadataStatus = .ready) = []) (x : UploadStep) :
    Gathers settings text c x := by
  have hunready : ∀ i a, c.uploads.db.attachments.get i = some a → a.metadataStatus ≠ .ready := by
    intro i a ha hready
    have hmem : i ∈ c.uploads.db.attachments.select (·.metadataStatus = .ready) :=
      Table.mem_select.mpr ⟨a, ha, decide_eq_true hready⟩
    rw [h] at hmem
    exact absurd hmem List.not_mem_nil
  constructor
  · intro file remote job m row _ _ _ _ _ j b hb _ _ hready
    exact absurd hready (hunready j b hb)
  · intro i w m row t _ _ _ _ hrow hready
    exact absurd hready (hunready m.id row hrow)
  · intro sha256 i remote job m original _ _ _ horiginal
    obtain ⟨-, a, ha, -, hready, -⟩ := mem_duplicates.mp (oldest_mem horiginal)
    exact absurd hready (hunready original a ha)

theorem gathers_of_other {settings : MediaSettings} {text : TextLib} {c : ClusterState}
    {x : UploadStep} (hexecute : ∀ file remote, x ≠ .execute file remote)
    (hserve : ∀ i, x ≠ .serve i) : Gathers settings text c x where
  remote := fun file remote _ _ _ hx => absurd hx (hexecute file remote)
  late := fun i _ _ _ _ hx => absurd hx (hserve i)
  locals := fun _ _ remote _ _ _ hx => absurd hx (hexecute _ remote)

theorem gathers_of_one_duplicate {settings : MediaSettings} {text : TextLib} {c : ClusterState}
    {file : QuarantinedFile} {remote : RemoteObject} {job : Id} {m : Media} {o : Id}
    (hworker : c.uploads.worker = .executing job .attachmentProcess m)
    (hone : ∀ sha256 i, file = .read sha256 (.image i) →
      c.uploads.db.duplicates m.id m.attachment.incidentId sha256 i.perceptualHash = [o])
    (ho : (c.links o).duplicateOf = none) (hne : o ≠ m.id) :
    Gathers settings text c (.execute file remote) where
  remote := fun _ _ _ _ _ _ h => absurd (hworker.symm.trans h) nofun
  late := fun _ _ _ _ _ h => nomatch h
  locals := by
    intro sha256 i remote' job' m' original hx hworker' _ horiginal
    obtain ⟨rfl, -⟩ := UploadStep.execute.inj hx
    obtain ⟨-, -, rfl⟩ := MediaWorker.executing.inj (hworker.symm.trans hworker')
    have hduplicates := hone sha256 i rfl
    have hmem := oldest_mem horiginal
    rw [hduplicates] at hmem ⊢
    obtain rfl := List.mem_singleton.mp hmem
    constructor
    · intro _ j hj hother
      exact absurd (List.mem_singleton.mp hj) hother
    · intro hpath
      rcases hpath.cases_head with heq | ⟨k, hnames, -⟩
      · exact hne heq
      · exact nomatch ho.symm.trans hnames

namespace Sample

def cleanPicture : UploadStep := .execute (.read "h" (.image sanitizedPicture)) storedObject

/-- Two equal pictures are stored and the first is processed. -/
def firstPicture : List UploadStep :=
  [send (.imageIntent picture), .serve 0, send (.content 0 "image/png" 10 "h"), .serve 1,
    send (.complete 0 .none), .serve 2, send (.imageIntent picture), .serve 3,
    send (.content 1 "image/png" 10 "h"), .serve 4, send (.complete 1 .none), .serve 5,
    .claim, .load, cleanPicture]

def secondPicture : List UploadStep := [.finish, .claim, .load]

/-- Two equal clips are processed. -/
def twoClips : List UploadStep :=
  [send (.mediaIntent clip), .serve 0, send (.mediaIntent clip), .serve 1,
    send (.complete 0 .none), .serve 2, send (.complete 1 .none), .serve 3,
    .claim, .load, .execute .missing storedObject, .finish,
    .claim, .load, .execute .missing storedObject]

def clusters (steps : List UploadStep) : ClusterState :=
  run (clusterStep media text) (.initial 0) steps

/-- The worker processes the second picture, which is like the first. -/
def processesSecond (c : ClusterState) : Bool :=
  match c.uploads.worker with
  | .executing _ task m => decide (task = .attachmentProcess) && decide (m.id = 1) &&
      decide (c.uploads.db.duplicates m.id m.attachment.incidentId "h" "p" = [0])
  | _ => false

/-- Both clips are ready and alike. -/
def readyAlike (c : ClusterState) : Bool :=
  match c.uploads.db.attachments.get 0, c.uploads.db.attachments.get 1 with
  | some a, some b => decide (a.incidentId = b.incidentId) && decide (a.metadataStatus = .ready) &&
      decide (b.metadataStatus = .ready) && decide (a.SameContent b)
  | _, _ => false

end Sample

/-- The second picture joins the cluster of the first. -/
theorem equal_pictures_share_cluster :
    (Sample.clusters (Sample.firstPicture ++ Sample.secondPicture ++
      [Sample.cleanPicture])).Clustered := by
  apply ready_duplicates_share_clusters Sample.media Sample.text (fun _ => "p")
  apply (along_and _).mpr
  constructor
  · apply (along_append _).mpr
    constructor
    · apply (along_append _).mpr
      constructor
      · apply Along.mono (C := fun c _ =>
          c.uploads.db.attachments.select (·.metadataStatus = .ready) = [])
        · decide +kernel
        · exact fun _ x h => gathers_of_unready h x
      · apply along_of_forall
        intro x hx c
        apply gathers_of_other
        · rintro file remote rfl
          simp [Sample.secondPicture] at hx
        · rintro i rfl
          simp [Sample.secondPicture] at hx
    · obtain ⟨c, hc⟩ : ∃ c, c = run (clusterStep Sample.media Sample.text) (.initial 0)
          (Sample.firstPicture ++ Sample.secondPicture) := ⟨_, rfl⟩
      have hloaded : Sample.processesSecond c = true := by
        rw [hc]
        decide +kernel
      have hfirst : (c.links 0).duplicateOf = none := by
        rw [hc]
        decide +kernel
      refine ⟨?_, trivial⟩
      rw [← hc]
      unfold Sample.processesSecond at hloaded
      split at hloaded
      · next job task m hworker =>
        simp only [Bool.and_eq_true, decide_eq_true_eq] at hloaded
        obtain ⟨⟨rfl, hid⟩, hone⟩ := hloaded
        apply gathers_of_one_duplicate (o := 0) hworker
        · intro sha256 i hfile
          obtain ⟨rfl, hi⟩ := QuarantinedFile.read.inj hfile
          obtain rfl := Sanitized.image.inj hi
          exact hone
        · exact hfirst
        · rw [hid]
          decide
      · exact absurd hloaded Bool.false_ne_true
  · apply along_of_forall
    intro x hx c sha256 i remote hread
    subst hread
    simp [Sample.firstPicture, Sample.secondPicture, Sample.send, Sample.cleanPicture] at hx
    rw [hx.1.2]
    rfl

/-- Remote attachments with the same digest are ready and in no cluster. -/
theorem equal_clips_share_no_cluster :
    ¬ (Sample.clusters Sample.twoClips).Clustered := by
  intro h
  have hclips : Sample.readyAlike (Sample.clusters Sample.twoClips) = true := by
    decide +kernel
  unfold Sample.readyAlike at hclips
  split at hclips
  · next a b ha hb =>
    simp only [Bool.and_eq_true, decide_eq_true_eq] at hclips
    obtain ⟨⟨⟨hincident, ha'⟩, hb'⟩, hsame⟩ := hclips
    exact (h.shared 0 1 a b ha hb (by decide) hincident ha' hb' hsame).1 (by decide +kernel)
  · exact absurd hclips Bool.false_ne_true

end Clusters
end CrisisMosaic
