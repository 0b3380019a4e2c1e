import CrisisMosaic.QuarantinedContent
import CrisisMosaic.Storage.Files

/-!
# The two streaming loops

`stream_upload_to_quarantine` reads an upload until a read is empty,
`stream_request_to_quarantine` takes the chunks of a request as they come. Both count and
hash while they write and stop at the first chunk that is too much. Whatever the chunks,
they find what the check of the whole body finds.
-/

namespace CrisisMosaic
open Relational Storage

/-- What the functions change: the files and the attachment. -/
structure Quarantine where
  files : FileSystem String UInt8
  attachment : Media

section Streaming
variable (settings : MediaSettings) (sha256 : Digest UInt8 String)

/-- The local variables of the loops. -/
structure Incoming where
  files : FileSystem String UInt8
  output : Handle UInt8
  digest : sha256.State
  total : ℕ

/-- The body of both loops; when it raises, the file is closed and removed. -/
def takeChunk (m : Media) (st : Incoming sha256) (chunk : List UInt8) :
    Except (FileSystem String UInt8 × ApiError) (Incoming sha256) :=
  let total := st.total + chunk.length
  if settings.maxImageBytes < total ∨ m.upload.sizeBytes < total then
    .error ((st.files.close st.output).unlink m.quarantinePath,
      ⟨413, "IMAGE_TOO_LARGE", "上传内容超过声明或服务端大小限制", []⟩)
  else
    .ok { st with
      output := { st.output with buffer := st.output.buffer ++ chunk }
      digest := sha256.update st.digest chunk
      total := total }

/-- The reads of an upload; the first empty one is the last. -/
def readUpload (m : Media) (st : Incoming sha256) :
    List (List UInt8) → Except (FileSystem String UInt8 × ApiError) (Incoming sha256)
  | [] => .ok st
  | chunk :: chunks =>
    if chunk = [] then .ok st
    else
      match takeChunk settings sha256 m st chunk with
      | .error e => .error e
      | .ok st => readUpload m st chunks

/-- The chunks of a request; empty ones are skipped. -/
def readRequest (m : Media) (st : Incoming sha256) :
    List (List UInt8) → Except (FileSystem String UInt8 × ApiError) (Incoming sha256)
  | [] => .ok st
  | chunk :: chunks =>
    if chunk = [] then readRequest m st chunks
    else
      match takeChunk settings sha256 m st chunk with
      | .error e => .error e
      | .ok st => readRequest m st chunks

variable (now receivedAt : Time)

/-- What follows the loop: the file is closed and the whole is checked. -/
def finishStream (q : Quarantine) (st : Incoming sha256) : Quarantine × Result Unit :=
  let files := st.files.close st.output
  let size := q.attachment.upload.sizeBytes
  let expected := q.attachment.upload.expectedSha256
  let actual := sha256.digest st.digest
  if st.total ≠ size then
    ({ q with files := files.unlink q.attachment.quarantinePath },
      .error ⟨422, "UPLOAD_SIZE_MISMATCH", "上传内容大小与声明不一致",
        [("declared", .nat size), ("actual", .nat st.total)]⟩)
  else if actual ≠ expected then
    ({ q with files := files.unlink q.attachment.quarantinePath },
      .error ⟨422, "UPLOAD_HASH_MISMATCH", "上传内容哈希与声明不一致",
        [("expected", .str expected), ("actual", .str actual)]⟩)
  else (⟨files, q.attachment.quarantined actual receivedAt⟩, .ok ())

def streamToQuarantine
    (read : Media → Incoming sha256 → Except (FileSystem String UInt8 × ApiError) (Incoming sha256))
    (q : Quarantine) : Quarantine × Result Unit :=
  if q.attachment.upload.uploadExpiresAt < now then
    (q, .error ⟨410, "UPLOAD_INTENT_EXPIRED", "上传意图已过期", []⟩)
  else
    let (files, output) := q.files.openWrite q.attachment.quarantinePath
    match read q.attachment ⟨files, output, sha256.init, 0⟩ with
    | .error (files, e) => ({ q with files := files }, .error e)
    | .ok st => finishStream sha256 receivedAt q st

def streamUploadToQuarantine (q : Quarantine) (reads : List (List UInt8)) : Quarantine × Result Unit :=
  streamToQuarantine sha256 now receivedAt (fun m st => readUpload settings sha256 m st reads) q

def streamRequestToQuarantine (q : Quarantine) (chunks : List (List UInt8)) :
    Quarantine × Result Unit :=
  streamToQuarantine sha256 now receivedAt (fun m st => readRequest settings sha256 m st chunks) q

end Streaming

section Loops
variable {settings : MediaSettings} {sha256 : Digest UInt8 String} {m : Media}

/-- Without empty chunks the loops are the same. -/
theorem readUpload_eq_readRequest (st : Incoming sha256) {chunks : List (List UInt8)}
    (hne : ∀ chunk ∈ chunks, chunk ≠ []) :
    readUpload settings sha256 m st chunks = readRequest settings sha256 m st chunks := by
  induction chunks generalizing st with
  | nil => rfl
  | cons chunk chunks ih =>
    have hchunk := hne chunk List.mem_cons_self
    rw [readUpload, readRequest, if_neg hchunk, if_neg hchunk]
    cases takeChunk settings sha256 m st chunk with
    | error e => rfl
    | ok st => exact ih st fun c hc => hne c (List.mem_cons_of_mem _ hc)

/-- The state of the loop after the bytes. -/
def Incoming.after (st : Incoming sha256) (bytes : List UInt8) : Incoming sha256 :=
  { st with
    output := { st.output with buffer := st.output.buffer ++ bytes }
    digest := sha256.update st.digest bytes
    total := st.total + bytes.length }

theorem Incoming.after_nil (st : Incoming sha256) : st.after [] = st := by
  simp only [after, List.append_nil, sha256.update_nil, List.length_nil, Nat.add_zero]

theorem Incoming.after_append (st : Incoming sha256) (xs ys : List UInt8) :
    (st.after xs).after ys = st.after (xs ++ ys) := by
  simp only [after, List.append_assoc, sha256.update_append, List.length_append, Nat.add_assoc]

/-- The total that the loop may reach. -/
def streamLimit (settings : MediaSettings) (m : Media) : ℕ := min settings.maxImageBytes m.upload.sizeBytes

theorem takeChunk_ok {st : Incoming sha256} {chunk : List UInt8}
    (h : st.total + chunk.length ≤ streamLimit settings m) :
    takeChunk settings sha256 m st chunk = .ok (st.after chunk) := by
  unfold takeChunk streamLimit at *
  rw [if_neg (by omega)]
  rfl

theorem takeChunk_error {st : Incoming sha256} {chunk : List UInt8}
    (h : streamLimit settings m < st.total + chunk.length) :
    takeChunk settings sha256 m st chunk = .error ((st.files.close st.output).unlink m.quarantinePath,
      ⟨413, "IMAGE_TOO_LARGE", "上传内容超过声明或服务端大小限制", []⟩) := by
  unfold takeChunk streamLimit at *
  rw [if_pos (by omega)]

/-- A body within the limit goes through whatever its chunks. -/
theorem readRequest_ok {st : Incoming sha256} {chunks : List (List UInt8)}
    (h : st.total + chunks.flatten.length ≤ streamLimit settings m) :
    readRequest settings sha256 m st chunks = .ok (st.after chunks.flatten) := by
  induction chunks generalizing st with
  | nil => rw [readRequest, List.flatten_nil, Incoming.after_nil]
  | cons chunk chunks ih =>
    rw [List.flatten_cons, List.length_append] at h
    rw [readRequest, List.flatten_cons]
    split_ifs with hempty
    · subst hempty
      exact ih (by simpa using h)
    · rw [takeChunk_ok (by omega)]
      dsimp only
      rw [ih (by simp only [Incoming.after]; omega), Incoming.after_append]

/-- A body over the limit is refused at some chunk, and its file is removed. -/
theorem readRequest_error (st : Incoming sha256) {chunks : List (List UInt8)}
    (hst : st.total ≤ streamLimit settings m)
    (h : streamLimit settings m < st.total + chunks.flatten.length) :
    ∃ files, readRequest settings sha256 m st chunks = .error (files,
        ⟨413, "IMAGE_TOO_LARGE", "上传内容超过声明或服务端大小限制", []⟩) ∧
      files.read m.quarantinePath = none := by
  induction chunks generalizing st with
  | nil =>
    rw [List.flatten_nil, List.length_nil] at h
    omega
  | cons chunk chunks ih =>
    rw [List.flatten_cons, List.length_append] at h
    rw [readRequest]
    split_ifs with hempty
    · subst hempty
      exact ih st hst (by simpa using h)
    · by_cases hover : streamLimit settings m < st.total + chunk.length
      · rw [takeChunk_error hover]
        exact ⟨_, rfl, FileSystem.unlink_read _ _⟩
      · rw [takeChunk_ok (by omega)]
        exact ih _ (by simp only [Incoming.after]; omega) (by simp only [Incoming.after]; omega)

end Loops

/-- The body is what was declared, and not too long for the service. -/
def Media.Declares (settings : MediaSettings) (sha256 : Digest UInt8 String) (m : Media)
    (bytes : List UInt8) : Prop :=
  bytes.length = m.upload.sizeBytes ∧ bytes.length ≤ settings.maxImageBytes ∧
    sha256.of bytes = m.upload.expectedSha256

section Verdict
variable {settings : MediaSettings} {sha256 : Digest UInt8 String} {now receivedAt : Time}

theorem checkContent_ok_iff {m : Media} {bytes : List UInt8} (hlive : now ≤ m.upload.uploadExpiresAt) :
    checkContent settings now m bytes.length (sha256.of bytes) = .ok () ↔
      m.Declares settings sha256 bytes := by
  simp only [checkContent, bind_ok, require_ok, exists_const, Media.Declares]
  constructor
  · rintro ⟨-, ⟨hmax, -⟩, hsize, hhash⟩
    exact ⟨hsize, hmax, hhash⟩
  · rintro ⟨hsize, hmax, hhash⟩
    exact ⟨hlive, ⟨hmax, hsize.le⟩, hsize, hhash⟩

/-- What a stream leaves: the file and the attachment with its content, or neither. -/
structure Streamed (settings : MediaSettings) (sha256 : Digest UInt8 String) (now receivedAt : Time)
    (q : Quarantine) (bytes : List UInt8) (out : Quarantine × Result Unit) : Prop where
  verdict : out.2 = checkContent settings now q.attachment bytes.length (sha256.of bytes)
  accepted : q.attachment.Declares settings sha256 bytes →
    out.1.files.read q.attachment.quarantinePath = some bytes ∧
      out.1.attachment = q.attachment.quarantined (sha256.of bytes) receivedAt
  rejected : ¬ q.attachment.Declares settings sha256 bytes →
    out.1.files.read q.attachment.quarantinePath = none ∧ out.1.attachment = q.attachment

theorem finishStream_streamed {q : Quarantine} {bytes : List UInt8}
    (hlive : now ≤ q.attachment.upload.uploadExpiresAt)
    (hlimit : bytes.length ≤ streamLimit settings q.attachment) {st : Incoming sha256}
    (hdigest : st.digest = sha256.update sha256.init bytes) (htotal : st.total = bytes.length)
    (hclosed : (st.files.close st.output).read q.attachment.quarantinePath = some bytes) :
    Streamed settings sha256 now receivedAt q bytes (finishStream sha256 receivedAt q st) := by
  have hhash : sha256.digest st.digest = sha256.of bytes := congrArg sha256.digest hdigest
  have hmax : bytes.length ≤ settings.maxImageBytes := hlimit.trans (min_le_left _ _)
  have hsize : bytes.length ≤ q.attachment.upload.sizeBytes := hlimit.trans (min_le_right _ _)
  unfold finishStream
  simp only [hhash, htotal]
  split_ifs with hlength hother
  · refine ⟨?_, fun h => absurd h.1 hlength, fun _ => ⟨FileSystem.unlink_read _ _, rfl⟩⟩
    simp only [checkContent, require, hlive, hmax, hsize, hlength, and_self, if_true, if_false]
    rfl
  · refine ⟨?_, fun h => absurd h.2.2 hother, fun _ => ⟨FileSystem.unlink_read _ _, rfl⟩⟩
    rw [not_not] at hlength
    rw [hlength] at hmax
    simp only [checkContent, require, hlive, hmax, hlength, hother, le_refl, and_self, if_true, if_false]
    rfl
  · rw [not_not] at hlength hother
    have hdeclares : q.attachment.Declares settings sha256 bytes := ⟨hlength, hmax, hother⟩
    refine ⟨?_, fun _ => ⟨hclosed, rfl⟩, fun h => absurd hdeclares h⟩
    exact ((checkContent_ok_iff hlive).mpr hdeclares).symm

theorem streamRequest_streamed (settings : MediaSettings) (sha256 : Digest UInt8 String)
    (receivedAt : Time) (q : Quarantine) (chunks : List (List UInt8))
    (hlive : now ≤ q.attachment.upload.uploadExpiresAt) :
    Streamed settings sha256 now receivedAt q chunks.flatten
      (streamRequestToQuarantine settings sha256 now receivedAt q chunks) := by
  unfold streamRequestToQuarantine streamToQuarantine
  rw [if_neg (not_lt.mpr hlive)]
  dsimp only
  obtain ⟨opened, hopened⟩ : ∃ st : Incoming sha256, st =
      ⟨(q.files.openWrite q.attachment.quarantinePath).1,
        (q.files.openWrite q.attachment.quarantinePath).2, sha256.init, 0⟩ := ⟨_, rfl⟩
  rw [← hopened]
  by_cases hlimit : chunks.flatten.length ≤ streamLimit settings q.attachment
  · rw [readRequest_ok (by rw [hopened, Nat.zero_add]; exact hlimit)]
    apply finishStream_streamed hlive hlimit
    · rw [hopened, Incoming.after]
    · rw [hopened, Incoming.after, Nat.zero_add]
    · have hread := q.files.openWrite_close_read q.attachment.quarantinePath chunks.flatten
      rw [hopened, Incoming.after, FileSystem.openWrite_buffer, List.nil_append]
      exact hread
  · have hover : streamLimit settings q.attachment < opened.total + chunks.flatten.length := by
      rw [hopened, Nat.zero_add]
      exact not_le.mp hlimit
    obtain ⟨files, hread, hgone⟩ := readRequest_error opened (by rw [hopened]; exact Nat.zero_le _) hover
    rw [hread]
    refine ⟨?_, fun h => absurd ?_ hlimit, fun _ => ⟨hgone, rfl⟩⟩
    · have hover : ¬ (chunks.flatten.length ≤ settings.maxImageBytes ∧
          chunks.flatten.length ≤ q.attachment.upload.sizeBytes) := fun h => hlimit (le_min h.1 h.2)
      simp only [checkContent, require, hlive, hover, if_true, if_false]
      rfl
    · exact le_min h.2.1 h.1.le

end Verdict

/-- Both functions accept exactly the bodies that are what was declared, however they are cut
into chunks; otherwise no file is left and the attachment is as before. -/
theorem streams_accept_declared (settings : MediaSettings) (sha256 : Digest UInt8 String)
    (now receivedAt : Time) (q : Quarantine) (chunks : List (List UInt8))
    (hlive : now ≤ q.attachment.upload.uploadExpiresAt) (hne : ∀ chunk ∈ chunks, chunk ≠ []) :
    ((streamUploadToQuarantine settings sha256 now receivedAt q chunks).2 = .ok () ↔
      q.attachment.Declares settings sha256 chunks.flatten) ∧
    ((streamRequestToQuarantine settings sha256 now receivedAt q chunks).2 = .ok () ↔
      q.attachment.Declares settings sha256 chunks.flatten) ∧
    Streamed settings sha256 now receivedAt q chunks.flatten
      (streamUploadToQuarantine settings sha256 now receivedAt q chunks) ∧
    Streamed settings sha256 now receivedAt q chunks.flatten
      (streamRequestToQuarantine settings sha256 now receivedAt q chunks) := by
  have hstreamed := streamRequest_streamed settings sha256 receivedAt q chunks hlive
  have heq : streamUploadToQuarantine settings sha256 now receivedAt q chunks =
      streamRequestToQuarantine settings sha256 now receivedAt q chunks := by
    simp only [streamUploadToQuarantine, streamRequestToQuarantine, streamToQuarantine,
      readUpload_eq_readRequest _ hne]
  have hverdict : (streamRequestToQuarantine settings sha256 now receivedAt q chunks).2 = .ok () ↔
      q.attachment.Declares settings sha256 chunks.flatten := by
    rw [hstreamed.verdict]
    exact checkContent_ok_iff hlive
  rw [heq]
  exact ⟨hverdict, hverdict, hstreamed, hstreamed⟩

namespace Sample

def quarantine : Quarantine := ⟨.empty, photo⟩

/-- The photo sent in two chunks. -/
def sendPhoto (first second : UInt8) : Quarantine × Result Unit :=
  streamUploadToQuarantine media (.remembering sha256) 0 0 quarantine [[first], [second]]

end Sample

theorem photo_streams_in_two_chunks :
    (Sample.sendPhoto 104 105).2 = .ok () ∧ (Sample.sendPhoto 104 111).2 ≠ .ok () ∧
      (Sample.sendPhoto 104 111).1.files.read Sample.photo.quarantinePath = none := by
  have hgood := streams_accept_declared Sample.media (.remembering Sample.sha256) 0 0
    Sample.quarantine [[104], [105]] (by decide) (by decide)
  have hbad := streams_accept_declared Sample.media (.remembering Sample.sha256) 0 0
    Sample.quarantine [[104], [111]] (by decide) (by decide)
  have hother : ¬ Sample.photo.Declares Sample.media (.remembering Sample.sha256) [104, 111] :=
    fun h => absurd h.2.2 (by decide +kernel)
  exact ⟨hgood.1.mpr ⟨rfl, by decide, by decide +kernel⟩, fun h => hother (hbad.1.mp h),
    (hbad.2.2.1.rejected hother).1⟩

end CrisisMosaic
