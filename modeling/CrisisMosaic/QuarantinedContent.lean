import CrisisMosaic.ContentUploads
import CrisisMosaic.UploadCoverage

/-!
# The quarantine file of an uploaded attachment

A request that opens the file truncates it, and one whose body is refused removes it,
whoever else is writing to it or has committed it. Requests with one and the same body
that matches the declaration do no harm to each other.
-/

namespace CrisisMosaic
open Relational Storage

namespace ContentRequest
variable (settings : MediaSettings) (sha256 : List UInt8 → String)

/-- The body arrives whole and passes every check. -/
def Matches (r : ContentRequest) : Prop :=
  r.body.dropped = false ∧ r.body.bytes.length ≤ settings.maxImageBytes ∧
    r.body.bytes.length = r.loaded.upload.sizeBytes ∧
      sha256 r.body.bytes = r.loaded.upload.expectedSha256

/-- Neither body matches, or both do and are the same. -/
def Agrees (q r : ContentRequest) : Prop :=
  (q.Matches settings sha256 ↔ r.Matches settings sha256) ∧
    (r.Matches settings sha256 → q.body.bytes = r.body.bytes)

instance (r : ContentRequest) : Decidable (r.Matches settings sha256) :=
  inferInstanceAs (Decidable (_ ∧ _))

instance (q r : ContentRequest) : Decidable (q.Agrees settings sha256 r) :=
  inferInstanceAs (Decidable (_ ∧ _))

def opens (now : Time) (r : ContentRequest) : Bool :=
  match r.stage with
  | .checked => now ≤ r.loaded.upload.uploadExpiresAt
  | _ => false

end ContentRequest

namespace ContentState
variable (settings : MediaSettings) (sha256 : List UInt8 → String)

/-- Whenever the file is opened, the body agrees with that of every request which is still
in flight or has committed. -/
def Compatible (s : ContentState) : PutStep → Prop
  | .openFile i => ∀ r ∈ s.requests.get i, r.opens s.now = true →
      s.requests.All fun _ q => q.stage.present = true → q.Agrees settings sha256 r
  | _ => True

instance (s : ContentState) (x : PutStep) : Decidable (s.Compatible settings sha256 x) :=
  match x with
  | .openFile i => inferInstanceAs (Decidable (∀ r ∈ s.requests.get i, _ → _))
  | .tick _ | .arrive .. | .receive _ | .flush .. | .verify _ | .unlink _ | .commit .. => .isTrue trivial

/-- Once the upload is committed and no request is in progress, the quarantine file is there
and hashes to the digest of the row. -/
def Intact (s : ContentState) : Prop :=
  s.media.upload.uploadedAt ≠ none → (s.requests.All fun _ r => r.stage.ended = true) →
    ∃ content, s.files.read s.media.quarantinePath = some content ∧
      s.media.attachment.sha256 = some (sha256 content)

end ContentState

/-! ## What one request does -/

theorem ContentStage.output_of_not_present {stage : ContentStage} (h : stage.present = false) :
    stage.output = none := by
  cases stage
  case receiving => cases h
  all_goals rfl

namespace ContentRequest
variable {settings : MediaSettings} {sha256 : List UInt8 → String} {now : Time}
  {files : FileSystem String UInt8} {r q : ContentRequest}

theorem Agrees.symm (h : q.Agrees settings sha256 r) : r.Agrees settings sha256 q :=
  ⟨h.1.symm, fun hq => (h.2 (h.1.mp hq)).symm⟩

variable (settings sha256) in
/-- What the stage says about the body. -/
def Sound (r : ContentRequest) : Prop :=
  match r.stage with
  | .receiving output remaining received =>
    r.body.bytes = received ++ remaining.flatten ∧
      (∃ sent, received = sent ++ output.buffer ∧ sent.length = output.offset) ∧
        received.length ≤ settings.maxImageBytes
  | .rejected _ => ¬ r.Matches settings sha256
  | .verified new => r.Matches settings sha256 ∧
      ∃ receivedAt, new = r.loaded.quarantined r.loaded.upload.expectedSha256 receivedAt
  | .committed => r.Matches settings sha256
  | _ => True

variable (settings sha256) in
/-- What an opened request may do to its stage and to the file. -/
structure Advances (files : FileSystem String UInt8) (r : ContentRequest)
    (result : FileSystem String UInt8 × ContentStage) : Prop where
  sound : Sound settings sha256 { r with stage := result.2 }
  present : result.2.present = true → r.stage.present = true
  committed : r.stage = .committed → result.2 = .committed
  idle : r.stage.present = false → result.1 = files
  filling : ∀ {writers : Id → Option (Handle UInt8)} {k : Id}, r.Matches settings sha256 →
    writers k = r.stage.output →
    files.Filling r.loaded.quarantinePath r.body.bytes writers →
    result.1.Filling r.loaded.quarantinePath r.body.bytes (Function.update writers k result.2.output)

theorem Advances.refl (h : r.Sound settings sha256) : r.Advances settings sha256 files (files, r.stage) where
  sound := h
  present := id
  committed := id
  idle _ := rfl
  filling _ hk hf := by
    rw [← hk, Function.update_eq_self]
    exact hf

theorem receive_advances (h : r.Sound settings sha256) :
    r.Advances settings sha256 files (r.receive settings files) := by
  obtain ⟨loaded, body, stage⟩ := r
  unfold receive
  dsimp only
  split
  · rename_i output chunk remaining received
    obtain ⟨hbytes, ⟨sent, hreceived, hsent⟩, hmax⟩ := h
    dsimp only at hbytes
    split_ifs with hchunk hlarge
    · -- an empty chunk is skipped
      subst hchunk
      refine ⟨⟨by simpa using hbytes, ⟨sent, hreceived, hsent⟩, hmax⟩, id, nofun, nofun, ?_⟩
      intro writers k _ hk hf
      have hsame : Function.update writers k (some output) = writers := by
        rw [← show writers k = some output from hk, Function.update_eq_self]
      simpa [ContentStage.output, hsame] using hf
    · -- a body that is longer than the limits does not match
      have hnot : ¬ Matches settings sha256 ⟨loaded, body, .receiving output (chunk :: remaining) received⟩ := by
        rintro ⟨-, hmatch, hsize, -⟩
        simp only [hbytes, List.flatten_cons, List.length_append] at hmatch hsize hlarge
        omega
      exact ⟨hnot, fun _ => rfl, nofun, nofun, fun hm => absurd hm hnot⟩
    · have hlength : (received ++ chunk).length ≤ settings.maxImageBytes := by omega
      refine ⟨⟨by simpa using hbytes, ⟨sent, ?_, hsent⟩, hlength⟩, id, nofun, nofun, ?_⟩
      · rw [hreceived, List.append_assoc]
      · intro writers k _ hk hf
        exact hf.buffered hk rfl rfl
  · exact Advances.refl h

theorem flush_advances (h : r.Sound settings sha256) (count : ℕ) :
    r.Advances settings sha256 files (r.flush files count) := by
  obtain ⟨loaded, body, stage⟩ := r
  unfold flush
  dsimp only
  split
  · rename_i output remaining received
    obtain ⟨hbytes, ⟨sent, hreceived, hsent⟩, hmax⟩ := h
    refine ⟨⟨hbytes, ⟨sent ++ output.buffer.take count, ?_, ?_⟩, hmax⟩, id, nofun, nofun, ?_⟩
    · show received = sent ++ output.buffer.take count ++ output.buffer.drop count
      rw [List.append_assoc, List.take_append_drop, hreceived]
    · rw [List.length_append, hsent]
      rfl
    · intro writers k _ hk hf
      exact hf.flushed hk hsent (by rw [← hreceived, ← hbytes]) count
  · exact Advances.refl h

theorem checkReceived_ok {received : List UInt8} {new : Media}
    (h : r.checkReceived sha256 now received = .ok new) :
    received.length = r.loaded.upload.sizeBytes ∧ sha256 received = r.loaded.upload.expectedSha256 ∧
      new = r.loaded.quarantined (sha256 received) now := by
  simp only [checkReceived, bind_ok, require_ok, pure_ok] at h
  obtain ⟨_, hsize, _, hhash, rfl⟩ := h
  exact ⟨hsize, hhash, rfl⟩

theorem checkReceived_error {received : List UInt8} {e : ApiError}
    (h : r.checkReceived sha256 now received = .error e) :
    ¬ (received.length = r.loaded.upload.sizeBytes ∧
      sha256 received = r.loaded.upload.expectedSha256) := by
  rintro ⟨hsize, hhash⟩
  have hok : r.checkReceived sha256 now received = .ok (r.loaded.quarantined (sha256 received) now) := by
    simp only [checkReceived, bind_ok, require_ok, pure_ok]
    exact ⟨(), hsize, (), hhash, trivial⟩
  rw [hok] at h
  cases h

theorem verify_advances (h : r.Sound settings sha256) :
    r.Advances settings sha256 files (r.verify sha256 now files) := by
  obtain ⟨loaded, body, stage⟩ := r
  unfold verify
  dsimp only
  split
  · rename_i output received
    obtain ⟨hbytes, ⟨sent, hreceived, hsent⟩, hmax⟩ := h
    rw [List.flatten_nil, List.append_nil] at hbytes
    dsimp only at hbytes
    have hclosed {writers : Id → Option (Handle UInt8)} {k : Id} (hk : writers k = some output)
        (hf : files.Filling loaded.quarantinePath body.bytes writers) :
        (files.close output).Filling loaded.quarantinePath body.bytes (Function.update writers k none) :=
      hf.closed hk hsent (hbytes.trans hreceived)
    split_ifs with hdropped
    · refine ⟨trivial, ?_, ?_, ?_, fun hm => absurd (hm.1.symm.trans hdropped) Bool.false_ne_true⟩
      all_goals rintro ⟨⟩
    split
    · rename_i new hnew
      obtain ⟨hsize, hhash, rfl⟩ := checkReceived_ok hnew
      refine ⟨⟨⟨by simpa using hdropped, ?_, ?_, ?_⟩, now, ?_⟩, fun _ => rfl, by rintro ⟨⟩, by rintro ⟨⟩, ?_⟩
      · exact hbytes ▸ hmax
      · exact hbytes ▸ hsize
      · exact hbytes ▸ hhash
      · rw [hhash]
      · exact fun _ hk hf => hclosed hk hf
    · rename_i e he
      refine ⟨?_, fun _ => rfl, by rintro ⟨⟩, by rintro ⟨⟩, fun _ hk hf => hclosed hk hf⟩
      rintro ⟨-, -, hsize, hhash⟩
      exact checkReceived_error he ⟨hbytes ▸ hsize, hbytes ▸ hhash⟩
  · exact Advances.refl h

theorem unlink_advances (h : r.Sound settings sha256) :
    r.Advances settings sha256 files (r.unlink files) := by
  obtain ⟨loaded, body, stage⟩ := r
  unfold unlink
  dsimp only
  split
  · exact ⟨trivial, nofun, nofun, nofun, fun hm => absurd hm h⟩
  · exact Advances.refl h

theorem openFile_opens (h : r.opens now = true) :
    r.openFile now files = ((files.openWrite r.loaded.quarantinePath).1,
      .receiving (files.openWrite r.loaded.quarantinePath).2 r.body.chunks []) := by
  obtain ⟨loaded, body, stage⟩ := r
  cases stage
  case checked =>
    have hnow : ¬ loaded.upload.uploadExpiresAt < now := not_lt.mpr (of_decide_eq_true h)
    exact if_neg hnow
  all_goals cases h

theorem openFile_refuses (h : r.opens now = false) :
    r.openFile now files = (files, r.stage) ∨
      r.stage = .checked ∧ r.openFile now files = (files, .failed) := by
  obtain ⟨loaded, body, stage⟩ := r
  cases stage
  case checked =>
    have hnow : loaded.upload.uploadExpiresAt < now := not_le.mp (of_decide_eq_false h)
    exact Or.inr ⟨rfl, if_pos hnow⟩
  all_goals exact Or.inl rfl

theorem opens_checked (h : r.opens now = true) : r.stage = .checked := by
  obtain ⟨loaded, body, stage⟩ := r
  cases stage
  case checked => rfl
  all_goals cases h

theorem openFile_advances (h : r.Sound settings sha256) (hrefuses : r.opens now = false) :
    r.Advances settings sha256 files (r.openFile now files) := by
  rcases openFile_refuses hrefuses with heq | ⟨hchecked, heq⟩ <;> rw [heq]
  · exact Advances.refl h
  · have hout : r.stage.output = none := by rw [hchecked]; rfl
    refine ⟨trivial, nofun, fun hc => ?_, fun _ => rfl, fun _ hk hf => ?_⟩
    · rw [hchecked] at hc
      cases hc
    · rw [hout] at hk
      rw [show ContentStage.output .failed = none from rfl, ← hk, Function.update_eq_self]
      exact hf

theorem openFile_sound (h : r.opens now = true) :
    Sound settings sha256 { r with stage := (r.openFile now files).2 } := by
  rw [openFile_opens h]
  refine ⟨rfl, ⟨[], ?_, ?_⟩, Nat.zero_le _⟩
  · rw [FileSystem.openWrite_buffer]
    rfl
  · rw [FileSystem.openWrite_offset]
    rfl

end ContentRequest

/-! ## What the requests keep -/

/-- What a row keeps of the one a request loaded. -/
structure Media.Since (loaded m : Media) : Prop where
  id : loaded.id = m.id
  expected : loaded.upload.expectedSha256 = m.upload.expectedSha256
  digest : loaded.attachment.sha256 = m.attachment.sha256 ∨
    m.attachment.sha256 = some m.upload.expectedSha256

theorem Media.save_quarantined {loaded m : Media} (h : loaded.Since m) (receivedAt : Time) :
    (Media.save loaded (loaded.quarantined loaded.upload.expectedSha256 receivedAt) m).attachment.sha256 =
      some m.upload.expectedSha256 := by
  show written loaded.attachment.sha256 (some loaded.upload.expectedSha256) m.attachment.sha256 = _
  rw [h.expected]
  rcases h.digest with hsame | hdigest
  · rw [hsame, written_loaded]
  · rw [hdigest]
    exact ite_self _

def outputs (t : Table ContentRequest) (i : Id) : Option (Handle UInt8) :=
  (t.get i).bind (·.stage.output)

theorem outputs_modify (t : Table ContentRequest) {i : Id} {r : ContentRequest} {stage : ContentStage}
    (hr : t.get i = some r) :
    outputs (t.modify i fun q => { q with stage := stage }) =
      Function.update (outputs t) i stage.output := by
  funext j
  by_cases hj : j = i
  · subst hj
    rw [Function.update_self, outputs, Table.get_modify_self, hr]
    rfl
  · rw [Function.update_of_ne hj, outputs, Table.get_modify_of_ne _ _ (Ne.symm hj)]
    rfl

variable (settings : MediaSettings) (sha256 : List UInt8 → String) in
structure ContentState.Kept (s : ContentState) : Prop where
  loaded : s.requests.All fun _ r => r.loaded.Since s.media
  sound : s.requests.All fun _ r => r.Sound settings sha256
  agree : ∀ i j q r, s.requests.get i = some q → s.requests.get j = some r →
    q.stage.present = true → r.stage.present = true → q.Agrees settings sha256 r
  uploaded : s.media.upload.uploadedAt ≠ none →
    s.media.attachment.sha256 = some s.media.upload.expectedSha256 ∧
      ∃ i r, s.requests.get i = some r ∧ r.stage = .committed
  filling : ∀ i r, s.requests.get i = some r → r.stage.present = true →
    r.Matches settings sha256 →
      s.files.Filling s.media.quarantinePath r.body.bytes (outputs s.requests)

namespace ContentState
variable {settings : MediaSettings} {sha256 : List UInt8 → String} {s : ContentState}

theorem Kept.initial (now : Time) {m : Media} (hm : m.upload.uploadedAt = none)
    (files : FileSystem String UInt8) : (ContentState.initial now m files).Kept settings sha256 := by
  have hnone (i : Id) (r : ContentRequest) :
      (ContentState.initial now m files).requests.get i ≠ some r := by
    rw [show (ContentState.initial now m files).requests.get i = none from rfl]
    exact Option.some_ne_none r |>.symm
  exact {
    loaded := fun i r hr => absurd hr (hnone i r)
    sound := fun i r hr => absurd hr (hnone i r)
    agree := fun i _ q _ hq => absurd hq (hnone i q)
    uploaded := fun h => absurd hm h
    filling := fun i r hr => absurd hr (hnone i r) }

theorem Kept.quarantinePath (h : s.Kept settings sha256) {i : Id} {r : ContentRequest}
    (hr : s.requests.get i = some r) : r.loaded.quarantinePath = s.media.quarantinePath := by
  rw [Media.quarantinePath, (h.loaded i r hr).id]
  rfl

theorem Kept.output {i : Id} {r : ContentRequest} (hr : s.requests.get i = some r) :
    outputs s.requests i = r.stage.output := by
  rw [outputs, hr]
  rfl

theorem Kept.arrive (h : s.Kept settings sha256) (body : ContentBody) :
    ({ s with requests := s.requests.insert ⟨s.media, body, .checked⟩ } : ContentState).Kept
      settings sha256 := by
  have hold {i : Id} {r : ContentRequest}
      (hr : (s.requests.insert ⟨s.media, body, .checked⟩).get i = some r)
      (hp : r.stage.present = true) : s.requests.get i = some r := by
    rcases Table.get_insert_cases hr with ⟨-, rfl⟩ | hr
    · cases hp
    · exact hr
  have houtputs : outputs (s.requests.insert ⟨s.media, body, .checked⟩) = outputs s.requests := by
    funext i
    rw [outputs, outputs, Table.get_insert]
    split_ifs with hi
    · rw [hi, Table.get_size]
      rfl
    · rfl
  refine ⟨h.loaded.insert ⟨rfl, rfl, Or.inl rfl⟩, h.sound.insert trivial, ?_, ?_, ?_⟩
  · exact fun i j q r hq hr hqp hrp => h.agree i j q r (hold hq hqp) (hold hr hrp) hqp hrp
  · intro hup
    obtain ⟨hdigest, i, r, hr, hc⟩ := h.uploaded hup
    exact ⟨hdigest, i, r, Table.get_insert_of_some _ hr, hc⟩
  · intro i r hr hp hm
    rw [houtputs]
    exact h.filling i r (hold hr hp) hp hm

/-- One request goes on: it keeps its row and body, and agrees with the others as before. -/
theorem Kept.moved (h : s.Kept settings sha256) {i : Id} {r : ContentRequest}
    (hr : s.requests.get i = some r) {files : FileSystem String UInt8} {stage : ContentStage}
    (hadv : r.Advances settings sha256 s.files (files, stage)) :
    ({ s with
        files := files
        requests := s.requests.modify i fun q => { q with stage := stage } } : ContentState).Kept
      settings sha256 := by
  have hold {j : Id} {q : ContentRequest}
      (hq : (s.requests.modify i fun q => { q with stage := stage }).get j = some q)
      (hp : q.stage.present = true) : ∃ q' new, s.requests.get j = some q' ∧
        q'.stage.present = true ∧ q = { q' with stage := new } := by
    rcases Table.get_modify_cases hq with ⟨rfl, q', hq', rfl⟩ | ⟨-, hq⟩
    · obtain rfl := Option.some.inj (hr.symm.trans hq')
      exact ⟨r, stage, hr, hadv.present hp, rfl⟩
    · exact ⟨q, q.stage, hq, hp, rfl⟩
  refine ⟨h.loaded.modify fun q _ hq => hq, ?_, ?_, ?_, ?_⟩
  · refine h.sound.modify fun q hq _ => ?_
    obtain rfl := Option.some.inj (hr.symm.trans hq)
    exact hadv.sound
  · intro j k q q' hq hq' hp hp'
    obtain ⟨old, new, hqo, hpo, rfl⟩ := hold hq hp
    obtain ⟨old', new', hqo', hpo', rfl⟩ := hold hq' hp'
    exact h.agree j k old old' hqo hqo' hpo hpo'
  · intro hup
    obtain ⟨hdigest, j, q, hq, hc⟩ := h.uploaded hup
    refine ⟨hdigest, j, ?_⟩
    by_cases hij : i = j
    · subst hij
      obtain rfl := Option.some.inj (hr.symm.trans hq)
      exact ⟨{ r with stage := stage }, by rw [Table.get_modify_self, hr]; rfl, hadv.committed hc⟩
    · exact ⟨q, by rwa [Table.get_modify_of_ne _ _ hij], hc⟩
  · intro j q hq hp hm
    obtain ⟨old, new, hqo, hpo, rfl⟩ := hold hq hp
    have hfill : s.files.Filling s.media.quarantinePath old.body.bytes (outputs s.requests) :=
      h.filling j old hqo hpo hm
    rw [outputs_modify _ hr]
    by_cases hrp : r.stage.present = true
    · -- the request that moves carries the same bytes as the one asked about
      have hagree := h.agree i j r old hr hqo hrp hpo
      have hbytes : r.body.bytes = old.body.bytes := hagree.2 hm
      rw [← h.quarantinePath hr, ← hbytes] at hfill
      show files.Filling s.media.quarantinePath old.body.bytes _
      rw [← h.quarantinePath hr, ← hbytes]
      exact hadv.filling (hagree.1.mpr hm) (Kept.output hr) hfill
    · have hidle : r.stage.present = false := Bool.eq_false_iff.mpr hrp
      have hstage : stage.output = none :=
        ContentStage.output_of_not_present (Bool.eq_false_iff.mpr fun hs => hrp (hadv.present hs))
      have hout : outputs s.requests i = stage.output := by
        rw [Kept.output hr, ContentStage.output_of_not_present hidle, hstage]
      have hfiles : files = s.files := hadv.idle hidle
      rw [← hout, Function.update_eq_self, hfiles]
      exact hfill

theorem Kept.advance (h : s.Kept settings sha256) {i : Id}
    {f : FileSystem String UInt8 → ContentRequest → FileSystem String UInt8 × ContentStage}
    (hf : ∀ r, s.requests.get i = some r → r.Advances settings sha256 s.files (f s.files r)) :
    (s.advance i f).Kept settings sha256 := by
  unfold ContentState.advance
  split
  · exact h
  · rename_i r hr
    exact h.moved hr (hf r hr)

/-- Opening the file: whoever else writes to it carries the same bytes, if any of them match. -/
theorem Kept.opened (h : s.Kept settings sha256) {i : Id} {r : ContentRequest}
    (hr : s.requests.get i = some r) (hopens : r.opens s.now = true)
    (hagree : s.requests.All fun _ q => q.stage.present = true → q.Agrees settings sha256 r) :
    (s.advance i (ContentRequest.openFile s.now)).Kept settings sha256 := by
  have hsound := @ContentRequest.openFile_sound settings sha256 _ s.files _ hopens
  unfold ContentState.advance
  rw [hr]
  dsimp only
  rw [ContentRequest.openFile_opens hopens] at hsound ⊢
  dsimp only at hsound ⊢
  rw [h.quarantinePath hr] at hsound ⊢
  obtain ⟨stage, hstage⟩ : ∃ stage, stage = ContentStage.receiving
    (s.files.openWrite s.media.quarantinePath).2 r.body.chunks [] := ⟨_, rfl⟩
  rw [← hstage] at hsound ⊢
  have hout : stage.output = some (s.files.openWrite s.media.quarantinePath).2 := by rw [hstage]; rfl
  have hnew {j : Id} {q : ContentRequest}
      (hq : (s.requests.modify i fun q => { q with stage := stage }).get j = some q) :
      q = { r with stage := stage } ∨ s.requests.get j = some q := by
    rcases Table.get_modify_cases hq with ⟨rfl, q', hq', rfl⟩ | ⟨-, hq⟩
    · obtain rfl := Option.some.inj (hr.symm.trans hq')
      exact Or.inl rfl
    · exact Or.inr hq
  refine ⟨h.loaded.modify fun q _ hq => hq, ?_, ?_, ?_, ?_⟩
  · refine h.sound.modify fun q hq _ => ?_
    obtain rfl := Option.some.inj (hr.symm.trans hq)
    exact hsound
  · intro j k q q' hq hq' hp hp'
    rcases hnew hq with rfl | hq <;> rcases hnew hq' with rfl | hq'
    · exact ⟨Iff.rfl, fun _ => rfl⟩
    · exact (hagree k q' hq' hp').symm
    · exact hagree j q hq hp
    · exact h.agree j k q q' hq hq' hp hp'
  · intro hup
    obtain ⟨hdigest, j, q, hq, hc⟩ := h.uploaded hup
    have hij : i ≠ j := by
      rintro rfl
      obtain rfl := Option.some.inj (hr.symm.trans hq)
      rw [ContentRequest.opens_checked hopens] at hc
      cases hc
    exact ⟨hdigest, j, q, by rwa [Table.get_modify_of_ne _ _ hij], hc⟩
  · intro j q hq hp hm
    rw [outputs_modify _ hr, hout]
    apply FileSystem.Filling.opened
    -- the file the others write to is the one opened now
    intro k output hk
    obtain ⟨q', hq', hout'⟩ := Option.bind_eq_some_iff.mp hk
    have hp' : q'.stage.present = true := by
      by_contra hn
      rw [ContentStage.output_of_not_present (Bool.eq_false_iff.mpr hn)] at hout'
      cases hout'
    have hrm : r.Matches settings sha256 := by
      rcases hnew hq with rfl | hq
      · exact hm
      · exact (hagree j q hq hp).1.mp hm
    have hqm : q'.Matches settings sha256 := (hagree k q' hq' hp').1.mpr hrm
    exact (h.filling k q' hq' hp' hqm).entry k output hk

theorem Kept.commit (h : s.Kept settings sha256) (i : Id) (fails : Bool) :
    (s.commit i fails).Kept settings sha256 := by
  unfold ContentState.commit
  split
  swap
  · exact h
  rename_i loaded body new hr
  obtain ⟨hm, receivedAt, hnew⟩ : ContentRequest.Sound settings sha256 ⟨loaded, body, .verified new⟩ :=
    h.sound i _ hr
  have hfailed : ContentRequest.Advances settings sha256 s.files ⟨loaded, body, .verified new⟩
      (s.files, .failed) := by
    refine ⟨trivial, nofun, nofun, fun _ => rfl, fun _ hk hf => ?_⟩
    rw [show ContentStage.output .failed = none from rfl, ← show _ = none from hk,
      Function.update_eq_self]
    exact hf
  have hcommitted : ContentRequest.Advances settings sha256 s.files ⟨loaded, body, .verified new⟩
      (s.files, .committed) := by
    refine ⟨hm, fun _ => rfl, nofun, fun _ => rfl, fun _ hk hf => ?_⟩
    rw [show ContentStage.output .committed = none from rfl, ← show _ = none from hk,
      Function.update_eq_self]
    exact hf
  split_ifs with hfails
  · exact h.moved hr hfailed
  have hkept := h.moved hr hcommitted
  have hdigest : (Media.save loaded new s.media).attachment.sha256 =
      some s.media.upload.expectedSha256 := by
    rw [hnew]
    exact Media.save_quarantined (h.loaded i _ hr) receivedAt
  refine ⟨?_, hkept.sound, hkept.agree, ?_, hkept.filling⟩
  · intro j q hq
    have hsince := hkept.loaded j q hq
    exact ⟨hsince.id, hsince.expected, Or.inr hdigest⟩
  · intro _
    exact ⟨hdigest, i, ⟨loaded, body, .committed⟩, by rw [Table.get_modify_self, hr]; rfl, rfl⟩

theorem Kept.step (h : s.Kept settings sha256) {x : PutStep} (hc : s.Compatible settings sha256 x) :
    (putStep settings sha256 s x).Kept settings sha256 := by
  cases x with
  | tick elapsed => exact ⟨h.loaded, h.sound, h.agree, h.uploaded, h.filling⟩
  | arrive actor header contentType body =>
    unfold putStep
    dsimp only
    split
    · exact h.arrive body
    · exact h
  | openFile i =>
    cases hr : s.requests.get i with
    | none =>
      apply h.advance
      intro r hr'
      rw [hr] at hr'
      cases hr'
    | some r =>
      cases hopens : r.opens s.now with
      | true => exact h.opened hr hopens (hc r hr hopens)
      | false =>
        apply h.advance
        intro q hq
        obtain rfl := Option.some.inj (hr.symm.trans hq)
        exact ContentRequest.openFile_advances (h.sound i _ hr) hopens
  | receive i => exact h.advance fun r hr => ContentRequest.receive_advances (h.sound i r hr)
  | flush i count =>
    exact h.advance (f := fun files r => r.flush files count)
      fun r hr => ContentRequest.flush_advances (h.sound i r hr) count
  | verify i => exact h.advance fun r hr => ContentRequest.verify_advances (h.sound i r hr)
  | unlink i => exact h.advance fun r hr => ContentRequest.unlink_advances (h.sound i r hr)
  | commit i fails => exact h.commit i fails

theorem Kept.intact (h : s.Kept settings sha256) : s.Intact sha256 := by
  intro hup hended
  obtain ⟨hdigest, i, r, hr, hc⟩ := h.uploaded hup
  have hm : r.Matches settings sha256 := by
    have hsound : r.Sound settings sha256 := h.sound i r hr
    unfold ContentRequest.Sound at hsound
    rwa [hc] at hsound
  have hnone (j : Id) : outputs s.requests j = none := by
    cases hj : s.requests.get j with
    | none => rw [outputs, hj]; rfl
    | some q =>
      have hq := hended j q hj
      rw [Kept.output hj]
      cases hstage : q.stage <;> simp_all [ContentStage.ended, ContentStage.output]
  have hfill := h.filling i r hr (by rw [hc]; rfl) hm
  refine ⟨r.body.bytes, hfill.complete hnone, ?_⟩
  rw [hdigest, hm.2.2.2, (h.loaded i r hr).expected]

end ContentState

/-- The file of a committed upload stays as long as every request that opens it carries the body
of the others, or none of them carries one that matches. -/
theorem committed_content_stays (settings : MediaSettings) (sha256 : List UInt8 → String) (now : Time)
    (files : FileSystem String UInt8) (steps : List PutStep) {m : Media}
    (hm : m.upload.uploadedAt = none)
    (hc : Along (putStep settings sha256) (ContentState.Compatible settings sha256)
      (.initial now m files) steps) :
    (putRun settings sha256 now m files steps).Intact sha256 := by
  have hkept : (putRun settings sha256 now m files steps).Kept settings sha256 :=
    run_invariant (putStep settings sha256) (C := ContentState.Compatible settings sha256)
      (fun _ _ hs hx => ContentState.Kept.step hs hx) (ContentState.Kept.initial now hm files) hc
  exact hkept.intact

namespace Sample

def hi : ContentBody := ⟨[[104], [], [105]], false⟩

/-- The digests of the two bodies sent here. -/
def sha256 (b : List UInt8) : String :=
  if b = [104, 105] then "8f434346648f6b96df89dda901c5176b10a6d83961dd3c1ac88b59b2dc327aa4"
  else "a821c62e8104f8519d639b4c0948aece641b143f6601fa145993bb2e2c7299d4"

def photo : Media :=
  { id := 0
    attachment := pendingAttachment 0 0 0
    upload :=
      { fileName := "a.png"
        declaredMimeType := "image/png"
        mediaType := .image
        storageProvider := .localProxy
        objectKey := none
        etag := none
        sizeBytes := 2
        expectedSha256 := sha256 hi.bytes
        durationMs := none
        originalPath := none
        policySnapshot := none
        rejectionReason := none
        uploadExpiresAt := minutes media.uploadIntentMinutes
        uploadedAt := none } }

def put (body : ContentBody) : PutStep := .arrive resident none "image/png" body

/-- Two requests are checked, one uploads its content and commits while the other has the
file open. -/
def twoPuts (other : ContentBody) : List PutStep :=
  [put hi, put other, .openFile 0, .openFile 1, .receive 0, .receive 0, .receive 0, .verify 0,
    .commit 0 false, .receive 1, .flush 1 1, .verify 1, .unlink 1, .commit 1 false]

abbrev contents (steps : List PutStep) : ContentState :=
  putRun media sha256 0 photo .empty steps

end Sample

theorem one_body_sent_twice_stays :
    (Sample.contents (Sample.twoPuts ⟨[[104, 105]], false⟩)).Intact Sample.sha256 :=
  committed_content_stays Sample.media Sample.sha256 0 .empty
    (Sample.twoPuts ⟨[[104, 105]], false⟩) rfl (by decide +kernel)

/-- A body that does not match the declaration removes the file that another one committed. -/
theorem refused_body_removes_committed_content :
    ¬ (Sample.contents (Sample.twoPuts ⟨[[104, 111]], false⟩)).Intact Sample.sha256 := by
  intro h
  obtain ⟨content, hread, -⟩ := h (by decide +kernel) (by decide +kernel)
  have hnone : (Sample.contents (Sample.twoPuts ⟨[[104, 111]], false⟩)).files.read
      (Sample.contents (Sample.twoPuts ⟨[[104, 111]], false⟩)).media.quarantinePath = none := by
    decide +kernel
  rw [hnone] at hread
  cases hread

end CrisisMosaic
