import Mathlib.Tactic
import CrisisMosaic.Relational.Table

/-!
# Files, the handles that write them and their digests

A directory entry names an inode. A handle keeps the inode it was opened on, its own
offset and a buffer, so that removing the entry or opening it again leaves the handle
as it is.
-/

namespace Storage
open Relational

section Contents
variable {β : Type*} {content whole sent data rest : List β} {n j : ℕ}

/-- The first `n` bytes stored are those of `whole`, and nothing is stored past its end. -/
structure Holds (whole content : List β) (n : ℕ) : Prop where
  stored : n ≤ content.length
  fits : content.length ≤ whole.length
  same : ∀ j < n, content[j]? = whole[j]?

namespace Holds

theorem nil (whole : List β) : Holds whole [] 0 := ⟨Nat.zero_le _, Nat.zero_le _, nofun⟩

theorem complete (h : Holds whole content whole.length) : content = whole := by
  apply List.ext_getElem?
  intro j
  by_cases hj : j < whole.length
  · exact h.same j hj
  · have hc : content.length ≤ j := by
      have := h.fits
      omega
    rw [List.getElem?_eq_none hc, List.getElem?_eq_none (by omega)]

end Holds

section Overwriting
variable [Zero β]

/-- Bytes stored at an offset; a gap in front of them reads as zeros. -/
def overwrite (content : List β) (offset : ℕ) (data : List β) : List β :=
  if data = [] then content
  else
    content.take offset ++ List.replicate (offset - content.length) 0 ++ data ++
      content.drop (offset + data.length)

@[simp] theorem overwrite_nil (content : List β) (offset : ℕ) :
    overwrite content offset [] = content := if_pos rfl

theorem length_overwrite (content : List β) (offset : ℕ) (hd : data ≠ []) :
    (overwrite content offset data).length = max content.length (offset + data.length) := by
  rw [overwrite, if_neg hd]
  simp only [List.length_append, List.length_take, List.length_replicate, List.length_drop]
  omega

theorem getElem?_overwrite_of_lt {offset : ℕ} (hj : j < offset) (hc : j < content.length) :
    (overwrite content offset data)[j]? = content[j]? := by
  by_cases hd : data = []
  · rw [hd, overwrite_nil]
  have htake : j < (content.take offset).length := by
    rw [List.length_take]
    omega
  rw [overwrite, if_neg hd, List.append_assoc, List.append_assoc,
    List.getElem?_append_left htake, List.getElem?_take_of_lt hj]

theorem getElem?_overwrite (content : List β) {offset : ℕ} (hj : offset ≤ j)
    (hd : j < offset + data.length) : (overwrite content offset data)[j]? = data[j - offset]? := by
  have hne : data ≠ [] := by
    rintro rfl
    simp only [List.length_nil] at hd
    omega
  have hgap : (content.take offset ++ List.replicate (offset - content.length) 0).length = offset := by
    simp only [List.length_append, List.length_take, List.length_replicate]
    omega
  rw [overwrite, if_neg hne, List.append_assoc, List.getElem?_append_right (by omega), hgap,
    List.getElem?_append_left (by omega)]

theorem getElem?_overwrite_of_ge (content : List β) {offset : ℕ} (hj : offset + data.length ≤ j) :
    (overwrite content offset data)[j]? = content[j]? := by
  by_cases hd : data = []
  · rw [hd, overwrite_nil]
  have hlength : (content.take offset ++ List.replicate (offset - content.length) 0 ++ data).length =
      offset + data.length := by
    simp only [List.length_append, List.length_take, List.length_replicate]
    omega
  rw [overwrite, if_neg hd, List.getElem?_append_right (by omega), hlength, List.getElem?_drop]
  congr 1
  omega

namespace Holds

theorem fits_overwrite (h : Holds whole content n) (hw : whole = sent ++ data ++ rest) :
    (overwrite content sent.length data).length ≤ whole.length := by
  have hfits := h.fits
  by_cases hd : data = []
  · rwa [hd, overwrite_nil]
  · rw [length_overwrite content _ hd, hw]
    rw [hw] at hfits
    simp only [List.length_append] at hfits ⊢
    omega

/-- Bytes of the same whole change nothing in what is stored already. -/
theorem overwrite (h : Holds whole content n) (hw : whole = sent ++ data ++ rest) :
    Holds whole (overwrite content sent.length data) n := by
  have hstored := h.stored
  refine ⟨?_, h.fits_overwrite hw, ?_⟩
  · by_cases hd : data = []
    · rwa [hd, overwrite_nil]
    · rw [length_overwrite content _ hd]
      omega
  · intro j hj
    by_cases hs : j < sent.length
    · rw [getElem?_overwrite_of_lt hs (by omega)]
      exact h.same j hj
    by_cases hd : j < sent.length + data.length
    · rw [getElem?_overwrite content (by omega) hd, hw, List.append_assoc,
        List.getElem?_append_right (by omega), List.getElem?_append_left (by omega)]
    · rw [getElem?_overwrite_of_ge content (by omega)]
      exact h.same j hj

/-- What is stored grows by the bytes written right behind it. -/
theorem extend (h : Holds whole content sent.length) (hw : whole = sent ++ data ++ rest) :
    Holds whole (Storage.overwrite content sent.length data) (sent.length + data.length) := by
  have hsame := (h.overwrite hw).same
  refine ⟨?_, h.fits_overwrite hw, ?_⟩
  · by_cases hd : data = []
    · simpa [hd] using h.stored
    · rw [length_overwrite content _ hd]
      omega
  · intro j hj
    by_cases hs : j < sent.length
    · exact hsame j hs
    · rw [getElem?_overwrite content (by omega) hj, hw, List.append_assoc,
        List.getElem?_append_right (by omega), List.getElem?_append_left (by omega)]

end Holds
end Overwriting
end Contents

/-- A file opened for writing: `offset` bytes were written, `buffer` is not written yet. -/
structure Handle (β : Type*) where
  inode : ℕ
  offset : ℕ
  buffer : List β

structure FileSystem (π β : Type*) where
  inodes : Table (List β)
  entries : π → Option ℕ
  entries_lt : ∀ p i, entries p = some i → i < inodes.size

namespace FileSystem
variable {π β : Type*}

def empty : FileSystem π β := ⟨.empty, fun _ => none, nofun⟩

def read (fs : FileSystem π β) (p : π) : Option (List β) := (fs.entries p).bind fs.inodes.get

theorem truncated_lt (fs : FileSystem π β) (i : ℕ) (p : π) (k : ℕ) (hk : fs.entries p = some k) :
    k < (fs.inodes.modify i fun _ => []).size := by
  rw [Table.size_modify]
  exact fs.entries_lt p k hk

theorem created_lt [DecidableEq π] (fs : FileSystem π β) (p q : π) (k : ℕ)
    (hk : Function.update fs.entries p (some fs.inodes.size) q = some k) :
    k < (fs.inodes.insert []).size := by
  rw [Table.size_insert]
  by_cases hq : q = p
  · subst hq
    rw [Function.update_self] at hk
    have := Option.some.inj hk
    omega
  · rw [Function.update_of_ne hq] at hk
    have := fs.entries_lt q k hk
    omega

/-- An existing file is truncated, a missing one is created. -/
def openWrite [DecidableEq π] (fs : FileSystem π β) (p : π) : FileSystem π β × Handle β :=
  match fs.entries p with
  | some i =>
    ({ fs with inodes := fs.inodes.modify i fun _ => [], entries_lt := fs.truncated_lt i },
      ⟨i, 0, []⟩)
  | none =>
    ({ inodes := fs.inodes.insert []
       entries := Function.update fs.entries p (some fs.inodes.size)
       entries_lt := fs.created_lt p },
      ⟨fs.inodes.size, 0, []⟩)

def unlink [DecidableEq π] (fs : FileSystem π β) (p : π) : FileSystem π β :=
  { fs with
    entries := Function.update fs.entries p none
    entries_lt := by
      intro q k hk
      by_cases hq : q = p
      · rw [hq, Function.update_self] at hk
        cases hk
      · rw [Function.update_of_ne hq] at hk
        exact fs.entries_lt q k hk }

/-- The first `n` bytes of the buffer reach the file. -/
def flush [Zero β] (fs : FileSystem π β) (h : Handle β) (n : ℕ) : FileSystem π β × Handle β :=
  ({ fs with
      inodes := fs.inodes.modify h.inode fun c => overwrite c h.offset (h.buffer.take n)
      entries_lt := fun q k hk => (fs.inodes.size_modify h.inode _).symm ▸ fs.entries_lt q k hk },
    { h with offset := h.offset + (h.buffer.take n).length, buffer := h.buffer.drop n })

def close [Zero β] (fs : FileSystem π β) (h : Handle β) : FileSystem π β :=
  (fs.flush h h.buffer.length).1

section Opened
variable [DecidableEq π] {fs : FileSystem π β} {p : π} {i : ℕ}

theorem openWrite_offset (fs : FileSystem π β) (p : π) : (fs.openWrite p).2.offset = 0 := by
  unfold openWrite
  split <;> rfl

theorem openWrite_buffer (fs : FileSystem π β) (p : π) : (fs.openWrite p).2.buffer = [] := by
  unfold openWrite
  split <;> rfl

theorem openWrite_entry (fs : FileSystem π β) (p : π) :
    (fs.openWrite p).1.entries p = some (fs.openWrite p).2.inode := by
  unfold openWrite
  split
  · assumption
  · exact Function.update_self ..

theorem openWrite_read (fs : FileSystem π β) (p : π) : (fs.openWrite p).1.read p = some [] := by
  rw [read, openWrite_entry, Option.bind_some]
  unfold openWrite
  split
  · rename_i i hi
    obtain ⟨content, hcontent⟩ := Table.get_of_lt (fs.entries_lt p i hi)
    simp [hcontent]
  · exact Table.get_insert_size ..

theorem unlink_read (fs : FileSystem π β) (p : π) : (fs.unlink p).read p = none := by
  change (Function.update fs.entries p none p).bind _ = none
  rw [Function.update_self, Option.bind_none]

/-- A file that is opened, written and closed holds what was written. -/
theorem openWrite_close_read [Zero β] (fs : FileSystem π β) (p : π) (data : List β) :
    ((fs.openWrite p).1.close { (fs.openWrite p).2 with buffer := data }).read p = some data := by
  have hread := openWrite_read fs p
  rw [read, openWrite_entry, Option.bind_some] at hread
  change ((fs.openWrite p).1.entries p).bind (((fs.openWrite p).1.inodes.modify _ _).get) = _
  rw [openWrite_entry, Option.bind_some, Table.get_modify_self, hread, openWrite_offset]
  change some (overwrite [] 0 (data.take data.length)) = some data
  rw [List.take_length, overwrite]
  split_ifs with hnil
  · rw [hnil]
  · simp

theorem openWrite_inode (h : fs.entries p = some i) : (fs.openWrite p).2.inode = i := by
  unfold openWrite
  rw [h]

end Opened

section Filling
variable {ι : Type*} {fs : FileSystem π β} {p : π} {whole sent rest : List β}
  {writers : ι → Option (Handle β)} {k : ι} {h g : Handle β}

/-- Several handles write one file. What is stored is either complete or complete as far as
some handle has come. -/
structure Filling (fs : FileSystem π β) (p : π) (whole : List β) (writers : ι → Option (Handle β)) :
    Prop where
  entry : ∀ i h, writers i = some h → fs.entries p = some h.inode
  content : ∃ content n, fs.read p = some content ∧ Holds whole content n ∧
    (n = whole.length ∨ ∃ i h, writers i = some h ∧ h.offset = n)

namespace Filling

theorem complete (hf : fs.Filling p whole writers) (hnone : ∀ i, writers i = none) :
    fs.read p = some whole := by
  obtain ⟨content, n, hread, hholds, rfl | ⟨i, h, hi, -⟩⟩ := hf.content
  · rw [hread, hholds.complete]
  · simp [hnone i] at hi

variable [DecidableEq ι]

/-- The handle opened last starts over, whatever the file held. -/
theorem opened [DecidableEq π] (hentry : ∀ i h, writers i = some h → fs.entries p = some h.inode) (k : ι) :
    (fs.openWrite p).1.Filling p whole (Function.update writers k (some (fs.openWrite p).2)) := by
  refine ⟨?_, [], 0, openWrite_read fs p, Holds.nil whole,
    Or.inr ⟨k, _, Function.update_self .., openWrite_offset fs p⟩⟩
  intro i h hi
  rw [openWrite_entry]
  by_cases hk : i = k
  · subst hk
    rw [Function.update_self] at hi
    rw [Option.some.inj hi]
  · rw [Function.update_of_ne hk] at hi
    rw [openWrite_inode (hentry i h hi)]

/-- The handle moves to another buffer. -/
theorem buffered (hf : fs.Filling p whole writers) (hk : writers k = some h)
    (hinode : g.inode = h.inode) (hoffset : g.offset = h.offset) :
    fs.Filling p whole (Function.update writers k (some g)) := by
  obtain ⟨content, n, hread, hholds, hn⟩ := hf.content
  refine ⟨?_, content, n, hread, hholds, hn.imp_right ?_⟩
  · intro i f hi
    by_cases he : i = k
    · subst he
      rw [Function.update_self] at hi
      rw [← Option.some.inj hi, hinode]
      exact hf.entry i h hk
    · rw [Function.update_of_ne he] at hi
      exact hf.entry i f hi
  · rintro ⟨i, f, hi, rfl⟩
    by_cases he : i = k
    · subst he
      rw [hk] at hi
      rw [← Option.some.inj hi]
      exact ⟨i, g, Function.update_self .., hoffset⟩
    · exact ⟨i, f, by rwa [Function.update_of_ne he], rfl⟩

theorem flushed [Zero β] (hf : fs.Filling p whole writers) (hk : writers k = some h)
    (hsent : sent.length = h.offset) (hwhole : whole = sent ++ h.buffer ++ rest) (m : ℕ) :
    (fs.flush h m).1.Filling p whole (Function.update writers k (some (fs.flush h m).2)) := by
  have hsplit : whole = sent ++ h.buffer.take m ++ (h.buffer.drop m ++ rest) := by
    rw [hwhole, List.append_assoc, List.append_assoc, ← List.append_assoc (h.buffer.take m),
      List.take_append_drop]
  obtain ⟨content, n, hread, hholds, hn⟩ := hf.content
  have hentry := hf.entry k h hk
  have hstored : (fs.flush h m).1.read p = some (overwrite content sent.length (h.buffer.take m)) := by
    rw [read, hentry, Option.bind_some] at hread
    rw [read, show (fs.flush h m).1.entries p = some h.inode from hentry, Option.bind_some, hsent]
    show (fs.inodes.modify h.inode _).get h.inode = _
    rw [Table.get_modify_self, hread]
    rfl
  refine ⟨?_, ?_⟩
  · intro i f hi
    by_cases he : i = k
    · subst he
      rw [Function.update_self] at hi
      rw [← Option.some.inj hi]
      exact hentry
    · rw [Function.update_of_ne he] at hi
      exact hf.entry i f hi
  -- the handle that reaches as far as the file is complete may be the one that is flushed
  by_cases hreach : n = h.offset
  · subst hreach
    rw [← hsent] at hholds
    refine ⟨_, _, hstored, hholds.extend hsplit, Or.inr ⟨k, _, Function.update_self .., ?_⟩⟩
    rw [hsent]
    rfl
  · refine ⟨_, _, hstored, hholds.overwrite hsplit, hn.imp_right ?_⟩
    rintro ⟨i, f, hi, rfl⟩
    have he : i ≠ k := by
      rintro rfl
      rw [hk] at hi
      exact hreach (congrArg Handle.offset (Option.some.inj hi)).symm
    exact ⟨i, f, by rwa [Function.update_of_ne he], rfl⟩

/-- A handle that wrote everything may go. -/
theorem released (hf : fs.Filling p whole writers) (hk : writers k = some h)
    (hall : h.offset = whole.length) : fs.Filling p whole (Function.update writers k none) := by
  obtain ⟨content, n, hread, hholds, hn⟩ := hf.content
  refine ⟨?_, content, n, hread, hholds, ?_⟩
  · intro i f hi
    by_cases he : i = k
    · rw [he, Function.update_self] at hi
      cases hi
    · rw [Function.update_of_ne he] at hi
      exact hf.entry i f hi
  · rcases hn with hn | ⟨i, f, hi, rfl⟩
    · exact Or.inl hn
    by_cases he : i = k
    · subst he
      rw [hk] at hi
      exact Or.inl (Option.some.inj hi ▸ hall)
    · exact Or.inr ⟨i, f, by rwa [Function.update_of_ne he], rfl⟩

theorem closed [Zero β] (hf : fs.Filling p whole writers) (hk : writers k = some h)
    (hsent : sent.length = h.offset) (hwhole : whole = sent ++ h.buffer) :
    (fs.close h).Filling p whole (Function.update writers k none) := by
  have hsplit : whole = sent ++ h.buffer ++ [] := by rw [hwhole, List.append_nil]
  have hflushed := hf.flushed hk hsent hsplit h.buffer.length
  have hreleased := hflushed.released (Function.update_self ..) (by
    rw [hwhole, List.length_append, hsent]
    simp [flush])
  rwa [Function.update_idem] at hreleased

end Filling
end Filling
end FileSystem
end Storage

/-!
## Digests computed piece by piece

A digest object is fed bytes and tells the digest of all it was fed; feeding it pieces
one after the other is feeding it the whole.
-/

namespace Storage

structure Digest (β δ : Type) where
  State : Type
  init : State
  update : State → List β → State
  digest : State → δ
  update_nil : ∀ s, update s [] = s
  update_append : ∀ s xs ys, update (update s xs) ys = update s (xs ++ ys)

namespace Digest
variable {β δ : Type} (d : Digest β δ)

/-- The digest of bytes fed at once. -/
def of (bytes : List β) : δ := d.digest (d.update d.init bytes)

/-- The object that remembers what it was fed. -/
def remembering (f : List β → δ) : Digest β δ where
  State := List β
  init := []
  update s xs := s ++ xs
  digest := f
  update_nil := List.append_nil
  update_append := List.append_assoc

end Digest
end Storage
