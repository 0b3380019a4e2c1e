import CrisisMosaic.Storage.Keyset

/-!
# Pages that name the next one

A reader has nothing but the cursor of the last page. The rows may be others each time a page is
read, and a request may be refused.
-/

namespace Keyset
variable {α κ ε σ : Type*}

/-- What a request is answered with. -/
structure Answer (α : Type*) where
  items : List α
  next : Option String

/-- The page of these rows. The next one starts below its last row. -/
def answer [LinearOrder κ] (key : α → κ) (limit : ℕ) (encode : α → String) (rows : List α) : Answer α :=
  let p := page key limit rows
  ⟨p.items, if p.more then p.items.getLast?.map encode else none⟩

abbrev Read (ε α : Type*) := Option String → Except ε (Answer α)

section Reading
variable (pages : List (Answer α))

def lastAnswer : Option (Answer α) := pages.getLast?
def nextCursor : Option String := (lastAnswer pages).bind (·.next)
def isFinished : Bool := (lastAnswer pages).any (·.next.isNone)
def returned : List α := pages.flatMap (·.items)

/-- A request that is refused is not counted. -/
def fetchPage (read : Read ε α) : List (Answer α) :=
  if isFinished pages then pages
  else match read (nextCursor pages) with
    | .ok a => pages ++ [a]
    | .error _ => pages

/-- A page, if the reader is not done, from each state. -/
def followPages (read : σ → Read ε α) (states : List σ) : List (Answer α) :=
  states.foldl (fun pages s => fetchPage pages (read s)) []

end Reading

section Complete
variable [LinearOrder κ] {key : α → κ} {limit : ℕ} {encode : α → String} {pages : List (Answer α)}

variable (key limit encode) in
/-- Where a page is read from these rows, the cursor of any row is accepted, and cuts them at it. -/
structure ReadsBelow (Legal : α → Prop) (rows : List α) (read : Read ε α) : Prop where
  distinct : Distinct key rows
  legal : ∀ x ∈ rows, Legal x
  below : ∀ last : Option α, (∀ x ∈ last, Legal x) → read (last.map encode) =
    (read none).map fun _ => answer key limit encode (rows.filter fun x => last.all (key x < key ·))

def lastRow (pages : List (Answer α)) : Option α := (lastAnswer pages).bind (·.items.getLast?)

variable (key) in
/-- What has been read, as a traversal by key. -/
def traversal (pages : List (Answer α)) : Traversal α κ :=
  ⟨(lastRow pages).map key, returned pages, isFinished pages⟩

variable (encode) in
/-- The cursor is that of the last row. -/
structure Named (Legal : α → Prop) (pages : List (Answer α)) : Prop where
  cursor : isFinished pages = false → nextCursor pages = (lastRow pages).map encode
  legal : ∀ x ∈ lastRow pages, Legal x

theorem named_nil {Legal : α → Prop} : Named encode Legal [] := ⟨fun _ => rfl, nofun⟩

section Fetch
variable {Legal : α → Prop} {rows : List α} {read : Read ε α}

/-- The page below the last row of the pages so far. -/
theorem ReadsBelow.page (h : ReadsBelow key limit encode Legal rows read)
    (hnamed : Named encode Legal pages) (hopen : isFinished pages = false) :
    read (nextCursor pages) = (read none).map fun _ =>
      answer key limit encode ((traversal key pages).remaining key rows) := by
  rw [hnamed.cursor hopen, h.below _ hnamed.legal]
  unfold traversal Traversal.remaining
  cases lastRow pages with
  | none => rfl
  | some last => rfl

/-- A request is refused only where the first page is. -/
theorem ReadsBelow.accepts (h : ReadsBelow key limit encode Legal rows read)
    (hnamed : Named encode Legal pages) (hopen : isFinished pages = false) {a : Answer α}
    (hfirst : read none = .ok a) : ∃ b, read (nextCursor pages) = .ok b := by
  rw [h.page hnamed hopen, hfirst]
  exact ⟨_, rfl⟩

theorem traversal_append (hlimit : 1 ≤ limit) (rows : List α) :
    traversal key (pages ++ [answer key limit encode ((traversal key pages).remaining key rows)]) =
      (traversal key pages).fetch key limit rows := by
  obtain ⟨left, hleft⟩ : ∃ left, left = (traversal key pages).remaining key rows := ⟨_, rfl⟩
  unfold Traversal.fetch
  rw [← hleft]
  have hdone : (answer key limit encode left).next.isNone = !(Keyset.page key limit left).more := by
    simp only [answer]
    cases hmore : (Keyset.page key limit left).more with
    | false => rfl
    | true =>
      rw [if_pos rfl, List.getLast?_eq_some_getLast (page_ne_nil hlimit hmore)]
      rfl
  simp only [traversal, lastRow, lastAnswer, returned, isFinished, List.getLast?_concat, Option.bind_some,
    Option.any_some, hdone, List.flatMap_append, List.flatMap_singleton]
  rfl

theorem named_append (hlegal : ∀ x ∈ rows, Legal x) :
    Named encode Legal (pages ++ [answer key limit encode rows]) := by
  constructor
  · intro hopen
    simp only [isFinished, nextCursor, lastRow, lastAnswer, List.getLast?_concat, Option.any_some,
      Option.bind_some, answer] at hopen ⊢
    split_ifs with hmore
    · rfl
    · simp [hmore] at hopen
  · intro x hx
    rw [lastRow, lastAnswer, List.getLast?_concat, Option.bind_some] at hx
    exact hlegal x (mem_of_mem_page (List.mem_of_getLast? hx))

/-- Either nothing is read, or a page by key. -/
theorem ReadsBelow.fetch (hlimit : 1 ≤ limit) (h : ReadsBelow key limit encode Legal rows read)
    (hnamed : Named encode Legal pages) :
    Named encode Legal (fetchPage pages read) ∧
      (fetchPage pages read = pages ∨ isFinished pages = false ∧
        traversal key (fetchPage pages read) = (traversal key pages).fetch key limit rows) := by
  unfold fetchPage
  split_ifs with hdone
  · exact ⟨hnamed, Or.inl rfl⟩
  · have hopen : isFinished pages = false := Bool.not_eq_true _ ▸ hdone
    rw [h.page hnamed hopen]
    cases read none with
    | error e => exact ⟨hnamed, Or.inl rfl⟩
    | ok a =>
      refine ⟨named_append fun x hx => h.legal x (List.mem_filter.mp hx).1, Or.inr ⟨hopen, ?_⟩⟩
      exact traversal_append hlimit rows

end Fetch

section Follow
variable {Legal : α → Prop} {rows : σ → List α} {read : σ → Read ε α}

/-- What every fetch keeps, the pages at the end have. -/
theorem followPages_invariant (I : List (Answer α) → Prop) {states : List σ} (hstart : I [])
    (hstep : ∀ s ∈ states, ∀ pages, I pages → I (fetchPage pages (read s))) :
    I (followPages read states) := by
  unfold followPages
  generalize hpages : ([] : List (Answer α)) = pages at hstart
  clear hpages
  induction states generalizing pages with
  | nil => exact hstart
  | cons s states ih =>
    obtain ⟨hs, hstates⟩ := List.forall_mem_cons.mp hstep
    exact ih hstates _ (hs pages hstart)

/-- The cursor of the pages so far is accepted wherever a first page can be read. -/
theorem followPages_named (hlimit : 1 ≤ limit) {states : List σ}
    (h : ∀ s, ReadsBelow key limit encode Legal (rows s) (read s)) :
    Named encode Legal (followPages read states) :=
  followPages_invariant _ named_nil fun s _ _ hnamed => ((h s).fetch hlimit hnamed).1

theorem followPages_descends (hlimit : 1 ≤ limit)
    (h : ∀ s, ReadsBelow key limit encode Legal (rows s) (read s)) (states : List σ) :
    (returned (followPages read states)).Pairwise fun a b => key b < key a := by
  have hrun := @followPages_invariant _ _ _ read
    (fun pages => Named encode Legal pages ∧ (traversal key pages).Descends key) states
    ⟨named_nil, Traversal.start_descends⟩ ?_
  · exact hrun.2.pairwise
  · rintro s - pages ⟨hnamed, hdescends⟩
    obtain ⟨hnext, heq | ⟨hopen, heq⟩⟩ := (h s).fetch hlimit hnamed
    · exact ⟨hnext, by rwa [heq]⟩
    · exact ⟨hnext, heq ▸ hdescends.fetch hlimit (h s).distinct hopen⟩

theorem followPages_returnsOnce (hlimit : 1 ≤ limit)
    (h : ∀ s, ReadsBelow key limit encode Legal (rows s) (read s)) {p : α → Bool} {x : α}
    {states : List σ}
    (hx : p x = true) (hmem : ∀ s ∈ states, x ∈ rows s)
    (honly : ∀ s ∈ states, ∀ y ∈ rows s, p y = true → y = x)
    (hend : isFinished (followPages read states) = true) :
    (returned (followPages read states)).filter p = [x] := by
  have hrun := @followPages_invariant _ _ _ read
    (fun pages => Named encode Legal pages ∧ (traversal key pages).ReturnsOnce key p x) states
    ⟨named_nil, Traversal.start_returnsOnce p x⟩ ?_
  · exact hrun.2.1 (Or.inl hend)
  · rintro s hs pages ⟨hnamed, honce⟩
    obtain ⟨hnext, heq | ⟨hopen, heq⟩⟩ := (h s).fetch hlimit hnamed
    · exact ⟨hnext, by rwa [heq]⟩
    · exact ⟨hnext, heq ▸ honce.fetch hlimit (h s).distinct.nodup (h s).distinct.inj (hmem s hs) hx
        (honly s hs) hopen⟩

theorem followPages_replicate_succ (n : ℕ) (s : σ) :
    followPages read (List.replicate (n + 1) s) =
      fetchPage (followPages read (List.replicate n s)) (read s) := by
  simp [followPages, List.replicate_succ']

/-- Every page but the last takes rows from those that are left. -/
theorem followPages_left (hlimit : 1 ≤ limit) {s : σ}
    (h : ReadsBelow key limit encode Legal (rows s) (read s)) {a : Answer α}
    (hread : read s none = .ok a) (n : ℕ) :
    Named encode Legal (followPages read (List.replicate n s)) ∧
      (isFinished (followPages read (List.replicate n s)) = false →
        ((traversal key (followPages read (List.replicate n s))).remaining key (rows s)).length + n ≤
          (rows s).length) := by
  induction n with
  | zero => exact ⟨named_nil, fun _ => List.length_filter_le _ _⟩
  | succ n ih =>
    obtain ⟨hnamed, hleft⟩ := ih
    rw [followPages_replicate_succ]
    obtain ⟨pages, hpages⟩ : ∃ pages, pages = followPages read (List.replicate n s) := ⟨_, rfl⟩
    rw [← hpages] at hnamed hleft ⊢
    refine ⟨(h.fetch hlimit hnamed).1, fun hopen => ?_⟩
    rcases (h.fetch hlimit hnamed).2 with hsame | ⟨hbefore, heq⟩
    · rw [hsame] at hopen
      obtain ⟨b, hb⟩ := h.accepts hnamed hopen hread
      rw [fetchPage, if_neg (by simp [hopen]), hb] at hsame
      exact absurd hsame (by simp)
    · have hlt := Traversal.remaining_fetch_lt key hlimit h.distinct
        (t := traversal key pages) (by rw [← heq]; exact hopen)
      have hpast := hleft hbefore
      rw [heq]
      omega

/-- While the rows stay as they are, the last page is reached. -/
theorem followPages_finishes (hlimit : 1 ≤ limit) {s : σ}
    (h : ReadsBelow key limit encode Legal (rows s) (read s)) {a : Answer α}
    (hread : read s none = .ok a) {n : ℕ} (hn : (rows s).length < n) :
    isFinished (followPages read (List.replicate n s)) = true := by
  by_contra hopen
  have hleft := (followPages_left hlimit h hread n).2 (Bool.not_eq_true _ ▸ hopen)
  omega

end Follow
end Complete
end Keyset
