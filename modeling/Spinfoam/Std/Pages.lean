import Mathlib

/-!
# Paging through a set that changes

The keys of a set in a linear order are read page by page: the least keys beyond a
cursor, up to a limit, and the last of them as the next cursor, if any are left.
The set may change between two pages.
-/

namespace Spinfoam.Std

universe u

variable {α : Type u} [LinearOrder α]

/-- A cursor has not reached the key. -/
def Beyond (cursor : Option α) (key : α) : Prop := ∀ last ∈ cursor, last < key

/-- The first keys of those in order, and where to go on if there are more. -/
def firstPage (limit : Nat) (keys : List α) : List α × Option α :=
  (keys.take limit, if (keys.drop limit).isEmpty then none else (keys.take limit).getLast?)

/-- What a page says about the keys at its moment. -/
structure Page (keys : Set α) (cursor : Option α) (page : List α) (next : Option α) : Prop where
  sorted : page.Pairwise (· < ·)
  listed : ∀ key ∈ page, key ∈ keys ∧ Beyond cursor key
  /-- A page leaves out only what the next cursor has not reached. -/
  covers : ∀ key ∈ keys, Beyond cursor key → key ∈ page ∨ ∃ last ∈ next, last < key
  /-- The next cursor is the last key of its page, and there is another key. -/
  more : ∀ last ∈ next, last ∈ page ∧ (∀ key ∈ page, key ≤ last) ∧ ∃ key ∈ keys, last < key

/-- What has been read up to a cursor, over all pages. -/
structure Walked (read : List α) (cursor : Option α) : Prop where
  sorted : read.Pairwise (· < ·)
  passed : ∀ key ∈ read, ∃ last ∈ cursor, key ≤ last

variable {keys : Set α} {cursor next : Option α} {page read : List α}

/-- The first keys of those beyond a cursor are a page. -/
theorem page_firstPage {items : List α} {limit : Nat} (positive : 0 < limit)
    (sorted : items.Pairwise (· < ·))
    (exact : ∀ key, key ∈ items ↔ key ∈ keys ∧ Beyond cursor key) :
    Page keys cursor (firstPage limit items).1 (firstPage limit items).2 := by
  have parts : items.take limit ++ items.drop limit = items := List.take_append_drop limit items
  have across := sorted
  rw [← parts] at across
  obtain ⟨front, -, apart⟩ := List.pairwise_append.mp across
  constructor
  case sorted => exact front
  case listed => exact fun key member => (exact key).mp (List.mem_of_mem_take member)
  case covers =>
    intro key member beyond
    have item := (exact key).mpr ⟨member, beyond⟩
    rw [← parts] at item
    rcases List.mem_append.mp item with early | late
    · exact Or.inl early
    · right
      have full : items.take limit ≠ [] := by
        rw [Ne, List.take_eq_nil_iff]
        rintro (zero | rfl)
        · exact positive.ne' zero
        · simp at late
      refine ⟨(items.take limit).getLast full, ?_, apart _ (List.getLast_mem full) key late⟩
      rw [firstPage, if_neg (by simpa using List.ne_nil_of_mem late)]
      exact List.getLast?_eq_some_getLast full
  case more =>
    intro last chosen
    rw [firstPage] at chosen ⊢
    split_ifs at chosen with rest
    · cases chosen
    · obtain ⟨before, same⟩ := List.getLast?_eq_some_iff.mp chosen
      refine ⟨by simp [same], ?_, ?_⟩
      · intro key member
        rw [same] at member front
        rcases List.mem_append.mp member with early | final
        · exact ((List.pairwise_append.mp front).2.2 key early last List.mem_cons_self).le
        · rw [List.mem_singleton.mp final]
      · obtain ⟨key, late⟩ := List.exists_mem_of_ne_nil _ (mt List.isEmpty_iff.mpr rest)
        exact ⟨key, ((exact key).mp (List.mem_of_mem_drop late)).1,
          apart last (by simp [same]) key late⟩

theorem walked_nil : Walked ([] : List α) cursor := ⟨.nil, by simp⟩

/-- Pages follow one another in order. -/
theorem Walked.sorted_append (walked : Walked read cursor) (turned : Page keys cursor page next) :
    (read ++ page).Pairwise (· < ·) := by
  refine List.pairwise_append.mpr ⟨walked.sorted, turned.sorted, ?_⟩
  intro key old other new
  obtain ⟨last, reached, below⟩ := walked.passed key old
  exact lt_of_le_of_lt below ((turned.listed other new).2 last reached)

/-- Everything read lies up to the next cursor. -/
theorem Walked.turn {last : α} (walked : Walked read cursor)
    (turned : Page keys cursor page (some last)) : Walked (read ++ page) (some last) := by
  obtain ⟨final, highest, -⟩ := turned.more last rfl
  refine ⟨walked.sorted_append turned, ?_⟩
  intro key member
  refine ⟨last, rfl, ?_⟩
  rcases List.mem_append.mp member with old | new
  · obtain ⟨before, reached, below⟩ := walked.passed key old
    exact below.trans ((turned.listed last final).2 before reached).le
  · exact highest key new

/-- A page that names a next cursor is not empty. -/
theorem Page.ne_nil {last : α} (turned : Page keys cursor page (some last)) : page ≠ [] :=
  List.ne_nil_of_mem (turned.more last rfl).1

end Spinfoam.Std
