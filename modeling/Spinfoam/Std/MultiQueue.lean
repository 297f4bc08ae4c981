import Spinfoam.Std.Map

/-!
# Keyed queues

A finite map of lists in which a missing key and an empty queue mean the same:
`put` removes a key together with its last item. `Compact` says that no empty
queue is stored, and then the bound keys are exactly the keys with items.
-/

namespace Spinfoam.Std

universe u v w

/-- One queue for each key. -/
abbrev MultiQueue (K : Type u) (V : Type v) := Map K (List V)

namespace MultiQueue

variable {K : Type u} {V : Type v} [DecidableEq K]

/-- The items queued for a key. -/
def queue (queues : MultiQueue K V) (key : K) : List V := (queues.lookup key).getD []

/-- Write back the queue of a key, dropping the key when nothing is left. -/
def put (queues : MultiQueue K V) (key : K) (items : List V) : MultiQueue K V :=
  if items = [] then queues.erase key else queues.insert key items

/-- No stored queue is empty. -/
def Compact (queues : MultiQueue K V) : Prop :=
  ∀ key items, queues.lookup key = some items → items ≠ []

@[simp] theorem queue_empty (key : K) : queue (∅ : MultiQueue K V) key = [] := rfl

/-- The queue of a bound key. -/
theorem queue_of_lookup {queues : MultiQueue K V} {key : K} {items : List V}
    (found : queues.lookup key = some items) : queues.queue key = items := by
  simp [queue, found]

@[simp] theorem queue_put_self (queues : MultiQueue K V) (key : K) (items : List V) :
    (queues.put key items).queue key = items := by
  unfold put
  split_ifs with empty
  · simp [queue, empty]
  · simp [queue]

/-- Putting one queue leaves the others alone. -/
theorem queue_put_ne (queues : MultiQueue K V) {key other : K} (items : List V)
    (different : other ≠ key) : (queues.put key items).queue other = queues.queue other := by
  unfold put
  split_ifs
  · simp [queue, AList.lookup_erase_ne different]
  · simp [queue, AList.lookup_insert_ne different]

/-- The queues when one of them has been put. -/
theorem queue_put (queues : MultiQueue K V) (key other : K) (items : List V) :
    (queues.put key items).queue other = if other = key then items else queues.queue other := by
  split_ifs with same
  · rw [same, queue_put_self]
  · exact queue_put_ne queues items same

/-- No queue of the empty map is empty. -/
theorem compact_empty : Compact (∅ : MultiQueue K V) := by
  intro key items found
  cases found

/-- `put` never stores an empty queue. -/
theorem Compact.put {queues : MultiQueue K V} (compact : queues.Compact) (key : K)
    (items : List V) : (queues.put key items).Compact := by
  intro other found lookup
  unfold MultiQueue.put at lookup
  split_ifs at lookup with empty
  · by_cases same : other = key
    · rw [same, AList.lookup_erase] at lookup
      cases lookup
    · exact compact other found (by rwa [AList.lookup_erase_ne same] at lookup)
  · by_cases same : other = key
    · subst same
      rw [AList.lookup_insert, Option.some.injEq] at lookup
      exact lookup ▸ empty
    · exact compact other found (by rwa [AList.lookup_insert_ne same] at lookup)

/-- In a compact family a key is bound exactly when it has items. -/
theorem Compact.mem_iff {queues : MultiQueue K V} (compact : queues.Compact) (key : K) :
    key ∈ queues ↔ queues.queue key ≠ [] := by
  constructor
  · intro member
    obtain ⟨items, found⟩ := Option.isSome_iff_exists.mp (AList.lookup_isSome.mpr member)
    rw [queue_of_lookup found]
    exact compact key items found
  · intro nonempty
    by_contra absent
    exact nonempty (by simp [queue, AList.lookup_eq_none.mpr absent])

/-- A bound key of a compact family and its items. -/
theorem Compact.lookup_of_mem {queues : MultiQueue K V} (compact : queues.Compact) {key : K}
    (member : key ∈ queues) :
    ∃ first rest, queues.lookup key = some (first :: rest) := by
  obtain ⟨items, found⟩ := Option.isSome_iff_exists.mp (AList.lookup_isSome.mpr member)
  cases items with
  | nil => exact absurd rfl (compact key [] found)
  | cons first rest => exact ⟨first, rest, found⟩

section Weight

variable {M : Type w} [AddCommMonoid M] {measure : List V → M}

/-- Splitting off one queue from a sum over all of them. -/
theorem weight_split (measureNil : measure [] = 0) (queues : MultiQueue K V) (key : K) :
    Map.weight measure queues =
      measure (queues.queue key) + Map.weight measure (queues.erase key) := by
  cases found : queues.lookup key with
  | none => rw [Map.erase_of_lookup_none found, queue, found, Option.getD_none, measureNil, zero_add]
  | some items => rw [Map.weight_erase measure found, queue_of_lookup found]

/-- The weight when one queue has been put. -/
theorem weight_put (measureNil : measure [] = 0) (queues : MultiQueue K V) (key : K)
    (items : List V) :
    Map.weight measure (queues.put key items) =
      measure items + Map.weight measure (queues.erase key) := by
  unfold put
  split_ifs with empty
  · rw [empty, measureNil, zero_add]
  · exact Map.weight_insert measure queues key items

/-- Rewriting one queue exchanges its old measure for the new one. -/
theorem weight_put_add (measureNil : measure [] = 0) (queues : MultiQueue K V) (key : K)
    (items : List V) :
    Map.weight measure (queues.put key items) + measure (queues.queue key) =
      Map.weight measure queues + measure items := by
  rw [weight_put measureNil, weight_split measureNil queues key]
  abel

/-- The sum over all queues bounds the measure of each. -/
theorem le_weight {measure : List V → Nat} (measureNil : measure [] = 0)
    (queues : MultiQueue K V) (key : K) :
    measure (queues.queue key) ≤ Map.weight measure queues := by
  rw [weight_split measureNil queues key]
  exact Nat.le_add_right _ _

end Weight

end MultiQueue

end Spinfoam.Std
