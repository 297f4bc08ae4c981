import Mathlib

/-!
# Finite maps

Mathlib's association lists serve as finite maps. What is added here is how a
binding of a changed map comes about, the sum of a measure over all values, with
the laws that keep a running total exact through insertion and removal of a key,
and the pointwise image of a map.
-/

namespace Spinfoam.Std

universe u v w

/-- A finite map, as an association list with distinct keys. -/
abbrev Map (K : Type u) (V : Type v) := AList fun _ : K => V

namespace Map

variable {K : Type u} {V : Type v} {W : Type w}

section Bindings

variable [DecidableEq K] {entries : Map K V} {key other : K} {value current : V}

/-- A binding after an insertion is the new one or an old one of another key. -/
theorem lookup_insert_eq_some (found : (entries.insert key value).lookup other = some current) :
    other = key ∧ current = value ∨ other ≠ key ∧ entries.lookup other = some current := by
  by_cases same : other = key
  · subst same
    rw [AList.lookup_insert, Option.some.injEq] at found
    exact Or.inl ⟨rfl, found.symm⟩
  · rw [AList.lookup_insert_ne same] at found
    exact Or.inr ⟨same, found⟩

/-- A binding after a removal is an old one of another key. -/
theorem lookup_erase_eq_some (found : (entries.erase key).lookup other = some current) :
    other ≠ key ∧ entries.lookup other = some current := by
  by_cases same : other = key
  · subst same
    rw [AList.lookup_erase] at found
    cases found
  · rw [AList.lookup_erase_ne same] at found
    exact ⟨same, found⟩

/-- A bound key is a member. -/
theorem mem_of_lookup (found : entries.lookup key = some value) : key ∈ entries :=
  AList.lookup_isSome.mp (by simp [found])

omit [DecidableEq K] in
/-- A map without members is empty. -/
theorem eq_empty (absent : ∀ key, key ∉ entries) : entries = ∅ := by
  apply AList.ext
  cases listed : entries.entries with
  | nil => rfl
  | cons binding rest =>
    have bound : binding.1 ∈ entries.keys := by
      rw [AList.keys, listed]
      exact List.mem_cons_self
    exact absurd (AList.mem_keys.mpr bound) (absent binding.1)

/-- Insertion adds at most one binding. -/
theorem length_insert_le (entries : Map K V) (key : K) (value : V) :
    (entries.insert key value).entries.length ≤ entries.entries.length + 1 := by
  rw [AList.entries_insert, List.length_cons]
  exact Nat.succ_le_succ (List.kerase_sublist key entries.entries).length_le

/-- Insertion at a bound key replaces its binding. -/
theorem length_insert_of_mem (bound : key ∈ entries) (value : V) :
    (entries.insert key value).entries.length = entries.entries.length := by
  obtain ⟨old, front, back, -, split, erased⟩ := List.exists_of_kerase (AList.mem_keys.mp bound)
  rw [AList.entries_insert, erased, split]
  simp only [List.length_cons, List.length_append]
  omega

theorem length_erase_le (entries : Map K V) (key : K) :
    (entries.erase key).entries.length ≤ entries.entries.length :=
  (List.kerase_sublist key entries.entries).length_le

/-- Removal of a bound key takes one binding away. -/
theorem length_erase_of_mem (bound : key ∈ entries) :
    (entries.erase key).entries.length + 1 = entries.entries.length := by
  obtain ⟨old, front, back, -, split, erased⟩ := List.exists_of_kerase (AList.mem_keys.mp bound)
  have removed : (entries.erase key).entries = front ++ back := erased
  rw [removed, split]
  simp only [List.length_append, List.length_cons]
  omega

/-- Insert bindings one after the other; later ones win. -/
def insertAll (entries : Map K V) : List (K × V) → Map K V
  | [] => entries
  | (key, value) :: rest => insertAll (entries.insert key value) rest

end Bindings

section Weight

variable {M : Type w} [AddCommMonoid M] (measure : V → M)

/-- The sum of a measure over the values of a map. -/
def weight (entries : Map K V) : M :=
  (entries.entries.map fun entry => measure entry.2).sum

@[simp] theorem weight_empty : weight measure (∅ : Map K V) = 0 := rfl

variable [DecidableEq K]

private theorem weight_kerase {entries : List (Sigma fun _ : K => V)} {key : K} {value : V}
    (found : entries.dlookup key = some value) :
    (entries.map fun entry => measure entry.2).sum =
      measure value + ((entries.kerase key).map fun entry => measure entry.2).sum := by
  induction entries with
  | nil => cases found
  | cons entry rest ih =>
    obtain ⟨other, current⟩ := entry
    by_cases same : key = other
    · subst same
      simp only [List.dlookup_cons_eq, Option.some.injEq] at found
      subst found
      simp
    · rw [List.dlookup_cons_ne _ _ same] at found
      rw [List.kerase_cons_ne same]
      simp only [List.map_cons, List.sum_cons, ih found]
      exact add_left_comm _ _ _

/-- Removing a bound key takes exactly its value out of the sum. -/
theorem weight_erase {entries : Map K V} {key : K} {value : V}
    (found : entries.lookup key = some value) :
    weight measure entries = measure value + weight measure (entries.erase key) :=
  weight_kerase measure found

/-- Removing an unbound key changes nothing. -/
theorem erase_of_lookup_none {entries : Map K V} {key : K}
    (absent : entries.lookup key = none) : entries.erase key = entries := by
  apply AList.ext
  exact List.kerase_of_notMem_keys (AList.lookup_eq_none.mp absent)

/-- Binding a key adds its value to what is left without the key. -/
theorem weight_insert (entries : Map K V) (key : K) (value : V) :
    weight measure (entries.insert key value) =
      measure value + weight measure (entries.erase key) := by
  simp [weight, AList.entries_insert, AList.erase]

/-- The sum over a map is at least the number of keys whose values count. -/
theorem length_le_weight (measure : V → Nat) {entries : Map K V} {keys : List K}
    (distinct : keys.Nodup)
    (each : ∀ key ∈ keys, ∃ value, entries.lookup key = some value ∧ 0 < measure value) :
    keys.length ≤ weight measure entries := by
  induction keys generalizing entries with
  | nil => exact Nat.zero_le _
  | cons key rest ih =>
    obtain ⟨new, distinct⟩ := List.nodup_cons.mp distinct
    obtain ⟨value, found, counts⟩ := each key List.mem_cons_self
    have others : rest.length ≤ weight measure (entries.erase key) := by
      refine ih distinct fun other member => ?_
      obtain ⟨current, stored, more⟩ := each other (List.mem_cons_of_mem _ member)
      have different : other ≠ key := fun same => new (same ▸ member)
      exact ⟨current, (AList.lookup_erase_ne different).trans stored, more⟩
    rw [weight_erase measure found, List.length_cons]
    omega

end Weight

section Image

variable (image : V → W)

/-- Apply a function to every value of a map. -/
def mapValues (entries : Map K V) : Map K W where
  entries := entries.entries.map fun entry => ⟨entry.1, image entry.2⟩
  nodupKeys := by
    have distinct := entries.nodupKeys
    simpa [List.NodupKeys, List.keys, List.map_map, Function.comp_def] using distinct

variable [DecidableEq K]

@[simp] theorem lookup_mapValues (entries : Map K V) (key : K) :
    (mapValues image entries).lookup key = (entries.lookup key).map image := by
  obtain ⟨list, distinct⟩ := entries
  simp only [AList.lookup, mapValues]
  clear distinct
  induction list with
  | nil => rfl
  | cons entry rest ih =>
    obtain ⟨other, value⟩ := entry
    by_cases same : key = other
    · subst same
      simp
    · have mapped := List.dlookup_cons_ne (rest.map fun entry => ⟨entry.1, image entry.2⟩)
        (⟨other, image value⟩ : Sigma fun _ : K => W) same
      have original := List.dlookup_cons_ne rest (⟨other, value⟩ : Sigma fun _ : K => V) same
      rw [List.map_cons, mapped, original, ih]

end Image

end Map

end Spinfoam.Std
