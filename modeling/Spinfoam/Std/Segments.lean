import Mathlib

/-!
# Segments

A list is cut behind every item that ends a segment. What follows the last such
item is the piece that is still open.
-/

namespace Spinfoam.Std

universe u

variable {α : Type u} (ends : α → Bool)

/-- Cut a list, with a piece that is already open in front of it: the closed
segments, and the piece that is open at its end. -/
def cut : List α → List α → List (List α) × List α
  | piece, [] => ([], piece)
  | piece, item :: rest =>
    if ends item then ((piece ++ [item]) :: (cut [] rest).1, (cut [] rest).2)
    else cut (piece ++ [item]) rest

/-- The closed segments of a list. -/
def segments (items : List α) : List (List α) := (cut ends [] items).1

/-- What follows the last closed segment. -/
def unfinished (items : List α) : List α := (cut ends [] items).2

variable {ends}

/-- A list can be cut in two parts. -/
theorem cut_append (piece front back : List α) :
    cut ends piece (front ++ back) =
      ((cut ends piece front).1 ++ (cut ends (cut ends piece front).2 back).1,
        (cut ends (cut ends piece front).2 back).2) := by
  induction front generalizing piece with
  | nil => simp [cut]
  | cons item rest ih =>
    rw [List.cons_append, cut, cut]
    split_ifs
    · simp [ih]
    · exact ih _

/-- Nothing is lost between the segments. -/
theorem flatten_cut (piece items : List α) :
    (cut ends piece items).1.flatten ++ (cut ends piece items).2 = piece ++ items := by
  induction items generalizing piece with
  | nil => simp [cut]
  | cons item rest ih =>
    rw [cut]
    split_ifs
    · simp [ih]
    · simp [ih]

/-- Without an end the open piece grows. -/
theorem cut_open {piece items : List α} (inner : ∀ item ∈ items, ends item = false) :
    cut ends piece items = ([], piece ++ items) := by
  induction items generalizing piece with
  | nil => simp [cut]
  | cons item rest ih =>
    have first : ends item = false := inner item List.mem_cons_self
    rw [cut, if_neg (by simp [first]), ih fun other member => inner other (List.mem_cons_of_mem _ member)]
    simp

/-- The first end closes the open piece. -/
theorem cut_closed {piece items : List α} {last : α} (inner : ∀ item ∈ items, ends item = false)
    (closes : ends last = true) :
    cut ends piece (items ++ [last]) = ([piece ++ items ++ [last]], []) := by
  rw [cut_append, cut_open inner]
  simp [cut, closes]

/-- The first segment, and what comes behind it. -/
theorem cut_first {front rest : List α} {last : α} (inner : ∀ item ∈ front, ends item = false)
    (closes : ends last = true) :
    segments ends (front ++ last :: rest) = (front ++ [last]) :: segments ends rest ∧
      unfinished ends (front ++ last :: rest) = unfinished ends rest := by
  have first : cut ends [] (front ++ [last]) = ([front ++ [last]], []) := cut_closed inner closes
  have split : front ++ last :: rest = front ++ [last] ++ rest := by simp
  constructor
  · rw [segments, split, cut_append, first]
    rfl
  · rw [unfinished, split, cut_append, first]
    rfl

/-- A piece that is closed by its last item, and by no other. -/
def Closed (ends : α → Bool) (piece : List α) : Prop :=
  ∃ front last, piece = front ++ [last] ∧ (∀ item ∈ front, ends item = false) ∧ ends last = true

/-- Closed pieces one after the other, and an open one behind them, are what they are
cut into. -/
theorem segments_flatten {pieces : List (List α)} {tail : List α}
    (closed : ∀ piece ∈ pieces, Closed ends piece) (inner : ∀ item ∈ tail, ends item = false) :
    segments ends (pieces.flatten ++ tail) = pieces ∧
      unfinished ends (pieces.flatten ++ tail) = tail := by
  induction pieces with
  | nil => simp [segments, unfinished, cut_open inner]
  | cons piece rest ih =>
    obtain ⟨front, last, rfl, before, closes⟩ := closed piece List.mem_cons_self
    obtain ⟨cuts, remains⟩ := ih fun other member => closed other (List.mem_cons_of_mem _ member)
    have split : ((front ++ [last]) :: rest).flatten ++ tail =
        front ++ last :: (rest.flatten ++ tail) := by simp
    obtain ⟨first, behind⟩ := @cut_first _ _ front (rest.flatten ++ tail) last before closes
    rw [split, first, behind, cuts, remains]
    exact ⟨rfl, rfl⟩

end Spinfoam.Std
