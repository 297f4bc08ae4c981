import Spinfoam.Error

/-!
# Cuts at a character boundary

The backward scan from an index stops at the last boundary at or below it, so
that what is kept is the longest start of the text that fits.
-/

namespace Spinfoam

open String (utf8Len)

section Cuts

variable {chars : List Char}

/-- What is kept is a start of the text. -/
theorem takeBytes_isPrefix (chars : List Char) (bytes : Nat) : takeBytes chars bytes <+: chars := by
  induction chars generalizing bytes with
  | nil => exact List.nil_prefix
  | cons char rest ih =>
    rw [takeBytes]
    split_ifs
    · exact List.cons_prefix_cons.mpr ⟨rfl, ih _⟩
    · exact List.nil_prefix

/-- What is kept fits. -/
theorem utf8Len_takeBytes_le (chars : List Char) (bytes : Nat) :
    utf8Len (takeBytes chars bytes) ≤ bytes := by
  induction chars generalizing bytes with
  | nil => exact Nat.zero_le _
  | cons char rest ih =>
    rw [takeBytes]
    split_ifs with fits
    · have later := ih (bytes - char.utf8Size)
      rw [String.utf8Len_cons]
      omega
    · exact Nat.zero_le _

/-- A text that fits is kept whole. -/
theorem takeBytes_of_le {bytes : Nat} (fits : utf8Len chars ≤ bytes) :
    takeBytes chars bytes = chars := by
  induction chars generalizing bytes with
  | nil => rfl
  | cons char rest ih =>
    rw [String.utf8Len_cons] at fits
    rw [takeBytes, if_pos (by omega), ih (by omega)]

/-- The character behind what is kept does not fit any more. -/
theorem takeBytes_maximal {bytes : Nat} {next : Char} {rest : List Char}
    (split : chars = takeBytes chars bytes ++ next :: rest) :
    bytes < utf8Len (takeBytes chars bytes) + next.utf8Size := by
  induction chars generalizing bytes with
  | nil => simp [takeBytes] at split
  | cons char later ih =>
    rw [takeBytes] at split ⊢
    split_ifs at split ⊢ with fits
    · have inner := ih (List.cons.inj split).2
      rw [String.utf8Len_cons]
      omega
    · obtain rfl := (List.cons.inj split).1
      rw [String.utf8Len_nil]
      omega

/-- Text that fits is kept before anything behind it. -/
theorem takeBytes_append {front rest : List Char} {bytes : Nat} (fits : utf8Len front ≤ bytes) :
    takeBytes (front ++ rest) bytes = front ++ takeBytes rest (bytes - utf8Len front) := by
  induction front generalizing bytes with
  | nil => simp
  | cons char later ih =>
    rw [String.utf8Len_cons] at fits
    rw [List.cons_append, takeBytes, if_pos (by omega), ih (by omega), String.utf8Len_cons,
      List.cons_append]
    congr 3
    omega

/-- A smaller bound that still holds what is kept changes nothing. -/
theorem takeBytes_eq_takeBytes {low high : Nat} (below : low ≤ high)
    (holds : utf8Len (takeBytes chars high) ≤ low) : takeBytes chars low = takeBytes chars high := by
  induction chars generalizing low high with
  | nil => rfl
  | cons char rest ih =>
    rw [takeBytes] at holds
    rw [takeBytes, takeBytes]
    by_cases fits : char.utf8Size ≤ high
    · rw [if_pos fits, String.utf8Len_cons] at holds
      rw [if_pos fits, if_pos (by omega), @ih (low - char.utf8Size) (high - char.utf8Size)
        (by omega) (by omega)]
    · rw [if_neg fits, if_neg (by omega)]

/-- An index is a boundary when a start of the text ends there. -/
theorem isCharBoundary_iff {index : Nat} :
    isCharBoundary chars index = true ↔ utf8Len (takeBytes chars index) = index := by
  induction chars generalizing index with
  | nil => cases index <;> simp [isCharBoundary, takeBytes]
  | cons char rest ih =>
    have size := char.utf8Size_pos
    cases index with
    | zero =>
      rw [takeBytes, if_neg (by omega)]
      simp [isCharBoundary]
    | succ index =>
      rw [isCharBoundary, takeBytes, Bool.and_eq_true, decide_eq_true_eq, ih]
      split_ifs with fits
      · rw [String.utf8Len_cons]
        omega
      · rw [String.utf8Len_nil]
        omega

/-- The backward scan ends where what fits ends. -/
theorem boundaryBelow_eq (chars : List Char) (index : Nat) :
    boundaryBelow chars index = utf8Len (takeBytes chars index) := by
  induction index with
  | zero =>
    have none := utf8Len_takeBytes_le chars 0
    rw [boundaryBelow]
    omega
  | succ index ih =>
    rw [boundaryBelow]
    split_ifs with boundary
    · exact (isCharBoundary_iff.mp boundary).symm
    · have bound := utf8Len_takeBytes_le chars (index + 1)
      have apart : utf8Len (takeBytes chars (index + 1)) ≠ index + 1 :=
        fun same => boundary (isCharBoundary_iff.mpr same)
      have same := @takeBytes_eq_takeBytes chars index (index + 1) (by omega) (by omega)
      rw [ih, same]

/-- The scan with the checked subtraction of the code, which has no result when
the index underflows. -/
def scanBoundary (chars : List Char) : Nat → Option Nat
  | 0 => if isCharBoundary chars 0 then some 0 else none
  | index + 1 =>
    if isCharBoundary chars (index + 1) then some (index + 1) else scanBoundary chars index

/-- The start of a text is a boundary, so that the scan never underflows. -/
theorem scanBoundary_eq (chars : List Char) (index : Nat) :
    scanBoundary chars index = some (boundaryBelow chars index) := by
  induction index with
  | zero =>
    have start : isCharBoundary chars 0 = true := by cases chars <;> rfl
    rw [scanBoundary, if_pos start, boundaryBelow]
  | succ index ih =>
    rw [scanBoundary, boundaryBelow]
    split_ifs
    · rfl
    · exact ih

/-- To cut at the last boundary at or below an index is to keep what fits. -/
theorem takeBytes_boundaryBelow (chars : List Char) (index : Nat) :
    takeBytes chars (boundaryBelow chars index) = takeBytes chars index := by
  rw [boundaryBelow_eq]
  exact takeBytes_eq_takeBytes (utf8Len_takeBytes_le chars index) (le_refl _)

/-- A start of the text that fits is a start of what is kept. -/
theorem isPrefix_takeBytes {front : List Char} {bytes : Nat} (start : front <+: chars)
    (fits : utf8Len front ≤ bytes) : front <+: takeBytes chars bytes := by
  obtain ⟨rest, rfl⟩ := start
  rw [takeBytes_append fits]
  exact List.prefix_append _ _

end Cuts

/-- What is kept of a text is its longest start of at most so many bytes. A start
of the characters is what ends on a character boundary. -/
structure LongestStart (text kept : String) (bytes : Nat) : Prop where
  start : kept.toList <+: text.toList
  fits : kept.utf8ByteSize ≤ bytes
  longest : ∀ other : String, other.toList <+: text.toList → other.utf8ByteSize ≤ bytes →
    other.toList <+: kept.toList

/-- What the characters that fit spell is the longest start. -/
theorem LongestStart.of_takeBytes {text kept : String} {bytes : Nat}
    (same : kept.toList = takeBytes text.toList bytes) : LongestStart text kept bytes where
  start := by
    rw [same]
    exact takeBytes_isPrefix _ _
  fits := by
    have fits := utf8Len_takeBytes_le text.toList bytes
    rwa [← same, String.utf8Len_toList] at fits
  longest := by
    intro other start fits
    rw [same]
    apply isPrefix_takeBytes start
    rwa [String.utf8Len_toList]

end Spinfoam
