import Spinfoam.Outbox.Queues
import Spinfoam.Std.Segments

/-!
# Input framing

`frame` collects the bytes of one frame from a buffered reader. A turn of its
loop takes what the reader has buffered, up to the first newline.
-/

namespace Spinfoam.Serve

open Spinfoam.Outbox Spinfoam.Std

def newline : UInt8 := 10

def isNewline (byte : UInt8) : Bool := byte == newline

/-- Bytes without a newline do not end a frame. -/
theorem isNewline_eq_false {bytes : List UInt8} (inner : newline ∉ bytes) :
    ∀ byte ∈ bytes, isNewline byte = false := by
  intro byte member
  rw [isNewline, beq_eq_false_iff_ne]
  rintro rfl
  exact inner member

/-- What a turn of the loop comes to. The bytes beside the frame stay buffered. -/
inductive Progress where
  | more (frame rest : List UInt8)
  | framed (frame rest : List UInt8)
  | eof
  | failed (error : String)
deriving DecidableEq

/-- A turn of the loop of `frame`, with the bytes that `fill_buf` returned. -/
def frameTurn (frame bytes : List UInt8) : Progress :=
  if bytes = [] then
    if frame = [] then .eof else .failed "EOF inside JSON frame"
  else
    let ending := (bytes.findIdx? (· == newline)).map (· + 1)
    let count := ending.getD bytes.length
    if frame.length + count > maxFrame then .failed "frame exceeds limit"
    else if ending.isSome then .framed (frame ++ bytes.take count) (bytes.drop count)
    else .more (frame ++ bytes.take count) (bytes.drop count)

/-- The ways in which a turn can come out. -/
inductive Turned (frame : List UInt8) : List UInt8 → Progress → Prop where
  | eof (empty : frame = []) : Turned frame [] .eof
  | cut (begun : frame ≠ []) : Turned frame [] (.failed "EOF inside JSON frame")
  | tooLong {bytes : List UInt8} (filled : bytes ≠ [])
      (long : maxFrame < frame.length + bytes.length)
      (far : newline ∉ bytes.take (maxFrame - frame.length)) :
      Turned frame bytes (.failed "frame exceeds limit")
  | more {bytes : List UInt8} (filled : bytes ≠ []) (inner : newline ∉ bytes)
      (fits : frame.length + bytes.length ≤ maxFrame) :
      Turned frame bytes (.more (frame ++ bytes) [])
  | framed (front rest : List UInt8) (inner : newline ∉ front)
      (fits : frame.length + front.length + 1 ≤ maxFrame) :
      Turned frame (front ++ newline :: rest) (.framed (frame ++ (front ++ [newline])) rest)

/-- Every turn of `frame` comes out in one of these ways. -/
theorem frameTurn_spec (frame bytes : List UInt8) : Turned frame bytes (frameTurn frame bytes) := by
  unfold frameTurn
  by_cases empty : bytes = []
  · subst empty
    by_cases begun : frame = []
    · simpa [begun] using Turned.eof begun
    · simpa [begun] using Turned.cut begun
  · rw [if_neg empty]
    cases found : bytes.findIdx? (· == newline) with
    | none =>
      have inner : newline ∉ bytes := by
        intro member
        have other := List.findIdx?_eq_none_iff.mp found newline member
        simp at other
      simp only [Option.map_none, Option.getD_none, Option.isSome_none, Bool.false_eq_true,
        if_false, List.take_length, List.drop_length]
      split_ifs with long
      · exact .tooLong empty long fun early => inner (List.mem_of_mem_take early)
      · exact .more empty inner (not_lt.mp long)
    | some index =>
      obtain ⟨bound, here, before⟩ := List.findIdx?_eq_some_iff_getElem.mp found
      have split : bytes = bytes.take index ++ newline :: bytes.drop (index + 1) := by
        have mark : bytes[index] = newline := by simpa using here
        rw [← mark, List.cons_getElem_drop_succ, List.take_append_drop]
      have length : (bytes.take index).length = index := by
        rw [List.length_take]
        omega
      have inner : newline ∉ bytes.take index := by
        intro member
        obtain ⟨position, inside, same⟩ := List.mem_take_iff_getElem.mp member
        have other := before position (by omega)
        simp [same] at other
      have front : bytes.take (index + 1) = bytes.take index ++ [newline] := by
        have mark : bytes[index] = newline := by simpa using here
        rw [List.take_succ_eq_append_getElem bound, mark]
      simp only [Option.map_some, Option.getD_some, Option.isSome_some, if_true]
      split_ifs with long
      · refine .tooLong empty (by omega) fun early => inner ?_
        exact (List.take_prefix_take_left (by omega)).subset early
      · have outcome := @Turned.framed frame (bytes.take index) (bytes.drop (index + 1)) inner
          (by omega)
        rwa [← split, ← front] at outcome

end Spinfoam.Serve
