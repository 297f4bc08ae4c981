import Spinfoam.Serve.Framing

/-!
# Frames of a stream

`frame` run to completion, again and again, over a reader that gets the stream
in chunks. What it returns depends on the bytes alone, not on their division.
-/

namespace Spinfoam.Serve

open Spinfoam.Outbox Spinfoam.Std

/-- A buffered reader. `fill_buf` returns the first chunk that has not been
consumed; no chunk is left at the end of the input. -/
structure Reader where
  chunks : List (List UInt8)
  filled : ∀ chunk ∈ chunks, chunk ≠ []

namespace Reader

variable (reader : Reader)

def fillBuf : List UInt8 := reader.chunks.headD []

/-- The reader when all but `rest` of the first chunk has been consumed. -/
def consumed (rest : List UInt8) : Reader where
  chunks := if rest = [] then reader.chunks.tail else rest :: reader.chunks.tail
  filled := by
    intro chunk member
    split_ifs at member with empty
    · exact reader.filled chunk (List.mem_of_mem_tail member)
    · rcases List.mem_cons.mp member with rfl | later
      · exact empty
      · exact reader.filled chunk (List.mem_of_mem_tail later)

/-- The bytes that have not been consumed. -/
def remaining : List UInt8 := reader.chunks.flatten

variable {reader}

/-- What remains when some bytes have been consumed. -/
theorem remaining_consumed (rest : List UInt8) :
    (reader.consumed rest).remaining = rest ++ reader.chunks.tail.flatten := by
  unfold remaining consumed
  split_ifs with empty
  · simp [empty]
  · simp

/-- What is buffered comes first. -/
theorem remaining_eq : reader.remaining = reader.fillBuf ++ reader.chunks.tail.flatten := by
  unfold remaining fillBuf
  cases reader.chunks with
  | nil => simp
  | cons chunk later => simp

/-- The buffer is empty at the end of the input only. -/
theorem remaining_of_fillBuf (empty : reader.fillBuf = []) : reader.remaining = [] := by
  obtain ⟨chunks, filled⟩ := reader
  cases chunks with
  | nil => rfl
  | cons chunk later => exact absurd empty (filled chunk List.mem_cons_self)

/-- A turn that needs more has consumed all that was buffered. -/
theorem consumed_of_more {frame grown rest : List UInt8}
    (turned : frameTurn frame reader.fillBuf = .more grown rest) :
    grown = frame ++ reader.fillBuf ∧ reader.fillBuf ≠ [] ∧
      reader.remaining = reader.fillBuf ++ (reader.consumed rest).remaining := by
  have outcome := frameTurn_spec frame reader.fillBuf
  rw [turned] at outcome
  generalize filling : reader.fillBuf = bytes at outcome
  cases outcome with
  | more filled => exact ⟨rfl, filled, by rw [remaining_consumed, remaining_eq, filling]; rfl⟩

/-- The call of `frame`, from the turn of its loop that finds the given bytes
collected: what it returns, and the reader behind it. -/
def collect (reader : Reader) (frame : List UInt8) :
    Except String (Option (List UInt8)) × Reader :=
  match _turned : frameTurn frame reader.fillBuf with
  | .more grown rest => collect (reader.consumed rest) grown
  | .framed grown rest => (.ok (some grown), reader.consumed rest)
  | .eof => (.ok none, reader)
  | .failed error => (.error error, reader)
termination_by reader.remaining.length
decreasing_by
  obtain ⟨-, filled, split⟩ := consumed_of_more _turned
  have positive := List.length_pos_iff.mpr filled
  rw [split, List.length_append]
  omega

section Turns

variable {frame grown rest : List UInt8} {error : String}

/-- A turn without a newline goes on with what has been collected. -/
theorem collect_of_more (turned : frameTurn frame reader.fillBuf = .more grown rest) :
    reader.collect frame = (reader.consumed rest).collect grown := by
  rw [collect]
  split <;> simp_all

/-- A turn with a newline returns the frame. -/
theorem collect_of_framed (turned : frameTurn frame reader.fillBuf = .framed grown rest) :
    reader.collect frame = (.ok (some grown), reader.consumed rest) := by
  rw [collect]
  split <;> simp_all

/-- The end of the input ends the frames. -/
theorem collect_of_eof (turned : frameTurn frame reader.fillBuf = .eof) :
    reader.collect frame = (.ok none, reader) := by
  rw [collect]
  split <;> simp_all

/-- An error ends the frames, too. -/
theorem collect_of_failed (turned : frameTurn frame reader.fillBuf = .failed error) :
    reader.collect frame = (.error error, reader) := by
  rw [collect]
  split <;> simp_all

end Turns

def frame (reader : Reader) : Except String (Option (List UInt8)) × Reader := reader.collect []

/-- What a call can come to, from the collected bytes and the remaining stream. -/
inductive Collected (frame : List UInt8) :
    List UInt8 → Except String (Option (List UInt8)) → List UInt8 → Prop where
  | framed (front rest : List UInt8) (inner : newline ∉ front)
      (fits : frame.length + front.length + 1 ≤ maxFrame) :
      Collected frame (front ++ newline :: rest) (.ok (some (frame ++ (front ++ [newline])))) rest
  | eof (empty : frame = []) : Collected frame [] (.ok none) []
  | cut {stream : List UInt8} (inner : newline ∉ stream) (begun : frame ++ stream ≠ [])
      (fits : (frame ++ stream).length ≤ maxFrame) :
      Collected frame stream (.error "EOF inside JSON frame") []
  | tooLong {stream rest : List UInt8} (far : newline ∉ stream.take (maxFrame - frame.length))
      (long : maxFrame < frame.length + stream.length) :
      Collected frame stream (.error "frame exceeds limit") rest

/-- Bytes without a newline can be collected first. -/
theorem Collected.later {frame bytes stream after : List UInt8}
    {result : Except String (Option (List UInt8))} (inner : newline ∉ bytes)
    (fits : frame.length + bytes.length ≤ maxFrame)
    (collected : Collected (frame ++ bytes) stream result after) :
    Collected frame (bytes ++ stream) result after := by
  cases collected with
  | framed front rest alone short =>
    have outcome := @Collected.framed frame (bytes ++ front) after
      (by simp [inner, alone]) (by rw [List.length_append] at short ⊢; omega)
    simpa using outcome
  | eof empty =>
    obtain ⟨rfl, rfl⟩ := List.append_eq_nil_iff.mp empty
    exact .eof rfl
  | cut alone begun short => exact .cut (by simp [inner, alone]) (by simpa using begun) (by simpa using short)
  | tooLong far long =>
    refine .tooLong ?_ (by rw [List.length_append] at long ⊢; omega)
    rw [List.length_append] at far
    rw [List.take_append, List.take_of_length_le (by omega), List.mem_append, not_or]
    exact ⟨inner, by rwa [Nat.sub_sub]⟩

/-- A call depends on the remaining stream only, however it is divided. -/
theorem collected_of_collect (reader : Reader) (frame : List UInt8)
    (fits : frame.length ≤ maxFrame) :
    Collected frame reader.remaining (reader.collect frame).1 (reader.collect frame).2.remaining := by
  induction reader, frame using collect.induct with
  | case1 reader frame grown rest turned ih =>
    have outcome := frameTurn_spec frame reader.fillBuf
    obtain ⟨rfl, -, split⟩ := consumed_of_more turned
    rw [turned] at outcome
    rw [collect_of_more turned, split]
    generalize reader.fillBuf = bytes at outcome ih
    cases outcome with
    | more filled inner short =>
      have next := ih (by rw [List.length_append]; exact short)
      exact next.later inner short
  | case2 reader frame grown rest turned =>
    have outcome := frameTurn_spec frame reader.fillBuf
    rw [collect_of_framed turned, remaining_eq, remaining_consumed]
    rw [turned] at outcome
    generalize reader.fillBuf = bytes at outcome
    cases outcome with
    | framed front rest inner short =>
      rw [List.append_assoc, List.cons_append]
      exact .framed front _ inner short
  | case3 reader frame turned =>
    have outcome := frameTurn_spec frame reader.fillBuf
    rw [collect_of_eof turned]
    rw [turned] at outcome
    generalize filling : reader.fillBuf = bytes at outcome
    cases outcome with
    | eof empty =>
      rw [remaining_of_fillBuf filling]
      exact .eof empty
  | case4 reader frame error turned =>
    have outcome := frameTurn_spec frame reader.fillBuf
    rw [collect_of_failed turned]
    rw [turned] at outcome
    generalize filling : reader.fillBuf = bytes at outcome
    cases outcome with
    | cut begun =>
      rw [remaining_of_fillBuf filling]
      exact .cut List.not_mem_nil (by simpa using begun) (by simpa using fits)
    | tooLong filled long far =>
      rw [remaining_eq, filling]
      refine .tooLong ?_ (by rw [List.length_append]; omega)
      rwa [List.take_append_of_le_length (by omega)]

/-- The call of `frame` on a stream. -/
theorem collected_of_frame (reader : Reader) :
    Collected [] reader.remaining reader.frame.1 reader.frame.2.remaining :=
  collected_of_collect reader [] (Nat.zero_le _)

/-- A frame that is returned has been consumed. -/
theorem frame_eq_some {reader after : Reader} {frame : List UInt8}
    (called : reader.frame = (.ok (some frame), after)) :
    ∃ front, frame = front ++ [newline] ∧ newline ∉ front ∧ frame.length ≤ maxFrame ∧
      reader.remaining = frame ++ after.remaining := by
  have collected := collected_of_frame reader
  rw [called] at collected
  generalize reader.remaining = stream at collected
  generalize after.remaining = later at collected
  cases collected with
  | framed front rest inner fits =>
    exact ⟨front, rfl, inner, by simpa using fits, by simp⟩

/-- `frame` called again and again: the frames, and how the last call came out. -/
def frames (reader : Reader) : List (List UInt8) × Except String Unit :=
  match _called : reader.frame with
  | (.ok (some frame), after) => (frame :: (frames after).1, (frames after).2)
  | (.ok none, _) => ([], .ok ())
  | (.error error, _) => ([], .error error)
termination_by reader.remaining.length
decreasing_by all_goals
  obtain ⟨front, rfl, -, -, split⟩ := frame_eq_some _called
  rw [split, List.length_append, List.length_append, List.length_singleton]
  omega

/-- Some segment of the stream, or what follows the last one, is too long for a frame. -/
def Oversized (stream : List UInt8) : Prop :=
  (∃ segment ∈ segments isNewline stream, maxFrame < segment.length) ∨
    maxFrame < (unfinished isNewline stream).length

instance (stream : List UInt8) : Decidable (Oversized stream) :=
  inferInstanceAs (Decidable (_ ∨ _))

/-- How the frames of a stream end. -/
def ending (stream : List UInt8) : Except String Unit :=
  if Oversized stream then .error "frame exceeds limit"
  else if unfinished isNewline stream = [] then .ok ()
  else .error "EOF inside JSON frame"

/-- In a stream that is not oversized every piece fits. -/
theorem not_oversized {stream : List UInt8} :
    ¬ Oversized stream ↔ (∀ segment ∈ segments isNewline stream, segment.length ≤ maxFrame) ∧
      (unfinished isNewline stream).length ≤ maxFrame := by
  simp [Oversized]

/-- The ending is too long exactly for an oversized stream. -/
theorem ending_eq_tooLong {stream : List UInt8} :
    ending stream = .error "frame exceeds limit" ↔ Oversized stream := by
  unfold ending
  split_ifs <;> simp_all

/-- The ending is clean exactly at the boundary of a segment. -/
theorem ending_eq_ok {stream : List UInt8} :
    ending stream = .ok () ↔ ¬ Oversized stream ∧ unfinished isNewline stream = [] := by
  unfold ending
  split_ifs <;> simp_all

/-- The ending is cut exactly inside a segment. -/
theorem ending_eq_cut {stream : List UInt8} :
    ending stream = .error "EOF inside JSON frame" ↔
      ¬ Oversized stream ∧ unfinished isNewline stream ≠ [] := by
  unfold ending
  split_ifs <;> simp_all

section Streams

variable {front rest stream : List UInt8}

/-- The first segment ends with the first newline. -/
theorem segments_first (inner : newline ∉ front) :
    segments isNewline (front ++ newline :: rest) =
      (front ++ [newline]) :: segments isNewline rest :=
  (cut_first (isNewline_eq_false inner) (by simp [isNewline])).1

/-- What is unfinished lies behind the first newline. -/
theorem unfinished_first (inner : newline ∉ front) :
    unfinished isNewline (front ++ newline :: rest) = unfinished isNewline rest :=
  (cut_first (isNewline_eq_false inner) (by simp [isNewline])).2

/-- Without a newline there is no segment. -/
theorem segments_open (inner : newline ∉ stream) : segments isNewline stream = [] := by
  rw [segments, cut_open (isNewline_eq_false inner)]

/-- Without a newline everything is unfinished. -/
theorem unfinished_open (inner : newline ∉ stream) : unfinished isNewline stream = stream := by
  rw [unfinished, cut_open (isNewline_eq_false inner)]
  rfl

/-- A first segment that fits does not matter to the ending. -/
theorem ending_first (inner : newline ∉ front) (fits : front.length + 1 ≤ maxFrame) :
    ending (front ++ newline :: rest) = ending rest := by
  have same : Oversized (front ++ newline :: rest) ↔ Oversized rest := by
    unfold Oversized
    rw [segments_first inner, unfinished_first inner]
    simp [Nat.not_lt.mpr fits]
  rw [ending, ending, if_congr same rfl rfl, unfinished_first inner]

/-- Too long a stretch without a newline is in the way of the first frame. -/
theorem oversized_of_far (far : newline ∉ stream.take maxFrame) (long : maxFrame < stream.length) :
    (segments isNewline stream).takeWhile (·.length ≤ maxFrame) = [] ∧ Oversized stream := by
  by_cases ends : newline ∈ stream
  · obtain ⟨front, rest, rfl, inner⟩ := List.eq_append_cons_of_mem ends
    have beyond : maxFrame ≤ front.length := by
      by_contra short
      rw [List.take_append, List.mem_append, not_or] at far
      have opened : maxFrame - front.length = (maxFrame - front.length - 1) + 1 := by omega
      rw [opened, List.take_succ_cons] at far
      exact far.2 List.mem_cons_self
    have segment : maxFrame < (front ++ [newline]).length := by
      rw [List.length_append, List.length_singleton]
      omega
    rw [Oversized, segments_first inner]
    exact ⟨List.takeWhile_cons_of_neg (by simpa using segment),
      .inl ⟨_, List.mem_cons_self, segment⟩⟩
  · rw [Oversized, segments_open ends, unfinished_open ends]
    exact ⟨rfl, .inr long⟩

end Streams

/-- The frames are the segments, up to the first that is too long. -/
theorem frames_eq_segments (reader : Reader) :
    reader.frames =
      ((segments isNewline reader.remaining).takeWhile (·.length ≤ maxFrame),
        ending reader.remaining) := by
  induction reader using frames.induct with
  | case1 reader frame after called ih =>
    have unfolded : reader.frames = (frame :: after.frames.1, after.frames.2) := by
      rw [frames]
      split <;> simp_all
    obtain ⟨front, rfl, inner, fits, split⟩ := frame_eq_some called
    rw [List.append_assoc, List.singleton_append] at split
    rw [List.length_append, List.length_singleton] at fits
    rw [unfolded, ih, split, segments_first inner, ending_first inner fits,
      List.takeWhile_cons_of_pos (by simpa using fits)]
  | case2 reader after called =>
    have unfolded : reader.frames = ([], .ok ()) := by
      rw [frames]
      split <;> simp_all
    have collected := collected_of_frame reader
    rw [called] at collected
    rw [unfolded]
    generalize reader.remaining = stream at collected
    generalize after.remaining = later at collected
    cases collected with
    | eof => rfl
  | case3 reader error after called =>
    have unfolded : reader.frames = ([], .error error) := by
      rw [frames]
      split <;> simp_all
    have collected := collected_of_frame reader
    rw [called] at collected
    rw [unfolded]
    generalize reader.remaining = stream at collected
    generalize after.remaining = later at collected
    cases collected with
    | cut inner begun fits =>
      have small : ¬ Oversized stream := by
        rw [Oversized, segments_open inner, unfinished_open inner]
        simpa using fits
      rw [ending, if_neg small, unfinished_open inner, segments_open inner,
        if_neg (by simpa using begun)]
      rfl
    | tooLong far long =>
      obtain ⟨none, large⟩ := oversized_of_far (by simpa using far) (by simpa using long)
      rw [none, ending, if_pos large]

/-- The states of the loop of a call: the bytes collected, and the reader. -/
inductive Loop (reader : Reader) : List UInt8 → Reader → Prop where
  | entered : Loop reader [] reader
  | turned {frame grown rest : List UInt8} {here : Reader} (prior : Loop reader frame here)
      (more : frameTurn frame here.fillBuf = .more grown rest) :
      Loop reader grown (here.consumed rest)

/-- The bytes collected fit in a frame at every turn. -/
theorem Loop.fits {reader here : Reader} {frame : List UInt8} (loop : Loop reader frame here) :
    frame.length ≤ maxFrame := by
  cases loop with
  | entered => exact Nat.zero_le _
  | turned prior more =>
    rename_i frame rest here
    have outcome := frameTurn_spec frame here.fillBuf
    rw [more] at outcome
    generalize here.fillBuf = bytes at outcome
    cases outcome with
    | more filled inner fits =>
      rw [List.length_append]
      exact fits

/-- For every stream and every division of it into chunks, the calls of `frame`
return the segments that end with a newline, in order, until one does not fit in
a frame; the end of the input is no error on the boundary of a segment only. A frame
that is returned is all that its call has consumed, and no turn of a loop has
collected more than a frame can hold. -/
theorem frames_of_stream (reader : Reader) :
    reader.frames.1 = (segments isNewline reader.remaining).takeWhile (·.length ≤ maxFrame) ∧
    (reader.frames.2 = .error "frame exceeds limit" ↔
      (∃ segment ∈ segments isNewline reader.remaining, maxFrame < segment.length) ∨
        maxFrame < (unfinished isNewline reader.remaining).length) ∧
    (reader.frames.2 = .ok () ↔
      (∀ segment ∈ segments isNewline reader.remaining, segment.length ≤ maxFrame) ∧
        unfinished isNewline reader.remaining = []) ∧
    (reader.frames.2 = .error "EOF inside JSON frame" ↔
      (∀ segment ∈ segments isNewline reader.remaining, segment.length ≤ maxFrame) ∧
        unfinished isNewline reader.remaining ≠ [] ∧
        (unfinished isNewline reader.remaining).length ≤ maxFrame) ∧
    (∀ frame after, reader.frame = (.ok (some frame), after) →
      ∃ front, frame = front ++ [newline] ∧ newline ∉ front ∧ frame.length ≤ maxFrame ∧
        reader.remaining = frame ++ after.remaining) ∧
    (∀ frame here, Loop reader frame here → frame.length ≤ maxFrame) ∧
    (∀ other : Reader, other.remaining = reader.remaining → other.frames = reader.frames) := by
  have result : reader.frames.2 = ending reader.remaining :=
    congrArg Prod.snd (frames_eq_segments reader)
  refine ⟨congrArg Prod.fst (frames_eq_segments reader), ?_, ?_, ?_,
    fun frame after => frame_eq_some, fun frame here => Loop.fits, ?_⟩
  · rw [result, ending_eq_tooLong]
    rfl
  · rw [result, ending_eq_ok, not_oversized]
    constructor
    · rintro ⟨⟨fits, -⟩, empty⟩
      exact ⟨fits, empty⟩
    · rintro ⟨fits, empty⟩
      exact ⟨⟨fits, by simp [empty]⟩, empty⟩
  · rw [result, ending_eq_cut, not_oversized]
    constructor
    · rintro ⟨⟨fits, short⟩, begun⟩
      exact ⟨fits, begun, short⟩
    · rintro ⟨fits, begun, short⟩
      exact ⟨⟨fits, short⟩, begun⟩
  · intro other same
    rw [frames_eq_segments, frames_eq_segments, same]

/-- Two frames in two chunks. -/
theorem frames_of_stream_two : ∃ reader : Reader,
    reader.chunks = [[7], [8, newline, 9, newline]] ∧
    reader.frames.1 = [[7, 8, newline], [9, newline]] := by
  refine ⟨⟨[[7], [8, newline, 9, newline]], by decide⟩, rfl, ?_⟩
  rw [(frames_of_stream _).1]
  decide

end Reader

end Spinfoam.Serve
