import Spinfoam.Json.Lines
import Spinfoam.Serve.Custody

/-!
# The output

The writer takes one frame after the other and writes all of its bytes before it
takes the next, in as many pieces as the output wants. What the embedder reads can
therefore be cut at the newlines into the frames again.
-/

namespace Spinfoam.Serve

open Spinfoam.Json Spinfoam.Std Spinfoam.Outbox Spinfoam.Guest Spinfoam.Semantics

/-- The bytes of a frame on the output. -/
def encoded (frame : Frame) : List UInt8 := encodeUtf8 frame.bytes

namespace Process

/-- What the output has taken. -/
def output (events : List Event) : List UInt8 :=
  events.flatMap fun
    | .output bytes => bytes
    | _ => []

/-- The frames that the writer has taken. -/
def frames (events : List Event) : List Frame :=
  events.filterMap fun
    | .session (.written _ frame) => some frame
    | _ => none

/-- How much of the frames is on the output. -/
inductive Wired (past : List Event) (process : Process) : Prop where
  | whole (writer : process.writer.looks = true ∨ process.writer = .done)
      (sent : output past = ((frames past).map encoded).flatten) : Wired past process
  | part {rest : List UInt8}
      (writer : process.writer = .writing rest ∨ ∃ error, process.writer = .failed error)
      {complete : List Frame} {frame : Frame} {front : List UInt8}
      (taken : frames past = complete ++ [frame])
      (sent : output past = (complete.map encoded).flatten ++ front)
      (split : front ++ rest = encoded frame) (more : rest ≠ []) : Wired past process

section Writing

variable {env : Environment} {fromSlice : List UInt8 → Except String Value}
  {process after : Process} {past events : List Event}

@[simp] theorem output_append (first second : List Event) :
    output (first ++ second) = output first ++ output second := List.flatMap_append

@[simp] theorem frames_append (first second : List Event) :
    frames (first ++ second) = frames first ++ frames second := List.filterMap_append

/-- The events of a step that leaves the output alone. -/
def Silent (events : List Event) : Prop := output events = [] ∧ frames events = []

/-- Events of the session that write nothing are silent. -/
theorem silent_session {events : List Serve.Event}
    (unwritten : ∀ lane frame, .written lane frame ∉ events) : Silent (events.map .session) := by
  refine ⟨List.flatMap_eq_nil_iff.mpr ?_, List.filterMap_eq_nil_iff.mpr ?_⟩
  · intro event member
    obtain ⟨inner, -, rfl⟩ := List.mem_map.mp member
    rfl
  · intro event member
    obtain ⟨inner, there, rfl⟩ := List.mem_map.mp member
    cases inner with
    | written lane frame => exact absurd there (unwritten lane frame)
    | _ => rfl

/-- Silent stretches stay silent one after the other. -/
theorem Silent.append {first second : List Event} (front : Silent first) (back : Silent second) :
    Silent (first ++ second) := by
  rw [Silent, output_append, frames_append, front.1, front.2, back.1, back.2]
  exact ⟨rfl, rfl⟩

/-- What the loop does by itself is silent. -/
theorem silent_loop {events : List Serve.Event} (own : ∀ event ∈ events, event.ofLoop = true) :
    Silent (events.map .session) := by
  refine silent_session fun lane frame member => ?_
  cases own _ member

/-- What the runtime does is silent. -/
theorem silent_runtime {session next : Session} {action : Runtime.Action}
    {events : List Serve.Event}
    (taken : session.perform fromSlice (.runtime action) = some (next, events)) :
    Silent (events.map .session) := by
  obtain ⟨-, runtime, emitted, -, -, rfl⟩ := perform_runtime taken
  exact silent_session (by simp)

/-- A silent step that leaves the writer alone changes nothing on the wire. -/
theorem Wired.silent (wired : Wired past process) (quiet : Silent events)
    (writer : after.writer = process.writer) : Wired (past ++ events) after := by
  have sent : output (past ++ events) = output past := by simp [quiet.1]
  have taken : frames (past ++ events) = frames past := by simp [quiet.2]
  cases wired with
  | whole waits whole => exact .whole (by rwa [writer]) (by rw [sent, taken, whole])
  | part writes frames front split more =>
    exact .part (by rwa [writer]) (taken.trans frames) (sent.trans front) split more

/-- Every frame has bytes, if only its newline. -/
theorem encoded_ne_nil (frame : Frame) : encoded frame ≠ [] := by
  intro empty
  have bytes := congrArg List.length empty
  rw [encoded, length_encodeUtf8, ← Frame.length, Frame.length_eq] at bytes
  cases bytes

/-- Every step of a process keeps output and writer in step. -/
theorem wired_effect (wired : Wired past process)
    (effect : Effect env fromSlice process events after) : Wired (past ++ events) after := by
  cases effect with
  | looped loop _ taken => exact wired.silent (silent_loop (looped_perform loop taken).events) rfl
  | @returned task asked params result initialized session emitted returns taken =>
    have single : Silent [.returned asked params result] := ⟨rfl, rfl⟩
    exact wired.silent (single.append (silent_loop (returned_handled taken).2.2.2.2)) rfl
  | waiting _ taken => exact wired.silent (silent_runtime taken) rfl
  | @answered task asked params action result initialized middle session first later calls taken
      answer sent =>
    have single : Silent [.returned asked params result] := ⟨rfl, rfl⟩
    exact wired.silent ((silent_runtime taken).append
      (single.append (silent_loop (returned_handled sent).2.2.2.2))) rfl
  | compiling | aborted => exact wired.silent ⟨rfl, rfl⟩ rfl
  | guest taken => exact wired.silent (silent_runtime taken) rfl
  | looked looks =>
    cases wired with
    | whole waits whole =>
      refine .whole ?_ (by simpa using whole)
      split_ifs
      · exact Or.inr rfl
      · exact Or.inl rfl
    | part writes =>
      rcases writes with writes | ⟨error, writes⟩
      · simp [Writer.looks, writes] at looks
      · simp [Writer.looks, writes] at looks
  | @took frame out looks =>
    cases wired with
    | whole waits whole =>
      have taken : frames (past ++ [.session (.written process.session.out.queues.serving frame)]) =
          frames past ++ [frame] := by simp [frames]
      have sent : output (past ++ [.session (.written process.session.out.queues.serving frame)]) =
          ((frames past).map encoded).flatten ++ [] := by
        rw [output_append, whole]
        simp [output]
      exact .part (Or.inl rfl) taken sent (List.nil_append _) (encoded_ne_nil frame)
    | part writes =>
      rcases writes with writes | ⟨error, writes⟩
      · simp [Writer.looks, writes] at looks
      · simp [Writer.looks, writes] at looks
  | @accepted rest count writing positive within =>
    have sent : output (past ++ [.output (rest.take count)]) = output past ++ rest.take count := by
      simp [output]
    have taken : frames (past ++ [.output (rest.take count)]) = frames past := by simp [frames]
    cases wired with
    | whole waits => simp [Writer.looks, writing] at waits
    | @part current writes complete frame front frames before split =>
      have same : rest = current := by simpa [writing] using writes
      subst same
      by_cases last : count = rest.length
      · refine .whole (Or.inl (by rw [if_pos last]; rfl)) ?_
        rw [sent, taken, frames, before, last, List.take_length, List.append_assoc, split]
        simp
      · have further : output (past ++ [.output (rest.take count)]) =
            (complete.map encoded).flatten ++ (front ++ rest.take count) := by
          rw [sent, before, List.append_assoc]
        refine .part (Or.inl (if_neg last)) (taken.trans frames) further ?_ ?_
        · rw [List.append_assoc, List.take_append_drop, split]
        · exact List.ne_nil_of_length_pos (by rw [List.length_drop]; omega)
  | @broken rest error session emitted writing taken =>
    obtain ⟨nothing, none⟩ := silent_runtime taken
    cases wired with
    | whole waits => simp [Writer.looks, writing] at waits
    | part writes frames before split more =>
      exact .part (Or.inr ⟨error, rfl⟩) (by rw [frames_append, none, List.append_nil, frames])
        (by rw [output_append, nothing, List.append_nil, before]) split more
  | cancelled parked =>
    cases wired with
    | whole waits whole => exact .whole (Or.inr rfl) (by simpa using whole)
    | part writes =>
      rcases writes with writes | ⟨error, writes⟩
      · exact absurd (parked.symm.trans writes) (by simp)
      · exact absurd (parked.symm.trans writes) (by simp)
  | @stopped action runtime emitted =>
    refine wired.silent ?_ rfl
    rw [afterShutdown, ← List.map_map]
    exact silent_session (by simp)
  | finished => exact wired.silent ⟨rfl, rfl⟩ rfl

variable {history : List (Transition Process Action Event)}

/-- In every run the output is what the writer has passed on. -/
theorem wired_of_execution (execution : (machine env fromSlice).Execution history process) :
    Wired (trace history) process :=
  eventsInvariant Wired (fun _ => .whole (Or.inl rfl) rfl)
    (fun _ effect wired => wired_effect wired effect) execution

/-- The encoding of a frame is a line. -/
theorem closed_encoded {frame : Frame} (inline : frame.value.Inline) :
    Closed (· == newline) (encoded frame) := by
  have bytes : encoded frame = encodeUtf8 frame.value.compact ++ [newline] := by
    rw [encoded, Frame.bytes, encodeUtf8, toList_toUTF8, String.toList_append, List.flatMap_append,
      ← toList_toUTF8]
    rfl
  refine ⟨_, _, bytes, ?_, beq_self_eq_true _⟩
  intro byte member
  rw [beq_eq_false_iff_ne]
  rintro rfl
  rw [encodeUtf8, toList_toUTF8] at member
  obtain ⟨char, there, encodes⟩ := List.mem_flatMap.mp member
  have code := toNat_of_mem_utf8EncodeChar (by decide) encodes
  have same : char = '\n' := Char.toNat_inj.mp code
  exact Value.newline_notMem_compact frame.value inline (same ▸ there)

/-- Whatever pieces the output takes, what it has taken are the lines of the frames
that the writer has taken, in their order, each whole, but for the last one if it is
still being written or if the output broke. Cut at its newlines the output gives
these frames and the part of the last one. -/
theorem output_is_lines (execution : (machine env fromSlice).Execution history process)
    (inline : ∀ frame ∈ frames (trace history), frame.value.Inline) :
    ∃ complete begun : List Frame, frames (trace history) = complete ++ begun ∧
      begun.length ≤ 1 ∧
      (process.writer.looks = true ∨ process.writer = .done → begun = []) ∧
      segments (· == newline) (output (trace history)) = complete.map encoded ∧
      Std.unfinished (· == newline) (output (trace history)) <+: (begun.map encoded).flatten := by
  have lines {some : List Frame} (those : ∀ frame ∈ some, frame ∈ frames (trace history)) :
      ∀ piece ∈ some.map encoded, Closed (· == newline) piece := by
    intro piece member
    obtain ⟨frame, there, rfl⟩ := List.mem_map.mp member
    exact closed_encoded (inline frame (those frame there))
  cases wired_of_execution execution with
  | whole writer sent =>
    obtain ⟨cuts, remains⟩ := @segments_flatten _ (· == newline)
      ((frames (trace history)).map encoded) [] (lines fun _ => id) (by simp)
    rw [List.append_nil, ← sent] at cuts remains
    exact ⟨frames (trace history), [], by simp, by simp, fun _ => rfl, cuts, by simp [remains]⟩
  | @part rest writer complete frame front taken sent split more =>
    obtain ⟨inner, last, bytes, before, -⟩ :=
      closed_encoded (inline frame (by rw [taken]; simp))
    have within : front <+: inner := by
      have whole : front ++ rest = inner ++ [last] := split.trans bytes
      rcases List.append_eq_append_iff.mp whole with ⟨middle, same, -⟩ | ⟨middle, same, single⟩
      · exact ⟨middle, same.symm⟩
      · rcases middle with _ | ⟨first, others⟩
        · exact ⟨[], by simpa using same⟩
        · have short := congrArg List.length single
          have positive := List.length_pos_of_ne_nil more
          simp only [List.length_append, List.length_cons, List.length_nil] at short
          omega
    have open_ : ∀ byte ∈ front, (byte == newline) = false :=
      fun byte member => before byte (within.subset member)
    obtain ⟨cuts, remains⟩ := @segments_flatten _ (· == newline) (complete.map encoded) front
      (lines fun frame member => by rw [taken]; exact List.mem_append_left _ member) open_
    rw [← sent] at cuts remains
    refine ⟨complete, [frame], taken, by simp, ?_, cuts, ?_⟩
    · intro waits
      rcases writer with writes | ⟨error, writes⟩ <;> simp [Writer.looks, writes] at waits
    · rw [remains]
      exact ⟨rest, by simpa using split⟩

/-- A request before `sf.initialize`, whose refusal the output takes in two pieces, and
a second one that has been taken in part. -/
def writeInPieces : List Action :=
  asks sampleStart 0 ++ asks sampleStart 1 ++ [.take, .accept 7, .accept 115, .take, .accept 7]

def refusal : Value :=
  response (.string "s") (.error (.new (-32000) "NOT_INITIALIZED" "call sf.initialize first"))

/-- The refusal has no doubles. -/
theorem inline_refusal : refusal.Inline :=
  ⟨⟨trivial, ⟨trivial, trivial⟩, trivial, trivial⟩, trivial, trivial, trivial⟩

/-- The run in which the output takes its bytes in pieces. -/
theorem execution_writeInPieces :
    ∃ history process, (machine sampleEnvironment sampleParser).Execution history process ∧
      (frames (trace history)).map Frame.value = [refusal, refusal] ∧
      process.session.left = false := by
  have evaluated : ((machine sampleEnvironment sampleParser).run sampleProcess writeInPieces).any
      (fun result => decide ((frames (trace result.1)).map Frame.value = [refusal, refusal] ∧
        result.2.session.left = false)) = true := by decide +kernel
  obtain ⟨history, process, execution, tested⟩ := Machine.execution_of_test evaluated ⟨"", rfl⟩
  obtain ⟨values, live⟩ := of_decide_eq_true tested
  exact ⟨history, process, execution, values, live⟩

/-- The first refusal is a line of the output. -/
theorem output_is_lines_pieces :
    ∃ history process, ∃ complete : List Frame,
      (machine sampleEnvironment sampleParser).Execution history process ∧
      (frames (trace history)).map Frame.value = [refusal, refusal] ∧
      segments (· == newline) (output (trace history)) = complete.map encoded := by
  obtain ⟨history, process, execution, values, -⟩ := execution_writeInPieces
  have inline : ∀ frame ∈ frames (trace history), frame.value.Inline := by
    intro frame member
    have listed : frame.value ∈ [refusal, refusal] := values ▸ List.mem_map_of_mem member
    obtain same : frame.value = refusal := by simpa using listed
    rw [same]
    exact inline_refusal
  obtain ⟨complete, -, -, -, -, lines, -⟩ := output_is_lines execution inline
  exact ⟨history, process, complete, execution, values, lines⟩

end Writing

end Process

end Spinfoam.Serve
