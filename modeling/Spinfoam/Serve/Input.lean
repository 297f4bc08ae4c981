import Spinfoam.Serve.Effects

/-!
# The input of a session

A session hands the newline-terminated segments of its input to the parser, as
long as no task is joined while a frame is being collected.
-/

namespace Spinfoam.Serve

open Spinfoam.Json Spinfoam.Std Spinfoam.Outbox Spinfoam.Semantics

/-- The bytes the reader has got. -/
def arrivals (events : List Event) : List UInt8 :=
  events.flatMap fun
    | .arrived bytes => bytes
    | _ => []

/-- The frames that have been handed to the parser. -/
def frames (events : List Event) : List (List UInt8) :=
  events.filterMap fun
    | .framed frame => some frame
    | _ => none

@[simp] theorem arrivals_append (first second : List Event) :
    arrivals (first ++ second) = arrivals first ++ arrivals second := List.flatMap_append

@[simp] theorem frames_append (first second : List Event) :
    frames (first ++ second) = frames first ++ frames second := List.filterMap_append

/-- What has been consumed was cut into the frames handed over and the one that
is being collected. -/
def Intact (events : List Event) (session : Session) : Prop :=
  ∃ consumed, arrivals events = consumed ++ session.buffer ∧
    cut isNewline [] consumed = (frames events, session.frame)

section Steps

variable {session after : Session} {action : Action} {events : List Event}

/-- What the loop does with a frame leaves the input alone. -/
theorem Received.input (received : Received session events after) :
    after.buffer = session.buffer ∧ after.frame = session.frame ∧ arrivals events = [] ∧
      frames events = [] := by
  cases received with
  | answered => exact ⟨rfl, rfl, by simp [arrivals], by simp [frames, List.filterMap_map]⟩
  | passed | rejected | left | refused | abandoned | spawned => exact ⟨rfl, rfl, rfl, rfl⟩

theorem Sent.input {number : Nat} {task : Task} {frame : Frame} {shutdown : Bool}
    (sent : Sent session number task frame shutdown events after) :
    after.buffer = session.buffer ∧ after.frame = session.frame ∧ arrivals events = [] ∧
      frames events = [] := by
  cases sent <;> exact ⟨rfl, rfl, rfl, rfl⟩

/-- The bytes of a turn are the next ones that have arrived and have not been consumed. -/
theorem Filled.arrivals {input : List Event} {bytes consumed : List UInt8} {earlier : List Event}
    (filled : Filled session input bytes)
    (before : arrivals earlier = consumed ++ session.buffer) :
    Serve.arrivals (earlier ++ input) = consumed ++ bytes ∧ frames input = [] := by
  cases filled with
  | buffered => exact ⟨by simpa [Serve.arrivals] using before, rfl⟩
  | arrived empty =>
    rw [arrivals_append, before, empty]
    exact ⟨by simp [Serve.arrivals], rfl⟩

/-- A step that touches neither the buffer nor the frame. -/
theorem Intact.still {earlier : List Event} (intact : Intact earlier session)
    (same : after.buffer = session.buffer ∧ after.frame = session.frame ∧ arrivals events = [] ∧
      frames events = []) : Intact (earlier ++ events) after := by
  obtain ⟨consumed, arrived, pieces⟩ := intact
  obtain ⟨buffer, frame, silent, none⟩ := same
  refine ⟨consumed, ?_, ?_⟩
  · rw [arrivals_append, arrived, silent, List.append_nil, buffer]
  · rw [frames_append, none, List.append_nil, frame, pieces]

/-- Only a join in the middle of a frame damages the input. -/
theorem Effect.intact {earlier : List Event} (effect : Effect session action events after)
    (calm : ∀ number, action = .joined number → session.frame = [])
    (intact : Intact earlier session) : Intact (earlier ++ events) after := by
  cases effect with
  | idle | wrote | left | tooLarge => exact intact.still ⟨rfl, rfl, rfl, rfl⟩
  | runtime events noticed =>
    refine intact.still ⟨rfl, rfl, ?_, ?_⟩
    · simp [arrivals]
    · simp [frames, List.filterMap_map]
  | handled found phase result encoded sent => exact intact.still sent.input
  | polled found phase sent => exact intact.still sent.input
  | joined joins found phase =>
    exact intact.still ⟨rfl, (calm _ joins).symm, rfl, rfl⟩
  | ended filled =>
    obtain ⟨consumed, arrived, pieces⟩ := intact
    obtain ⟨filling, none⟩ := filled.arrivals arrived
    exact ⟨consumed, filling, by rw [frames_append, none, List.append_nil, pieces]⟩
  | @more input bytes filled inner =>
    obtain ⟨consumed, arrived, pieces⟩ := intact
    obtain ⟨filling, none⟩ := filled.arrivals arrived
    refine ⟨consumed ++ bytes, by simpa using filling, ?_⟩
    rw [cut_append, pieces, cut_open (isNewline_eq_false inner), frames_append, none]
  | @framed input front rest events after filled inner received =>
    obtain ⟨consumed, arrived, pieces⟩ := intact
    obtain ⟨filling, none⟩ := filled.arrivals arrived
    obtain ⟨buffer, frame, silent, unframed⟩ := received.input
    have closing : cut isNewline session.frame (front ++ [newline]) =
        ([session.frame ++ front ++ [newline]], []) :=
      cut_closed (isNewline_eq_false inner) (by simp [isNewline])
    have here : frames (.framed (session.frame ++ (front ++ [newline])) :: events) =
        [session.frame ++ (front ++ [newline])] := by
      rw [← List.singleton_append, frames_append, unframed]
      rfl
    have silence : arrivals (.framed (session.frame ++ (front ++ [newline])) :: events) = [] := by
      rw [← List.singleton_append, arrivals_append, silent]
      rfl
    refine ⟨consumed ++ (front ++ [newline]), ?_, ?_⟩
    · rw [← List.append_assoc, arrivals_append, filling, silence, buffer]
      simp
    · rw [cut_append, pieces, closing, frames_append, frames_append, none, here, frame]
      simp

end Steps

section Runs

variable {fromSlice : List UInt8 → Except String Value} {session : Session}
  {history : List (Transition Session Action Event)}

/-- In every run in which no task is joined while the pending `frame` future has
collected part of a frame, the frames handed to the parser are the newline-terminated
segments of what has been consumed, in order, and the rest of it is what the future
has collected: no consumed byte is lost. -/
theorem frames_survive_completions (execution : (machine fromSlice).Execution history session)
    (calm : ∀ transition ∈ history, ∀ number, transition.action = .joined number →
      transition.before.frame = []) :
    ∃ consumed, arrivals (trace history) = consumed ++ session.buffer ∧
      cut isNewline [] consumed = (frames (trace history), session.frame) ∧
      (frames (trace history)).flatten ++ session.frame = consumed := by
  suffices intact : Intact (trace history) session by
    obtain ⟨consumed, arrived, pieces⟩ := intact
    have whole := @flatten_cut _ isNewline [] consumed
    rw [pieces] at whole
    exact ⟨consumed, arrived, pieces, whole⟩
  induction execution with
  | initial valid =>
    obtain ⟨name, rfl⟩ := valid
    exact ⟨[], rfl, rfl⟩
  | step prior taken ih =>
    obtain ⟨-, effect⟩ := step_spec taken
    rw [trace_append]
    have before := ih fun transition member =>
      calm transition (List.mem_append_left _ member)
    have last := calm _ (List.mem_append_right _ List.mem_cons_self)
    simpa using effect.intact last before

/-- A request, its task to the end, and a request in two pieces. -/
def joinBetween : List Action :=
  [.frame (.ok (Sample.stats "a").line), .handled 0 Sample.early, .joined 0,
    .frame (.ok ((Sample.stats "b").line.take 1)), .frame (.ok ((Sample.stats "b").line.drop 1))]

/-- Both requests are handed over. -/
theorem frames_survive_completions_between :
    ∃ history session,
      (machine (Sample.parser [.stats "a", .stats "b"])).Execution history session ∧
      history.map (·.action) = joinBetween ∧
      arrivals (trace history) = (Sample.stats "a").line ++ (Sample.stats "b").line ∧
      ∃ consumed, arrivals (trace history) = consumed ++ session.buffer ∧
        cut isNewline [] consumed = (frames (trace history), session.frame) ∧
        (frames (trace history)).flatten ++ session.frame = consumed := by
  have evaluated : ((machine (Sample.parser [.stats "a", .stats "b"])).run opening joinBetween).any
      (fun result =>
        decide (arrivals (trace result.1) = (Sample.stats "a").line ++ (Sample.stats "b").line) &&
        result.1.all fun transition =>
          decide (transition.before.frame = [] ∨ transition.action.ctorIdx ≠
            (Action.joined 0).ctorIdx)) = true := by
    decide +kernel
  obtain ⟨⟨history, session⟩, ran, tested⟩ := (Option.any_eq_true ..).mp evaluated
  simp only [Bool.and_eq_true, decide_eq_true_eq, List.all_eq_true] at tested
  obtain ⟨arrived, calm⟩ := tested
  have execution : (machine (Sample.parser [.stats "a", .stats "b"])).Execution history session :=
    Machine.execution_of_run ⟨"", rfl⟩ ran
  refine ⟨history, session, execution, Machine.actions_of_run ran, arrived,
    frames_survive_completions execution ?_⟩
  intro transition member number joins
  refine (calm transition member).resolve_right ?_
  rw [joins]
  exact not_not.mpr rfl

/-- Between the two pieces of a request the task of another one is joined. -/
def joinWithin : List Action :=
  [.frame (.ok (Sample.stats "a").line), .frame (.ok ((Sample.stats "b").line.take 1)),
    .handled 0 Sample.early, .joined 0, .frame (.ok ((Sample.stats "b").line.drop 1))]

/-- A task that is joined between two reads of a frame takes the first one with it. -/
theorem frame_damaged_by_completion :
    ∃ history session,
      (machine (Sample.parser [.stats "a", .stats "b"])).Execution history session ∧
      arrivals (trace history) = (Sample.stats "a").line ++ (Sample.stats "b").line ∧
      session.buffer = [] ∧
      frames (trace history) = [(Sample.stats "a").line, (Sample.stats "b").line.drop 1] ∧
      ¬ ∃ consumed, arrivals (trace history) = consumed ++ session.buffer ∧
        frames (trace history) = segments isNewline consumed := by
  have evaluated : ((machine (Sample.parser [.stats "a", .stats "b"])).run opening joinWithin).any
      (fun result =>
        decide (arrivals (trace result.1) = (Sample.stats "a").line ++ (Sample.stats "b").line ∧
          result.2.buffer = [] ∧
          frames (trace result.1) = [(Sample.stats "a").line, (Sample.stats "b").line.drop 1] ∧
          frames (trace result.1) ≠ segments isNewline (arrivals (trace result.1)))) = true := by
    decide +kernel
  obtain ⟨history, session, execution, tested⟩ := Machine.execution_of_test evaluated ⟨"", rfl⟩
  obtain ⟨arrived, empty, handed, damaged⟩ := of_decide_eq_true tested
  refine ⟨history, session, execution, arrived, empty, handed, ?_⟩
  rintro ⟨consumed, same, cuts⟩
  rw [empty, List.append_nil] at same
  rw [← same] at cuts
  exact damaged cuts

end Runs

end Spinfoam.Serve
