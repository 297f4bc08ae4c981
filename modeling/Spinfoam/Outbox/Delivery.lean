import Spinfoam.Outbox.Tasks

/-!
# Draining and the representation invariant

Every step of the outbox keeps the queues well formed and accounts for each
frame: `Outcome` states both for one step, and the theorems about runs follow by
the induction rules of `Machine`. The writer may stop with frames still queued
in exactly one situation, which `Undrained` names.
-/

namespace Spinfoam.Outbox

open Spinfoam.Json Spinfoam.Std Spinfoam.Semantics

namespace Queues

/-- The frames of a lane, oldest first. -/
def frames (queues : Queues) (lane : Lane) : List Frame := (queues.lane lane).map DataFrame.frame

@[simp] theorem frames_control (queues : Queues) : queues.frames .control = queues.control := by
  simp [frames, lane, Function.comp_def]

@[simp] theorem frames_object (queues : Queues) (name : String) :
    queues.frames (.object name) = (queues.data.queue name).map DataFrame.frame := rfl

/-- Nothing is queued exactly when every lane is empty. -/
theorem drained_iff_frames {queues : Queues} : queues.Drained ↔ ∀ lane, queues.frames lane = [] := by
  constructor
  · rintro ⟨control, data⟩ lane
    cases lane with
    | control => simpa using control
    | object name => simp [data name]
  · intro empty
    refine ⟨by simpa using empty .control, fun object => ?_⟩
    simpa using empty (.object object)

/-- An entry that is accepted keeps the queues well formed. -/
theorem WellFormed.offer {queues next : Queues} (wellFormed : queues.WellFormed) {closed : Bool}
    {lane : Lane} {entry : DataFrame} (offered : queues.offer closed lane entry = some next) :
    next.WellFormed := by
  cases lane with
  | control =>
    simp only [Queues.offer, Option.ite_none_left_eq_some] at offered
    exact wellFormed.pushControl offered.2
  | object name => exact wellFormed.pushData offered

/-- An accepted entry goes to the end of its own lane. -/
theorem frames_offer {queues next : Queues} {closed : Bool} {lane : Lane} {entry : DataFrame}
    (offered : queues.offer closed lane entry = some next) (other : Lane) :
    next.frames other = queues.frames other ++ if lane = other then [entry.frame] else [] := by
  cases lane with
  | control =>
    simp only [Queues.offer, Option.ite_none_left_eq_some] at offered
    obtain ⟨-, rfl⟩ := pushControl_eq_some.mp offered.2
    cases other <;> simp
  | object name =>
    obtain ⟨-, -, -, rfl⟩ := pushData_eq_some.mp offered
    cases other with
    | control => simp
    | object key =>
      by_cases same : name = key
      · subst same
        simp
      · simp [MultiQueue.queue_put_ne _ _ (Ne.symm same), same]

/-- When it is not the turn of the control lane, the first object of the rotation is
served. -/
theorem serving_data {queues : Queues} {object : String} {ready : List String}
    (turn : queues.control = [] ∨ 8 ≤ queues.controlBurst)
    (rotation : queues.ready = object :: ready) : queues.serving = .object object := by
  have skipped : ¬ (queues.control ≠ [] ∧ (queues.controlBurst < 8 ∨ queues.ready = [])) := by
    rintro ⟨waiting, burst | empty⟩
    · rcases turn with control | long
      · exact waiting control
      · omega
    · rw [rotation] at empty
      cases empty
  rw [Queues.serving, if_neg skipped, rotation]

/-- A served frame was the oldest of the lane whose turn it was. -/
theorem Served.frames {queues next : Queues} {frame : Frame}
    (served : queues.Served (some (frame, next))) (lane : Lane) :
    queues.frames lane = (if queues.serving = lane then [frame] else []) ++ next.frames lane := by
  cases served with
  | @control _ rest waiting turn =>
    have serving : queues.serving = .control := by simp [Queues.serving, waiting, turn]
    rw [serving]
    cases lane <;> simp [waiting]
  | @data object ready first rest turn rotation queued =>
    rw [serving_data turn rotation]
    cases lane with
    | control => simp
    | object key =>
      by_cases same : object = key
      · subst same
        simp [queued]
      · simp [MultiQueue.queue_put_ne _ _ (Ne.symm same), same]

end Queues

/-- The frames accepted into a lane. -/
def acceptedOn (lane : Lane) (events : List Event) : List Frame :=
  events.filterMap fun
    | .accepted place entry => if place = lane then some entry.frame else none
    | _ => none

/-- The frames of a lane that were handed to the writer. -/
def returnedOn (lane : Lane) (events : List Event) : List Frame :=
  events.filterMap fun
    | .returned place frame => if place = lane then some frame else none
    | _ => none

/-- The frames withdrawn from a lane. -/
def removedOn (lane : Lane) (events : List Event) : List Frame :=
  events.flatMap fun
    | .removed object entries => if .object object = lane then entries.map DataFrame.frame else []
    | _ => []

section Observations

variable (lane : Lane) (first second : List Event)

@[simp] theorem acceptedOn_append :
    acceptedOn lane (first ++ second) = acceptedOn lane first ++ acceptedOn lane second :=
  List.filterMap_append

@[simp] theorem returnedOn_append :
    returnedOn lane (first ++ second) = returnedOn lane first ++ returnedOn lane second :=
  List.filterMap_append

@[simp] theorem removedOn_append :
    removedOn lane (first ++ second) = removedOn lane first ++ removedOn lane second :=
  List.flatMap_append

end Observations

/-- No frame appears or disappears between two states but through the events. -/
def Balanced (before after : Queues) (events : List Event) : Prop :=
  ∀ lane, (before.frames lane : Multiset Frame) + acceptedOn lane events =
    returnedOn lane events + removedOn lane events + after.frames lane

/-- What one step does to the queues. -/
structure Outcome (before : State) (result : State × List Event) : Prop where
  wellFormed : result.1.queues.WellFormed
  running : result.1.panicked = none
  balanced : Balanced before.queues result.1.queues result.2
  ended : .ended ∈ result.2 →
    before.queues.Drained ∨ before.closed ∧ ∃ woken, before.writer = .parked woken
  calm : ∀ reason, .panicked reason ∉ result.2

namespace State

@[simp] theorem notifyChanged_queues (state : State) :
    state.notifyChanged.queues = state.queues := by
  unfold notifyChanged
  split <;> rfl

@[simp] theorem notifyChanged_panicked (state : State) :
    state.notifyChanged.panicked = state.panicked := by
  unfold notifyChanged
  split <;> rfl

@[simp] theorem notifySpace_queues (state : State) : state.notifySpace.queues = state.queues := rfl

@[simp] theorem notifySpace_panicked (state : State) :
    state.notifySpace.panicked = state.panicked := rfl

end State

section Steps

variable {state : State}

/-- A step that leaves the queues alone and reports nothing about them. -/
private theorem Outcome.quiet (wellFormed : state.queues.WellFormed)
    (running : state.panicked = none) {after : State} {events : List Event}
    (queues : after.queues = state.queues) (panicked : after.panicked = state.panicked)
    (silent : events = [] ∨ (∃ lane value, events = [.refused lane value]) ∨
      ∃ sender error, events = [.failed sender error]) :
    Outcome state (after, events) := by
  refine ⟨queues ▸ wellFormed, panicked.trans running, ?_, ?_, ?_⟩
  · intro lane
    rcases silent with rfl | ⟨_, _, rfl⟩ | ⟨_, _, rfl⟩ <;>
      simp [queues, acceptedOn, returnedOn, removedOn]
  · rcases silent with rfl | ⟨_, _, rfl⟩ | ⟨_, _, rfl⟩ <;> simp
  · rcases silent with rfl | ⟨_, _, rfl⟩ | ⟨_, _, rfl⟩ <;> simp

/-- A step that queues one entry. -/
private theorem Outcome.accepted (wellFormed : state.queues.WellFormed)
    (running : state.panicked = none) {after : State} {lane : Lane} {entry : DataFrame}
    {queues : Queues} (offered : state.queues.offer state.closed lane entry = some queues)
    (same : after.queues = queues) (panicked : after.panicked = state.panicked) :
    Outcome state (after, [.accepted lane entry]) := by
  subst same
  refine ⟨wellFormed.offer offered, panicked.trans running, ?_, by simp, by simp⟩
  intro other
  have grown := Queues.frames_offer offered other
  by_cases own : lane = other <;>
    simp [grown, own, acceptedOn, returnedOn, removedOn, ← Multiset.coe_add]

/-- An attempt to push accounts for its frame. -/
theorem attempt_outcome (wellFormed : state.queues.WellFormed) (running : state.panicked = none)
    (sender : Nat) (task : Sender) : Outcome state (state.attempt sender task) := by
  unfold State.attempt
  split_ifs with closed
  · exact .quiet wellFormed running rfl rfl (Or.inr (Or.inr ⟨_, _, rfl⟩))
  · split
    · rename_i queues offered
      exact .accepted wellFormed running offered (by simp) (by simp)
    · exact .quiet wellFormed running rfl rfl (Or.inl rfl)

/-- An offer accounts for its frame, or what else happens does. -/
theorem tryOffer_outcome (wellFormed : state.queues.WellFormed) (running : state.panicked = none)
    {lane : Lane} {entry : DataFrame} {fallback : State × List Event}
    (otherwise : Outcome state fallback) :
    Outcome state ((state.tryOffer lane entry).getD fallback) := by
  unfold State.tryOffer
  cases offered : state.queues.offer state.closed lane entry with
  | none => exact otherwise
  | some queues => exact .accepted wellFormed running offered (by simp) (by simp)

/-- A turn of the writer accounts for the frame that it returns. -/
theorem turn_outcome (wellFormed : state.queues.WellFormed) (running : state.panicked = none) :
    Outcome state state.turn := by
  obtain ⟨outcome, passed, served⟩ := Queues.next_spec wellFormed
  unfold State.turn
  rw [passed]
  cases outcome with
  | none =>
    have drained : state.queues.Drained := by
      cases served with
      | nothing control ready => exact wellFormed.drained_iff.mpr ⟨control, ready⟩
    simp only
    split_ifs
    · refine ⟨wellFormed, running, ?_, fun _ => Or.inl drained, by simp⟩
      intro lane
      simp [acceptedOn, returnedOn, removedOn]
    · exact .quiet wellFormed running rfl rfl (Or.inl rfl)
  | some result =>
    obtain ⟨frame, queues⟩ := result
    refine ⟨served.wellFormed wellFormed, running, ?_, by simp, by simp⟩
    intro lane
    have shifted := served.frames lane
    by_cases own : state.queues.serving = lane <;>
      simp [shifted, own, acceptedOn, returnedOn, removedOn]

/-- A poll of the writer accounts for the frame that it returns. -/
theorem pollNext_outcome (wellFormed : state.queues.WellFormed) (running : state.panicked = none)
    (closedFirst : Bool) : Outcome state (state.pollNext closedFirst) := by
  unfold State.pollNext
  split
  · exact turn_outcome wellFormed running
  · rename_i woken parked
    split_ifs with stops wakes
    · refine ⟨wellFormed, running, ?_, fun _ => Or.inr ⟨stops.1, woken, parked⟩, by simp⟩
      intro lane
      simp [acceptedOn, returnedOn, removedOn]
    · exact turn_outcome wellFormed running
    · exact .quiet wellFormed running rfl rfl (Or.inl rfl)

/-- A step that withdraws the entries of one object that pass a test. -/
private theorem Outcome.removed (running : state.panicked = none) {after : State}
    {object : String} {entries : List DataFrame} (kept : after.queues.WellFormed)
    (panicked : after.panicked = state.panicked)
    (control : after.queues.control = state.queues.control)
    (own : (state.queues.data.queue object : Multiset DataFrame) =
      entries + (after.queues.data.queue object : Multiset DataFrame))
    (others : ∀ other, other ≠ object →
      after.queues.data.queue other = state.queues.data.queue other) :
    Outcome state (after, [.removed object entries]) := by
  refine ⟨kept, panicked.trans running, ?_, by simp, by simp⟩
  intro lane
  cases lane with
  | control => simp [control, acceptedOn, returnedOn, removedOn]
  | object name =>
    by_cases same : object = name
    · subst same
      have frames := congrArg (Multiset.map DataFrame.frame) own
      simpa [acceptedOn, returnedOn, removedOn] using frames
    · simp [others name (Ne.symm same), same, acceptedOn, returnedOn, removedOn]

private theorem filter_split (entries : List DataFrame) (test : DataFrame → Bool) :
    (entries : Multiset DataFrame) =
      entries.filter test + (entries.filter fun entry => !test entry : Multiset DataFrame) := by
  rw [Multiset.coe_add, Multiset.coe_eq_coe]
  exact (List.filter_append_perm test entries).symm

/-- `remove_request` accounts for the frames that it takes out. -/
theorem removeRequest_outcome (wellFormed : state.queues.WellFormed)
    (running : state.panicked = none) {object id : String} {result : State × List Event}
    (performed : state.perform (.removeRequest object id) = some result) :
    Outcome state result := by
  obtain ⟨next, removed, kept, control, own, others⟩ :=
    Queues.removeRequest_spec wellFormed object id
  simp only [State.perform, removed, Option.some.injEq] at performed
  subst performed
  refine .removed running ?_ ?_ ?_ ?_ ?_
  · split_ifs <;> exact kept
  · split_ifs <;> rfl
  · split_ifs <;> exact control
  · have split := filter_split (state.queues.data.queue object) fun entry =>
      entry.requestId == some id
    split_ifs <;> simpa [own] using split
  · split_ifs <;> exact others

/-- `remove_object` accounts for the frames that it takes out. -/
theorem removeObject_outcome (wellFormed : state.queues.WellFormed)
    (running : state.panicked = none) {object : String} {result : State × List Event}
    (performed : state.perform (.removeObject object) = some result) :
    Outcome state result := by
  obtain ⟨next, removed, kept, control, own, others⟩ :=
    Queues.removeObject_spec wellFormed object
  simp only [State.perform, removed, Option.some.injEq] at performed
  subst performed
  refine .removed running kept rfl control ?_ others
  simp [own]

/-- Every action keeps the invariant, panics nowhere and balances the lanes. -/
theorem perform_outcome (wellFormed : state.queues.WellFormed) (running : state.panicked = none)
    {action : Action} {result : State × List Event}
    (performed : state.perform action = some result) : Outcome state result := by
  have refused : ∀ {after : State} {lane : Lane} {value : Value}, after.queues = state.queues →
      after.panicked = state.panicked → Outcome state (after, [.refused lane value]) :=
    fun queues panicked => .quiet wellFormed running queues panicked (Or.inr (Or.inl ⟨_, _, rfl⟩))
  have failed : ∀ {sender : Nat} {error : SendError},
      Outcome state (state, [.failed sender error]) :=
    .quiet wellFormed running rfl rfl (Or.inr (Or.inr ⟨_, _, rfl⟩))
  cases action with
  | tryControl value =>
    simp only [State.perform] at performed
    split at performed <;> obtain rfl := Option.some.inj performed
    · exact refused rfl rfl
    · exact tryOffer_outcome wellFormed running (refused rfl rfl)
  | tryData object value =>
    simp only [State.perform] at performed
    split at performed <;> obtain rfl := Option.some.inj performed
    · exact refused rfl rfl
    · exact tryOffer_outcome wellFormed running (refused rfl rfl)
  | control sender value =>
    simp only [State.perform] at performed
    split_ifs at performed
    split at performed <;> obtain rfl := Option.some.inj performed
    · exact failed
    · exact attempt_outcome wellFormed running _ _
  | data sender object value =>
    simp only [State.perform] at performed
    split_ifs at performed
    split at performed
    · obtain rfl := Option.some.inj performed
      exact failed
    · split_ifs at performed <;> obtain rfl := Option.some.inj performed
      · exact failed
      · exact attempt_outcome wellFormed running _ _
  | poll sender =>
    simp only [State.perform, Option.map_eq_some_iff] at performed
    obtain ⟨task, -, rfl⟩ := performed
    split_ifs
    · exact attempt_outcome wellFormed running _ _
    · exact .quiet wellFormed running rfl rfl (Or.inl rfl)
  | drop sender =>
    obtain rfl := Option.some.inj performed
    exact .quiet wellFormed running rfl rfl (Or.inl rfl)
  | removeRequest object id => exact removeRequest_outcome wellFormed running performed
  | removeObject object => exact removeObject_outcome wellFormed running performed
  | close =>
    obtain rfl := Option.some.inj performed
    exact .quiet wellFormed running rfl rfl (Or.inl rfl)
  | next closedFirst =>
    obtain rfl := Option.some.inj performed
    exact pollNext_outcome wellFormed running closedFirst

end Steps

section Runs

variable {history : List (Transition State Action Event)} {state : State}

private theorem step_outcome {action : Action} {result : State × List Event}
    (wellFormed : state.queues.WellFormed) (taken : machine.step state action = some result) :
    Outcome state result := by
  simp only [machine] at taken
  split at taken
  · cases taken
  · rename_i running
    exact perform_outcome wellFormed running taken

/-- The invariant along every run. -/
theorem wellFormed_of_execution (execution : machine.Execution history state) :
    state.queues.WellFormed ∧ state.panicked = none := by
  refine execution.invariant
    (fun state => state.queues.WellFormed ∧ state.panicked = none) ?_ ?_
  · rintro _ rfl
    exact ⟨Queues.wellFormed_empty, rfl⟩
  · rintro before action next events ⟨wellFormed, -⟩ taken
    have outcome := step_outcome wellFormed taken
    exact ⟨outcome.wellFormed, outcome.running⟩

/-- Every retained step has the outcome of a step from well-formed queues. -/
theorem outcome_of_mem (execution : machine.Execution history state)
    {transition : Transition State Action Event} (member : transition ∈ history) :
    Outcome transition.before (transition.after, transition.events) := by
  obtain ⟨⟨_, before⟩, taken⟩ := execution.taken member
  exact step_outcome (wellFormed_of_execution before).1 taken

/-- What was accepted into a lane was handed to the writer, was withdrawn, or is
still queued there. -/
theorem accounts_of_execution (execution : machine.Execution history state) (lane : Lane) :
    (acceptedOn lane (trace history) : Multiset Frame) =
      returnedOn lane (trace history) + removedOn lane (trace history) +
        state.queues.frames lane := by
  induction execution with
  | initial valid =>
    obtain rfl : _ = ({} : State) := valid
    cases lane <;> rfl
  | @step history before action next events prior taken ih =>
    have balanced := (step_outcome (wellFormed_of_execution prior).1 taken).balanced lane
    simp only [trace_append, trace_cons, trace_nil, List.append_nil, acceptedOn_append,
      returnedOn_append, removedOn_append, ← Multiset.coe_add]
    rw [ih, add_assoc, balanced]
    abel

/-- The representation of the outbox along every run, and what it protects: no
`expect` of `next` fails and no subtraction from `bytes` underflows, neither in
the run nor in any operation attempted at its end. -/
theorem outbox_representation (execution : machine.Execution history state) :
    state.queues.WellFormed ∧ (∀ reason, .panicked reason ∉ trace history) ∧
      (∃ outcome, state.queues.next = .ok outcome) ∧
      (∀ object id, ∃ next, state.queues.removeRequest object id = .ok next) ∧
      ∀ object, ∃ next, state.queues.removeObject object = .ok next := by
  obtain ⟨wellFormed, -⟩ := wellFormed_of_execution execution
  refine ⟨wellFormed, ?_, ?_, ?_, ?_⟩
  · intro reason member
    obtain ⟨transition, step, emitted⟩ := mem_trace.mp member
    exact (outcome_of_mem execution step).calm reason emitted
  · obtain ⟨outcome, passed, -⟩ := Queues.next_spec wellFormed
    exact ⟨outcome, passed⟩
  · intro object id
    obtain ⟨next, removed, -⟩ := Queues.removeRequest_spec wellFormed object id
    exact ⟨next, removed⟩
  · intro object
    obtain ⟨next, removed, -⟩ := Queues.removeObject_spec wellFormed object
    exact ⟨next, removed⟩

/-- The reply to `sf.shutdown`. -/
def shutdownReply : Value :=
  .object [("id", .string "bye"), ("jsonrpc", .string "2.0"),
    ("result", .object [("shutdown", .bool true)])]

/-- Three objects queue requests. One is withdrawn from between two others, the writer takes
a frame of each lane in turn, and an object is removed with what it has queued. -/
def manyRequests : List Action :=
  [.tryData "o1" (.object [("id", .string "a")]), .tryData "o1" (.object [("id", .string "b")]),
    .tryData "o1" (.object [("id", .string "c")]), .tryData "o2" (.object [("id", .string "d")]),
    .data 0 "o2" (.object [("id", .string "e")]), .tryData "o3" (.object [("id", .string "f")]),
    .control 1 shutdownReply, .removeRequest "o1" "b", .next false, .next false, .next false,
    .removeObject "o3"]

/-- One request of the first object and one of the second are left, and counted. -/
theorem outbox_representation_requests :
    ∃ history state, machine.run {} manyRequests = some (history, state) ∧
      state.queues.ready = ["o1", "o2"] ∧ state.queues.bytes = 22 ∧ state.queues.WellFormed ∧
      (∃ outcome, state.queues.next = .ok outcome) ∧
      (∃ next, state.queues.removeRequest "o1" "c" = .ok next) ∧
      ∃ next, state.queues.removeObject "o2" = .ok next := by
  obtain ⟨history, state, ran, ready, bytes⟩ : ∃ history state,
      machine.run {} manyRequests = some (history, state) ∧
      state.queues.ready = ["o1", "o2"] ∧ state.queues.bytes = 22 :=
    ⟨_, _, rfl, by decide, by decide⟩
  obtain ⟨wellFormed, -, passes, requests, objects⟩ :=
    outbox_representation (Machine.execution_of_run rfl ran)
  exact ⟨history, state, ran, ready, bytes, wellFormed, passes, requests "o1" "c", objects "o2"⟩

/-- The writer is parked in `next`, the outbox has been closed, and frames are
still queued: the next poll may take either branch of the `select!`. -/
def Undrained (state : State) : Prop :=
  (∃ woken, state.writer = .parked woken) ∧ state.closed = true ∧ ¬ state.queues.Drained

/-- A sender does not end the writer. -/
theorem attempt_not_ended (sender : Nat) (task : Sender) :
    .ended ∉ (state.attempt sender task).2 := by
  unfold State.attempt
  split_ifs
  · simp
  · split <;> simp

/-- An offer does not end the writer. -/
theorem tryOffer_not_ended {lane : Lane} {entry : DataFrame} {fallback : State × List Event}
    (otherwise : .ended ∉ fallback.2) :
    .ended ∉ ((state.tryOffer lane entry).getD fallback).2 := by
  unfold State.tryOffer
  cases state.queues.offer state.closed lane entry with
  | none => exact otherwise
  | some queues => simp

/-- Only a poll of the writer can report the end. -/
theorem next_of_ended {action : Action} {result : State × List Event}
    (performed : state.perform action = some result) (ended : .ended ∈ result.2) :
    ∃ closedFirst, action = .next closedFirst := by
  cases action with
  | next closedFirst => exact ⟨closedFirst, rfl⟩
  | tryControl value | tryData object value =>
    simp only [State.perform] at performed
    split at performed <;> obtain rfl := Option.some.inj performed
    · simp at ended
    · exact absurd ended (tryOffer_not_ended (by simp))
  | control sender value =>
    simp only [State.perform] at performed
    split_ifs at performed
    split at performed <;> obtain rfl := Option.some.inj performed
    · simp at ended
    · exact absurd ended (attempt_not_ended _ _)
  | data sender object value =>
    simp only [State.perform] at performed
    split_ifs at performed
    split at performed
    · obtain rfl := Option.some.inj performed
      simp at ended
    · split_ifs at performed <;> obtain rfl := Option.some.inj performed
      · simp at ended
      · exact absurd ended (attempt_not_ended _ _)
  | poll sender =>
    simp only [State.perform, Option.map_eq_some_iff] at performed
    obtain ⟨task, -, rfl⟩ := performed
    split_ifs at ended
    · exact absurd ended (attempt_not_ended _ _)
    · simp at ended
  | removeRequest object id | removeObject object =>
    simp only [State.perform] at performed
    split at performed <;> obtain rfl := Option.some.inj performed <;> simp [State.panic] at ended
  | drop sender | close =>
    obtain rfl := Option.some.inj performed
    simp at ended

/-- As long as no poll of `next` meets an undrained outbox, `None` comes only
after everything accepted has been handed over or withdrawn. At the end of any
run, a poll is sure to respect this exactly when the outbox is not undrained. -/
theorem outbox_drains_before_end (execution : machine.Execution history state) :
    ((∀ transition ∈ history, ∀ closedFirst, transition.action = .next closedFirst →
        ¬ Undrained transition.before) →
      ∀ earlier transition later, history = earlier ++ transition :: later →
        .ended ∈ transition.events →
        transition.before.queues.Drained ∧
          ∀ lane, (acceptedOn lane (trace earlier) : Multiset Frame) =
            returnedOn lane (trace earlier) + removedOn lane (trace earlier)) ∧
    ((∀ closedFirst next events, machine.step state (.next closedFirst) = some (next, events) →
        .ended ∈ events → state.queues.Drained) ↔ ¬ Undrained state) := by
  constructor
  · intro orderly earlier transition later split ended
    obtain ⟨prior, taken⟩ := execution.cut split
    obtain ⟨wellFormed, running⟩ := wellFormed_of_execution prior
    have outcome := step_outcome wellFormed taken
    have performed : transition.before.perform transition.action =
        some (transition.after, transition.events) := by simpa [machine, running] using taken
    obtain ⟨closedFirst, polled⟩ := next_of_ended performed ended
    have member : transition ∈ history := by simp [split]
    have drained : transition.before.queues.Drained := by
      rcases outcome.ended ended with drained | ⟨closed, parked⟩
      · exact drained
      · by_contra undrained
        exact orderly transition member closedFirst polled ⟨parked, closed, undrained⟩
    refine ⟨drained, fun lane => ?_⟩
    have accounts := accounts_of_execution prior lane
    rwa [Queues.drained_iff_frames.mp drained lane, Multiset.coe_nil, add_zero] at accounts
  · obtain ⟨wellFormed, running⟩ := wellFormed_of_execution execution
    constructor
    · rintro safe ⟨⟨woken, parked⟩, closed, undrained⟩
      refine undrained (safe true { state with writer := .idle, permit := state.permit || woken }
        [.ended] ?_ (by simp))
      simp [machine, running, State.perform, State.pollNext, parked, closed]
    · intro orderly closedFirst next events taken ended
      rcases (step_outcome wellFormed taken).ended ended with drained | ⟨closed, parked⟩
      · exact drained
      · by_contra undrained
        exact orderly ⟨parked, closed, undrained⟩

/-- A reply queued before the writer starts is written before the end. -/
theorem outbox_drains_before_end_reply :
    ∃ history state, machine.run {} [.control 0 shutdownReply, .next false, .close, .next false] =
        some (history, state) ∧ .ended ∈ trace history ∧
      ∀ earlier transition later, history = earlier ++ transition :: later →
        .ended ∈ transition.events →
        transition.before.queues.Drained ∧
          ∀ lane, (acceptedOn lane (trace earlier) : Multiset Frame) =
            returnedOn lane (trace earlier) + removedOn lane (trace earlier) := by
  obtain ⟨history, state, ran, ended, idle⟩ : ∃ history state,
      machine.run {} [.control 0 shutdownReply, .next false, .close, .next false] =
        some (history, state) ∧ .ended ∈ trace history ∧
      ∀ transition ∈ history, transition.before.writer = .idle := ⟨_, _, rfl, by decide⟩
  refine ⟨history, state, ran, ended, ?_⟩
  refine (outbox_drains_before_end (Machine.execution_of_run rfl ran)).1 ?_
  rintro transition member closedFirst - ⟨⟨woken, parked⟩, -⟩
  rw [idle transition member] at parked
  cases parked

/-- A writer that parks, then the last reply is queued and the outbox closed, and
the `select!` of the parked poll takes its `closed` branch: `next` returns
`None` and the accepted reply is neither handed over nor withdrawn. -/
theorem outbox_undrained_end :
    ∃ history state, machine.Execution history state ∧
      (∃ transition ∈ history, .ended ∈ transition.events ∧
        ¬ transition.before.queues.Drained) ∧
      ∃ frame ∈ acceptedOn .control (trace history),
        frame ∉ returnedOn .control (trace history) ∧
          frame ∉ removedOn .control (trace history) := by
  obtain ⟨history, state, ran, checked⟩ : ∃ history state,
      machine.run {} [.next false, .control 0 shutdownReply, .close, .next true] =
        some (history, state) ∧
      (∃ transition ∈ history, .ended ∈ transition.events ∧
        transition.before.queues.control ≠ []) ∧
      ∃ frame ∈ acceptedOn .control (trace history),
        frame ∉ returnedOn .control (trace history) ∧
          frame ∉ removedOn .control (trace history) := ⟨_, _, rfl, by decide⟩
  refine ⟨history, state, Machine.execution_of_run rfl ran, ?_, checked.2⟩
  obtain ⟨transition, member, ended, waiting⟩ := checked.1
  exact ⟨transition, member, ended, fun drained => waiting drained.1⟩

end Runs

end Spinfoam.Outbox
