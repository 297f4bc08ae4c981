import Spinfoam.Outbox.Effects
import Spinfoam.Outbox.Shared
import Spinfoam.Std.Fifo

/-!
# Conservation and order in the outbox

Every lane of the outbox is a first-in first-out queue with removals: each step
moves a lane in one of four ways, and along a run a ledger gives every accepted
entry exactly one fate.
-/

namespace Spinfoam.Outbox

open Spinfoam.Json Spinfoam.Std Spinfoam.Semantics

/-- The entries accepted into a lane, as the lane keeps them. -/
def acceptedEntries (lane : Lane) (events : List Event) : List DataFrame :=
  events.filterMap fun
    | .accepted place entry => if place = lane then some (kept place entry) else none
    | _ => none

/-- The entries withdrawn from a lane. -/
def removedEntries (lane : Lane) (events : List Event) : List DataFrame :=
  events.flatMap fun
    | .removed object entries => if .object object = lane then entries else []
    | _ => []

/-- What a step can do to one lane. -/
inductive LaneMove (lane : Lane) : List DataFrame → List Event → List DataFrame → Prop where
  | still {entries : List DataFrame} {events : List Event}
      (accepted : acceptedEntries lane events = []) (returned : returnedOn lane events = [])
      (removed : removedEntries lane events = []) : LaneMove lane entries events entries
  | accept {entries : List DataFrame} {events : List Event} (entry : DataFrame)
      (accepted : acceptedEntries lane events = [entry]) (returned : returnedOn lane events = [])
      (removed : removedEntries lane events = []) :
      LaneMove lane entries events (entries ++ [entry])
  | take {entry : DataFrame} {rest : List DataFrame} {events : List Event}
      (accepted : acceptedEntries lane events = [])
      (returned : returnedOn lane events = [entry.frame])
      (removed : removedEntries lane events = []) : LaneMove lane (entry :: rest) events rest
  | remove {entries : List DataFrame} {events : List Event} (test : DataFrame → Bool)
      (accepted : acceptedEntries lane events = []) (returned : returnedOn lane events = [])
      (removed : removedEntries lane events = entries.filter test) :
      LaneMove lane entries events (entries.filter fun entry => !test entry)

section Laws

variable (lane : Lane) (first second : List Event)

@[simp] theorem acceptedEntries_append : acceptedEntries lane (first ++ second) =
    acceptedEntries lane first ++ acceptedEntries lane second := List.filterMap_append

@[simp] theorem removedEntries_append : removedEntries lane (first ++ second) =
    removedEntries lane first ++ removedEntries lane second := List.flatMap_append

end Laws

namespace Queues

variable {queues next : Queues}

/-- An accepted entry goes to the end of its own lane. -/
theorem lane_offer {closed : Bool} {lane : Lane} {entry : DataFrame}
    (offered : queues.offer closed lane entry = some next) (other : Lane) :
    next.lane other = queues.lane other ++ if lane = other then [kept lane entry] else [] := by
  cases lane with
  | control =>
    simp only [Queues.offer, Option.ite_none_left_eq_some] at offered
    obtain ⟨-, rfl⟩ := pushControl_eq_some.mp offered.2
    cases other <;> simp [lane, kept]
  | object name =>
    obtain ⟨-, -, -, rfl⟩ := pushData_eq_some.mp offered
    cases other with
    | control => simp [lane]
    | object key =>
      by_cases same : name = key
      · subst same
        simp [lane]
      · simp [lane, MultiQueue.queue_put_ne _ _ (Ne.symm same), same]

/-- What is served was the oldest entry of the lane whose turn it was. -/
theorem Served.lane {frame : Frame} (served : queues.Served (some (frame, next))) :
    ∃ entry, entry.frame = frame ∧ ∀ lane,
      queues.lane lane = (if queues.serving = lane then [entry] else []) ++ next.lane lane := by
  cases served with
  | @control _ rest waiting turn =>
    have serving : queues.serving = .control := by simp [Queues.serving, waiting, turn]
    refine ⟨⟨frame, none⟩, rfl, ?_⟩
    intro lane
    rw [serving]
    cases lane <;> simp [Queues.lane, waiting]
  | @data object ready first rest turn rotation queued =>
    refine ⟨first, rfl, ?_⟩
    intro lane
    rw [serving_data turn rotation]
    cases lane with
    | control => simp [Queues.lane]
    | object key =>
      by_cases same : object = key
      · subst same
        simp [Queues.lane, queued]
      · simp [Queues.lane, MultiQueue.queue_put_ne _ _ (Ne.symm same), same]

end Queues

section Steps

variable {state : State}

/-- A step that queues one entry. -/
private theorem laneMove_accepted (lane : Lane) {place : Lane} {entry : DataFrame}
    {queues next : Queues} {closed : Bool} (offered : queues.offer closed place entry = some next) :
    LaneMove lane (queues.lane lane) [.accepted place entry] (next.lane lane) := by
  rw [Queues.lane_offer offered lane]
  by_cases own : place = lane
  · subst own
    rw [if_pos rfl]
    exact .accept _ (by simp [acceptedEntries]) rfl rfl
  · rw [if_neg own, List.append_nil]
    exact .still (by simp [acceptedEntries, own]) rfl rfl

/-- A step that withdraws the entries of one object that pass a test. -/
private theorem laneMove_removed (lane : Lane) {object : String} {queues after : Queues}
    (test : DataFrame → Bool) (control : after.control = queues.control)
    (own : after.data.queue object = (queues.data.queue object).filter fun entry => !test entry)
    (others : ∀ other, other ≠ object → after.data.queue other = queues.data.queue other) :
    LaneMove lane (queues.lane lane) [.removed object ((queues.data.queue object).filter test)]
      (after.lane lane) := by
  cases lane with
  | control =>
    have same : after.lane .control = queues.lane .control := by
      simp [Queues.lane, control]
    rw [same]
    exact .still rfl rfl rfl
  | object name =>
    by_cases mine : name = object
    · subst mine
      have same : after.lane (.object name) =
          (queues.lane (.object name)).filter fun entry => !test entry := own
      rw [same]
      exact .remove test rfl rfl (by simp [removedEntries, Queues.lane])
    · have same : after.lane (.object name) = queues.lane (.object name) := others name mine
      rw [same]
      exact .still rfl rfl (by simp [removedEntries, Ne.symm mine])

/-- Every step moves every lane. -/
theorem Effect.laneMove {action : Action} {result : State × List Event}
    (effect : Effect state action result) (wellFormed : state.queues.WellFormed) (lane : Lane) :
    LaneMove lane (state.queues.lane lane) result.2 (result.1.queues.lane lane) := by
  cases effect with
  | accepted _ offered =>
    rw [State.notifyChanged_queues]
    exact laneMove_accepted lane offered
  | returned closedFirst served =>
    obtain ⟨entry, rfl, lanes⟩ := served.lane
    rw [State.notifySpace_queues, lanes lane]
    by_cases own : state.queues.serving = lane
    · rw [if_pos own]
      exact .take rfl (by simp [returnedOn, own]) rfl
    · rw [if_neg own]
      exact .still rfl (by simp [returnedOn, own]) rfl
  | unknownRequest object id absent => exact .still rfl rfl (by simp [removedEntries])
  | removedRequest object id removed =>
    obtain ⟨next, same, -, control, own, others⟩ :=
      Queues.removeRequest_spec wellFormed object id
    obtain rfl := Except.ok.inj (same.symm.trans removed)
    exact laneMove_removed lane _ control own others
  | removedObject object removed =>
    obtain ⟨next, same, -, control, own, others⟩ := Queues.removeObject_spec wellFormed object
    obtain rfl := Except.ok.inj (same.symm.trans removed)
    have whole := laneMove_removed lane (fun _ => true) control (by simpa using own) others
    simpa using whole
  | refused | tooLarge | senderClosed | senderParked | senderAsleep | senderDropped | closed
  | ended | parked | asleep => exact .still rfl rfl rfl

end Steps

section Runs

variable {history : List (Transition State Action Event)} {state : State}

/-- The ledger of each lane. -/
theorem settled_of_execution (execution : machine.Execution history state) (lane : Lane) :
    ∃ ledger returned, Settled ledger (acceptedEntries lane (trace history)) returned
        (removedEntries lane (trace history)) (state.queues.lane lane) ∧
      returned.map DataFrame.frame = returnedOn lane (trace history) := by
  induction execution with
  | initial valid =>
    obtain rfl : _ = ({} : State) := valid
    refine ⟨[], [], ?_, rfl⟩
    cases lane <;> exact .start
  | @step history before action next events prior taken ih =>
    obtain ⟨ledger, returned, settled, frames⟩ := ih
    obtain ⟨wellFormed, effect⟩ := effect_of_step prior taken
    have moved := effect.laneMove wellFormed lane
    simp only [trace_append, trace_cons, trace_nil, List.append_nil, acceptedEntries_append,
      removedEntries_append, returnedOn_append]
    generalize before.queues.lane lane = old at settled moved
    generalize next.queues.lane lane = new at moved ⊢
    cases moved with
    | still accepted nothing removed =>
      rw [accepted, nothing, removed]
      simpa using ⟨ledger, returned, settled, frames⟩
    | accept entry accepted nothing removed =>
      rw [accepted, nothing, removed]
      simpa using ⟨_, returned, settled.accept entry, frames⟩
    | @take entry _ _ accepted taken removed =>
      obtain ⟨later, settles⟩ := settled.take
      rw [accepted, taken, removed]
      refine ⟨later, returned ++ [entry], by simpa using settles, ?_⟩
      simp [frames]
    | remove test accepted nothing removed =>
      obtain ⟨later, settles⟩ := settled.remove test
      rw [accepted, nothing, removed]
      exact ⟨later, returned, by simpa using settles, by simpa using frames⟩

/-- Every accepted frame has exactly one fate, and each lane hands over what is
not removed in the order in which it was accepted. Only `next` returns frames, one
at a time; only the two removals withdraw entries, and only their own; a rejected
push leaves the queues as they were. -/
theorem outbox_conservation (execution : machine.Execution history state) :
    (∀ lane, ∃ ledger returned, Settled ledger (acceptedEntries lane (trace history)) returned
        (removedEntries lane (trace history)) (state.queues.lane lane) ∧
      returned.map DataFrame.frame = returnedOn lane (trace history)) ∧
    ∀ transition ∈ history,
      (∀ lane frame, .returned lane frame ∈ transition.events →
        (∃ closedFirst, transition.action = .next closedFirst) ∧
          transition.events = [.returned lane frame]) ∧
      (∀ object entries, .removed object entries ∈ transition.events →
        transition.action = .removeObject object ∨
          ∃ id, transition.action = .removeRequest object id ∧
            ∀ entry ∈ entries, entry.requestId = some id) ∧
      ((∃ lane value, .refused lane value ∈ transition.events) ∨
          (∃ sender error, .failed sender error ∈ transition.events) →
        transition.after.queues = transition.before.queues) := by
  refine ⟨settled_of_execution execution, ?_⟩
  intro transition member
  obtain ⟨⟨earlier, prior⟩, taken⟩ := execution.taken member
  have effect := (effect_of_step prior taken).2
  generalize transition.events = events at effect ⊢
  generalize transition.after = after at effect ⊢
  generalize transition.action = action at effect ⊢
  cases effect with
  | removedRequest object id removed =>
    refine ⟨by simp, ?_, by simp⟩
    intro name entries listed
    obtain ⟨rfl, rfl⟩ : name = object ∧ entries = (transition.before.queues.data.queue object).filter
        (·.requestId == some id) := by simpa using listed
    refine Or.inr ⟨id, rfl, ?_⟩
    intro entry kept
    simpa using (List.mem_filter.mp kept).2
  | unknownRequest object id absent =>
    refine ⟨by simp, ?_, by simp⟩
    intro name entries listed
    obtain ⟨rfl, rfl⟩ : name = object ∧ entries = [] := by simpa using listed
    exact Or.inr ⟨id, rfl, by simp⟩
  | _ => simp

/-- A request is withdrawn from between two others of its object. -/
theorem outbox_conservation_requests :
    ∃ history state, machine.run {}
        [.tryData "o1" (.object [("id", .string "a")]), .tryData "o1" (.object [("id", .string "b")]),
          .tryData "o1" (.object [("id", .string "c")]), .tryControl shutdownReply,
          .removeRequest "o1" "b", .next false, .next false, .next false] =
        some (history, state) ∧
      (removedEntries (.object "o1") (trace history)).length = 1 ∧
      ∀ lane, ∃ ledger returned, Settled ledger (acceptedEntries lane (trace history)) returned
          (removedEntries lane (trace history)) (state.queues.lane lane) ∧
        returned.map DataFrame.frame = returnedOn lane (trace history) := by
  obtain ⟨history, state, ran, removed⟩ : ∃ history state, machine.run {}
        [.tryData "o1" (.object [("id", .string "a")]), .tryData "o1" (.object [("id", .string "b")]),
          .tryData "o1" (.object [("id", .string "c")]), .tryControl shutdownReply,
          .removeRequest "o1" "b", .next false, .next false, .next false] =
        some (history, state) ∧
      (removedEntries (.object "o1") (trace history)).length = 1 := ⟨_, _, rfl, by decide⟩
  exact ⟨history, state, ran, removed,
    (outbox_conservation (Machine.execution_of_run rfl ran)).1⟩

end Runs

end Spinfoam.Outbox
