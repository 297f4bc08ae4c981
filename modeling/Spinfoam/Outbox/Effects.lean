import Spinfoam.Outbox.Delivery

/-!
# What a step of the outbox can do

The inversion of `State.perform`: each step has one of a few effects, guards
included. Results about runs of the outbox are proved effect by effect.
-/

namespace Spinfoam.Outbox

open Spinfoam.Json Spinfoam.Std Spinfoam.Semantics

/-- An attempt to queue a frame. -/
def Action.sends : Action → Bool
  | .tryControl _ | .tryData _ _ | .control _ _ | .data _ _ _ | .poll _ => true
  | _ => false

inductive Effect (state : State) : Action → State × List Event → Prop where
  | refused {action : Action} (sends : action.sends = true) (lane : Lane) (value : Value)
      (dropped : Nat) : Effect state action ({ state with dropped }, [.refused lane value])
  | tooLarge {action : Action} (sends : action.sends = true) (sender : Nat) :
      Effect state action (state, [.failed sender .frameTooLarge])
  | senderClosed {action : Action} (sends : action.sends = true) (sender : Nat)
      (closed : state.closed = true) :
      Effect state action
        ({ state with senders := state.senders.erase sender }, [.failed sender .closed])
  | senderParked {action : Action} (sends : action.sends = true) (sender : Nat) {task : Sender}
      (isOpen : state.closed = false)
      (full : state.queues.offer state.closed task.lane task.entry = none) :
      Effect state action
        ({ state with senders := state.senders.insert sender { task with woken := false } }, [])
  | senderAsleep {sender : Nat} : Effect state (.poll sender) (state, [])
  | accepted {action : Action} (sends : action.sends = true) {lane : Lane} {entry : DataFrame}
      {queues : Queues} {senders : Map Nat Sender}
      (offered : state.queues.offer state.closed lane entry = some queues)
      (fewer : ∀ {sender task}, senders.lookup sender = some task →
        state.senders.lookup sender = some task) :
      Effect state action ({ state with queues, senders }.notifyChanged, [.accepted lane entry])
  | senderDropped (sender : Nat) :
      Effect state (.drop sender) ({ state with senders := state.senders.erase sender }, [])
  | closed : Effect state .close ({ state with closed := true }, [])
  | returned (closedFirst : Bool) {frame : Frame} {queues : Queues}
      (served : state.queues.Served (some (frame, queues))) :
      Effect state (.next closedFirst) ({ state with queues, writer := .idle }.notifySpace,
        [.returned state.queues.serving frame])
  | ended (closedFirst permit : Bool) (closed : state.closed = true)
      (cause : state.queues.Drained ∨ ∃ woken, state.writer = .parked woken) :
      Effect state (.next closedFirst) ({ state with writer := .idle, permit }, [.ended])
  | parked (closedFirst : Bool) (isOpen : state.closed = false) (drained : state.queues.Drained) :
      Effect state (.next closedFirst)
        ({ state with writer := .parked false, permit := false }, [])
  | asleep (closedFirst : Bool) (isOpen : state.closed = false)
      (writer : state.writer = .parked false) : Effect state (.next closedFirst) (state, [])
  | unknownRequest (object id : String) (absent : state.queues.data.queue object = []) :
      Effect state (.removeRequest object id) (state, [.removed object []])
  | removedRequest (object id : String) {queues : Queues}
      (removed : state.queues.removeRequest object id = .ok queues) :
      Effect state (.removeRequest object id) ({ state with queues }.notifySpace,
        [.removed object ((state.queues.data.queue object).filter (·.requestId == some id))])
  | removedObject (object : String) {queues : Queues}
      (removed : state.queues.removeObject object = .ok queues) :
      Effect state (.removeObject object) ({ state with queues }.notifySpace,
        [.removed object (state.queues.data.queue object)])

section Steps

variable {state : State}

/-- An attempt to push is accepted, refused, or parks its sender. -/
theorem attempt_effect {action : Action} (sends : action.sends = true) (sender : Nat)
    (task : Sender) : Effect state action (state.attempt sender task) := by
  unfold State.attempt
  split_ifs with closed
  · exact .senderClosed sends sender closed
  · split
    · rename_i queues offered
      exact .accepted sends offered fun found => (Map.lookup_erase_eq_some found).2
    · rename_i full
      exact .senderParked sends sender (by simpa using closed) full

/-- An offer is accepted, or what else was to happen happens. -/
theorem tryOffer_effect {action : Action} (sends : action.sends = true) {lane : Lane} {entry : DataFrame}
    {fallback : State × List Event} (otherwise : Effect state action fallback) :
    Effect state action ((state.tryOffer lane entry).getD fallback) := by
  unfold State.tryOffer
  cases offered : state.queues.offer state.closed lane entry with
  | none => exact otherwise
  | some queues => exact .accepted sends offered fun found => found

/-- A turn of the writer returns a frame, ends, or parks. -/
theorem turn_effect (wellFormed : state.queues.WellFormed) (closedFirst : Bool) :
    Effect state (.next closedFirst) state.turn := by
  obtain ⟨outcome, passed, served⟩ := Queues.next_spec wellFormed
  unfold State.turn
  rw [passed]
  cases outcome with
  | none =>
    have drained : state.queues.Drained := by
      cases served with
      | nothing control ready => exact wellFormed.drained_iff.mpr ⟨control, ready⟩
    simp only
    split_ifs with closed
    · exact .ended closedFirst state.permit closed (Or.inl drained)
    · exact .parked closedFirst (by simpa using closed) drained
  | some result => exact .returned closedFirst served

/-- A poll of the writer returns a frame, ends, or parks, whichever branch of its
`select!` is looked at first. -/
theorem pollNext_effect (wellFormed : state.queues.WellFormed) (closedFirst : Bool) :
    Effect state (.next closedFirst) (state.pollNext closedFirst) := by
  unfold State.pollNext
  split
  · exact turn_effect wellFormed closedFirst
  · rename_i woken parked
    by_cases stops : state.closed = true ∧ (closedFirst = true ∨ woken = false)
    · rw [if_pos stops]
      exact .ended closedFirst _ stops.1 (Or.inr ⟨woken, parked⟩)
    · rw [if_neg stops]
      cases woken with
      | true => exact turn_effect wellFormed closedFirst
      | false => exact .asleep closedFirst (by simpa using stops) parked

/-- Every step has one of the effects. -/
theorem perform_effect (wellFormed : state.queues.WellFormed) {action : Action}
    {result : State × List Event} (performed : state.perform action = some result) :
    Effect state action result := by
  cases action with
  | tryControl value | tryData object value =>
    simp only [State.perform] at performed
    split at performed <;> obtain rfl := Option.some.inj performed
    · exact .refused rfl _ _ state.dropped
    · exact tryOffer_effect rfl (.refused rfl _ _ _)
  | control sender value =>
    simp only [State.perform] at performed
    split_ifs at performed
    split at performed <;> obtain rfl := Option.some.inj performed
    · exact .tooLarge rfl sender
    · exact attempt_effect rfl _ _
  | data sender object value =>
    simp only [State.perform] at performed
    split_ifs at performed
    split at performed
    · obtain rfl := Option.some.inj performed
      exact .tooLarge rfl sender
    · split_ifs at performed <;> obtain rfl := Option.some.inj performed
      · exact .tooLarge rfl sender
      · exact attempt_effect rfl _ _
  | poll sender =>
    simp only [State.perform, Option.map_eq_some_iff] at performed
    obtain ⟨task, -, rfl⟩ := performed
    split_ifs
    · exact attempt_effect rfl _ _
    · exact .senderAsleep
  | drop sender =>
    obtain rfl := Option.some.inj performed
    exact .senderDropped sender
  | close =>
    obtain rfl := Option.some.inj performed
    exact .closed
  | removeRequest object id =>
    obtain ⟨next, removed, -⟩ := Queues.removeRequest_spec wellFormed object id
    simp only [State.perform, removed, Option.some.injEq] at performed
    subst performed
    by_cases known : object ∈ state.queues.data
    · rw [if_pos known]
      exact .removedRequest object id removed
    · have absent : state.queues.data.queue object = [] := by
        rw [← not_ne_iff, ← wellFormed.compact.mem_iff]
        exact known
      have unbound : state.queues.data.lookup object = none := AList.lookup_eq_none.mpr known
      have same : next = state.queues := by
        simp only [Queues.removeRequest, unbound, Except.ok.injEq] at removed
        exact removed.symm
      rw [if_neg known, absent, same]
      exact .unknownRequest object id absent
  | removeObject object =>
    obtain ⟨next, removed, -⟩ := Queues.removeObject_spec wellFormed object
    simp only [State.perform, removed, Option.some.injEq] at performed
    subst performed
    exact .removedObject object removed
  | next closedFirst =>
    obtain rfl := Option.some.inj performed
    exact pollNext_effect wellFormed closedFirst

end Steps

section Runs

variable {history : List (Transition State Action Event)} {state : State}

/-- A step of a run has an effect, on well-formed queues. -/
theorem effect_of_step (execution : machine.Execution history state) {action : Action}
    {result : State × List Event} (taken : machine.step state action = some result) :
    state.queues.WellFormed ∧ Effect state action result := by
  obtain ⟨wellFormed, running⟩ := wellFormed_of_execution execution
  refine ⟨wellFormed, perform_effect wellFormed ?_⟩
  simpa [machine, running] using taken

end Runs

end Spinfoam.Outbox
