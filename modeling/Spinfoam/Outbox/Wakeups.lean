import Spinfoam.Outbox.Effects

/-!
# Wakeups of the outbox

A parked task is woken by its `Notify` or by the token that closes the outbox.
Nothing a task waits for ever happens without waking it.
-/

namespace Spinfoam.Outbox

open Spinfoam.Json Spinfoam.Std Spinfoam.Semantics

namespace Queues

variable {queues next : Queues}

/-- What finds no room finds none behind another frame either. -/
theorem offer_none_of_offer {closed : Bool} {lane place : Lane} {entry other : DataFrame}
    (full : queues.offer false lane entry = none)
    (offered : queues.offer closed place other = some next) :
    next.offer false lane entry = none := by
  have grown : queues.control.length ≤ next.control.length ∧ queues.bytes ≤ next.bytes ∧
      ∀ object, queuedBytes (queues.data.queue object) ≤ queuedBytes (next.data.queue object) := by
    cases place with
    | control =>
      simp only [Queues.offer, Option.ite_none_left_eq_some] at offered
      obtain ⟨-, rfl⟩ := pushControl_eq_some.mp offered.2
      exact ⟨by simp, le_refl _, fun _ => le_refl _⟩
    | object name =>
      obtain ⟨-, -, -, rfl⟩ := pushData_eq_some.mp offered
      refine ⟨le_refl _, Nat.le_add_right .., ?_⟩
      intro object
      by_cases same : object = name
      · subst same
        simp
      · simp [MultiQueue.queue_put_ne _ _ same]
  obtain ⟨control, bytes, used⟩ := grown
  cases lane with
  | control =>
    simp only [Queues.offer, pushControl, Bool.false_eq_true, if_false, ite_eq_right_iff,
      reduceCtorEq, imp_false] at full ⊢
    omega
  | object name =>
    have more := used name
    simp only [Queues.offer, pushData, ite_eq_left_iff, reduceCtorEq, imp_false, not_not,
      Bool.false_eq_true, false_or] at full ⊢
    omega

end Queues

/-- Whoever is parked without a wakeup has nothing to be woken for. -/
structure Awaited (state : State) : Prop where
  writer : state.writer = .parked false → state.closed = false → state.queues.Drained
  sender : ∀ {sender task}, state.senders.lookup sender = some task → task.woken = false →
    state.closed = false → state.queues.offer false task.lane task.entry = none

section Steps

variable {state : State}

theorem notifyChanged_writer (state : State) : state.notifyChanged.writer ≠ .parked false := by
  unfold State.notifyChanged
  split
  · simp
  · rename_i other
    exact other

/-- All parked senders are woken when space may have become free. -/
theorem woken_of_notifySpace {sender : Nat} {task : Sender}
    (found : state.notifySpace.senders.lookup sender = some task) : task.woken = true := by
  simp only [State.notifySpace, Map.lookup_mapValues, Option.map_eq_some_iff] at found
  obtain ⟨before, -, rfl⟩ := found
  rfl

/-- A removal wakes the senders, and the writer has no reason to be woken. -/
private theorem Awaited.removed (awaited : Awaited state) {queues : Queues}
    (control : queues.control = state.queues.control)
    (fewer : ∀ object, state.queues.data.queue object = [] → queues.data.queue object = []) :
    Awaited { state with queues }.notifySpace where
  writer := by
    intro parked isOpen
    obtain ⟨empty, data⟩ := awaited.writer parked isOpen
    exact ⟨control.trans empty, fun object => fewer object (data object)⟩
  sender := by
    intro sender task found asleep
    rw [woken_of_notifySpace found] at asleep
    cases asleep

/-- Every effect keeps it so. -/
theorem Effect.awaited {action : Action} {result : State × List Event}
    (effect : Effect state action result) (wellFormed : state.queues.WellFormed)
    (awaited : Awaited state) : Awaited result.1 := by
  cases effect with
  | refused | tooLarge | senderAsleep | asleep | unknownRequest =>
    exact ⟨awaited.writer, awaited.sender⟩
  | senderClosed sends sender closed =>
    refine ⟨awaited.writer, ?_⟩
    intro other task found
    exact awaited.sender (Map.lookup_erase_eq_some found).2
  | @senderParked _ sends sender task isOpen full =>
    refine ⟨awaited.writer, ?_⟩
    intro other current found asleep _
    obtain ⟨rfl, rfl⟩ | ⟨-, found⟩ := Map.lookup_insert_eq_some found
    · rwa [isOpen] at full
    · exact awaited.sender found asleep isOpen
  | @accepted _ sends lane entry queues senders offered fewer =>
    constructor
    case writer => exact fun parked => absurd parked (notifyChanged_writer _)
    case sender =>
      have same : ({ state with queues, senders } : State).notifyChanged.senders = senders ∧
          ({ state with queues, senders } : State).notifyChanged.closed = state.closed := by
        unfold State.notifyChanged
        split <;> exact ⟨rfl, rfl⟩
      intro sender task found asleep isOpen
      rw [same.1] at found
      rw [same.2] at isOpen
      rw [State.notifyChanged_queues]
      exact Queues.offer_none_of_offer (awaited.sender (fewer found) asleep isOpen) offered
  | senderDropped sender =>
    refine ⟨awaited.writer, ?_⟩
    intro other task found
    exact awaited.sender (Map.lookup_erase_eq_some found).2
  | closed =>
    constructor
    case writer =>
      intro _ isOpen
      cases isOpen
    case sender =>
      intro _ _ _ _ isOpen
      cases isOpen
  | returned closedFirst served =>
    constructor
    case writer =>
      intro parked
      cases parked
    case sender =>
      intro sender task found asleep
      rw [woken_of_notifySpace found] at asleep
      cases asleep
  | ended closedFirst permit closed cause =>
    refine ⟨?_, awaited.sender⟩
    intro parked
    cases parked
  | parked closedFirst isOpen drained => exact ⟨fun _ _ => drained, awaited.sender⟩
  | removedRequest object id removed =>
    obtain ⟨next, same, -, control, own, others⟩ :=
      Queues.removeRequest_spec wellFormed object id
    obtain rfl := Except.ok.inj (same.symm.trans removed)
    refine awaited.removed control ?_
    intro other empty
    by_cases mine : other = object
    · subst mine
      rw [own, empty, List.filter_nil]
    · rw [others other mine, empty]
  | removedObject object removed =>
    obtain ⟨next, same, -, control, own, others⟩ := Queues.removeObject_spec wellFormed object
    obtain rfl := Except.ok.inj (same.symm.trans removed)
    refine awaited.removed control ?_
    intro other empty
    by_cases mine : other = object
    · subst mine
      exact own
    · rw [others other mine, empty]

end Steps

section Runs

variable {history : List (Transition State Action Event)} {state : State}

theorem awaited_of_execution (execution : machine.Execution history state) : Awaited state := by
  refine execution.historyInvariant (fun _ state => Awaited state) ?_ ?_
  · rintro _ rfl
    refine ⟨?_, ?_⟩
    · intro parked
      cases parked
    · intro sender task found
      cases found
  · intro history state action next events prior awaited taken
    obtain ⟨wellFormed, effect⟩ := effect_of_step prior taken
    exact effect.awaited wellFormed awaited

/-- Neither the writer nor a sender is ever parked without a wakeup, from its
`Notify` or from the closing token, while there is something for it to do; and the
poll that follows does it. -/
theorem outbox_no_lost_wakeup (execution : machine.Execution history state) :
    (∀ woken, state.writer = .parked woken → ¬ state.queues.Drained ∨ state.closed = true →
      (woken = true ∨ state.closed = true) ∧
        ∀ closedFirst next events, machine.step state (.next closedFirst) = some (next, events) →
          next.writer = .idle) ∧
    ∀ sender task, state.senders.lookup sender = some task →
      (∃ next, state.queues.offer false task.lane task.entry = some next) ∨ state.closed = true →
      (task.woken = true ∨ state.closed = true) ∧
        ∀ next events, machine.step state (.poll sender) = some (next, events) →
          next.senders.lookup sender = none := by
  have awaited := awaited_of_execution execution
  obtain ⟨wellFormed, running⟩ := wellFormed_of_execution execution
  constructor
  · intro woken parked due
    have awake : woken = true ∨ state.closed = true := by
      by_contra asleep
      simp only [not_or, Bool.not_eq_true] at asleep
      obtain ⟨rfl, isOpen⟩ := asleep
      rcases due with undrained | closed
      · exact undrained (awaited.writer parked isOpen)
      · rw [isOpen] at closed
        cases closed
    refine ⟨awake, ?_⟩
    intro closedFirst next events taken
    have effect := (effect_of_step execution taken).2
    cases effect with
    | refused sends | tooLarge sends | senderClosed sends | senderParked sends
    | accepted sends => cases sends
    | returned | ended => rfl
    | parked _ isOpen drained =>
      rcases due with undrained | closed
      · exact absurd drained undrained
      · rw [isOpen] at closed
        cases closed
    | asleep _ isOpen asleep =>
      obtain rfl := Writer.parked.inj (parked.symm.trans asleep)
      rw [isOpen] at awake
      simp at awake
  · intro sender task found due
    have awake : task.woken = true ∨ state.closed = true := by
      by_contra asleep
      simp only [not_or, Bool.not_eq_true] at asleep
      obtain ⟨asleep, isOpen⟩ := asleep
      rcases due with ⟨next, room⟩ | closed
      · rw [awaited.sender found asleep isOpen] at room
        cases room
      · rw [isOpen] at closed
        cases closed
    refine ⟨awake, ?_⟩
    intro next events taken
    have polled : state.attempt sender task = (next, events) := by
      simpa [machine, running, State.perform, found, awake] using taken
    unfold State.attempt at polled
    split_ifs at polled with closed
    · obtain rfl := congrArg Prod.fst polled
      exact AList.lookup_erase _ _
    · have isOpen : state.closed = false := by simpa using closed
      obtain ⟨queues, room⟩ := due.resolve_right closed
      rw [isOpen, room] at polled
      obtain rfl := congrArg Prod.fst polled
      have kept : ∀ other : State, other.notifyChanged.senders = other.senders := by
        intro other
        unfold State.notifyChanged
        split <;> rfl
      rw [kept]
      exact AList.lookup_erase _ _

/-- The writer parks on the empty queues and a reply wakes it. -/
theorem outbox_no_lost_wakeup_reply :
    ∃ history state, machine.run {} [.next false, .tryControl shutdownReply] =
        some (history, state) ∧
      ∃ woken, state.writer = .parked woken ∧ (woken = true ∨ state.closed = true) ∧
        ∀ closedFirst next events, machine.step state (.next closedFirst) = some (next, events) →
          next.writer = .idle := by
  obtain ⟨history, state, ran, parked, queued⟩ : ∃ history state,
      machine.run {} [.next false, .tryControl shutdownReply] = some (history, state) ∧
        state.writer = .parked true ∧ state.queues.control.length = 1 :=
    ⟨_, _, rfl, by decide, by decide⟩
  have undrained : ¬ state.queues.Drained := by
    rintro ⟨empty, -⟩
    rw [empty] at queued
    cases queued
  exact ⟨history, state, ran, true, parked,
    (outbox_no_lost_wakeup (Machine.execution_of_run rfl ran)).1 true parked (Or.inl undrained)⟩

end Runs

end Spinfoam.Outbox
