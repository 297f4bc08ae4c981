import Mathlib

/-!
# Executable transition systems

A `Machine` steps by a function, so a run can be evaluated as well as reasoned
about. `Machine.Execution` retains every step with the state before and after
it: claims about whole runs speak of the retained steps, and the induction
rules here are the only place where a run is taken apart.
-/

namespace Spinfoam.Semantics

universe u v w

/-- A transition system whose steps emit observable events. Nondeterminism is
resolved by the action, so that `step` stays a function. -/
structure Machine (State : Type u) (Action : Type v) (Event : Type w) where
  Initial : State → Prop
  step : State → Action → Option (State × List Event)

/-- One retained step of a run. -/
structure Transition (State : Type u) (Action : Type v) (Event : Type w) where
  before : State
  action : Action
  events : List Event
  after : State

variable {State : Type u} {Action : Type v} {Event : Type w}

/-- The events of a run in the order in which they were emitted. -/
def trace (history : List (Transition State Action Event)) : List Event :=
  history.flatMap Transition.events

@[simp] theorem trace_nil : trace ([] : List (Transition State Action Event)) = [] := rfl

@[simp] theorem trace_append (first second : List (Transition State Action Event)) :
    trace (first ++ second) = trace first ++ trace second := by
  simp [trace]

@[simp] theorem trace_cons (head : Transition State Action Event)
    (rest : List (Transition State Action Event)) :
    trace (head :: rest) = head.events ++ trace rest := rfl

theorem mem_trace {event : Event} {history : List (Transition State Action Event)} :
    event ∈ trace history ↔ ∃ transition ∈ history, event ∈ transition.events :=
  List.mem_flatMap

namespace Machine

variable {machine : Machine State Action Event}

/-- A finite run from an initial state, with all its steps. -/
inductive Execution (machine : Machine State Action Event) :
    List (Transition State Action Event) → State → Prop where
  | initial {state} (valid : machine.Initial state) : Execution machine [] state
  | step {history state action next events} (prior : Execution machine history state)
      (taken : machine.step state action = some (next, events)) :
      Execution machine (history ++ [⟨state, action, events, next⟩]) next

/-- The states some run arrives at. -/
def Reachable (machine : Machine State Action Event) (state : State) : Prop :=
  ∃ history, machine.Execution history state

theorem Execution.reachable {history : List (Transition State Action Event)} {state : State}
    (execution : machine.Execution history state) : machine.Reachable state :=
  ⟨history, execution⟩

/-- What holds initially and survives every step holds at the end of every run. -/
theorem Execution.invariant (property : State → Prop)
    (initially : ∀ state, machine.Initial state → property state)
    (preserved : ∀ state action next events, property state →
      machine.step state action = some (next, events) → property next)
    {history : List (Transition State Action Event)} {state : State}
    (execution : machine.Execution history state) : property state := by
  induction execution with
  | initial valid => exact initially _ valid
  | step _ taken ih => exact preserved _ _ _ _ ih taken

/-- The rule for properties that relate the final state to the run behind it. -/
theorem Execution.historyInvariant
    (property : List (Transition State Action Event) → State → Prop)
    (initially : ∀ state, machine.Initial state → property [] state)
    (preserved : ∀ history state action next events, machine.Execution history state →
      property history state → machine.step state action = some (next, events) →
      property (history ++ [⟨state, action, events, next⟩]) next)
    {history : List (Transition State Action Event)} {state : State}
    (execution : machine.Execution history state) : property history state := by
  induction execution with
  | initial valid => exact initially _ valid
  | step prior taken ih => exact preserved _ _ _ _ _ prior ih taken

/-- Cutting a run at one of its steps leaves the run that led to that step. -/
theorem Execution.cut {history : List (Transition State Action Event)} {state : State}
    (execution : machine.Execution history state) :
    ∀ {earlier later : List (Transition State Action Event)}
      {middle : Transition State Action Event}, history = earlier ++ middle :: later →
      machine.Execution earlier middle.before ∧
        machine.step middle.before middle.action = some (middle.after, middle.events) := by
  induction execution with
  | initial _ =>
    intro earlier later middle split
    simp at split
  | @step history state action next events prior taken ih =>
    intro earlier later middle split
    rcases List.eq_nil_or_concat later with rfl | ⟨front, last, rfl⟩
    · obtain ⟨rfl, same⟩ := List.append_inj' split rfl
      obtain rfl := List.singleton_injective same
      exact ⟨prior, taken⟩
    · have shifted : history ++ [⟨state, action, events, next⟩] =
          (earlier ++ middle :: front) ++ [last] := by simpa using split
      exact ih (List.append_inj' shifted rfl).1

/-- Every retained step was taken, from a reachable state. -/
theorem Execution.taken {history : List (Transition State Action Event)} {state : State}
    (execution : machine.Execution history state)
    {transition : Transition State Action Event} (member : transition ∈ history) :
    machine.Reachable transition.before ∧
      machine.step transition.before transition.action =
        some (transition.after, transition.events) := by
  obtain ⟨earlier, later, split⟩ := List.append_of_mem member
  obtain ⟨before, taken⟩ := execution.cut split
  exact ⟨before.reachable, taken⟩

/-- What holds at some point of a run and survives every step holds at its end. -/
theorem Execution.stable (property : State → Prop)
    (preserved : ∀ {state action next events}, machine.Reachable state → property state →
      machine.step state action = some (next, events) → property next)
    {history : List (Transition State Action Event)} {state : State}
    (execution : machine.Execution history state) :
    ∀ {earlier later : List (Transition State Action Event)}
      {middle : Transition State Action Event}, history = earlier ++ middle :: later →
      property middle.before → property state := by
  induction execution with
  | initial _ =>
    intro earlier later middle split
    simp at split
  | @step history state action next events prior taken ih =>
    intro earlier later middle split holds
    apply preserved prior.reachable _ taken
    rcases List.eq_nil_or_concat later with rfl | ⟨front, last, rfl⟩
    · obtain ⟨rfl, same⟩ := List.append_inj' split rfl
      obtain rfl := List.singleton_injective same
      exact holds
    · have shifted : history ++ [⟨state, action, events, next⟩] =
          (earlier ++ middle :: front) ++ [last] := by simpa using split
      exact ih (List.append_inj' shifted rfl).1 holds

/-- A finite run from a given state on, with all its steps. -/
inductive Steps (machine : Machine State Action Event) :
    State → List (Transition State Action Event) → State → Prop where
  | refl {state} : Steps machine state [] state
  | step {state action next events later final}
      (taken : machine.step state action = some (next, events))
      (rest : Steps machine next later final) :
      Steps machine state (⟨state, action, events, next⟩ :: later) final

/-- Steps can be parted anywhere. -/
theorem Steps.split {first second : List (Transition State Action Event)} {state final : State}
    (steps : machine.Steps state (first ++ second) final) :
    ∃ middle, machine.Steps state first middle ∧ machine.Steps middle second final := by
  induction first generalizing state with
  | nil => exact ⟨state, .refl, steps⟩
  | cons head tail ih =>
    cases steps with
    | step taken rest =>
      obtain ⟨middle, front, back⟩ := ih rest
      exact ⟨middle, .step taken front, back⟩

/-- One more step at the end. -/
theorem Steps.snoc {history : List (Transition State Action Event)} {state middle next : State}
    {action : Action} {events : List Event} (steps : machine.Steps state history middle)
    (taken : machine.step middle action = some (next, events)) :
    machine.Steps state (history ++ [⟨middle, action, events, next⟩]) next := by
  induction steps with
  | refl => exact .step taken .refl
  | step first _ ih => exact .step first (ih taken)

/-- What follows one of the steps of a run. -/
theorem Execution.resume {history : List (Transition State Action Event)} {state : State}
    (execution : machine.Execution history state) :
    ∀ {earlier later : List (Transition State Action Event)}
      {middle : Transition State Action Event}, history = earlier ++ middle :: later →
      machine.Steps middle.after later state := by
  induction execution with
  | initial _ =>
    intro earlier later middle split
    simp at split
  | @step history state action next events prior taken ih =>
    intro earlier later middle split
    rcases List.eq_nil_or_concat later with rfl | ⟨front, last, rfl⟩
    · obtain rfl := List.singleton_injective (List.append_inj' split rfl).2
      exact .refl
    · have shifted : history ++ [⟨state, action, events, next⟩] =
          (earlier ++ middle :: front) ++ [last] := by simpa using split
      obtain ⟨same, final⟩ := List.append_inj' shifted rfl
      obtain rfl := List.singleton_injective final
      rw [List.concat_eq_append]
      exact (ih same).snoc taken

/-- A run goes on with further steps. -/
theorem Execution.continue {history later : List (Transition State Action Event)}
    {state final : State} (execution : machine.Execution history state)
    (steps : machine.Steps state later final) : machine.Execution (history ++ later) final := by
  induction steps generalizing history with
  | refl => simpa using execution
  | step taken _ ih => simpa using ih (execution.step taken)

/-- Run the given actions one after the other, keeping the steps. -/
def run (machine : Machine State Action Event) (state : State) :
    List Action → Option (List (Transition State Action Event) × State)
  | [] => some ([], state)
  | action :: rest =>
    match machine.step state action with
    | none => none
    | some (next, events) =>
      match machine.run next rest with
      | none => none
      | some (history, final) => some (⟨state, action, events, next⟩ :: history, final)

/-- An evaluated run continues the run that led to its first state. -/
theorem Execution.extend {history : List (Transition State Action Event)} {state : State}
    (execution : machine.Execution history state) :
    ∀ {actions : List Action} {more : List (Transition State Action Event)} {final : State},
      machine.run state actions = some (more, final) →
      machine.Execution (history ++ more) final := by
  intro actions
  induction actions generalizing history state with
  | nil =>
    intro more final evaluated
    simp only [run, Option.some.injEq, Prod.mk.injEq] at evaluated
    obtain ⟨rfl, rfl⟩ := evaluated
    simpa using execution
  | cons action rest ih =>
    intro more final evaluated
    rw [run] at evaluated
    split at evaluated
    · cases evaluated
    · rename_i next events taken
      split at evaluated
      · cases evaluated
      · rename_i tail last tailRun
        simp only [Option.some.injEq, Prod.mk.injEq] at evaluated
        obtain ⟨rfl, rfl⟩ := evaluated
        simpa using ih (execution.step taken) tailRun

/-- An evaluated run consists of steps. -/
theorem steps_of_run {state final : State} {actions : List Action}
    {history : List (Transition State Action Event)}
    (evaluated : machine.run state actions = some (history, final)) :
    machine.Steps state history final := by
  induction actions generalizing state history with
  | nil =>
    simp only [run, Option.some.injEq, Prod.mk.injEq] at evaluated
    obtain ⟨rfl, rfl⟩ := evaluated
    exact .refl
  | cons action rest ih =>
    rw [run] at evaluated
    split at evaluated
    · cases evaluated
    · rename_i next events taken
      split at evaluated
      · cases evaluated
      · rename_i tail last tailRun
        simp only [Option.some.injEq, Prod.mk.injEq] at evaluated
        obtain ⟨rfl, rfl⟩ := evaluated
        exact .step taken (ih tailRun)

/-- An evaluated run takes the given actions. -/
theorem actions_of_run {state final : State} {actions : List Action}
    {history : List (Transition State Action Event)}
    (evaluated : machine.run state actions = some (history, final)) :
    history.map Transition.action = actions := by
  induction actions generalizing state history with
  | nil =>
    simp only [run, Option.some.injEq, Prod.mk.injEq] at evaluated
    obtain ⟨rfl, rfl⟩ := evaluated
    rfl
  | cons action rest ih =>
    rw [run] at evaluated
    split at evaluated
    · cases evaluated
    · split at evaluated
      · cases evaluated
      · rename_i tail last tailRun
        simp only [Option.some.injEq, Prod.mk.injEq] at evaluated
        obtain ⟨rfl, rfl⟩ := evaluated
        rw [List.map_cons, ih tailRun]

/-- A run evaluated from an initial state is an execution. -/
theorem execution_of_run {state final : State} {actions : List Action}
    {history : List (Transition State Action Event)} (valid : machine.Initial state)
    (evaluated : machine.run state actions = some (history, final)) :
    machine.Execution history final := by
  simpa using (Execution.initial valid).extend evaluated

/-- The run that an evaluated test is about. -/
theorem execution_of_test {state : State} {actions : List Action}
    {test : List (Transition State Action Event) × State → Bool}
    (passed : (machine.run state actions).any test = true) (valid : machine.Initial state) :
    ∃ history final, machine.Execution history final ∧ test (history, final) = true := by
  obtain ⟨⟨history, final⟩, ran, tested⟩ := (Option.any_eq_true ..).mp passed
  exact ⟨history, final, execution_of_run valid ran, tested⟩

end Machine

end Spinfoam.Semantics
