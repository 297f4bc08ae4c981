import Spinfoam.Semantics.Machine

/-!
# Simulation

A machine that is part of a larger one sees each step of the larger one as none,
one or several steps of its own. `Simulation` says so of a projection of the
states and of the events; every run of the larger machine is then a run of the
part, and what holds of all runs of the part can be used of the whole.
-/

namespace Spinfoam.Semantics

universe u v w

variable {State : Type u} {Action : Type v} {Event : Type w}
  {Part : Type u} {Input : Type v} {Output : Type w}

namespace Machine

/-- Steps that follow one another. -/
theorem Steps.trans {machine : Machine State Action Event}
    {first second : List (Transition State Action Event)} {state middle final : State}
    (steps : machine.Steps state first middle) (rest : machine.Steps middle second final) :
    machine.Steps state (first ++ second) final := by
  induction steps with
  | refl => simpa using rest
  | step taken _ ih => exact .step taken (ih rest)

/-- A run can be parted anywhere. -/
theorem Execution.parted {machine : Machine State Action Event}
    {history : List (Transition State Action Event)} {state : State}
    (execution : machine.Execution history state) :
    ∀ {first second : List (Transition State Action Event)}, history = first ++ second →
      ∃ middle, machine.Execution first middle ∧ machine.Steps middle second state := by
  induction execution with
  | initial valid =>
    intro first second split
    obtain ⟨rfl, rfl⟩ := List.append_eq_nil_iff.mp split.symm
    exact ⟨_, .initial valid, .refl⟩
  | @step history state action next events prior taken ih =>
    intro first second split
    rcases List.eq_nil_or_concat second with rfl | ⟨front, last, rfl⟩
    · rw [List.append_nil] at split
      exact ⟨next, split ▸ prior.step taken, .refl⟩
    · rw [List.concat_eq_append, ← List.append_assoc] at split
      obtain ⟨shorter, final⟩ := List.append_inj' split rfl
      obtain rfl := List.singleton_injective final
      obtain ⟨middle, before, steps⟩ := ih shorter
      exact ⟨middle, before, by simpa using steps.snoc taken⟩

/-- The part gets from one state to another with these events. -/
def Reaches (machine : Machine State Action Event) (state : State) (events : List Event)
    (final : State) : Prop :=
  ∃ history, machine.Steps state history final ∧ trace history = events

namespace Reaches

variable {machine : Machine State Action Event} {state middle final : State}
  {first second : List Event}

theorem refl (state : State) : machine.Reaches state [] state := ⟨[], .refl, rfl⟩

theorem one {action : Action} (taken : machine.step state action = some (final, first)) :
    machine.Reaches state first final :=
  ⟨_, .step taken .refl, by simp⟩

theorem trans (front : machine.Reaches state first middle)
    (back : machine.Reaches middle second final) :
    machine.Reaches state (first ++ second) final := by
  obtain ⟨history, steps, rfl⟩ := front
  obtain ⟨later, rest, rfl⟩ := back
  exact ⟨history ++ later, steps.trans rest, trace_append history later⟩

end Reaches

end Machine

/-- Every step of the whole is a few steps of the part, with the events that the
part observes. -/
structure Simulation (whole : Machine State Action Event) (part : Machine Part Input Output)
    (project : State → Part) (observe : Event → Option Output) : Prop where
  initial : ∀ {state}, whole.Initial state → part.Initial (project state)
  step : ∀ {state action next events}, whole.Reachable state →
    whole.step state action = some (next, events) →
    part.Reaches (project state) (events.filterMap observe) (project next)

namespace Simulation

variable {whole : Machine State Action Event} {part : Machine Part Input Output}
  {project : State → Part} {observe : Event → Option Output}

/-- A run of the whole is a run of the part. -/
theorem execution (simulation : Simulation whole part project observe)
    {history : List (Transition State Action Event)} {state : State}
    (execution : whole.Execution history state) :
    ∃ run, part.Execution run (project state) ∧ trace run = (trace history).filterMap observe := by
  induction execution with
  | initial valid => exact ⟨[], .initial (simulation.initial valid), rfl⟩
  | @step history state action next events prior taken ih =>
    obtain ⟨run, before, seen⟩ := ih
    obtain ⟨more, steps, observed⟩ := simulation.step prior.reachable taken
    refine ⟨run ++ more, before.continue steps, ?_⟩
    rw [trace_append, seen, observed, trace_append, List.filterMap_append]
    simp

/-- The states a projected run arrives at are states of the part. -/
theorem reachable (simulation : Simulation whole part project observe) {state : State}
    (reached : whole.Reachable state) : part.Reachable (project state) := by
  obtain ⟨history, run⟩ := reached
  obtain ⟨projected, execution, -⟩ := simulation.execution run
  exact ⟨projected, execution⟩

/-- A stretch of a run of the whole is a stretch of a run of the part. -/
theorem reaches (simulation : Simulation whole part project observe) {state final : State}
    {events : List Event} (reachable : whole.Reachable state)
    (stretch : whole.Reaches state events final) :
    part.Reaches (project state) (events.filterMap observe) (project final) := by
  obtain ⟨history, steps, rfl⟩ := stretch
  induction steps with
  | refl => exact .refl _
  | @step state action next events later final taken rest ih =>
    obtain ⟨run, execution⟩ := reachable
    have after : whole.Reachable next := ⟨_, execution.step taken⟩
    rw [trace_cons, List.filterMap_append]
    exact (simulation.step ⟨run, execution⟩ taken).trans (ih after)

end Simulation

/-- A simulation along a relation: whatever related state the part is in, it follows
each step of the whole, and the same is seen of the events of both. -/
structure Forward {Seen : Type*} (whole : Machine State Action Event)
    (part : Machine Part Input Output) (related : State → Part → Prop)
    (seen : Event → Option Seen) (shown : Output → Option Seen) : Prop where
  initial : ∀ {state}, whole.Initial state → ∃ other, part.Initial other ∧ related state other
  step : ∀ {state other action next events}, whole.Reachable state → related state other →
    whole.step state action = some (next, events) →
    ∃ outputs after, part.Reaches other outputs after ∧ related next after ∧
      outputs.filterMap shown = events.filterMap seen

/-- Every run of the whole has a run of the part beside it. -/
theorem Forward.execution {Seen : Type*} {whole : Machine State Action Event}
    {part : Machine Part Input Output} {related : State → Part → Prop}
    {seen : Event → Option Seen} {shown : Output → Option Seen}
    (forward : Forward whole part related seen shown)
    {history : List (Transition State Action Event)} {state : State}
    (execution : whole.Execution history state) :
    ∃ run other, part.Execution run other ∧ related state other ∧
      (trace run).filterMap shown = (trace history).filterMap seen := by
  induction execution with
  | initial valid =>
    obtain ⟨other, start, beside⟩ := forward.initial valid
    exact ⟨[], other, .initial start, beside, rfl⟩
  | @step history state action next events prior taken ih =>
    obtain ⟨run, other, before, beside, same⟩ := ih
    obtain ⟨outputs, after, ⟨more, steps, rfl⟩, still, agree⟩ :=
      forward.step prior.reachable beside taken
    refine ⟨run ++ more, after, before.continue steps, still, ?_⟩
    rw [trace_append, trace_append, List.filterMap_append, List.filterMap_append, same, agree]
    simp

/-- A stretch of a run of the whole has one of the part beside it, from any related state. -/
theorem Forward.reaches {Seen : Type*} {whole : Machine State Action Event}
    {part : Machine Part Input Output} {related : State → Part → Prop}
    {seen : Event → Option Seen} {shown : Output → Option Seen}
    (forward : Forward whole part related seen shown) {state final : State} {other : Part}
    {events : List Event} (reachable : whole.Reachable state) (beside : related state other)
    (stretch : whole.Reaches state events final) :
    ∃ outputs after, part.Reaches other outputs after ∧ related final after ∧
      outputs.filterMap shown = events.filterMap seen := by
  obtain ⟨history, steps, rfl⟩ := stretch
  induction steps generalizing other with
  | refl => exact ⟨[], other, .refl other, beside, rfl⟩
  | @step state action next events later final taken rest ih =>
    obtain ⟨outputs, between, front, still, same⟩ := forward.step reachable beside taken
    obtain ⟨run, execution⟩ := reachable
    obtain ⟨more, after, back, last, agree⟩ := ih ⟨_, execution.step taken⟩ still
    refine ⟨outputs ++ more, after, front.trans back, last, ?_⟩
    rw [trace_cons, List.filterMap_append, List.filterMap_append, same, agree]

end Spinfoam.Semantics
