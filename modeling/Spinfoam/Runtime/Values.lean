import Spinfoam.Runtime.Tables

/-!
# The values under JSON handles

Values enter a handle table from the configuration, from events, from the
embedder, from the parser, and as parts of other values. All of them have passed
the check on JSON values when they get there, but for the events: their payload
is checked before it is put into its envelope.
-/

namespace Spinfoam

open Spinfoam.Json Spinfoam.Std Spinfoam.Outbox Spinfoam.Guest Spinfoam.Semantics

/-- All JSON values of a table are within the limits. -/
def ValidTable (handles : Map Nat Handle) : Prop :=
  ∀ handle value, handles.lookup handle = some (.json value) → validValue value = true

namespace Runtime

variable {runtime after : Runtime} {events : List Event} {serial : Nat}

/-- Every JSON handle of every guest is a value within the limits. -/
def HandlesValid (runtime : Runtime) : Prop :=
  ∀ serial object context posted, runtime.heap.lookup serial = some object →
    object.task = .running context posted → ValidTable context.handles

/-- No event is accepted whose envelope nests too deeply or has too many nodes. -/
def WithinLimits (trace : List Event) : Prop :=
  ∀ serial event, .accepted serial event ∈ trace → event.depth ≤ 32 ∧ event.nodes ≤ 4096

/-- The envelope costs one level and three nodes of what its payload may have. -/
theorem envelope_within (eventId topic : String) (payload : Value) :
    ((envelope eventId topic payload).depth ≤ 32 ∧ (envelope eventId topic payload).nodes ≤ 4096) ↔
      payload.depth ≤ 31 ∧ payload.nodes ≤ 4093 := by
  simp only [envelope, Value.depth, Value.depthMembers, Value.nodes, Value.nodesMembers]
  omega

/-- Whether an event keeps its envelope within the limits. -/
def Event.withinLimits : Event → Bool
  | .accepted _ event => decide (event.depth ≤ 32 ∧ event.nodes ≤ 4096)
  | _ => true

instance (trace : List Event) : Decidable (WithinLimits trace) :=
  decidable_of_iff (∀ event ∈ trace, event.withinLimits = true) <| by
    constructor
    · intro limits serial event member
      simpa [Event.withinLimits] using limits _ member
    · intro limits event member
      cases event with
      | accepted serial event => simpa [Event.withinLimits] using limits serial event member
      | _ => rfl

/-- The limits on a JSON value, as a property of handles. -/
def Limited : Handle → Prop
  | .json value => validValue value = true
  | .bytes _ => True

theorem inherited_limited : Inherited Limited where
  checked := fun valid => valid
  part := fun valid within => validValue_part valid within
  dumped := fun _ => trivial
  bytes := fun _ => trivial

/-- As long as no event exceeds the limits, whatever waits for a handle is within them. -/
theorem limited_of_execution {history : List (Transition Runtime Action Event)}
    (execution : machine.Execution history runtime) (limits : WithinLimits (trace history)) :
    Bounded Limited runtime := by
  apply bounded_of_execution inherited_limited execution
  intro serial event accepted short
  obtain ⟨depth, nodes⟩ := limits serial event accepted
  exact (validValue_iff event).mpr ⟨depth, nodes, short⟩

section Claims

variable {history : List (Transition Runtime Action Event)}

/-- As long as no event is accepted whose envelope exceeds the limits, every JSON
handle is a value within the limits. An event whose envelope exceeds them ends up
under a handle as soon as its guest takes it. -/
theorem json_handles_valid (execution : machine.Execution history runtime) :
    (WithinLimits (trace history) → runtime.HandlesValid) ∧
      ∀ serial object context posted ready ms event,
        runtime.heap.lookup serial = some object → object.task = .running context posted →
        object.mailbox.receive.1 = some event → ¬ (runtime.guest object context).Full →
        validValue event = false →
          ¬ ValidTable ((runtime.guest object context).pollPosted ready (.event ms)).1.context.handles := by
  constructor
  · intro limits serial object context posted found task handle value stored
    exact (((limited_of_execution execution limits).objects found).guest task).2 handle _ stored
  · intro serial object context posted ready ms event found task taken room invalid table
    have stored : ((runtime.guest object context).pollPosted ready
        (.event ms)).1.context.handles.lookup runtime.nextHandle = some (.json event) := by
      have received : (runtime.guest object context).mailbox.receive =
          (some event, object.mailbox.receive.2) := Prod.ext taken rfl
      simp only [Guest.pollPosted, received, Guest.insert]
      rw [if_neg]
      · exact AList.lookup_insert _
      · exact room
    rw [table _ _ stored] at invalid
    cases invalid

/-- Arrays in arrays. -/
def nested : Nat → Value
  | 0 => .null
  | levels + 1 => .array [nested levels]

/-- Deliver a payload to an object whose guest waits for it. -/
def takeEvent (payload : Value) : List Action :=
  [.load 0 "" .null [], .loaded 0 (.ok true), .start "o1",
    .poll 1 (.helper { helper := .eventNext } blind) ⟨0, 0⟩ [], .deliver "o1" "e" "t" payload,
    .poll 1 (.resume ⟨false, false, ⟨0, 0⟩⟩) ⟨0, 0⟩ []]

set_option maxRecDepth 20000 in
/-- The deepest payload that `sf.event.deliver` accepts gives a handle one level too
deep. -/
theorem json_handle_too_deep :
    ∃ history runtime, machine.Execution history runtime ∧ ¬ runtime.HandlesValid := by
  obtain ⟨history, runtime, object, context, event, ran, found, task, stored, invalid⟩ :
      ∃ history runtime object context event,
        machine.run { host := { session := "" } } (takeEvent (nested 32)) =
          some (history, runtime) ∧
        runtime.heap.lookup 1 = some object ∧ object.task = .running context none ∧
        context.handles.lookup 1 = some (.json event) ∧ validValue event = false :=
    ⟨_, _, _, _, _, rfl, rfl, rfl, rfl, by decide⟩
  refine ⟨history, runtime, Machine.execution_of_run ⟨"", rfl⟩ ran, ?_⟩
  intro valid
  rw [valid 1 object context none found task 1 event stored] at invalid
  cases invalid

set_option maxRecDepth 20000 in
/-- One level less stays within the limits. -/
theorem json_handles_valid_shallow :
    ∃ history runtime,
      machine.run { host := { session := "" } } (takeEvent (nested 31)) =
        some (history, runtime) ∧
      issued (trace history) = [(1, 1)] ∧ runtime.HandlesValid := by
  obtain ⟨history, runtime, ran, given, limits⟩ : ∃ history runtime,
      machine.run { host := { session := "" } } (takeEvent (nested 31)) =
        some (history, runtime) ∧
      issued (trace history) = [(1, 1)] ∧ WithinLimits (trace history) :=
    ⟨_, _, rfl, by decide, by decide⟩
  exact ⟨history, runtime, ran, given,
    (json_handles_valid (Machine.execution_of_run ⟨"", rfl⟩ ran)).1 limits⟩

end Claims

end Runtime

end Spinfoam
