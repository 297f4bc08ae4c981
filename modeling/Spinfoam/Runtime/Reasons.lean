import Spinfoam.Guest.Posts
import Spinfoam.Runtime.Confinement

/-!
# Wait reasons

The runtime keeps the reason for which an object waits in a cell of its own, which the
helpers, the futures they post and the end of the task write. It always names what the
posted future waits for, so that the host calls that are pending are those of objects
that say so.
-/

namespace Spinfoam

open Spinfoam.Json Spinfoam.Std Spinfoam.Outbox Spinfoam.Guest Spinfoam.Semantics
open Spinfoam.Runtime

/-- For what the guest of an object waits. -/
def Object.reason (object : Object) : Wait :=
  match object.task with
  | .running _ posted => Guest.reason posted
  | _ => .none

namespace Object

variable {object after : Object} {serial : Nat} {events : List Runtime.Event}

theorem reason_running {context : GuestContext} {posted : Option Posted}
    (task : object.task = .running context posted) : object.reason = Guest.reason posted := by
  rw [reason, task]

theorem join_rest (object : Object) :
    object.join.1.task = object.task ∧ object.join.1.wait = object.wait := by
  rcases object.join_spec with ⟨-, same⟩ | ⟨-, same⟩ <;>
    · rw [same]
      exact ⟨rfl, rfl⟩

/-- What can happen to the task of an object without its guest. -/
inductive Course (object after : Object) : Prop where
  | same (task : after.task = object.task) : Course object after
  | spawned (before : object.task = .none) (task : after.task = .spawned) : Course object after
  | begun (clock : Clock) (before : object.task = .spawned)
      (task : after.task = .running (.new object.id object.config object.capabilities clock) none) :
      Course object after

/-- Without its guest an object keeps its wait reason. -/
theorem Tended.course (tended : Object.Tended serial object events after) (sound : object.Sound) :
    after.wait = object.wait ∧ Course object after := by
  have joined {current : Object} (task : current.task = object.task)
      (wait : current.wait = object.wait) :
      current.join.1.wait = object.wait ∧ Course object current.join.1 :=
    ⟨current.join_rest.2.trans wait, .same (current.join_rest.1.trans task)⟩
  cases tended with
  | start loaded => exact ⟨rfl, .spawned (sound.loaded loaded).1 rfl⟩
  | stop =>
    rcases object.stop_spec with ⟨-, same⟩ | ⟨-, same⟩ | ⟨-, same⟩
    · rw [same]
      exact joined rfl rfl
    · rw [same]
      exact ⟨rfl, .same rfl⟩
    · rw [same]
      exact joined rfl rfl
  | pollStop fits =>
    rcases Object.pollStop_spec fits with ⟨same, -⟩ | ⟨-, same | same⟩
    · rw [same]
      exact ⟨rfl, .same rfl⟩
    · rw [same]
      exact joined rfl rfl
    · rw [same]
      exact ⟨rfl, .same rfl⟩
  | cancel => exact ⟨rfl, .same rfl⟩
  | deliver event =>
    unfold Object.deliver
    split <;> exact ⟨rfl, .same rfl⟩
  | begin clock spawned => exact ⟨rfl, .begun clock spawned rfl⟩

end Object

namespace Runtime

variable {runtime after : Runtime} {events : List Event} {serial : Nat} {object : Object}
  {history : List (Transition Runtime Action Event)}

/-- Whatever a guest does, it is known why it waits. -/
theorem reasoned_worked {guest next : Guest} {posted later : Option Posted}
    (worked : Worked guest serial posted events next later) (waits : guest.wait = reason posted) :
    next.wait = reason later := by
  cases worked with
  | @helper scope call after reply invoked =>
    have known := @invoke_wait guest scope call waits
    rwa [invoked] at known
  | @stay ready future _ _ _ polled | @complete ready future _ _ _ _ polled =>
    have known := (@pollPosted_wait guest ready future waits).2
    rwa [polled] at known

/-- A move leaves every object with the reason for which it waits. -/
theorem Move.reasoned (move : Move runtime events after) (sound : Sound runtime)
    (known : ∀ {serial object}, runtime.heap.lookup serial = some object →
      object.wait = object.reason)
    (stored : after.heap.lookup serial = some object) : object.wait = object.reason := by
  cases move.became stored with
  | same found => exact known found
  | loaded => rfl
  | @tended object after found tended =>
    obtain ⟨wait, course⟩ := tended.course (sound.object found).1
    have before := known found
    rw [wait, before]
    cases course with
    | same task => rw [Object.reason, Object.reason, task]
    | spawned none task => rw [Object.reason, Object.reason, none, task]
    | begun clock spawned task =>
      rw [Object.reason_running task, Object.reason, spawned]
      rfl
  | @worked object context posted next guest found task worked =>
    have before := known found
    rw [Object.reason_running task] at before
    exact reasoned_worked worked before
  | @finished object current context posted result mailbox found ending =>
    rw [Object.reason, settle_task]
    rcases result with _ | error | code <;> rfl

/-- The wait reason of every object is that of the future its guest has posted. -/
theorem reasoned_of_execution (execution : machine.Execution history runtime) :
    ∀ serial object, runtime.heap.lookup serial = some object → object.wait = object.reason := by
  refine invariant_of_moves (fun _ runtime => ∀ serial object,
    runtime.heap.lookup serial = some object → object.wait = object.reason) ?_ ?_ execution
  · rintro session serial object ⟨⟩
  · intro past runtime more after sound known move serial object stored
    exact move.reasoned sound (fun found => known _ _ found) stored

/-- How many objects say that they wait for this. -/
def waitingFor (reason : Wait) (runtime : Runtime) : Nat :=
  Map.weight (fun object => if object.wait = reason then 1 else 0) runtime.heap

/-- Who holds a guard says that it waits for a call. -/
theorem waits_of_live {guard : Host.CallGuard}
    (known : ∀ serial object, runtime.heap.lookup serial = some object →
      object.wait = object.reason)
    (held : runtime.live serial = some guard) :
    ∃ object, runtime.heap.lookup serial = some object ∧ object.wait = .hostRpc := by
  obtain ⟨object, found, guarded⟩ := Option.bind_eq_some_iff.mp held
  refine ⟨object, found, ?_⟩
  rw [known serial object found]
  unfold Object.guard at guarded
  split at guarded
  · rename_i context posted task
    obtain ⟨future, rfl, own⟩ := Option.bind_eq_some_iff.mp guarded
    rw [Object.reason_running task]
    cases future with
    | calling call => rfl
    | _ => cases own
  · cases guarded

/-- Each pending call is one that an object of its own says it waits for. -/
theorem pending_le_waiting (consistent : Consistent events runtime)
    (known : ∀ serial object, runtime.heap.lookup serial = some object →
      object.wait = object.reason) :
    runtime.host.pending.entries.length ≤ runtime.waitingFor .hostRpc := by
  have owned (id : String) : ∃ serial, id ∈ runtime.host.pending →
      ∃ guard, runtime.live serial = some guard ∧ guard.id = id := by
    by_cases pending : id ∈ runtime.host.pending
    · obtain ⟨entry, found⟩ := Option.isSome_iff_exists.mp (AList.lookup_isSome.mpr pending)
      obtain ⟨serial, guard, held, own, -⟩ := consistent.accounted.ledger.pendingLive found
      exact ⟨serial, fun _ => ⟨guard, held, own⟩⟩
    · exact ⟨0, fun there => absurd there pending⟩
  choose owner holds using owned
  -- a guest holds one guard, so that different calls have different owners
  have distinct : (runtime.host.pending.keys.map owner).Nodup := by
    refine (AList.keys_nodup _).map_on ?_
    intro first one second two same
    obtain ⟨guard, held, rfl⟩ := holds first (AList.mem_keys.mpr one)
    obtain ⟨other, also, rfl⟩ := holds second (AList.mem_keys.mpr two)
    rw [same, also] at held
    rw [Option.some.inj held]
  have counted : ∀ serial ∈ runtime.host.pending.keys.map owner,
      ∃ object, runtime.heap.lookup serial = some object ∧
        0 < if object.wait = .hostRpc then 1 else 0 := by
    intro serial member
    obtain ⟨id, listed, rfl⟩ := List.mem_map.mp member
    obtain ⟨guard, held, -⟩ := holds id (AList.mem_keys.mpr listed)
    obtain ⟨object, found, waits⟩ := waits_of_live known held
    exact ⟨object, found, by simp [waits]⟩
  have few := Map.length_le_weight _ distinct counted
  simpa [waitingFor, AList.keys, List.keys] using few

/-- In every state of every run what the status of an object gives as its wait reason is
for what the future waits that its guest has posted, and `none` if there is no guest or
nothing is posted. No more host calls are pending than there are objects that give a
host call as their reason. -/
theorem wait_reasons_are_true (execution : machine.Execution history runtime) :
    (∀ serial object, runtime.heap.lookup serial = some object →
      object.status.get "wait" = some (.string object.reason.text)) ∧
    runtime.host.pending.entries.length ≤ runtime.waitingFor .hostRpc := by
  have known := reasoned_of_execution execution
  refine ⟨?_, pending_le_waiting (consistent_of_execution execution) known⟩
  intro serial object found
  rw [← known serial object found]
  rfl

/-- An object whose guest has asked the host. -/
theorem wait_reasons_are_true_read :
    ∃ history runtime object, machine.Execution history runtime ∧
      runtime.heap.lookup 1 = some object ∧
      object.status.get "wait" = some (.string "host_rpc") ∧ 1 ≤ runtime.waitingFor .hostRpc := by
  have evaluated : ((machine.run { host := { session := "" } } readOnce).any fun result =>
      (result.2.heap.lookup 1).any fun object => decide (object.reason = .hostRpc ∧
        result.2.host.pending.entries.length = 1)) = true := by
    decide +kernel
  obtain ⟨history, runtime, execution, tested⟩ := Machine.execution_of_test evaluated ⟨"", rfl⟩
  obtain ⟨statuses, pending⟩ := wait_reasons_are_true execution
  obtain ⟨object, found, same⟩ := (Option.any_eq_true ..).mp tested
  obtain ⟨reason, one⟩ := of_decide_eq_true same
  refine ⟨history, runtime, object, execution, found, ?_, one ▸ pending⟩
  rw [statuses 1 object found, reason]
  rfl

end Runtime

end Spinfoam
