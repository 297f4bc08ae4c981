import Spinfoam.Runtime.Changes
import Spinfoam.Guest.Atomicity

/-!
# Handles over whole runs

All handle numbers of a process come from one counter, in order and without
gaps. A table holds only numbers that were given to its own object, so what was
dropped or given to another object is dead.
-/

namespace Spinfoam

open Spinfoam.Json Spinfoam.Std Spinfoam.Outbox Spinfoam.Guest Spinfoam.Semantics

namespace Runtime

/-- The handle that an answer to a guest gives out, with the object that gets it. -/
def grant : Event → Option (Nat × Nat)
  | .replied serial call (.value word) =>
    if call.helper.creates = true ∧ ¬ Negative word then some (serial, word) else none
  | .completed serial future word =>
    if future.fetches = true ∧ ¬ Negative word then some (serial, word) else none
  | _ => none

/-- All handles given out so far, in order. -/
def issued (trace : List Event) : List (Nat × Nat) := trace.filterMap grant

@[simp] theorem issued_append (first second : List Event) :
    issued (first ++ second) = issued first ++ issued second := List.filterMap_append

theorem grant_host (event : Host.Event) : grant (.host event) = none := rfl

@[simp] theorem issued_host (events : List Host.Event) : issued (events.map .host) = [] := by
  simp [issued, List.filterMap_map, Function.comp_def, grant_host]

variable {runtime after : Runtime} {events : List Event}

section Replies

theorem cleanHost_answering {host : Host} (answering : host.Answering) (id : String)
    (order : List String) : (cleanHost host id order).1.Answering :=
  answering.cancelObject id order

theorem HostMoved.answering {host next : Host} {events : List Host.Event}
    (moved : HostMoved host events next) (answering : host.Answering) : next.Answering := by
  cases moved with
  | response frame => exact answering.response frame
  | next | close | control => exact answering

/-- Only proper replies ever wait in the host. -/
theorem Move.answering (move : Move runtime events after) (answering : runtime.host.Answering) :
    after.host.Answering := by
  have guest : ∀ object context, (runtime.guest object context).host.Answering :=
    fun _ _ => answering
  cases move with
  | respond | issue | forget | bind | tend | park | unpark | clear | absent => exact answering
  | settle found final unload order => exact cleanHost_answering answering _ _
  | host moved => exact moved.answering answering
  | @helper _ object context scope call _ _ found task invoked =>
    have kept := @invoke_answering (runtime.guest object context) scope call answering
    rw [invoked] at kept
    exact kept
  | @stay _ object context ready future _ _ _ found task polled =>
    have kept := pollPosted_answering (guest object context) ready future
    rw [polled] at kept
    exact kept
  | @complete _ object context ready future _ _ _ _ found task polled =>
    have kept := pollPosted_answering (guest object context) ready future
    rw [polled] at kept
    exact kept
  | @finish _ _ current context posted _ found ending order =>
    exact cleanHost_answering (dropRun_answering (guest current context) posted) _ _

end Replies

section Numbers

variable {serial : Nat}

/-- What a guest does gives out no handle or the next one, and its table gets no
other new handle. -/
inductive Granted (guest : Guest) (serial : Nat) (events : List Event) (next : Guest) : Prop where
  | none (counter : next.nextHandle = guest.nextHandle) (silent : issued events = [])
      (fewer : ∀ handle ∈ next.context.handles, handle ∈ guest.context.handles)
      (length : next.context.handles.entries.length ≤ guest.context.handles.entries.length)
  | one {handle : Handle} (room : ¬ guest.Full) (counter : next.nextHandle = guest.nextHandle + 1)
      (given : issued events = [(serial, guest.nextHandle)])
      (table : next.context.handles = guest.context.handles.insert guest.nextHandle handle)

theorem invoke_granted {guest after : Guest} {scope : Scope} {call : HelperCall} {reply : Reply}
    (invoked : guest.invoke scope call = (after, reply)) :
    Granted guest serial [.replied serial call reply] after := by
  have effect := invoke_table guest scope call
  rw [invoked] at effect
  cases effect with
  | kept table counter config calm =>
    refine .none counter ?_ (by rw [table]; simp) (by rw [table])
    rcases calm with refused | ⟨other, -⟩
    · cases reply with
      | value word =>
        have negative : Negative word := refused
        simp [issued, grant, negative]
      | wrote | fault | posted => rfl
    · cases reply with
      | value word => simp [issued, grant, other]
      | wrote | fault | posted => rfl
  | created creates room =>
    refine .one room rfl ?_ rfl
    simp [issued, grant, creates, not_negative_nextHandle room]
  | replaced grown =>
    have target : call.a ∈ guest.context.handles ∧ call.helper.creates = false := by
      cases grown with
      | set helper _ _ target | push helper _ target => exact ⟨mem_of_json target, by rw [helper]; rfl⟩
    refine .none rfl (by simp [issued, grant, target.2]) ?_ ?_
    · intro handle live
      rcases (AList.mem_insert _).mp live with rfl | old
      · exact target.1
      · exact old
    · exact (Map.length_insert_of_mem target.1 _).le
  | dropped helper live =>
    refine .none rfl (by simp [issued, grant, helper, Helper.creates]) ?_ (Map.length_erase_le _ _)
    intro handle member
    exact (AList.mem_erase.mp member).2

/-- The handle of a completed future is the only one that its poll gives out. -/
theorem issued_completion (events : List Host.Event) (future : Posted) (guest : Guest)
    (word : Nat) (envelope : Option Value) :
    issued (events.map .host ++ .completed serial future word ::
        handed serial guest word envelope) =
      if future.fetches = true ∧ ¬ Negative word then [(serial, word)] else [] := by
  have silent : issued (handed serial guest word envelope) = [] := by
    cases envelope with
    | none => rfl
    | some value =>
      simp only [handed]
      split_ifs <;> rfl
  rw [issued_append, issued_host, List.nil_append, issued, List.filterMap_cons, grant]
  split_ifs with given
  · exact congrArg _ silent
  · exact silent

theorem pollPosted_granted {guest after : Guest} {ready : Ready} {future : Posted}
    {events : List Host.Event} {word : Nat} {envelope : Option Value}
    (answering : guest.host.Answering)
    (polled : guest.pollPosted ready future = (after, events, .done word envelope)) :
    Granted guest serial (events.map .host ++ .completed serial future word ::
      handed serial guest word envelope) after := by
  have effect := pollPosted_table guest ready future
  rw [polled] at effect
  cases effect with
  | kept context counter calm =>
    refine .none counter ?_ (by rw [context]; simp) (by rw [context])
    rw [issued_completion]
    rcases calm answering with negative | plain
    · rw [if_neg fun given => given.2 negative]
    · rw [if_neg fun given => by simp [plain] at given]
  | created room fetched context counter =>
    refine .one room counter ?_ (by rw [context])
    rw [issued_completion, if_pos ⟨fetched.fetches, not_negative_nextHandle room⟩]

/-- How the counter and the tables stand to what has been given out. -/
structure Numbered (trace : List Event) (runtime : Runtime) : Prop where
  answering : runtime.host.Answering
  range : (issued trace).map Prod.snd = List.range' 1 (runtime.nextHandle - 1)
  positive : 1 ≤ runtime.nextHandle
  bounded : runtime.nextHandle ≤ 2 ^ 63 - 1
  table : ∀ {serial object context posted}, runtime.heap.lookup serial = some object →
    object.task = .running context posted →
      context.handles.entries.length ≤ maxHandles ∧
        ∀ handle ∈ context.handles, (serial, handle) ∈ issued trace

/-- A move gives out no handle or the next one. -/
theorem Move.granting (move : Move runtime events after) (answering : runtime.host.Answering) :
    (after.nextHandle = runtime.nextHandle ∧ issued events = []) ∨
      runtime.nextHandle < 2 ^ 63 - 1 ∧ after.nextHandle = runtime.nextHandle + 1 ∧
        ∃ serial, issued events = [(serial, runtime.nextHandle)] := by
  have worked : ∀ {serial object context next}, Granted (runtime.guest object context) serial events next →
      after.nextHandle = next.nextHandle →
      (after.nextHandle = runtime.nextHandle ∧ issued events = []) ∨
        runtime.nextHandle < 2 ^ 63 - 1 ∧ after.nextHandle = runtime.nextHandle + 1 ∧
          ∃ serial, issued events = [(serial, runtime.nextHandle)] := by
    intro serial object context next granted same
    cases granted with
    | none counter silent => exact Or.inl ⟨same.trans counter, silent⟩
    | one room counter given =>
      simp only [Guest.Full, not_or, not_le] at room
      exact Or.inr ⟨room.2, same.trans counter, serial, given⟩
  cases move with
  | respond | issue | forget | park | unpark | clear | absent | bind => exact Or.inl ⟨rfl, rfl⟩
  | tend found tended =>
    refine Or.inl ⟨rfl, ?_⟩
    cases tended with
    | start | stop | pollStop | cancel | begin => rfl
    | deliver event => split_ifs <;> rfl
  | settle found final unload order =>
    refine Or.inl ⟨rfl, ?_⟩
    rw [Runtime.finishStop, issued_append, issued_host]
    rfl
  | host moved => exact Or.inl ⟨rfl, issued_host _⟩
  | helper found task invoked => exact worked (invoke_granted invoked) rfl
  | @stay _ object context ready future _ _ _ found task polled =>
    have effect := pollPosted_table (runtime.guest object context) ready future
    rw [polled] at effect
    cases effect with
    | pending same counter => exact Or.inl ⟨counter, issued_host _⟩
  | complete found task polled => exact worked (pollPosted_granted answering polled) rfl
  | finish found ending order =>
    rw [finish_eq]
    exact Or.inl ⟨dropRun_nextHandle _ _, issued_host _⟩

/-- What a guest does keeps its table among what it has been given. -/
theorem Granted.live {guest next : Guest} (granted : Granted guest serial events next)
    {given : List (Nat × Nat)}
    (table : guest.context.handles.entries.length ≤ maxHandles ∧
      ∀ handle ∈ guest.context.handles, (serial, handle) ∈ given) :
    next.context.handles.entries.length ≤ maxHandles ∧
      ∀ handle ∈ next.context.handles, (serial, handle) ∈ given ++ issued events := by
  obtain ⟨few, live⟩ := table
  cases granted with
  | none counter silent fewer length =>
    refine ⟨length.trans few, ?_⟩
    intro handle member
    exact List.mem_append_left _ (live handle (fewer handle member))
  | one room counter issues stored =>
    simp only [Guest.Full, not_or, not_le] at room
    refine ⟨?_, ?_⟩
    · rw [stored]
      exact (Map.length_insert_le _ _ _).trans room.1
    · intro handle member
      rw [stored] at member
      rcases (AList.mem_insert _).mp member with rfl | old
      · exact List.mem_append_right _ (by simp [issues])
      · exact List.mem_append_left _ (live handle old)

/-- Every move keeps the numbers in order. -/
theorem Numbered.move {trace : List Event} (numbered : Numbered trace runtime)
    (move : Move runtime events after) : Numbered (trace ++ events) after := by
  have granting := move.granting numbered.answering
  have positive := numbered.positive
  have bounded := numbered.bounded
  constructor
  case answering => exact move.answering numbered.answering
  case range =>
    rw [issued_append, List.map_append, numbered.range]
    rcases granting with ⟨same, silent⟩ | ⟨-, next, serial, given⟩
    · rw [same, silent]
      simp
    · have count : runtime.nextHandle + 1 - 1 = runtime.nextHandle - 1 + 1 := by omega
      have last : 1 + (runtime.nextHandle - 1) = runtime.nextHandle := by omega
      rw [next, given, count, List.range'_concat]
      simp [last]
  case positive => omega
  case bounded => omega
  case table =>
    intro serial object context posted stored task
    rw [issued_append]
    cases move.became stored with
    | same found =>
      obtain ⟨few, live⟩ := numbered.table found task
      exact ⟨few, fun handle member => List.mem_append_left _ (live handle member)⟩
    | loaded => cases task
    | tended found tended =>
      rcases tended_task tended with same | ⟨-, spawned⟩ | ⟨clock, begun⟩
      · obtain ⟨few, live⟩ := numbered.table found (same.symm.trans task)
        exact ⟨few, fun handle member => List.mem_append_left _ (live handle member)⟩
      · rw [spawned] at task
        cases task
      · rw [begun] at task
        cases task
        exact ⟨Nat.zero_le _, by simp [GuestContext.new]⟩
    | @worked object before pending next guest found running worked =>
      cases task
      have table := numbered.table found running
      cases worked with
      | helper invoked => exact (invoke_granted invoked).live table
      | @stay ready future next _ first polled =>
        have effect := pollPosted_table (runtime.guest object before) ready future
        rw [polled] at effect
        cases effect with
        | pending same counter =>
          rw [same]
          exact ⟨table.1, fun handle member => List.mem_append_left _ (table.2 handle member)⟩
      | complete polled => exact (pollPosted_granted numbered.answering polled).live table
    | finished found ending =>
      rw [settle_task] at task
      cases task

theorem numbered_of_execution {history : List (Transition Runtime Action Event)}
    (execution : machine.Execution history runtime) : Numbered (trace history) runtime := by
  refine invariant_of_moves Numbered ?_ ?_ execution
  · intro session
    refine ⟨?_, rfl, Nat.le_refl 1, (by decide : 1 ≤ 2 ^ 63 - 1), ?_⟩
    · intro id result found
      cases found
    · intro serial object context posted found
      cases found
  · intro events runtime more after _ numbered move
    exact numbered.move move

end Numbers

section Claims

variable {history : List (Transition Runtime Action Event)}

/-- A guest that can reach no memory. -/
def blind : Scope where
  memory _ _ := none
  writable _ _ := false
  clock := ⟨0, 0⟩
  fromStr _ := none
  sized := by simp

/-- Load an object and let its guest create a handle. -/
def createOne : List Action :=
  [.load 0 "" .null [], .loaded 0 (.ok true), .start "o1",
    .poll 1 (.helper { helper := .jsonNull } blind) ⟨0, 0⟩ []]

/-- All handle numbers of a process are given out in order from one on, and look
like no status. A table is bounded and holds only what its own object was given; a
call that names any other number gets a negative status, or faults on an invalid
pointer argument, and changes no table. -/
theorem handles_unforgeable (execution : machine.Execution history runtime) :
    (issued (trace history)).map Prod.snd = List.range' 1 (runtime.nextHandle - 1) ∧
      ((issued (trace history)).map Prod.snd).Pairwise (· < ·) ∧
      (∀ grant ∈ issued (trace history), 1 ≤ grant.2 ∧ grant.2 ≤ 2 ^ 63 - 2) ∧
      ∀ serial object context posted, runtime.heap.lookup serial = some object →
        object.task = .running context posted →
        context.handles.entries.length ≤ 128 ∧
          (∀ handle ∈ context.handles, (serial, handle) ∈ issued (trace history)) ∧
          ∀ scope call handle, handle ∈ call.handles → handle ∉ context.handles →
            ∀ guest reply, (runtime.guest object context).invoke scope call = (guest, reply) →
              Denied scope call reply ∧ guest.context.handles = context.handles ∧
                ∀ other, other ≠ serial →
                  (runtime.absorb serial object guest reply.future).heap.lookup other =
                    runtime.heap.lookup other := by
  have numbered := numbered_of_execution execution
  have bounded := numbered.bounded
  refine ⟨numbered.range, ?_, ?_, ?_⟩
  · rw [numbered.range]
    exact List.pairwise_lt_range'
  · intro grant member
    have listed : grant.2 ∈ List.range' 1 (runtime.nextHandle - 1) :=
      numbered.range ▸ List.mem_map_of_mem member
    rw [List.mem_range'_1] at listed
    omega
  · intro serial object context posted found task
    obtain ⟨few, live⟩ := numbered.table found task
    refine ⟨few, live, ?_⟩
    intro scope call handle named dead guest reply invoked
    obtain ⟨denied, table, -⟩ := invoke_dead (runtime.guest object context) scope named dead
    rw [invoked] at denied table
    exact ⟨denied, table, fun other different => AList.lookup_insert_ne different⟩

/-- Two objects, each of which has created a handle. -/
def createTwo : List Action :=
  createOne ++ [.load 0 "" .null [], .loaded 0 (.ok true), .start "o2",
    .poll 2 (.helper { helper := .jsonNull } blind) ⟨0, 0⟩ []]

/-- The second object can neither drop the handle of the first nor read a key of it, and
faults only when the key is out of its reach. -/
theorem handles_unforgeable_two :
    ∃ history runtime object context,
      machine.run { host := { session := "" } } createTwo = some (history, runtime) ∧
      runtime.heap.lookup 2 = some object ∧ object.task = .running context none ∧
      issued (trace history) = [(1, 1), (2, 2)] ∧
      Denied blind { helper := .drop, a := 1 }
        ((runtime.guest object context).invoke blind { helper := .drop, a := 1 }).2 ∧
      Denied blind { helper := .jsonGetRaw, a := 1, b := 5, c := 1 }
        ((runtime.guest object context).invoke blind
          { helper := .jsonGetRaw, a := 1, b := 5, c := 1 }).2 := by
  obtain ⟨history, runtime, object, context, ran, found, task, given, dead⟩ :
      ∃ history runtime object context,
        machine.run { host := { session := "" } } createTwo = some (history, runtime) ∧
        runtime.heap.lookup 2 = some object ∧ object.task = .running context none ∧
        issued (trace history) = [(1, 1), (2, 2)] ∧ 1 ∉ context.handles :=
    ⟨_, _, _, _, rfl, rfl, rfl, by decide, by decide⟩
  obtain ⟨-, -, -, tables⟩ := handles_unforgeable (Machine.execution_of_run ⟨"", rfl⟩ ran)
  obtain ⟨-, -, denies⟩ := tables 2 object context none found task
  refine ⟨history, runtime, object, context, ran, found, task, given, ?_, ?_⟩
  · exact (denies blind { helper := .drop, a := 1 } 1 (by decide) dead _ _ rfl).1
  · exact (denies blind { helper := .jsonGetRaw, a := 1, b := 5, c := 1 } 1 (by decide) dead
      _ _ rfl).1

/-- Every helper call and every completion is atomic on every table, and the numbers
of all tables that occur have been given out, so that the next one is fresh. -/
theorem handle_operations_atomic (execution : machine.Execution history runtime) :
    (∀ (guest : Guest) scope call,
      guest.Atomic scope call (guest.invoke scope call).1 (guest.invoke scope call).2) ∧
    (∀ (guest : Guest) ready future,
      guest.AtomicCompletion future (guest.pollPosted ready future).1
        (guest.pollPosted ready future).2.2) ∧
    ∀ serial object context posted, runtime.heap.lookup serial = some object →
      object.task = .running context posted →
      (runtime.guest object context).Numbered ∧ (runtime.guest object context).host.Answering := by
  have numbered := numbered_of_execution execution
  refine ⟨invoke_atomic, pollPosted_atomic, ?_⟩
  intro serial object context posted found task
  refine ⟨?_, numbered.answering⟩
  intro handle live
  have given : handle ∈ (issued (trace history)).map Prod.snd :=
    List.mem_map_of_mem ((numbered.table found task).2 handle live)
  rw [numbered.range, List.mem_range'_1] at given
  have positive := numbered.positive
  change handle < runtime.nextHandle
  omega

set_option maxRecDepth 10000 in
/-- The table with one handle admits the next number. -/
theorem handle_operations_atomic_next :
    ∃ history runtime object context,
      machine.run { host := { session := "" } } createOne = some (history, runtime) ∧
      runtime.heap.lookup 1 = some object ∧ object.task = .running context none ∧
      context.handles.keys = [1] ∧ (runtime.guest object context).Numbered := by
  obtain ⟨history, runtime, object, context, ran, found, task, keys⟩ :
      ∃ history runtime object context,
        machine.run { host := { session := "" } } createOne = some (history, runtime) ∧
        runtime.heap.lookup 1 = some object ∧ object.task = .running context none ∧
        context.handles.keys = [1] := ⟨_, _, _, _, rfl, rfl, rfl, by decide⟩
  obtain ⟨-, -, tables⟩ := handle_operations_atomic (Machine.execution_of_run ⟨"", rfl⟩ ran)
  exact ⟨history, runtime, object, context, ran, found, task, keys,
    (tables 1 object context none found task).1⟩

end Claims

end Runtime

end Spinfoam
