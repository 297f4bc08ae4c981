import Spinfoam.Runtime.Stops

/-!
# Calls and their answers

A request that calls the runtime gets its answer in the call, or it is suspended
until a loader or an object has finished. An answer tells of what the runtime has
done for it: a successful load, stop or delivery is told of once, when it happens.
-/

namespace Spinfoam.Runtime

open Spinfoam.Json Spinfoam.Std Spinfoam.Outbox Spinfoam.Guest Spinfoam.Semantics

/-- What the runtime has done. -/
inductive Report where
  | loaded (id : String)
  | stopped (id : String) (unloaded : Bool)
  | delivered (id : String) (envelope : Value)
  | shutdown
deriving DecidableEq

def Event.report : Event → Option Report
  | .bound _ id => some (.loaded id)
  | .stopped id unloaded => some (.stopped id unloaded)
  | .accepted serial envelope => some (.delivered (objectId serial) envelope)
  | .shutdown => some .shutdown
  | _ => none

def reports (events : List Event) : List Report := events.filterMap Event.report

/-- The answer that a call has got. -/
def answer (events : List Event) : Option RpcResult :=
  events.findSome? fun
    | .responded result => some result
    | _ => none

/-- What the answer to a call tells of. -/
inductive Tells (runtime : Runtime) : Action → RpcResult → List Report → Prop where
  | refused (action : Action) (error : RpcError) : Tells runtime action (.error error) []
  | loaded (number : Nat) (result : Except String Bool) {value : Value} {id : String}
      (named : (value.get "object_id").bind Value.asStr = some id) :
      Tells runtime (.loaded number result) (.ok value) [.loaded id]
  | started (id : String) (value : Value) : Tells runtime (.start id) (.ok value) []
  | status (id : String) (value : Value) : Tells runtime (.status id) (.ok value) []
  | stopped (number : Nat) (id : String) (unload : Bool) (order : List String) (value : Value) :
      Tells runtime (.stop number id unload order) (.ok value) [.stopped id unload]
  | joined {number : Nat} {call : StopCall} {unload : Bool} (order : List String) (value : Value)
      (waiting : runtime.stops.lookup number = some call) (purpose : call.purpose = .request unload) :
      Tells runtime (.pollStop number order) (.ok value) [.stopped (objectId call.object) unload]
  | accepted (id eventId topic : String) (payload : Value) :
      Tells runtime (.deliver id eventId topic payload) (.ok (Mailbox.admitted false))
        [.delivered id (envelope eventId topic payload)]
  | duplicate (id eventId topic : String) (payload : Value) {value : Value}
      (old : value ≠ Mailbox.admitted false) :
      Tells runtime (.deliver id eventId topic payload) (.ok value) []

/-- A call has been answered, and the answer tells of what was done. Or it goes on,
and nothing was done. -/
inductive Honest (runtime : Runtime) (action : Action) (events : List Event) : Prop where
  | silent (unanswered : answer events = none) (nothing : reports events = [])
  | told {result : RpcResult} (answered : answer events = some result)
      (tells : Tells runtime action result (reports events))

section Lists

variable {events : List Event}

@[simp] theorem reports_append (first second : List Event) :
    reports (first ++ second) = reports first ++ reports second := List.filterMap_append

@[simp] theorem reports_host (events : List Host.Event) : reports (events.map .host) = [] := by
  rw [reports, List.filterMap_map, List.filterMap_eq_nil_iff]
  exact fun _ _ => rfl

@[simp] theorem answer_host (events : List Host.Event) (later : List Event) :
    answer (events.map .host ++ later) = answer later := by
  rw [answer, List.findSome?_append, List.findSome?_map]
  have none : events.findSome? ((fun
      | .responded result => some result
      | _ => none) ∘ Event.host) = (none : Option RpcResult) := by
    rw [List.findSome?_eq_none_iff]
    exact fun _ _ => rfl
  rw [none, Option.none_or]
  rfl

end Lists

section Calls

variable {runtime after : Runtime} {events : List Event}

/-- A refusal tells of nothing, and nothing has happened. -/
theorem Honest.refuse (action : Action) (error : RpcError) :
    Honest runtime action [.responded (.error error)] :=
  .told rfl (.refused action error)

/-- The beginning of a load answers only when it refuses. -/
theorem honest_load (runtime : Runtime) (request : Nat) (hash : String) (config : Value)
    (capabilities : List Capability) :
    Honest runtime (.load request hash config capabilities)
      (runtime.load request hash config capabilities).2 := by
  unfold Runtime.load
  split_ifs
  · exact .refuse _ _
  · exact .refuse _ _
  · exact .refuse _ _
  · exact .silent rfl rfl

/-- A load tells of the object that it has bound. -/
theorem honest_finishLoad (runtime : Runtime) (request : Nat) (load : Load)
    (result : Except String Bool) :
    Honest runtime (.loaded request result) (runtime.finishLoad request load result).2 := by
  rcases result with error | main
  · exact .refuse _ _
  · cases main with
    | false => exact .refuse _ _
    | true => exact .told rfl (.loaded request (.ok true) rfl)

/-- A start tells of nothing, and does nothing that is told of. -/
theorem honest_start (runtime : Runtime) (id : String) :
    Honest runtime (.start id) (runtime.start id).2 := by
  unfold Runtime.start
  split
  · exact .refuse _ _
  · split_ifs
    · exact .refuse _ _
    · exact .silent rfl rfl
    · exact .told rfl (.started id _)

/-- A delivery tells of an event exactly if it was accepted. -/
theorem honest_deliver (sound : Sound runtime) (id eventId topic : String) (payload : Value) :
    Honest runtime (.deliver id eventId topic payload)
      (runtime.deliver id eventId topic payload).2 := by
  unfold Runtime.deliver
  split_ifs
  · exact .refuse _ _
  · split
    · exact .refuse _ _
    · rename_i serial object got
      obtain ⟨found, same⟩ := sound.get_eq_some got
      have named : objectId serial = id := (sound.object found).2.symm.trans same
      extract_lets event
      generalize object.deliver event = delivered
      obtain ⟨next, error | value⟩ := delivered
      · exact .refuse _ error
      · by_cases new : value = Mailbox.admitted false
        · subst new
          have told : Tells runtime (.deliver id eventId topic payload)
              (.ok (Mailbox.admitted false)) [.delivered (objectId serial) event] :=
            named ▸ .accepted (objectId serial) eventId topic payload
          simp only [if_true]
          exact .told rfl told
        · have old : (.ok value : RpcResult) ≠ .ok (Mailbox.admitted false) := by simpa using new
          simp only [if_neg old]
          exact .told rfl (.duplicate id eventId topic payload new)

/-- The end of a stop tells of the object by its id. -/
theorem honest_proceed {action : Action} {number serial : Nat} {unload : Bool}
    {order : List String} {result : Object × Option Object.StopPhase}
    (tells : ∀ value, Tells runtime action (.ok value) [.stopped result.1.id unload]) :
    Honest runtime action (runtime.proceed number serial (.request unload) order result).2 := by
  obtain ⟨object, _ | phase⟩ := result
  · simp only [proceed, finishStop]
    have answered : answer ((cleanHost runtime.host object.id order).2.map .host ++
        [.stopped object.id unload,
          .responded (.ok (if unload then unloaded else object.status))]) =
        some (.ok (if unload then unloaded else object.status)) := by
      rw [answer_host]
      rfl
    refine .told answered ?_
    rw [reports_append, reports_host]
    exact tells _
  · exact .silent rfl rfl

/-- The calls that a request with this number makes. -/
inductive CallFor (number : Nat) : Action → Prop where
  | load (hash : String) (config : Value) (capabilities : List Capability) :
      CallFor number (.load number hash config capabilities)
  | loaded (result : Except String Bool) : CallFor number (.loaded number result)
  | start (id : String) : CallFor number (.start id)
  | status (id : String) : CallFor number (.status id)
  | stop (id : String) (unload : Bool) (order : List String) :
      CallFor number (.stop number id unload order)
  | pollStop (order : List String) : CallFor number (.pollStop number order)
  | deliver (id eventId topic : String) (payload : Value) :
      CallFor number (.deliver id eventId topic payload)

variable {number : Nat} {action : Action}

/-- Whatever a request calls, its answer tells of what was done. -/
theorem CallFor.honest (call : CallFor number action) (sound : Sound runtime)
    (purpose : ∀ call, runtime.stops.lookup number = some call →
      ∃ unload, call.purpose = .request unload)
    (taken : runtime.perform action = some (after, events)) : Honest runtime action events := by
  cases call with
  | load hash config capabilities =>
    simp only [perform, Option.ite_none_left_eq_some, Option.some.injEq] at taken
    have honest := honest_load runtime number hash config capabilities
    rwa [taken.2] at honest
  | loaded result =>
    simp only [perform, Option.map_eq_some_iff] at taken
    obtain ⟨load, -, same⟩ := taken
    have honest := honest_finishLoad runtime number load result
    rwa [same] at honest
  | start id =>
    have honest := honest_start runtime id
    rwa [Option.some.inj taken] at honest
  | status id =>
    obtain ⟨-, rfl⟩ := Prod.mk.inj (Option.some.inj taken)
    split
    · exact .refuse _ _
    · exact .told rfl (.status id _)
  | stop id unload order =>
    simp only [perform, Option.ite_none_left_eq_some, Option.some.injEq] at taken
    have honest : Honest runtime (.stop number id unload order)
        (runtime.stop number id unload order).2 := by
      unfold Runtime.stop
      split
      · cases unload with
        | true => exact .told rfl (.stopped number id true order unloaded)
        | false => exact .refuse _ _
      · rename_i serial object got
        have kept : object.stop.1.id = id :=
          (@Object.Tended.stop serial object).same.1.trans (sound.get_eq_some got).2
        exact honest_proceed fun value => kept ▸ .stopped number object.stop.1.id unload order value
    rwa [taken.2] at honest
  | pollStop order =>
    simp only [perform, Option.bind_eq_some_iff, Option.map_eq_some_iff] at taken
    obtain ⟨call, waiting, object, found, same⟩ := taken
    obtain ⟨unload, asked⟩ := purpose call waiting
    obtain ⟨current, stored, fits⟩ := sound.stops waiting
    obtain rfl : object = current := Option.some.inj (found.symm.trans stored)
    have kept : (object.pollStop call.phase).1.id = objectId call.object :=
      (@Object.Tended.pollStop call.object object _ fits).same.1.trans (sound.object found).2
    rw [asked] at same
    have honest : Honest runtime (.pollStop number order)
        (runtime.proceed number call.object (.request unload) order
          (object.pollStop call.phase)).2 :=
      honest_proceed fun value => kept ▸ .joined order value waiting asked
    rwa [same] at honest
  | deliver id eventId topic payload =>
    have honest := honest_deliver sound id eventId topic payload
    rwa [Option.some.inj taken] at honest

/-- Where a call leaves its request: suspended in one of the tables, or in none of
them once it is answered. -/
inductive Stands (runtime after : Runtime) (number : Nat) : Action → Option RpcResult → Prop where
  | answered (action : Action) (result : RpcResult) (loads : number ∉ after.loads)
      (stops : number ∉ after.stops) : Stands runtime after number action (some result)
  | loading (hash : String) (config : Value) (capabilities : List Capability) {load : Load}
      (waiting : after.loads.lookup number = some load) (idle : number ∉ after.stops) :
      Stands runtime after number (.load number hash config capabilities) none
  | stopping (order : List String) {id : String} {unload : Bool} {call : StopCall}
      (waiting : after.stops.lookup number = some call) (purpose : call.purpose = .request unload)
      (named : objectId call.object = id) (idle : number ∉ after.loads) :
      Stands runtime after number (.stop number id unload order) none
  | still (order : List String) {before call : StopCall}
      (was : runtime.stops.lookup number = some before)
      (waiting : after.stops.lookup number = some call) (purpose : call.purpose = before.purpose)
      (object : call.object = before.object) (idle : number ∉ after.loads) :
      Stands runtime after number (.pollStop number order) none

/-- A stop for a request is suspended at its own number, or it is answered. -/
theorem stands_proceed (number serial : Nat) (unload : Bool) (order : List String)
    (result : Object × Option Object.StopPhase) (idle : number ∉ runtime.loads) :
    let outcome := runtime.proceed number serial (.request unload) order result
    number ∉ outcome.1.loads ∧
      ((∃ answered, answer outcome.2 = some answered ∧ number ∉ outcome.1.stops) ∨
        answer outcome.2 = none ∧ ∃ phase, outcome.1.stops.lookup number =
          some { object := serial, phase, purpose := .request unload }) := by
  obtain ⟨object, _ | phase⟩ := result
  · refine ⟨idle, Or.inl ⟨.ok (if unload then unloaded else object.status), ?_, ?_⟩⟩
    · simp only [proceed, finishStop, answer_host]
      rfl
    · simp only [proceed, finishStop, AList.mem_erase]
      exact fun gone => gone.1 rfl
  · exact ⟨idle, Or.inr ⟨rfl, phase, AList.lookup_insert _⟩⟩

/-- A call that belongs to a request is answered, or waits under its number. -/
theorem CallFor.stands (call : CallFor number action) (sound : Sound runtime)
    (loads : number ∈ runtime.loads → ∃ result, action = .loaded number result)
    (stops : number ∈ runtime.stops → ∃ order, action = .pollStop number order)
    (purpose : ∀ call, runtime.stops.lookup number = some call →
      ∃ unload, call.purpose = .request unload)
    (taken : runtime.perform action = some (after, events)) :
    Stands runtime after number action (answer events) := by
  have unloading (other : ∀ result, action ≠ .loaded number result) : number ∉ runtime.loads :=
    fun member => (loads member).elim other
  have unstopping (other : ∀ order, action ≠ .pollStop number order) : number ∉ runtime.stops :=
    fun member => (stops member).elim other
  cases call with
  | load hash config capabilities =>
    have idle := unstopping (by simp)
    simp only [perform, Option.ite_none_left_eq_some, Option.some.injEq] at taken
    obtain ⟨free, taken⟩ := taken
    unfold Runtime.load at taken
    split_ifs at taken
    · obtain ⟨rfl, rfl⟩ := Prod.mk.inj taken
      exact .answered _ _ free idle
    · obtain ⟨rfl, rfl⟩ := Prod.mk.inj taken
      exact .answered _ _ free idle
    · obtain ⟨rfl, rfl⟩ := Prod.mk.inj taken
      exact .answered _ _ free idle
    · obtain ⟨rfl, rfl⟩ := Prod.mk.inj taken
      exact .loading hash config capabilities (AList.lookup_insert _) idle
  | loaded result =>
    have idle := unstopping (by simp)
    simp only [perform, Option.map_eq_some_iff] at taken
    obtain ⟨load, -, same⟩ := taken
    have gone : number ∉ runtime.loads.erase number := fun member =>
      (AList.mem_erase.mp member).1 rfl
    rcases result with error | main
    · obtain ⟨rfl, rfl⟩ := Prod.mk.inj same
      exact .answered _ _ gone idle
    · cases main <;>
      · obtain ⟨rfl, rfl⟩ := Prod.mk.inj same
        exact .answered _ _ gone idle
  | start id =>
    have free := unloading (by simp)
    have idle := unstopping (by simp)
    simp only [perform, Runtime.start, Option.some.injEq] at taken
    split at taken
    · obtain ⟨rfl, rfl⟩ := Prod.mk.inj taken
      exact .answered _ _ free idle
    · rename_i serial object got
      split_ifs at taken with started program
      · obtain ⟨rfl, rfl⟩ := Prod.mk.inj taken
        exact .answered _ _ free idle
      · have found := (sound.get_eq_some got).1
        have held := (sound.object found).1.loaded (not_not.mp started)
        simp [held.2.1] at program
      · obtain ⟨rfl, rfl⟩ := Prod.mk.inj taken
        exact .answered _ _ free idle
  | status id =>
    have free := unloading (by simp)
    have idle := unstopping (by simp)
    obtain ⟨rfl, rfl⟩ := Prod.mk.inj (Option.some.inj taken)
    exact .answered _ _ free idle
  | stop id unload order =>
    have free := unloading (by simp)
    have idle := unstopping (by simp)
    simp only [perform, Option.ite_none_left_eq_some, Option.some.injEq, Runtime.stop] at taken
    obtain ⟨-, taken⟩ := taken
    split at taken
    · obtain ⟨rfl, rfl⟩ := Prod.mk.inj taken
      cases unload <;> exact .answered _ _ free idle
    · rename_i serial object got
      obtain ⟨found, named⟩ := sound.get_eq_some got
      have same : objectId serial = id := (sound.object found).2.symm.trans named
      obtain ⟨loaded, ⟨result, answered, gone⟩ | ⟨silent, phase, waiting⟩⟩ :=
        stands_proceed number serial unload order object.stop free
      · rw [taken] at loaded answered gone
        rw [answered]
        exact .answered _ result loaded gone
      · rw [taken] at loaded silent waiting
        rw [silent]
        exact .stopping order waiting rfl same loaded
  | pollStop order =>
    have free := unloading (by simp)
    simp only [perform, Option.bind_eq_some_iff, Option.map_eq_some_iff] at taken
    obtain ⟨call, was, object, found, same⟩ := taken
    obtain ⟨unload, asked⟩ := purpose call was
    rw [asked] at same
    obtain ⟨loaded, ⟨result, answered, gone⟩ | ⟨silent, phase, waiting⟩⟩ :=
      stands_proceed number call.object unload order (object.pollStop call.phase) free
    · rw [same] at loaded answered gone
      rw [answered]
      exact .answered _ result loaded gone
    · rw [same] at loaded silent waiting
      rw [silent]
      exact .still order was waiting asked.symm rfl loaded
  | deliver id eventId topic payload =>
    have free := unloading (by simp)
    have idle := unstopping (by simp)
    simp only [perform, Option.some.injEq, Runtime.deliver] at taken
    split_ifs at taken
    · obtain ⟨rfl, rfl⟩ := Prod.mk.inj taken
      exact .answered _ _ free idle
    · split at taken
      · obtain ⟨rfl, rfl⟩ := Prod.mk.inj taken
        exact .answered _ _ free idle
      · obtain ⟨rfl, rfl⟩ := Prod.mk.inj taken
        split_ifs <;> exact .answered _ _ free idle

/-- Stopping objects leaves the loads alone. -/
theorem loads_shutdownFrom (runtime : Runtime) (request : Nat) (serials : List Nat) :
    (runtime.shutdownFrom request serials).1.loads = runtime.loads := by
  induction serials generalizing runtime with
  | nil => rfl
  | cons serial rest ih =>
    unfold shutdownFrom
    split
    · exact ih runtime
    · split
      · rfl
      · exact ih _

/-- Cancelling objects leaves the loads alone. -/
theorem loads_cancelAll (runtime : Runtime) (serials : List Nat) :
    (runtime.cancelAll serials).loads = runtime.loads := by
  induction serials generalizing runtime with
  | nil => rfl
  | cons serial rest ih =>
    unfold cancelAll
    split
    · exact ih runtime
    · exact ih _

/-- A stop that goes on leaves the loads alone. -/
theorem loads_proceed (runtime : Runtime) (request serial : Nat) (purpose : Purpose)
    (order : List String) (result : Object × Option Object.StopPhase) :
    (runtime.proceed request serial purpose order result).1.loads = runtime.loads := by
  obtain ⟨object, _ | phase⟩ := result
  · cases purpose with
    | request unload => rfl
    | shutdown rest => exact loads_shutdownFrom _ request rest
  · rfl

/-- A call leaves what other requests wait for. -/
theorem CallFor.elsewhere (call : CallFor number action)
    (taken : runtime.perform action = some (after, events)) {other : Nat}
    (different : other ≠ number) :
    after.loads.lookup other = runtime.loads.lookup other ∧
      Undisturbed (runtime.stops.lookup other) (after.stops.lookup other) := by
  constructor
  · cases call with
    | load hash config capabilities =>
      simp only [perform, Option.ite_none_left_eq_some] at taken
      obtain rfl : (runtime.load number hash config capabilities).1 = after :=
        congrArg Prod.fst (Option.some.inj taken.2)
      unfold Runtime.load
      split_ifs
      · rfl
      · rfl
      · rfl
      · exact AList.lookup_insert_ne different
    | loaded result =>
      simp only [perform, Option.map_eq_some_iff] at taken
      obtain ⟨load, -, same⟩ := taken
      obtain rfl := congrArg Prod.fst same
      rcases result with error | main
      · exact AList.lookup_erase_ne different
      · cases main <;> exact AList.lookup_erase_ne different
    | start id =>
      obtain rfl : (runtime.start id).1 = after := congrArg Prod.fst (Option.some.inj taken)
      unfold Runtime.start
      split
      · rfl
      · split_ifs <;> rfl
    | status id =>
      obtain rfl := congrArg Prod.fst (Option.some.inj taken)
      rfl
    | stop id unload order =>
      simp only [perform, Option.ite_none_left_eq_some] at taken
      obtain rfl : (runtime.stop number id unload order).1 = after :=
        congrArg Prod.fst (Option.some.inj taken.2)
      unfold Runtime.stop
      split
      · rfl
      · rw [loads_proceed]
    | pollStop order =>
      simp only [perform, Option.bind_eq_some_iff, Option.map_eq_some_iff] at taken
      obtain ⟨call, -, object, -, same⟩ := taken
      obtain rfl := congrArg Prod.fst same
      rw [loads_proceed]
    | deliver id eventId topic payload =>
      obtain rfl : (runtime.deliver id eventId topic payload).1 = after :=
        congrArg Prod.fst (Option.some.inj taken)
      unfold Runtime.deliver
      split_ifs
      · rfl
      · split <;> rfl
  · apply undisturbed_perform taken
    cases call <;> simp [Action.halts, different.symm]

end Calls

section Polls

variable {runtime after : Runtime} {events : List Event} {serial : Nat} {object : Object}
  {order : List String} {turn : Turn}

/-- What a guest does in a poll is nothing that a request has asked for. -/
structure Unasked (runtime : Runtime) (events : List Event) (after : Runtime) : Prop where
  loads : after.loads = runtime.loads
  objects : after.objects = runtime.objects
  reports : reports events = []

/-- A turn of a guest does nothing that a request asks for. -/
theorem unasked_turn {context : GuestContext} {posted : Option Posted}
    (taken : runtime.turn serial object context posted order turn = some (after, events)) :
    Unasked runtime events after := by
  unfold Runtime.turn at taken
  split at taken
  · obtain ⟨rfl, rfl⟩ := Prod.mk.inj (Option.some.inj taken)
    exact ⟨rfl, rfl, rfl⟩
  · split at taken
    · cases taken
    · obtain ⟨rfl, rfl⟩ := Prod.mk.inj (Option.some.inj taken)
      exact ⟨rfl, rfl, rfl⟩
  · split at taken
    · cases taken
    · simp only at taken
      split at taken
      · obtain ⟨rfl, rfl⟩ := Prod.mk.inj (Option.some.inj taken)
        exact ⟨rfl, rfl, reports_host _⟩
      · obtain ⟨rfl, rfl⟩ := Prod.mk.inj (Option.some.inj taken)
        refine ⟨rfl, rfl, ?_⟩
        rw [reports_append, reports_host]
        unfold handed
        split
        · split_ifs <;> rfl
        · rfl
  · obtain ⟨rfl, rfl⟩ := Prod.mk.inj (Option.some.inj taken)
    exact ⟨rfl, rfl, reports_host _⟩

/-- A poll of an object's task does nothing that a request asks for. -/
theorem unasked_pollTask {clock : Clock}
    (taken : runtime.pollTask serial turn clock order = some (after, events)) :
    Unasked runtime events after := by
  simp only [Runtime.pollTask, Option.bind_eq_some_iff] at taken
  obtain ⟨object, -, taken⟩ := taken
  split at taken
  · cases taken
  · cases taken
  · split_ifs at taken
    · obtain ⟨rfl, rfl⟩ := Prod.mk.inj (Option.some.inj taken)
      exact ⟨rfl, rfl, reports_host _⟩
    · obtain ⟨⟨last, later⟩, stepped, same⟩ := Option.map_eq_some_iff.mp taken
      obtain ⟨rfl, rfl⟩ := Prod.mk.inj same
      have turned := unasked_turn stepped
      exact ⟨turned.loads, turned.objects, turned.reports⟩
  · split_ifs at taken
    · obtain ⟨rfl, rfl⟩ := Prod.mk.inj (Option.some.inj taken)
      exact ⟨rfl, rfl, reports_host _⟩
    · exact unasked_turn taken

/-- An object gets into the heap when it is bound. -/
theorem Move.heap_new (move : Move runtime events after) (unknown : serial ∉ runtime.heap)
    (member : serial ∈ after.heap) : ∃ id, .bound serial id ∈ events := by
  have stored : ∀ {number : Nat} {current next : Object},
      runtime.heap.lookup number = some current → serial ∉ runtime.heap.insert number next := by
    intro number current next found member
    rcases (AList.mem_insert _).mp member with same | old
    · exact unknown (same ▸ Map.mem_of_lookup found)
    · exact unknown old
  cases move with
  | @bind request load waiting =>
    rcases (AList.mem_insert _).mp member with rfl | old
    · exact ⟨_, List.mem_cons_self⟩
    · exact absurd old unknown
  | tend found => exact absurd member (stored found)
  | helper found => exact absurd member (stored found)
  | stay found => exact absurd member (stored found)
  | complete found => exact absurd member (stored found)
  | finish found ending order =>
    rw [finish_eq] at member
    exact absurd member (stored found)
  | _ => exact absurd member unknown

/-- An object that is new has been bound. -/
theorem Moves.heap_new (moves : Moves runtime events after) (unknown : serial ∉ runtime.heap)
    (member : serial ∈ after.heap) : ∃ id, .bound serial id ∈ events := by
  induction moves with
  | refl => exact absurd member unknown
  | @head runtime middle after first later move _ ih =>
    by_cases known : serial ∈ middle.heap
    · obtain ⟨id, bound⟩ := move.heap_new unknown known
      exact ⟨id, List.mem_append_left _ bound⟩
    · obtain ⟨id, bound⟩ := ih known member
      exact ⟨id, List.mem_append_right _ bound⟩

/-- Without a load the heap does not grow. -/
theorem Moves.heap_old (moves : Moves runtime events after)
    (unloaded : ∀ id, .loaded id ∉ reports events) (member : serial ∈ after.heap) :
    serial ∈ runtime.heap := by
  by_contra unknown
  obtain ⟨id, bound⟩ := moves.heap_new unknown member
  exact unloaded id (List.mem_filterMap.mpr ⟨_, bound, rfl⟩)

/-- Every object of a run has been bound in it. -/
theorem bound_of_heap {history : List (Transition Runtime Action Event)}
    (execution : machine.Execution history runtime) (member : serial ∈ runtime.heap) :
    ∃ id, .bound serial id ∈ trace history := by
  refine invariant_of_moves (fun events runtime => ∀ serial ∈ runtime.heap,
    ∃ id, .bound serial id ∈ events) ?_ ?_ execution serial member
  · intro session serial member
    exact absurd member (AList.notMem_empty serial)
  · intro events runtime more after _ known move serial member
    by_cases old : serial ∈ runtime.heap
    · obtain ⟨id, bound⟩ := known serial old
      exact ⟨id, List.mem_append_left _ bound⟩
    · obtain ⟨id, bound⟩ := move.heap_new old member
      exact ⟨id, List.mem_append_right _ bound⟩

/-- What a poll of `Runtime::shutdown` comes to. -/
inductive Shuts (after : Runtime) (request : Nat) : List Event → Prop where
  | done (gone : request ∉ after.stops) (unbound : after.objects = ∅) :
      Shuts after request [.shutdown]
  | waits {call : StopCall} {rest : List Nat} (waiting : after.stops.lookup request = some call)
      (purpose : call.purpose = .shutdown rest) : Shuts after request []

/-- `Runtime::shutdown` is over, or waits for one of its objects. -/
theorem shuts_shutdownFrom (runtime : Runtime) (request : Nat) (serials : List Nat) :
    Shuts (runtime.shutdownFrom request serials).1 request
      (runtime.shutdownFrom request serials).2 := by
  induction serials generalizing runtime with
  | nil => exact .done (fun member => (AList.mem_erase.mp member).1 rfl) rfl
  | cons serial rest ih =>
    unfold shutdownFrom
    split
    · exact ih runtime
    · split
      · exact .waits (AList.lookup_insert _) rfl
      · exact ih _

/-- A later poll of it leaves it over or waiting, too. -/
theorem shuts_proceed (runtime : Runtime) (request serial : Nat) (rest : List Nat)
    (order : List String) (result : Object × Option Object.StopPhase) :
    Shuts (runtime.proceed request serial (.shutdown rest) order result).1 request
      (runtime.proceed request serial (.shutdown rest) order result).2 := by
  obtain ⟨object, _ | phase⟩ := result
  · exact shuts_shutdownFrom _ request rest
  · exact .waits (AList.lookup_insert _) rfl

end Polls

end Spinfoam.Runtime
