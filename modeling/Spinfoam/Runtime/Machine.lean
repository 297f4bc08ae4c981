import Spinfoam.Runtime.Objects
import Spinfoam.Semantics.Machine

/-!
# The runtime

All objects of a process, the host they share, and everything that can happen
between two suspension points: control requests with their suspended futures,
polls of the object tasks, responses of the embedder, and the writer. What a
guest does in one poll of its task appears as one step for each helper call.

An object is known by the serial number of its load; its id is derived from it.
`heap` holds every object ever loaded, `objects` the ids that are bound.
-/

namespace Spinfoam

open Spinfoam.Json Spinfoam.Std Spinfoam.Outbox Spinfoam.Guest Spinfoam.Semantics

namespace Runtime

/-- A suspended `Runtime::load`. -/
structure Load where
  serial : Nat
  hash : String
  config : Value
  capabilities : List Capability

/-- Who waits for an object to stop. -/
inductive Purpose where
  | request (unload : Bool)
  /-- `Runtime::shutdown`, with the objects it has still to stop. -/
  | shutdown (rest : List Nat)

structure StopCall where
  object : Nat
  phase : Object.StopPhase
  purpose : Purpose

/-- A parked stop is woken when its object is done. -/
def StopCall.wake (call : StopCall) (serial : Nat) : StopCall :=
  match call.phase with
  | .parked _ => if call.object = serial then { call with phase := .parked true } else call
  | .joining => call

end Runtime

open Spinfoam.Runtime

structure Runtime where
  host : Host
  next : Nat := 0
  nextHandle : Nat := 1
  heap : Map Nat Object := ∅
  objects : Map String Nat := ∅
  loads : Map Nat Load := ∅
  stops : Map Nat StopCall := ∅
  panicked : Bool := false

namespace Runtime

/-- What a poll of an object's task comes to, unless the object is cancelled. -/
inductive Turn where
  /-- The guest computes, or stays where it is. -/
  | idle
  | helper (call : HelperCall) (scope : Scope)
  /-- The posted future is polled. -/
  | resume (ready : Ready)
  /-- The run ends with an exit code or a fault. -/
  | finish (result : Except String Int)

inductive Action where
  /-- The first poll of `Runtime::load`. -/
  | load (request : Nat) (hash : String) (config : Value) (capabilities : List Capability)
  /-- The loader has failed, or says whether there is a main section. -/
  | loaded (request : Nat) (result : Except String Bool)
  | dropLoad (request : Nat)
  | start (id : String)
  /-- The first poll of `Runtime::stop`; `order` is that of the pending calls. -/
  | stop (request : Nat) (id : String) (unload : Bool) (order : List String)
  | shutdown (request : Nat)
  | pollStop (request : Nat) (order : List String)
  | dropStop (request : Nat)
  /-- `sf.event.deliver`. -/
  | deliver (id eventId topic : String) (payload : Value)
  | status (id : String)
  | response (frame : Value)
  | poll (object : Nat) (turn : Turn) (clock : Clock) (order : List String)
  | next
  | close
  /-- Responses to the embedder. -/
  | control (value : Value)

inductive Event where
  | host (event : Host.Event)
  | responded (result : RpcResult)
  /-- An object has been loaded under its id. -/
  | bound (object : Nat) (id : String)
  /-- A stop or unload of this id is answered with success. -/
  | stopped (id : String) (unloaded : Bool)
  /-- `spinfoam.main` is invoked. -/
  | invoked (object : Nat)
  | accepted (object : Nat) (envelope : Value)
  | replied (object : Nat) (call : HelperCall) (reply : Reply)
  /-- A posted future has completed and its helper returns the word. -/
  | completed (object : Nat) (future : Posted) (word : Nat)
  /-- An event was handed to the guest under a handle. -/
  | received (object : Nat) (envelope : Value) (handle : Nat)
  /-- `Runtime::shutdown` has returned. -/
  | shutdown
  | panicked
deriving DecidableEq

/-- The id of the object with this serial number. -/
def objectId (serial : Nat) : String := "o" ++ toString serial

/-- The envelope of an event. -/
def envelope (eventId topic : String) (payload : Value) : Value :=
  .object [("event_id", .string eventId), ("payload", payload), ("topic", .string topic)]

/-- The `sf.object.state` notification. -/
def stateNotice (status : Value) : Value :=
  .object [("jsonrpc", .string "2.0"), ("method", .string "sf.object.state"), ("params", status)]

def unloaded : Value := .object [("unloaded", .bool true)]

def put (runtime : Runtime) (serial : Nat) (object : Object) : Runtime :=
  { runtime with heap := runtime.heap.insert serial object }

/-- `Runtime::get`. -/
def get (runtime : Runtime) (id : String) : Option (Nat × Object) :=
  (runtime.objects.lookup id).bind fun serial =>
    (runtime.heap.lookup serial).map fun object => (serial, object)

/-- What a helper called by the guest of an object can reach. -/
def guest (runtime : Runtime) (object : Object) (context : GuestContext) : Guest where
  context := context
  mailbox := object.mailbox
  wait := object.wait
  host := runtime.host
  nextHandle := runtime.nextHandle

/-- Write back what a helper or a posted future has changed. -/
def absorb (runtime : Runtime) (serial : Nat) (object : Object) (guest : Guest)
    (posted : Option Posted) : Runtime :=
  { runtime with
    host := guest.host
    nextHandle := guest.nextHandle
    heap := runtime.heap.insert serial { object with
      mailbox := guest.mailbox
      wait := guest.wait
      task := .running guest.context posted } }

/-- The ids of the bound objects in their lexical order. -/
def ids (runtime : Runtime) : List String := runtime.objects.keys.insertionSort (· ≤ ·)

/-- The bound objects in the order of their ids, as `values` gives them. -/
def ordered (runtime : Runtime) : List Nat := runtime.ids.filterMap runtime.objects.lookup

/-- The ids are those that are bound. -/
theorem mem_ids {runtime : Runtime} {id : String} :
    id ∈ runtime.ids ↔ id ∈ runtime.objects := by
  rw [ids, List.mem_insertionSort, AList.mem_keys]

/-- The objects are those that some id is bound to. -/
theorem mem_ordered {runtime : Runtime} {serial : Nat} :
    serial ∈ runtime.ordered ↔ ∃ id, runtime.objects.lookup id = some serial := by
  rw [ordered, List.mem_filterMap]
  constructor
  · rintro ⟨id, -, listed⟩
    exact ⟨id, listed⟩
  · rintro ⟨id, listed⟩
    exact ⟨id, mem_ids.mpr (Map.mem_of_lookup listed), listed⟩

-- The order is that of the ids as strings.
example :
    ordered {
      host := { session := "" }
      objects := Map.insertAll ∅ [("o2", 2), ("o1", 1), ("o10", 10)] } = [1, 10, 2] := by
  decide +kernel

/-- There are no more of them than bindings. -/
theorem length_ordered (runtime : Runtime) :
    runtime.ordered.length ≤ runtime.objects.entries.length := by
  calc runtime.ordered.length
      ≤ runtime.ids.length := List.length_filterMap_le ..
    _ = runtime.objects.keys.length := List.length_insertionSort ..
    _ = runtime.objects.entries.length := List.length_map ..

/-- `notify_waiters` on the `done` of an object. -/
def notifyDone (runtime : Runtime) (serial : Nat) : Runtime :=
  { runtime with stops := Map.mapValues (fun call => call.wake serial) runtime.stops }

/-- `cancel_object` and `remove_object` of the runtime's host. -/
def cleanHost (host : Host) (id : String) (order : List String) : Host × List Host.Event :=
  let (host, events) := host.cancelObject id order
  ({ host with out := host.out.removeObject id }, events)

/-- The end of an object's task: the run future is dropped with what the guest
has posted, then everything else that belongs to the object is released. -/
def finish (runtime : Runtime) (serial : Nat) (object : Object) (context : GuestContext)
    (posted : Option Posted) (result : Option (Except String Int)) (order : List String) :
    Runtime × List Event :=
  let (guest, dropped) := (runtime.guest object context).dropRun posted
  let (host, cancelled) := cleanHost guest.host object.id order
  let object := object.settle result guest.mailbox
  let host := { host with out := (host.out.tryControl (stateNotice object.status)).1 }
  (({ runtime with host, nextHandle := guest.nextHandle }.put serial object).notifyDone serial,
    (dropped ++ cancelled).map .host)

/-- What a completed future hands over: nothing, if there was no room for it. -/
def handed (serial : Nat) (guest : Guest) (word : Nat) : Option Value → List Event
  | some event => if guest.Full then [] else [.received serial event word]
  | none => []

/-- One turn of a guest that is not cancelled. -/
def turn (runtime : Runtime) (serial : Nat) (object : Object) (context : GuestContext)
    (posted : Option Posted) (order : List String) : Turn → Option (Runtime × List Event)
  | .idle => some (runtime, [])
  | .helper call scope =>
    match posted with
    | some _ => none
    | none =>
      let (guest, reply) := (runtime.guest object context).invoke scope call
      some (runtime.absorb serial object guest reply.future, [.replied serial call reply])
  | .resume ready =>
    match posted with
    | none => none
    | some future =>
      let (guest, events, progress) := (runtime.guest object context).pollPosted ready future
      match progress with
      | .pending future =>
        some (runtime.absorb serial object guest (some future), events.map .host)
      | .done word envelope =>
        some (runtime.absorb serial object guest none,
          events.map .host ++ .completed serial future word ::
            handed serial (runtime.guest object context) word envelope)
  | .finish result => some (runtime.finish serial object context posted (some result) order)

/-- A poll of an object's task. The cancellation is looked at first. -/
def pollTask (runtime : Runtime) (serial : Nat) (turn : Turn) (clock : Clock)
    (order : List String) : Option (Runtime × List Event) :=
  (runtime.heap.lookup serial).bind fun object =>
    match object.task with
    | .none | .finished => none
    | .spawned =>
      let context : GuestContext := .new object.id object.config object.capabilities clock
      let object := object.begin clock
      if object.cancel then some (runtime.finish serial object context none none order)
      else
        ((runtime.put serial object).turn serial object context none order turn).map
          fun (runtime, events) => (runtime, .invoked serial :: events)
    | .running context posted =>
      if object.cancel then some (runtime.finish serial object context posted none order)
      else runtime.turn serial object context posted order turn

/-- `Runtime::load` up to its await. -/
def load (runtime : Runtime) (request : Nat) (hash : String) (config : Value)
    (capabilities : List Capability) : Runtime × List Event :=
  if !validValue config then
    (runtime, [.responded (.error (.params "config exceeds JSON limits"))])
  else if capabilities.any fun entry =>
      entry.name.utf8ByteSize = 0 ∨ entry.name.utf8ByteSize > 128 ∨
        !validValue (.object entry.arguments) then
    (runtime, [.responded (.error (.params "invalid capabilities"))])
  else if runtime.next + 1 ≥ 2 ^ 64 then
    (runtime, [.responded (.error (.busy "object IDs exhausted"))])
  else
    ({ runtime with
      next := runtime.next + 1
      loads := runtime.loads.insert request
        { serial := runtime.next + 1, hash, config, capabilities } }, [])

/-- The rest of `Runtime::load`. -/
def finishLoad (runtime : Runtime) (request : Nat) (load : Load) (result : Except String Bool) :
    Runtime × List Event :=
  let runtime := { runtime with loads := runtime.loads.erase request }
  match result with
  | .error error => (runtime, [.responded (.error (.new (-32010) "INVALID_OBJECT" error))])
  | .ok false => (runtime, [.responded (.error (.params "missing spinfoam.main section"))])
  | .ok true =>
    let object : Object :=
      { id := objectId load.serial
        hash := load.hash
        config := load.config
        capabilities := load.capabilities }
    ({ runtime with
      heap := runtime.heap.insert load.serial object
      objects := runtime.objects.insert object.id load.serial },
      [.bound load.serial object.id, .responded (.ok object.status)])

/-- `Runtime::start`. -/
def start (runtime : Runtime) (id : String) : Runtime × List Event :=
  match runtime.get id with
  | none => (runtime, [.responded (.error .missing)])
  | some (serial, object) =>
    if object.state ≠ .loaded then
      (runtime, [.responded (.error (.busy "object can only start once"))])
    else if !object.program then ({ runtime with panicked := true }, [.panicked])
    else
      let object := { object with state := .starting, task := .spawned, handle := true }
      (runtime.put serial object, [.responded (.ok object.status)])

/-- `Runtime::stop` once the object has stopped. -/
def finishStop (runtime : Runtime) (object : Object) (unload : Bool) (order : List String) :
    Runtime × List Event :=
  let (host, events) := cleanHost runtime.host object.id order
  ({ runtime with
    host
    objects := if unload then runtime.objects.erase object.id else runtime.objects },
    events.map .host ++ [.stopped object.id unload,
      .responded (.ok (if unload then unloaded else object.status))])

/-- `Runtime::shutdown` from one of its objects on. -/
def shutdownFrom (runtime : Runtime) (request : Nat) : List Nat → Runtime × List Event
  | [] => ({ runtime with objects := ∅, stops := runtime.stops.erase request }, [.shutdown])
  | serial :: rest =>
    match runtime.heap.lookup serial with
    | none => runtime.shutdownFrom request rest
    | some object =>
      match object.stop with
      | (object, some phase) =>
        ({ runtime.put serial object with
          stops := runtime.stops.insert request
            { object := serial, phase, purpose := .shutdown rest } }, [])
      | (object, none) => (runtime.put serial object).shutdownFrom request rest

/-- What follows a poll of `Object::stop`. -/
def proceed (runtime : Runtime) (request serial : Nat) (purpose : Purpose) (order : List String) :
    Object × Option Object.StopPhase → Runtime × List Event
  | (object, some phase) =>
    ({ runtime.put serial object with
      stops := runtime.stops.insert request { object := serial, phase, purpose } }, [])
  | (object, none) =>
    let runtime := { runtime.put serial object with stops := runtime.stops.erase request }
    match purpose with
    | .request unload => runtime.finishStop object unload order
    | .shutdown rest => runtime.shutdownFrom request rest

/-- The first poll of `Runtime::stop`. -/
def stop (runtime : Runtime) (request : Nat) (id : String) (unload : Bool) (order : List String) :
    Runtime × List Event :=
  match runtime.get id with
  | none =>
    (runtime,
      if unload then [.stopped id true, .responded (.ok unloaded)]
      else [.responded (.error .missing)])
  | some (serial, object) =>
    runtime.proceed request serial (.request unload) order object.stop

/-- Cancel the tokens of all bound objects. -/
def cancelAll (runtime : Runtime) : List Nat → Runtime
  | [] => runtime
  | serial :: rest =>
    match runtime.heap.lookup serial with
    | none => runtime.cancelAll rest
    | some object => (runtime.put serial { object with cancel := true }).cancelAll rest

/-- The first poll of `Runtime::shutdown`. -/
def shutdown (runtime : Runtime) (request : Nat) : Runtime × List Event :=
  (runtime.cancelAll runtime.ordered).shutdownFrom request runtime.ordered

/-- `sf.event.deliver`. -/
def deliver (runtime : Runtime) (id eventId topic : String) (payload : Value) :
    Runtime × List Event :=
  if topic.utf8ByteSize > 128 ∨ !validValue payload then
    (runtime, [.responded (.error (.params "event exceeds limits"))])
  else
    match runtime.get id with
    | none => (runtime, [.responded (.error .missing)])
    | some (serial, object) =>
      let event := envelope eventId topic payload
      let (object, result) := object.deliver event
      (runtime.put serial object,
        (if result = .ok (Mailbox.admitted false) then [.accepted serial event] else []) ++
          [.responded result])

def perform (runtime : Runtime) : Action → Option (Runtime × List Event)
  | .load request hash config capabilities =>
    if request ∈ runtime.loads then none
    else some (runtime.load request hash config capabilities)
  | .loaded request result =>
    (runtime.loads.lookup request).map fun load => runtime.finishLoad request load result
  | .dropLoad request => some ({ runtime with loads := runtime.loads.erase request }, [])
  | .start id => some (runtime.start id)
  | .stop request id unload order =>
    if request ∈ runtime.stops then none else some (runtime.stop request id unload order)
  | .shutdown request =>
    if request ∈ runtime.stops then none else some (runtime.shutdown request)
  | .pollStop request order =>
    (runtime.stops.lookup request).bind fun call =>
      (runtime.heap.lookup call.object).map fun object =>
        runtime.proceed request call.object call.purpose order (object.pollStop call.phase)
  | .dropStop request => some ({ runtime with stops := runtime.stops.erase request }, [])
  | .deliver id eventId topic payload => some (runtime.deliver id eventId topic payload)
  | .status id =>
    some (runtime, [.responded (match runtime.get id with
      | none => .error .missing
      | some (_, object) => .ok object.status)])
  | .response frame =>
    let (host, events) := runtime.host.response frame
    some ({ runtime with host }, events.map .host)
  | .poll serial turn clock order => runtime.pollTask serial turn clock order
  | .next =>
    match runtime.host.out.next with
    | none => some (runtime, [])
    | some (frame, out) =>
      some ({ runtime with host := { runtime.host with out } }, [.host (.emitted frame)])
  | .close =>
    some ({ runtime with host := { runtime.host with out := runtime.host.out.close } }, [])
  | .control value =>
    if value.get "method" = none then
      some ({ runtime with
        host := { runtime.host with out := (runtime.host.out.tryControl value).1 } }, [])
    else none

/-- A session from its start on. After a panic nothing runs any more. -/
def machine : Machine Runtime Action Event where
  Initial runtime := ∃ session, runtime = { host := { session } }
  step runtime action := if runtime.panicked then none else runtime.perform action

end Runtime

end Spinfoam
