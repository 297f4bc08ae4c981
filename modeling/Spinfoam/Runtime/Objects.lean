import Spinfoam.Guest.Futures

/-!
# Objects

A loaded program with its state cell, its mailbox and its one task. The
functions here are the parts of `runtime.rs` that touch a single object, cut at
the awaits: `Object::stop` becomes a first part and what a later poll of it does.
-/

namespace Spinfoam

open Spinfoam.Json Spinfoam.Std Spinfoam.Guest

namespace Runtime

inductive State where
  | loaded
  | starting
  | running
  | stopping
  | stopped
  | exited
  | failed
deriving DecidableEq

namespace State

def text : State → String
  | .loaded => "loaded"
  | .starting => "starting"
  | .running => "running"
  | .stopping => "stopping"
  | .stopped => "stopped"
  | .exited => "exited"
  | .failed => "failed"

/-- The states an object does not leave any more. -/
def terminal : State → Bool
  | .stopped | .exited | .failed => true
  | _ => false

/-- The changes of state that can be seen between two suspension points. -/
inductive Follows : State → State → Prop where
  | start : Follows .loaded .starting
  | stopLoaded : Follows .loaded .stopped
  | run : Follows .starting .running
  | stopStarting : Follows .starting .stopping
  | endStarting {last : State} (final : last.terminal = true) : Follows .starting last
  | stopRunning : Follows .running .stopping
  | endRunning {last : State} (final : last.terminal = true) : Follows .running last
  | stopStopping : Follows .stopping .stopped

end State

/-- The task of an object: the future that runs its program. -/
inductive Task where
  | none
  /-- Spawned and not polled yet. -/
  | spawned
  | running (context : GuestContext) (posted : Option Posted)
  | finished

end Runtime

open Spinfoam.Runtime

structure Object where
  id : String
  hash : String
  state : Runtime.State := .loaded
  /-- Whether the program is still held. -/
  program : Bool := true
  config : Value
  capabilities : List Capability
  mailbox : Mailbox := {}
  wait : Wait := .none
  cancel : Bool := false
  /-- Whether the join handle of the task is still here. -/
  handle : Bool := false
  outcome : Option Value := none
  task : Task := .none

namespace Object

/-- `Object::status`. -/
def status (object : Object) : Value :=
  .object [
    ("mailbox_entries", .number (.int object.mailbox.entries.length)),
    ("object_id", .string object.id),
    ("outcome", object.outcome.getD .null),
    ("sha256", .string object.hash),
    ("state", .string object.state.text),
    ("wait", .string object.wait.text)]

/-- `Object::deliver`. -/
def deliver (object : Object) (event : Value) : Object × RpcResult :=
  match object.state with
  | .loaded | .starting | .running =>
    let (mailbox, result) := object.mailbox.deliver event
    ({ object with mailbox }, result)
  | _ => (object, .error (.busy "object no longer accepts events"))

/-- Where a suspended `Object::stop` waits: for `done`, or for the task itself. -/
inductive StopPhase where
  | parked (woken : Bool)
  | joining
deriving DecidableEq

/-- The end of `Object::stop`. -/
def release (object : Object) : Object :=
  { object with program := false, config := .null, mailbox := object.mailbox.clear }

/-- `Object::stop` behind its loop: take the handle and wait for the task. -/
def join (object : Object) : Object × Option StopPhase :=
  if object.handle then ({ object with handle := false }, some .joining)
  else (object.release, none)

/-- `Object::stop` up to its first suspension, if it suspends. -/
def stop (object : Object) : Object × Option StopPhase :=
  match object.state with
  | .loaded => { object with state := .stopped }.join
  | .starting | .running | .stopping =>
    ({ object with state := .stopping, cancel := true }, some (.parked false))
  | _ => object.join

/-- A later poll of `Object::stop`. -/
def pollStop (object : Object) : StopPhase → Object × Option StopPhase
  | .parked false => (object, some (.parked false))
  | .parked true =>
    if object.state = .stopping then (object, some (.parked false)) else object.join
  | .joining =>
    match object.task with
    | .none | .finished => (object.release, none)
    | _ => (object, some .joining)

/-- The start of the task: the guest gets its context. -/
def begin (object : Object) (clock : Clock) : Object :=
  { object with
    state := .running
    config := .null
    task := .running (.new object.id object.config object.capabilities clock) none }

/-- The state and the outcome that the end of the run leaves. -/
def conclude (object : Object) : Option (Except String Int) → Object
  | none => { object with state := .stopped }
  | some (.ok code) =>
    { object with
      state := .exited
      outcome := some (.object [("exit_code", .number (.int code))]) }
  | some (.error error) =>
    { object with
      state := .failed
      outcome := some (.object [("error", .string error), ("kind", .string "PROGRAM_FAULT")]) }

/-- What is left of an object when its task is done. -/
def settle (object : Object) (result : Option (Except String Int)) (mailbox : Mailbox) : Object :=
  { object.conclude result with mailbox := mailbox.clear, wait := .none, task := .finished }

end Object

end Spinfoam
