import Spinfoam.Semantics.Simulation
import Spinfoam.Serve.Service

/-!
# The process

`serve_with_config` from its start to its return: the session with the handlers of
its requests, the writer that puts frames on the output, and the end, at which
the tasks are aborted, the objects are stopped and the writer is waited for.
-/

namespace Spinfoam.Serve

open Spinfoam.Json Spinfoam.Std Spinfoam.Outbox Spinfoam.Guest Spinfoam.Semantics

/-- Where a handler is. -/
inductive Handler.Phase where
  /-- Spawned and not polled yet. -/
  | fresh
  /-- In a call of the runtime. -/
  | calling
  | compiling
deriving DecidableEq

/-- A handler that has not returned, with the parameters of its request. -/
structure Handler where
  params : Value
  phase : Handler.Phase := .fresh

/-- The writer task. -/
inductive Writer where
  /-- About to look into the outbox. -/
  | idle
  /-- In the `select!` of `Outbox::next`. -/
  | parked
  /-- In `write_all`, with the bytes that are left. -/
  | writing (rest : List UInt8)
  | done
  | failed (error : String)

/-- The writer is in `Outbox::next`. -/
def Writer.looks : Writer → Bool
  | .idle | .parked => true
  | _ => false

/-- How far the function has got. -/
inductive Stage where
  /-- In the loop, or behind it with tasks that have been aborted and not joined. -/
  | serving
  /-- In `Runtime::shutdown`. -/
  | stopping
  /-- Waiting for the writer. -/
  | draining
  | ended (result : Except String Unit)

structure Process where
  session : Session
  initialized : Bool := false
  /-- The handlers, by the numbers of their tasks. -/
  handlers : Map Nat Handler := ∅
  writer : Writer := .idle
  stage : Stage := .serving
  inputError : Option String := none

namespace Process

inductive Action where
  /-- A pass of the loop, or a poll of a task that has its response. -/
  | session (action : Serve.Action)
  /-- The first poll of a request task. -/
  | handle (task : Nat) (moment : Moment)
  /-- The loader has finished with the object of a request. -/
  | loaded (task : Nat) (result : Except String Bool)
  /-- A later poll of a request that stops an object. -/
  | resume (task : Nat) (order : List String)
  | compiled (task : Nat) (output : Except String Build.Output)
  | guest (object : Nat) (turn : Runtime.Turn) (clock : Clock) (order : List String)
  /-- The writer looks into the outbox and takes a frame, or parks. -/
  | take
  /-- The output takes some of the bytes that are being written. -/
  | accept (count : Nat)
  | broken (error : String)
  /-- The `select!` of the writer finds the outbox closed. -/
  | cancelWriter
  /-- A task is dropped behind the loop. -/
  | abort (task : Nat)
  /-- The first poll of `Runtime::shutdown`. -/
  | shutdown
  | pollShutdown (order : List String)
  /-- The wait for the writer is over: it has ended, or two seconds have passed. -/
  | finish

inductive Event where
  | session (event : Serve.Event)
  /-- The handler of a request returns. -/
  | returned (asked : Asked) (params : Value) (result : RpcResult)
  | output (bytes : List UInt8)
  | ended (result : Except String Unit)

/-- The actions of the session that involve no handler and not the writer. -/
def ofLoop : Serve.Action → Bool
  | .frame _ | .joined _ | .signal | .leave | .poll _ => true
  | _ => false

/-- The error with which `frame` fails in this step. -/
def readError (session : Session) : Serve.Action → Option String
  | .frame read =>
    let failure (bytes : List UInt8) : Option String :=
      match frameTurn session.frame bytes with
      | .failed error => some error
      | _ => none
    if session.buffer ≠ [] then failure session.buffer
    else
      match read with
      | .error error => some error
      | .ok bytes => failure bytes
  | _ => none

/-- The parameters of the request in the frame of this step. -/
def parameters (fromSlice : List UInt8 → Except String Value) (events : List Serve.Event) : Value :=
  (events.findSome? fun
    | .framed frame =>
      match fromSlice frame with
      | .ok value => value.get "params"
      | .error _ => none
    | _ => none).getD (.object [])

/-- What a call of the runtime has answered. -/
def answerIn (events : List Serve.Event) : Option RpcResult :=
  events.findSome? fun
    | .runtime (.responded result) => some result
    | _ => none

variable (env : Environment) (fromSlice : List UInt8 → Except String Value)

/-- Keep what a step leaves of the session. A new task has a new handler. -/
def adopt (process : Process) (action : Serve.Action) (session : Session)
    (events : List Serve.Event) : Process :=
  { process with
    session
    handlers :=
      if session.spawned = process.session.spawned then process.handlers
      else process.handlers.insert process.session.spawned
        { params := parameters fromSlice events }
    inputError := process.inputError.or (readError process.session action) }

/-- A step of the session that the process takes for one of its parts. -/
def part (process : Process) (action : Serve.Action) : Option (Process × List Event) :=
  (process.session.perform fromSlice action).map fun (session, events) =>
    ({ process with session }, events.map .session)

/-- The handler of a task returns. -/
def respond (process : Process) (task : Nat) (asked : Asked) (params : Value)
    (result : RpcResult) : Option (Process × List Event) :=
  (({ process with handlers := process.handlers.erase task } : Process).part fromSlice
    (.handled task result)).map fun (process, events) =>
      (process, .returned asked params result :: events)

/-- A call into the runtime, and what follows if it answers. -/
def call (process : Process) (task : Nat) (asked : Asked) (params : Value)
    (action : Runtime.Action) : Option (Process × List Event) :=
  (process.session.perform fromSlice (.runtime action)).bind fun (session, events) =>
    match answerIn events with
    | none =>
      some ({ process with
        session
        handlers := process.handlers.insert task { params, phase := .calling } },
        events.map .session)
    | some result =>
      (({ process with session } : Process).respond fromSlice task asked params result).map
        fun (process, later) => (process, events.map .session ++ later)

/-- The task and the handler of a request whose handler is in some phase. -/
def handling (process : Process) (task : Nat) (phase : Handler.Phase) :
    Option (Asked × Value) :=
  if process.session.left then none
  else
    (process.session.tasks.lookup task).bind fun found =>
      (process.handlers.lookup task).bind fun handler =>
        if handler.phase = phase then some (found.asked, handler.params) else none

/-- The first poll of a request task. -/
def handle (process : Process) (task : Nat) (moment : Moment) : Option (Process × List Event) :=
  (process.handling task .fresh).bind fun (asked, params) =>
    let (handling, initialized) :=
      env.handle process.initialized process.session.runtime task moment asked.method params
    let process : Process := { process with initialized }
    match handling with
    | .answered result => process.respond fromSlice task asked params result
    | .calling action => process.call fromSlice task asked params action
    | .compiling _ =>
      some ({ process with
        handlers := process.handlers.insert task { params, phase := .compiling } }, [])

/-- A task is dropped, with its guards and with what its handler waits for. -/
def dropTask (process : Process) (number : Nat) (task : Task) : Process :=
  let session :=
    if task.unfinished then process.session.finish number task false else process.session
  { process with
    session := { session with
      tasks := session.tasks.erase number
      runtime := { session.runtime with
        loads := session.runtime.loads.erase number
        stops := session.runtime.stops.erase number } }
    handlers := process.handlers.erase number }

/-- Once the objects are stopped the outbox is closed. -/
def afterShutdown (process : Process) (runtime : Runtime) (events : List Runtime.Event) :
    Process × List Event :=
  let runtime :=
    if .shutdown ∈ events then
      { runtime with host := { runtime.host with out := runtime.host.out.close } }
    else runtime
  ({ process with
    session := { process.session with runtime }
    stage := if .shutdown ∈ events then .draining else .stopping },
    events.map (.session ∘ .runtime))

/-- What `serve_with_config` returns. -/
def result (process : Process) : Except String Unit :=
  match process.inputError, process.writer with
  | some error, _ => .error error
  | none, .failed error => .error error
  | none, _ => .ok ()

def perform (process : Process) : Action → Option (Process × List Event)
  | .session action =>
    if ofLoop action ∧ !process.session.left then
      (process.session.perform fromSlice action).map fun (session, events) =>
        (process.adopt fromSlice action session events, events.map .session)
    else none
  | .handle task moment => process.handle env fromSlice task moment
  | .loaded task result =>
    (process.handling task .calling).bind fun (asked, params) =>
      process.call fromSlice task asked params (.loaded task result)
  | .resume task order =>
    (process.handling task .calling).bind fun (asked, params) =>
      process.call fromSlice task asked params (.pollStop task order)
  | .compiled task output =>
    (process.handling task .compiling).bind fun (asked, params) =>
      process.respond fromSlice task asked params
        (.ok (Build.compileResult env.toEncoders env.toolchain false output))
  | .guest object turn clock order => process.part fromSlice (.runtime (.poll object turn clock order))
  | .take =>
    if process.writer.looks then
      match process.session.out.next with
      | none =>
        some ({ process with writer := if process.session.out.closed then .done else .parked }, [])
      | some (frame, _) =>
        ({ process with writer := .writing (encodeUtf8 frame.bytes) } : Process).part fromSlice
          .write
    else none
  | .accept count =>
    match process.writer with
    | .writing rest =>
      if count = 0 ∨ count > rest.length then none
      else
        some ({ process with
          writer := if count = rest.length then .idle else .writing (rest.drop count) },
          [.output (rest.take count)])
    | _ => none
  | .broken error =>
    match process.writer with
    | .writing _ =>
      ({ process with writer := .failed error } : Process).part fromSlice (.runtime .close)
    | _ => none
  | .cancelWriter =>
    match process.writer with
    | .parked =>
      if process.session.out.closed then some ({ process with writer := .done }, []) else none
    | _ => none
  | .abort number =>
    match process.stage with
    | .serving =>
      if process.session.left then
        (process.session.tasks.lookup number).map fun task => (process.dropTask number task, [])
      else none
    | _ => none
  | .shutdown =>
    match process.stage with
    | .serving =>
      if process.session.left ∧ process.session.tasks.entries = [] then
        (Runtime.machine.step process.session.runtime (.shutdown process.session.spawned)).map
          fun (runtime, events) => process.afterShutdown runtime events
      else none
    | _ => none
  | .pollShutdown order =>
    match process.stage with
    | .stopping =>
      (Runtime.machine.step process.session.runtime
        (.pollStop process.session.spawned order)).map
          fun (runtime, events) => process.afterShutdown runtime events
    | _ => none
  | .finish =>
    match process.stage with
    | .draining => some ({ process with stage := .ended process.result }, [.ended process.result])
    | _ => none

/-- A process from its start to the return of `serve_with_config`. -/
def machine : Machine Process Action Event where
  Initial process := ∃ name, process = { session := { runtime := { host := { session := name } } } }
  step process action :=
    match process.stage with
    | .ended _ => none
    | _ => if process.session.runtime.panicked then none else process.perform env fromSlice action

end Process

end Spinfoam.Serve
