import Spinfoam.Serve.Framing
import Spinfoam.Serve.Notices

/-!
# A session

The loop of `serve_with_config` and the request tasks it spawns, over the
runtime and its outbox. The handler of a method is not looked into: it may answer
anything at any time, and whatever it does to the runtime is a step of the
runtime. A step of the session is one pass of the `select!`, one poll of a task,
one pass of the writer, or one step of the runtime.
-/

namespace Spinfoam.Serve

open Spinfoam.Json Spinfoam.Std Spinfoam.Outbox Spinfoam.Semantics

/-- `response`. -/
def response (id : Value) : RpcResult → Value
  | .ok result => .object [("id", id), ("jsonrpc", .string "2.0"), ("result", result)]
  | .error error => .object [("error", error.toValue), ("id", id), ("jsonrpc", .string "2.0")]

/-- The id and the method of a request. -/
structure Asked where
  id : String
  method : String
deriving DecidableEq

def compileMethod : String := "sf.build.compile"

/-- Compilations are not counted against the slots. -/
def Asked.metered (asked : Asked) : Bool := asked.method != compileMethod

inductive Phase where
  /-- In `Service::handle`. -/
  | handling
  /-- Waiting in `Outbox::control` for space; `shutdown` is whether the session
  is shut down behind it. -/
  | sending (frame : Frame) (shutdown : Bool)
  /-- The task has ended and has not been joined. -/
  | finished
deriving DecidableEq

/-- A request task, with the guards it holds until it ends. -/
structure Task where
  asked : Asked
  phase : Phase := .handling
deriving DecidableEq

def Task.unfinished (task : Task) : Bool := task.phase ≠ .finished

structure Session where
  runtime : Runtime
  /-- What the reader has buffered. -/
  buffer : List UInt8 := []
  /-- What the pending `frame` future has collected. -/
  frame : List UInt8 := []
  /-- The permits that are free. -/
  slots : Nat := 48
  ids : Finset String := ∅
  /-- The request tasks that have not been joined, by number. -/
  tasks : Map Nat Task := ∅
  spawned : Nat := 0
  shutdown : Bool := false
  /-- Whether the loop has been left. -/
  left : Bool := false

inductive Action where
  | runtime (action : Runtime.Action)
  /-- A pass of the writer through `Outbox::next`. -/
  | write
  /-- The handler of a task returns; the task goes on to its response. -/
  | handled (task : Nat) (result : RpcResult)
  /-- A poll of a task that waits for space. -/
  | poll (task : Nat)
  /-- `tasks.join_next()`. -/
  | joined (task : Nat)
  /-- A turn of `frame`. The reader asks its source, if it has nothing buffered,
  and gets some bytes, none at the end, or an error. -/
  | frame (read : Except String (List UInt8))
  /-- A signal ends the loop. -/
  | signal
  /-- The loop finds the service shut down or the outbox closed. -/
  | leave

inductive Event where
  | runtime (event : Runtime.Event)
  /-- The reader has got more bytes. -/
  | arrived (bytes : List UInt8)
  /-- A frame is handed to the parser. -/
  | framed (frame : List UInt8)
  /-- A well-formed request is processed. -/
  | requested (asked : Asked)
  /-- A frame is in the control queue, as the answer to a request or as anything else. -/
  | queued (asked : Option Asked) (frame : Frame)
  /-- `Outbox::control` failed. -/
  | unsent (asked : Asked) (error : SendError)
  | written (lane : Lane) (frame : Frame)
deriving DecidableEq

/-- The steps the runtime takes by itself or for a handler. The rest belongs to
the session. -/
def ofRuntime : Runtime.Action → Bool
  | .response _ | .control _ | .next | .shutdown _ => false
  | _ => true

/-- The frames that have been added to the control queue. -/
def added (out after : Outbox) : List Frame := after.controls.drop out.controls.length

def duplicateId : RpcError := .new (-32600) "DUPLICATE_ID" "request ID already outstanding"
def tooManyRequests : RpcError := .busy "too many requests"

namespace Session

/-- The outbox all parts of the session share. -/
def out (session : Session) : Outbox := session.runtime.host.out

def withOut (session : Session) (out : Outbox) : Session :=
  { session with runtime := { session.runtime with host := { session.runtime.host with out } } }

/-- `if !out.try_control(..) {break;}`. -/
def answer (session : Session) (asked : Option Asked) (value : Value) : Session × List Event :=
  let (out, sent) := session.out.tryControl value
  if sent then (session.withOut out, (encode value).toList.map (.queued asked))
  else ({ session with left := true }, [])

/-- The answer to something that is no well-formed request. -/
def reject (session : Session) (code : Int) (kind message : String) : Session × List Event :=
  session.answer none (response .null (.error (.new code kind message)))

/-- The session with a new request task. -/
def spawn (session : Session) (asked : Asked) : Session :=
  { session with
    slots := if asked.metered then session.slots - 1 else session.slots
    ids := insert asked.id session.ids
    tasks := session.tasks.insert session.spawned { asked }
    spawned := session.spawned + 1 }

/-- A request: refused at once, or handed to a task of its own. -/
def request (session : Session) (asked : Asked) : Session × List Event :=
  let (session, events) :=
    if asked.id ∈ session.ids then
      session.answer (some asked) (response (.string asked.id) (.error duplicateId))
    else if asked.metered ∧ session.slots = 0 then
      session.answer (some asked) (response (.string asked.id) (.error tooManyRequests))
    else (session.spawn asked, [])
  (session, .requested asked :: events)

/-- The id a request may have. -/
def requestId : Value → Option String
  | .string id => if id.utf8ByteSize > 128 then none else some id
  | _ => none

/-- What the loop does with a parsed frame. -/
def receive (session : Session) (value : Value) : Session × List Event :=
  let isObject : Bool := match value with
    | .object _ => true
    | _ => false
  if !isObject ∨ (value.get "jsonrpc").bind Value.asStr ≠ some "2.0" then
    session.reject (-32600) "INVALID_REQUEST" "expected JSON-RPC 2.0 object"
  else if value.get "method" = none ∧ value.get "id" ≠ none ∧
      (value.get "result" ≠ none ∨ value.get "error" ≠ none) then
    let (host, events) := session.runtime.host.response value
    ({ session with runtime := { session.runtime with host } },
      events.map fun event => .runtime (.host event))
  else
    match (value.get "method").bind Value.asStr with
    | none => session.reject (-32600) "INVALID_REQUEST" "method must be a string"
    | some method =>
      match value.get "id" with
      -- A notification is passed over.
      | none => (session, [])
      | some id =>
        match requestId id with
        | none => session.reject (-32600) "INVALID_REQUEST" "IDs must be strings up to 128 bytes"
        | some id => session.request ⟨id, method⟩

/-- The end of a task: its guards give back the id and the permit. -/
def finish (session : Session) (number : Nat) (task : Task) (shutdown : Bool) : Session :=
  { session with
    slots := if task.asked.metered then session.slots + 1 else session.slots
    ids := session.ids.erase task.asked.id
    tasks := session.tasks.insert number { task with phase := .finished }
    shutdown := session.shutdown || shutdown }

/-- One attempt of `Outbox::control` in a task, and what follows it. -/
def send (session : Session) (number : Nat) (task : Task) (frame : Frame) (shutdown : Bool) :
    Session × List Event :=
  if session.out.closed then
    (session.finish number task shutdown, [.unsent task.asked .closed])
  else
    match session.out.offer .control ⟨frame, none⟩ with
    | some out =>
      ((session.withOut out).finish number task shutdown, [.queued (some task.asked) frame])
    | none =>
      ({ session with
        tasks := session.tasks.insert number { task with phase := .sending frame shutdown } }, [])

/-- What a task does when its handler has returned. -/
def handled (session : Session) (number : Nat) (task : Task) (result : RpcResult) :
    Session × List Event :=
  let shutdown := decide (task.asked.method = "sf.shutdown") && result.isOk
  match encodeControl (response (.string task.asked.id) result) with
  | none => (session.finish number task shutdown, [.unsent task.asked .frameTooLarge])
  | some frame => session.send number task frame shutdown

/-- What the loop does with a complete frame. -/
def parse (fromSlice : List UInt8 → Except String Value) (session : Session)
    (frame : List UInt8) : Session × List Event :=
  match fromSlice frame with
  | .error error => session.reject (-32700) "PARSE_ERROR" error
  | .ok value => session.receive value

/-- What the loop does when `frame` has got on. -/
def progress (fromSlice : List UInt8 → Except String Value) (session : Session) :
    Progress → Session × List Event
  | .more frame rest => ({ session with frame, buffer := rest }, [])
  | .eof | .failed _ => ({ session with left := true }, [])
  | .framed frame rest =>
    let result := { session with frame := [], buffer := rest }.parse fromSlice frame
    (result.1, .framed frame :: result.2)

/-- The step a session takes, as long as its loop has not been left. -/
def perform (fromSlice : List UInt8 → Except String Value) (session : Session) :
    Action → Option (Session × List Event)
  | .runtime action =>
    if ofRuntime action then
      (Runtime.machine.step session.runtime action).map fun (runtime, events) =>
        ({ session with runtime },
          events.map .runtime ++ (added session.out runtime.host.out).map (.queued none))
    else none
  | .write =>
    match session.out.next with
    | none => some (session, [])
    | some (frame, out) =>
      some (session.withOut out, [.written session.out.queues.serving frame])
  | .handled number result =>
    (session.tasks.lookup number).bind fun task =>
      if task.phase = .handling then some (session.handled number task result) else none
  | .poll number =>
    (session.tasks.lookup number).bind fun task =>
      match task.phase with
      | .sending frame shutdown => some (session.send number task frame shutdown)
      | _ => none
  | .signal => some ({ session with left := true }, [])
  | .leave =>
    if session.shutdown ∨ session.out.closed then some ({ session with left := true }, []) else none
  -- The branches below are reached only when the session goes on.
  | .joined number =>
    if session.shutdown ∨ session.out.closed then none
    else
      (session.tasks.lookup number).bind fun task =>
        if task.phase = .finished then
          -- The `frame` future of this pass is dropped, and what it has collected with it.
          some ({ session with tasks := session.tasks.erase number, frame := [] }, [])
        else none
  | .frame read =>
    if session.shutdown ∨ session.out.closed then none
    else if session.buffer ≠ [] then
      some (session.progress fromSlice (frameTurn session.frame session.buffer))
    else
      match read with
      | .error _ => some ({ session with left := true }, [])
      | .ok bytes =>
        let (session, events) :=
          { session with buffer := bytes }.progress fromSlice (frameTurn session.frame bytes)
        some (session, .arrived bytes :: events)

end Session

/-- A session from its start to the end of its loop. -/
def machine (fromSlice : List UInt8 → Except String Value) : Machine Session Action Event where
  Initial session := ∃ name, session = { runtime := { host := { session := name } } }
  step session action :=
    if session.left ∨ session.runtime.panicked then none else session.perform fromSlice action

def opening : Session := { runtime := { host := { session := "" } } }

/-- A request of an embedder, with its parameters as a value and as they are written. -/
structure Sample where
  id : String
  method : String
  params : List (String × Value) := []
  text : String := "\x7b\x7d"

namespace Sample

def value (sample : Sample) : Value :=
  .object [("id", .string sample.id), ("jsonrpc", .string "2.0"),
    ("method", .string sample.method), ("params", .object sample.params)]

/-- The line it is sent on. -/
def line (sample : Sample) : List UInt8 :=
  Guest.encodeUtf8 ("\x7b\"id\":\"" ++ sample.id ++ "\",\"jsonrpc\":\"2.0\",\"method\":\"" ++
    sample.method ++ "\",\"params\":" ++ sample.text ++ "\x7d\n")

/-- A parser that knows some requests. What it does not know it takes for a string of
two letters with more behind it. -/
def parser (samples : List Sample) (bytes : List UInt8) : Except String Value :=
  match samples.find? fun sample => bytes = sample.line with
  | some sample => .ok sample.value
  | none => .error "trailing characters at line 1 column 5"

def stats (id : String) : Sample := { id, method := "sf.stats" }

-- The line is what the compact serialization comes to.
example : (stats "a").line = Guest.encodeUtf8 ((stats "a").value.compact ++ "\n") := by decide +kernel

/-- The answer to a request before `sf.initialize`. -/
def early : RpcResult := .error (.new (-32000) "NOT_INITIALIZED" "call sf.initialize first")

end Sample

end Spinfoam.Serve
