import Spinfoam.Error
import Spinfoam.Json.Limits
import Spinfoam.Outbox.Shared

/-!
# Host calls

The functions of `host.rs`. A `Host::call` future is a `Call` while it is
suspended; every poll of it is a function of the host. Its guard goes with it,
and whichever way the future ends, dropping the guard withdraws what is left of
the request.
-/

namespace Spinfoam

open Spinfoam.Json Spinfoam.Std Spinfoam.Outbox

namespace Host

structure Pending where
  object : String

/-- What the reply channel of a call carries. -/
abbrev Result := Except Status Value

end Host

structure Host where
  pending : Map String Host.Pending := ∅
  next : Nat := 0
  session : String
  out : Outbox := {}
  ignored : Nat := 0
  /-- The reply channels that hold a result the call has not received yet. -/
  replies : Map String Host.Result := ∅

namespace Host

/-- `format!("{:032x}", random)`. -/
def sessionName (random : BitVec 128) : String :=
  let digits := Nat.toDigits 16 random.toNat
  String.ofList (List.replicate (32 - digits.length) '0' ++ digits)

/-- `Host::new`. -/
def new (random : BitVec 128) : Host := { session := sessionName random }

inductive Event where
  | registered (id object : String)
  /-- The request was queued. -/
  | queued (id : String) (request : Frame)
  /-- A response took the pending entry. -/
  | answered (id : String) (response : Value)
  | ignored
  /-- `cancel_object` took the pending entry. -/
  | objectCancelled (id : String)
  /-- A `host.cancel` frame was queued. -/
  | cancelled (id : String)
  | returned (id : String) (result : Result)
  | dropped (id : String)
  | emitted (frame : Frame)
deriving DecidableEq

structure CallGuard where
  id : String
  sent : Bool
  object : String
deriving DecidableEq

/-- Where a suspended call waits: for space in the outbox, or for its reply. -/
inductive Phase where
  | sending (entry : DataFrame)
  | waiting
deriving DecidableEq

structure Call where
  guard : CallGuard
  phase : Phase
deriving DecidableEq

/-- What a poll of a call comes to. -/
inductive Outcome where
  | ready (result : Result)
  | pending (call : Call)

def maxPending : Nat := 16384

def callId (session : String) (serial : Nat) : String :=
  "sf:" ++ session ++ ":" ++ toString serial

/-- The id of the next call. -/
def nextId (host : Host) : String := callId host.session (host.next + 1)

/-- Count the next call and enter it as pending. -/
def register (host : Host) (object : String) : Host :=
  { host with next := host.next + 1, pending := host.pending.insert host.nextId ⟨object⟩ }

/-- The `host.call` request. -/
def request (id object capability : String) (arguments : Value) (timeoutMs now : Nat) : Value :=
  .object [
    ("id", .string id),
    ("jsonrpc", .string "2.0"),
    ("method", .string "host.call"),
    ("params", .object [
      ("arguments", arguments),
      ("capability", .string capability),
      ("deadline_unix_ms", .number (.int ((now + timeoutMs) % 2 ^ 128 : Nat))),
      ("max_result_bytes", .number (.int maxValueBytes)),
      ("object_id", .string object),
      ("timeout_ms", .number (.int timeoutMs))])]

/-- The `host.cancel` notification. -/
def cancelNotice (id : String) : Value :=
  .object [
    ("jsonrpc", .string "2.0"),
    ("method", .string "host.cancel"),
    ("params", .object [("id", .string id)])]

/-- Announce the end of a call, if the control queue has room. -/
def sendCancel (host : Host) (id : String) : Host × List Event :=
  match host.out.tryControl (cancelNotice id) with
  | (out, true) => ({ host with out }, [.cancelled id])
  | (out, false) => ({ host with out }, [])

/-- `CallGuard::drop`; the receiver of the reply goes with the guard. -/
def dropGuard (host : Host) (guard : CallGuard) : Host × List Event :=
  let host := { host with
    out := host.out.removeRequest guard.object guard.id
    replies := host.replies.erase guard.id }
  if guard.id ∈ host.pending then
    let host := { host with pending := host.pending.erase guard.id }
    if guard.sent then host.sendCancel guard.id else (host, [])
  else (host, [])

/-- The call returns, which drops its guard. -/
def finish (host : Host) (guard : CallGuard) (result : Result) : Host × List Event × Outcome :=
  let (host, events) := host.dropGuard guard
  (host, events ++ [.returned guard.id result], .ready result)

/-- `rx.await` under the timeout. -/
def pollReply (host : Host) (guard : CallGuard) (elapsed : Bool) : Host × List Event × Outcome :=
  match host.replies.lookup guard.id with
  | some result => host.finish guard result
  | none =>
    if guard.id ∉ host.pending then host.finish guard (.error Status.closed)
    else if elapsed then host.finish guard (.error Status.timeout)
    else (host, [], .pending ⟨guard, .waiting⟩)

/-- One turn of the loop of `Outbox::data`, and the wait for the reply once the
request is queued. -/
def pollSend (host : Host) (guard : CallGuard) (entry : DataFrame) (elapsed : Bool) :
    Host × List Event × Outcome :=
  if host.out.closed then host.finish guard (.error Status.closed)
  else
    match host.out.offer (.object guard.object) entry with
    | some out =>
      let (host, events, outcome) :=
        pollReply { host with out } { guard with sent := true } elapsed
      (host, .queued guard.id entry.frame :: events, outcome)
    | none =>
      if elapsed then host.finish guard (.error Status.timeout)
      else (host, [], .pending ⟨guard, .sending entry⟩)

/-- The first poll of the operation of a call: the checks of `Outbox::data` and
the first turn of its loop. -/
def startSend (host : Host) (guard : CallGuard) (request : Value) (elapsed : Bool) :
    Host × List Event × Outcome :=
  match encode request with
  | none => host.finish guard (.error Status.closed)
  | some frame =>
    if frame.length > objectBytes then host.finish guard (.error Status.closed)
    else host.pollSend guard ⟨frame, requestId request⟩ elapsed

/-- A later poll of a suspended call. `spaceReady` tells whether `space` has
notified it and `elapsed` whether its timer has fired. -/
def poll (host : Host) (call : Call) (spaceReady elapsed : Bool) :
    Host × List Event × Outcome :=
  match call.phase with
  | .waiting => host.pollReply call.guard elapsed
  | .sending entry =>
    if spaceReady ∨ host.out.closed then host.pollSend call.guard entry elapsed
    else if elapsed then host.finish call.guard (.error Status.timeout)
    else (host, [], .pending call)

/-- The first poll of `Host::call`. -/
def call (host : Host) (object capability : String) (arguments : Value) (timeoutMs now : Nat)
    (elapsed : Bool) : Host × List Event × Outcome :=
  if host.pending.entries.length ≥ maxPending then (host, [], .ready (.error Status.limit))
  else if host.next + 1 ≥ 2 ^ 64 then (host, [], .ready (.error Status.limit))
  else
    let id := host.nextId
    let guard : CallGuard := { id, sent := false, object }
    let request := request id object capability arguments timeoutMs now
    let (host, events, outcome) := (host.register object).startSend guard request elapsed
    (host, .registered id object :: events, outcome)

/-- The call is dropped while it is suspended. -/
def abandon (host : Host) (call : Call) : Host × List Event :=
  let (host, events) := host.dropGuard call.guard
  (host, events ++ [.dropped call.guard.id])

/-- The result a response frame stands for. -/
def resultOf (frame : Value) : Result :=
  match frame.get "result", frame.get "error" with
  | some value, none => if validValue value then .ok value else .error Status.limit
  | _, _ => .error Status.hostError

def ignore (host : Host) : Host × List Event :=
  ({ host with ignored := min (host.ignored + 1) (2 ^ 64 - 1) }, [.ignored])

/-- `Host::response`. -/
def response (host : Host) (frame : Value) : Host × List Event :=
  match (frame.get "id").bind Value.asStr with
  | none => host.ignore
  | some id =>
    if id ∈ host.pending then
      ({ host with
        pending := host.pending.erase id
        replies := host.replies.insert id (resultOf frame) }, [.answered id frame])
    else host.ignore

/-- One turn of the loop of `cancel_object`. -/
def cancelCall (host : Host) (id : String) : Host × List Event :=
  if id ∈ host.pending then
    let host := { host with
      pending := host.pending.erase id
      replies := host.replies.insert id (.error Status.closed) }
    let (host, events) := host.sendCancel id
    (host, .objectCancelled id :: events)
  else (host, [])

def cancelCalls (host : Host) : List String → Host × List Event
  | [] => (host, [])
  | id :: rest =>
    let (host, first) := host.cancelCall id
    let (host, later) := host.cancelCalls rest
    (host, first ++ later)

/-- The calls of an object, in the order in which the map happens to list them:
`order` lists those that come first. -/
def idsOf (host : Host) (object : String) (order : List String) : List String :=
  let ids := (host.pending.entries.filter (·.2.object = object)).map Sigma.fst
  order.filter (· ∈ ids) ++ ids

/-- `Host::cancel_object`. -/
def cancelObject (host : Host) (object : String) (order : List String) : Host × List Event :=
  host.cancelCalls (host.idsOf object order)

end Host

end Spinfoam
