import Spinfoam.Outbox.Queues
import Spinfoam.Semantics.Machine

/-!
# The outbox under its tasks

The machine of this module interleaves the operations of `outbox.rs`: senders
that may park for space, removals, the closing of the outbox, and the single
writer polling `Outbox::next`. A step is what happens between two suspension
points. Of the Tokio primitives it keeps the stored permit of `changed`, the
notification of each parked future, and the free choice of a `select!` among
its ready branches.
-/

namespace Spinfoam.Outbox

open Spinfoam.Json Spinfoam.Std Spinfoam.Semantics

/-- Where a frame is queued. -/
inductive Lane where
  | control
  | object (name : String)
deriving DecidableEq

inductive SendError where
  | closed
  | frameTooLarge
deriving DecidableEq

/-- The reply that stands in for a response which does not fit a frame. -/
def responseTooLarge (id : Value) : Value :=
  .object [
    ("error", .object [
      ("code", .number (.int (-32003))),
      ("data", .object [("kind", .string "RESPONSE_TOO_LARGE")]),
      ("message", .string "response exceeds frame limit")]),
    ("id", id),
    ("jsonrpc", .string "2.0")]

/-- The frame `Outbox::control` queues for a value. -/
def encodeControl (value : Value) : Option Frame :=
  match encode value with
  | some frame => some frame
  | none => (value.get "id").bind fun id => encode (responseTooLarge id)

/-- The request id `try_data` and `data` remember with a frame. -/
def requestId (value : Value) : Option String := (value.get "id").bind Value.asStr

namespace Queues

/-- The entries of a lane, oldest first. -/
def lane (queues : Queues) : Lane → List DataFrame
  | .control => queues.control.map fun frame => ⟨frame, none⟩
  | .object name => queues.data.queue name

/-- The lane the next pass of `Outbox::next` serves. -/
def serving (queues : Queues) : Lane :=
  if queues.control ≠ [] ∧ (queues.controlBurst < 8 ∨ queues.ready = []) then .control
  else
    match queues.ready with
    | id :: _ => .object id
    | [] => .control

/-- The check and the push of one attempt to queue an entry. -/
def offer (queues : Queues) (closed : Bool) : Lane → DataFrame → Option Queues
  | .control, entry => if closed then none else queues.pushControl entry.frame
  | .object name, entry => queues.pushData closed name entry.frame entry.requestId

end Queues

/-- A `control` or `data` future parked on `space`. -/
structure Sender where
  lane : Lane
  entry : DataFrame
  woken : Bool := false

/-- The writer between two polls: not inside `next`, or parked in its `select!`
with or without a notification. -/
inductive Writer where
  | idle
  | parked (woken : Bool)
deriving DecidableEq

structure State where
  queues : Queues := {}
  closed : Bool := false
  dropped : Nat := 0
  /-- The permit `changed` has stored. -/
  permit : Bool := false
  writer : Writer := .idle
  senders : Map Nat Sender := ∅
  panicked : Option Panic := none

inductive Action where
  | tryControl (value : Value)
  | tryData (object : String) (value : Value)
  /-- The first poll of a new `control` future. -/
  | control (sender : Nat) (value : Value)
  /-- The first poll of a new `data` future. -/
  | data (sender : Nat) (object : String) (value : Value)
  | poll (sender : Nat)
  | drop (sender : Nat)
  | removeRequest (object id : String)
  | removeObject (object : String)
  | close
  /-- A poll of the writer in `next`; the flag is the branch the `select!` tries first. -/
  | next (closedFirst : Bool)

inductive Event where
  | accepted (lane : Lane) (entry : DataFrame)
  | refused (lane : Lane) (value : Value)
  | failed (sender : Nat) (error : SendError)
  | removed (object : String) (entries : List DataFrame)
  | returned (lane : Lane) (frame : Frame)
  /-- `next` returned `None`. -/
  | ended
  | panicked (reason : Panic)
deriving DecidableEq

namespace State

/-- `notify_one` on `changed`: wake the parked writer or store the permit. -/
def notifyChanged (state : State) : State :=
  match state.writer with
  | .parked false => { state with writer := .parked true }
  | _ => { state with permit := true }

/-- `notify_waiters` on `space`. -/
def notifySpace (state : State) : State :=
  { state with senders := Map.mapValues (fun task => { task with woken := true }) state.senders }

/-- A panic ends the process. -/
def panic (state : State) (reason : Panic) : State × List Event :=
  ({ state with panicked := some reason }, [.panicked reason])

/-- An attempt that is not repeated: `try_control`, or the push of `try_data`. -/
def tryOffer (state : State) (lane : Lane) (entry : DataFrame) : Option (State × List Event) :=
  (state.queues.offer state.closed lane entry).map fun queues =>
    ({ state with queues := queues }.notifyChanged, [.accepted lane entry])

/-- One turn of the loop in `control` or `data`, up to its end or to the
`select!` in which it parks. -/
def attempt (state : State) (sender : Nat) (task : Sender) : State × List Event :=
  if state.closed then
    ({ state with senders := state.senders.erase sender }, [.failed sender .closed])
  else
    match state.queues.offer state.closed task.lane task.entry with
    | some queues =>
      ({ state with queues := queues, senders := state.senders.erase sender }.notifyChanged,
        [.accepted task.lane task.entry])
    | none =>
      ({ state with senders := state.senders.insert sender { task with woken := false } }, [])

/-- One turn of the loop in `next`, up to its end or to its `select!`. A permit
stored beforehand lets the first `select!` through and is spent. -/
def turn (state : State) : State × List Event :=
  match state.queues.next with
  | .error reason => state.panic reason
  | .ok (some (frame, queues)) =>
    ({ state with queues := queues, writer := .idle }.notifySpace,
      [.returned state.queues.serving frame])
  | .ok none =>
    if state.closed then ({ state with writer := .idle }, [.ended])
    else ({ state with writer := .parked false, permit := false }, [])

/-- A poll of the writer. When the `closed` branch wins over a notification that
has already arrived, dropping the `Notified` future passes it on as a permit. -/
def pollNext (state : State) (closedFirst : Bool) : State × List Event :=
  match state.writer with
  | .idle => state.turn
  | .parked woken =>
    if state.closed ∧ (closedFirst ∨ woken = false) then
      ({ state with writer := .idle, permit := state.permit || woken }, [.ended])
    else if woken then state.turn
    else (state, [])

def perform (state : State) : Action → Option (State × List Event)
  | .tryControl value =>
    match encode value with
    | none => some (state, [.refused .control value])
    | some frame =>
      some ((state.tryOffer .control ⟨frame, none⟩).getD (state, [.refused .control value]))
  | .tryData object value =>
    match encode value with
    | none => some (state, [.refused (.object object) value])
    | some frame =>
      some ((state.tryOffer (.object object) ⟨frame, requestId value⟩).getD
        ({ state with dropped := min (state.dropped + 1) (2 ^ 64 - 1) },
          [.refused (.object object) value]))
  | .control sender value =>
    if sender ∈ state.senders then none
    else
      match encodeControl value with
      | none => some (state, [.failed sender .frameTooLarge])
      | some frame => some (state.attempt sender { lane := .control, entry := ⟨frame, none⟩ })
  | .data sender object value =>
    if sender ∈ state.senders then none
    else
      match encode value with
      | none => some (state, [.failed sender .frameTooLarge])
      | some frame =>
        if frame.length > objectBytes then some (state, [.failed sender .frameTooLarge])
        else
          some (state.attempt sender
            { lane := .object object, entry := ⟨frame, requestId value⟩ })
  | .poll sender =>
    (state.senders.lookup sender).map fun task =>
      if task.woken ∨ state.closed then state.attempt sender task else (state, [])
  | .drop sender => some ({ state with senders := state.senders.erase sender }, [])
  | .removeRequest object id =>
    match state.queues.removeRequest object id with
    | .error reason => some (state.panic reason)
    | .ok queues =>
      let removed := (state.queues.data.queue object).filter (·.requestId == some id)
      let after := { state with queues := queues }
      some (if object ∈ state.queues.data then after.notifySpace else after,
        [.removed object removed])
  | .removeObject object =>
    match state.queues.removeObject object with
    | .error reason => some (state.panic reason)
    | .ok queues =>
      some ({ state with queues := queues }.notifySpace,
        [.removed object (state.queues.data.queue object)])
  | .close => some ({ state with closed := true }, [])
  | .next closedFirst => some (state.pollNext closedFirst)

end State

/-- The outbox from its creation on. After a panic nothing runs any more. -/
def machine : Machine State Action Event where
  Initial state := state = {}
  step state action :=
    match state.panicked with
    | some _ => none
    | none => state.perform action

end Spinfoam.Outbox
