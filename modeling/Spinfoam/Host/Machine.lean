import Spinfoam.Host.Effects
import Spinfoam.Semantics.Machine

/-!
# The host under its parties

Any number of `Host::call` futures, the responses of the embedder, the
cancellation of all calls of an object and the writer, interleaved at the
suspension points. Other traffic through the same outbox is part of the machine
as far as it is no traffic of calls.
-/

namespace Spinfoam.Host

open Spinfoam.Json Spinfoam.Std Spinfoam.Outbox Spinfoam.Semantics

structure State where
  host : Host
  calls : Map Nat Call := ∅

inductive Action where
  /-- The first poll of a new `Host::call` future. -/
  | call (future : Nat) (object capability : String) (arguments : Value) (timeoutMs now : Nat)
      (elapsed : Bool)
  | poll (future : Nat) (spaceReady elapsed : Bool)
  | drop (future : Nat)
  | response (frame : Value)
  /-- `cancel_object` followed by `remove_object`. -/
  | cancelObject (object : String) (order : List String)
  | next
  | close
  /-- Responses to the embedder and state notifications. -/
  | control (value : Value)
  /-- Log notifications of the guests. -/
  | data (object : String) (value : Value)

namespace State

/-- Keep what a poll leaves of the future. -/
def resume (state : State) (future : Nat) : Host × List Event × Outcome → State × List Event
  | (host, events, .ready _) => ({ state with host, calls := state.calls.erase future }, events)
  | (host, events, .pending call) =>
    ({ state with host, calls := state.calls.insert future call }, events)

def perform (state : State) : Action → Option (State × List Event)
  | .call future object capability arguments timeoutMs now elapsed =>
    if future ∈ state.calls then none
    else
      some (state.resume future
        (state.host.call object capability arguments timeoutMs now elapsed))
  | .poll future spaceReady elapsed =>
    (state.calls.lookup future).map fun call =>
      state.resume future (state.host.poll call spaceReady elapsed)
  | .drop future =>
    (state.calls.lookup future).map fun call =>
      let (host, events) := state.host.abandon call
      ({ state with host, calls := state.calls.erase future }, events)
  | .response frame =>
    let (host, events) := state.host.response frame
    some ({ state with host }, events)
  | .cancelObject object order =>
    let (host, events) := state.host.cancelObject object order
    some ({ state with host := { host with out := host.out.removeObject object } }, events)
  | .next =>
    match state.host.out.next with
    | none => some (state, [])
    | some (frame, out) =>
      some ({ state with host := { state.host with out } }, [.emitted frame])
  | .close => some ({ state with host := { state.host with out := state.host.out.close } }, [])
  | .control value =>
    if foreign value then
      some ({ state with host := { state.host with out := (state.host.out.tryControl value).1 } },
        [])
    else none
  | .data object value =>
    if foreign value ∧ value.get "id" = none then
      some ({ state with
        host := { state.host with out := (state.host.out.tryData object value).1 } }, [])
    else none

end State

/-- The host of one session. -/
def machine : Machine State Action Event where
  Initial state := ∃ session, state = { host := { session } }
  step := State.perform

end Spinfoam.Host
