import Spinfoam.Guest.Mailbox
import Spinfoam.Host.Machine
import Spinfoam.Host.Replies

/-!
# The context of a guest

A guest names values by handles. Handle numbers come from one counter of the
process; the table of a guest is bounded. `Guest` gathers what a helper of one
object can reach: its context and the cells it shares with the rest of the
runtime.
-/

namespace Spinfoam

open Spinfoam.Json Spinfoam.Std Spinfoam.Outbox

namespace Guest

def maxHandles : Nat := 128

inductive Handle where
  | json (value : Value)
  | bytes (bytes : List UInt8)

/-- Why an object waits. -/
inductive Wait where
  | none
  | timer
  | event
  | hostRpc
deriving DecidableEq

def Wait.text : Wait → String
  | .none => "none"
  | .timer => "timer"
  | .event => "event"
  | .hostRpc => "host_rpc"

/-- A grant: a method name, and the top-level argument fields that must match. -/
structure Capability where
  name : String
  arguments : List (String × Value) := []

/-- The two clocks: nanoseconds of the monotonic one, milliseconds since 1970. -/
structure Clock where
  monotonic : Nat
  unix : Nat

end Guest

open Guest

structure GuestContext where
  id : String
  config : Value
  capabilities : List Capability
  handles : Map Nat Handle := ∅
  started : Nat
  logWindow : Nat
  logs : Nat := 0

structure Guest where
  context : GuestContext
  mailbox : Mailbox
  wait : Wait := .none
  host : Host
  nextHandle : Nat

namespace GuestContext

/-- `GuestContext::new`. -/
def new (id : String) (config : Value) (capabilities : List Capability) (clock : Clock) :
    GuestContext where
  id := id
  config := config
  capabilities := capabilities
  started := clock.monotonic
  logWindow := clock.monotonic

/-- `GuestContext::json`. -/
def json (context : GuestContext) (handle : Nat) : Option Value :=
  match context.handles.lookup handle with
  | some (.json value) => some value
  | _ => none

end GuestContext

namespace Guest

/-- There is no room for another handle. -/
def Full (guest : Guest) : Prop :=
  maxHandles ≤ guest.context.handles.entries.length ∨ 2 ^ 63 - 1 ≤ guest.nextHandle

instance (guest : Guest) : Decidable guest.Full := by
  unfold Full
  infer_instance

/-- `GuestContext::insert`. -/
def insert (guest : Guest) (handle : Handle) : Guest × Nat :=
  if guest.Full then (guest, Status.limit.word)
  else
    ({ guest with
      context := { guest.context with
        handles := guest.context.handles.insert guest.nextHandle handle }
      nextHandle := guest.nextHandle + 1 }, guest.nextHandle)

/-- The entry grants the capability with these arguments. -/
def Capability.permits (entry : Capability) (capability : String) (arguments : Value) : Bool :=
  entry.name == capability &&
    entry.arguments.all fun (key, value) =>
      match arguments.get key with
      | some found => found.same value
      | none => false

/-- What an entry that permits a call says about its arguments. -/
theorem Capability.permits_iff {entry : Capability} {capability : String} {arguments : Value} :
    entry.permits capability arguments = true ↔ entry.name = capability ∧
      ∀ field ∈ entry.arguments, ∃ found, arguments.get field.1 = some found ∧
        found.same field.2 = true := by
  simp only [Capability.permits, Bool.and_eq_true, beq_iff_eq, List.all_eq_true]
  refine and_congr_right fun _ => forall₂_congr fun field _ => ?_
  cases arguments.get field.1 <;> simp

/-- Arguments that are no object satisfy only an entry without constraints. -/
theorem Capability.unconstrained {entry : Capability} {capability : String} {arguments : Value}
    (permitted : entry.permits capability arguments = true)
    (scalar : ∀ members, arguments ≠ .object members) : entry.arguments = [] := by
  rw [List.eq_nil_iff_forall_not_mem]
  intro field member
  obtain ⟨found, present, -⟩ := (Capability.permits_iff.mp permitted).2 field member
  cases arguments with
  | object members => exact scalar members rfl
  | _ => cases present

end Guest

end Spinfoam
