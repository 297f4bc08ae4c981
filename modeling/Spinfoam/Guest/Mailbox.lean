import Spinfoam.Error
import Spinfoam.Json.Limits

/-!
# The mailbox of an object

Accepted events wait here for `sf_event_next`. A mailbox carries the proof that
its byte counter is exact, so that taking an event never underflows it. `permit`
and `waiter` are the two sides of its `Notify`: the permit stored for a future
waiter, and the notification of the one `receive` that is parked.
-/

namespace Spinfoam

open Spinfoam.Json

/-- The counter of a mailbox that nothing waits in is exact. -/
theorem Mailbox.exact_empty : 0 = (([] : List (Value × Nat)).map Prod.snd).sum := rfl

structure Mailbox where
  entries : List (Value × Nat) := []
  bytes : Nat := 0
  recent : List String := []
  permit : Bool := false
  waiter : Option Bool := none
  exact : bytes = (entries.map Prod.snd).sum := by exact Mailbox.exact_empty

namespace Mailbox

def maxEntries : Nat := 32
def maxBytes : Nat := 32 * 1024
def maxRecent : Nat := 128

/-- The events that wait, oldest first. -/
def events (mailbox : Mailbox) : List Value := mailbox.entries.map Prod.fst

/-- `notify_one`: wake the parked `receive`, or store the permit. -/
def notifyOne (mailbox : Mailbox) : Mailbox :=
  match mailbox.waiter with
  | some false => { mailbox with waiter := some true }
  | _ => { mailbox with permit := true }

def admitted (duplicate : Bool) : Value :=
  .object [("accepted", .bool true), ("duplicate", .bool duplicate)]

/-- Remember the id of an accepted event, forgetting the oldest of too many. -/
def remember (recent : List String) (id : String) : List String :=
  (if recent.length = maxRecent then recent.tail else recent) ++ [id]

/-- `Mailbox::deliver`. -/
def deliver (mailbox : Mailbox) (event : Value) : Mailbox × RpcResult :=
  match (event.get "event_id").bind Value.asStr with
  | none => (mailbox, .error (.params "event_id must be a string"))
  | some id =>
    if id.utf8ByteSize > 128 then (mailbox, .error (.params "event_id too long"))
    else if id ∈ mailbox.recent then (mailbox, .ok (admitted true))
    else if event.size > maxValueBytes then (mailbox, .error (.params "event exceeds 16 KiB"))
    else if mailbox.entries.length ≥ maxEntries ∨ mailbox.bytes + event.size > maxBytes then
      (mailbox, .error (.new (-32002) "MAILBOX_FULL" "mailbox is full"))
    else
      let pushed : Mailbox :=
        { mailbox with
          entries := mailbox.entries ++ [(event, event.size)]
          bytes := mailbox.bytes + event.size
          recent := remember mailbox.recent id
          exact := by simp [mailbox.exact] }
      (pushed.notifyOne, .ok (admitted false))

/-- Take the oldest event. -/
def pop (mailbox : Mailbox) : Option (Value × Mailbox) :=
  match waiting : mailbox.entries with
  | [] => none
  | (event, size) :: rest =>
    some (event,
      { mailbox with
        entries := rest
        bytes := mailbox.bytes - size
        exact := by simp [mailbox.exact, waiting] })

/-- A poll of `Mailbox::receive`: the first poll finds no waiter, a later one
goes on only if it has been notified. Without an event it parks, after using up
a stored permit. -/
def receive (mailbox : Mailbox) : Option Value × Mailbox :=
  match mailbox.waiter with
  | some false => (none, mailbox)
  | _ =>
    match mailbox.pop with
    | some (event, rest) => (some event, { rest with waiter := none })
    | none => (none, { mailbox with permit := false, waiter := some false })

/-- Dropping a parked `receive` passes a notification it has got on. -/
def abandon (mailbox : Mailbox) : Mailbox :=
  match mailbox.waiter with
  | some true => { mailbox with waiter := none, permit := true }
  | _ => { mailbox with waiter := none }

/-- `Mailbox::clear`. -/
def clear (mailbox : Mailbox) : Mailbox :=
  { mailbox with entries := [], bytes := 0, recent := [], exact := exact_empty }

section Laws

variable (mailbox : Mailbox)

@[simp] theorem notifyOne_events : mailbox.notifyOne.events = mailbox.events := by
  unfold notifyOne
  split <;> rfl

@[simp] theorem abandon_events : mailbox.abandon.events = mailbox.events := by
  unfold abandon
  split <;> rfl

@[simp] theorem clear_events : mailbox.clear.events = [] := rfl

/-- What is popped was in front. -/
theorem pop_events {event : Value} {rest : Mailbox} (popped : mailbox.pop = some (event, rest)) :
    mailbox.events = event :: rest.events := by
  unfold pop at popped
  split at popped
  · cases popped
  · rename_i first size others waiting
    obtain ⟨rfl, rfl⟩ := Prod.mk.inj (Option.some.inj popped)
    simp [events, waiting]

/-- A poll of `receive` takes the oldest event or none at all. -/
theorem receive_events :
    mailbox.events = mailbox.receive.1.toList ++ mailbox.receive.2.events := by
  unfold receive
  split
  · rfl
  · split
    · rename_i event rest popped
      rw [mailbox.pop_events popped]
      rfl
    · rfl

/-- An event is answered as newly accepted exactly when it joins the mailbox. -/
theorem deliver_events (event : Value) :
    ((mailbox.deliver event).2 = .ok (admitted false) ∧
        (mailbox.deliver event).1.events = mailbox.events ++ [event]) ∨
      (mailbox.deliver event).2 ≠ .ok (admitted false) ∧
        (mailbox.deliver event).1 = mailbox := by
  unfold deliver
  split
  · exact Or.inr ⟨by simp, rfl⟩
  · split_ifs
    · exact Or.inr ⟨by simp, rfl⟩
    · exact Or.inr ⟨by simp [admitted], rfl⟩
    · exact Or.inr ⟨by simp, rfl⟩
    · exact Or.inr ⟨by simp, rfl⟩
    · refine Or.inl ⟨rfl, ?_⟩
      rw [notifyOne_events]
      simp [events]

end Laws

end Mailbox

end Spinfoam
