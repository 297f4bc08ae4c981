import Spinfoam.Guest.Futures
import Spinfoam.Semantics.Machine

/-!
# Runs of a mailbox

Deliveries, clears and the polls of `sf_event_next` in any order. The journal of
a run keeps what has been seen from outside since the last clear: the events that
were answered as newly accepted, and the events that were handed over. A mailbox
represents its journal by a queue, a counter and a window of ids.
-/

namespace Spinfoam

open Spinfoam.Json Spinfoam.Std Spinfoam.Guest Spinfoam.Semantics

namespace Mailbox

inductive Action where
  | deliver (event : Value)
  /-- `sf_event_next` is polled; `elapsed` says whether its timer has fired. -/
  | poll (elapsed : Bool)
  /-- The pending `sf_event_next` is dropped with its run. -/
  | drop
  | clear

inductive Event where
  | delivered (event : Value) (result : RpcResult)
  | received (event : Value)
  | timedOut
  | cleared

/-- A poll of `timeout` around `receive`. The inner future is polled first. -/
def poll (mailbox : Mailbox) (elapsed : Bool) : Mailbox × List Event :=
  match mailbox.receive with
  | (some event, mailbox) => (mailbox, [.received event])
  | (none, mailbox) => if elapsed then (mailbox.abandon, [.timedOut]) else (mailbox, [])

def perform (mailbox : Mailbox) : Action → Mailbox × List Event
  | .deliver event =>
    let (mailbox, result) := mailbox.deliver event
    (mailbox, [.delivered event result])
  | .poll elapsed => mailbox.poll elapsed
  | .drop => (mailbox.abandon, [])
  | .clear => (mailbox.clear, [.cleared])

/-- A mailbox from its creation on. -/
def machine : Machine Mailbox Action Event where
  Initial mailbox := mailbox = {}
  step mailbox action := some (mailbox.perform action)

/-- The id of an event. -/
def eventId (event : Value) : Option String := (event.get "event_id").bind Value.asStr

/-- What has been seen of a mailbox since it was last cleared. -/
structure Journal where
  accepted : List Value := []
  received : List Value := []

namespace Journal

def note (journal : Journal) : Event → Journal
  | .delivered event result =>
    if result = .ok (admitted false) then
      { journal with accepted := journal.accepted ++ [event] }
    else journal
  | .received event => { journal with received := journal.received ++ [event] }
  | .timedOut => journal
  | .cleared => {}

/-- The ids that are recognized as duplicates. -/
def recent (journal : Journal) : List (Option String) :=
  (journal.accepted.rtake maxRecent).map eventId

end Journal

/-- The journal behind a trace. -/
def journal (trace : List Event) : Journal := trace.foldl Journal.note {}

/-- How a mailbox represents its journal. -/
structure Represents (mailbox : Mailbox) (journal : Journal) : Prop where
  waiting : journal.accepted = journal.received ++ mailbox.events
  sizes : mailbox.entries = mailbox.events.map fun event => (event, event.size)
  recent : mailbox.recent.map some = journal.recent
  length : mailbox.entries.length ≤ maxEntries
  room : mailbox.bytes ≤ maxBytes
  /-- A `receive` that sleeps has nothing to be woken for. -/
  asleep : mailbox.waiter = some false → mailbox.entries = []

section Laws

variable {mailbox : Mailbox} {journal : Journal}

/-- A window over a list slides when the list grows. -/
theorem rtake_concat {α : Type} {limit : Nat} (positive : 0 < limit) (items : List α) (item : α) :
    (items ++ [item]).rtake limit =
      (if (items.rtake limit).length = limit then (items.rtake limit).tail
        else items.rtake limit) ++ [item] := by
  have window : (items.rtake limit).length = min limit items.length := by
    rw [List.rtake, List.length_drop]
    omega
  by_cases full : (items.rtake limit).length = limit
  · have enough : items.length + 1 - limit = items.length - limit + 1 := by omega
    rw [if_pos full, List.rtake, List.length_append, List.length_singleton,
      List.drop_append_of_le_length (by omega), List.rtake, List.tail_drop, enough]
  · have few : items.length + 1 ≤ limit := by omega
    rw [if_neg full]
    simp [List.rtake, Nat.sub_eq_zero_of_le few, Nat.sub_eq_zero_of_le (Nat.le_of_succ_le few)]

@[simp] theorem notifyOne_entries (mailbox : Mailbox) :
    mailbox.notifyOne.entries = mailbox.entries := by
  unfold notifyOne
  split <;> rfl

@[simp] theorem notifyOne_bytes (mailbox : Mailbox) : mailbox.notifyOne.bytes = mailbox.bytes := by
  unfold notifyOne
  split <;> rfl

@[simp] theorem notifyOne_recent (mailbox : Mailbox) :
    mailbox.notifyOne.recent = mailbox.recent := by
  unfold notifyOne
  split <;> rfl

/-- Whoever sleeps is woken. -/
theorem notifyOne_waiter (mailbox : Mailbox) : mailbox.notifyOne.waiter ≠ some false := by
  unfold notifyOne
  split
  · simp
  · rename_i other
    exact other

/-- Remembering an id slides the window of ids. -/
theorem remember_recent {event : Value} {id : String} (identified : eventId event = some id)
    (represents : Represents mailbox journal) :
    (remember mailbox.recent id).map some =
      ((journal.accepted ++ [event]).rtake maxRecent).map eventId := by
  have window : mailbox.recent.map some = (journal.accepted.rtake maxRecent).map eventId :=
    represents.recent
  have length : mailbox.recent.length = (journal.accepted.rtake maxRecent).length := by
    simpa using congrArg List.length window
  rw [rtake_concat (by decide), remember, length]
  split_ifs <;> simp [identified, window]

/-- The verdicts on a delivery, in the order of the checks. -/
inductive Delivery (mailbox : Mailbox) (event : Value) : Mailbox × RpcResult → Prop where
  | invalid {error : RpcError} (cause : ∀ id, eventId event = some id → 128 < id.utf8ByteSize) :
      Delivery mailbox event (mailbox, .error error)
  | duplicate {id : String} (identified : eventId event = some id)
      (short : id.utf8ByteSize ≤ 128) (known : id ∈ mailbox.recent) :
      Delivery mailbox event (mailbox, .ok (admitted true))
  | refused {id : String} {error : RpcError} (identified : eventId event = some id)
      (short : id.utf8ByteSize ≤ 128) (fresh : id ∉ mailbox.recent)
      (cause : ¬ (event.size ≤ maxValueBytes ∧ mailbox.entries.length < maxEntries ∧
        mailbox.bytes + event.size ≤ maxBytes)) :
      Delivery mailbox event (mailbox, .error error)
  | accepted {id : String} {after : Mailbox} (identified : eventId event = some id)
      (short : id.utf8ByteSize ≤ 128) (fresh : id ∉ mailbox.recent)
      (fits : event.size ≤ maxValueBytes) (slot : mailbox.entries.length < maxEntries)
      (room : mailbox.bytes + event.size ≤ maxBytes)
      (entries : after.entries = mailbox.entries ++ [(event, event.size)])
      (bytes : after.bytes = mailbox.bytes + event.size)
      (recent : after.recent = remember mailbox.recent id) (awake : after.waiter ≠ some false) :
      Delivery mailbox event (after, .ok (admitted false))

/-- What a delivery does. -/
theorem deliver_spec (mailbox : Mailbox) (event : Value) :
    Delivery mailbox event (mailbox.deliver event) := by
  unfold deliver
  split
  · rename_i unnamed
    apply Delivery.invalid
    intro id identified
    rw [eventId, unnamed] at identified
    cases identified
  · rename_i id identified
    split_ifs with long known large full
    · apply Delivery.invalid
      intro other same
      obtain rfl := Option.some.inj (identified.symm.trans same)
      exact long
    · exact .duplicate identified (by omega) known
    · exact .refused identified (by omega) known fun fits => by omega
    · exact .refused identified (by omega) known fun fits => by omega
    · exact .accepted identified (by omega) known (by omega) (by omega) (by omega)
        (notifyOne_entries _) (notifyOne_bytes _) (notifyOne_recent _) (notifyOne_waiter _)

/-- What a poll of `receive` comes to, if a sleeping one has nothing to wake for. -/
inductive Receipt (mailbox : Mailbox) : Option Value × Mailbox → Prop where
  | received {event : Value} {size : Nat} {rest : List (Value × Nat)} {after : Mailbox}
      (waiting : mailbox.entries = (event, size) :: rest) (left : after.entries = rest)
      (recent : after.recent = mailbox.recent) (done : after.waiter = none) :
      Receipt mailbox (some event, after)
  | parked {after : Mailbox} (empty : mailbox.entries = []) (left : after.entries = [])
      (recent : after.recent = mailbox.recent) (asleep : after.waiter = some false) :
      Receipt mailbox (none, after)

/-- What a look into the mailbox does. -/
theorem receive_spec (asleep : mailbox.waiter = some false → mailbox.entries = []) :
    Receipt mailbox mailbox.receive := by
  unfold receive
  split
  · rename_i parked
    exact .parked (asleep parked) (asleep parked) rfl parked
  · unfold pop
    split
    · rename_i event rest popped
      split at popped
      · cases popped
      · rename_i first size others waiting
        obtain ⟨rfl, rfl⟩ := Prod.mk.inj (Option.some.inj popped)
        exact .received waiting rfl rfl rfl
    · rename_i popped
      split at popped
      · rename_i empty
        exact .parked empty empty rfl rfl
      · cases popped

@[simp] theorem abandon_entries (mailbox : Mailbox) :
    mailbox.abandon.entries = mailbox.entries := by
  unfold abandon
  split <;> rfl

@[simp] theorem abandon_recent (mailbox : Mailbox) : mailbox.abandon.recent = mailbox.recent := by
  unfold abandon
  split <;> rfl

@[simp] theorem abandon_waiter (mailbox : Mailbox) : mailbox.abandon.waiter = none := by
  unfold abandon
  split <;> rfl

namespace Represents

/-- The queue and the window say all; the counter follows them. -/
private theorem of_entries (represents : Represents mailbox journal) {after : Mailbox}
    (entries : after.entries = mailbox.entries) (recent : after.recent = mailbox.recent)
    (asleep : after.waiter = some false → after.entries = []) : Represents after journal where
  waiting := by
    rw [events, entries]
    exact represents.waiting
  sizes := by
    rw [events, entries]
    exact represents.sizes
  recent := by
    rw [recent]
    exact represents.recent
  length := by
    rw [entries]
    exact represents.length
  room := by
    rw [after.exact, entries, ← mailbox.exact]
    exact represents.room
  asleep := asleep

/-- An empty mailbox represents the empty journal. -/
theorem of_clear (entries : mailbox.entries = []) (bytes : mailbox.bytes = 0)
    (recent : mailbox.recent = []) : Represents mailbox {} where
  waiting := by simp [events, entries]
  sizes := by simp [events, entries]
  recent := by simp [Journal.recent, recent]
  length := by simp [entries]
  room := by simp [bytes]
  asleep := fun _ => entries

/-- A delivery is what the journal says of it. -/
theorem deliver (represents : Represents mailbox journal) (event : Value) :
    Represents (mailbox.deliver event).1
      (journal.note (.delivered event (mailbox.deliver event).2)) := by
  have delivery := mailbox.deliver_spec event
  generalize mailbox.deliver event = result at delivery ⊢
  cases delivery with
  | invalid | refused => exact represents
  | duplicate =>
    have other : (.ok (admitted true) : RpcResult) ≠ .ok (admitted false) := by decide
    rwa [Journal.note, if_neg other]
  | @accepted id after identified short fresh fits slot room entries bytes recent awake =>
    rw [Journal.note, if_pos rfl]
    have grown : after.events = mailbox.events ++ [event] := by simp [events, entries]
    constructor
    case waiting => rw [grown, represents.waiting, List.append_assoc]
    case sizes =>
      rw [grown, entries, represents.sizes]
      simp [events]
    case recent =>
      rw [recent]
      exact remember_recent identified represents
    case length =>
      rw [entries, List.length_append, List.length_singleton]
      exact slot
    case room => exact bytes.le.trans room
    case asleep => exact fun parked => absurd parked awake

/-- A poll of the receiver is what the journal says of it. -/
theorem poll (represents : Represents mailbox journal) (elapsed : Bool) :
    Represents (mailbox.poll elapsed).1 ((mailbox.poll elapsed).2.foldl Journal.note journal) := by
  have receipt := receive_spec represents.asleep
  unfold Mailbox.poll
  generalize mailbox.receive = result at receipt ⊢
  cases receipt with
  | @received event size rest after waiting left recent done =>
    have shrunk : mailbox.events = event :: after.events := by simp [events, waiting, left]
    have exact := represents.sizes
    rw [shrunk, waiting, List.map_cons, List.cons.injEq] at exact
    constructor
    case waiting =>
      have seen := represents.waiting
      rw [shrunk] at seen
      simpa [Journal.note] using seen
    case sizes => exact left.trans exact.2
    case recent =>
      rw [recent]
      exact represents.recent
    case length =>
      have bounded := represents.length
      rw [waiting, List.length_cons] at bounded
      rw [left]
      omega
    case room =>
      have bounded := represents.room
      rw [mailbox.exact, waiting, List.map_cons, List.sum_cons] at bounded
      rw [after.exact, left]
      omega
    case asleep =>
      intro parked
      rw [done] at parked
      cases parked
  | @parked after empty left recent asleep =>
    cases elapsed with
    | true =>
      have gone : after.abandon.entries = [] := (abandon_entries after).trans left
      exact represents.of_entries (gone.trans empty.symm) ((abandon_recent after).trans recent)
        fun _ => gone
    | false => exact represents.of_entries (left.trans empty.symm) recent fun _ => left

/-- Every step keeps mailbox and journal together. -/
theorem perform (represents : Represents mailbox journal) (action : Action) :
    Represents (mailbox.perform action).1
      ((mailbox.perform action).2.foldl Journal.note journal) := by
  cases action with
  | deliver event => exact represents.deliver event
  | poll elapsed => exact represents.poll elapsed
  | drop =>
    apply represents.of_entries (abandon_entries _) (abandon_recent _)
    intro parked
    cases (abandon_waiter mailbox).symm.trans parked
  | clear => exact of_clear rfl rfl rfl

end Represents

end Laws

/-- Neither a handle nor the refusal of one looks like `SF_TIMEOUT`. -/
theorem insert_ne_timeout (guest : Guest) (handle : Handle) :
    (guest.insert handle).2 ≠ Status.timeout.word := by
  obtain ⟨-, -, -, -, refused, stored⟩ := insert_spec guest handle
  by_cases full : guest.Full
  · rw [refused full]
    decide
  · have small : guest.nextHandle < 2 ^ 63 - 1 := by
      simp only [Guest.Full, not_or] at full
      omega
    have large : 2 ^ 63 ≤ Status.timeout.word := by decide
    rw [stored full]
    omega

section Runs

variable {history : List (Transition Mailbox Action Event)} {mailbox : Mailbox}

/-- In every run the mailbox represents its journal. -/
theorem represents_of_execution (execution : machine.Execution history mailbox) :
    Represents mailbox (journal (trace history)) := by
  refine execution.historyInvariant
    (fun history mailbox => Represents mailbox (journal (trace history))) ?_ ?_
  · rintro _ rfl
    exact .of_clear rfl rfl rfl
  · intro history mailbox action next events _ represents taken
    have step := represents.perform action
    rw [Option.some.inj taken] at step
    simpa [journal, List.foldl_append] using step

/-- The answers to a delivery, in terms of what has been accepted before. -/
theorem Represents.deliver_answers {journal : Journal} (represents : Represents mailbox journal)
    {event : Value} {id : String} (identified : eventId event = some id)
    (short : id.utf8ByteSize ≤ 128) :
    ((mailbox.deliver event).2 = .ok (admitted true) ↔ some id ∈ journal.recent) ∧
      (some id ∉ journal.recent → ((mailbox.deliver event).2 = .ok (admitted false) ↔
        event.size ≤ maxValueBytes ∧ mailbox.events.length < maxEntries ∧
          mailbox.bytes + event.size ≤ maxBytes)) := by
  have known : some id ∈ journal.recent ↔ id ∈ mailbox.recent := by
    rw [← represents.recent]
    simp
  have length : mailbox.events.length = mailbox.entries.length := by simp [events]
  rw [known, length]
  have delivery := mailbox.deliver_spec event
  generalize mailbox.deliver event = result at delivery ⊢
  cases delivery with
  | invalid cause =>
    have long := cause id identified
    omega
  | duplicate same _ listed =>
    obtain rfl := Option.some.inj (identified.symm.trans same)
    exact ⟨iff_of_true rfl listed, fun fresh => absurd listed fresh⟩
  | refused same _ fresh cause =>
    obtain rfl := Option.some.inj (identified.symm.trans same)
    exact ⟨iff_of_false (by simp) fresh, fun _ => iff_of_false (by simp) cause⟩
  | accepted same _ fresh fits slot room =>
    obtain rfl := Option.some.inj (identified.symm.trans same)
    exact ⟨iff_of_false (by simp [admitted]) fresh, fun _ => iff_of_true rfl ⟨fits, slot, room⟩⟩

/-- A delivery that is not newly accepted leaves the mailbox as it was. -/
theorem deliver_unchanged (mailbox : Mailbox) {event : Value}
    (other : (mailbox.deliver event).2 ≠ .ok (admitted false)) :
    (mailbox.deliver event).1 = mailbox := by
  have delivery := mailbox.deliver_spec event
  generalize mailbox.deliver event = result at delivery other ⊢
  cases delivery with
  | invalid | duplicate | refused => rfl
  | accepted => exact absurd rfl other

/-- At every point of a run the mailbox holds, in order, what has been accepted and
not yet received; its counter is the sum of the sizes, within the bounds; and a
delivery is answered by the ids of the last 128 accepted events and by the room
that is left. -/
theorem mailbox_refines_journal (execution : machine.Execution history mailbox) :
    (journal (trace history)).accepted =
        (journal (trace history)).received ++ mailbox.events ∧
      mailbox.receive.1 = mailbox.events.head? ∧
      mailbox.entries = mailbox.events.map (fun event => (event, event.size)) ∧
      mailbox.bytes = (mailbox.events.map Value.size).sum ∧
      mailbox.events.length ≤ 32 ∧ mailbox.bytes ≤ 32768 ∧
      (∀ event id, eventId event = some id → id.utf8ByteSize ≤ 128 →
        ((mailbox.deliver event).2 = .ok (admitted true) ↔
            some id ∈ ((journal (trace history)).accepted.rtake 128).map eventId) ∧
          (some id ∉ ((journal (trace history)).accepted.rtake 128).map eventId →
            ((mailbox.deliver event).2 = .ok (admitted false) ↔
              event.size ≤ 16384 ∧ mailbox.events.length < 32 ∧
                mailbox.bytes + event.size ≤ 32768))) ∧
      ∀ event, (mailbox.deliver event).2 ≠ .ok (admitted false) →
        (mailbox.deliver event).1 = mailbox := by
  have represents := represents_of_execution execution
  have bytes : mailbox.bytes = (mailbox.events.map Value.size).sum := by
    rw [mailbox.exact, represents.sizes]
    simp [Function.comp_def]
  have length : mailbox.events.length ≤ 32 := by
    have bounded := represents.length
    rwa [represents.sizes, List.length_map] at bounded
  have head : mailbox.receive.1 = mailbox.events.head? := by
    have receipt := receive_spec represents.asleep
    generalize mailbox.receive = result at receipt ⊢
    cases receipt with
    | received waiting => simp [events, waiting]
    | parked empty => simp [events, empty]
  refine ⟨represents.waiting, head, represents.sizes, bytes, length, represents.room, ?_, ?_⟩
  · intro event id identified short
    exact represents.deliver_answers identified short
  · intro event other
    exact mailbox.deliver_unchanged other

/-- An event is recognized again after it has been received. -/
theorem mailbox_refines_journal_repeated :
    ∃ history mailbox, machine.run {}
        [.deliver (.object [("event_id", .string "e")]), .poll false] = some (history, mailbox) ∧
      mailbox.events = [] ∧
      (mailbox.deliver (.object [("event_id", .string "e")])).2 = .ok (admitted true) := by
  obtain ⟨history, mailbox, ran, gone, listed⟩ : ∃ history mailbox, machine.run {}
        [.deliver (.object [("event_id", .string "e")]), .poll false] = some (history, mailbox) ∧
      mailbox.events = [] ∧
      some "e" ∈ ((journal (trace history)).accepted.rtake 128).map eventId :=
    ⟨_, _, rfl, by decide, by decide⟩
  have answers := (mailbox_refines_journal (Machine.execution_of_run rfl ran)).2.2.2.2.2.2.1
  exact ⟨history, mailbox, ran, gone, (answers _ "e" rfl (by decide)).1.mpr listed⟩

/-- No `receive` sleeps on an event: one that is parked without a wakeup has an
empty mailbox. A poll ends with an event exactly when there is one, whatever permits
are left over, and `sf_event_next` answers `SF_TIMEOUT` only on an empty mailbox. -/
theorem mailbox_no_lost_wakeup (execution : machine.Execution history mailbox) :
    (mailbox.waiter = some false → mailbox.entries = []) ∧
      (∀ elapsed next events, machine.step mailbox (.poll elapsed) = some (next, events) →
        (∃ event size rest, mailbox.entries = (event, size) :: rest ∧ next.entries = rest ∧
            events = [.received event]) ∨
          mailbox.entries = [] ∧ next.entries = [] ∧
            if elapsed = true then events = [.timedOut] ∧ next.waiter = none
            else events = [] ∧ next.waiter = some false) ∧
      ∀ (guest : Guest) ready ms after events envelope, guest.mailbox = mailbox →
        guest.pollPosted ready (.event ms) =
            (after, events, .done Status.timeout.word envelope) →
          mailbox.entries = [] ∧ ready.elapsed = true := by
  have represents := represents_of_execution execution
  have receipt := receive_spec represents.asleep
  refine ⟨represents.asleep, ?_, ?_⟩
  · intro elapsed next events taken
    have polled : mailbox.poll elapsed = (next, events) := Option.some.inj taken
    unfold Mailbox.poll at polled
    generalize mailbox.receive = result at receipt polled
    cases receipt with
    | @received event size rest after waiting left =>
      obtain ⟨rfl, rfl⟩ := Prod.mk.inj polled
      exact Or.inl ⟨event, size, rest, waiting, left, rfl⟩
    | @parked after empty left recent asleep =>
      right
      cases elapsed with
      | true =>
        obtain ⟨rfl, rfl⟩ := Prod.mk.inj polled
        exact ⟨empty, (abandon_entries after).trans left, rfl, abandon_waiter after⟩
      | false =>
        obtain ⟨rfl, rfl⟩ := Prod.mk.inj polled
        exact ⟨empty, left, rfl, asleep⟩
  · rintro guest ready ms after events envelope rfl polled
    simp only [Guest.pollPosted] at polled
    generalize guest.mailbox.receive = result at receipt polled
    cases receipt with
    | @received event size rest left waiting =>
      -- a stored event answers with a handle or with `SF_LIMIT`
      exfalso
      have word := congrArg (fun result => result.2.2) polled
      simp only [Guest.Progress.done.injEq] at word
      exact insert_ne_timeout _ _ word.1
    | @parked left empty =>
      refine ⟨empty, ?_⟩
      by_contra early
      simp [early] at polled

/-- A `receive` that waits is woken by a delivery, and takes the event. -/
theorem mailbox_no_lost_wakeup_delivery :
    ∃ history mailbox, machine.run {}
        [.poll false, .deliver (.object [("event_id", .string "e")])] = some (history, mailbox) ∧
      mailbox.entries ≠ [] ∧ mailbox.waiter ≠ some false := by
  obtain ⟨history, mailbox, ran, queued⟩ : ∃ history mailbox, machine.run {}
        [.poll false, .deliver (.object [("event_id", .string "e")])] = some (history, mailbox) ∧
      mailbox.entries.length = 1 := ⟨_, _, rfl, by decide⟩
  have waiting : mailbox.entries ≠ [] := by
    intro empty
    rw [empty] at queued
    cases queued
  refine ⟨history, mailbox, ran, waiting, ?_⟩
  intro parked
  exact waiting ((mailbox_no_lost_wakeup (Machine.execution_of_run rfl ran)).1 parked)

end Runs

end Mailbox

end Spinfoam
