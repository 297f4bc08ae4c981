import Spinfoam.Runtime.Confinement
import Spinfoam.Runtime.Tables

/-!
# What becomes of the events

An event that has been accepted waits in the mailbox until `sf_event_next` hands it
over under a new handle. The event leaves the mailbox before the handle is made: if
there is no room for the handle, it is in neither place.
-/

namespace Spinfoam

open Spinfoam.Json Spinfoam.Std Spinfoam.Outbox Spinfoam.Guest Spinfoam.Semantics

namespace Guest

/-- What a poll of a future does to the mailbox. -/
inductive Drained (guest : Guest) : Posted → Guest → Progress → Prop where
  /-- The future has nothing to do with it. -/
  | other {future : Posted} {after : Guest} {progress : Progress}
      (kind : ∀ ms, future ≠ .event ms) (mailbox : after.mailbox.events = guest.mailbox.events)
      (empty : ∀ word envelope, progress = .done word envelope → envelope = none) :
      Drained guest future after progress
  /-- No event is there, or the future has not been woken. -/
  | idle {ms : Nat} {after : Guest} {progress : Progress}
      (mailbox : after.mailbox.events = guest.mailbox.events)
      (empty : (guest.mailbox.waiter = some false → guest.mailbox.entries = []) →
        guest.mailbox.entries = [])
      (outcome : progress = .pending (.event ms) ∨ progress = .done Status.timeout.word none) :
      Drained guest (.event ms) after progress
  /-- The oldest event is handed over. -/
  | handed {ms : Nat} {event : Value} {after : Guest}
      (taken : guest.mailbox.events = event :: after.mailbox.events) (room : ¬ guest.Full)
      (stored : after.context.handles.lookup guest.nextHandle = some (.json event)) :
      Drained guest (.event ms) after (.done guest.nextHandle (some event))
  /-- The oldest event is taken and dropped. -/
  | lost {ms : Nat} {event : Value} {after : Guest}
      (taken : guest.mailbox.events = event :: after.mailbox.events) (full : guest.Full) :
      Drained guest (.event ms) after (.done Status.limit.word (some event))

/-- A call that ends takes no event out of the mailbox. -/
theorem drained_settleCall (guest : Guest) (outcome : Host.Outcome) :
    (guest.settleCall outcome).1.mailbox = guest.mailbox ∧
      ∀ word envelope, (guest.settleCall outcome).2 = .done word envelope → envelope = none := by
  obtain (status | value) | call := outcome
  · refine ⟨rfl, ?_⟩
    rintro word envelope ⟨⟩
    rfl
  · refine ⟨(insert_spec { guest with wait := .none } (.json value)).2.1, ?_⟩
    intro word envelope done
    exact (Progress.done.inj done).2.symm
  · refine ⟨rfl, ?_⟩
    rintro word envelope ⟨⟩

/-- A posted future takes at most the front of the mailbox. -/
theorem drained (guest : Guest) (ready : Ready) (future : Posted) :
    guest.Drained future (guest.pollPosted ready future).1 (guest.pollPosted ready future).2.2 := by
  cases future with
  | sleep | yield =>
    unfold pollPosted
    split_ifs
    · refine .other (by simp) rfl ?_
      rintro word envelope ⟨⟩
      rfl
    · refine .other (by simp) rfl ?_
      rintro word envelope ⟨⟩
  | event ms =>
    have kept := guest.mailbox.receive_events
    have spec := @Mailbox.receive_spec guest.mailbox
    simp only [pollPosted]
    generalize guest.mailbox.receive = result at kept spec ⊢
    obtain ⟨_ | event, mailbox⟩ := result
    · have same : mailbox.events = guest.mailbox.events := kept.symm
      have empty : (guest.mailbox.waiter = some false → guest.mailbox.entries = []) →
          guest.mailbox.entries = [] := by
        intro awake
        cases spec awake with
        | parked empty => exact empty
      split_ifs
      · exact .idle (by simpa using same) empty (Or.inr rfl)
      · exact .idle same empty (Or.inl rfl)
    · by_cases full : guest.Full
      · have stuck : ({ guest with mailbox, wait := .none } : Guest).insert (.json event) =
            ({ guest with mailbox, wait := .none }, Status.limit.word) := if_pos full
        simp only [stuck]
        exact .lost kept full
      · have made : ({ guest with mailbox, wait := .none } : Guest).insert (.json event) = _ :=
          if_neg full
        simp only [made]
        exact .handed kept full (AList.lookup_insert _)
  | call capability arguments ms =>
    simp only [pollPosted]
    generalize guest.host.call _ _ _ _ _ _ = result
    obtain ⟨mailbox, none⟩ := drained_settleCall { guest with host := result.1 } result.2.2
    exact .other (by simp) (congrArg Mailbox.events mailbox) none
  | calling call =>
    simp only [pollPosted]
    generalize guest.host.poll _ _ _ = result
    obtain ⟨mailbox, none⟩ := drained_settleCall { guest with host := result.1 } result.2.2
    exact .other (by simp) (congrArg Mailbox.events mailbox) none

/-- A poll that is known by its result takes at most the front of the mailbox. -/
theorem drained_of_polled {guest after : Guest} {ready : Ready} {future : Posted}
    {events : List Host.Event} {progress : Progress}
    (polled : guest.pollPosted ready future = (after, events, progress)) :
    guest.Drained future after progress := by
  have spec := drained guest ready future
  rwa [polled] at spec

end Guest

namespace Runtime

variable {runtime after : Runtime} {events more : List Event} {serial : Nat} {object : Object}

/-- The events that have been accepted for an object, in order. -/
def admissions (serial : Nat) (events : List Event) : List Value :=
  events.filterMap fun
    | .accepted other event => if other = serial then some event else none
    | _ => none

/-- The events that its guest has got a handle for, in order. -/
def receipts (serial : Nat) (events : List Event) : List Value :=
  events.filterMap fun
    | .received other event _ => if other = serial then some event else none
    | _ => none

section Lists

@[simp] theorem admissions_append (serial : Nat) (first second : List Event) :
    admissions serial (first ++ second) = admissions serial first ++ admissions serial second :=
  List.filterMap_append

@[simp] theorem receipts_append (serial : Nat) (first second : List Event) :
    receipts serial (first ++ second) = receipts serial first ++ receipts serial second :=
  List.filterMap_append

/-- Only events about an object are accepted or received for it. -/
theorem admissions_quiet (quiet : ∀ event ∈ events, event.serial ≠ some serial) :
    admissions serial events = [] ∧ receipts serial events = [] := by
  simp only [admissions, receipts, List.filterMap_eq_nil_iff]
  refine ⟨?_, ?_⟩ <;>
    · intro event member
      have other := quiet event member
      cases event <;> simp_all [Event.serial]

/-- Events of the host neither accept nor receive anything. -/
theorem admissions_host (serial : Nat) (first : List Host.Event) :
    admissions serial (first.map .host) = [] ∧ receipts serial (first.map .host) = [] :=
  admissions_quiet fun _ member => by simp [serial_host member]

end Lists

/-- What has been accepted for an object has been received or waits, in order. -/
structure Kept (serial : Nat) (events : List Event) (runtime : Runtime) : Prop where
  unknown : serial ∉ runtime.heap → admissions serial events = [] ∧ receipts serial events = []
  waiting : ∀ {object}, runtime.heap.lookup serial = some object →
    object.state.terminal = false →
      admissions serial events = receipts serial events ++ object.mailbox.events

section Moves

/-- What is about an object is about one that is known. -/
theorem Move.subject (move : Move runtime more after) {event : Event} (member : event ∈ more)
    (about : event.serial = some serial) : serial ∈ after.heap := by
  have inserted : ∀ {number : Nat} {next : Object}, number = serial →
      serial ∈ runtime.heap.insert number next := by
    rintro number next rfl
    exact (AList.mem_insert _).mpr (Or.inl rfl)
  have worked : ∀ {number : Nat} {guest next : Guest} {posted later : Option Posted}
      {object : Object}, Worked guest number posted more next later →
      serial ∈ runtime.heap.insert number object := by
    intro number guest next posted later object worked
    rcases worked.subject member with none | own
    · rw [none] at about
      cases about
    · exact inserted (Option.some.inj (own.symm.trans about))
  cases move with
  | bind waiting =>
    simp only [Runtime.finishLoad, List.mem_cons, List.not_mem_nil, or_false] at member
    rcases member with rfl | rfl
    · exact inserted (Option.some.inj about)
    · cases about
  | tend found tended =>
    exact inserted (Option.some.inj ((tended_serial tended member).symm.trans about))
  | helper found task invoked => exact worked (.helper invoked)
  | stay found task polled => exact worked (.stay polled)
  | complete found task polled => exact worked (.complete polled)
  | settle found released unload order =>
    simp only [Runtime.finishStop, List.mem_append, List.mem_cons, List.not_mem_nil,
      or_false] at member
    rcases member with host | rfl | rfl
    · rw [serial_host host] at about
      cases about
    · cases about
    · cases about
  | host | finish =>
    rw [serial_host member] at about
    cases about
  | respond | clear =>
    rw [List.mem_singleton.mp member] at about
    cases about
  | absent =>
    simp only [List.mem_cons, List.not_mem_nil, or_false] at member
    rcases member with rfl | rfl <;> cases about
  | issue | forget | park | unpark => cases member

/-- Joining the task does not change the state. -/
theorem join_state (object : Object) : object.join.1.state = object.state := by
  rcases object.join_spec with ⟨-, same⟩ | ⟨-, same⟩
  · rw [same]
  · rw [same, Object.release]

/-- An event joins the mailbox if it is accepted, and else nothing changes. -/
theorem deliver_spec (serial : Nat) (object : Object) (event : Value) :
    (object.deliver event).1.state = object.state ∧
      (object.deliver event).1.mailbox.events = object.mailbox.events ++ admissions serial
        (if (object.deliver event).2 = .ok (Mailbox.admitted false) then
          [.accepted serial event] else []) := by
  have passed : (object.mailbox.deliver event).1.events = object.mailbox.events ++
      admissions serial (if (object.mailbox.deliver event).2 = .ok (Mailbox.admitted false) then
        [.accepted serial event] else []) := by
    rcases object.mailbox.deliver_events event with ⟨admitted, grown⟩ | ⟨refused, same⟩
    · rw [if_pos admitted, grown]
      simp [admissions]
    · rw [if_neg refused, same]
      simp [admissions]
  unfold Object.deliver
  split
  · exact ⟨rfl, passed⟩
  · exact ⟨rfl, passed⟩
  · exact ⟨rfl, passed⟩
  · exact ⟨rfl, by simp [admissions]⟩

/-- The mailbox of an object that goes on grows by what is accepted. -/
theorem tended_mailbox {next : Object} (tended : Object.Tended serial object events next)
    (sound : object.Sound) (going : next.state.terminal = false) :
    object.state.terminal = false ∧
      next.mailbox.events = object.mailbox.events ++ admissions serial events ∧
        receipts serial events = [] := by
  have same : object.mailbox.events = object.mailbox.events ++ admissions serial [] := by
    simp [admissions]
  have ended : ∀ {object : Object}, object.state.terminal = true →
      object.join.1.state.terminal ≠ false := by
    intro object final
    rw [join_state, final]
    exact Bool.false_ne_true.symm
  cases tended with
  | start loaded => exact ⟨by rw [loaded]; rfl, same, rfl⟩
  | stop =>
    rcases object.stop_spec with ⟨-, stopped⟩ | ⟨state, stopped⟩ | ⟨final, stopped⟩
    · rw [stopped] at going
      exact absurd going (ended rfl)
    · rw [stopped]
      refine ⟨?_, same, rfl⟩
      rcases state with state | state | state <;> rw [state] <;> rfl
    · rw [stopped] at going
      exact absurd going (ended final)
  | pollStop fits =>
    rcases Object.pollStop_spec fits with ⟨stays, -⟩ | ⟨final, stopped | stopped⟩
    · rw [stays] at going ⊢
      exact ⟨going, same, rfl⟩
    · rw [stopped] at going
      exact absurd going (ended final)
    · rw [stopped] at going
      exact absurd going (by simp [Object.release, final])
  | cancel => exact ⟨going, same, rfl⟩
  | deliver event =>
    obtain ⟨state, mailbox⟩ := deliver_spec serial object event
    rw [state] at going
    refine ⟨going, mailbox, ?_⟩
    split_ifs <;> rfl
  | begin clock spawned =>
    refine ⟨?_, by simp [admissions, Object.begin], rfl⟩
    rcases sound.state_of_spawned spawned with state | state <;>
      · rw [state]
        rfl

/-- What a guest takes out of its mailbox it gets, if there is room for it. -/
theorem worked_mailbox {guest next : Guest} {posted later : Option Posted}
    (worked : Worked guest serial posted events next later)
    (served : ∀ ms, .completed serial (.event ms) Status.limit.word ∉ events) :
    admissions serial events = [] ∧
      guest.mailbox.events = receipts serial events ++ next.mailbox.events := by
  cases worked with
  | @helper scope call _ reply invoked =>
    have mailbox := invoke_mailbox guest scope call
    rw [invoked] at mailbox
    exact ⟨rfl, congrArg Mailbox.events mailbox.symm⟩
  | @stay ready future _ _ first polled =>
    obtain ⟨quiet, silent⟩ := admissions_host serial first
    cases drained_of_polled polled with
    | other kind mailbox | idle mailbox =>
      rw [quiet, silent]
      exact ⟨rfl, mailbox.symm⟩
  | @complete ready future _ first word envelope polled =>
    obtain ⟨quiet, silent⟩ := admissions_host serial first
    rw [admissions_append, receipts_append, quiet, silent]
    cases drained_of_polled polled with
    | other kind mailbox empty =>
      obtain rfl := empty word envelope rfl
      exact ⟨rfl, mailbox.symm⟩
    | idle mailbox empty outcome =>
      obtain ⟨-, rfl⟩ := Progress.done.inj (outcome.resolve_left (by simp))
      exact ⟨rfl, mailbox.symm⟩
    | handed taken room stored =>
      simp only [handed, if_neg room]
      refine ⟨by simp [admissions], ?_⟩
      rw [taken]
      simp [receipts]
    | @lost ms event taken full =>
      exact absurd (List.mem_append_right _ List.mem_cons_self) (served ms)

/-- A move keeps what has been accepted, unless a receipt is answered `SF_LIMIT`. -/
theorem Kept.move (kept : Kept serial events runtime) (sound : Sound runtime)
    (move : Move runtime more after)
    (served : ∀ ms, .completed serial (.event ms) Status.limit.word ∉ more) :
    Kept serial (events ++ more) after := by
  constructor
  case unknown =>
    intro absent
    obtain ⟨none, neither⟩ := kept.unknown fun known => absent (move.known known)
    obtain ⟨quiet, silent⟩ := @admissions_quiet more serial fun event member about =>
      absent (move.subject member about)
    rw [admissions_append, receipts_append, none, neither, quiet, silent]
    exact ⟨rfl, rfl⟩
  case waiting =>
    intro object stored going
    rw [admissions_append, receipts_append]
    cases move.became stored with
    | same found quiet =>
      obtain ⟨none, neither⟩ := admissions_quiet quiet
      rw [none, neither, List.append_nil, List.append_nil]
      exact kept.waiting found going
    | @loaded request load waiting number emitted =>
      have fresh : serial ∉ runtime.heap := number ▸ (sound.loading waiting).2
      obtain ⟨none, neither⟩ := kept.unknown fresh
      have quiet : admissions serial more = [] ∧ receipts serial more = [] := by
        rw [emitted]
        exact ⟨rfl, rfl⟩
      rw [none, neither, quiet.1, quiet.2]
      rfl
    | tended found tended =>
      obtain ⟨open_, mailbox, neither⟩ := tended_mailbox tended (sound.object found).1 going
      rw [neither, mailbox, kept.waiting found open_, List.append_nil, List.append_assoc]
    | @worked old context posted next guest found task worked =>
      have before := kept.waiting found going
      obtain ⟨grown, handedOver⟩ := worked_mailbox worked served
      rw [before, grown, List.append_nil, List.append_assoc]
      exact congrArg (receipts serial events ++ ·) handedOver
    | finished =>
      rw [Object.settle_terminal] at going
      cases going

end Moves

section Steps

/-- The event tells of a future that completes. -/
def Event.completion : Event → Bool
  | .completed _ _ _ | .received _ _ _ => true
  | _ => false

/-- Events of the host complete no future. -/
theorem completion_host {first : List Host.Event} {event : Event}
    (member : event ∈ first.map .host) : event.completion = false := by
  obtain ⟨inner, -, rfl⟩ := List.mem_map.mp member
  rfl

/-- A future of a guest completes in this step. -/
inductive Completes (runtime after : Runtime) (action : Action) (events : List Event)
    (serial : Nat) : Prop where
  | of {object : Object} {context : GuestContext} {ready : Ready} {clock : Clock}
      {order : List String} {future : Posted} {guest : Guest} {first : List Host.Event}
      {word : Nat} {envelope : Option Value} (polls : action = .poll serial (.resume ready) clock order)
      (found : runtime.heap.lookup serial = some object) (going : object.cancel = false)
      (task : object.task = .running context (some future))
      (polled : (runtime.guest object context).pollPosted ready future =
        (guest, first, .done word envelope))
      (result : after = runtime.absorb serial object guest none)
      (emitted : events = first.map .host ++ .completed serial future word ::
        handed serial (runtime.guest object context) word envelope) :
      Completes runtime after action events serial

/-- A future completes when it is resumed. -/
theorem completes_turn {number : Nat} {current : Object} {context : GuestContext}
    {posted : Option Posted} {order : List String} {turn : Turn} {event : Event}
    (taken : runtime.turn number current context posted order turn = some (after, events))
    (member : event ∈ events) (done : event.completion = true) :
    ∃ ready future guest first word envelope, turn = .resume ready ∧ posted = some future ∧
      (runtime.guest current context).pollPosted ready future =
        (guest, first, .done word envelope) ∧
      after = runtime.absorb number current guest none ∧
      events = first.map .host ++ .completed number future word ::
        handed number (runtime.guest current context) word envelope := by
  cases turn with
  | idle =>
    obtain ⟨-, rfl⟩ := Prod.mk.inj (Option.some.inj taken)
    cases member
  | helper made scope =>
    cases posted with
    | some future => cases taken
    | none =>
      obtain ⟨-, rfl⟩ := Prod.mk.inj (Option.some.inj taken)
      rw [List.mem_singleton.mp member] at done
      cases done
  | resume ready =>
    cases posted with
    | none => cases taken
    | some future =>
      simp only [Runtime.turn] at taken
      split at taken
      · obtain ⟨-, rfl⟩ := Prod.mk.inj (Option.some.inj taken)
        rw [completion_host member] at done
        cases done
      · rename_i word envelope progress
        obtain ⟨rfl, rfl⟩ := Prod.mk.inj (Option.some.inj taken)
        exact ⟨ready, future, _, _, word, envelope, rfl, rfl,
          Prod.ext rfl (Prod.ext rfl progress), rfl, rfl⟩
  | finish result =>
    obtain ⟨-, rfl⟩ := Prod.mk.inj (Option.some.inj taken)
    rw [completion_host member] at done
    cases done

/-- A future completes in a poll of its own task. -/
theorem completes_step {action : Action} {event : Event}
    (taken : machine.step runtime action = some (after, events)) (member : event ∈ events)
    (done : event.completion = true) : ∃ serial, Completes runtime after action events serial := by
  rcases mute_or_poll taken with mute | ⟨number, turn, clock, order, rfl, polled⟩
  · have silent := mute event member
    cases event with
    | completed | received => cases silent
    | _ => cases done
  · simp only [Runtime.pollTask, Option.bind_eq_some_iff] at polled
    obtain ⟨object, found, polled⟩ := polled
    cases task : object.task with
    | none | finished => simp [task] at polled
    | spawned =>
      simp only [task] at polled
      split_ifs at polled
      · obtain ⟨-, rfl⟩ := Prod.mk.inj (Option.some.inj polled)
        rw [completion_host member] at done
        cases done
      · rw [Option.map_eq_some_iff] at polled
        obtain ⟨⟨last, later⟩, turned, same⟩ := polled
        obtain ⟨-, rfl⟩ := Prod.mk.inj same
        rcases List.mem_cons.mp member with rfl | spoken
        · cases done
        · obtain ⟨_, _, _, _, _, _, -, impossible, -⟩ := completes_turn turned spoken done
          cases impossible
    | running context posted =>
      simp only [task] at polled
      split_ifs at polled with cancelled
      · obtain ⟨-, rfl⟩ := Prod.mk.inj (Option.some.inj polled)
        rw [completion_host member] at done
        cases done
      · obtain ⟨ready, future, guest, first, word, envelope, rfl, rfl, drawn, rfl, rfl⟩ :=
          completes_turn polled member done
        exact ⟨number, .of rfl found (Bool.not_eq_true _ ▸ cancelled) task drawn rfl rfl⟩

end Steps

section Wakeups

/-- A `receive` that sleeps has nothing to be woken for. -/
def Awake (mailbox : Mailbox) : Prop := mailbox.waiter = some false → mailbox.entries = []

/-- Who sleeps at an empty mailbox has nothing to be woken for. -/
theorem awake_of_entries {mailbox : Mailbox} (entries : mailbox.entries = []) : Awake mailbox :=
  fun _ => entries

/-- Who does not sleep need not be woken. -/
theorem awake_of_waiter {mailbox : Mailbox} (waiter : mailbox.waiter ≠ some false) :
    Awake mailbox := fun asleep => absurd asleep waiter

/-- A receiver that is dropped leaves no one asleep beside an event. -/
theorem Awake.abandon (mailbox : Mailbox) : Awake mailbox.abandon := by
  apply awake_of_waiter
  simp

/-- A receiver goes to sleep only at an empty mailbox. -/
theorem Awake.receive {mailbox : Mailbox} (awake : Awake mailbox) : Awake mailbox.receive.2 := by
  have spec := mailbox.receive_spec awake
  generalize mailbox.receive = result at spec ⊢
  cases spec with
  | received waiting left recent waiter => exact awake_of_waiter (by rw [waiter]; simp)
  | parked empty left => exact awake_of_entries left

/-- A delivery leaves no one asleep beside an event. -/
theorem Awake.deliver {object : Object} (awake : Awake object.mailbox) (event : Value) :
    Awake (object.deliver event).1.mailbox := by
  have passed : Awake (object.mailbox.deliver event).1 := by
    have spec := object.mailbox.deliver_spec event
    generalize object.mailbox.deliver event = result at spec ⊢
    cases spec with
    | invalid | duplicate | refused => exact awake
    | accepted identified short fresh fits slot room entries bytes recent waiter =>
      exact awake_of_waiter waiter
  unfold Object.deliver
  split
  · exact passed
  · exact passed
  · exact passed
  · exact awake

/-- The end of a stop leaves no one asleep beside an event. -/
theorem Awake.join {object : Object} (awake : Awake object.mailbox) :
    Awake object.join.1.mailbox := by
  rcases object.join_spec with ⟨-, same⟩ | ⟨-, same⟩
  · rw [same]
    exact awake
  · rw [same]
    exact awake_of_entries rfl

/-- What is done to an object from outside leaves no one asleep beside an event. -/
theorem Awake.tended {next : Object} (tended : Object.Tended serial object events next)
    (awake : Awake object.mailbox) : Awake next.mailbox := by
  cases tended with
  | start | cancel | begin => exact awake
  | stop =>
    rcases object.stop_spec with ⟨-, same⟩ | ⟨-, same⟩ | ⟨-, same⟩
    · rw [same]
      apply Awake.join
      exact awake
    · rw [same]
      exact awake
    · rw [same]
      exact awake.join
  | pollStop fits =>
    rcases Object.pollStop_spec fits with ⟨same, -⟩ | ⟨-, same | same⟩
    · rwa [same]
    · rw [same]
      exact awake.join
    · rw [same]
      exact awake_of_entries rfl
  | deliver event => exact awake.deliver event

/-- A poll of the posted future leaves no one asleep beside an event. -/
theorem Awake.pollPosted {guest : Guest} (awake : Awake guest.mailbox) (ready : Ready)
    (future : Posted) : Awake (guest.pollPosted ready future).1.mailbox := by
  cases future with
  | sleep | yield =>
    unfold Guest.pollPosted
    split_ifs <;> exact awake
  | event ms =>
    have received := awake.receive
    simp only [Guest.pollPosted]
    generalize guest.mailbox.receive = result at received ⊢
    obtain ⟨_ | event, mailbox⟩ := result
    · split_ifs
      · exact .abandon mailbox
      · exact received
    · have same := (insert_spec { guest with mailbox, wait := .none } (.json event)).2.1
      rw [same]
      exact received
  | call capability arguments ms =>
    simp only [Guest.pollPosted]
    rw [(drained_settleCall _ _).1]
    exact awake
  | calling call =>
    simp only [Guest.pollPosted]
    rw [(drained_settleCall _ _).1]
    exact awake

/-- No sleeping `sf_event_next` has anything to be woken for. -/
def Roused (runtime : Runtime) : Prop :=
  ∀ serial object, runtime.heap.lookup serial = some object → Awake object.mailbox

/-- A move leaves no receiver asleep beside an event. -/
theorem Roused.move (roused : Roused runtime) (move : Move runtime more after) : Roused after := by
  intro serial object stored
  cases move.became stored with
  | same found => exact roused serial object found
  | loaded => exact awake_of_entries rfl
  | tended found tended => exact .tended tended (roused _ _ found)
  | @worked old context posted next guest found task worked =>
    have awake : Awake (runtime.guest old context).mailbox := roused _ _ found
    cases worked with
    | @helper scope call _ reply invoked =>
      have mailbox := invoke_mailbox (runtime.guest old context) scope call
      rw [invoked] at mailbox
      exact mailbox.symm ▸ awake
    | @stay ready future _ _ first polled | @complete ready future _ first word envelope polled =>
      have slept := awake.pollPosted ready future
      rw [polled] at slept
      exact slept
  | @finished old current context posted result mailbox found ending =>
    rcases result with _ | error | code <;> exact awake_of_entries rfl

/-- In no state of a run does a receiver sleep beside an event. -/
theorem roused_of_execution {history : List (Transition Runtime Action Event)}
    (execution : machine.Execution history runtime) : Roused runtime := by
  refine invariant_of_moves (fun _ runtime => Roused runtime) ?_
    (fun _ roused move => roused.move move) execution
  intro session serial object found
  cases found

end Wakeups

section Spilling

/-- A poll of `sf_event_next` that finds an event, but no room for its handle. -/
inductive Spills (serial : Nat) (transition : Transition Runtime Action Event) : Prop where
  | of {object : Object} {context : GuestContext} {ready : Ready} {clock : Clock}
      {order : List String} {ms : Nat}
      (polls : transition.action = .poll serial (.resume ready) clock order)
      (found : transition.before.heap.lookup serial = some object)
      (going : object.cancel = false)
      (task : object.task = .running context (some (.event ms)))
      (waiting : object.mailbox.entries ≠ [])
      (full : (transition.before.guest object context).Full) : Spills serial transition

/-- What is said of a completion is said of the future that completes. -/
theorem completed_inv {first : List Host.Event} {number : Nat} {future other : Posted}
    {guest : Guest} {word code : Nat} {envelope : Option Value}
    (member : .completed serial other code ∈ first.map .host ++ .completed number future word ::
      handed number guest word envelope) : serial = number ∧ other = future ∧ code = word := by
  rcases List.mem_append.mp member with host | rest
  · obtain ⟨inner, -, same⟩ := List.mem_map.mp host
    cases same
  · rcases List.mem_cons.mp rest with same | handedOver
    · exact Event.completed.inj same
    · unfold handed at handedOver
      split at handedOver
      · split_ifs at handedOver <;> simp at handedOver
      · cases handedOver

/-- What is received in a completion is what the future has taken out. -/
theorem received_inv {first : List Host.Event} {number : Nat} {future : Posted} {guest : Guest}
    {word handle : Nat} {envelope : Option Value} {event : Value}
    (member : .received serial event handle ∈ first.map .host ++ .completed number future word ::
      handed number guest word envelope) :
    serial = number ∧ envelope = some event ∧ handle = word ∧ ¬ guest.Full := by
  rcases List.mem_append.mp member with host | rest
  · obtain ⟨inner, -, same⟩ := List.mem_map.mp host
    cases same
  · have handedOver := (List.mem_cons.mp rest).resolve_left (by simp)
    unfold handed at handedOver
    split at handedOver
    · split_ifs at handedOver with full
      · cases handedOver
      · obtain ⟨rfl, rfl, rfl⟩ := Event.received.inj (List.mem_singleton.mp handedOver)
        exact ⟨rfl, rfl, rfl, full⟩
    · cases handedOver

/-- `sf_event_next` returns `SF_LIMIT` only for an event it has dropped. -/
theorem spills_of_limit {action : Action} {ms : Nat}
    (taken : machine.step runtime action = some (after, events))
    (limited : .completed serial (.event ms) Status.limit.word ∈ events) :
    Spills serial ⟨runtime, action, events, after⟩ := by
  obtain ⟨number, polls, found, going, task, polled, -, rfl⟩ := completes_step taken limited rfl
  obtain ⟨rfl, rfl, rfl⟩ := completed_inv limited
  have spec := drained_of_polled polled
  generalize reached : Status.limit.word = word at spec
  cases spec with
  | other kind => exact absurd rfl (kind ms)
  | idle mailbox empty outcome =>
    obtain ⟨same, -⟩ := Progress.done.inj (outcome.resolve_left (by simp))
    exact absurd (reached.trans same) (by decide)
  | handed oldest room =>
    have plain := not_negative_nextHandle room
    rw [← reached] at plain
    exact absurd (by decide) plain
  | lost oldest full =>
    refine .of polls found going task ?_ full
    intro empty
    have none := congrArg (List.map Prod.fst) empty
    cases none.symm.trans oldest

/-- At the start there is nothing to keep. -/
theorem kept_start (serial : Nat) (session : String) : Kept serial [] { host := { session } } where
  unknown := fun _ => ⟨rfl, rfl⟩
  waiting := by
    intro object found
    cases found

/-- Moves keep what has been accepted, unless a receipt is answered `SF_LIMIT`. -/
theorem Moves.kept (moves : Moves runtime more after) :
    ∀ {events}, Kept serial events runtime → Sound runtime →
      (∀ ms, .completed serial (.event ms) Status.limit.word ∉ more) →
        Kept serial (events ++ more) after := by
  induction moves with
  | refl =>
    intro events kept _ _
    simpa using kept
  | head move _ ih =>
    intro events kept sound served
    rw [← List.append_assoc]
    refine ih (kept.move sound move fun ms limited => ?_) (sound.move move) fun ms limited => ?_
    · exact served ms (List.mem_append_left _ limited)
    · exact served ms (List.mem_append_right _ limited)

/-- As long as nothing is spilled, nothing is lost. -/
theorem kept_of_execution {history : List (Transition Runtime Action Event)}
    (execution : machine.Execution history runtime)
    (clean : ∀ transition ∈ history, ¬ Spills serial transition) :
    Kept serial (trace history) runtime := by
  induction execution with
  | initial valid =>
    obtain ⟨session, rfl⟩ := valid
    exact kept_start serial session
  | @step history state action next events prior taken ih =>
    have kept := ih fun transition member => clean transition (List.mem_append_left _ member)
    have sound := sound_of_reachable prior
    have served : ∀ ms, .completed serial (.event ms) Status.limit.word ∉ events :=
      fun ms limited => clean _ (List.mem_append_right _ List.mem_cons_self)
        (spills_of_limit taken limited)
    simp only [machine, Option.ite_none_left_eq_some] at taken
    simpa using (perform_moves sound taken.2).kept kept sound served

/-- What a spilling poll does: the oldest event is gone. -/
theorem Spills.lost {transition : Transition Runtime Action Event}
    (spills : Spills serial transition) (roused : Roused transition.before)
    (taken : machine.step transition.before transition.action =
      some (transition.after, transition.events)) :
    ∃ object next event, transition.before.heap.lookup serial = some object ∧ object.Active ∧
      transition.after.heap.lookup serial = some next ∧ next.state = object.state ∧
      object.mailbox.events = event :: next.mailbox.events ∧
      admissions serial transition.events = [] ∧ receipts serial transition.events = [] := by
  obtain @⟨object, context, ready, clock, order, ms, polls, found, going, task, waiting, full⟩ :=
    spills
  simp only [polls, machine, Option.ite_none_left_eq_some, perform, pollTask, found,
    Option.bind_some, task, going, Bool.false_eq_true, if_false, Runtime.turn] at taken
  replace taken := taken.2
  have spec := drained (transition.before.guest object context) ready (.event ms)
  generalize (transition.before.guest object context).pollPosted ready (.event ms) = result
    at spec taken
  obtain ⟨guest, first, progress⟩ := result
  cases spec with
  | other kind => exact absurd rfl (kind ms)
  | idle mailbox empty => exact absurd (empty (roused _ _ found)) waiting
  | handed oldest room => exact absurd full room
  | @lost _ event _ oldest =>
    simp only [Option.some.injEq, Prod.mk.injEq, handed, if_pos full] at taken
    obtain ⟨reached, emitted⟩ := taken
    obtain ⟨quiet, silent⟩ := admissions_host serial first
    rw [← reached, ← emitted]
    refine ⟨object, _, event, found, ⟨context, _, task⟩, AList.lookup_insert _, rfl, oldest, ?_, ?_⟩
    · rw [admissions_append, quiet]
      rfl
    · rw [receipts_append, silent]
      rfl

end Spilling

section Claims

variable {history : List (Transition Runtime Action Event)}

/-- What a live guest may rely on at one step of a run: before and after it the events
accepted so far are those it has received and those that wait, a receipt is a handle of
the event, and a call that fails takes nothing. -/
structure Delivered (serial : Nat) (earlier : List Event)
    (transition : Transition Runtime Action Event) : Prop where
  before : ∀ object, transition.before.heap.lookup serial = some object →
    object.state.terminal = false →
      admissions serial earlier = receipts serial earlier ++ object.mailbox.events
  after : ∀ object, transition.after.heap.lookup serial = some object →
    object.state.terminal = false → admissions serial (earlier ++ transition.events) =
      receipts serial (earlier ++ transition.events) ++ object.mailbox.events
  handle : ∀ event handle, .received serial event handle ∈ transition.events →
    (∃ ms, .completed serial (.event ms) handle ∈ transition.events) ∧
      ∃ object context, transition.after.heap.lookup serial = some object ∧
        object.task = .running context none ∧
        context.handles.lookup handle = some (.json event)
  refused : ∀ ms word object next, .completed serial (.event ms) word ∈ transition.events →
    Negative word → transition.before.heap.lookup serial = some object →
    transition.after.heap.lookup serial = some next → next.mailbox.events = object.mailbox.events

/-- No event is lost on the way to a guest exactly if no poll of `sf_event_next` finds
an event while the guest has no room for a handle. -/
theorem events_kept_iff (execution : machine.Execution history runtime) (serial : Nat) :
    (∀ earlier middle later, history = earlier ++ middle :: later →
      Delivered serial (trace earlier) middle) ↔
      ∀ transition ∈ history, ¬ Spills serial transition := by
  constructor
  · intro served transition member spills
    obtain ⟨earlier, later, split⟩ := List.append_of_mem member
    obtain ⟨before, after, -, -⟩ := served earlier transition later split
    obtain ⟨reached, taken⟩ := execution.cut split
    obtain ⟨object, next, event, found, active, stored, state, oldest, quiet, silent⟩ :=
      spills.lost (roused_of_execution reached) taken
    have going : object.state.terminal = false := by
      rcases ((sound_of_reachable reached).object found).1.state_of_active active with
        same | same <;>
        · rw [same]
          rfl
    have kept := before object found going
    have left := after next stored (by rw [state, going])
    rw [admissions_append, receipts_append, quiet, silent, List.append_nil, List.append_nil, kept,
      oldest] at left
    exact List.cons_ne_self event _ (List.append_cancel_left left)
  · intro clean earlier middle later split
    obtain ⟨reached, taken⟩ := execution.cut split
    have first : ∀ transition ∈ earlier, ¬ Spills serial transition := by
      intro transition member
      exact clean transition (split ▸ List.mem_append_left _ member)
    have now : ¬ Spills serial middle :=
      clean middle (split ▸ List.mem_append_right _ List.mem_cons_self)
    have kept := kept_of_execution reached first
    have keeps := @kept_of_execution _ serial _ (reached.step taken) (by
      intro transition member
      rcases List.mem_append.mp member with old | new
      · exact first transition old
      · rwa [List.mem_singleton.mp new])
    constructor
    case before => exact fun object found going => kept.waiting found going
    case after =>
      intro object found going
      simpa using keeps.waiting found going
    case handle =>
      intro event handle received
      obtain ⟨number, @⟨object, context, ready, clock, order, future, guest, inner, word, envelope,
        -, found, -, task, polled, result, emitted⟩⟩ := completes_step taken received rfl
      rw [emitted] at received ⊢
      obtain ⟨rfl, rfl, rfl, room⟩ := received_inv received
      cases drained_of_polled polled with
      | other kind mailbox empty => cases empty _ _ rfl
      | idle mailbox empty outcome =>
        rcases outcome with impossible | impossible <;> cases impossible
      | @handed ms _ _ oldest _ stored =>
        refine ⟨⟨ms, List.mem_append_right _ List.mem_cons_self⟩, ?_⟩
        rw [result]
        exact ⟨_, guest.context, AList.lookup_insert _, rfl, stored⟩
      | lost oldest full => exact absurd full room
    case refused =>
      intro ms word object next completed negative found stored
      obtain ⟨number, @⟨current, context, ready, clock, order, future, guest, inner, code, envelope,
        -, same, -, task, polled, result, emitted⟩⟩ := completes_step taken completed rfl
      have told := completed
      rw [emitted] at told
      obtain ⟨rfl, rfl, rfl⟩ := completed_inv told
      obtain rfl := Option.some.inj (found.symm.trans same)
      rw [result] at stored
      obtain rfl := Option.some.inj ((AList.lookup_insert _).symm.trans stored)
      generalize handled : Posted.event ms = future at polled
      cases drained_of_polled polled with
      | other kind => exact absurd handled.symm (kind ms)
      | idle mailbox => exact mailbox
      | handed oldest room => exact absurd negative (not_negative_nextHandle room)
      | lost => exact absurd (spills_of_limit taken completed) now

/-- Whether the guest of an object has room for one more handle. -/
def roomy (serial : Nat) (runtime : Runtime) : Bool :=
  match runtime.heap.lookup serial with
  | none => true
  | some object =>
    match object.task with
    | .running context _ => !decide (runtime.guest object context).Full
    | _ => true

/-- Where there is room for a handle nothing is spilled. -/
theorem not_spills_of_roomy {transition : Transition Runtime Action Event}
    (room : roomy serial transition.before = true) : ¬ Spills serial transition := by
  rintro ⟨-, found, -, task, -, full⟩
  simp [roomy, found, task, full] at room

/-- Deliver an event to an object whose guest waits for it. -/
def takeOne : List Action :=
  [.load 0 "" .null [], .loaded 0 (.ok true), .start "o1",
    .poll 1 (.helper { helper := .eventNext } blind) ⟨0, 0⟩ [], .deliver "o1" "e" "t" .null,
    .poll 1 (.resume ⟨false, false, ⟨0, 0⟩⟩) ⟨0, 0⟩ []]

/-- That guest gets the event. -/
theorem events_kept_iff_one :
    ∃ history runtime, machine.Execution history runtime ∧
      receipts 1 (trace history) = [envelope "e" "t" .null] ∧
      ∀ earlier middle later, history = earlier ++ middle :: later →
        Delivered 1 (trace earlier) middle := by
  have evaluated : ((machine.run { host := { session := "" } } takeOne).any fun result =>
      decide (receipts 1 (trace result.1) = [envelope "e" "t" .null]) &&
        result.1.all fun transition => roomy 1 transition.before) = true := by decide +kernel
  obtain ⟨history, runtime, execution, tested⟩ := Machine.execution_of_test evaluated ⟨"", rfl⟩
  simp only [Bool.and_eq_true, decide_eq_true_eq, List.all_eq_true] at tested
  refine ⟨history, runtime, execution, tested.1, (events_kept_iff execution 1).mpr ?_⟩
  intro transition member
  exact not_spills_of_roomy (tested.2 transition member)

/-- Deliver an event to an object whose guest holds as many handles as it may, and let
the guest ask for it. -/
def takeWithoutRoom : List Action :=
  [.load 0 "" .null [], .loaded 0 (.ok true), .start "o1"] ++
    List.replicate 128 (.poll 1 (.helper { helper := .jsonObject } blind) ⟨0, 0⟩ []) ++
    [.deliver "o1" "e" "t" .null, .poll 1 (.helper { helper := .eventNext } blind) ⟨0, 0⟩ [],
      .poll 1 (.resume ⟨false, false, ⟨0, 0⟩⟩) ⟨0, 0⟩ []]

/-- The event was accepted, the guest runs, `sf_event_next` has returned `SF_LIMIT`, and
the event is nowhere. -/
theorem event_lost :
    ∃ history runtime object, machine.Execution history runtime ∧
      runtime.heap.lookup 1 = some object ∧ object.state = .running ∧
      .completed 1 (.event 0) Status.limit.word ∈ trace history ∧
      admissions 1 (trace history) = [envelope "e" "t" .null] ∧
      receipts 1 (trace history) = [] ∧ object.mailbox.events = [] := by
  have evaluated : ((machine.run { host := { session := "" } } takeWithoutRoom).any fun result =>
      match result.2.heap.lookup 1 with
      | none => false
      | some object => decide (object.state = .running ∧
          .completed 1 (.event 0) Status.limit.word ∈ trace result.1 ∧
          admissions 1 (trace result.1) = [envelope "e" "t" .null] ∧
          receipts 1 (trace result.1) = [] ∧ object.mailbox.events = [])) = true := by
    decide +kernel
  obtain ⟨history, runtime, execution, tested⟩ := Machine.execution_of_test evaluated ⟨"", rfl⟩
  split at tested
  · cases tested
  · rename_i object found
    exact ⟨history, runtime, object, execution, found, of_decide_eq_true tested⟩

end Claims

end Runtime

end Spinfoam
