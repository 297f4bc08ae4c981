import Spinfoam.Runtime.Moves

/-!
# What a move changes about one object

The moves of the runtime as one object sees them. An invariant about objects and
the events that name them is proved against these few cases.
-/

namespace Spinfoam.Runtime

open Spinfoam.Json Spinfoam.Std Spinfoam.Outbox Spinfoam.Guest Spinfoam.Semantics

/-- The object an event is about. -/
def Event.serial : Event → Option Nat
  | .bound serial _ | .invoked serial | .accepted serial _ | .replied serial _ _
  | .completed serial _ _ | .received serial _ _ => some serial
  | .host _ | .responded _ | .stopped _ _ | .shutdown | .panicked => none

/-- What a guest does in a step of its own, and what is posted before and after. -/
inductive Worked (guest : Guest) (serial : Nat) :
    Option Posted → List Event → Guest → Option Posted → Prop where
  | helper {scope : Scope} {call : HelperCall} {after : Guest} {reply : Reply}
      (invoked : guest.invoke scope call = (after, reply)) :
      Worked guest serial none [.replied serial call reply] after reply.future
  | stay {ready : Ready} {future next : Posted} {after : Guest} {events : List Host.Event}
      (polled : guest.pollPosted ready future = (after, events, .pending next)) :
      Worked guest serial (some future) (events.map .host) after (some next)
  | complete {ready : Ready} {future : Posted} {after : Guest} {events : List Host.Event}
      {word : Nat} {envelope : Option Value}
      (polled : guest.pollPosted ready future = (after, events, .done word envelope)) :
      Worked guest serial (some future)
        (events.map .host ++ .completed serial future word :: handed serial guest word envelope)
        after none

/-- How an object has come to what it is after a move. -/
inductive Became (runtime : Runtime) (events : List Event) (serial : Nat) : Object → Prop where
  | same {object : Object} (found : runtime.heap.lookup serial = some object)
      (quiet : ∀ event ∈ events, event.serial ≠ some serial) : Became runtime events serial object
  | loaded {request : Nat} {load : Load} (waiting : runtime.loads.lookup request = some load)
      (number : load.serial = serial)
      (emitted : events = (runtime.finishLoad request load (.ok true)).2) :
      Became runtime events serial
        { id := objectId load.serial
          hash := load.hash
          config := load.config
          capabilities := load.capabilities }
  | tended {object after : Object} (found : runtime.heap.lookup serial = some object)
      (tended : Object.Tended serial object events after) : Became runtime events serial after
  | worked {object : Object} {context : GuestContext} {posted next : Option Posted} {guest : Guest}
      (found : runtime.heap.lookup serial = some object)
      (task : object.task = .running context posted)
      (worked : Worked (runtime.guest object context) serial posted events guest next) :
      Became runtime events serial
        { object with mailbox := guest.mailbox, wait := guest.wait, task := .running guest.context next }
  | finished {object current : Object} {context : GuestContext} {posted : Option Posted}
      {result : Option (Except String Int)} {mailbox : Mailbox}
      (found : runtime.heap.lookup serial = some object)
      (ending : Ending object result current context posted)
      (quiet : ∀ event ∈ events, event.serial = none) :
      Became runtime events serial (current.settle result mailbox)

variable {runtime after : Runtime} {events : List Event} {serial : Nat} {object : Object}

theorem serial_host {events : List Host.Event} {event : Event} (member : event ∈ events.map .host) :
    event.serial = none := by
  obtain ⟨inner, -, rfl⟩ := List.mem_map.mp member
  rfl

/-- What an object does by itself is about that object. -/
theorem tended_serial {after : Object} (tended : Object.Tended serial object events after)
    {event : Event} (member : event ∈ events) : event.serial = some serial := by
  cases tended with
  | start | stop | pollStop | cancel => cases member
  | deliver value =>
    split_ifs at member
    · rw [List.mem_singleton.mp member]
      rfl
    · cases member
  | begin =>
    rw [List.mem_singleton.mp member]
    rfl

/-- A tended object has the task it had, or one without handles. -/
theorem tended_task {after : Object} (tended : Object.Tended serial object events after) :
    after.task = object.task ∨ object.state = .loaded ∧ after.task = .spawned ∨
      ∃ clock, after.task =
        .running (.new object.id object.config object.capabilities clock) none := by
  have joined : ∀ object : Object, object.join.1.task = object.task := by
    intro object
    rcases object.join_spec with ⟨-, same⟩ | ⟨-, same⟩
    · rw [same]
    · rw [same, Object.release]
  cases tended with
  | start loaded => exact Or.inr (Or.inl ⟨loaded, rfl⟩)
  | stop =>
    left
    rcases object.stop_spec with ⟨-, same⟩ | ⟨-, same⟩ | ⟨-, same⟩
    · rw [same, joined]
    · rw [same]
    · rw [same, joined]
  | pollStop fits =>
    left
    rcases Object.pollStop_spec fits with ⟨same, -⟩ | ⟨-, same | same⟩
    · rw [same]
    · rw [same, joined]
    · rw [same, Object.release]
  | cancel => exact Or.inl rfl
  | deliver event =>
    left
    unfold Object.deliver
    split <;> rfl
  | begin clock => exact Or.inr (Or.inr ⟨clock, rfl⟩)

@[simp] theorem settle_task (object : Object) (result : Option (Except String Int))
    (mailbox : Mailbox) : (object.settle result mailbox).task = .finished := by
  rcases result with _ | error | code <;> rfl

/-- What a guest does is about its object. -/
theorem Worked.subject {guest next : Guest} {posted later : Option Posted}
    (worked : Worked guest serial posted events next later) {event : Event}
    (member : event ∈ events) : event.serial = none ∨ event.serial = some serial := by
  cases worked with
  | helper =>
    rw [List.mem_singleton.mp member]
    exact Or.inr rfl
  | stay => exact Or.inl (serial_host member)
  | @complete ready future _ first word envelope =>
    rcases List.mem_append.mp member with host | rest
    · exact Or.inl (serial_host host)
    · rcases List.mem_cons.mp rest with rfl | handedOver
      · exact Or.inr rfl
      · right
        cases envelope with
        | none => cases handedOver
        | some value =>
          simp only [handed] at handedOver
          split_ifs at handedOver
          · cases handedOver
          · rw [List.mem_singleton.mp handedOver]
            rfl

/-- A move inserts one object, or none. -/
private theorem became_put {number : Nat} {next current : Object} {heap : Map Nat Object}
    (stored : (heap.insert number next).lookup serial = some current)
    (own : number = serial → Became runtime events serial next)
    (other : serial ≠ number → heap.lookup serial = some current →
      Became runtime events serial current) : Became runtime events serial current := by
  obtain ⟨rfl, rfl⟩ | ⟨different, old⟩ := Map.lookup_insert_eq_some stored
  · exact own rfl
  · exact other different old

/-- Every object after a move has come from the state before in one of these ways. -/
theorem Move.became (move : Move runtime events after)
    (stored : after.heap.lookup serial = some object) : Became runtime events serial object := by
  have worked_put : ∀ {number : Nat} {old : Object} {context : GuestContext}
      {posted next : Option Posted} {guest : Guest},
      runtime.heap.lookup number = some old → old.task = .running context posted →
      Worked (runtime.guest old context) number posted events guest next →
      (runtime.absorb number old guest next).heap.lookup serial = some object →
      Became runtime events serial object := by
    intro number old context posted next guest found task worked stored
    refine became_put stored ?_ ?_
    · rintro rfl
      exact .worked found task worked
    · intro different old
      refine .same old ?_
      intro event member same
      rcases worked.subject member with none | own
      · rw [none] at same
        cases same
      · exact different (Option.some.inj (same.symm.trans own))
  cases move with
  | respond | issue | forget | park | unpark | clear | absent =>
    exact .same stored (by simp [Event.serial])
  | @bind request load waiting =>
    refine became_put stored ?_ ?_
    · intro number
      exact .loaded waiting number rfl
    · intro different old
      refine .same old ?_
      intro event member
      simp only [Runtime.finishLoad, List.mem_cons, List.not_mem_nil, or_false] at member
      rcases member with rfl | rfl
      · simpa [Event.serial] using Ne.symm different
      · simp [Event.serial]
  | tend found tended =>
    refine became_put stored ?_ ?_
    · rintro rfl
      exact .tended found tended
    · intro different old
      refine .same old ?_
      intro event member same
      exact different (Option.some.inj (same.symm.trans (tended_serial tended member)))
  | settle found final unload order =>
    refine .same stored ?_
    intro event member
    simp only [Runtime.finishStop, List.mem_append, List.mem_cons, List.not_mem_nil,
      or_false] at member
    rcases member with host | rfl | rfl
    · simp [serial_host host]
    · simp [Event.serial]
    · simp [Event.serial]
  | host moved => exact .same stored fun event member => by simp [serial_host member]
  | helper found task invoked => exact worked_put found task (.helper invoked) stored
  | stay found task polled => exact worked_put found task (.stay polled) stored
  | complete found task polled => exact worked_put found task (.complete polled) stored
  | finish found ending order =>
    rw [finish_eq] at stored ⊢
    refine became_put stored ?_ ?_
    · rintro rfl
      exact .finished found ending fun event member => serial_host member
    · intro _ old
      exact .same old fun event member => by simp [serial_host member]

end Spinfoam.Runtime
