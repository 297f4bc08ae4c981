import Spinfoam.Runtime.Lifecycle

/-!
# Concurrent stops

Any number of stops may wait for one object, each of them may be dropped, and the
object may end by itself at any time. A stop waits for a notification only while
the task is still to give it, and what is left for it to do only ever shrinks.
-/

namespace Spinfoam.Runtime

open Spinfoam.Json Spinfoam.Std Spinfoam.Guest Spinfoam.Semantics

/-- The objects a suspended call has still to stop. -/
def StopCall.targets (call : StopCall) : List Nat :=
  call.object ::
    match call.purpose with
    | .request _ => []
    | .shutdown rest => rest

/-- The polls a call still needs for the object it waits for, before the last. -/
def polls : Object.StopPhase → Nat
  | .parked false => 2
  | .parked true => 1
  | .joining => 0

/-- How far a suspended call is from its end. -/
def StopCall.rank (call : StopCall) : Nat := 3 * call.targets.length + polls call.phase

/-- What a suspended call waits for: a poll of the task, or its own next poll. -/
def StopCall.awaited (call : StopCall) (request : Nat) (turn : Turn) (clock : Clock)
    (order : List String) : Action :=
  match call.phase with
  | .parked false => .poll call.object turn clock order
  | _ => .pollStop request order

/-- The call that an action is a poll of, or drops. -/
def Action.halts : Action → Option Nat
  | .stop request _ _ _ | .shutdown request | .pollStop request _ | .dropStop request =>
    some request
  | _ => none

/-- The call that an action begins, and the objects it is to stop one after the
other. -/
def begins (runtime : Runtime) : Action → Option (Nat × List Nat)
  | .stop request id _ _ => some (request, (runtime.get id).toList.map Prod.fst)
  | .shutdown request => some (request, runtime.ordered)
  | _ => none

/-- The object with this number has been stopped and let go. -/
def ReleasedAt (runtime : Runtime) (serial : Nat) : Prop :=
  ∃ object, runtime.heap.lookup serial = some object ∧ object.Released

/-- How far a call has come with the objects it was to stop: those it has passed
are released, and it is suspended on the rest or has returned. -/
structure Served (runtime : Runtime) (request : Nat) (serials : List Nat) : Prop where
  known : ∀ serial ∈ serials, serial ∈ runtime.heap
  passed : ∃ passed : List Nat, (∀ serial ∈ passed, runtime.ReleasedAt serial) ∧
    (serials = passed ∨ ∃ call, runtime.stops.lookup request = some call ∧
      serials = passed ++ call.targets)

variable {runtime after : Runtime} {events : List Event}

section Released

variable {object next : Object} {serial : Nat}

theorem released_join (released : object.Released) : object.join.1.Released := by
  rcases object.join_spec with ⟨-, same⟩ | ⟨-, same⟩
  · rw [same]
    exact ⟨released.final, released.program, released.config, released.mailbox⟩
  · rw [same]
    exact Object.released_release released.final

/-- What is done to an object that holds nothing gives it nothing. -/
theorem released_tended (tended : Object.Tended serial object events next) (sound : object.Sound)
    (released : object.Released) : next.Released := by
  have isOpen : ∀ {state : State}, state.terminal = false → object.state ≠ state := by
    rintro state isOpen rfl
    rw [released.final] at isOpen
    cases isOpen
  cases tended with
  | start loaded => exact absurd loaded (isOpen rfl)
  | stop =>
    rcases object.stop_spec with ⟨state, -⟩ | ⟨state | state | state, -⟩ | ⟨-, same⟩
    · exact absurd state (isOpen rfl)
    · exact absurd state (isOpen rfl)
    · exact absurd state (isOpen rfl)
    · exact absurd state (isOpen rfl)
    · rw [same]
      exact released_join released
  | pollStop fits =>
    rcases Object.pollStop_spec fits with ⟨same, -⟩ | ⟨final, same | same⟩
    · rwa [same]
    · rw [same]
      exact released_join released
    · rw [same]
      exact Object.released_release final
  | cancel => exact ⟨released.final, released.program, released.config, released.mailbox⟩
  | deliver event =>
    unfold Object.deliver
    split
    · rename_i state
      exact absurd state (isOpen rfl)
    · rename_i state
      exact absurd state (isOpen rfl)
    · rename_i state
      exact absurd state (isOpen rfl)
    · exact released
  | begin clock spawned =>
    rcases sound.state_of_spawned spawned with state | state
    · exact absurd state (isOpen rfl)
    · exact absurd state (isOpen rfl)

theorem ReleasedAt.put {number : Nat} (released : runtime.ReleasedAt serial)
    (keeps : number = serial → next.Released) : (runtime.put number next).ReleasedAt serial := by
  obtain ⟨object, found, held⟩ := released
  by_cases same : serial = number
  · subst same
    exact ⟨next, AList.lookup_insert _, keeps rfl⟩
  · exact ⟨object, (AList.lookup_insert_ne same).trans found, held⟩

/-- An object that holds nothing has no guest and is not to get one. -/
theorem ReleasedAt.idle (released : runtime.ReleasedAt serial) (sound : Sound runtime)
    (found : runtime.heap.lookup serial = some object) :
    object.task ≠ .spawned ∧ ¬ object.Active := by
  obtain ⟨current, stored, held⟩ := released
  obtain rfl : object = current := Option.some.inj (found.symm.trans stored)
  have good := (sound.object found).1
  refine ⟨?_, good.not_active held.final⟩
  intro spawned
  rcases (good.terminal held.final).1 with task | task <;>
    · rw [spawned] at task
      cases task

/-- An object that has been let go stays so. -/
theorem Move.releasedAt (move : Move runtime events after) (sound : Sound runtime)
    (released : runtime.ReleasedAt serial) : after.ReleasedAt serial := by
  have absorbed : ∀ {number : Nat} {object next : Object},
      runtime.heap.lookup number = some object → object.Active →
      (runtime.put number next).ReleasedAt serial := by
    intro number object next found active
    refine released.put ?_
    rintro rfl
    exact absurd active (released.idle sound found).2
  cases move with
  | bind waiting =>
    obtain ⟨object, found, -⟩ := id released
    refine ReleasedAt.put released ?_
    rintro rfl
    exact absurd (Map.mem_of_lookup found) (sound.loading waiting).2
  | @tend number object next events found tended =>
    refine released.put ?_
    rintro rfl
    obtain ⟨current, stored, held⟩ := id released
    obtain rfl : object = current := Option.some.inj (found.symm.trans stored)
    exact released_tended tended (sound.object found).1 held
  | helper found task => exact absorbed found ⟨_, _, task⟩
  | stay found task => exact absorbed found ⟨_, _, task⟩
  | complete found task => exact absorbed found ⟨_, _, task⟩
  | finish found ending order =>
    refine ReleasedAt.put released ?_
    rintro rfl
    cases ending with
    | running task => exact absurd ⟨_, _, task⟩ (released.idle sound found).2
    | spawned clock task => exact absurd task (released.idle sound found).1
  | _ => exact released

theorem Moves.releasedAt (moves : Moves runtime events after) (sound : Sound runtime)
    (released : runtime.ReleasedAt serial) : after.ReleasedAt serial := by
  induction moves with
  | refl => exact released
  | head move _ ih => exact ih (sound.move move) (move.releasedAt sound released)

theorem Moves.known (moves : Moves runtime events after) (member : serial ∈ runtime.heap) :
    serial ∈ after.heap := by
  induction moves with
  | refl => exact member
  | head move _ ih => exact ih (move.known member)

end Released

section Serving

variable {request : Nat} {serials : List Nat}

/-- Nothing that is done to other calls holds a call up. -/
theorem Served.moves (served : Served runtime request serials) (sound : Sound runtime)
    (moves : Moves runtime events after)
    (kept : ∀ call, runtime.stops.lookup request = some call →
      ∃ next, after.stops.lookup request = some next ∧ next.targets = call.targets) :
    Served after request serials := by
  obtain ⟨known, passed, released, ends⟩ := served
  refine ⟨fun serial member => moves.known (known serial member), passed,
    fun serial member => moves.releasedAt sound (released serial member), ?_⟩
  rcases ends with whole | ⟨call, waiting, parts⟩
  · exact Or.inl whole
  · obtain ⟨next, found, same⟩ := kept call waiting
    exact Or.inr ⟨next, found, by rw [same, parts]⟩

/-- A call that goes on with the rest of its objects. -/
theorem Served.append {front : List Nat} (served : Served runtime request serials)
    (released : ∀ serial ∈ front, runtime.ReleasedAt serial) :
    Served runtime request (front ++ serials) := by
  obtain ⟨known, passed, more, ends⟩ := served
  refine ⟨?_, front ++ passed, ?_, ?_⟩
  · intro serial member
    rcases List.mem_append.mp member with early | late
    · obtain ⟨object, found, -⟩ := released serial early
      exact Map.mem_of_lookup found
    · exact known serial late
  · intro serial member
    rcases List.mem_append.mp member with early | late
    · exact released serial early
    · exact more serial late
  · rcases ends with rfl | ⟨call, waiting, rfl⟩
    · exact Or.inl rfl
    · exact Or.inr ⟨call, waiting, (List.append_assoc ..).symm⟩

/-- `Runtime::shutdown` goes through its objects in their order. -/
theorem served_shutdownFrom (sound : Sound runtime) (request : Nat)
    (stored : ∀ serial ∈ serials, serial ∈ runtime.heap) :
    Served (runtime.shutdownFrom request serials).1 request serials := by
  induction serials generalizing runtime with
  | nil => exact ⟨by simp, [], by simp, Or.inl rfl⟩
  | cons serial rest ih =>
    obtain ⟨object, found⟩ := Option.isSome_iff_exists.mp
      (AList.lookup_isSome.mpr (stored serial List.mem_cons_self))
    have tended : Object.Tended serial object [] object.stop.1 := .stop
    have halted := object.halted_stop
    simp only [shutdownFrom, found]
    generalize object.stop = result at tended halted ⊢
    have move : Move runtime [] (runtime.put serial result.1) := .tend found tended
    have later : ∀ other ∈ serial :: rest, other ∈ (runtime.put serial result.1).heap :=
      fun other member => move.known (stored other member)
    obtain ⟨next, _ | phase⟩ := result
    · have good := sound.move move
      have served := ih good fun other member => later other (List.mem_cons_of_mem _ member)
      have released : ReleasedAt (runtime.put serial next) serial :=
        ⟨next, AList.lookup_insert _, halted⟩
      have still := (shutdownFrom_moves _ request rest).releasedAt good released
      exact @Served.append _ _ _ [serial] served (by simpa using still)
    · exact ⟨later, [], by simp, Or.inr ⟨_, AList.lookup_insert _, rfl⟩⟩

/-- The end of a poll of `Object::stop` ends the call or takes it further. -/
theorem served_proceed (sound : Sound runtime) {serial : Nat} {object : Object}
    {result : Object × Option Object.StopPhase}
    (found : runtime.heap.lookup serial = some object)
    (tended : Object.Tended serial object [] result.1) (halted : Object.Halted result)
    (request : Nat) (purpose : Purpose) (order : List String) (phase : Object.StopPhase)
    (stored : ∀ other ∈ (StopCall.mk serial phase purpose).targets, other ∈ runtime.heap) :
    Served (runtime.proceed request serial purpose order result).1 request
      (StopCall.mk serial phase purpose).targets := by
  have move : Move runtime [] (runtime.put serial result.1) := .tend found tended
  have later : ∀ other ∈ (StopCall.mk serial phase purpose).targets,
      other ∈ (runtime.put serial result.1).heap :=
    fun other member => move.known (stored other member)
  obtain ⟨next, _ | parked⟩ := result
  · have good := (sound.move move).move (.unpark request)
    have released : ReleasedAt { runtime.put serial next with
        stops := runtime.stops.erase request } serial :=
      ⟨next, AList.lookup_insert _, halted⟩
    cases purpose with
    | request unload =>
      refine ⟨later, [serial], ?_, Or.inl rfl⟩
      rintro other member
      obtain rfl := List.mem_singleton.mp member
      exact released
    | shutdown rest =>
      have served := served_shutdownFrom good request
        fun other member => later other (List.mem_cons_of_mem _ member)
      have still := (shutdownFrom_moves _ request rest).releasedAt good released
      exact @Served.append _ _ _ [serial] served fun other member => List.mem_singleton.mp member ▸ still
  · exact ⟨later, [], by simp, Or.inr ⟨_, AList.lookup_insert _, rfl⟩⟩

end Serving

section Bystanders

variable {request other : Nat}

/-- What becomes of a suspended call while others are polled. -/
inductive Undisturbed : Option StopCall → Option StopCall → Prop where
  | same {waiting : Option StopCall} : Undisturbed waiting waiting
  | woken {call : StopCall} (serial : Nat) : Undisturbed (some call) (some (call.wake serial))

theorem stops_shutdownFrom (different : other ≠ request) (runtime : Runtime)
    (serials : List Nat) :
    (runtime.shutdownFrom request serials).1.stops.lookup other = runtime.stops.lookup other := by
  induction serials generalizing runtime with
  | nil => exact AList.lookup_erase_ne different
  | cons serial rest ih =>
    unfold shutdownFrom
    split
    · exact ih runtime
    · split
      · exact AList.lookup_insert_ne different
      · exact ih _

theorem stops_proceed (different : other ≠ request) (runtime : Runtime) (serial : Nat)
    (purpose : Purpose) (order : List String) (result : Object × Option Object.StopPhase) :
    (runtime.proceed request serial purpose order result).1.stops.lookup other =
      runtime.stops.lookup other := by
  obtain ⟨object, _ | phase⟩ := result
  · cases purpose with
    | request unload => exact AList.lookup_erase_ne different
    | shutdown rest =>
      exact (stops_shutdownFrom different _ rest).trans (AList.lookup_erase_ne different)
  · exact AList.lookup_insert_ne different

theorem undisturbed_finish (runtime : Runtime) (serial : Nat) (object : Object)
    (context : GuestContext) (posted : Option Posted) (result : Option (Except String Int))
    (order : List String) (request : Nat) :
    Undisturbed (runtime.stops.lookup request)
      ((runtime.finish serial object context posted result order).1.stops.lookup request) := by
  rw [finish_eq]
  simp only [notifyDone, put, Map.lookup_mapValues]
  cases runtime.stops.lookup request with
  | none => exact .same
  | some call => exact .woken serial

theorem undisturbed_turn {serial : Nat} {object : Object} {context : GuestContext}
    {posted : Option Posted} {order : List String} {turn : Turn}
    (taken : runtime.turn serial object context posted order turn = some (after, events))
    (request : Nat) :
    Undisturbed (runtime.stops.lookup request) (after.stops.lookup request) := by
  cases turn with
  | idle =>
    obtain rfl := congrArg Prod.fst (Option.some.inj taken)
    exact .same
  | helper call scope =>
    cases posted with
    | some future => cases taken
    | none =>
      obtain rfl := congrArg Prod.fst (Option.some.inj taken)
      exact .same
  | resume ready =>
    cases posted with
    | none => cases taken
    | some future =>
      simp only [Runtime.turn] at taken
      split at taken
      · obtain rfl := congrArg Prod.fst (Option.some.inj taken)
        exact .same
      · obtain rfl := congrArg Prod.fst (Option.some.inj taken)
        exact .same
  | finish result =>
    obtain rfl := congrArg Prod.fst (Option.some.inj taken)
    exact undisturbed_finish ..

theorem undisturbed_pollTask {serial : Nat} {turn : Turn} {clock : Clock} {order : List String}
    (taken : runtime.pollTask serial turn clock order = some (after, events)) (request : Nat) :
    Undisturbed (runtime.stops.lookup request) (after.stops.lookup request) := by
  simp only [Runtime.pollTask, Option.bind_eq_some_iff] at taken
  obtain ⟨object, found, taken⟩ := taken
  split at taken
  · cases taken
  · cases taken
  · split_ifs at taken
    · obtain rfl := congrArg Prod.fst (Option.some.inj taken)
      exact undisturbed_finish ..
    · obtain ⟨⟨last, later⟩, turned, same⟩ := Option.map_eq_some_iff.mp taken
      obtain rfl := congrArg Prod.fst same
      exact undisturbed_turn turned request
  · split_ifs at taken
    · obtain rfl := congrArg Prod.fst (Option.some.inj taken)
      exact undisturbed_finish ..
    · exact undisturbed_turn taken request

/-- A step that is no poll of a call leaves it where it is, or wakes it. -/
theorem undisturbed_perform {action : Action}
    (taken : runtime.perform action = some (after, events))
    (foreign : action.halts ≠ some request) :
    Undisturbed (runtime.stops.lookup request) (after.stops.lookup request) := by
  have quiet : ∀ {next : Runtime}, next.stops.lookup request = runtime.stops.lookup request →
      Undisturbed (runtime.stops.lookup request) (next.stops.lookup request) := by
    intro next same
    rw [same]
    exact .same
  have different : ∀ {number : Nat}, some number ≠ some request → request ≠ number :=
    fun number same => number (congrArg some same.symm)
  cases action with
  | load number hash config capabilities =>
    simp only [perform, Option.ite_none_left_eq_some] at taken
    obtain rfl : (runtime.load number hash config capabilities).1 = after :=
      congrArg Prod.fst (Option.some.inj taken.2)
    apply quiet
    unfold Runtime.load
    split_ifs <;> rfl
  | loaded number result =>
    simp only [perform, Option.map_eq_some_iff] at taken
    obtain ⟨load, -, same⟩ := taken
    obtain rfl := congrArg Prod.fst same
    rcases result with error | main
    · exact .same
    · cases main <;> exact .same
  | dropLoad | status | response | close =>
    obtain rfl := congrArg Prod.fst (Option.some.inj taken)
    exact .same
  | start id =>
    obtain rfl : (runtime.start id).1 = after := congrArg Prod.fst (Option.some.inj taken)
    apply quiet
    unfold Runtime.start
    split
    · rfl
    · split_ifs <;> rfl
  | stop number id unload order =>
    simp only [perform, Option.ite_none_left_eq_some] at taken
    obtain rfl : (runtime.stop number id unload order).1 = after :=
      congrArg Prod.fst (Option.some.inj taken.2)
    apply quiet
    unfold Runtime.stop
    split
    · rfl
    · exact stops_proceed (different foreign) ..
  | shutdown number =>
    simp only [perform, Option.ite_none_left_eq_some] at taken
    obtain rfl : (runtime.shutdown number).1 = after :=
      congrArg Prod.fst (Option.some.inj taken.2)
    have cancelled : ∀ (serials : List Nat) (runtime : Runtime),
        (runtime.cancelAll serials).stops = runtime.stops := by
      intro serials
      induction serials with
      | nil => exact fun runtime => rfl
      | cons serial rest ih =>
        intro runtime
        unfold cancelAll
        split
        · exact ih runtime
        · exact (ih _).trans rfl
    exact quiet ((stops_shutdownFrom (different foreign) _ _).trans (by rw [cancelled]))
  | pollStop number order =>
    simp only [perform, Option.bind_eq_some_iff, Option.map_eq_some_iff] at taken
    obtain ⟨call, waiting, object, found, same⟩ := taken
    obtain rfl := congrArg Prod.fst same
    exact quiet (stops_proceed (different foreign) ..)
  | dropStop number =>
    obtain rfl := congrArg Prod.fst (Option.some.inj taken)
    exact quiet (AList.lookup_erase_ne (different foreign))
  | deliver id eventId topic payload =>
    obtain rfl : (runtime.deliver id eventId topic payload).1 = after :=
      congrArg Prod.fst (Option.some.inj taken)
    apply quiet
    unfold Runtime.deliver
    split_ifs
    · rfl
    · split <;> rfl
  | poll serial turn clock order => exact undisturbed_pollTask taken request
  | next =>
    simp only [perform] at taken
    split at taken
    · obtain rfl := congrArg Prod.fst (Option.some.inj taken)
      exact .same
    · obtain rfl := congrArg Prod.fst (Option.some.inj taken)
      exact .same
  | control value =>
    simp only [perform, Option.ite_none_right_eq_some] at taken
    obtain rfl := congrArg Prod.fst (Option.some.inj taken.2)
    exact .same

end Bystanders

section Progress

variable {request : Nat} {call next : StopCall}

@[simp] theorem StopCall.targets_wake (call : StopCall) (serial : Nat) :
    (call.wake serial).targets = call.targets := by
  unfold StopCall.wake
  split
  · split_ifs <;> rfl
  · rfl

theorem polls_le (phase : Object.StopPhase) : polls phase ≤ 2 := by
  unfold polls
  split <;> omega

/-- A wakeup brings a call nearer to its end, if it changes anything. -/
theorem StopCall.rank_wake_le (call : StopCall) (serial : Nat) :
    (call.wake serial).rank ≤ call.rank := by
  have shrinks : polls (call.wake serial).phase ≤ polls call.phase := by
    obtain ⟨object, phase, purpose⟩ := call
    cases phase with
    | parked woken =>
      by_cases same : object = serial
      · cases woken <;> simp [StopCall.wake, same, polls]
      · simp [StopCall.wake, same]
    | joining => exact le_refl _
  simp only [StopCall.rank, StopCall.targets_wake]
  omega

/-- Who goes on to the rest of its objects is nearer to its end. -/
theorem rank_shutdownFrom {serials : List Nat}
    (waiting : (runtime.shutdownFrom request serials).1.stops.lookup request = some next) :
    next.rank ≤ 3 * serials.length + 2 := by
  induction serials generalizing runtime with
  | nil =>
    simp only [shutdownFrom, AList.lookup_erase] at waiting
    cases waiting
  | cons serial rest ih =>
    unfold shutdownFrom at waiting
    rw [List.length_cons]
    split at waiting
    · have := ih waiting
      omega
    · split at waiting
      · rename_i phase _
        rw [AList.lookup_insert] at waiting
        obtain rfl := Option.some.inj waiting
        have := polls_le phase
        simp only [StopCall.rank, StopCall.targets, List.length_cons]
        omega
      · have := ih waiting
        omega

/-- A poll of a call brings it nearer to its end unless it still waits for a
wakeup. -/
theorem rank_proceed {serial : Nat} {object : Object} {phase : Object.StopPhase}
    {purpose : Purpose} {order : List String} (sound : object.Sound) (fits : object.Fits phase)
    (waiting : (runtime.proceed request serial purpose order
      (object.pollStop phase)).1.stops.lookup request = some next) :
    next.rank ≤ (StopCall.mk serial phase purpose).rank ∧
      (phase ≠ .parked false → next.rank < (StopCall.mk serial phase purpose).rank) := by
  -- a call that goes on waiting for the same object is a poll further
  have later : ∀ more, (object.pollStop phase).2 = some more →
      polls more ≤ polls phase ∧ (phase ≠ .parked false → polls more < polls phase) := by
    intro more goes
    cases phase with
    | parked woken =>
      cases woken with
      | false =>
        obtain rfl : Object.StopPhase.parked false = more := Option.some.inj goes
        exact ⟨le_refl _, fun moved => absurd rfl moved⟩
      | true =>
        have joins : object.pollStop (.parked true) = object.join :=
          if_neg fun stopping => Object.not_terminal_of_stopping stopping fits
        rw [joins] at goes
        rcases object.join_spec with ⟨-, same⟩ | ⟨-, same⟩
        · rw [same] at goes
          obtain rfl := Option.some.inj goes
          exact ⟨by decide, fun _ => by decide⟩
        · rw [same] at goes
          cases goes
    | joining =>
      unfold Object.pollStop at goes
      rcases (sound.terminal fits).1 with task | task <;>
        · rw [task] at goes
          cases goes
  generalize object.pollStop phase = result at later waiting
  obtain ⟨after, _ | more⟩ := result
  · cases purpose with
    | request unload =>
      have ended := AList.lookup_erase (a := request) runtime.stops
      cases ended.symm.trans waiting
    | shutdown rest =>
      have shorter := rank_shutdownFrom waiting
      have smaller : next.rank < (StopCall.mk serial phase (.shutdown rest)).rank := by
        change next.rank < 3 * (rest.length + 1) + polls phase
        omega
      exact ⟨smaller.le, fun _ => smaller⟩
  · obtain ⟨fewer, less⟩ := later more rfl
    obtain rfl : StopCall.mk serial more purpose = next :=
      Option.some.inj ((AList.lookup_insert _).symm.trans waiting)
    simp only [StopCall.rank, StopCall.targets]
    refine ⟨by omega, fun moved => ?_⟩
    have := less moved
    omega

/-- No step takes a call further from its end. -/
theorem rank_perform (sound : Sound runtime) {action : Action}
    (taken : runtime.perform action = some (after, events))
    (before : runtime.stops.lookup request = some call)
    (waiting : after.stops.lookup request = some next) : next.rank ≤ call.rank := by
  by_cases foreign : action.halts = some request
  · cases action with
    | stop number id unload order =>
      simp only [perform, Option.ite_none_left_eq_some] at taken
      obtain rfl := Option.some.inj foreign
      exact absurd (Map.mem_of_lookup before) taken.1
    | shutdown number =>
      simp only [perform, Option.ite_none_left_eq_some] at taken
      obtain rfl := Option.some.inj foreign
      exact absurd (Map.mem_of_lookup before) taken.1
    | pollStop number order =>
      obtain rfl := Option.some.inj foreign
      simp only [perform, before, Option.bind_some, Option.map_eq_some_iff] at taken
      obtain ⟨object, found, same⟩ := taken
      obtain ⟨current, stored, fits⟩ := sound.stops before
      obtain rfl : object = current := Option.some.inj (found.symm.trans stored)
      obtain rfl := congrArg Prod.fst same
      exact (rank_proceed (sound.object found).1 fits waiting).1
    | dropStop number =>
      obtain rfl := Option.some.inj foreign
      obtain rfl := congrArg Prod.fst (Option.some.inj taken)
      cases (AList.lookup_erase _ _).symm.trans waiting
    | _ => cases foreign
  · have step := undisturbed_perform taken foreign
    rw [before, waiting] at step
    cases step with
    | same => exact le_refl _
    | woken serial => exact call.rank_wake_le serial

/-- Whoever waits for a wakeup waits for a task that is cancelled and still to
run. -/
theorem parked_spec (sound : Sound runtime) (waiting : runtime.stops.lookup request = some call)
    (parked : call.phase = .parked false) :
    ∃ object, runtime.heap.lookup call.object = some object ∧ object.state = .stopping ∧
      object.cancel = true ∧ (object.task = .spawned ∨ object.Active) := by
  obtain ⟨object, found, fits⟩ := sound.stops waiting
  rw [parked] at fits
  obtain ⟨cancelled, task⟩ := (sound.object found).1.stopping fits
  exact ⟨object, found, fits, cancelled, task⟩

/-- What a call waits for can happen, and brings it nearer to its end. -/
theorem awaited_step (sound : Sound runtime)
    (waiting : runtime.stops.lookup request = some call) (turn : Turn) (clock : Clock)
    (order : List String) :
    ∃ after events,
      runtime.perform (call.awaited request turn clock order) = some (after, events) ∧
        ∀ next, after.stops.lookup request = some next → next.rank < call.rank := by
  by_cases parked : call.phase = .parked false
  · obtain ⟨object, found, -, cancelled, task⟩ := parked_spec sound waiting parked
    have woken : ∀ current context posted next,
        (runtime.finish call.object current context posted none order).1.stops.lookup request =
          some next → next.rank < call.rank := by
      intro current context posted next finished
      simp only [finish_eq, notifyDone, put, Map.lookup_mapValues, waiting, Option.map_some,
        Option.some.injEq] at finished
      subst finished
      have phase : (call.wake call.object).phase = .parked true := by
        simp [StopCall.wake, parked]
      simp only [StopCall.rank, StopCall.targets_wake, phase, parked, polls]
      omega
    simp only [StopCall.awaited, parked, perform, pollTask, found, Option.bind_some]
    rcases task with spawned | ⟨context, posted, active⟩
    · have begun : (object.begin clock).cancel = true := cancelled
      simp only [spawned, begun, if_true]
      exact ⟨_, _, rfl, woken (object.begin clock)
        (.new object.id object.config object.capabilities clock) none⟩
    · simp only [active, cancelled, if_true]
      exact ⟨_, _, rfl, woken object context posted⟩
  · obtain ⟨object, found, fits⟩ := sound.stops waiting
    have polled : call.awaited request turn clock order = .pollStop request order := by
      unfold StopCall.awaited
      split
      · rename_i same
        exact absurd same parked
      · rfl
    rw [polled]
    simp only [perform, waiting, found, Option.bind_some, Option.map_some]
    exact ⟨_, _, rfl, fun next later =>
      (rank_proceed (sound.object found).1 fits later).2 parked⟩

end Progress

section Runs

variable {request : Nat} {serials : List Nat} {history : List (Transition Runtime Action Event)}

/-- A call that begins is told its objects. -/
theorem served_begin (sound : Sound runtime) {action : Action}
    (taken : runtime.perform action = some (after, events))
    (begun : runtime.begins action = some (request, serials)) : Served after request serials := by
  cases action with
  | stop number id unload order =>
    simp only [perform, Option.ite_none_left_eq_some] at taken
    obtain rfl : (runtime.stop number id unload order).1 = after :=
      congrArg Prod.fst (Option.some.inj taken.2)
    simp only [begins, Option.some.injEq, Prod.mk.injEq] at begun
    obtain ⟨rfl, rfl⟩ := begun
    unfold Runtime.stop
    split
    · rename_i missing
      rw [missing]
      exact ⟨by simp, [], by simp, Or.inl rfl⟩
    · rename_i serial object got
      rw [got]
      have found := (sound.get_eq_some got).1
      refine served_proceed sound found .stop object.halted_stop number (.request unload) order
        .joining ?_
      rintro other member
      obtain rfl := List.mem_singleton.mp member
      exact Map.mem_of_lookup found
  | shutdown number =>
    simp only [perform, Option.ite_none_left_eq_some] at taken
    obtain rfl : (runtime.shutdown number).1 = after :=
      congrArg Prod.fst (Option.some.inj taken.2)
    simp only [begins, Option.some.injEq, Prod.mk.injEq] at begun
    obtain ⟨rfl, rfl⟩ := begun
    have cancelled := cancelAll_moves runtime runtime.ordered
    refine served_shutdownFrom (sound.moves cancelled) number ?_
    intro serial member
    obtain ⟨id, listed⟩ := mem_ordered.mp member
    exact cancelled.known (sound.bound listed).2
  | _ => cases begun

/-- A call that is not dropped goes on with its objects in every step. -/
theorem Served.perform (served : Served runtime request serials) (sound : Sound runtime)
    {action : Action} (taken : runtime.perform action = some (after, events))
    (kept : action ≠ .dropStop request) : Served after request serials := by
  have moves := perform_moves sound taken
  by_cases foreign : action.halts = some request
  · cases action with
    | stop number id unload order =>
      simp only [Runtime.perform, Option.ite_none_left_eq_some] at taken
      obtain rfl := Option.some.inj foreign
      exact served.moves sound moves fun call waiting =>
        absurd (Map.mem_of_lookup waiting) taken.1
    | shutdown number =>
      simp only [Runtime.perform, Option.ite_none_left_eq_some] at taken
      obtain rfl := Option.some.inj foreign
      exact served.moves sound moves fun call waiting =>
        absurd (Map.mem_of_lookup waiting) taken.1
    | pollStop number order =>
      obtain rfl := Option.some.inj foreign
      obtain ⟨known, passed, released, ends⟩ := served
      have still : ∀ serial ∈ passed, after.ReleasedAt serial :=
        fun serial member => moves.releasedAt sound (released serial member)
      rcases ends with whole | ⟨call, waiting, rfl⟩
      · exact ⟨fun serial member => moves.known (known serial member), passed, still,
          Or.inl whole⟩
      · simp only [Runtime.perform, waiting, Option.bind_some, Option.map_eq_some_iff] at taken
        obtain ⟨object, found, same⟩ := taken
        obtain ⟨current, stored, fits⟩ := sound.stops waiting
        obtain rfl : object = current := Option.some.inj (found.symm.trans stored)
        obtain rfl := congrArg Prod.fst same
        have further := served_proceed sound found (.pollStop fits) (Object.halted_pollStop fits)
          number call.purpose order call.phase
          fun other member => known other (List.mem_append_right _ member)
        exact further.append still
    | dropStop number =>
      obtain rfl := Option.some.inj foreign
      exact absurd rfl kept
    | _ => cases foreign
  · refine served.moves sound moves ?_
    intro call waiting
    have step := undisturbed_perform taken foreign
    rw [waiting] at step
    generalize after.stops.lookup request = last at step
    cases step with
    | same => exact ⟨call, rfl, rfl⟩
    | woken serial => exact ⟨_, rfl, call.targets_wake serial⟩

theorem Served.steps (served : Served runtime request serials) (sound : Sound runtime)
    (steps : machine.Steps runtime history after)
    (kept : ∀ transition ∈ history, transition.action ≠ .dropStop request) :
    Served after request serials := by
  induction steps with
  | refl => exact served
  | step taken rest ih =>
    simp only [machine, Option.ite_none_left_eq_some] at taken
    have first := kept _ List.mem_cons_self
    exact ih (served.perform sound taken.2 first) (sound.moves (perform_moves sound taken.2))
      fun transition member => kept transition (List.mem_cons_of_mem _ member)

/-- However many stops, unloads and shutdowns run side by side, whichever of them
are dropped, and whatever the objects do meanwhile: a stop is parked on the
notification only while the object is stopping, with a cancelled task that has not
finished. What a suspended call waits for can always happen and takes it nearer to
its end, which no step takes it away from. A call that has returned has left every
object it was to stop in a terminal state, with program, configuration and mailbox
released. -/
theorem stops_cannot_hang (execution : machine.Execution history runtime) :
    (∀ request call, runtime.stops.lookup request = some call →
      ∃ object, runtime.heap.lookup call.object = some object ∧
        (call.phase = .parked false → object.state = .stopping ∧ object.cancel = true ∧
          (object.task = .spawned ∨ object.Active)) ∧
        (call.phase ≠ .parked false → object.state.terminal = true)) ∧
    (∀ request call turn clock order, runtime.stops.lookup request = some call →
      ∃ after events,
        machine.step runtime (call.awaited request turn clock order) = some (after, events) ∧
          ∀ next, after.stops.lookup request = some next → next.rank < call.rank) ∧
    (∀ transition ∈ history, ∀ request call next,
      transition.before.stops.lookup request = some call →
      transition.after.stops.lookup request = some next → next.rank ≤ call.rank) ∧
    ∀ earlier first later request serials, history = earlier ++ first :: later →
      first.before.begins first.action = some (request, serials) →
      (∀ transition ∈ later, transition.action ≠ .dropStop request) →
        Served runtime request serials ∧
        (request ∉ runtime.stops → ∀ serial ∈ serials, runtime.ReleasedAt serial) := by
  have sound := sound_of_reachable execution
  refine ⟨?_, ?_, ?_, ?_⟩
  · intro request call waiting
    obtain ⟨object, found, fits⟩ := sound.stops waiting
    refine ⟨object, found, ?_, ?_⟩
    · intro parked
      rw [parked] at fits
      exact ⟨fits, (sound.object found).1.stopping fits⟩
    · intro moved
      generalize call.phase = phase at fits moved
      rcases phase with (_ | _) | _
      · exact absurd rfl moved
      · exact fits
      · exact fits
  · intro request call turn clock order waiting
    obtain ⟨after, events, taken, nearer⟩ := awaited_step sound waiting turn clock order
    refine ⟨after, events, ?_, nearer⟩
    simpa [machine, sound.calm] using taken
  · intro transition member request call next before waiting
    obtain ⟨⟨prior, reached⟩, taken⟩ := execution.taken member
    simp only [machine, Option.ite_none_left_eq_some] at taken
    exact rank_perform (sound_of_reachable reached) taken.2 before waiting
  · intro earlier first later request serials split begun kept
    obtain ⟨reached, taken⟩ := execution.cut split
    have before := sound_of_reachable reached
    simp only [machine, Option.ite_none_left_eq_some] at taken
    have served := (served_begin before taken.2 begun).steps
      (before.moves (perform_moves before taken.2)) (execution.resume split) kept
    refine ⟨served, ?_⟩
    intro gone serial member
    obtain ⟨-, passed, released, rfl | ⟨call, waiting, -⟩⟩ := served
    · exact released serial member
    · exact absurd (Map.mem_of_lookup waiting) gone

/-- A stop and an unload of a running object and a shutdown meet, with another object
bound. -/
def haltThrice : List Action :=
  [.load 0 "" .null [], .loaded 0 (.ok true), .start "o1", .poll 1 .idle ⟨0, 0⟩ [],
    .load 0 "" .null [], .loaded 0 (.ok true), .start "o2", .poll 2 .idle ⟨0, 0⟩ [],
    .stop 0 "o1" false [], .stop 1 "o1" true [], .shutdown 2]

/-- All three wait for the first object, and its next poll takes each of them nearer
to its end. The shutdown is to go on with the second. -/
theorem stops_cannot_hang_thrice :
    ∃ history runtime,
      machine.run { host := { session := "" } } haltThrice = some (history, runtime) ∧
      runtime.state 1 = some .stopping ∧ Served runtime 2 [1, 2] ∧
      ∀ request ∈ [0, 1, 2], ∃ call after events, runtime.stops.lookup request = some call ∧
        machine.step runtime (.poll 1 .idle ⟨0, 0⟩ []) = some (after, events) ∧
          ∀ next, after.stops.lookup request = some next → next.rank < call.rank := by
  have evaluated : ((machine.run { host := { session := "" } } haltThrice).any fun result =>
      decide (result.2.state 1 = some .stopping) &&
      (result.1.getLast?.any fun transition =>
        decide (transition.before.begins transition.action = some (2, [1, 2]))) &&
      [0, 1, 2].all fun request => (result.2.stops.lookup request).any fun call =>
        decide (call.object = 1 ∧ call.phase = .parked false)) = true := by decide +kernel
  obtain ⟨⟨history, runtime⟩, ran, passed⟩ := (Option.any_eq_true _ _).mp evaluated
  simp only [Bool.and_eq_true, decide_eq_true_eq, Option.any_eq_true, List.all_eq_true] at passed
  obtain ⟨⟨state, shutdown, last, begun⟩, parked⟩ := passed
  obtain ⟨earlier, split⟩ := List.getLast?_eq_some_iff.mp last
  obtain ⟨-, moves, -, serves⟩ := stops_cannot_hang (Machine.execution_of_run ⟨"", rfl⟩ ran)
  refine ⟨history, runtime, ran, state,
    (serves earlier shutdown [] 2 [1, 2] split begun (by simp)).1, ?_⟩
  intro request member
  obtain ⟨call, waiting, object, phase⟩ := parked request member
  obtain ⟨after, events, taken, nearer⟩ := moves request call .idle ⟨0, 0⟩ [] waiting
  simp only [StopCall.awaited, object, phase] at taken
  exact ⟨call, after, events, waiting, taken, nearer⟩

end Runs

end Spinfoam.Runtime
