import Spinfoam.Runtime.Upkeep

/-!
# The moves of the runtime

Every step of the runtime is a sequence of elementary moves, and each move says
once what it can change. `Sound` is the invariant under which the moves are
enabled as stated; properties of whole runs are proved move by move.
-/

namespace Spinfoam.Runtime

open Spinfoam.Json Spinfoam.Std Spinfoam.Outbox Spinfoam.Guest Spinfoam.Semantics

/-- How the tables of the runtime fit together at a suspension point. -/
structure Sound (runtime : Runtime) : Prop where
  object : ∀ {serial object}, runtime.heap.lookup serial = some object →
    object.Sound ∧ object.id = objectId serial
  numbered : ∀ {serial}, serial ∈ runtime.heap → serial ≤ runtime.next
  loading : ∀ {request load}, runtime.loads.lookup request = some load →
    load.serial ≤ runtime.next ∧ load.serial ∉ runtime.heap
  loadingOnce : ∀ {request other load current}, runtime.loads.lookup request = some load →
    runtime.loads.lookup other = some current → load.serial = current.serial → request = other
  bound : ∀ {name serial}, runtime.objects.lookup name = some serial →
    name = objectId serial ∧ serial ∈ runtime.heap
  stops : ∀ {request call}, runtime.stops.lookup request = some call →
    ∃ object, runtime.heap.lookup call.object = some object ∧ object.Fits call.phase
  calm : runtime.panicked = false

/-- What can happen to the host without a guest. -/
inductive HostMoved (host : Host) : List Host.Event → Host → Prop where
  | response (frame : Value) : HostMoved host (host.response frame).2 (host.response frame).1
  | next {frame : Frame} {out : Outbox} (taken : host.out.next = some (frame, out)) :
      HostMoved host [.emitted frame] { host with out }
  | close : HostMoved host [] { host with out := host.out.close }
  | control {value : Value} (plain : value.get "method" = none) :
      HostMoved host [] { host with out := (host.out.tryControl value).1 }

/-- The guest whose run ends. A cancelled object may end before its guest has run. -/
inductive Ending (object : Object) (result : Option (Except String Int)) :
    Object → GuestContext → Option Posted → Prop where
  | running {context : GuestContext} {posted : Option Posted}
      (task : object.task = .running context posted)
      (cancelled : result = none ↔ object.cancel = true) :
      Ending object result object context posted
  | spawned (clock : Clock) (task : object.task = .spawned) (cancelled : object.cancel = true)
      (stopped : result = none) :
      Ending object result (object.begin clock)
        (.new object.id object.config object.capabilities clock) none

inductive Move (runtime : Runtime) : List Event → Runtime → Prop where
  | respond (result : RpcResult) : Move runtime [.responded result] runtime
  | issue (request : Nat) {load : Load} (fresh : load.serial = runtime.next + 1)
      (config : validValue load.config = true)
      (names : ∀ entry ∈ load.capabilities, entry.name.utf8ByteSize ≤ 128)
      (room : runtime.next + 1 < 2 ^ 64) :
      Move runtime []
        { runtime with next := runtime.next + 1, loads := runtime.loads.insert request load }
  | forget (request : Nat) : Move runtime [] { runtime with loads := runtime.loads.erase request }
  | bind {request : Nat} {load : Load} (waiting : runtime.loads.lookup request = some load) :
      Move runtime (runtime.finishLoad request load (.ok true)).2
        (runtime.finishLoad request load (.ok true)).1
  | tend {serial : Nat} {object after : Object} {events : List Event}
      (found : runtime.heap.lookup serial = some object)
      (tended : Object.Tended serial object events after) :
      Move runtime events (runtime.put serial after)
  | park (request : Nat) {call : StopCall} {object : Object}
      (found : runtime.heap.lookup call.object = some object) (fits : object.Fits call.phase) :
      Move runtime [] { runtime with stops := runtime.stops.insert request call }
  | unpark (request : Nat) : Move runtime [] { runtime with stops := runtime.stops.erase request }
  | clear : Move runtime [.shutdown] { runtime with objects := ∅ }
  | settle {serial : Nat} {object : Object} (found : runtime.heap.lookup serial = some object)
      (released : object.Released) (unload : Bool) (order : List String) :
      Move runtime (runtime.finishStop object unload order).2
        (runtime.finishStop object unload order).1
  | absent {id : String} (missing : runtime.get id = none) :
      Move runtime [.stopped id true, .responded (.ok unloaded)] runtime
  | host {host : Host} {events : List Host.Event} (moved : HostMoved runtime.host events host) :
      Move runtime (events.map .host) { runtime with host }
  | helper {serial : Nat} {object : Object} {context : GuestContext} {scope : Scope}
      {call : HelperCall} {guest : Guest} {reply : Reply}
      (found : runtime.heap.lookup serial = some object)
      (task : object.task = .running context none)
      (invoked : (runtime.guest object context).invoke scope call = (guest, reply)) :
      Move runtime [.replied serial call reply]
        (runtime.absorb serial object guest reply.future)
  | stay {serial : Nat} {object : Object} {context : GuestContext} {ready : Ready}
      {future next : Posted} {guest : Guest} {events : List Host.Event}
      (found : runtime.heap.lookup serial = some object)
      (task : object.task = .running context (some future))
      (polled : (runtime.guest object context).pollPosted ready future =
        (guest, events, .pending next)) :
      Move runtime (events.map .host) (runtime.absorb serial object guest (some next))
  | complete {serial : Nat} {object : Object} {context : GuestContext} {ready : Ready}
      {future : Posted} {guest : Guest} {events : List Host.Event} {word : Nat}
      {envelope : Option Value} (found : runtime.heap.lookup serial = some object)
      (task : object.task = .running context (some future))
      (polled : (runtime.guest object context).pollPosted ready future =
        (guest, events, .done word envelope)) :
      Move runtime (events.map .host ++ .completed serial future word ::
          handed serial (runtime.guest object context) word envelope)
        (runtime.absorb serial object guest none)
  | finish {serial : Nat} {object current : Object} {context : GuestContext}
      {posted : Option Posted} {result : Option (Except String Int)}
      (found : runtime.heap.lookup serial = some object)
      (ending : Ending object result current context posted) (order : List String) :
      Move runtime (runtime.finish serial current context posted result order).2
        (runtime.finish serial current context posted result order).1

/-- Moves one after the other. -/
inductive Moves : Runtime → List Event → Runtime → Prop where
  | refl {runtime : Runtime} : Moves runtime [] runtime
  | head {runtime middle after : Runtime} {first rest : List Event}
      (move : Move runtime first middle) (more : Moves middle rest after) :
      Moves runtime (first ++ rest) after

variable {runtime after middle : Runtime} {events more : List Event}

namespace Moves

theorem one (move : Move runtime events after) : Moves runtime events after := by
  simpa using Moves.head move .refl

theorem trans (first : Moves runtime events middle) (rest : Moves middle more after) :
    Moves runtime (events ++ more) after := by
  induction first with
  | refl => exact rest
  | head move _ ih =>
    rw [List.append_assoc]
    exact .head move (ih rest)

end Moves

@[simp] theorem StopCall.wake_object (call : StopCall) (serial : Nat) :
    (call.wake serial).object = call.object := by
  unfold StopCall.wake
  split
  · split_ifs <;> rfl
  · rfl

/-- Being woken up says nothing about another object. -/
theorem StopCall.wake_other {call : StopCall} {serial : Nat} (other : call.object ≠ serial) :
    call.wake serial = call := by
  unfold StopCall.wake
  split
  · rw [if_neg other]
  · rfl

/-- Who waits for an object that has ended is woken, or has been. -/
theorem StopCall.fits_wake {call : StopCall} {object : Object}
    (final : object.state.terminal = true) : object.Fits (call.wake call.object).phase := by
  unfold StopCall.wake
  split
  · rw [if_pos rfl]
    exact final
  · rename_i joining
    rw [joining]
    exact final

/-- The end of a run, part by part. -/
theorem finish_eq (runtime : Runtime) (serial : Nat) (object : Object) (context : GuestContext)
    (posted : Option Posted) (result : Option (Except String Int)) (order : List String) :
    runtime.finish serial object context posted result order =
      let dropped := (runtime.guest object context).dropRun posted
      let cleaned := cleanHost dropped.1.host object.id order
      let settled := object.settle result dropped.1.mailbox
      ((({ runtime with
          host := { cleaned.1 with out := (cleaned.1.out.tryControl (stateNotice settled.status)).1 }
          nextHandle := dropped.1.nextHandle } : Runtime).put serial settled).notifyDone serial,
        (dropped.2 ++ cleaned.2).map .host) := rfl

namespace Sound

theorem initial (session : String) : Sound { host := { session } } where
  object := by
    intro serial object found
    cases found
  numbered := by simp
  loading := by
    intro request load found
    cases found
  loadingOnce := by
    intro request other load current found
    cases found
  bound := by
    intro name serial found
    cases found
  stops := by
    intro request call found
    cases found
  calm := rfl

/-- The host and the handle counter play no part. -/
theorem withHost (sound : Sound runtime) (host : Host) (nextHandle : Nat) :
    Sound { runtime with host, nextHandle } :=
  ⟨sound.object, sound.numbered, sound.loading, sound.loadingOnce, sound.bound, sound.stops,
    sound.calm⟩

/-- Serial numbers and ids correspond. -/
theorem serial_eq (sound : Sound runtime) {serial other : Nat} {object current : Object}
    (found : runtime.heap.lookup serial = some object)
    (same : runtime.heap.lookup other = some current) (ids : object.id = current.id) :
    serial = other := by
  rw [(sound.object found).2, (sound.object same).2] at ids
  unfold objectId at ids
  rw [String.append_right_inj] at ids
  exact Nat.repr_injective ids

/-- The object that an id leads to carries it. -/
theorem get_eq_some (sound : Sound runtime) {id : String} {serial : Nat} {object : Object}
    (found : runtime.get id = some (serial, object)) :
    runtime.heap.lookup serial = some object ∧ object.id = id := by
  simp only [Runtime.get, Option.bind_eq_some_iff, Option.map_eq_some_iff, Prod.mk.injEq] at found
  obtain ⟨number, listed, current, stored, rfl, rfl⟩ := found
  exact ⟨stored, (sound.object stored).2.trans (sound.bound listed).1.symm⟩

/-- Update one object and those who wait for it. -/
private theorem update (sound : Sound runtime) {serial : Nat} {object next : Object}
    (found : runtime.heap.lookup serial = some object) (good : next.Sound)
    (id : next.id = object.id) {stops : Map Nat StopCall}
    (fits : ∀ {request call}, stops.lookup request = some call →
      ∃ object, (runtime.put serial next).heap.lookup call.object = some object ∧
        object.Fits call.phase) :
    Sound { runtime.put serial next with stops } := by
  have member : serial ∈ runtime.heap := Map.mem_of_lookup found
  have listed : ∀ {other}, other ∈ runtime.heap.insert serial next ↔ other ∈ runtime.heap := by
    intro other
    rw [AList.mem_insert]
    exact or_iff_right_of_imp fun same => same ▸ member
  constructor
  case object =>
    intro other current stored
    obtain ⟨rfl, rfl⟩ | ⟨-, stored⟩ := Map.lookup_insert_eq_some stored
    · exact ⟨good, id.trans (sound.object found).2⟩
    · exact sound.object stored
  case numbered => exact fun bound => sound.numbered (listed.mp bound)
  case loading =>
    intro request load waiting
    obtain ⟨bounded, fresh⟩ := sound.loading waiting
    exact ⟨bounded, fun bound => fresh (listed.mp bound)⟩
  case loadingOnce => exact sound.loadingOnce
  case bound =>
    intro name other bound
    obtain ⟨named, old⟩ := sound.bound bound
    exact ⟨named, listed.mpr old⟩
  case stops => exact fits
  case calm => exact sound.calm

/-- Update one object. -/
theorem put (sound : Sound runtime) {serial : Nat} {object next : Object}
    (found : runtime.heap.lookup serial = some object) (good : next.Sound)
    (id : next.id = object.id) (fits : ∀ phase, object.Fits phase → next.Fits phase) :
    Sound (runtime.put serial next) := by
  refine sound.update found good id ?_
  intro request call waiting
  obtain ⟨current, stored, fit⟩ := sound.stops waiting
  by_cases same : call.object = serial
  · rw [same, found, Option.some.injEq] at stored
    subst stored
    refine ⟨next, ?_, fits _ fit⟩
    rw [same]
    exact AList.lookup_insert _
  · exact ⟨current, (AList.lookup_insert_ne same).trans stored, fit⟩

/-- An object that ends wakes those who wait for it. -/
theorem notifyDone (sound : Sound runtime) {serial : Nat} {object next : Object}
    (found : runtime.heap.lookup serial = some object) (good : next.Sound)
    (id : next.id = object.id) (final : next.state.terminal = true) :
    Sound ((runtime.put serial next).notifyDone serial) := by
  refine sound.update found good id ?_
  intro request call waiting
  simp only [Runtime.put, Map.lookup_mapValues, Option.map_eq_some_iff] at waiting
  obtain ⟨old, parked, rfl⟩ := waiting
  obtain ⟨current, stored, fits⟩ := sound.stops parked
  rw [StopCall.wake_object]
  by_cases same : old.object = serial
  · refine ⟨next, ?_, ?_⟩
    · rw [same]
      exact AList.lookup_insert _
    · rw [← same]
      exact StopCall.fits_wake final
  · rw [StopCall.wake_other same]
    exact ⟨current, (AList.lookup_insert_ne same).trans stored, fits⟩

/-- What a guest that goes on leaves of its object. -/
theorem absorb (sound : Sound runtime) {serial : Nat} {object : Object} {context : GuestContext}
    {pending : Option Posted} {guest : Guest}
    (found : runtime.heap.lookup serial = some object)
    (task : object.task = .running context pending)
    (same : SameGuest (runtime.guest object context) guest) (posted : Option Posted) :
    Sound (runtime.absorb serial object guest posted) := by
  have good := (sound.object found).1
  have identity := good.context task
  have kept := good.resumed ⟨context, pending, task⟩ (same.id.trans identity.1)
    (same.capabilities.trans identity.2) guest.mailbox guest.wait posted
  exact (sound.withHost guest.host guest.nextHandle).put found kept rfl fun phase fits => fits

/-- A loaded object is entered under its id. -/
private theorem bind (sound : Sound runtime) {request : Nat} {load : Load}
    (waiting : runtime.loads.lookup request = some load) :
    Sound (runtime.finishLoad request load (.ok true)).1 := by
  obtain ⟨bounded, fresh⟩ := sound.loading waiting
  constructor
  case object =>
    intro serial object found
    obtain ⟨rfl, rfl⟩ | ⟨-, found⟩ := Map.lookup_insert_eq_some found
    · exact ⟨Object.sound_loaded _ _ _ _, rfl⟩
    · exact sound.object found
  case numbered =>
    intro serial bound
    rcases (AList.mem_insert _).mp bound with rfl | old
    · exact bounded
    · exact sound.numbered old
  case loading =>
    intro other current found
    obtain ⟨different, found⟩ := Map.lookup_erase_eq_some found
    obtain ⟨below, unused⟩ := sound.loading found
    refine ⟨below, ?_⟩
    intro bound
    rcases (AList.mem_insert _).mp bound with same | old
    · exact different (sound.loadingOnce found waiting same)
    · exact unused old
  case loadingOnce =>
    intro first second one two oneFound twoFound same
    exact sound.loadingOnce (Map.lookup_erase_eq_some oneFound).2
      (Map.lookup_erase_eq_some twoFound).2 same
  case bound =>
    intro name serial found
    obtain ⟨rfl, rfl⟩ | ⟨-, found⟩ := Map.lookup_insert_eq_some found
    · exact ⟨rfl, (AList.mem_insert _).mpr (Or.inl rfl)⟩
    · exact ⟨(sound.bound found).1, (AList.mem_insert _).mpr (Or.inr (sound.bound found).2)⟩
  case stops =>
    intro other call found
    obtain ⟨object, stored, fits⟩ := sound.stops found
    refine ⟨object, ?_, fits⟩
    have other : call.object ≠ load.serial := by
      intro same
      exact fresh (same ▸ Map.mem_of_lookup stored)
    exact (AList.lookup_insert_ne other).trans stored
  case calm => exact sound.calm

/-- The end of a run leaves a sound object behind. -/
private theorem finish (sound : Sound runtime) {serial : Nat} {object current : Object}
    {context : GuestContext} {posted : Option Posted} {result : Option (Except String Int)}
    (found : runtime.heap.lookup serial = some object)
    (ending : Ending object result current context posted) (order : List String) :
    Sound (runtime.finish serial current context posted result order).1 := by
  have good := (sound.object found).1
  have begun : object.state.terminal = false ∧ current.outcome = object.outcome ∧
      current.id = object.id := by
    cases ending with
    | running task =>
      refine ⟨?_, rfl, rfl⟩
      rcases good.state_of_active ⟨context, posted, task⟩ with state | state <;>
        · rw [state]
          rfl
    | spawned clock task =>
      refine ⟨?_, rfl, rfl⟩
      rcases good.state_of_spawned task with state | state <;>
        · rw [state]
          rfl
  obtain ⟨isOpen, outcome, id⟩ := begun
  have unsettled : current.outcome.isSome = false := by
    rw [outcome]
    exact good.unsettled isOpen
  have left := Object.Sound.settle current unsettled result
    ((runtime.guest current context).dropRun posted).1.mailbox
  rw [finish_eq]
  exact Sound.notifyDone (sound.withHost _ _) found left ((Object.settle_id ..).trans id)
    (Object.settle_terminal ..)

/-- Every move keeps the tables together. -/
theorem move (sound : Sound runtime) (move : Move runtime events after) : Sound after := by
  cases move with
  | respond | absent => exact sound
  | issue request fresh =>
    refine ⟨sound.object, fun bound => Nat.le_succ_of_le (sound.numbered bound), ?_, ?_,
      sound.bound, sound.stops, sound.calm⟩
    · intro other load found
      obtain ⟨rfl, rfl⟩ | ⟨-, found⟩ := Map.lookup_insert_eq_some found
      · refine ⟨fresh.le, ?_⟩
        intro bound
        have := sound.numbered bound
        omega
      · exact ⟨Nat.le_succ_of_le (sound.loading found).1, (sound.loading found).2⟩
    · intro first second one two oneFound twoFound same
      obtain ⟨rfl, rfl⟩ | ⟨-, oneOld⟩ := Map.lookup_insert_eq_some oneFound
      · obtain ⟨rfl, rfl⟩ | ⟨-, twoOld⟩ := Map.lookup_insert_eq_some twoFound
        · rfl
        · have := (sound.loading twoOld).1
          omega
      · obtain ⟨rfl, rfl⟩ | ⟨-, twoOld⟩ := Map.lookup_insert_eq_some twoFound
        · have := (sound.loading oneOld).1
          omega
        · exact sound.loadingOnce oneOld twoOld same
  | forget request =>
    refine ⟨sound.object, sound.numbered, ?_, ?_, sound.bound, sound.stops, sound.calm⟩
    · intro other load found
      exact sound.loading (Map.lookup_erase_eq_some found).2
    · intro first second one two oneFound twoFound same
      exact sound.loadingOnce (Map.lookup_erase_eq_some oneFound).2
        (Map.lookup_erase_eq_some twoFound).2 same
  | bind waiting => exact sound.bind waiting
  | tend found tended =>
    have good := (sound.object found).1
    exact sound.put found (tended.sound good) tended.same.1 fun phase fits => tended.fits good fits
  | @park request call object found fits =>
    refine ⟨sound.object, sound.numbered, sound.loading, sound.loadingOnce, sound.bound, ?_,
      sound.calm⟩
    intro other current waiting
    obtain ⟨rfl, rfl⟩ | ⟨-, waiting⟩ := Map.lookup_insert_eq_some waiting
    · exact ⟨object, found, fits⟩
    · exact sound.stops waiting
  | unpark request =>
    refine ⟨sound.object, sound.numbered, sound.loading, sound.loadingOnce, sound.bound, ?_,
      sound.calm⟩
    intro other current waiting
    exact sound.stops (Map.lookup_erase_eq_some waiting).2
  | clear =>
    refine ⟨sound.object, sound.numbered, sound.loading, sound.loadingOnce, ?_, sound.stops,
      sound.calm⟩
    intro name serial found
    cases found
  | settle found final unload order =>
    refine ⟨sound.object, sound.numbered, sound.loading, sound.loadingOnce, ?_, sound.stops,
      sound.calm⟩
    intro name serial listed
    simp only [Runtime.finishStop] at listed
    split_ifs at listed
    · exact sound.bound (Map.lookup_erase_eq_some listed).2
    · exact sound.bound listed
  | host => exact sound.withHost _ runtime.nextHandle
  | helper found task invoked => exact sound.absorb found task (invoke_same invoked) _
  | @stay serial object context ready future next guest events found task polled =>
    have same := pollPosted_same (runtime.guest object context) ready future
    rw [polled] at same
    exact sound.absorb found task same _
  | @complete serial object context ready future guest events word envelope found task polled =>
    have same := pollPosted_same (runtime.guest object context) ready future
    rw [polled] at same
    exact sound.absorb found task same _
  | finish found ending order => exact sound.finish found ending order

/-- Moves keep a runtime sound. -/
theorem moves (sound : Sound runtime) (moves : Moves runtime events after) : Sound after := by
  induction moves with
  | refl => exact sound
  | head move _ ih => exact ih (sound.move move)

end Sound

/-- Objects are not forgotten. -/
theorem Move.known (move : Move runtime events after) {serial : Nat}
    (member : serial ∈ runtime.heap) : serial ∈ after.heap := by
  cases move with
  | bind | tend | helper | stay | complete | finish =>
    exact (AList.mem_insert _).mpr (Or.inr member)
  | _ => exact member

section Steps

/-- The beginning of a load consists of moves. -/
theorem load_moves (runtime : Runtime) (request : Nat) (hash : String) (config : Value)
    (capabilities : List Capability) :
    Moves runtime (runtime.load request hash config capabilities).2
      (runtime.load request hash config capabilities).1 := by
  unfold Runtime.load
  split_ifs with large improper exhausted
  · exact .one (.respond _)
  · exact .one (.respond _)
  · exact .one (.respond _)
  · refine .one (.issue request rfl (by simpa using large) ?_ (not_le.mp exhausted))
    intro entry member
    by_contra long
    refine improper (List.any_eq_true.mpr ⟨entry, member, ?_⟩)
    simp [not_le.mp long]

/-- The end of a load consists of moves. -/
theorem finishLoad_moves {request : Nat} {load : Load}
    (waiting : runtime.loads.lookup request = some load) (result : Except String Bool) :
    Moves runtime (runtime.finishLoad request load result).2
      (runtime.finishLoad request load result).1 := by
  rcases result with error | main
  · exact .head (.forget request) (.one (.respond _))
  · cases main with
    | false => exact .head (.forget request) (.one (.respond _))
    | true => exact .one (.bind waiting)

/-- A start consists of moves. -/
theorem start_moves (sound : Sound runtime) (id : String) :
    Moves runtime (runtime.start id).2 (runtime.start id).1 := by
  unfold Runtime.start
  split
  · exact .one (.respond _)
  · rename_i serial object got
    obtain ⟨found, -⟩ := sound.get_eq_some got
    split_ifs with later gone
    · exact .one (.respond _)
    · -- a loaded object still holds its program
      have held := ((sound.object found).1.loaded (not_not.mp later)).2.1
      rw [held] at gone
      cases gone
    · exact .head (.tend found (.start (not_not.mp later))) (.one (.respond _))

/-- A delivery consists of moves. -/
theorem deliver_moves (sound : Sound runtime) (id eventId topic : String) (payload : Value) :
    Moves runtime (runtime.deliver id eventId topic payload).2
      (runtime.deliver id eventId topic payload).1 := by
  unfold Runtime.deliver
  split_ifs with excess
  · exact .one (.respond _)
  · split
    · exact .one (.respond _)
    · rename_i serial object got
      exact .head (.tend (sound.get_eq_some got).1 (.deliver _)) (.one (.respond _))

/-- Stopping the objects one after the other consists of moves. -/
theorem shutdownFrom_moves (runtime : Runtime) (request : Nat) (serials : List Nat) :
    Moves runtime (runtime.shutdownFrom request serials).2
      (runtime.shutdownFrom request serials).1 := by
  induction serials generalizing runtime with
  | nil => exact .head (.unpark request) (.one .clear)
  | cons serial rest ih =>
    unfold shutdownFrom
    split
    · exact ih runtime
    · rename_i object found
      have tended : Object.Tended serial object [] object.stop.1 := .stop
      have halted := object.halted_stop
      generalize object.stop = result at tended halted ⊢
      obtain ⟨after, _ | phase⟩ := result
      · exact .head (.tend found tended) (ih _)
      · refine .head (.tend found tended) (.one ?_)
        exact .park request (AList.lookup_insert _) halted

/-- Cancelling the objects consists of moves. -/
theorem cancelAll_moves (runtime : Runtime) (serials : List Nat) :
    Moves runtime [] (runtime.cancelAll serials) := by
  induction serials generalizing runtime with
  | nil => exact .refl
  | cons serial rest ih =>
    unfold cancelAll
    split
    · exact ih runtime
    · rename_i object found
      exact .head (.tend found .cancel) (ih _)

/-- A stop that goes on consists of moves. -/
theorem proceed_moves {serial : Nat} {object : Object}
    {result : Object × Option Object.StopPhase}
    (found : runtime.heap.lookup serial = some object)
    (tended : Object.Tended serial object [] result.1) (halted : Object.Halted result)
    (request : Nat) (purpose : Purpose) (order : List String) :
    Moves runtime (runtime.proceed request serial purpose order result).2
      (runtime.proceed request serial purpose order result).1 := by
  obtain ⟨after, _ | phase⟩ := result
  · refine .head (.tend found tended) (.head (.unpark request) ?_)
    cases purpose with
    | request unload => exact .one (.settle (AList.lookup_insert _) halted unload order)
    | shutdown rest => exact shutdownFrom_moves _ request rest
  · exact .head (.tend found tended) (.one (.park request (AList.lookup_insert _) halted))

/-- The first poll of a stop consists of moves. -/
theorem stop_moves (sound : Sound runtime) (request : Nat) (id : String) (unload : Bool)
    (order : List String) :
    Moves runtime (runtime.stop request id unload order).2
      (runtime.stop request id unload order).1 := by
  unfold Runtime.stop
  split
  · rename_i missing
    cases unload with
    | false => exact .one (.respond _)
    | true => exact .one (.absent missing)
  · rename_i serial object got
    exact proceed_moves (sound.get_eq_some got).1 .stop object.halted_stop request _ order

/-- A turn of a guest consists of moves. -/
theorem turn_moves {serial : Nat} {object : Object} {context : GuestContext}
    {posted : Option Posted} {order : List String} {turn : Turn}
    (found : runtime.heap.lookup serial = some object)
    (task : object.task = .running context posted) (live : object.cancel = false)
    (taken : runtime.turn serial object context posted order turn = some (after, events)) :
    Moves runtime events after := by
  cases turn with
  | idle =>
    obtain ⟨rfl, rfl⟩ := Prod.mk.inj (Option.some.inj taken)
    exact .refl
  | helper call scope =>
    cases posted with
    | some future => cases taken
    | none =>
      obtain ⟨rfl, rfl⟩ := Prod.mk.inj (Option.some.inj taken)
      exact .one (.helper found task rfl)
  | resume ready =>
    cases posted with
    | none => cases taken
    | some future =>
      simp only [Runtime.turn] at taken
      generalize polled : (runtime.guest object context).pollPosted ready future = result at taken
      obtain ⟨guest, first, next | ⟨word, envelope⟩⟩ := result
      · obtain ⟨rfl, rfl⟩ := Prod.mk.inj (Option.some.inj taken)
        exact .one (.stay found task polled)
      · obtain ⟨rfl, rfl⟩ := Prod.mk.inj (Option.some.inj taken)
        exact .one (.complete found task polled)
  | finish result =>
    obtain ⟨rfl, rfl⟩ := Prod.mk.inj (Option.some.inj taken)
    exact .one (.finish found (.running task (by simp [live])) order)

/-- A poll of an object's task consists of moves. -/
theorem pollTask_moves {serial : Nat} {turn : Turn} {clock : Clock} {order : List String}
    (taken : runtime.pollTask serial turn clock order = some (after, events)) :
    Moves runtime events after := by
  simp only [Runtime.pollTask, Option.bind_eq_some_iff] at taken
  obtain ⟨object, found, taken⟩ := taken
  cases task : object.task with
  | none | finished => simp [task] at taken
  | spawned =>
    simp only [task] at taken
    cases cancelled : object.cancel with
    | true =>
      have begun : (object.begin clock).cancel = true := cancelled
      rw [if_pos begun] at taken
      obtain ⟨rfl, rfl⟩ := Prod.mk.inj (Option.some.inj taken)
      exact .one (.finish found (.spawned clock task cancelled rfl) order)
    | false =>
      have begun : ¬ (object.begin clock).cancel = true := by
        simpa [Object.begin] using cancelled
      rw [if_neg begun, Option.map_eq_some_iff] at taken
      obtain ⟨⟨last, later⟩, turned, same⟩ := taken
      obtain ⟨rfl, rfl⟩ := Prod.mk.inj same
      refine .head (.tend found (.begin clock task cancelled)) ?_
      exact turn_moves (AList.lookup_insert _) rfl cancelled turned
  | running context posted =>
    simp only [task] at taken
    cases cancelled : object.cancel with
    | true =>
      rw [if_pos cancelled] at taken
      obtain ⟨rfl, rfl⟩ := Prod.mk.inj (Option.some.inj taken)
      exact .one (.finish found (.running task (by simp [cancelled])) order)
    | false =>
      rw [if_neg (by simp [cancelled])] at taken
      exact turn_moves found task cancelled taken

/-- Every step is a sequence of moves. -/
theorem perform_moves (sound : Sound runtime) {action : Action}
    (taken : runtime.perform action = some (after, events)) : Moves runtime events after := by
  cases action with
  | load request hash config capabilities =>
    simp only [perform, Option.ite_none_left_eq_some] at taken
    have moved := load_moves runtime request hash config capabilities
    rwa [Option.some.inj taken.2] at moved
  | loaded request result =>
    simp only [perform, Option.map_eq_some_iff] at taken
    obtain ⟨load, waiting, same⟩ := taken
    have moved := finishLoad_moves waiting result
    rwa [same] at moved
  | dropLoad request =>
    obtain ⟨rfl, rfl⟩ := Prod.mk.inj (Option.some.inj taken)
    exact .one (.forget request)
  | start id =>
    have moved := start_moves sound id
    rwa [Option.some.inj taken] at moved
  | stop request id unload order =>
    simp only [perform, Option.ite_none_left_eq_some] at taken
    have moved := stop_moves sound request id unload order
    rwa [Option.some.inj taken.2] at moved
  | shutdown request =>
    simp only [perform, Option.ite_none_left_eq_some] at taken
    have moved := (cancelAll_moves runtime runtime.ordered).trans
      (shutdownFrom_moves _ request runtime.ordered)
    have same := Option.some.inj taken.2
    unfold Runtime.shutdown at same
    rwa [same] at moved
  | pollStop request order =>
    simp only [perform, Option.bind_eq_some_iff, Option.map_eq_some_iff] at taken
    obtain ⟨call, waiting, object, found, same⟩ := taken
    obtain ⟨current, stored, fits⟩ := sound.stops waiting
    obtain rfl : object = current := Option.some.inj (found.symm.trans stored)
    have moved := proceed_moves found (.pollStop fits) (Object.halted_pollStop fits) request
      call.purpose order
    rwa [same] at moved
  | dropStop request =>
    obtain ⟨rfl, rfl⟩ := Prod.mk.inj (Option.some.inj taken)
    exact .one (.unpark request)
  | deliver id eventId topic payload =>
    have moved := deliver_moves sound id eventId topic payload
    rwa [Option.some.inj taken] at moved
  | status id =>
    obtain ⟨rfl, rfl⟩ := Prod.mk.inj (Option.some.inj taken)
    exact .one (.respond _)
  | response frame =>
    obtain ⟨rfl, rfl⟩ := Prod.mk.inj (Option.some.inj taken)
    exact .one (.host (.response frame))
  | poll serial turn clock order => exact pollTask_moves taken
  | next =>
    simp only [perform] at taken
    split at taken
    · obtain ⟨rfl, rfl⟩ := Prod.mk.inj (Option.some.inj taken)
      exact .refl
    · rename_i frame out sent
      obtain ⟨rfl, rfl⟩ := Prod.mk.inj (Option.some.inj taken)
      exact .one (.host (.next sent))
  | close =>
    obtain ⟨rfl, rfl⟩ := Prod.mk.inj (Option.some.inj taken)
    exact .one (.host .close)
  | control value =>
    simp only [perform, Option.ite_none_right_eq_some] at taken
    obtain ⟨plain, same⟩ := taken
    obtain ⟨rfl, rfl⟩ := Prod.mk.inj (Option.some.inj same)
    exact .one (.host (.control plain))

/-- Every reachable state is sound. -/
theorem sound_of_reachable {history : List (Transition Runtime Action Event)}
    (execution : machine.Execution history runtime) : Sound runtime := by
  refine execution.invariant Sound ?_ ?_
  · rintro _ ⟨session, rfl⟩
    exact Sound.initial session
  · intro state action next events sound taken
    simp only [machine, Option.ite_none_left_eq_some] at taken
    exact sound.moves (perform_moves sound taken.2)

/-- The rule for claims about whole runs: what holds at the start and survives
every move from a sound state holds of the trace and the state of every run. -/
theorem invariant_of_moves (property : List Event → Runtime → Prop)
    (initially : ∀ session, property [] { host := { session } })
    (preserved : ∀ {events runtime more after}, Sound runtime → property events runtime →
      Move runtime more after → property (events ++ more) after)
    {history : List (Transition Runtime Action Event)}
    (execution : machine.Execution history runtime) : property (trace history) runtime := by
  have along : ∀ {runtime more after}, Moves runtime more after → ∀ {events}, Sound runtime →
      property events runtime → property (events ++ more) after := by
    intro runtime more after moves
    induction moves with
    | refl =>
      intro events _ holds
      simpa using holds
    | head move _ ih =>
      intro events sound holds
      rw [← List.append_assoc]
      exact ih (sound.move move) (preserved sound holds move)
  refine execution.historyInvariant (fun history runtime => property (trace history) runtime) ?_ ?_
  · rintro _ ⟨session, rfl⟩
    exact initially session
  · intro history state action next events before holds taken
    have sound := sound_of_reachable before
    simp only [machine, Option.ite_none_left_eq_some] at taken
    simpa using along (perform_moves sound taken.2) sound holds

end Steps

end Spinfoam.Runtime
