import Spinfoam.Runtime.Moves

/-!
# The life of an object

Which states an object can be seen in one after the other, over all interleavings
of the requests, the task of the object, and `Runtime::shutdown`.
-/

namespace Spinfoam.Runtime

open Spinfoam.Json Spinfoam.Std Spinfoam.Guest Spinfoam.Semantics

/-- The state an object can be seen in. -/
def state (runtime : Runtime) (serial : Nat) : Option State :=
  (runtime.heap.lookup serial).map Object.state

/-- What may be seen of an object before and after a step. -/
inductive Visible : Option State → Option State → Prop where
  | same {state : Option State} : Visible state state
  | load : Visible none (some .loaded)
  | follow {before after : State} (follows : before.Follows after) :
      Visible (some before) (some after)

/-- What stopping an object, once or several times, makes of its state. -/
inductive Halting : Option State → Option State → Prop where
  | same {state : Option State} : Halting state state
  | loaded : Halting (some .loaded) (some .stopped)
  | starting : Halting (some .starting) (some .stopping)
  | running : Halting (some .running) (some .stopping)

/-- Halting twice is halting. -/
theorem Halting.trans {first second third : Option State} (one : Halting first second)
    (two : Halting second third) : Halting first third := by
  cases one with
  | same => exact two
  | loaded =>
    cases two
    exact .loaded
  | starting =>
    cases two
    exact .starting
  | running =>
    cases two
    exact .running

/-- To halt is a visible change. -/
theorem Halting.visible {before after : Option State} (halting : Halting before after) :
    Visible before after := by
  cases halting with
  | same => exact .same
  | loaded => exact .follow .stopLoaded
  | starting => exact .follow .stopStarting
  | running => exact .follow .stopRunning

variable {runtime after : Runtime} {events : List Event}

/-- The state of an object that is known. -/
theorem state_of_lookup {serial : Nat} {object : Object}
    (found : runtime.heap.lookup serial = some object) :
    runtime.state serial = some object.state := by
  simp [state, found]

/-- An object that is replaced has the state of the new one. -/
theorem state_put (runtime : Runtime) (serial other : Nat) (object : Object) :
    (runtime.put serial object).state other =
      if other = serial then some object.state else runtime.state other := by
  split_ifs with same
  · subst same
    simp [state, Runtime.put]
  · simp [state, Runtime.put, AList.lookup_insert_ne same]

/-- An object that is replaced by one in a state that may be seen next. -/
private theorem visible_put {relation : Option State → Option State → Prop}
    (reflexive : ∀ state, relation state state) {serial : Nat} {object next : Object}
    (found : runtime.heap.lookup serial = some object)
    (related : relation (some object.state) (some next.state)) (other : Nat) :
    relation (runtime.state other) ((runtime.put serial next).state other) := by
  rw [state_put]
  split_ifs with same
  · rw [same, state_of_lookup found]
    exact related
  · exact reflexive _

section Stops

/-- The end of a stop halts. -/
theorem halting_join (object : Object) :
    Halting (some object.state) (some object.join.1.state) := by
  rcases object.join_spec with ⟨-, same⟩ | ⟨-, same⟩ <;>
    · rw [same]
      exact .same

/-- The first poll of a stop halts. -/
theorem halting_stop (object : Object) :
    Halting (some object.state) (some object.stop.1.state) := by
  rcases object.stop_spec with ⟨loaded, same⟩ | ⟨state | state | state, same⟩ | ⟨-, same⟩
  · rw [same, loaded]
    exact Halting.loaded.trans (halting_join { object with state := .stopped })
  · rw [same, state]
    exact .starting
  · rw [same, state]
    exact .running
  · rw [same, state]
    exact .same
  · rw [same]
    exact halting_join object

/-- A later poll of a stop halts. -/
theorem halting_pollStop {object : Object} {phase : Object.StopPhase} (fits : object.Fits phase) :
    Halting (some object.state) (some (object.pollStop phase).1.state) := by
  rcases Object.pollStop_spec fits with ⟨same, -⟩ | ⟨-, same | same⟩
  · rw [same]
    exact .same
  · rw [same]
    exact halting_join object
  · rw [same]
    exact .same

/-- A shutdown halts its objects. -/
theorem halting_shutdownFrom (runtime : Runtime) (request : Nat) (serials : List Nat)
    (other : Nat) :
    Halting (runtime.state other) ((runtime.shutdownFrom request serials).1.state other) := by
  induction serials generalizing runtime with
  | nil => exact .same
  | cons serial rest ih =>
    unfold shutdownFrom
    split
    · exact ih runtime
    · rename_i object found
      have halting := halting_stop object
      generalize object.stop = result at halting ⊢
      have first := visible_put (fun _ => Halting.same) found halting other
      obtain ⟨after, _ | phase⟩ := result
      · exact first.trans (ih _)
      · exact first

/-- A cancelled token does not change the state. -/
theorem state_cancelAll (runtime : Runtime) (serials : List Nat) (other : Nat) :
    (runtime.cancelAll serials).state other = runtime.state other := by
  induction serials generalizing runtime with
  | nil => rfl
  | cons serial rest ih =>
    unfold cancelAll
    split
    · exact ih runtime
    · rename_i object found
      rw [ih, state_put]
      split_ifs with same
      · rw [same, state_of_lookup found]
      · rfl

/-- A stop that goes on halts. -/
theorem halting_proceed {serial : Nat} {object : Object} {result : Object × Option Object.StopPhase}
    (found : runtime.heap.lookup serial = some object)
    (halting : Halting (some object.state) (some result.1.state)) (request : Nat)
    (purpose : Purpose) (order : List String) (other : Nat) :
    Halting (runtime.state other)
      ((runtime.proceed request serial purpose order result).1.state other) := by
  have first := visible_put (fun _ => Halting.same) found halting other
  obtain ⟨after, _ | phase⟩ := result
  · cases purpose with
    | request unload => exact first
    | shutdown rest =>
      exact first.trans (halting_shutdownFrom { runtime.put serial after with
        stops := runtime.stops.erase request } request rest other)
  · exact first

end Stops

section Tasks

/-- A turn of a guest leaves its object in the same state, unless the run ends. -/
theorem state_turn {serial : Nat} {object : Object} {context : GuestContext}
    {posted : Option Posted} {order : List String} {turn : Turn}
    (found : runtime.heap.lookup serial = some object)
    (taken : runtime.turn serial object context posted order turn = some (after, events)) :
    ∃ last : State, (last = object.state ∨ last.terminal = true) ∧
      ∀ other, after.state other = if other = serial then some last else runtime.state other := by
  have absorbed : ∀ guest posted, ∃ last : State, (last = object.state ∨ last.terminal = true) ∧
      ∀ other, (runtime.absorb serial object guest posted).state other =
        if other = serial then some last else runtime.state other := by
    intro guest posted
    exact ⟨object.state, Or.inl rfl, fun other => state_put runtime serial other _⟩
  cases turn with
  | idle =>
    obtain ⟨rfl, rfl⟩ := Prod.mk.inj (Option.some.inj taken)
    refine ⟨object.state, Or.inl rfl, ?_⟩
    intro other
    split_ifs with same
    · rw [same, state_of_lookup found]
    · rfl
  | helper call scope =>
    cases posted with
    | some future => cases taken
    | none =>
      obtain ⟨rfl, rfl⟩ := Prod.mk.inj (Option.some.inj taken)
      exact absorbed _ _
  | resume ready =>
    cases posted with
    | none => cases taken
    | some future =>
      simp only [Runtime.turn] at taken
      generalize (runtime.guest object context).pollPosted ready future = result at taken
      obtain ⟨guest, first, next | ⟨word, envelope⟩⟩ := result
      · obtain ⟨rfl, rfl⟩ := Prod.mk.inj (Option.some.inj taken)
        exact absorbed _ _
      · obtain ⟨rfl, rfl⟩ := Prod.mk.inj (Option.some.inj taken)
        exact absorbed _ _
  | finish result =>
    obtain ⟨rfl, rfl⟩ := Prod.mk.inj (Option.some.inj taken)
    exact ⟨_, Or.inr (Object.settle_terminal ..), fun other => state_put runtime serial other _⟩

/-- The cancelled run of an object that has been started leaves it stopped. -/
private theorem visible_stopped {object : Object} (good : object.Sound)
    (started : object.task = .spawned ∨ object.Active) :
    Visible (some object.state) (some .stopped) := by
  have before : object.state = .starting ∨ object.state = .running ∨ object.state = .stopping := by
    rcases started with spawned | active
    · rcases good.state_of_spawned spawned with state | state
      · exact Or.inl state
      · exact Or.inr (Or.inr state)
    · exact Or.inr (good.state_of_active active)
  rcases before with state | state | state
  · rw [state]
    exact .follow (.endStarting rfl)
  · rw [state]
    exact .follow (.endRunning rfl)
  · rw [state]
    exact .follow .stopStopping

/-- A poll of a task shows a running object or the end of its run. -/
theorem visible_pollTask (sound : Sound runtime) {serial : Nat} {turn : Turn} {clock : Clock}
    {order : List String}
    (taken : runtime.pollTask serial turn clock order = some (after, events)) (other : Nat) :
    Visible (runtime.state other) (after.state other) := by
  simp only [Runtime.pollTask, Option.bind_eq_some_iff] at taken
  obtain ⟨object, found, taken⟩ := taken
  have good := (sound.object found).1
  have stopped : ∀ current context posted, object.task = .spawned ∨ object.Active →
      Visible (runtime.state other)
        ((runtime.finish serial current context posted none order).1.state other) := by
    intro current context posted started
    change Visible (runtime.state other) ((runtime.put serial _).state other)
    rw [state_put]
    split_ifs with same
    · rw [same, state_of_lookup found]
      exact visible_stopped good started
    · exact .same
  cases task : object.task with
  | none | finished => simp [task] at taken
  | spawned =>
    simp only [task] at taken
    by_cases cancelled : (object.begin clock).cancel = true
    · rw [if_pos cancelled] at taken
      have ended := stopped (object.begin clock)
        (.new object.id object.config object.capabilities clock) none (Or.inl task)
      rwa [Option.some.inj taken] at ended
    · rw [if_neg cancelled, Option.map_eq_some_iff] at taken
      obtain ⟨⟨next, later⟩, turned, same⟩ := taken
      obtain ⟨rfl, rfl⟩ := Prod.mk.inj same
      obtain ⟨last, ends, states⟩ := state_turn (AList.lookup_insert _) turned
      rw [states, state_put]
      split_ifs with own
      · have starting : object.state = .starting := by
          rcases good.state_of_spawned task with state | state
          · exact state
          · exact absurd (good.stopping state).1 cancelled
        rw [own, state_of_lookup found, starting]
        rcases ends with rfl | final
        · exact .follow .run
        · exact .follow (.endStarting final)
      · exact .same
  | running context posted =>
    simp only [task] at taken
    have active : object.Active := ⟨context, posted, task⟩
    by_cases cancelled : object.cancel = true
    · rw [if_pos cancelled] at taken
      have ended := stopped object context posted (Or.inr active)
      rwa [Option.some.inj taken] at ended
    · rw [if_neg cancelled] at taken
      obtain ⟨last, ends, states⟩ := state_turn found taken
      rw [states]
      split_ifs with own
      · have running : object.state = .running := by
          rcases good.state_of_active active with state | state
          · exact state
          · exact absurd (good.stopping state).1 cancelled
        rw [own, state_of_lookup found]
        rcases ends with rfl | final
        · exact .same
        · rw [running]
          exact .follow (.endRunning final)
      · exact .same

end Tasks

section Runs

/-- What can be seen of any object across one step. -/
theorem visible_perform (sound : Sound runtime) {action : Action}
    (taken : runtime.perform action = some (after, events)) (serial : Nat) :
    Visible (runtime.state serial) (after.state serial) := by
  have quiet : ∀ {next : Runtime}, next.heap = runtime.heap →
      Visible (runtime.state serial) (next.state serial) := by
    intro next same
    rw [state, state, same]
    exact .same
  cases action with
  | load request hash config capabilities =>
    simp only [perform, Option.ite_none_left_eq_some] at taken
    obtain rfl : (runtime.load request hash config capabilities).1 = after :=
      congrArg Prod.fst (Option.some.inj taken.2)
    apply quiet
    unfold Runtime.load
    split_ifs <;> rfl
  | loaded request result =>
    simp only [perform, Option.map_eq_some_iff] at taken
    obtain ⟨load, waiting, same⟩ := taken
    obtain rfl : (runtime.finishLoad request load result).1 = after := congrArg Prod.fst same
    rcases result with error | main
    · exact quiet rfl
    · cases main with
      | false => exact quiet rfl
      | true =>
        have entered : (runtime.finishLoad request load (.ok true)).1.state serial =
            if serial = load.serial then some .loaded else runtime.state serial :=
          state_put runtime load.serial serial _
        rw [entered]
        split_ifs with own
        · have fresh : runtime.heap.lookup serial = none :=
            AList.lookup_eq_none.mpr (own ▸ (sound.loading waiting).2)
          simp only [state, fresh]
          exact .load
        · exact .same
  | dropLoad request | dropStop request | status id | response frame | close =>
    obtain rfl := congrArg Prod.fst (Option.some.inj taken)
    exact quiet rfl
  | start id =>
    obtain rfl : (runtime.start id).1 = after := congrArg Prod.fst (Option.some.inj taken)
    unfold Runtime.start
    split
    · exact .same
    · rename_i number object got
      split_ifs with later gone
      · exact .same
      · exact .same
      · rw [state_put]
        split_ifs with own
        · rw [own, state_of_lookup (sound.get_eq_some got).1, not_not.mp later]
          exact .follow .start
        · exact .same
  | stop request id unload order =>
    simp only [perform, Option.ite_none_left_eq_some] at taken
    obtain rfl : (runtime.stop request id unload order).1 = after :=
      congrArg Prod.fst (Option.some.inj taken.2)
    unfold Runtime.stop
    split
    · exact .same
    · rename_i number object got
      exact (halting_proceed (sound.get_eq_some got).1 (halting_stop object) request _ order
        serial).visible
  | shutdown request =>
    simp only [perform, Option.ite_none_left_eq_some] at taken
    obtain rfl : (runtime.shutdown request).1 = after :=
      congrArg Prod.fst (Option.some.inj taken.2)
    unfold Runtime.shutdown
    rw [← state_cancelAll runtime runtime.ordered]
    exact (halting_shutdownFrom _ request _ serial).visible
  | pollStop request order =>
    simp only [perform, Option.bind_eq_some_iff, Option.map_eq_some_iff] at taken
    obtain ⟨call, waiting, object, found, same⟩ := taken
    obtain ⟨current, stored, fits⟩ := sound.stops waiting
    obtain rfl : object = current := Option.some.inj (found.symm.trans stored)
    obtain rfl := congrArg Prod.fst same
    exact (halting_proceed found (halting_pollStop fits) request _ order serial).visible
  | deliver id eventId topic payload =>
    obtain rfl : (runtime.deliver id eventId topic payload).1 = after :=
      congrArg Prod.fst (Option.some.inj taken)
    unfold Runtime.deliver
    split_ifs with excess
    · exact .same
    · split
      · exact .same
      · rename_i number object got
        rw [state_put]
        split_ifs with own
        · rw [own, state_of_lookup (sound.get_eq_some got).1]
          unfold Object.deliver
          split <;> exact .same
        · exact .same
  | poll number turn clock order => exact visible_pollTask sound taken serial
  | next =>
    simp only [perform] at taken
    split at taken
    · obtain rfl := congrArg Prod.fst (Option.some.inj taken)
      exact .same
    · obtain rfl := congrArg Prod.fst (Option.some.inj taken)
      exact quiet rfl
  | control value =>
    simp only [perform, Option.ite_none_right_eq_some] at taken
    obtain rfl := congrArg Prod.fst (Option.some.inj taken.2)
    exact quiet rfl

/-- The program of the object has been invoked, or never will be. -/
def Begun (runtime : Runtime) (serial : Nat) : Prop :=
  ∃ object, runtime.heap.lookup serial = some object ∧ object.task ≠ .none ∧
    object.task ≠ .spawned

/-- An object that has begun has still begun when it is replaced by one that has. -/
theorem Begun.put {serial other : Nat} {next : Object} (begun : Begun runtime serial)
    (keeps : other = serial → next.task ≠ .none ∧ next.task ≠ .spawned) :
    Begun (runtime.put other next) serial := by
  obtain ⟨object, found, task⟩ := begun
  by_cases same : serial = other
  · subst same
    exact ⟨next, AList.lookup_insert _, keeps rfl⟩
  · exact ⟨object, (AList.lookup_insert_ne same).trans found, task⟩

/-- What is done to an object from outside does not begin it anew. -/
theorem tended_begun {serial : Nat} {object next : Object} {events : List Event}
    (tended : Object.Tended serial object events next) (sound : object.Sound)
    (begun : object.task ≠ .none ∧ object.task ≠ .spawned) :
    next.task ≠ .none ∧ next.task ≠ .spawned := by
  have joined : ∀ object : Object, object.join.1.task = object.task := by
    intro object
    rcases object.join_spec with ⟨-, same⟩ | ⟨-, same⟩
    · rw [same]
    · rw [same, Object.release]
  cases tended with
  | start loaded => exact absurd (sound.loaded loaded).1 begun.1
  | stop =>
    rcases object.stop_spec with ⟨-, same⟩ | ⟨-, same⟩ | ⟨-, same⟩
    · rw [same, joined]
      exact begun
    · rw [same]
      exact begun
    · rw [same, joined]
      exact begun
  | pollStop fits =>
    rcases Object.pollStop_spec fits with ⟨same, -⟩ | ⟨-, same | same⟩
    · rw [same]
      exact begun
    · rw [same, joined]
      exact begun
    · rw [same]
      exact begun
  | cancel => exact begun
  | deliver event =>
    unfold Object.deliver
    split <;> exact begun
  | begin clock spawned => exact absurd spawned begun.2

/-- A program that has begun is not started over. -/
theorem Move.begun (move : Move runtime events after) (sound : Sound runtime) {serial : Nat}
    (begun : Begun runtime serial) : Begun after serial := by
  cases move with
  | bind waiting =>
    obtain ⟨object, found, task⟩ := id begun
    refine Begun.put begun ?_
    rintro rfl
    exact absurd (Map.mem_of_lookup found) (sound.loading waiting).2
  | @tend other object next events found tended =>
    refine begun.put ?_
    rintro rfl
    obtain ⟨current, stored, task⟩ := begun
    obtain rfl : object = current := Option.some.inj (found.symm.trans stored)
    exact tended_begun tended (sound.object found).1 task
  | helper | stay | complete => exact Begun.put begun fun _ => ⟨by simp, by simp⟩
  | finish found ending order =>
    refine Begun.put begun ?_
    rintro -
    exact ⟨by simp [Object.settle], by simp [Object.settle]⟩
  | _ => exact begun

/-- Only the first poll of a task invokes the program. -/
theorem Move.invoked (move : Move runtime events after) {serial : Nat}
    (member : .invoked serial ∈ events) :
    events = [.invoked serial] ∧ ¬ Begun runtime serial ∧ Begun after serial := by
  cases move with
  | tend found tended =>
    cases tended with
    | deliver event =>
      split_ifs at member
      · simp at member
      · simp at member
    | begin clock spawned =>
      obtain rfl : serial = _ := by simpa using member
      refine ⟨rfl, ?_, ⟨_, AList.lookup_insert _, by simp [Object.begin], by simp [Object.begin]⟩⟩
      rintro ⟨current, stored, -, started⟩
      exact started (Option.some.inj (found.symm.trans stored) ▸ spawned)
    | _ => cases member
  | @complete other object context ready future guest hosted word envelope found task polled =>
    have silent : ∀ event ∈ handed other (runtime.guest object context) word envelope,
        event ≠ .invoked serial := by
      intro event listed
      unfold handed at listed
      split at listed
      · split_ifs at listed
        · cases listed
        · rw [List.mem_singleton.mp listed]
          simp
      · cases listed
    simp only [List.mem_append, List.mem_map, List.mem_cons, reduceCtorEq, and_false,
      exists_false, false_or] at member
    exact absurd rfl (silent _ member)
  | finish =>
    rw [finish_eq] at member
    simp at member
  | settle => simp [finishStop] at member
  | bind => simp [finishLoad] at member
  | _ => simp at member

/-- `spinfoam.main` is invoked at most once. -/
theorem invoked_once {history : List (Transition Runtime Action Event)}
    (execution : machine.Execution history runtime) (serial : Nat) :
    (trace history).count (.invoked serial) ≤ 1 := by
  refine (invariant_of_moves (fun events runtime => events.count (.invoked serial) ≤ 1 ∧
    (.invoked serial ∈ events → Begun runtime serial)) (by simp) ?_ execution).1
  rintro events runtime more after sound ⟨once, begun⟩ move
  by_cases now : .invoked serial ∈ more
  · obtain ⟨rfl, fresh, started⟩ := move.invoked now
    refine ⟨?_, fun _ => started⟩
    have never : events.count (.invoked serial) = 0 :=
      List.count_eq_zero.mpr fun old => fresh (begun old)
    simp [List.count_append, never]
  · refine ⟨?_, ?_⟩
    · rw [List.count_append, List.count_eq_zero.mpr now, add_zero]
      exact once
    · intro member
      exact move.begun sound (begun ((List.mem_append.mp member).resolve_right now))

/-- No move panics. -/
theorem Move.calm (move : Move runtime events after) : .panicked ∉ events := by
  cases move with
  | tend found tended =>
    cases tended with
    | deliver event => split_ifs <;> simp
    | _ => simp
  | @complete serial object context =>
    unfold handed
    split
    · split_ifs <;> simp
    · simp
  | finish => simp [finish_eq]
  | settle => simp [finishStop]
  | bind => simp [finishLoad]
  | _ => simp

/-- No run panics. -/
theorem not_panicked {history : List (Transition Runtime Action Event)}
    (execution : machine.Execution history runtime) : .panicked ∉ trace history :=
  invariant_of_moves (fun events _ => .panicked ∉ events) (by simp)
    (fun _ calm move => by simpa using ⟨calm, move.calm⟩) execution

/-- The life of every object in every run. -/
theorem object_lifecycle {history : List (Transition Runtime Action Event)}
    (execution : machine.Execution history runtime) :
    (∀ transition ∈ history, ∀ serial,
      Visible (transition.before.state serial) (transition.after.state serial)) ∧
    (∀ earlier middle later, history = earlier ++ middle :: later →
      ∀ serial seen, middle.before.state serial = some seen →
        (seen.terminal = true → runtime.state serial = some seen) ∧
        (seen = .stopping →
          runtime.state serial = some .stopping ∨ runtime.state serial = some .stopped)) ∧
    (∀ serial, (trace history).count (.invoked serial) ≤ 1) ∧
    (∀ serial object, runtime.heap.lookup serial = some object →
      (object.outcome.isSome = true ↔ object.state = .exited ∨ object.state = .failed)) ∧
    .panicked ∉ trace history := by
  have visible : ∀ {before action next events}, machine.Reachable before →
      machine.step before action = some (next, events) →
      ∀ serial, Visible (before.state serial) (next.state serial) := by
    rintro before action next events ⟨run, reached⟩ taken serial
    simp only [machine, Option.ite_none_left_eq_some] at taken
    exact visible_perform (sound_of_reachable reached) taken.2 serial
  refine ⟨?_, ?_, invoked_once execution, ?_, not_panicked execution⟩
  · intro transition member serial
    obtain ⟨reachable, taken⟩ := execution.taken member
    exact visible reachable taken serial
  · intro earlier middle later split serial seen before
    constructor
    · intro final
      refine execution.stable (fun runtime => runtime.state serial = some seen) ?_ split before
      intro state action next events reachable holds taken
      have step := visible reachable taken serial
      rw [holds] at step
      generalize next.state serial = last at step ⊢
      cases step with
      | same => rfl
      | follow follows => cases follows <;> cases final
    · rintro rfl
      refine execution.stable (fun runtime =>
        runtime.state serial = some .stopping ∨ runtime.state serial = some .stopped) ?_ split
        (Or.inl before)
      intro state action next events reachable holds taken
      have step := visible reachable taken serial
      generalize next.state serial = last at step ⊢
      rcases holds with holds | holds
      · rw [holds] at step
        cases step with
        | same => exact Or.inl rfl
        | follow follows =>
          cases follows
          exact Or.inr rfl
      · rw [holds] at step
        cases step with
        | same => exact Or.inr rfl
        | follow follows => cases follows
  · intro serial object found
    exact ((sound_of_reachable execution).object found).1.outcome

set_option maxRecDepth 10000 in
/-- An object that is loaded, started, and exits at the second poll of its task. -/
theorem object_lifecycle_exit :
    ∃ history runtime, machine.run { host := { session := "" } }
        [.load 0 "" .null [], .loaded 0 (.ok true), .start "o1", .poll 1 .idle ⟨0, 0⟩ [],
          .poll 1 (.finish (.ok 0)) ⟨0, 0⟩ []] = some (history, runtime) ∧
      runtime.state 1 = some .exited ∧
      (∀ transition ∈ history, ∀ serial,
        Visible (transition.before.state serial) (transition.after.state serial)) ∧
      .panicked ∉ trace history := by
  obtain ⟨history, runtime, ran, exited⟩ : ∃ history runtime,
      machine.run { host := { session := "" } }
        [.load 0 "" .null [], .loaded 0 (.ok true), .start "o1", .poll 1 .idle ⟨0, 0⟩ [],
          .poll 1 (.finish (.ok 0)) ⟨0, 0⟩ []] = some (history, runtime) ∧
      runtime.state 1 = some .exited := ⟨_, _, rfl, by decide⟩
  obtain ⟨visible, -, -, -, calm⟩ :=
    object_lifecycle (Machine.execution_of_run ⟨"", rfl⟩ ran)
  exact ⟨history, runtime, ran, exited, visible, calm⟩

end Runs

end Spinfoam.Runtime
