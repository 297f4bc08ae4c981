import Spinfoam.Runtime.Moves
import Spinfoam.Serve.Accounting
import Spinfoam.Serve.Handlers

/-!
# The parts of a process

A session steps its runtime only by actions of the runtime, and a process steps
its session only by actions of the session until the loop has been left. What is
known of all runs of the runtime and of all sessions therefore holds in a process.
-/

namespace Spinfoam.Serve

open Spinfoam.Json Spinfoam.Std Spinfoam.Outbox Spinfoam.Guest Spinfoam.Semantics

/-- What the runtime knows of an event of the session. -/
def observed : Event → Option Runtime.Event
  | .runtime event => some event
  | .written _ frame => some (.host (.emitted frame))
  | _ => none

section Sessions

variable {session after : Session} {events : List Event}
  {fromSlice : List UInt8 → Except String Value}

/-- The runtime of the session gets along with actions of its own. -/
def Shown (session : Session) (events : List Event) (after : Session) : Prop :=
  Runtime.machine.Reaches session.runtime (events.filterMap observed) after.runtime

/-- What leaves the runtime alone shows nothing of it. -/
theorem Shown.still (same : after.runtime = session.runtime)
    (silent : events.filterMap observed = []) : Shown session events after := by
  rw [Shown, same, silent]
  exact .refl _

/-- A response is no notice. -/
theorem response_method (id : Value) (result : RpcResult) :
    (response id result).get "method" = none := by
  cases result <;> rfl

/-- Frames that are queued are nothing to the runtime. -/
theorem observed_queued (asked : Option Asked) (frames : List Frame) :
    (frames.map (Event.queued asked)).filterMap observed = [] := by
  rw [List.filterMap_map, List.filterMap_eq_nil_iff]
  exact fun _ _ => rfl

/-- Events of the runtime are seen as they are. -/
theorem observed_runtime (events : List Runtime.Event) :
    (events.map Event.runtime).filterMap observed = events := by
  rw [List.filterMap_map]
  exact List.filterMap_some

/-- A response that is queued is an action of the runtime. -/
theorem reaches_offer (calm : session.runtime.panicked = false) {frame : Frame} {out : Outbox}
    (plain : frame.value.get "method" = none)
    (offered : session.out.offer .control ⟨frame, none⟩ = some out) :
    Runtime.machine.Reaches session.runtime [] (session.withOut out).runtime := by
  have sent : session.runtime.host.out.tryControl frame.value = (out, true) := by
    have encoded : encode frame.value = some frame := encode_eq_some.mpr rfl
    have taken : session.runtime.host.out.offer .control ⟨frame, none⟩ = some out := offered
    simp [Outbox.tryControl, encoded, taken]
  have stepped : Runtime.machine.step session.runtime (.control frame.value) =
      some ((session.withOut out).runtime, []) := by
    simp [Runtime.machine, calm, Runtime.perform, plain, sent, Session.withOut]
  exact .one stepped

/-- An answer of the loop is a control frame to the runtime. -/
theorem shown_answer (calm : session.runtime.panicked = false) (asked : Option Asked)
    {value : Value} (plain : value.get "method" = none) :
    Shown session (session.answer asked value).2 (session.answer asked value).1 := by
  rcases answer_spec session asked value with same | ⟨frame, out, rfl, offered, same⟩
  · rw [same]
    exact .still rfl rfl
  · rw [same]
    exact reaches_offer calm plain offered

/-- A request is at most a control frame to the runtime. -/
theorem shown_request (calm : session.runtime.panicked = false) (asked : Asked) :
    Shown session (session.request asked).2 (session.request asked).1 := by
  have refused : ∀ error result,
      result = session.answer (some asked) (response (.string asked.id) (.error error)) →
      Shown session (.requested asked :: result.2) result.1 := by
    rintro error result rfl
    rw [Shown, List.filterMap_cons]
    exact shown_answer calm (some asked) (response_method (.string asked.id) (.error error))
  unfold Session.request
  split_ifs
  · exact refused _ _ rfl
  · exact refused _ _ rfl
  · exact .still rfl rfl

/-- A value is a response or a control frame to the runtime. -/
theorem shown_receive (calm : session.runtime.panicked = false) (value : Value) :
    Shown session (session.receive value).2 (session.receive value).1 := by
  have rejected (code : Int) (kind message : String) :
      Shown session (session.reject code kind message).2 (session.reject code kind message).1 :=
    shown_answer calm none (response_method .null (.error (.new code kind message)))
  unfold Session.receive
  extract_lets isObject
  by_cases shape : (!isObject) ∨ (value.get "jsonrpc").bind Value.asStr ≠ some "2.0"
  · rw [if_pos shape]
    exact rejected ..
  · rw [if_neg shape]
    by_cases reply : value.get "method" = none ∧ value.get "id" ≠ none ∧
        (value.get "result" ≠ none ∨ value.get "error" ≠ none)
    · rw [if_pos reply]
      have stepped : Runtime.machine.step session.runtime (.response value) =
          some ({ session.runtime with host := (session.runtime.host.response value).1 },
            (session.runtime.host.response value).2.map .host) := by
        simp [Runtime.machine, calm, Runtime.perform]
      have reached := Machine.Reaches.one stepped
      rw [← observed_runtime ((session.runtime.host.response value).2.map .host),
        List.map_map] at reached
      exact reached
    · rw [if_neg reply]
      split
      · exact rejected ..
      · split
        · exact .still rfl rfl
        · split
          · exact rejected ..
          · exact shown_request calm _

/-- A turn of `frame` is a response or a control frame to the runtime. -/
theorem shown_progress (fromSlice : List UInt8 → Except String Value)
    (calm : session.runtime.panicked = false) (progress : Progress) :
    Shown session (session.progress fromSlice progress).2 (session.progress fromSlice progress).1 := by
  cases progress with
  | more | eof | failed => exact .still rfl rfl
  | framed frame rest =>
    have parsed : ∀ {session : Session}, session.runtime.panicked = false →
        Shown session (session.parse fromSlice frame).2 (session.parse fromSlice frame).1 := by
      intro session calm
      unfold Session.parse
      split
      · exact shown_answer calm none (response_method .null _)
      · exact shown_receive calm _
    exact @parsed { session with frame := [], buffer := rest } calm

/-- A response that is sent is a control frame to the runtime. -/
theorem shown_send (calm : session.runtime.panicked = false) (number : Nat) (task : Task)
    {frame : Frame} (plain : frame.value.get "method" = none) (shutdown : Bool) :
    Shown session (session.send number task frame shutdown).2
      (session.send number task frame shutdown).1 := by
  have sent := send_spec session number task frame shutdown
  generalize session.send number task frame shutdown = result at sent ⊢
  obtain ⟨next, more⟩ := result
  cases sent with
  | closed | parked => exact .still rfl rfl
  | queued offered => exact reaches_offer calm plain offered

/-- Every step of the session. -/
theorem shown_perform (calm : session.runtime.panicked = false) (guarded : Guarded session)
    {action : Action} (taken : session.perform fromSlice action = some (after, events)) :
    Shown session events after := by
  cases action with
  | runtime action =>
    simp only [Session.perform, Option.ite_none_right_eq_some, Option.map_eq_some_iff] at taken
    obtain ⟨-, ⟨runtime, emitted⟩, stepped, same⟩ := taken
    obtain ⟨rfl, rfl⟩ := Prod.mk.inj same
    rw [Shown, List.filterMap_append, observed_runtime, observed_queued, List.append_nil]
    exact .one stepped
  | write =>
    simp only [Session.perform] at taken
    split at taken
    · obtain ⟨rfl, rfl⟩ := Prod.mk.inj (Option.some.inj taken)
      exact .still rfl rfl
    · rename_i frame out next
      obtain ⟨rfl, rfl⟩ := Prod.mk.inj (Option.some.inj taken)
      have passed : session.runtime.host.out.next = some (frame, out) := next
      have stepped : Runtime.machine.step session.runtime .next =
          some ((session.withOut out).runtime, [.host (.emitted frame)]) := by
        simp [Runtime.machine, calm, Runtime.perform, passed, Session.withOut]
      exact .one stepped
  | handled number result =>
    simp only [Session.perform, Option.bind_eq_some_iff, Option.ite_none_right_eq_some,
      Option.some.injEq] at taken
    obtain ⟨task, -, -, same⟩ := taken
    unfold Session.handled at same
    extract_lets shutdown at same
    split at same
    · obtain ⟨rfl, rfl⟩ := Prod.mk.inj same
      exact .still rfl rfl
    · rename_i frame encoded
      have sent := shown_send calm number task (answers_of_encodeControl encoded).1 shutdown
      rwa [same] at sent
  | poll number =>
    simp only [Session.perform, Option.bind_eq_some_iff] at taken
    obtain ⟨task, found, taken⟩ := taken
    split at taken
    · rename_i frame shutdown phase
      have sent := shown_send calm number task (guarded.ready found phase).1 shutdown
      rwa [Option.some.inj taken] at sent
    · cases taken
  | signal =>
    obtain ⟨rfl, rfl⟩ := Prod.mk.inj (Option.some.inj taken)
    exact .still rfl rfl
  | leave =>
    simp only [Session.perform, Option.ite_none_right_eq_some, Option.some.injEq,
      Prod.mk.injEq] at taken
    obtain ⟨-, rfl, rfl⟩ := taken
    exact .still rfl rfl
  | joined number =>
    simp only [Session.perform, Option.ite_none_left_eq_some, Option.bind_eq_some_iff,
      Option.ite_none_right_eq_some, Option.some.injEq, Prod.mk.injEq] at taken
    obtain ⟨-, task, -, -, rfl, rfl⟩ := taken
    exact .still rfl rfl
  | frame read =>
    simp only [Session.perform, Option.ite_none_left_eq_some] at taken
    obtain ⟨-, taken⟩ := taken
    by_cases waiting : session.buffer ≠ []
    · rw [if_pos waiting] at taken
      have shown := shown_progress fromSlice calm (frameTurn session.frame session.buffer)
      rwa [Option.some.inj taken] at shown
    · rw [if_neg waiting] at taken
      split at taken
      · obtain ⟨rfl, rfl⟩ := Prod.mk.inj (Option.some.inj taken)
        exact .still rfl rfl
      · rename_i bytes
        obtain ⟨rfl, rfl⟩ := Prod.mk.inj (Option.some.inj taken)
        exact @shown_progress { session with buffer := bytes } fromSlice calm
          (frameTurn session.frame bytes)

/-- A session is a run of its runtime. -/
theorem runtime_simulation (fromSlice : List UInt8 → Except String Value) :
    Simulation (machine fromSlice) Runtime.machine Session.runtime observed where
  initial := by
    rintro session ⟨name, rfl⟩
    exact ⟨name, rfl⟩
  step := by
    rintro session action next events ⟨history, execution⟩ taken
    simp only [machine, Option.ite_none_left_eq_some, not_or, Bool.not_eq_true] at taken
    exact shown_perform taken.1.2 (accounts_of_execution execution).1 taken.2

/-- A step of the runtime that the session takes for one of its parts. -/
theorem perform_runtime {action : Runtime.Action}
    (taken : session.perform fromSlice (.runtime action) = some (after, events)) :
    ofRuntime action = true ∧ ∃ runtime emitted,
      Runtime.machine.step session.runtime action = some (runtime, emitted) ∧
      after = { session with runtime } ∧ events = emitted.map .runtime ++
        (added session.out runtime.host.out).map (.queued none) := by
  simp only [Session.perform, Option.ite_none_right_eq_some, Option.map_eq_some_iff] at taken
  obtain ⟨own, ⟨runtime, emitted⟩, stepped, same⟩ := taken
  obtain ⟨rfl, rfl⟩ := Prod.mk.inj same
  exact ⟨own, runtime, emitted, stepped, rfl, rfl⟩

/-- It is a step of the runtime, whatever has become of the loop. -/
theorem shown_runtime {action : Runtime.Action}
    (taken : session.perform fromSlice (.runtime action) = some (after, events)) :
    Shown session events after := by
  obtain ⟨-, runtime, emitted, stepped, rfl, rfl⟩ := perform_runtime taken
  rw [Shown, List.filterMap_append, observed_runtime, observed_queued, List.append_nil]
  exact .one stepped

end Sessions

namespace Process

variable {env : Environment} {fromSlice : List UInt8 → Except String Value}
  {process after : Process} {events : List Event}

/-- What the session knows of an event of the process. -/
def inner : Event → Option Serve.Event
  | .session event => some event
  | _ => none

/-- Events of the session are seen as they are. -/
theorem inner_session (events : List Serve.Event) :
    (events.map Event.session).filterMap inner = events := by
  rw [List.filterMap_map]
  exact List.filterMap_some

/-- The return of a handler is nothing to the session. -/
theorem inner_append_returned (first later : List Serve.Event) (asked : Asked) (params : Value)
    (result : RpcResult) :
    (first.map Event.session ++ Event.returned asked params result ::
      later.map Event.session).filterMap inner = first ++ later := by
  rw [List.filterMap_append, List.filterMap_cons, inner_session, inner_session]
  rfl

/-- A task whose handler has not returned. -/
theorem handling_spec {task : Nat} {phase : Handler.Phase} {asked : Asked} {params : Value}
    (waits : process.handling task phase = some (asked, params)) :
    process.session.left = false ∧ ∃ found,
      process.session.tasks.lookup task = some found ∧ found.asked = asked ∧
      process.handlers.lookup task = some { params, phase } := by
  simp only [handling, Option.ite_none_left_eq_some, Option.bind_eq_some_iff,
    Option.ite_none_right_eq_some, Option.some.injEq, Prod.mk.injEq, Bool.not_eq_true] at waits
  obtain ⟨live, found, stored, ⟨_, _⟩, held, rfl, rfl, rfl⟩ := waits
  exact ⟨live, found, stored, rfl, held⟩

/-- Handlers return only as long as the loop runs. -/
theorem Returns.live {task : Nat} {asked : Asked} {params : Value} {result : RpcResult}
    {initialized : Bool} (returns : Returns env process task asked params result initialized) :
    process.session.left = false := by
  cases returns with
  | answered waits | compiled _ waits => exact (handling_spec waits).1

/-- Handlers call the runtime only as long as the loop runs. -/
theorem Calls.live {task : Nat} {asked : Asked} {params : Value} {action : Runtime.Action}
    {initialized : Bool} (calls : Calls env process task asked params action initialized) :
    process.session.left = false := by
  cases calls with
  | first waits | loaded _ waits | stopped _ waits => exact (handling_spec waits).1

/-- What the session does while its loop goes on is a step of its machine. -/
theorem reaches_perform {session next : Session} {more : List Serve.Event} {action : Serve.Action}
    (live : session.left = false) (calm : session.runtime.panicked = false)
    (taken : session.perform fromSlice action = some (next, more)) :
    (Serve.machine fromSlice).Reaches session more next := by
  have stepped : (Serve.machine fromSlice).step session action = some (next, more) := by
    simp [Serve.machine, live, calm, taken]
  exact .one stepped

/-- Behind the loop, the function does not go back into it. -/
def Behind (process : Process) : Prop := process.stage = .serving ∨ process.session.left = true

/-- While the loop goes on, a step of the process is a few steps of its session. -/
theorem Effect.reaches (effect : Effect env fromSlice process events after)
    (reached : (Serve.machine fromSlice).Reachable process.session)
    (live : process.session.left = false) (behind : process.Behind) :
    (Serve.machine fromSlice).Reaches process.session (events.filterMap inner) after.session := by
  have sound {session : Session} (reached : (Serve.machine fromSlice).Reachable session) :
      session.runtime.panicked = false := by
    obtain ⟨run, execution⟩ := (runtime_simulation fromSlice).reachable reached
    exact (Runtime.sound_of_reachable execution).calm
  have calm := sound reached
  cases effect with
  | looped loop _ taken =>
    rw [inner_session]
    exact reaches_perform live calm taken
  | returned returns taken =>
    rw [List.filterMap_cons, inner_session]
    exact reaches_perform live calm taken
  | waiting calls taken =>
    rw [inner_session]
    exact reaches_perform live calm taken
  | @answered task asked params action result initialized middle session first later calls taken
      answer sent =>
    have front := reaches_perform live calm taken
    have here : (Serve.machine fromSlice).Reachable middle := by
      obtain ⟨run, execution⟩ := reached
      obtain ⟨more, steps, -⟩ := front
      exact ⟨_, execution.continue steps⟩
    obtain ⟨-, runtime, emitted, -, same, -⟩ := perform_runtime taken
    have goes : middle.left = false := by rw [same, live]
    rw [inner_append_returned]
    exact front.trans (reaches_perform goes (sound here) sent)
  | guest taken =>
    rw [inner_session]
    exact reaches_perform live calm taken
  | broken writing taken =>
    rw [inner_session]
    exact reaches_perform live calm taken
  | @took frame out looks taken =>
    have written : process.session.perform fromSlice .write = some (process.session.withOut out,
        [.written process.session.out.queues.serving frame]) := by
      simp [Session.perform, taken]
    exact reaches_perform live calm written
  | compiling | looked | accepted | cancelled | finished => exact .refl _
  | aborted serving left => exact absurd (live.symm.trans left) Bool.false_ne_true
  | stopped stops =>
    cases stops with
    | first left => exact absurd (live.symm.trans left) Bool.false_ne_true
    | later order stopping =>
      rcases behind with serving | left
      · exact absurd (serving.symm.trans stopping) (by simp)
      · exact absurd (live.symm.trans left) Bool.false_ne_true

/-- The loop is not entered again. -/
theorem Effect.live (effect : Effect env fromSlice process events after)
    (live : after.session.left = false) : process.session.left = false := by
  cases effect with
  | looped _ going => exact going
  | returned returns => exact returns.live
  | waiting calls | answered calls => exact calls.live
  | compiling waits => exact (handling_spec waits).1
  | guest taken | broken _ taken =>
    obtain ⟨-, runtime, emitted, -, rfl, -⟩ := perform_runtime taken
    exact live
  | @aborted number task =>
    rw [← live, dropTask]
    split_ifs <;> rfl
  | looked | took | accepted | cancelled | stopped | finished => exact live

/-- What is behind the loop stays behind it. -/
theorem Effect.behind (effect : Effect env fromSlice process events after)
    (behind : process.Behind) : after.Behind := by
  have still (same : after.stage = process.stage)
      (left : process.session.left = true → after.session.left = true) : after.Behind :=
    behind.imp (same.trans ·) left
  have never {live : process.session.left = false} (same : after.stage = process.stage) :
      after.Behind :=
    still same fun left => absurd (live.symm.trans left) Bool.false_ne_true
  cases effect with
  | looped _ going => exact @never going rfl
  | returned returns => exact @never returns.live rfl
  | waiting calls | answered calls => exact @never calls.live rfl
  | compiling waits => exact @never (handling_spec waits).1 rfl
  | guest taken | broken _ taken =>
    obtain ⟨-, runtime, emitted, -, rfl, -⟩ := perform_runtime taken
    exact still rfl id
  | aborted serving => exact Or.inl serving
  | looked | took | accepted | cancelled => exact still rfl id
  | stopped stops =>
    cases stops with
    | first left => exact Or.inr left
    | later order stopping =>
      exact Or.inr (behind.resolve_left fun serving => by simp [serving] at stopping)
  | finished draining =>
    exact Or.inr (behind.resolve_left fun serving => by simp [serving] at draining)

/-- What the runtime knows of an event of the process. -/
def beneath (event : Event) : Option Runtime.Event := (inner event).bind observed

/-- The runtime knows of the process what it knows of the session. -/
theorem filterMap_beneath (events : List Event) :
    events.filterMap beneath = (events.filterMap inner).filterMap observed := by
  rw [List.filterMap_filterMap]
  rfl

/-- Behind the loop, too, a step of the process is a few steps of the runtime. -/
theorem Effect.reaches_behind (effect : Effect env fromSlice process events after)
    (left : process.session.left = true) (sound : Runtime.Sound process.session.runtime) :
    Runtime.machine.Reaches process.session.runtime (events.filterMap beneath)
      after.session.runtime := by
  have calm := sound.calm
  have never (live : process.session.left = false) : False :=
    absurd (live.symm.trans left) Bool.false_ne_true
  cases effect with
  | looped _ going => exact (never going).elim
  | returned returns => exact (never returns.live).elim
  | waiting calls | answered calls => exact (never calls.live).elim
  | compiling waits => exact (never (handling_spec waits).1).elim
  | guest taken | broken _ taken =>
    rw [filterMap_beneath, inner_session]
    exact shown_runtime taken
  | @took frame out looks taken =>
    have passed : process.session.runtime.host.out.next = some (frame, out) := taken
    have stepped : Runtime.machine.step process.session.runtime .next =
        some ((process.session.withOut out).runtime, [.host (.emitted frame)]) := by
      simp [Runtime.machine, calm, Runtime.perform, passed, Session.withOut]
    exact .one stepped
  | looked | accepted | cancelled | finished => exact .refl _
  | @aborted number task =>
    have loads : Runtime.machine.step process.session.runtime (.dropLoad number) =
        some ({ process.session.runtime with
          loads := process.session.runtime.loads.erase number }, []) := by
      simp [Runtime.machine, calm, Runtime.perform]
    have stops : Runtime.machine.step { process.session.runtime with
          loads := process.session.runtime.loads.erase number } (.dropStop number) =
        some ({ process.session.runtime with
          loads := process.session.runtime.loads.erase number
          stops := process.session.runtime.stops.erase number }, []) := by
      simp [Runtime.machine, calm, Runtime.perform]
    have dropped := (Machine.Reaches.one loads).trans (.one stops)
    rw [List.filterMap_nil, dropTask]
    split_ifs <;> exact dropped
  | @stopped action runtime emitted stops taken =>
    have seen : (process.afterShutdown runtime emitted).2.filterMap beneath = emitted := by
      rw [afterShutdown, List.filterMap_map]
      exact List.filterMap_some
    rw [seen, afterShutdown]
    split_ifs
    · have calmer : runtime.panicked = false := by
        simp only [Runtime.machine, Option.ite_none_left_eq_some] at taken
        exact (sound.moves (Runtime.perform_moves sound taken.2)).calm
      have closed : Runtime.machine.step runtime .close = some ({ runtime with
          host := { runtime.host with out := runtime.host.out.close } }, []) := by
        simp [Runtime.machine, calmer, Runtime.perform]
      simpa using (Machine.Reaches.one taken).trans (.one closed)
    · exact .one taken

variable {history : List (Transition Process Action Event)}

/-- A run of a process, as its parts see it: up to the end of the loop a run of its
session, and up to the end a run of its runtime. -/
theorem parts_of_execution (execution : (machine env fromSlice).Execution history process) :
    process.Behind ∧
      (process.session.left = false → ∃ run,
        (Serve.machine fromSlice).Execution run process.session ∧
        Semantics.trace run = (Semantics.trace history).filterMap inner) ∧
      ∃ run, Runtime.machine.Execution run process.session.runtime ∧
        Semantics.trace run = (Semantics.trace history).filterMap beneath := by
  refine execution.historyInvariant (fun history process => process.Behind ∧
    (process.session.left = false → ∃ run,
      (Serve.machine fromSlice).Execution run process.session ∧
      Semantics.trace run = (Semantics.trace history).filterMap inner) ∧
    ∃ run, Runtime.machine.Execution run process.session.runtime ∧
      Semantics.trace run = (Semantics.trace history).filterMap beneath) ?_ ?_
  · rintro process ⟨name, rfl⟩
    exact ⟨Or.inl rfl, fun _ => ⟨[], .initial ⟨name, rfl⟩, rfl⟩, [], .initial ⟨name, rfl⟩, rfl⟩
  · rintro history process action next events - ⟨behind, session, run, below, seen⟩ taken
    obtain ⟨-, calm, effect⟩ := step_spec taken
    refine ⟨effect.behind behind, ?_, ?_⟩
    · intro live
      obtain ⟨run, above, shown⟩ := session (effect.live live)
      obtain ⟨more, steps, stretch⟩ := effect.reaches above.reachable (effect.live live) behind
      refine ⟨run ++ more, above.continue steps, ?_⟩
      rw [trace_append, shown, stretch, trace_append, List.filterMap_append]
      simp
    · have stretch : Runtime.machine.Reaches process.session.runtime (events.filterMap beneath)
          next.session.runtime := by
        cases left : process.session.left with
        | false =>
          obtain ⟨run, above, -⟩ := session left
          rw [filterMap_beneath]
          exact (runtime_simulation fromSlice).reaches above.reachable
            (effect.reaches above.reachable left behind)
        | true => exact effect.reaches_behind left (Runtime.sound_of_reachable below)
      obtain ⟨more, steps, same⟩ := stretch
      refine ⟨run ++ more, below.continue steps, ?_⟩
      rw [trace_append, seen, same, trace_append, List.filterMap_append]
      simp

end Process

end Spinfoam.Serve
