import Spinfoam.Serve.Process

/-!
# What a step of a process does

A handler returns at once, or it calls the runtime and returns when that has
answered. Every step of a process has one of a few effects; results about
processes are proved against these.
-/

namespace Spinfoam.Serve

open Spinfoam.Json Spinfoam.Std Spinfoam.Outbox Spinfoam.Guest Spinfoam.Semantics

namespace Process

variable (env : Environment) (fromSlice : List UInt8 → Except String Value)

/-- Why the handler of a task returns a result without another call of the
runtime, and whether the session is initialized behind it. -/
inductive Returns (process : Process) (task : Nat) (asked : Asked) (params : Value) :
    RpcResult → Bool → Prop where
  | answered {moment : Moment} {result : RpcResult} {initialized : Bool}
      (fresh : process.handling task .fresh = some (asked, params))
      (handled : env.handle process.initialized process.session.runtime task moment asked.method
        params = (.answered result, initialized)) :
      Returns process task asked params result initialized
  | compiled (output : Except String Build.Output)
      (compiling : process.handling task .compiling = some (asked, params)) :
      Returns process task asked params
        (.ok (Build.compileResult env.toEncoders env.toolchain false output)) process.initialized

/-- Why the handler of a task calls the runtime. -/
inductive Calls (process : Process) (task : Nat) (asked : Asked) (params : Value) :
    Runtime.Action → Bool → Prop where
  | first {moment : Moment} {action : Runtime.Action} {initialized : Bool}
      (fresh : process.handling task .fresh = some (asked, params))
      (handled : env.handle process.initialized process.session.runtime task moment asked.method
        params = (.calling action, initialized)) :
      Calls process task asked params action initialized
  | loaded (result : Except String Bool)
      (calling : process.handling task .calling = some (asked, params)) :
      Calls process task asked params (.loaded task result) process.initialized
  | stopped (order : List String)
      (calling : process.handling task .calling = some (asked, params)) :
      Calls process task asked params (.pollStop task order) process.initialized

/-- What `Runtime::shutdown` is polled for. -/
inductive Stops (process : Process) : Runtime.Action → Prop where
  | first (left : process.session.left = true) (empty : process.session.tasks.entries = [])
      (serving : process.stage = .serving) : Stops process (.shutdown process.session.spawned)
  | later (order : List String) (stopping : process.stage = .stopping) :
      Stops process (.pollStop process.session.spawned order)

inductive Effect (process : Process) : List Event → Process → Prop where
  | looped {action : Serve.Action} {session : Session} {events : List Serve.Event}
      (loop : ofLoop action = true) (live : process.session.left = false)
      (taken : process.session.perform fromSlice action = some (session, events)) :
      Effect process (events.map .session) (process.adopt fromSlice action session events)
  | returned {task : Nat} {asked : Asked} {params : Value} {result : RpcResult} {initialized : Bool}
      {session : Session} {events : List Serve.Event}
      (returns : Returns env process task asked params result initialized)
      (taken : process.session.perform fromSlice (.handled task result) = some (session, events)) :
      Effect process (.returned asked params result :: events.map .session)
        { process with session, initialized, handlers := process.handlers.erase task }
  | waiting {task : Nat} {asked : Asked} {params : Value} {action : Runtime.Action}
      {initialized : Bool} {session : Session} {events : List Serve.Event}
      (calls : Calls env process task asked params action initialized)
      (taken : process.session.perform fromSlice (.runtime action) = some (session, events))
      (silent : answerIn events = none) :
      Effect process (events.map .session)
        { process with
          session, initialized
          handlers := process.handlers.insert task { params, phase := .calling } }
  | answered {task : Nat} {asked : Asked} {params : Value} {action : Runtime.Action}
      {result : RpcResult} {initialized : Bool} {middle session : Session}
      {events later : List Serve.Event}
      (calls : Calls env process task asked params action initialized)
      (taken : process.session.perform fromSlice (.runtime action) = some (middle, events))
      (answer : answerIn events = some result)
      (sent : middle.perform fromSlice (.handled task result) = some (session, later)) :
      Effect process
        (events.map .session ++ .returned asked params result :: later.map .session)
        { process with session, initialized, handlers := process.handlers.erase task }
  | compiling {task : Nat} {asked : Asked} {params : Value} {moment : Moment}
      {request : Build.Request} {initialized : Bool}
      (fresh : process.handling task .fresh = some (asked, params))
      (handled : env.handle process.initialized process.session.runtime task moment asked.method
        params = (.compiling request, initialized)) :
      Effect process []
        { process with
          initialized
          handlers := process.handlers.insert task { params, phase := .compiling } }
  | guest {object : Nat} {turn : Runtime.Turn} {clock : Clock} {order : List String}
      {session : Session} {events : List Serve.Event}
      (taken : process.session.perform fromSlice (.runtime (.poll object turn clock order)) =
        some (session, events)) :
      Effect process (events.map .session) { process with session }
  | looked (looks : process.writer.looks = true) (empty : process.session.out.next = none) :
      Effect process []
        { process with writer := if process.session.out.closed then .done else .parked }
  | took {frame : Frame} {out : Outbox} (looks : process.writer.looks = true)
      (taken : process.session.out.next = some (frame, out)) :
      Effect process [.session (.written process.session.out.queues.serving frame)]
        { process with
          session := process.session.withOut out
          writer := .writing (encodeUtf8 frame.bytes) }
  | accepted {rest : List UInt8} {count : Nat} (writing : process.writer = .writing rest)
      (some_ : 0 < count) (within : count ≤ rest.length) :
      Effect process [.output (rest.take count)]
        { process with
          writer := if count = rest.length then .idle else .writing (rest.drop count) }
  | broken {rest : List UInt8} {error : String} {session : Session} {events : List Serve.Event}
      (writing : process.writer = .writing rest)
      (taken : process.session.perform fromSlice (.runtime .close) = some (session, events)) :
      Effect process (events.map .session) { process with session, writer := .failed error }
  | cancelled (parked : process.writer = .parked) (closed : process.session.out.closed = true) :
      Effect process [] { process with writer := .done }
  | aborted {number : Nat} {task : Task} (serving : process.stage = .serving)
      (left : process.session.left = true)
      (found : process.session.tasks.lookup number = some task) :
      Effect process [] (process.dropTask number task)
  | stopped {action : Runtime.Action} {runtime : Runtime} {events : List Runtime.Event}
      (stops : Stops process action)
      (taken : Runtime.machine.step process.session.runtime action = some (runtime, events)) :
      Effect process (process.afterShutdown runtime events).2
        (process.afterShutdown runtime events).1
  | finished (draining : process.stage = .draining) :
      Effect process [.ended process.result] { process with stage := .ended process.result }

section Spec

variable {env fromSlice} {process after : Process} {events : List Event} {task : Nat}
  {asked : Asked} {params : Value}

/-- When a handler returns, its result is reported, its task goes on to the response, and
the handler is forgotten. -/
theorem respond_spec {result : RpcResult}
    (taken : process.respond fromSlice task asked params result = some (after, events)) :
    ∃ session later, process.session.perform fromSlice (.handled task result) =
        some (session, later) ∧ events = .returned asked params result :: later.map .session ∧
      after = { process with session, handlers := process.handlers.erase task } := by
  simp only [respond, part, Option.map_map, Option.map_eq_some_iff, Function.comp_apply] at taken
  obtain ⟨⟨session, later⟩, performed, result⟩ := taken
  obtain ⟨rfl, rfl⟩ := Prod.mk.inj result
  exact ⟨session, later, performed, rfl, rfl⟩

/-- A call into the runtime answers at once, or its handler waits for it. -/
theorem call_spec {action : Runtime.Action} {initialized : Bool}
    (calls : Calls env process task asked params action initialized)
    (taken : ({ process with initialized } : Process).call fromSlice task asked params action =
      some (after, events)) : Effect env fromSlice process events after := by
  simp only [call, Option.bind_eq_some_iff] at taken
  obtain ⟨⟨middle, first⟩, performed, taken⟩ := taken
  split at taken
  · rename_i silent
    obtain ⟨rfl, rfl⟩ := Prod.mk.inj (Option.some.inj taken)
    exact .waiting calls performed silent
  · rename_i result answer
    obtain ⟨⟨next, more⟩, responded, same⟩ := Option.map_eq_some_iff.mp taken
    obtain ⟨rfl, rfl⟩ := Prod.mk.inj same
    obtain ⟨session, later, sent, rfl, rfl⟩ := respond_spec responded
    exact .answered calls performed answer sent

/-- The first poll of a handler returns, calls the runtime, or compiles. -/
theorem handle_spec {moment : Moment}
    (taken : process.handle env fromSlice task moment = some (after, events)) :
    Effect env fromSlice process events after := by
  simp only [handle, Option.bind_eq_some_iff] at taken
  obtain ⟨⟨asked, params⟩, fresh, taken⟩ := taken
  cases handled : env.handle process.initialized process.session.runtime task moment asked.method
    params with
  | mk handling initialized =>
    simp only [handled] at taken
    cases handling with
    | answered result =>
      obtain ⟨session, later, sent, rfl, rfl⟩ := respond_spec taken
      exact .returned (.answered fresh handled) sent
    | calling action => exact call_spec (.first fresh handled) taken
    | compiling request =>
      obtain ⟨rfl, rfl⟩ := Prod.mk.inj (Option.some.inj taken)
      exact .compiling fresh handled

/-- Every step has one of the effects. -/
theorem step_spec {action : Action}
    (taken : (machine env fromSlice).step process action = some (after, events)) :
    (∀ result, process.stage ≠ .ended result) ∧ process.session.runtime.panicked = false ∧
      Effect env fromSlice process events after := by
  simp only [machine] at taken
  split at taken
  · cases taken
  rename_i going
  simp only [Option.ite_none_left_eq_some, Bool.not_eq_true] at taken
  obtain ⟨calm, taken⟩ := taken
  refine ⟨fun result => going result, calm, ?_⟩
  cases action with
  | session action =>
    simp only [perform, Option.ite_none_right_eq_some, Option.map_eq_some_iff,
      Bool.not_eq_true'] at taken
    obtain ⟨⟨loop, live⟩, ⟨session, emitted⟩, performed, same⟩ := taken
    obtain ⟨rfl, rfl⟩ := Prod.mk.inj same
    exact .looped loop live performed
  | handle task moment => exact handle_spec taken
  | loaded task result =>
    obtain ⟨⟨asked, params⟩, calling, taken⟩ := Option.bind_eq_some_iff.mp taken
    exact call_spec (.loaded result calling) taken
  | resume task order =>
    obtain ⟨⟨asked, params⟩, calling, taken⟩ := Option.bind_eq_some_iff.mp taken
    exact call_spec (.stopped order calling) taken
  | compiled task output =>
    obtain ⟨⟨asked, params⟩, compiling, taken⟩ := Option.bind_eq_some_iff.mp taken
    obtain ⟨session, later, sent, rfl, rfl⟩ := respond_spec taken
    exact .returned (.compiled output compiling) sent
  | guest object turn clock order =>
    obtain ⟨⟨session, emitted⟩, performed, same⟩ := Option.map_eq_some_iff.mp taken
    obtain ⟨rfl, rfl⟩ := Prod.mk.inj same
    exact .guest performed
  | take =>
    simp only [perform, Option.ite_none_right_eq_some] at taken
    obtain ⟨looks, taken⟩ := taken
    split at taken
    · rename_i empty
      obtain ⟨rfl, rfl⟩ := Prod.mk.inj (Option.some.inj taken)
      exact .looked looks empty
    · rename_i frame out next
      obtain ⟨⟨session, emitted⟩, performed, same⟩ := Option.map_eq_some_iff.mp taken
      obtain ⟨rfl, rfl⟩ := Prod.mk.inj same
      simp only [Session.perform, next, Option.some.injEq, Prod.mk.injEq] at performed
      obtain ⟨rfl, rfl⟩ := performed
      exact .took looks next
  | accept count =>
    simp only [perform] at taken
    split at taken
    · rename_i rest writing
      simp only [Option.ite_none_left_eq_some, not_or, not_lt] at taken
      obtain ⟨⟨positive, within⟩, same⟩ := taken
      obtain ⟨rfl, rfl⟩ := Prod.mk.inj (Option.some.inj same)
      exact .accepted writing (Nat.pos_of_ne_zero positive) within
    · cases taken
  | broken error =>
    simp only [perform] at taken
    split at taken
    · rename_i rest writing
      obtain ⟨⟨session, emitted⟩, performed, same⟩ := Option.map_eq_some_iff.mp taken
      obtain ⟨rfl, rfl⟩ := Prod.mk.inj same
      exact .broken writing performed
    · cases taken
  | cancelWriter =>
    simp only [perform] at taken
    split at taken
    · rename_i parked
      simp only [Option.ite_none_right_eq_some] at taken
      obtain ⟨closed, same⟩ := taken
      obtain ⟨rfl, rfl⟩ := Prod.mk.inj (Option.some.inj same)
      exact .cancelled parked closed
    · cases taken
  | abort number =>
    simp only [perform] at taken
    split at taken
    · rename_i serving
      simp only [Option.ite_none_right_eq_some, Option.map_eq_some_iff] at taken
      obtain ⟨left, task, found, same⟩ := taken
      obtain ⟨rfl, rfl⟩ := Prod.mk.inj same
      exact .aborted serving left found
    · cases taken
  | shutdown =>
    simp only [perform] at taken
    split at taken
    · rename_i serving
      simp only [Option.ite_none_right_eq_some, Option.map_eq_some_iff] at taken
      obtain ⟨⟨left, empty⟩, ⟨runtime, emitted⟩, stepped, same⟩ := taken
      obtain ⟨rfl, rfl⟩ := Prod.mk.inj same
      exact .stopped (.first left empty serving) stepped
    · cases taken
  | pollShutdown order =>
    simp only [perform] at taken
    split at taken
    · rename_i stopping
      obtain ⟨⟨runtime, emitted⟩, stepped, same⟩ := Option.map_eq_some_iff.mp taken
      obtain ⟨rfl, rfl⟩ := Prod.mk.inj same
      exact .stopped (.later order stopping) stepped
    · cases taken
  | finish =>
    simp only [perform] at taken
    split at taken
    · rename_i draining
      obtain ⟨rfl, rfl⟩ := Prod.mk.inj (Option.some.inj taken)
      exact .finished draining
    · cases taken

end Spec

end Process

end Spinfoam.Serve
