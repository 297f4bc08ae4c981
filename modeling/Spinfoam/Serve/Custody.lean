import Spinfoam.Runtime.Answers
import Spinfoam.Serve.Parts

/-!
# Requests in flight

A load or a stop that is suspended in the runtime belongs to a request, whose
handler waits for it. The request, its handler and the entry of the runtime come
and go together, in whatever order the parts of the process take their steps.
-/

namespace Spinfoam.Serve

open Spinfoam.Json Spinfoam.Std Spinfoam.Outbox Spinfoam.Guest Spinfoam.Semantics

/-- The request with this number, as long as its handler has not returned. -/
def Session.inHandler (session : Session) (number : Nat) : Option Asked :=
  (session.tasks.lookup number).bind fun task =>
    if task.phase = .handling then some task.asked else none

/-- The method that stops or unloads. -/
def stopMethod (unload : Bool) : String := if unload then "sf.object.unload" else "sf.object.stop"

/-- The calls that a method comes to. -/
inductive Asks (number : Nat) (method : String) (params : Value) : Runtime.Action → Prop where
  | load (hash : String) (config : Value) (capabilities : List Capability)
      (named : method = "sf.object.load") :
      Asks number method params (.load number hash config capabilities)
  | start {id : String} (named : method = "sf.object.start") :
      Asks number method params (.start id)
  | status {id : String} (named : method = "sf.object.get") :
      Asks number method params (.status id)
  | stop {id : String} (unload : Bool) (order : List String) (named : method = stopMethod unload)
      (read : readId params = some id) : Asks number method params (.stop number id unload order)
  | deliver {event : EventParams} (named : method = "sf.event.deliver")
      (read : readEvent params = some event) :
      Asks number method params
        (.deliver event.objectId event.eventId event.topic event.payload)

section Methods

variable {env : Environment} {number : Nat} {method : String} {params : Value}
  {action : Runtime.Action}

/-- What a method asks for is a call of its request. -/
theorem Asks.call (asks : Asks number method params action) : Runtime.CallFor number action := by
  cases asks with
  | load hash config capabilities => exact .load hash config capabilities
  | start => exact .start _
  | status => exact .status _
  | stop unload order => exact .stop _ unload order
  | deliver => exact .deliver ..

/-- What the first poll of a handler comes to, and whether the session is initialized
behind it. -/
inductive Handled (env : Environment) (runtime : Runtime) (number : Nat) (method : String)
    (params : Value) (before : Bool) : Handling → Bool → Prop where
  | refused (error : RpcError) :
      Handled env runtime number method params before (.answered (.error error)) before
  | welcomed (named : method = "sf.initialize") (new : before = false) :
      Handled env runtime number method params before (.answered (.ok (env.welcome runtime))) true
  | informed (value : Value) (old : before = true)
      (named : method ∈ ["sf.object.list", "sf.stats", "sf.shutdown"]) :
      Handled env runtime number method params before (.answered (.ok value)) true
  | calls {action : Runtime.Action} (old : before = true)
      (asks : Asks number method params action) :
      Handled env runtime number method params before (.calling action) true
  | compiles (request : Build.Request) (old : before = true) (named : method = compileMethod) :
      Handled env runtime number method params before (.compiling request) true

/-- Parameters are refused, or read. -/
theorem handled_decoded {runtime : Runtime} {Params : Type} {record : Record}
    {read : Value → Option Params} {go : Params → Handling}
    (goes : ∀ decoded, read params = some decoded →
      Handled env runtime number method params true (go decoded) true) :
    Handled env runtime number method params true (env.decoded record read params go) true := by
  unfold Environment.decoded
  split
  · exact .refused _
  · rename_i decoded accepted
    exact goes decoded accepted

/-- What each method comes to. -/
theorem dispatch_spec (env : Environment) (runtime : Runtime) (number : Nat) (moment : Moment)
    (method : String) (params : Value) :
    Handled env runtime number method params true
      (env.dispatch runtime number moment method params) true := by
  unfold Environment.dispatch
  split
  · refine handled_decoded fun load _ => ?_
    split
    · exact .refused _
    · exact .calls rfl (.load _ _ _ rfl)
  · exact handled_decoded fun id _ => .calls rfl (.start rfl)
  · exact handled_decoded fun id read => .calls rfl (.stop false _ rfl read)
  · exact handled_decoded fun id read => .calls rfl (.stop true _ rfl read)
  · exact handled_decoded fun id _ => .calls rfl (.status rfl)
  · refine handled_decoded fun list _ => ?_
    cases runtime.list list.after list.limit with
    | error error => exact .refused error
    | ok value => exact .informed value rfl (by simp)
  · exact handled_decoded fun event read => .calls rfl (.deliver rfl read)
  · split_ifs
    · exact .informed _ rfl (by simp)
    · exact .refused _
  · split_ifs
    · exact .informed _ rfl (by simp)
    · exact .refused _
  · refine handled_decoded fun request _ => ?_
    split
    · exact .refused _
    · split_ifs
      · exact .compiles request rfl rfl
      · exact .refused _
  · exact .refused _

/-- What the first poll of a handler comes to. -/
theorem handled_spec (env : Environment) (initialized : Bool) (runtime : Runtime) (number : Nat)
    (moment : Moment) (method : String) (params : Value) :
    Handled env runtime number method params initialized
      (env.handle initialized runtime number moment method params).1
      (env.handle initialized runtime number moment method params).2 := by
  unfold Environment.handle
  split_ifs with first waiting
  · unfold Environment.init
    split
    · exact .refused _
    · split_ifs with version again
      · exact .refused _
      · subst again
        exact .refused _
      · exact .welcomed first (by simpa using again)
  · obtain rfl : initialized = false := by simpa using waiting
    exact .refused _
  · obtain rfl : initialized = true := by simpa using waiting
    exact dispatch_spec env runtime number moment method params

/-- What a first poll comes to that is known by its result. -/
theorem handled_of_eq {runtime : Runtime} {moment : Moment} {before initialized : Bool}
    {handling : Handling}
    (handled : env.handle before runtime number moment method params = (handling, initialized)) :
    Handled env runtime number method params before handling initialized := by
  have spec := handled_spec env before runtime number moment method params
  rwa [handled] at spec

end Methods

/-- What the call of a request waits for. -/
inductive Awaits (runtime : Runtime) (number : Nat) (asked : Asked) (params : Value) : Prop where
  | load {load : Runtime.Load} (method : asked.method = "sf.object.load")
      (waiting : runtime.loads.lookup number = some load) (idle : number ∉ runtime.stops)
  | stop {call : Runtime.StopCall} {unload : Bool} (method : asked.method = stopMethod unload)
      (waiting : runtime.stops.lookup number = some call) (purpose : call.purpose = .request unload)
      (named : readId params = some (Runtime.objectId call.object)) (idle : number ∉ runtime.loads)

namespace Process

/-- Where the request with a number is, and what belongs to it. -/
inductive Custody (process : Process) (number : Nat) : Prop where
  /-- There is no such request, or its handler has returned. -/
  | idle (request : process.session.inHandler number = none)
      (handler : process.handlers.lookup number = none)
      (loads : number ∉ process.session.runtime.loads)
      (stops : number ∉ process.session.runtime.stops) : Custody process number
  | busy {asked : Asked} {handler : Handler}
      (request : process.session.inHandler number = some asked)
      (held : process.handlers.lookup number = some handler) (phase : handler.phase ≠ .calling)
      (compiles : handler.phase = .compiling → asked.method = compileMethod)
      (loads : number ∉ process.session.runtime.loads)
      (stops : number ∉ process.session.runtime.stops) : Custody process number
  | calling {asked : Asked} {params : Value}
      (request : process.session.inHandler number = some asked)
      (held : process.handlers.lookup number = some { params, phase := .calling })
      (awaits : Awaits process.session.runtime number asked params) : Custody process number

end Process

section Loop

variable {session after : Session} {events : List Event}
  {fromSlice : List UInt8 → Except String Value}

/-- The events of the loop: of the runtime it moves the host only, and it writes nothing. -/
def Event.ofLoop : Event → Bool
  | .runtime (.host _) => true
  | .runtime _ | .written _ _ => false
  | _ => true

/-- What a step of the loop leaves of the requests in flight. -/
structure Looped (session : Session) (events : List Event) (after : Session) : Prop where
  loads : after.runtime.loads = session.runtime.loads
  stops : after.runtime.stops = session.runtime.stops
  requests : (after.spawned = session.spawned ∧ after.inHandler = session.inHandler) ∨
    after.spawned = session.spawned + 1 ∧ ∃ asked, after.inHandler =
      Function.update session.inHandler session.spawned (some asked)
  events : ∀ event ∈ events, event.ofLoop = true

/-- A change of a task whose handler has returned. -/
theorem inHandler_insert {number : Nat} {task next : Task}
    (found : session.tasks.lookup number = some task) (returned : task.phase ≠ .handling)
    (still : next.phase ≠ .handling) (same : after.tasks = session.tasks.insert number next) :
    after.inHandler = session.inHandler := by
  funext other
  rw [Session.inHandler, Session.inHandler, same]
  by_cases here : other = number
  · subst here
    simp [found, returned, still]
  · rw [AList.lookup_insert_ne here]

/-- A task that is not in its handler can be joined. -/
theorem inHandler_erase {number : Nat} {task : Task}
    (found : session.tasks.lookup number = some task) (returned : task.phase ≠ .handling)
    (same : after.tasks = session.tasks.erase number) : after.inHandler = session.inHandler := by
  funext other
  rw [Session.inHandler, Session.inHandler, same]
  by_cases here : other = number
  · subst here
    simp [found, returned]
  · rw [AList.lookup_erase_ne here]

/-- What leaves the tables of the runtime alone belongs to the loop. -/
theorem Looped.still (loads : after.runtime.loads = session.runtime.loads)
    (stops : after.runtime.stops = session.runtime.stops)
    (spawned : after.spawned = session.spawned) (requests : after.inHandler = session.inHandler)
    (own : ∀ event ∈ events, event.ofLoop = true) : Looped session events after :=
  ⟨loads, stops, Or.inl ⟨spawned, requests⟩, own⟩

/-- What is received leaves the tables of the runtime alone. -/
theorem Received.looped (received : Received session events after) :
    Looped session events after := by
  cases received with
  | @spawned asked =>
    refine ⟨rfl, rfl, Or.inr ⟨rfl, asked, ?_⟩, by simp [Event.ofLoop]⟩
    funext number
    rw [Session.inHandler, Session.spawn]
    by_cases here : number = session.spawned
    · subst here
      simp
    · rw [Function.update_of_ne here, AList.lookup_insert_ne here]
      rfl
  | answered =>
    refine ⟨rfl, rfl, Or.inl ⟨rfl, rfl⟩, fun event member => ?_⟩
    obtain ⟨inner, -, rfl⟩ := List.mem_map.mp member
    rfl
  | _ => exact .still rfl rfl rfl rfl (by simp [Event.ofLoop])

/-- A turn of `frame` leaves the tables of the runtime alone. -/
theorem looped_progress (fromSlice : List UInt8 → Except String Value) (session : Session)
    (progress : Progress) :
    Looped session (session.progress fromSlice progress).2
      (session.progress fromSlice progress).1 := by
  cases progress with
  | more | eof | failed => exact .still rfl rfl rfl rfl (by simp [Session.progress])
  | framed frame rest =>
    have looped := (parse_spec fromSlice { session with frame := [], buffer := rest } frame).looped
    exact ⟨looped.loads, looped.stops, looped.requests,
      by simpa [Session.progress, Event.ofLoop] using looped.events⟩

/-- A response leaves the tables of the runtime alone. -/
theorem Sent.looped {number : Nat} {task : Task} {frame : Frame} {shutdown : Bool}
    (sent : Sent session number task frame shutdown events after)
    (found : session.tasks.lookup number = some task) (returned : task.phase ≠ .handling) :
    Looped session events after := by
  cases sent with
  | closed | queued =>
    exact .still rfl rfl rfl (inHandler_insert found returned (by simp) rfl) (by simp [Event.ofLoop])
  | parked =>
    exact .still rfl rfl rfl (inHandler_insert found returned (by simp) rfl) (by simp)

/-- Nothing that the loop does touches a suspended load or stop. -/
theorem looped_perform {action : Action} (loop : Process.ofLoop action = true)
    (taken : session.perform fromSlice action = some (after, events)) :
    Looped session events after := by
  cases action with
  | runtime | write | handled => cases loop
  | signal =>
    obtain ⟨rfl, rfl⟩ := Prod.mk.inj (Option.some.inj taken)
    exact .still rfl rfl rfl rfl (by simp)
  | leave =>
    simp only [Session.perform, Option.ite_none_right_eq_some, Option.some.injEq,
      Prod.mk.injEq] at taken
    obtain ⟨-, rfl, rfl⟩ := taken
    exact .still rfl rfl rfl rfl (by simp)
  | joined number =>
    simp only [Session.perform, Option.ite_none_left_eq_some, Option.bind_eq_some_iff,
      Option.ite_none_right_eq_some, Option.some.injEq, Prod.mk.injEq] at taken
    obtain ⟨-, task, found, phase, rfl, rfl⟩ := taken
    exact .still rfl rfl rfl (inHandler_erase found (by simp [phase]) rfl) (by simp)
  | poll number =>
    simp only [Session.perform, Option.bind_eq_some_iff] at taken
    obtain ⟨task, found, taken⟩ := taken
    split at taken
    · rename_i frame shutdown phase
      have sent := send_spec session number task frame shutdown
      rw [Option.some.inj taken] at sent
      exact sent.looped found (by simp [phase])
    · cases taken
  | frame read =>
    simp only [Session.perform, Option.ite_none_left_eq_some] at taken
    obtain ⟨-, taken⟩ := taken
    by_cases waiting : session.buffer ≠ []
    · rw [if_pos waiting] at taken
      have looped := looped_progress fromSlice session (frameTurn session.frame session.buffer)
      rwa [Option.some.inj taken] at looped
    · rw [if_neg waiting] at taken
      split at taken
      · obtain ⟨rfl, rfl⟩ := Prod.mk.inj (Option.some.inj taken)
        exact .still rfl rfl rfl rfl (by simp)
      · rename_i bytes
        have looped := looped_progress fromSlice { session with buffer := bytes }
          (frameTurn session.frame bytes)
        obtain ⟨rfl, rfl⟩ := Prod.mk.inj (Option.some.inj taken)
        exact ⟨looped.loads, looped.stops, looped.requests, by simpa [Event.ofLoop] using looped.events⟩

/-- When a handler returns, its request has no handler any more. -/
theorem returned_handled {number : Nat} {result : RpcResult}
    (taken : session.perform fromSlice (.handled number result) = some (after, events)) :
    after.runtime.loads = session.runtime.loads ∧ after.runtime.stops = session.runtime.stops ∧
      after.spawned = session.spawned ∧
      after.inHandler = Function.update session.inHandler number none ∧
      ∀ event ∈ events, event.ofLoop = true := by
  have ended : ∀ {next : Session} {last task : Task}, last.phase ≠ .handling →
      next.tasks = session.tasks.insert number last →
      next.inHandler = Function.update session.inHandler number none := by
    intro next last task returned same
    funext other
    rw [Session.inHandler, same]
    by_cases here : other = number
    · subst here
      simp [returned]
    · rw [Function.update_of_ne here, AList.lookup_insert_ne here]
      rfl
  simp only [Session.perform, Option.bind_eq_some_iff, Option.ite_none_right_eq_some,
    Option.some.injEq] at taken
  obtain ⟨task, -, -, same⟩ := taken
  unfold Session.handled at same
  extract_lets shutdown at same
  split at same
  · obtain ⟨rfl, rfl⟩ := Prod.mk.inj same
    exact ⟨rfl, rfl, rfl, @ended _ { task with phase := .finished } task (by simp) rfl,
      by simp [Event.ofLoop]⟩
  · rename_i frame encoded
    have sent := send_spec session number task frame shutdown
    rw [same] at sent
    cases sent with
    | closed | queued =>
      exact ⟨rfl, rfl, rfl, @ended _ { task with phase := .finished } task (by simp) rfl,
      by simp [Event.ofLoop]⟩
    | parked =>
      exact ⟨rfl, rfl, rfl, @ended _ { task with phase := .sending frame shutdown } task (by simp) rfl,
        by simp⟩

end Loop

section Calls

variable {runtime after : Runtime} {number : Nat} {asked : Asked} {params : Value}
  {action : Runtime.Action} {events : List Runtime.Event}

/-- Why the request with this number calls the runtime, with what it has waited for. -/
inductive Called (runtime : Runtime) (number : Nat) (asked : Asked) (params : Value) :
    Runtime.Action → Prop where
  | first {action : Runtime.Action} (asks : Asks number asked.method params action)
      (loads : number ∉ runtime.loads) (stops : number ∉ runtime.stops) :
      Called runtime number asked params action
  | loaded (result : Except String Bool) {load : Runtime.Load}
      (method : asked.method = "sf.object.load")
      (waiting : runtime.loads.lookup number = some load) (idle : number ∉ runtime.stops) :
      Called runtime number asked params (.loaded number result)
  | stopped (order : List String) {call : Runtime.StopCall} {unload : Bool}
      (method : asked.method = stopMethod unload)
      (waiting : runtime.stops.lookup number = some call) (purpose : call.purpose = .request unload)
      (named : readId params = some (Runtime.objectId call.object))
      (idle : number ∉ runtime.loads) :
      Called runtime number asked params (.pollStop number order)

/-- What is called is a call of the request. -/
theorem Called.call (called : Called runtime number asked params action) :
    Runtime.CallFor number action := by
  cases called with
  | first asks => exact asks.call
  | loaded result => exact .loaded result
  | stopped order => exact .pollStop order

/-- The stop that a handler polls is one for its request. -/
theorem Called.purpose (called : Called runtime number asked params action)
    (call : Runtime.StopCall) (waiting : runtime.stops.lookup number = some call) :
    ∃ unload, call.purpose = .request unload := by
  cases called with
  | first _ _ stops => exact absurd (Map.mem_of_lookup waiting) stops
  | loaded _ _ _ idle => exact absurd (Map.mem_of_lookup waiting) idle
  | @stopped _ current unload _ found purpose =>
    obtain rfl := Option.some.inj (found.symm.trans waiting)
    exact ⟨unload, purpose⟩

/-- Where the call leaves the request. -/
theorem Called.stands (called : Called runtime number asked params action)
    (sound : Runtime.Sound runtime) (taken : runtime.perform action = some (after, events)) :
    Runtime.Stands runtime after number action (Runtime.answer events) := by
  refine called.call.stands sound ?_ ?_ called.purpose taken
  · intro member
    cases called with
    | first _ loads => exact absurd member loads
    | loaded result => exact ⟨result, rfl⟩
    | stopped _ _ _ _ _ idle => exact absurd member idle
  · intro member
    cases called with
    | first _ _ stops => exact absurd member stops
    | loaded _ _ _ idle => exact absurd member idle
    | stopped order => exact ⟨order, rfl⟩

/-- A call that has not answered waits for what its method is about. -/
theorem Called.awaits (called : Called runtime number asked params action)
    (stands : Runtime.Stands runtime after number action none) :
    Awaits after number asked params := by
  cases called with
  | first asks =>
    cases stands with
    | loading hash config capabilities waiting idle =>
      cases asks with
      | load _ _ _ named => exact .load named waiting idle
    | stopping order waiting purpose named idle =>
      cases asks with
      | stop _ _ method read => exact .stop method waiting purpose (named ▸ read) idle
    | still => cases asks
  | loaded result => cases stands
  | stopped order method waiting purpose named =>
    cases stands with
    | still _ was found kept object idle =>
      obtain rfl := Option.some.inj (was.symm.trans waiting)
      exact .stop method found (kept.trans purpose) (object ▸ named) idle

end Calls

namespace Process

variable {env : Environment} {fromSlice : List UInt8 → Except String Value}
  {process after : Process} {number : Nat}

/-- The request whose handler has not returned. -/
theorem inHandler_eq_some {session : Session} {asked : Asked} :
    session.inHandler number = some asked ↔
      ∃ task, session.tasks.lookup number = some task ∧ task.phase = .handling ∧
        task.asked = asked := by
  simp only [Session.inHandler, Option.bind_eq_some_iff, Option.ite_none_right_eq_some,
    Option.some.injEq]

/-- What a step does elsewhere leaves a request as it is. -/
theorem Custody.congr (custody : process.Custody number)
    (request : after.session.inHandler number = process.session.inHandler number)
    (handler : after.handlers.lookup number = process.handlers.lookup number)
    (loads : after.session.runtime.loads.lookup number =
      process.session.runtime.loads.lookup number)
    (stops : Runtime.Undisturbed (process.session.runtime.stops.lookup number)
      (after.session.runtime.stops.lookup number)) : after.Custody number := by
  have unloaded (absent : number ∉ process.session.runtime.loads) :
      number ∉ after.session.runtime.loads := by
    rw [← AList.lookup_eq_none] at absent ⊢
    rw [loads, absent]
  have unstopped (absent : number ∉ process.session.runtime.stops) :
      number ∉ after.session.runtime.stops := by
    rw [← AList.lookup_eq_none] at absent ⊢
    rw [absent] at stops
    generalize after.session.runtime.stops.lookup number = waiting at stops
    cases stops
    rfl
  cases custody with
  | idle asked held free quiet =>
    exact .idle (request.trans asked) (handler.trans held) (unloaded free) (unstopped quiet)
  | busy asked held phase compiles free quiet =>
    exact .busy (request.trans asked) (handler.trans held) phase compiles (unloaded free)
      (unstopped quiet)
  | calling asked held awaits =>
    refine .calling (request.trans asked) (handler.trans held) ?_
    cases awaits with
    | load method waiting idle => exact .load method (loads.trans waiting) (unstopped idle)
    | @stop call unload method waiting purpose named idle =>
      rw [waiting] at stops
      generalize found : after.session.runtime.stops.lookup number = current at stops
      cases stops with
      | same => exact .stop method found purpose named (unloaded idle)
      | woken serial =>
        have kept : (call.wake serial).purpose = call.purpose ∧
            (call.wake serial).object = call.object := by
          unfold Runtime.StopCall.wake
          split
          · split_ifs <;> exact ⟨rfl, rfl⟩
          · exact ⟨rfl, rfl⟩
        exact .stop method found (kept.1.trans purpose) (kept.2.symm ▸ named) (unloaded idle)

/-- The request that a handler in some phase belongs to. -/
theorem handling_custody {phase : Handler.Phase} {asked : Asked} {params : Value}
    (waits : process.handling number phase = some (asked, params))
    (custody : process.Custody number) :
    process.session.inHandler number = some asked ∧
      (phase ≠ .calling → number ∉ process.session.runtime.loads ∧
        number ∉ process.session.runtime.stops) ∧
      (phase = .calling → Awaits process.session.runtime number asked params) ∧
      (phase = .compiling → asked.method = compileMethod) := by
  obtain ⟨-, task, found, rfl, held⟩ := handling_spec waits
  have same : ∀ {other : Asked}, process.session.inHandler number = some other →
      other = task.asked := by
    intro other request
    obtain ⟨current, stored, -, rfl⟩ := inHandler_eq_some.mp request
    rw [Option.some.inj (found.symm.trans stored)]
  cases custody with
  | idle _ handler => exact absurd (held.symm.trans handler) (by simp)
  | busy request handler outside compiles loads stops =>
    obtain rfl := same request
    obtain rfl := Option.some.inj (held.symm.trans handler)
    exact ⟨request, fun _ => ⟨loads, stops⟩, fun calling => absurd calling outside, compiles⟩
  | calling request handler awaits =>
    obtain rfl := same request
    obtain ⟨rfl, rfl⟩ := Handler.mk.inj (Option.some.inj (held.symm.trans handler))
    exact ⟨request, fun outside => absurd rfl outside, fun _ => awaits, fun other => by cases other⟩

/-- A call is one of the request in whose custody it is. -/
theorem Calls.called {asked : Asked} {params : Value} {action : Runtime.Action}
    {initialized : Bool} {runtime : Runtime} {events : List Runtime.Event}
    (calls : Calls env process number asked params action initialized)
    (custody : process.Custody number)
    (taken : process.session.runtime.perform action = some (runtime, events)) :
    process.session.inHandler number = some asked ∧
      Called process.session.runtime number asked params action := by
  cases calls with
  | first fresh handled =>
    obtain ⟨request, free, -, -⟩ := handling_custody fresh custody
    obtain ⟨loads, stops⟩ := free (by simp)
    cases handled_of_eq handled with
    | calls _ asks => exact ⟨request, .first asks loads stops⟩
  | loaded result calling =>
    obtain ⟨request, -, waits, -⟩ := handling_custody calling custody
    refine ⟨request, ?_⟩
    cases waits rfl with
    | load method waiting idle => exact .loaded result method waiting idle
    | stop _ _ _ _ idle =>
      rw [Runtime.perform, AList.lookup_eq_none.mpr idle] at taken
      cases taken
  | stopped order calling =>
    obtain ⟨request, -, waits, -⟩ := handling_custody calling custody
    refine ⟨request, ?_⟩
    cases waits rfl with
    | load _ _ idle =>
      rw [Runtime.perform, AList.lookup_eq_none.mpr idle] at taken
      cases taken
    | stop method waiting purpose named idle =>
      exact .stopped order method waiting purpose named idle

/-- The session sees the answers of the runtime. -/
theorem answerIn_runtime (events : List Runtime.Event) (frames : List Frame) :
    answerIn (events.map .runtime ++ frames.map (.queued none)) = Runtime.answer events := by
  have silent : answerIn (frames.map (.queued none)) = none := by
    rw [answerIn, List.findSome?_map, List.findSome?_eq_none_iff]
    exact fun _ _ => rfl
  have split (first later : List Serve.Event) :
      answerIn (first ++ later) = (answerIn first).or (answerIn later) :=
    List.findSome?_append
  rw [split, silent, Option.or_none, answerIn, List.findSome?_map, Runtime.answer]
  congr 1
  funext event
  cases event <;> rfl

/-- What a call leaves behind, whether it has answered or not. -/
theorem Calls.outcome {asked : Asked} {params : Value} {action : Runtime.Action}
    {initialized : Bool} {session : Session} {events : List Serve.Event}
    (calls : Calls env process number asked params action initialized)
    (custody : process.Custody number) (sound : Runtime.Sound process.session.runtime)
    (taken : process.session.perform fromSlice (.runtime action) = some (session, events)) :
    process.session.inHandler number = some asked ∧
      ∃ runtime emitted, process.session.runtime.perform action = some (runtime, emitted) ∧
        session = { process.session with runtime } ∧
        events = emitted.map .runtime ++
          (added process.session.out runtime.host.out).map (.queued none) ∧
        Called process.session.runtime number asked params action ∧
        Runtime.Stands process.session.runtime runtime number action (answerIn events) := by
  obtain ⟨-, runtime, emitted, stepped, rfl, rfl⟩ := perform_runtime taken
  simp only [Runtime.machine, Option.ite_none_left_eq_some] at stepped
  obtain ⟨request, called⟩ := calls.called custody stepped.2
  refine ⟨request, runtime, emitted, stepped.2, rfl, rfl, called, ?_⟩
  rw [answerIn_runtime]
  exact called.stands sound stepped.2

/-- A request whose handler has returned has left nothing behind. -/
theorem custody_returned {middle session : Session} {handlers : Map Nat Handler} {initialized : Bool}
    {result : RpcResult} {later : List Serve.Event} {task : Nat}
    (custody : ∀ other ≠ task, ({ process with session := middle } : Process).Custody other)
    (loads : task ∉ middle.runtime.loads) (stops : task ∉ middle.runtime.stops)
    (same : handlers = process.handlers.erase task)
    (sent : middle.perform fromSlice (.handled task result) = some (session, later)) (number : Nat) :
    ({ process with session, initialized, handlers } : Process).Custody number := by
  obtain ⟨sameLoads, sameStops, -, request, -⟩ := returned_handled sent
  subst same
  by_cases here : number = task
  · subst here
    refine .idle ?_ (AList.lookup_erase ..) (sameLoads ▸ loads) (sameStops ▸ stops)
    rw [request, Function.update_self]
  · refine (custody number here).congr ?_ (AList.lookup_erase_ne here) ?_ ?_
    · rw [request, Function.update_of_ne here]
    · rw [sameLoads]
    · rw [sameStops]
      exact .same

/-- Every step of a process keeps the custody. -/
theorem Effect.custody {events : List Event} (effect : Effect env fromSlice process events after)
    (sound : Runtime.Sound process.session.runtime) (guarded : Guarded process.session)
    (custody : process.stage = .serving → ∀ number, process.Custody number)
    (serving : after.stage = .serving) (number : Nat) : after.Custody number := by
  cases effect with
  | @looped action session events loop _ taken =>
    have here := custody serving number
    obtain ⟨loads, stops, ⟨spawned, requests⟩ | ⟨spawned, asked, requests⟩, -⟩ :=
      looped_perform loop taken
    · refine here.congr (congrFun requests number) ?_ (by rw [adopt, loads]) ?_
      · rw [adopt, if_pos spawned]
      · rw [adopt, stops]
        exact .same
    · have grown : session.spawned ≠ process.session.spawned := by omega
      by_cases new : number = process.session.spawned
      · subst new
        have absent : process.session.inHandler process.session.spawned = none := by
          rw [Session.inHandler, guarded.unnumbered]
          rfl
        have held : (process.adopt fromSlice action session events).handlers.lookup
            process.session.spawned = some { params := parameters fromSlice events } := by
          rw [adopt, if_neg grown]
          exact AList.lookup_insert _
        have fresh : session.inHandler process.session.spawned = some asked := by
          rw [requests, Function.update_self]
        cases here with
        | idle _ _ free quiet =>
          refine .busy fresh held (by simp) (by simp) ?_ ?_
          · rwa [adopt, loads]
          · rwa [adopt, stops]
        | busy request | calling request => exact absurd (absent.symm.trans request) (by simp)
      · refine here.congr ?_ ?_ (by rw [adopt, loads]) ?_
        · exact (congrFun requests number).trans (Function.update_of_ne new ..)
        · rw [adopt, if_neg grown]
          exact AList.lookup_insert_ne new
        · rw [adopt, stops]
          exact .same
  | @returned task asked params result initialized session events returns taken =>
    have free : task ∉ process.session.runtime.loads ∧ task ∉ process.session.runtime.stops := by
      cases returns with
      | answered waits => exact (handling_custody waits (custody serving task)).2.1 (by simp)
      | compiled _ waits => exact (handling_custody waits (custody serving task)).2.1 (by simp)
    exact custody_returned (fun other _ => custody serving other) free.1 free.2 rfl taken number
  | @waiting task asked params action initialized session events calls taken silent =>
    obtain ⟨request, runtime, emitted, stepped, rfl, -, called, stands⟩ :=
      calls.outcome (custody serving task) sound taken
    rw [silent] at stands
    by_cases here : number = task
    · subst here
      exact .calling request (AList.lookup_insert _) (called.awaits stands)
    · obtain ⟨loads, stops⟩ := called.call.elsewhere stepped here
      exact (custody serving number).congr rfl (AList.lookup_insert_ne here) loads stops
  | @answered task asked params action result initialized middle session first later calls taken
      answer sent =>
    obtain ⟨request, runtime, emitted, stepped, rfl, -, called, stands⟩ :=
      calls.outcome (custody serving task) sound taken
    rw [answer] at stands
    obtain ⟨loads, stops⟩ : task ∉ runtime.loads ∧ task ∉ runtime.stops := by
      cases stands with
      | answered _ _ loads stops => exact ⟨loads, stops⟩
    refine custody_returned ?_ loads stops rfl sent number
    intro other there
    obtain ⟨sameLoads, sameStops⟩ := called.call.elsewhere stepped there
    exact (custody serving other).congr rfl rfl sameLoads sameStops
  | @compiling task asked params moment build initialized fresh handled =>
    by_cases here : number = task
    · subst here
      obtain ⟨request, free, -, -⟩ := handling_custody fresh (custody serving number)
      obtain ⟨loads, stops⟩ := free (by simp)
      have compiles : asked.method = compileMethod := by
        cases handled_of_eq handled with
        | compiles _ _ named => exact named
      exact .busy request (AList.lookup_insert _) (by simp) (fun _ => compiles) loads stops
    · exact (custody serving number).congr rfl (AList.lookup_insert_ne here) rfl .same
  | guest taken =>
    obtain ⟨-, runtime, emitted, stepped, rfl, -⟩ := perform_runtime taken
    simp only [Runtime.machine, Option.ite_none_left_eq_some] at stepped
    refine (custody serving number).congr rfl rfl ?_ ?_
    · rw [show runtime.loads = _ from (Runtime.unasked_pollTask stepped.2).loads]
    · exact Runtime.undisturbed_pollTask stepped.2 number
  | broken _ taken =>
    obtain ⟨-, runtime, emitted, stepped, rfl, -⟩ := perform_runtime taken
    simp only [Runtime.machine, Runtime.perform, Option.ite_none_left_eq_some] at stepped
    obtain ⟨rfl, -⟩ := Prod.mk.inj (Option.some.inj stepped.2)
    exact (custody serving number).congr rfl rfl rfl .same
  | looked | took | accepted | cancelled => exact (custody serving number).congr rfl rfl rfl .same
  | @aborted dropped task running _ found =>
    have request : (process.dropTask dropped task).session.inHandler =
        Function.update process.session.inHandler dropped none := by
      funext other
      rw [Session.inHandler, dropTask]
      by_cases here : other = dropped
      · subst here
        simp
      · rw [Function.update_of_ne here, AList.lookup_erase_ne here]
        split_ifs
        · rw [Session.finish, AList.lookup_insert_ne here]
          rfl
        · rfl
    have runtime : (process.dropTask dropped task).session.runtime =
        { process.session.runtime with
          loads := process.session.runtime.loads.erase dropped
          stops := process.session.runtime.stops.erase dropped } := by
      rw [dropTask]
      split_ifs <;> rfl
    by_cases here : number = dropped
    · subst here
      refine .idle ?_ (AList.lookup_erase ..) ?_ ?_
      · rw [request, Function.update_self]
      · rw [runtime]
        exact fun member => (AList.mem_erase.mp member).1 rfl
      · rw [runtime]
        exact fun member => (AList.mem_erase.mp member).1 rfl
    · refine (custody running number).congr ?_ (AList.lookup_erase_ne here) ?_ ?_
      · rw [request, Function.update_of_ne here]
      · rw [runtime]
        exact AList.lookup_erase_ne here
      · rw [runtime, AList.lookup_erase_ne here]
        exact .same
  | @stopped action runtime events =>
    simp only [afterShutdown] at serving
    split_ifs at serving
  | finished => cases serving

/-- Behind the loop tasks only end. -/
theorem Effect.guarded_behind {events : List Event}
    (effect : Effect env fromSlice process events after) (left : process.session.left = true)
    (guarded : Guarded process.session) : Guarded after.session := by
  have never (live : process.session.left = false) : False :=
    absurd (live.symm.trans left) Bool.false_ne_true
  cases effect with
  | looped _ live => exact (never live).elim
  | returned returns => exact (never returns.live).elim
  | waiting calls | answered calls => exact (never calls.live).elim
  | compiling waits => exact (never (handling_spec waits).1).elim
  | guest taken | broken _ taken =>
    obtain ⟨-, runtime, emitted, -, rfl, -⟩ := perform_runtime taken
    exact guarded.same rfl rfl rfl rfl
  | took => exact guarded.same rfl rfl rfl rfl
  | looked | accepted | cancelled | finished => exact guarded
  | stopped =>
    rw [afterShutdown]
    exact guarded.same rfl rfl rfl rfl
  | @aborted number task _ _ found =>
    rw [dropTask]
    split_ifs with unfinished
    · have ended := guarded.finish found unfinished false
      have here : (process.session.finish number task false).tasks.lookup number =
          some { task with phase := .finished } := AList.lookup_insert _
      exact (ended.join here rfl).same rfl rfl rfl rfl
    · have phase : task.phase = .finished := by simpa [Task.unfinished] using unfinished
      exact (guarded.join found phase).same rfl rfl rfl rfl

/-- What is known of a process in every state of a run. -/
structure Steady (process : Process) : Prop where
  sound : Runtime.Sound process.session.runtime
  guarded : Guarded process.session
  custody : process.stage = .serving → ∀ number, process.Custody number
  behind : process.Behind

variable {history : List (Transition Process Action Event)}

/-- Every state of every run is steady. -/
theorem steady_of_execution (execution : (machine env fromSlice).Execution history process) :
    process.Steady := by
  have sound {history : List (Transition Process Action Event)} {process : Process}
      (execution : (machine env fromSlice).Execution history process) :
      Runtime.Sound process.session.runtime := by
    obtain ⟨-, -, run, below, -⟩ := parts_of_execution execution
    exact Runtime.sound_of_reachable below
  have kept : Guarded process.session ∧
      (process.stage = .serving → ∀ number, process.Custody number) := by
    refine execution.historyInvariant (fun _ process => Guarded process.session ∧
      (process.stage = .serving → ∀ number, process.Custody number)) ?_ ?_
    · rintro process ⟨name, rfl⟩
      exact ⟨.initial name, fun _ number => .idle rfl rfl (AList.notMem_empty _) (AList.notMem_empty _)⟩
    · rintro history process action next events prior ⟨guarded, custody⟩ taken
      obtain ⟨-, -, effect⟩ := step_spec taken
      obtain ⟨behind, session, -⟩ := parts_of_execution prior
      refine ⟨?_, effect.custody (sound prior) guarded custody⟩
      cases left : process.session.left with
      | true => exact effect.guarded_behind left guarded
      | false =>
        obtain ⟨run, above, -⟩ := session left
        obtain ⟨more, steps, -⟩ := effect.reaches above.reachable left behind
        exact (accounts_of_execution (above.continue steps)).1
  exact ⟨sound execution, kept.1, kept.2, (parts_of_execution execution).1⟩

/-- The rule for what holds of the events of a process and of the state behind them. -/
theorem eventsInvariant (property : List Event → Process → Prop)
    (initially : ∀ name, property []
      { session := { runtime := { host := { session := name } } } })
    (preserved : ∀ {past events : List Event} {process after : Process}, process.Steady →
      Effect env fromSlice process events after → property past process →
      property (past ++ events) after)
    (execution : (machine env fromSlice).Execution history process) :
    property (trace history) process := by
  refine execution.historyInvariant (fun history => property (trace history)) ?_ ?_
  · rintro process ⟨name, rfl⟩
    exact initially name
  · intro history process action next events prior holds taken
    obtain ⟨-, -, effect⟩ := step_spec taken
    rw [trace_append]
    simpa using preserved (steady_of_execution prior) effect holds

/-- Every suspended call of the runtime holds a permit of its own. -/
theorem permits_of_custody (guarded : Guarded process.session)
    (custody : ∀ number, process.Custody number) :
    process.session.runtime.loads.entries.length + process.session.runtime.stops.entries.length +
      process.session.slots ≤ 48 := by
  have awaited : ∀ number, number ∈ process.session.runtime.loads ∨
      number ∈ process.session.runtime.stops →
      ∃ asked params, process.session.inHandler number = some asked ∧
        Awaits process.session.runtime number asked params := by
    intro number member
    cases custody number with
    | idle _ _ loads stops | busy _ _ _ _ loads stops => exact absurd member (by simp [loads, stops])
    | calling request _ awaits => exact ⟨_, _, request, awaits⟩
  have metered : ∀ number, number ∈ process.session.runtime.loads ∨
      number ∈ process.session.runtime.stops →
      ∃ task, process.session.tasks.lookup number = some task ∧
        0 < if task.unfinished && task.asked.metered then 1 else 0 := by
    intro number member
    obtain ⟨asked, params, request, awaits⟩ := awaited number member
    obtain ⟨task, found, phase, rfl⟩ := inHandler_eq_some.mp request
    have counted : task.asked.metered = true := by
      cases awaits with
      | load method => simp [Asked.metered, method, compileMethod]
      | @stop _ unload method =>
        cases unload <;> simp [Asked.metered, method, compileMethod, stopMethod]
    exact ⟨task, found, by simp [Task.unfinished, phase, counted]⟩
  have distinct :
      (process.session.runtime.loads.keys ++ process.session.runtime.stops.keys).Nodup := by
    refine List.Nodup.append (AList.keys_nodup _) (AList.keys_nodup _) ?_
    intro number loading stopping
    obtain ⟨asked, params, -, awaits⟩ := awaited number (Or.inl (AList.mem_keys.mpr loading))
    cases awaits with
    | load _ _ idle => exact idle (AList.mem_keys.mpr stopping)
    | stop _ _ _ _ idle => exact idle (AList.mem_keys.mpr loading)
  have few := Map.length_le_weight _ distinct fun number member =>
    metered number ((List.mem_append.mp member).imp AList.mem_keys.mpr AList.mem_keys.mpr)
  have permits := guarded.slots
  simp only [List.length_append, AList.keys, List.keys, List.length_map] at few
  simp only [unfinished] at permits
  omega

/-- As long as requests are served, what is suspended in the runtime belongs to
them: every load and every stop to one request of that method, whose handler
waits for it and which holds a permit. -/
theorem requests_in_flight (execution : (machine env fromSlice).Execution history process)
    (serving : process.stage = .serving) :
    (∀ number, process.Custody number) ∧
      process.session.runtime.loads.entries.length +
        process.session.runtime.stops.entries.length + process.session.slots ≤ 48 := by
  have steady := steady_of_execution execution
  exact ⟨steady.custody serving, permits_of_custody steady.guarded (steady.custody serving)⟩

/-- A number in little endian. -/
def littleEndian : Nat → Nat → List UInt8
  | 0, _ => []
  | width + 1, number => .ofNat number :: littleEndian width (number / 256)

/-- The header of a section. -/
def sectionHeader (name kind flags offset size align : Nat) : List UInt8 :=
  littleEndian 4 name ++ littleEndian 4 kind ++ littleEndian 8 flags ++ littleEndian 8 0 ++
    littleEndian 8 offset ++ littleEndian 8 size ++ littleEndian 8 0 ++ littleEndian 8 align ++
    littleEndian 8 0

/-- An object whose `spinfoam.main` returns zero. -/
def sampleElf : List UInt8 :=
  -- the header of the file
  Build.elfMagic ++ [2, 1, 1] ++ littleEndian 9 0 ++ [1, 0, 247, 0, 1, 0, 0, 0] ++
    littleEndian 16 0 ++ littleEndian 8 104 ++ littleEndian 4 0 ++
    [64, 0, 0, 0, 0, 0, 64, 0, 3, 0, 2, 0] ++
    -- `r0 = 0` and `exit`
    littleEndian 8 0xB7 ++ littleEndian 8 0x95 ++
    -- the names of the sections
    [0] ++ encodeUtf8 "spinfoam.main" ++ [0] ++ encodeUtf8 ".strtab" ++ [0, 0] ++
    sectionHeader 0 0 0 0 0 0 ++ sectionHeader 1 1 6 64 16 8 ++ sectionHeader 15 3 0 80 23 1

def sampleEnvironment : Environment :=
  { Build.sampleEncoders with
    digest := fun bytes =>
      if bytes = sampleElf then
        [48, 3, 176, 175, 197, 172, 22, 250, 187, 114, 162, 173, 203, 87, 250, 239, 85, 40, 1, 168,
          104, 196, 51, 178, 10, 172, 128, 68, 85, 204, 41, 86]
      else Build.sampleEncoders.digest bytes
    digestSize := fun bytes => by
      split_ifs
      · rfl
      · exact Build.sampleEncoders.digestSize bytes
    -- what it says about parameters without members
    explain := fun
      | .init, _ => "missing field `protocol_version`"
      | .load, _ => "missing field `elf`"
      | .id, _ | .event, _ => "missing field `object_id`"
      | .list, _ => "invalid type: null, expected struct List"
      | .build, _ => "missing field `sdk_version`"
    decode := fun text =>
      if text = Build.sampleEncoders.encode sampleElf then .ok sampleElf else .error "Invalid padding"
    target := "linux-x86_64"
    toolchain := []
    builds := true }

def sampleInit : Sample where
  id := "i"
  method := "sf.initialize"
  params := [("protocol_version", .number (.int 1))]
  text := "\x7b\"protocol_version\":1\x7d"

def sampleLoad : Sample where
  id := "l"
  method := "sf.object.load"
  params := [("elf", .string (Build.sampleEncoders.encode sampleElf))]
  text := "\x7b\"elf\":\"" ++ Build.sampleEncoders.encode sampleElf ++ "\"\x7d"

/-- A request about the first object. -/
def sampleCall (id method : String) : Sample where
  id := id
  method := method
  params := [("object_id", .string "o1")]
  text := "\x7b\"object_id\":\"o1\"\x7d"

def sampleStart : Sample := sampleCall "s" "sf.object.start"

def sampleUnload : Sample := sampleCall "u" "sf.object.unload"

def sampleDeliver : Sample where
  id := "d"
  method := "sf.event.deliver"
  params := [("event_id", .string "e"), ("object_id", .string "o1"), ("payload", .null),
    ("topic", .string "t")]
  text := "\x7b\"event_id\":\"e\",\"object_id\":\"o1\",\"payload\":null,\"topic\":\"t\"\x7d"

def sampleShutdown : Sample where
  id := "q"
  method := "sf.shutdown"

def sampleParser : List UInt8 → Except String Value :=
  Sample.parser [sampleInit, sampleStart, sampleUnload, sampleDeliver, sampleShutdown, sampleLoad]

def sampleProcess : Process := { session := opening }

/-- The line of a request, and the first poll of its task. -/
def asks (sample : Sample) (task : Nat) : List Action :=
  [.session (.frame (.ok sample.line)), .handle task ⟨0, []⟩]

/-- One object is running when it is to be unloaded, and another is being loaded. -/
def loadAndUnload : List Action :=
  asks sampleInit 0 ++ asks sampleLoad 1 ++ [.loaded 1 (.ok true), .session (.joined 1)] ++
    asks sampleStart 2 ++ asks sampleLoad 3 ++ asks sampleUnload 4

/-- The run in which a load and an unload are suspended. -/
theorem execution_loadAndUnload :
    ∃ history process, (machine sampleEnvironment sampleParser).Execution history process ∧
      process.stage = .serving ∧ process.session.runtime.loads.keys = [3] ∧
      process.session.runtime.stops.keys = [4] ∧
      process.session.runtime.objects.entries.length = 1 ∧
      process.session.tasks.entries.length = 4 := by
  have evaluated : ((machine sampleEnvironment sampleParser).run sampleProcess loadAndUnload).any
      (fun result => decide (result.2.stage.ctorIdx = 0 ∧
        result.2.session.runtime.loads.keys = [3] ∧
        result.2.session.runtime.stops.keys = [4] ∧
        result.2.session.runtime.objects.entries.length = 1 ∧
        result.2.session.tasks.entries.length = 4)) = true := by decide +kernel
  obtain ⟨history, process, execution, tested⟩ := Machine.execution_of_test evaluated ⟨"", rfl⟩
  obtain ⟨stage, rest⟩ := of_decide_eq_true tested
  have serving : process.stage = .serving := by
    cases same : process.stage with
    | serving => rfl
    | stopping | draining | ended => simp [same, Stage.ctorIdx] at stage
  exact ⟨history, process, execution, serving, rest⟩

/-- Two requests wait for the runtime. -/
theorem requests_in_flight_two :
    ∃ history process, (machine sampleEnvironment sampleParser).Execution history process ∧
      process.session.runtime.loads.keys = [3] ∧ process.session.runtime.stops.keys = [4] ∧
      process.Custody 3 ∧ process.session.slots ≤ 46 := by
  obtain ⟨history, process, execution, serving, loads, stops, -⟩ := execution_loadAndUnload
  obtain ⟨custody, permits⟩ := requests_in_flight execution serving
  have one : process.session.runtime.loads.entries.length = 1 := by
    simpa [AList.keys, List.keys] using congrArg List.length loads
  have another : process.session.runtime.stops.entries.length = 1 := by
    simpa [AList.keys, List.keys] using congrArg List.length stops
  exact ⟨history, process, execution, loads, stops, custody 3, by omega⟩

end Process

end Spinfoam.Serve
