import Spinfoam.Serve.Teardown

/-!
# The gate

Until `sf.initialize` has been answered with success every other request is
refused, and the runtime is not touched. Behind the gate there is no second
initialization, and the session is shut down only by a request to do so.
-/

namespace Spinfoam.Serve

open Spinfoam.Json Spinfoam.Std Spinfoam.Outbox Spinfoam.Guest Spinfoam.Semantics

section Sessions

variable {session after : Session} {events : List Event}
  {fromSlice : List UInt8 → Except String Value} {number : Nat} {task : Task}

/-- The session is shut down, or it will be when a response gets out. -/
def Session.Quits (session : Session) : Prop :=
  session.shutdown = true ∨ ∃ number task frame,
    session.tasks.lookup number = some task ∧ task.phase = .sending frame true

/-- What leaves tasks and shutdown alone does not make a session quit. -/
theorem Session.Quits.same (quits : after.Quits) (tasks : after.tasks = session.tasks)
    (shutdown : after.shutdown = session.shutdown) : session.Quits := by
  rwa [Session.Quits, tasks, shutdown] at quits

/-- A task that changes shuts the session down if it is to. -/
theorem quits_insert {next : Task} {shutdown : Bool} (quits : after.Quits)
    (tasks : after.tasks = session.tasks.insert number next)
    (sending : ∀ frame, next.phase = .sending frame true → shutdown = true)
    (flag : after.shutdown = true → session.shutdown = true ∨ shutdown = true) :
    session.Quits ∨ shutdown = true := by
  rcases quits with down | ⟨other, current, frame, found, phase⟩
  · exact (flag down).imp_left Or.inl
  · rw [tasks] at found
    rcases Map.lookup_insert_eq_some found with ⟨rfl, rfl⟩ | ⟨-, old⟩
    · exact Or.inr (sending frame phase)
    · exact Or.inl (Or.inr ⟨other, current, frame, old, phase⟩)

/-- A task that is joined does not make a session quit. -/
theorem quits_erase (quits : after.Quits) (tasks : after.tasks = session.tasks.erase number)
    (shutdown : after.shutdown = session.shutdown) : session.Quits := by
  rcases quits with down | ⟨other, current, frame, found, phase⟩
  · exact Or.inl (shutdown ▸ down)
  · rw [tasks] at found
    exact Or.inr ⟨other, current, frame, (Map.lookup_erase_eq_some found).2, phase⟩

/-- A task that ends makes a session quit only if it shuts it down. -/
theorem quits_finish {shutdown : Bool} (quits : (session.finish number task shutdown).Quits) :
    session.Quits ∨ shutdown = true :=
  quits_insert quits rfl (by simp) (by simp [Session.finish])

/-- A response makes a session quit only if it is that of a shutdown. -/
theorem Sent.quits {frame : Frame} {shutdown : Bool}
    (sent : Sent session number task frame shutdown events after) (quits : after.Quits) :
    session.Quits ∨ shutdown = true := by
  cases sent with
  | closed => exact quits_finish quits
  | queued => exact (quits_finish quits).imp_left fun quits => quits.same rfl rfl
  | parked => exact quits_insert quits rfl (by simp) Or.inl

/-- What is received does not make a session quit. -/
theorem Received.quits (received : Received session events after) (quits : after.Quits) :
    session.Quits := by
  cases received with
  | @spawned asked =>
    have grown := @quits_insert session _ session.spawned { asked } false quits rfl (by simp) Or.inl
    exact grown.resolve_right (by simp)
  | _ => exact quits.same rfl rfl

/-- A turn of `frame` does not make a session quit. -/
theorem quits_progress (progress : Progress)
    (quits : (session.progress fromSlice progress).1.Quits) : session.Quits := by
  cases progress with
  | more | eof | failed => exact quits.same rfl rfl
  | framed frame rest =>
    have received := parse_spec fromSlice { session with frame := [], buffer := rest } frame
    exact (received.quits quits).same rfl rfl

/-- A session is shut down by the answer to `sf.shutdown`. -/
theorem quits_perform {action : Action}
    (taken : session.perform fromSlice action = some (after, events)) (quits : after.Quits) :
    session.Quits ∨ ∃ number task result, action = .handled number result ∧
      session.tasks.lookup number = some task ∧ task.asked.method = "sf.shutdown" ∧
      result.isOk = true := by
  cases action with
  | runtime action =>
    obtain ⟨-, runtime, emitted, -, rfl, -⟩ := perform_runtime taken
    exact Or.inl (quits.same rfl rfl)
  | write =>
    simp only [Session.perform] at taken
    split at taken
    · obtain ⟨rfl, -⟩ := Prod.mk.inj (Option.some.inj taken)
      exact Or.inl quits
    · obtain ⟨rfl, -⟩ := Prod.mk.inj (Option.some.inj taken)
      exact Or.inl (quits.same rfl rfl)
  | handled number result =>
    simp only [Session.perform, Option.bind_eq_some_iff, Option.ite_none_right_eq_some,
      Option.some.injEq] at taken
    obtain ⟨task, found, -, same⟩ := taken
    unfold Session.handled at same
    extract_lets shutdown at same
    have asked (down : shutdown = true) : ∃ other current answer,
        Action.handled number result = .handled other answer ∧
          session.tasks.lookup other = some current ∧
          current.asked.method = "sf.shutdown" ∧ answer.isOk = true := by
      simp only [shutdown, Bool.and_eq_true, decide_eq_true_eq] at down
      exact ⟨number, task, result, rfl, found, down.1, down.2⟩
    split at same
    · obtain ⟨rfl, -⟩ := Prod.mk.inj same
      exact (quits_finish quits).imp_right asked
    · rename_i frame encoded
      have sent := send_spec session number task frame shutdown
      rw [same] at sent
      exact (sent.quits quits).imp_right asked
  | poll number =>
    simp only [Session.perform, Option.bind_eq_some_iff] at taken
    obtain ⟨task, found, taken⟩ := taken
    split at taken
    · rename_i frame shutdown phase
      have sent := send_spec session number task frame shutdown
      rw [Option.some.inj taken] at sent
      left
      rcases sent.quits quits with old | rfl
      · exact old
      · exact Or.inr ⟨number, task, frame, found, phase⟩
    · cases taken
  | signal =>
    obtain ⟨rfl, -⟩ := Prod.mk.inj (Option.some.inj taken)
    exact Or.inl (quits.same rfl rfl)
  | leave =>
    simp only [Session.perform, Option.ite_none_right_eq_some, Option.some.injEq,
      Prod.mk.injEq] at taken
    obtain ⟨-, rfl, -⟩ := taken
    exact Or.inl (quits.same rfl rfl)
  | joined number =>
    simp only [Session.perform, Option.ite_none_left_eq_some, Option.bind_eq_some_iff,
      Option.ite_none_right_eq_some, Option.some.injEq, Prod.mk.injEq] at taken
    obtain ⟨-, task, -, -, rfl, -⟩ := taken
    exact Or.inl (quits_erase quits rfl rfl)
  | frame read =>
    simp only [Session.perform, Option.ite_none_left_eq_some] at taken
    obtain ⟨-, taken⟩ := taken
    left
    by_cases waiting : session.buffer ≠ []
    · rw [if_pos waiting] at taken
      obtain rfl : _ = after := congrArg Prod.fst (Option.some.inj taken)
      exact quits_progress _ quits
    · rw [if_neg waiting] at taken
      split at taken
      · obtain ⟨rfl, -⟩ := Prod.mk.inj (Option.some.inj taken)
        exact quits.same rfl rfl
      · rename_i bytes
        obtain rfl : _ = after := congrArg Prod.fst (Option.some.inj taken)
        exact (quits_progress _ quits).same rfl rfl

end Sessions

namespace Process

/-- The methods of the requests that have been answered with success, in order. -/
def successes (events : List Event) : List String :=
  events.filterMap fun
    | .returned asked _ (.ok _) => some asked.method
    | _ => none

/-- What has been answered with success, and what that has opened. -/
inductive Gate (past : List Event) (process : Process) : Prop where
  | closed (nothing : successes past = []) (waiting : process.initialized = false)
      (fresh : ∀ {number handler}, process.handlers.lookup number = some handler →
        handler.phase = .fresh) : Gate past process
  | opened {rest : List String} (first : successes past = "sf.initialize" :: rest)
      (once : "sf.initialize" ∉ rest) (initialized : process.initialized = true) :
      Gate past process

section Gates

variable {env : Environment} {fromSlice : List UInt8 → Except String Value}
  {process after : Process} {past events : List Event} {number : Nat} {asked : Asked}
  {params : Value}

@[simp] theorem successes_append (first second : List Event) :
    successes (first ++ second) = successes first ++ successes second := List.filterMap_append

@[simp] theorem successes_session (events : List Serve.Event) :
    successes (events.map .session) = [] := by
  rw [successes, List.filterMap_map, List.filterMap_eq_nil_iff]
  exact fun _ _ => rfl

@[simp] theorem successes_ok (asked : Asked) (params value : Value) (events : List Event) :
    successes (.returned asked params (.ok value) :: events) = asked.method :: successes events :=
  rfl

@[simp] theorem successes_error (asked : Asked) (params : Value) (error : RpcError)
    (events : List Event) :
    successes (.returned asked params (.error error) :: events) = successes events :=
  rfl

/-- `sf.initialize` calls nothing. -/
theorem Called.method_ne {runtime : Runtime} {action : Runtime.Action}
    (called : Called runtime number asked params action) : asked.method ≠ "sf.initialize" := by
  cases called with
  | first asks =>
    cases asks with
    | load _ _ _ named | start named | status named | deliver named => simp [named]
    | stop unload _ named => cases unload <;> simp [named, stopMethod]
  | loaded _ method => simp [method]
  | @stopped _ _ unload method => cases unload <;> simp [method, stopMethod]

/-- Without a change of the flag the gate stays as it is. -/
theorem Gate.still (gate : Gate past process) (silent : successes events = [])
    (initialized : after.initialized = process.initialized)
    (fresh : ∀ {number handler}, after.handlers.lookup number = some handler →
      process.handlers.lookup number = some handler ∨ handler.phase = .fresh) :
    Gate (past ++ events) after := by
  cases gate with
  | closed nothing waiting before =>
    refine .closed (by simp [nothing, silent]) (initialized.trans waiting) ?_
    intro number handler held
    exact (fresh held).elim before id
  | opened first once flag =>
    exact .opened (by simp [first, silent]) once (initialized.trans flag)

/-- Behind the gate there may be answers to all requests but the first. -/
theorem Gate.behind (gate : Gate past process) (opened : process.initialized = true)
    (initialized : after.initialized = true)
    (others : "sf.initialize" ∉ successes events) : Gate (past ++ events) after := by
  cases gate with
  | closed _ waiting => exact absurd (waiting.symm.trans opened) (by simp)
  | @opened rest first once =>
    have later : successes (past ++ events) = "sf.initialize" :: (rest ++ successes events) := by
      simp [first]
    refine .opened later ?_ initialized
    intro member
    rcases List.mem_append.mp member with old | new
    · exact once old
    · exact others new

/-- Every step of a process keeps the gate. -/
theorem gate_effect (steady : process.Steady) (gate : Gate past process)
    (effect : Effect env fromSlice process events after) : Gate (past ++ events) after := by
  have erased {task other : Nat} {handler : Handler}
      (held : (process.handlers.erase task).lookup other = some handler) :
      process.handlers.lookup other = some handler := (Map.lookup_erase_eq_some held).2
  have called {task : Nat} {asked : Asked} {params : Value} {action : Runtime.Action}
      {initialized : Bool} {session : Session} {events : List Serve.Event}
      (calls : Calls env process task asked params action initialized)
      (taken : process.session.perform fromSlice (.runtime action) = some (session, events)) :
      process.initialized = true ∧ initialized = true ∧ asked.method ≠ "sf.initialize" := by
    have serving := steady.behind.resolve_right (by simp [calls.live])
    obtain ⟨-, runtime, emitted, -, -, -, called, -⟩ :=
      calls.outcome (steady.custody serving task) steady.sound taken
    have running (waits : process.handling task .calling = some (asked, params)) :
        process.initialized = true := by
      obtain ⟨-, -, -, -, held⟩ := handling_spec waits
      cases gate with
      | closed _ _ fresh => cases fresh held
      | opened _ _ initialized => exact initialized
    refine ⟨?_, ?_, Called.method_ne called⟩
    · cases calls with
      | first fresh handled =>
        cases handled_of_eq handled with
        | calls old => exact old
      | loaded _ calling | stopped _ calling => exact running calling
    · cases calls with
      | first fresh handled =>
        cases handled_of_eq handled with
        | calls old => rfl
      | loaded _ calling | stopped _ calling => exact running calling
  cases effect with
  | @looped action session emitted =>
    refine gate.still (successes_session _) rfl ?_
    intro number handler held
    rw [adopt] at held
    split_ifs at held
    · exact Or.inl held
    · rcases Map.lookup_insert_eq_some held with ⟨-, rfl⟩ | ⟨-, old⟩
      · exact Or.inr rfl
      · exact Or.inl old
  | @returned task asked params result initialized session emitted returns taken =>
    cases returns with
    | answered fresh handled =>
      cases handled_of_eq handled with
      | refused error => exact gate.still (by simp) rfl fun held => Or.inl (erased held)
      | welcomed named new =>
        cases gate with
        | opened _ _ flag => exact absurd (new.symm.trans flag) (by simp)
        | closed nothing =>
          have now : successes (past ++ .returned asked params
              (.ok (env.welcome process.session.runtime)) :: emitted.map .session) =
              ["sf.initialize"] := by simp [nothing, named]
          exact .opened now List.not_mem_nil rfl
      | informed value old named =>
        refine gate.behind old rfl ?_
        simp only [List.mem_cons, List.not_mem_nil, or_false] at named
        rcases named with same | same | same <;> simp [same]
    | compiled output compiling =>
      have live := (handling_spec compiling).1
      have serving := steady.behind.resolve_right (by simp [live])
      have named := (handling_custody compiling (steady.custody serving task)).2.2.2 rfl
      cases gate with
      | closed _ _ fresh =>
        obtain ⟨-, -, -, -, held⟩ := handling_spec compiling
        cases fresh held
      | opened first once flag =>
        exact (Gate.opened first once flag).behind flag flag (by simp [named, compileMethod])
  | waiting calls taken =>
    obtain ⟨old, rfl, -⟩ := called calls taken
    exact gate.behind old rfl (by simp)
  | @answered task asked params action result initialized middle session first later calls taken =>
    obtain ⟨old, rfl, other⟩ := called calls taken
    refine gate.behind old rfl ?_
    cases result with
    | error error => simp
    | ok value => simpa using other.symm
  | compiling fresh handled =>
    cases handled_of_eq handled with
    | compiles _ old => exact gate.behind old rfl (by simp [successes])
  | guest => exact gate.still (successes_session _) rfl Or.inl
  | broken => exact gate.still (successes_session _) rfl Or.inl
  | looked | took | accepted | cancelled | finished => exact gate.still rfl rfl Or.inl
  | aborted => exact gate.still rfl rfl fun held => Or.inl (erased held)
  | @stopped action runtime emitted =>
    have silent : successes (process.afterShutdown runtime emitted).2 = [] := by
      rw [afterShutdown, ← List.map_map]
      exact successes_session _
    exact gate.still silent rfl Or.inl

/-- The result that a handler returns is the one its session takes for its response. -/
theorem asked_of_returns {task : Nat} {current : Task} {result : RpcResult} {initialized : Bool}
    (returns : Returns env process task asked params result initialized)
    (found : process.session.tasks.lookup task = some current) : current.asked = asked := by
  have same {phase : Handler.Phase} (waits : process.handling task phase = some (asked, params)) :
      current.asked = asked := by
    obtain ⟨-, other, stored, own, -⟩ := handling_spec waits
    rwa [Option.some.inj (found.symm.trans stored)]
  cases returns with
  | answered waits | compiled _ waits => exact same waits

/-- A call is made for the request of its task. -/
theorem asked_of_calls {task : Nat} {current : Task} {action : Runtime.Action} {initialized : Bool}
    (calls : Calls env process task asked params action initialized)
    (found : process.session.tasks.lookup task = some current) : current.asked = asked := by
  have same {phase : Handler.Phase} (waits : process.handling task phase = some (asked, params)) :
      current.asked = asked := by
    obtain ⟨-, other, stored, own, -⟩ := handling_spec waits
    rwa [Option.some.inj (found.symm.trans stored)]
  cases calls with
  | first waits | loaded _ waits | stopped _ waits => exact same waits

/-- The session is shut down by a request that has been answered with success. -/
theorem quits_effect (effect : Effect env fromSlice process events after)
    (quits : after.session.Quits) :
    process.session.Quits ∨ "sf.shutdown" ∈ successes events := by
  have silent {session next : Session} {action : Serve.Action} {emitted : List Serve.Event}
      (taken : session.perform fromSlice action = some (next, emitted)) (quits : next.Quits)
      (other : ∀ task result, action ≠ .handled task result) : session.Quits := by
    rcases quits_perform taken quits with before | ⟨task, _, result, same, -⟩
    · exact before
    · exact absurd same (other task result)
  cases effect with
  | looped loop _ taken =>
    refine Or.inl (silent taken quits ?_)
    rintro task result rfl
    cases loop
  | @returned task asked params result initialized session emitted returns taken =>
    rcases quits_perform taken quits with before | ⟨other, current, answer, same, found, method, ok⟩
    · exact Or.inl before
    · obtain ⟨rfl, rfl⟩ := Serve.Action.handled.inj same
      rw [asked_of_returns returns found] at method
      cases result with
      | error => cases ok
      | ok value => exact Or.inr (by simp [method])
  | waiting _ taken => exact Or.inl (silent taken quits (by simp))
  | @answered task asked params action result initialized middle session first later calls taken
      answer sent =>
    have before (quits : middle.Quits) : process.session.Quits := silent taken quits (by simp)
    rcases quits_perform sent quits with middle | ⟨other, current, answer, same, found, method, ok⟩
    · exact Or.inl (before middle)
    · obtain ⟨rfl, rfl⟩ := Serve.Action.handled.inj same
      obtain ⟨-, runtime, emitted, -, rfl, -⟩ := perform_runtime taken
      rw [asked_of_calls calls found] at method
      cases result with
      | error => cases ok
      | ok value => exact Or.inr (by simp [method])
  | guest taken | broken _ taken => exact Or.inl (silent taken quits (by simp))
  | took => exact Or.inl (quits.same rfl rfl)
  | compiling | looked | accepted | cancelled | finished => exact Or.inl quits
  | @aborted number task =>
    left
    rw [dropTask] at quits
    split_ifs at quits with unfinished
    · have erased : (process.session.finish number task false).Quits :=
        quits_erase quits rfl rfl
      exact (quits_finish erased).resolve_right (by simp)
    · exact quits_erase quits rfl rfl
  | stopped => exact Or.inl (quits.same rfl rfl)

variable {history : List (Transition Process Action Event)}

/-- In every run the gate is kept, and a session that quits has answered a shutdown. -/
theorem gate_of_execution (execution : (machine env fromSlice).Execution history process) :
    Gate (trace history) process ∧
      (process.session.Quits → "sf.shutdown" ∈ successes (trace history)) := by
  refine eventsInvariant (fun past process => Gate past process ∧
    (process.session.Quits → "sf.shutdown" ∈ successes past)) ?_ ?_ execution
  · intro name
    refine ⟨.closed rfl rfl (by rintro number handler ⟨⟩), ?_⟩
    rintro (down | ⟨number, task, frame, found, -⟩)
    · cases down
    · cases found
  · rintro past events process after steady effect ⟨gate, shutdown⟩
    refine ⟨gate_effect steady gate effect, fun quits => ?_⟩
    rw [successes_append, List.mem_append]
    exact (quits_effect effect quits).imp_left shutdown

/-- What is told of has been answered with success. -/
theorem told_of_successes {events : List Event} (nothing : successes events = []) :
    events.filterMap told = [] := by
  rw [List.filterMap_eq_nil_iff]
  intro event member
  cases event with
  | returned asked params result =>
    cases result with
    | error => rfl
    | ok value =>
      have listed : asked.method ∈ successes events := List.mem_filterMap.mpr ⟨_, member, rfl⟩
      rw [nothing] at listed
      cases listed
  | session | output | ended => rfl

/-- The first request that is answered with success is `sf.initialize`, and no other
one is. Until then there is no object, and none is being loaded. A session is shut
down only by an `sf.shutdown` behind it. -/
theorem initialize_comes_first (execution : (machine env fromSlice).Execution history process) :
    (process.initialized = false → successes (trace history) = [] ∧
      process.session.runtime.heap = ∅ ∧ process.session.runtime.loads = ∅) ∧
    (process.initialized = true → ∃ rest,
      successes (trace history) = "sf.initialize" :: rest ∧ "sf.initialize" ∉ rest) ∧
    (process.session.shutdown = true → ∃ rest,
      successes (trace history) = "sf.initialize" :: rest ∧ "sf.shutdown" ∈ rest) := by
  obtain ⟨gate, shutdown⟩ := gate_of_execution execution
  refine ⟨?_, ?_, ?_⟩
  · intro waiting
    cases gate with
    | opened _ _ initialized => exact absurd (waiting.symm.trans initialized) (by simp)
    | closed nothing _ fresh =>
      refine ⟨nothing, ?_, ?_⟩
      · obtain ⟨-, -, run, below, seen⟩ := parts_of_execution execution
        refine Map.eq_empty fun serial member => ?_
        obtain ⟨id, bound⟩ := Runtime.bound_of_heap below member
        have happens : .loaded id ∈ (trace history).filterMap happened := by
          rw [filterMap_happened, ← seen]
          exact List.mem_filterMap.mpr ⟨_, bound, rfl⟩
        cases stood_of_execution execution with
        | serving _ answers | stopping _ answers =>
          rw [answers, told_of_successes nothing] at happens
          cases happens
        | ended _ answers =>
          rw [answers, told_of_successes nothing] at happens
          simp at happens
      · refine Map.eq_empty fun number => ?_
        cases stood_of_execution execution with
        | stopping _ _ idle | ended _ _ idle => exact idle.loads number
        | serving stage =>
          cases (steady_of_execution execution).custody stage number with
          | idle _ _ loads | busy _ _ _ _ loads => exact loads
          | calling _ held => cases fresh held
  · intro initialized
    cases gate with
    | closed _ waiting => exact absurd (waiting.symm.trans initialized) (by simp)
    | opened first once => exact ⟨_, first, once⟩
  · intro down
    have listed := shutdown (Or.inl down)
    cases gate with
    | closed nothing =>
      rw [nothing] at listed
      cases listed
    | opened first =>
      rw [first] at listed
      exact ⟨_, first, (List.mem_cons.mp listed).resolve_left (by simp)⟩

/-- A request before `sf.initialize`, and one behind it. -/
def startTooEarly : List Action := asks sampleStart 0 ++ asks sampleInit 1 ++ asks sampleShutdown 2

/-- The session is shut down. -/
theorem initialize_comes_first_shutdown :
    ∃ history process, (machine sampleEnvironment sampleParser).Execution history process ∧
      successes (trace history) = ["sf.initialize", "sf.shutdown"] ∧
      process.session.shutdown = true ∧
      ∃ rest, successes (trace history) = "sf.initialize" :: rest ∧ "sf.shutdown" ∈ rest := by
  have evaluated : ((machine sampleEnvironment sampleParser).run sampleProcess startTooEarly).any
      (fun result => decide (successes (trace result.1) = ["sf.initialize", "sf.shutdown"] ∧
        result.2.session.shutdown = true)) = true := by decide +kernel
  obtain ⟨history, process, execution, tested⟩ := Machine.execution_of_test evaluated ⟨"", rfl⟩
  obtain ⟨answers, down⟩ := of_decide_eq_true tested
  exact ⟨history, process, execution, answers, down,
    (initialize_comes_first execution).2.2 down⟩

end Gates

end Process

end Spinfoam.Serve
