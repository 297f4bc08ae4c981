import Spinfoam.Runtime.Leftovers
import Spinfoam.Serve.Reports

/-!
# The end of a process

Behind its loop a process drops its tasks, stops the objects and waits for the
writer. When that is over nothing is left that could run or that waits.
-/

namespace Spinfoam.Serve

open Spinfoam.Json Spinfoam.Std Spinfoam.Outbox Spinfoam.Guest Spinfoam.Semantics

/-- `Runtime::shutdown` has returned. -/
def Stage.down : Stage → Bool
  | .serving | .stopping => false
  | .draining | .ended _ => true

namespace Process

/-- No task is left, and nothing of the requests waits in the runtime. -/
structure Idle (process : Process) : Prop where
  tasks : process.session.tasks.entries = []
  handlers : ∀ number, process.handlers.lookup number = none
  loads : ∀ number, number ∉ process.session.runtime.loads
  stops : ∀ number, number ≠ process.session.spawned → number ∉ process.session.runtime.stops

/-- How far the end has come, and what has been told of until then. -/
inductive Stood (past : List Event) (process : Process) : Prop where
  | serving (stage : process.stage = .serving)
      (answers : past.filterMap happened = past.filterMap told)
  | stopping (stage : process.stage = .stopping)
      (answers : past.filterMap happened = past.filterMap told) (idle : process.Idle)
      {serials : List Nat}
      (served : Runtime.Served process.session.runtime process.session.spawned serials)
      (all : ∀ serial ∈ process.session.runtime.heap,
        process.session.runtime.ReleasedAt serial ∨ serial ∈ serials)
      {call : Runtime.StopCall} {rest : List Nat}
      (waiting : process.session.runtime.stops.lookup process.session.spawned = some call)
      (purpose : call.purpose = .shutdown rest) : Stood past process
  | ended (stage : process.stage = .draining ∨ ∃ result, process.stage = .ended result)
      (answers : past.filterMap happened = past.filterMap told ++ [.shutdown])
      (idle : process.Idle) (gone : process.session.spawned ∉ process.session.runtime.stops)
      (unbound : process.session.runtime.objects = ∅)
      (released : ∀ serial ∈ process.session.runtime.heap,
        process.session.runtime.ReleasedAt serial)
      (closed : process.session.out.closed = true) : Stood past process

/-- What the runtime does behind the loop by itself. -/
structure Passive (runtime after : Runtime) : Prop where
  loads : after.loads = runtime.loads
  objects : after.objects = runtime.objects
  stops : ∀ number,
    Runtime.Undisturbed (runtime.stops.lookup number) (after.stops.lookup number)
  heap : ∀ serial, serial ∈ after.heap → serial ∈ runtime.heap
  released : ∀ serial, runtime.ReleasedAt serial → after.ReleasedAt serial
  served : ∀ {request serials}, Runtime.Served runtime request serials →
    Runtime.Served after request serials
  closed : runtime.host.out.closed = true → after.host.out.closed = true

section Passive

variable {runtime after : Runtime} {events : List Runtime.Event} {past more : List Event}
  {process next : Process}

theorem passive_poll {object : Nat} {turn : Runtime.Turn} {clock : Clock} {order : List String}
    (sound : Runtime.Sound runtime)
    (taken : runtime.perform (.poll object turn clock order) = some (after, events)) :
    Passive runtime after := by
  have unasked := Runtime.unasked_pollTask taken
  have moves := Runtime.perform_moves sound taken
  have noticed := Runtime.noticed_perform (by simp) (by simp) taken
  constructor
  case loads => exact unasked.loads
  case objects => exact unasked.objects
  case stops => exact Runtime.undisturbed_pollTask taken
  case heap =>
    intro serial member
    exact moves.heap_old (by simp [unasked.reports]) member
  case released => exact fun serial => moves.releasedAt sound
  case served => exact fun served => served.perform sound taken (by simp)
  case closed => exact noticed.closed

theorem passive_host {host : Host} {moved : List Host.Event} (sound : Runtime.Sound runtime)
    (moves : Runtime.HostMoved runtime.host moved host)
    (closed : runtime.host.out.closed = true → host.out.closed = true) :
    Passive runtime { runtime with host } where
  loads := rfl
  objects := rfl
  stops _ := .same
  heap _ := id
  released _ := id
  served served := served.moves sound (.one (.host moves)) fun call waiting => ⟨call, waiting, rfl⟩
  closed := closed

/-- What the runtime does by itself leaves the end where it is. -/
theorem Stood.passive (stood : Stood past process)
    (passive : Passive process.session.runtime next.session.runtime)
    (behind : process.stage ≠ .serving) (stage : next.stage = process.stage)
    (tasks : next.session.tasks = process.session.tasks)
    (spawned : next.session.spawned = process.session.spawned)
    (handlers : next.handlers = process.handlers)
    (quiet : more.filterMap happened = more.filterMap told)
    (silent : more.filterMap told = []) : Stood (past ++ more) next := by
  have answers : (past ++ more).filterMap happened = past.filterMap happened ∧
      (past ++ more).filterMap told = past.filterMap told := by
    simp [quiet, silent]
  have still {number : Nat} (absent : number ∉ process.session.runtime.stops) :
      number ∉ next.session.runtime.stops := by
    have undisturbed := passive.stops number
    rw [AList.lookup_eq_none.mpr absent] at undisturbed
    rw [← AList.lookup_eq_none]
    generalize next.session.runtime.stops.lookup number = waiting at undisturbed
    cases undisturbed
    rfl
  have idles (idle : process.Idle) : next.Idle := by
    refine ⟨tasks ▸ idle.tasks, handlers ▸ idle.handlers, ?_, ?_⟩
    · rw [passive.loads]
      exact idle.loads
    · rw [spawned]
      exact fun number other => still (idle.stops number other)
  cases stood with
  | serving here => exact absurd here behind
  | stopping here told idle served all waiting purpose =>
    have kept := passive.stops process.session.spawned
    rw [waiting] at kept
    generalize later : next.session.runtime.stops.lookup process.session.spawned = current at kept
    have further {call : Runtime.StopCall}
        (found : next.session.runtime.stops.lookup process.session.spawned = some call)
        (same : ∃ rest, call.purpose = .shutdown rest) : Stood (past ++ more) next := by
      obtain ⟨rest, shutdown⟩ := same
      have later := passive.served served
      rw [← spawned] at later found
      refine .stopping (stage.trans here) ?_ (idles idle) later ?_ found shutdown
      · rw [answers.1, answers.2, told]
      · intro serial member
        exact (all serial (passive.heap serial member)).imp_left (passive.released serial)
    cases kept with
    | same => exact further later ⟨_, purpose⟩
    | woken serial =>
      refine further later ⟨_, Eq.trans ?_ purpose⟩
      unfold Runtime.StopCall.wake
      split
      · split_ifs <;> rfl
      · rfl
  | ended here told idle gone unbound released closed =>
    refine .ended (by rwa [stage]) ?_ (idles idle) ?_ ?_ ?_ (passive.closed closed)
    · rw [answers.1, answers.2, told]
    · rw [spawned]
      exact still gone
    · rw [passive.objects, unbound]
    · exact fun serial member => passive.released serial (released serial (passive.heap serial member))

end Passive

section Shutdown

variable {process : Process} {past : List Event} {runtime : Runtime}
  {emitted : List Runtime.Event} {serials : List Nat}

/-- A poll of `Runtime::shutdown` brings the end on. -/
theorem stood_shut (answers : past.filterMap happened = past.filterMap told) (idle : process.Idle)
    (shuts : Runtime.Shuts runtime process.session.spawned emitted)
    (served : Runtime.Served runtime process.session.spawned serials)
    (all : ∀ serial ∈ runtime.heap, runtime.ReleasedAt serial ∨ serial ∈ serials)
    (loads : runtime.loads = process.session.runtime.loads)
    (stops : ∀ number, number ≠ process.session.spawned → number ∉ runtime.stops) :
    Stood (past ++ (process.afterShutdown runtime emitted).2)
      (process.afterShutdown runtime emitted).1 := by
  have unloaded : ∀ number, number ∉ runtime.loads := by
    rw [loads]
    exact idle.loads
  cases shuts with
  | done gone unbound =>
    have released : ∀ serial ∈ runtime.heap, runtime.ReleasedAt serial := by
      intro serial member
      rcases all serial member with released | asked
      · exact released
      · obtain ⟨-, passed, released, rfl | ⟨call, waiting, -⟩⟩ := served
        · exact released serial asked
        · exact absurd (Map.mem_of_lookup waiting) gone
    have told : (past ++ (process.afterShutdown runtime [.shutdown]).2).filterMap happened =
        (past ++ (process.afterShutdown runtime [.shutdown]).2).filterMap told ++
          [.shutdown] := by
      simp [afterShutdown, answers, happened, beneath, inner, observed, Runtime.Event.report,
        Process.told]
    refine .ended ?_ told ⟨idle.tasks, idle.handlers, ?_, ?_⟩ ?_ ?_ ?_ ?_
    · simp [afterShutdown]
    · simpa [afterShutdown] using unloaded
    · simpa [afterShutdown] using stops
    · simpa [afterShutdown] using gone
    · simpa [afterShutdown] using unbound
    · simp only [afterShutdown, List.mem_singleton, if_true]
      exact released
    · simp [afterShutdown, Session.out, Outbox.close]
  | waits waiting purpose =>
    refine .stopping (by simp [afterShutdown]) ?_ ⟨idle.tasks, idle.handlers, ?_, ?_⟩ served all
      waiting purpose
    · simpa [afterShutdown] using answers
    · simpa [afterShutdown] using unloaded
    · simpa [afterShutdown] using stops

variable {env : Environment} {fromSlice : List UInt8 → Except String Value}
  {history : List (Transition Process Action Event)}

/-- When the last task is gone, so is what it waited for. -/
theorem idle_of_custody (custody : ∀ number, process.Custody number)
    (empty : process.session.tasks.entries = []) : process.Idle := by
  have unknown (number : Nat) : process.session.inHandler number = none := by
    rw [Session.inHandler, AList.lookup, empty]
    rfl
  have idle (number : Nat) : process.handlers.lookup number = none ∧
      number ∉ process.session.runtime.loads ∧ number ∉ process.session.runtime.stops := by
    cases custody number with
    | idle _ handler loads stops => exact ⟨handler, loads, stops⟩
    | busy request | calling request => exact absurd ((unknown number).symm.trans request) (by simp)
  exact ⟨empty, fun number => (idle number).1, fun number => (idle number).2.1,
    fun number _ => (idle number).2.2⟩

/-- Nothing of the runtime is told of by an answer but what a request asks for. -/
theorem shutdown_not_told (events : List Event) : .shutdown ∉ events.filterMap told := by
  intro member
  obtain ⟨event, -, tells⟩ := List.mem_filterMap.mp member
  cases event with
  | returned asked params result =>
    cases result with
    | error => cases tells
    | ok value =>
      simp only [told, reported] at tells
      split at tells
      · obtain ⟨id, -, same⟩ := Option.map_eq_some_iff.mp tells
        cases same
      · obtain ⟨id, -, same⟩ := Option.map_eq_some_iff.mp tells
        cases same
      · obtain ⟨id, -, same⟩ := Option.map_eq_some_iff.mp tells
        cases same
      · split_ifs at tells
        obtain ⟨event, -, same⟩ := Option.map_eq_some_iff.mp tells
        cases same
      · cases tells
  | session | output | ended => cases tells

/-- Before the shutdown every object is bound, or it has been let go. -/
theorem listed_of_answers (execution : (machine env fromSlice).Execution history process)
    (answers : (trace history).filterMap happened = (trace history).filterMap told) (serial : Nat)
    (member : serial ∈ process.session.runtime.heap) :
    process.session.runtime.ReleasedAt serial ∨
      serial ∈ process.session.runtime.ordered := by
  obtain ⟨-, -, run, below, seen⟩ := parts_of_execution execution
  rcases Runtime.listed_of_execution below serial member with bound | released | down
  · right
    exact Runtime.mem_ordered.mpr ⟨_, bound⟩
  · exact Or.inl released
  · refine absurd ?_ (shutdown_not_told (trace history))
    rw [← answers, filterMap_happened, ← seen]
    exact List.mem_filterMap.mpr ⟨_, down, rfl⟩

theorem stood_stops (execution : (machine env fromSlice).Execution history process)
    (stood : Stood (trace history) process) {action : Runtime.Action} (stops : Stops process action)
    (taken : Runtime.machine.step process.session.runtime action = some (runtime, emitted)) :
    Stood (trace history ++ (process.afterShutdown runtime emitted).2)
      (process.afterShutdown runtime emitted).1 := by
  have steady := steady_of_execution execution
  simp only [Runtime.machine, Option.ite_none_left_eq_some] at taken
  obtain ⟨-, taken⟩ := taken
  have moves := Runtime.perform_moves steady.sound taken
  have elsewhere (stops : ∀ number, number ≠ process.session.spawned →
      number ∉ process.session.runtime.stops) (only : ∀ number, number ≠ process.session.spawned →
      action.halts ≠ some number) (number : Nat) (other : number ≠ process.session.spawned) :
      number ∉ runtime.stops := by
    have undisturbed := Runtime.undisturbed_perform taken (only number other)
    rw [AList.lookup_eq_none.mpr (stops number other)] at undisturbed
    rw [← AList.lookup_eq_none]
    generalize runtime.stops.lookup number = waiting at undisturbed
    cases undisturbed
    rfl
  have heap {serials : List Nat} (shuts : Runtime.Shuts runtime process.session.spawned emitted)
      (all : ∀ serial ∈ process.session.runtime.heap,
        process.session.runtime.ReleasedAt serial ∨ serial ∈ serials) (serial : Nat)
      (member : serial ∈ runtime.heap) : runtime.ReleasedAt serial ∨ serial ∈ serials := by
    have unloaded : ∀ id, .loaded id ∉ Runtime.reports emitted := by
      cases shuts <;> simp [Runtime.reports, Runtime.Event.report]
    exact (all serial (moves.heap_old unloaded member)).imp_left (moves.releasedAt steady.sound)
  cases stops with
  | first left empty serving =>
    have idle := idle_of_custody (steady.custody serving) empty
    have free : process.session.spawned ∉ process.session.runtime.stops := by
      cases steady.custody serving process.session.spawned with
      | idle _ _ _ stops => exact stops
      | busy _ held | calling _ held =>
        exact absurd ((idle.handlers _).symm.trans held) (by simp)
    cases stood with
    | serving _ answers =>
      have served := Runtime.served_begin steady.sound taken rfl
      simp only [Runtime.perform, if_neg free, Option.some.injEq, Runtime.shutdown] at taken
      have shuts := Runtime.shuts_shutdownFrom (process.session.runtime.cancelAll
        process.session.runtime.ordered) process.session.spawned process.session.runtime.ordered
      have loads := (Runtime.loads_shutdownFrom (process.session.runtime.cancelAll
        process.session.runtime.ordered) process.session.spawned
        process.session.runtime.ordered).trans (Runtime.loads_cancelAll _ _)
      rw [taken] at shuts loads
      refine stood_shut answers idle shuts served
        (heap shuts (listed_of_answers execution answers)) loads (elsewhere idle.stops ?_)
      intro number other same
      exact other (Option.some.inj same).symm
    | stopping stage => exact absurd (stage.symm.trans serving) (by simp)
    | ended stage => simp [serving] at stage
  | later order stopping =>
    cases stood with
    | serving stage => exact absurd (stage.symm.trans stopping) (by simp)
    | ended stage => simp [stopping] at stage
    | @stopping _ answers idle serials served all call rest waiting purpose =>
      have later := served.perform steady.sound taken (by simp)
      have polled := taken
      simp only [Runtime.perform, waiting, purpose, Option.bind_some,
        Option.map_eq_some_iff] at polled
      obtain ⟨object, -, same⟩ := polled
      have shuts := Runtime.shuts_proceed process.session.runtime process.session.spawned
        call.object rest order (object.pollStop call.phase)
      have loads := Runtime.loads_proceed process.session.runtime process.session.spawned
        call.object (.shutdown rest) order (object.pollStop call.phase)
      rw [same] at shuts loads
      refine stood_shut answers idle shuts later (heap shuts all) loads (elsewhere idle.stops ?_)
      intro number other same
      exact other (Option.some.inj same).symm

/-- Every step keeps what is known of the end. -/
theorem stood_effect {after : Process} {events : List Event}
    (execution : (machine env fromSlice).Execution history process)
    (stood : Stood (trace history) process) (effect : Effect env fromSlice process events after) :
    Stood (trace history ++ events) after := by
  have steady := steady_of_execution execution
  rcases effect.reported steady with quiet | ⟨action, runtime, emitted, stops, taken, rfl, rfl⟩
  swap
  · exact stood_stops execution stood stops taken
  have goes (stage : after.stage = .serving) (before : process.stage = .serving) :
      Stood (trace history ++ events) after := by
    cases stood with
    | serving _ answers => exact .serving stage (by simp [answers, quiet])
    | stopping here => exact absurd (here.symm.trans before) (by simp)
    | ended here => simp [before] at here
  have live (left : process.session.left = false) : process.stage = .serving :=
    steady.behind.resolve_right (by simp [left])
  have alone (passive : Passive process.session.runtime after.session.runtime)
      (stage : after.stage = process.stage) (tasks : after.session.tasks = process.session.tasks)
      (spawned : after.session.spawned = process.session.spawned)
      (handlers : after.handlers = process.handlers) (silent : events.filterMap told = []) :
      Stood (trace history ++ events) after := by
    by_cases before : process.stage = .serving
    · exact goes (stage.trans before) before
    · exact stood.passive passive before stage tasks spawned handlers quiet silent
  have same : Passive process.session.runtime process.session.runtime :=
    ⟨rfl, rfl, fun _ => .same, fun _ => id, fun _ => id, id, id⟩
  cases effect with
  | looped _ left => exact goes (live left) (live left)
  | returned returns => exact goes (live returns.live) (live returns.live)
  | waiting calls | answered calls => exact goes (live calls.live) (live calls.live)
  | compiling waits => exact goes (live (handling_spec waits).1) (live (handling_spec waits).1)
  | aborted serving => exact goes serving serving
  | guest taken =>
    obtain ⟨-, runtime, emitted, stepped, rfl, -⟩ := perform_runtime taken
    simp only [Runtime.machine, Option.ite_none_left_eq_some] at stepped
    exact alone (passive_poll steady.sound stepped.2) rfl rfl rfl rfl (told_session _)
  | broken _ taken =>
    obtain ⟨-, runtime, emitted, stepped, rfl, -⟩ := perform_runtime taken
    simp only [Runtime.machine, Runtime.perform, Option.ite_none_left_eq_some] at stepped
    obtain ⟨rfl, -⟩ := Prod.mk.inj (Option.some.inj stepped.2)
    exact alone (passive_host steady.sound .close fun _ => rfl) rfl rfl rfl rfl (told_session _)
  | took _ taken =>
    have kept := closed_next taken
    exact alone (passive_host steady.sound (.next taken) kept.trans) rfl rfl rfl rfl rfl
  | looked | cancelled | accepted => exact alone same rfl rfl rfl rfl rfl
  | stopped stops taken => exact stood_stops execution stood stops taken
  | finished draining =>
    cases stood with
    | serving here => exact absurd (here.symm.trans draining) (by simp)
    | stopping here => exact absurd (here.symm.trans draining) (by simp)
    | ended _ answers idle gone unbound released closed =>
      have last : (trace history ++ [Event.ended process.result]).filterMap happened =
          (trace history ++ [Event.ended process.result]).filterMap told ++ [.shutdown] := by
        have nothing : [Event.ended process.result].filterMap told = [] := rfl
        rw [List.filterMap_append, List.filterMap_append, answers, quiet, nothing,
          List.append_nil, List.append_nil]
      exact .ended (Or.inr ⟨_, rfl⟩) last ⟨idle.tasks, idle.handlers, idle.loads, idle.stops⟩ gone
        unbound released closed

/-- What is known of the end holds in every run. -/
theorem stood_of_execution (execution : (machine env fromSlice).Execution history process) :
    Stood (trace history) process := by
  refine execution.historyInvariant (fun history process => Stood (trace history) process) ?_ ?_
  · rintro process ⟨name, rfl⟩
    exact .serving rfl rfl
  · intro history process action next events prior stood taken
    have after := stood_effect prior stood (step_spec taken).2.2
    rw [trace_append]
    simpa using after

end Shutdown

section Ends

variable {env : Environment} {fromSlice : List UInt8 → Except String Value} {process : Process}
  {history : List (Transition Process Action Event)}

/-- Whatever happens to an object on request is told of in the answer to that request,
in the order in which it happens, and nothing else is told of. The shutdown of the
runtime comes last, and nothing happens behind it. -/
theorem answers_tell_what_happened
    (execution : (machine env fromSlice).Execution history process) :
    (trace history).filterMap happened = (trace history).filterMap told ++
      if process.stage.down then [.shutdown] else [] := by
  cases stood_of_execution execution with
  | serving stage answers => simp [answers, stage, Stage.down]
  | stopping stage answers => simp [answers, stage, Stage.down]
  | ended stage answers =>
    rcases stage with stage | ⟨result, stage⟩
    · simp [answers, stage, Stage.down]
    · simp [answers, stage, Stage.down]

/-- An object runs and gets an event, and the process is told to end. -/
def deliverAndEnd : List Action :=
  asks sampleInit 0 ++ asks sampleLoad 1 ++ [.loaded 1 (.ok true)] ++ asks sampleStart 2 ++
    [.guest 1 .idle ⟨0, 0⟩ []] ++ asks sampleDeliver 3 ++ [.session .signal] ++
    [0, 1, 2, 3].map .abort ++ [.shutdown, .guest 1 .idle ⟨0, 0⟩ [], .pollShutdown [],
      .pollShutdown [], .finish]

theorem execution_deliverAndEnd :
    ∃ history process, (machine sampleEnvironment sampleParser).Execution history process ∧
      (trace history).filterMap told =
        [.loaded "o1", .delivered "o1" (Runtime.envelope "e" "t" .null)] ∧
      1 ∈ process.session.runtime.heap ∧ process.stage.down = true := by
  have evaluated : ((machine sampleEnvironment sampleParser).run sampleProcess deliverAndEnd).any
      (fun result => decide ((trace result.1).filterMap told =
          [.loaded "o1", .delivered "o1" (Runtime.envelope "e" "t" .null)] ∧
        1 ∈ result.2.session.runtime.heap ∧ result.2.stage.down = true)) = true := by
    decide +kernel
  obtain ⟨history, process, execution, tested⟩ := Machine.execution_of_test evaluated ⟨"", rfl⟩
  exact ⟨history, process, execution, of_decide_eq_true tested⟩

/-- The embedder is told of the load and of the event. -/
theorem answers_tell_what_happened_twice :
    ∃ history process, (machine sampleEnvironment sampleParser).Execution history process ∧
      (trace history).filterMap happened =
        [.loaded "o1", .delivered "o1" (Runtime.envelope "e" "t" .null), .shutdown] := by
  obtain ⟨history, process, execution, tells, -, down⟩ := execution_deliverAndEnd
  refine ⟨history, process, execution, ?_⟩
  rw [answers_tell_what_happened execution, tells, if_pos down]
  rfl

/-- Nothing of the process can run, and nothing waits any more. -/
structure Finished (process : Process) : Prop where
  tasks : process.session.tasks = ∅
  handlers : process.handlers = ∅
  loads : process.session.runtime.loads = ∅
  stops : process.session.runtime.stops = ∅
  objects : process.session.runtime.objects = ∅
  released : ∀ {serial object}, process.session.runtime.heap.lookup serial = some object →
    object.Released ∧ (object.task = .none ∨ object.task = .finished)
  pending : process.session.runtime.host.pending = ∅
  lanes : ∀ name, process.session.out.lane (.object name) = []
  closed : process.session.out.closed = true

/-- When `serve_with_config` has shut the runtime down, no request is left, every
object that was ever loaded has ended and let go of what it held, no host call is
pending, no object has a frame in the outbox, and the outbox takes no more frames. -/
theorem nothing_left (execution : (machine env fromSlice).Execution history process)
    (down : process.stage.down = true) : process.Finished := by
  obtain ⟨-, -, run, below, -⟩ := parts_of_execution execution
  have sound := Runtime.sound_of_reachable below
  cases stood_of_execution execution with
  | serving stage => simp [stage, Stage.down] at down
  | stopping stage => simp [stage, Stage.down] at down
  | ended stage answers idle gone unbound released closed =>
    have ended {serial : Nat} {object : Object}
        (found : process.session.runtime.heap.lookup serial = some object) : object.Released := by
      obtain ⟨current, stored, held⟩ := released serial (Map.mem_of_lookup found)
      rwa [Option.some.inj (found.symm.trans stored)]
    have absent (name : String) : ¬ process.session.runtime.Resident name := by
      rintro ⟨serial, object, found, -, active⟩
      exact (sound.object found).1.not_active (ended found).final active
    constructor
    case tasks => exact AList.ext idle.tasks
    case handlers => exact Map.eq_empty fun number => AList.lookup_eq_none.mp (idle.handlers number)
    case loads => exact Map.eq_empty idle.loads
    case stops =>
      refine Map.eq_empty fun number => ?_
      by_cases own : number = process.session.spawned
      · rwa [own]
      · exact idle.stops number own
    case objects => exact unbound
    case released =>
      intro serial object found
      exact ⟨ended found, ((sound.object found).1.terminal (ended found).final).1⟩
    case pending =>
      refine Map.eq_empty fun id member => ?_
      obtain ⟨entry, waiting⟩ := Option.isSome_iff_exists.mp (AList.lookup_isSome.mpr member)
      have consistent := Runtime.consistent_of_execution below
      obtain ⟨future, guard, held, -⟩ := consistent.accounted.ledger.pendingLive waiting
      exact absent _ (consistent.resident held)
    case lanes =>
      intro name
      apply List.eq_nil_iff_forall_not_mem.mpr
      intro entry member
      exact absent name ((Runtime.housed_of_execution below).resident member)
    case closed => exact closed

/-- The object that has been running is stopped. -/
theorem nothing_left_stopped :
    ∃ history process, (machine sampleEnvironment sampleParser).Execution history process ∧
      1 ∈ process.session.runtime.heap ∧ process.Finished := by
  obtain ⟨history, process, execution, -, loaded, down⟩ := execution_deliverAndEnd
  exact ⟨history, process, execution, loaded, nothing_left execution down⟩

end Ends

end Process

end Spinfoam.Serve
