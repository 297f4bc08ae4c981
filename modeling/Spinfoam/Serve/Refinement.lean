import Spinfoam.Runtime.Refinement
import Spinfoam.Serve.Wire

/-!
# The layers of a process

A process is a session with its handlers and its writer, the session steps a
runtime, the runtime a host, and the host an outbox. What is known of the runs of
each of them holds in every run of a process.
-/

namespace Spinfoam.Serve

open Spinfoam.Json Spinfoam.Std Spinfoam.Outbox Spinfoam.Guest Spinfoam.Semantics

section Sessions

variable {session after : Session} {events : List Event}
  {fromSlice : List UInt8 → Except String Value}

/-- The events hand nothing over to the writer. -/
def Mute (events : List Event) : Prop := Runtime.Withheld (events.filterMap observed)

/-- What shows nothing of the runtime is mute. -/
theorem Mute.of_none (unobserved : events.filterMap observed = []) : Mute events := by
  rw [Mute, unobserved]
  rfl

/-- An answer of the loop is mute. -/
theorem mute_answer (session : Session) (asked : Option Asked) (value : Value) :
    Mute (session.answer asked value).2 := by
  rcases answer_spec session asked value with same | ⟨frame, out, -, -, same⟩
  · rw [same]
    exact .of_none rfl
  · rw [same]
    exact .of_none rfl

/-- A request is mute. -/
theorem mute_request (session : Session) (asked : Asked) : Mute (session.request asked).2 := by
  have refused (error : RpcError) : Mute (.requested asked ::
      (session.answer (some asked) (response (.string asked.id) (.error error))).2) :=
    mute_answer session (some asked) _
  unfold Session.request
  split_ifs
  · exact refused _
  · exact refused _
  · exact .of_none rfl

/-- A value that is received is mute. -/
theorem mute_receive (session : Session) (value : Value) : Mute (session.receive value).2 := by
  have rejected (code : Int) (kind message : String) :
      Mute (session.reject code kind message).2 := mute_answer session none _
  unfold Session.receive
  extract_lets isObject
  by_cases shape : (!isObject) ∨ (value.get "jsonrpc").bind Value.asStr ≠ some "2.0"
  · rw [if_pos shape]
    exact rejected ..
  · rw [if_neg shape]
    by_cases reply : value.get "method" = none ∧ value.get "id" ≠ none ∧
        (value.get "result" ≠ none ∨ value.get "error" ≠ none)
    · rw [if_pos reply]
      have events : ((session.runtime.host.response value).2.map fun event =>
          Event.runtime (.host event)).filterMap observed =
          (session.runtime.host.response value).2.map .host := by
        rw [← observed_runtime ((session.runtime.host.response value).2.map .host), List.map_map]
        rfl
      change Runtime.Withheld _
      rw [events, Runtime.Withheld, Runtime.hosted_host]
      rcases session.runtime.host.response_eq value with ⟨id, -, -, same⟩ | ⟨-, same⟩ <;>
        · rw [same]
          rfl
    · rw [if_neg reply]
      split
      · exact rejected ..
      · split
        · exact .of_none rfl
        · split
          · exact rejected ..
          · exact mute_request session _

/-- A turn of `frame` is mute. -/
theorem mute_progress (fromSlice : List UInt8 → Except String Value) (session : Session)
    (progress : Progress) : Mute (session.progress fromSlice progress).2 := by
  cases progress with
  | more | eof | failed => exact .of_none rfl
  | framed frame rest =>
    have parsed (session : Session) : Mute (session.parse fromSlice frame).2 := by
      unfold Session.parse
      split
      · exact mute_answer session none _
      · exact mute_receive session _
    exact parsed { session with frame := [], buffer := rest }

/-- A task that sends its response is mute. -/
theorem mute_send (session : Session) (number : Nat) (task : Task) (frame : Frame)
    (shutdown : Bool) : Mute (session.send number task frame shutdown).2 := by
  unfold Session.send
  split_ifs
  · exact .of_none rfl
  · split <;> exact .of_none rfl

/-- A handler that returns is mute. -/
theorem mute_handled {number : Nat} {result : RpcResult}
    (taken : session.perform fromSlice (.handled number result) = some (after, events)) :
    Mute events := by
  simp only [Session.perform, Option.bind_eq_some_iff, Option.ite_none_right_eq_some,
    Option.some.injEq] at taken
  obtain ⟨task, -, -, same⟩ := taken
  unfold Session.handled at same
  extract_lets shutdown at same
  split at same
  · cases same
    exact .of_none rfl
  · rename_i frame encoded
    have silent := mute_send session number task frame shutdown
    rwa [same] at silent

/-- Nothing but the writer takes a frame in a session. -/
theorem mute_perform {past : List Runtime.Event} (consistent : Runtime.Consistent past session.runtime)
    {action : Action} (other : action ≠ .write)
    (taken : session.perform fromSlice action = some (after, events)) : Mute events := by
  cases action with
  | runtime action =>
    obtain ⟨own, runtime, emitted, stepped, -, rfl⟩ := perform_runtime taken
    simp only [Runtime.machine, Option.ite_none_left_eq_some] at stepped
    have silent : Runtime.Withheld emitted := Runtime.withheld_perform consistent (by
      rintro rfl
      cases own) stepped.2
    rwa [Mute, List.filterMap_append, observed_runtime, observed_queued, List.append_nil]
  | write => exact absurd rfl other
  | handled number result => exact mute_handled taken
  | poll number =>
    simp only [Session.perform, Option.bind_eq_some_iff] at taken
    obtain ⟨task, -, taken⟩ := taken
    split at taken
    · rename_i frame shutdown _
      have silent := mute_send session number task frame shutdown
      rwa [Option.some.inj taken] at silent
    · cases taken
  | signal =>
    cases Option.some.inj taken
    exact .of_none rfl
  | leave =>
    simp only [Session.perform, Option.ite_none_right_eq_some] at taken
    cases Option.some.inj taken.2
    exact .of_none rfl
  | joined number =>
    simp only [Session.perform, Option.ite_none_left_eq_some, Option.bind_eq_some_iff,
      Option.ite_none_right_eq_some, Option.some.injEq, Prod.mk.injEq] at taken
    obtain ⟨-, task, -, -, -, rfl⟩ := taken
    exact .of_none rfl
  | frame read =>
    simp only [Session.perform, Option.ite_none_left_eq_some] at taken
    obtain ⟨-, taken⟩ := taken
    by_cases waiting : session.buffer ≠ []
    · rw [if_pos waiting] at taken
      have silent := mute_progress fromSlice session (frameTurn session.frame session.buffer)
      rwa [Option.some.inj taken] at silent
    · rw [if_neg waiting] at taken
      split at taken
      · cases Option.some.inj taken
        exact .of_none rfl
      · rename_i bytes
        simp only [Option.some.injEq, Prod.mk.injEq] at taken
        rw [← taken.2]
        exact mute_progress fromSlice { session with buffer := bytes } (frameTurn session.frame bytes)

end Sessions

namespace Process

variable {env : Environment} {fromSlice : List UInt8 → Except String Value} {process after : Process}
  {events : List Event} {history : List (Transition Process Action Event)}

/-- What the host knows of an event of the process. -/
def innermost (event : Event) : Option Host.Event := (beneath event).bind Runtime.hostEvent

/-- The frames that leave the outbox in these events. -/
def leaving (events : List Event) : List Frame :=
  (events.filterMap innermost).filterMap Host.emittedFrame

/-- The host knows of the process what it knows of the runtime. -/
theorem filterMap_innermost (events : List Event) :
    events.filterMap innermost = Runtime.hosted (events.filterMap beneath) := by
  rw [Runtime.hosted_eq_filterMap, List.filterMap_filterMap]
  rfl

/-- What leaves in one stretch leaves before what leaves in the next. -/
theorem leaving_append (first second : List Event) :
    leaving (first ++ second) = leaving first ++ leaving second := by
  rw [leaving, List.filterMap_append, List.filterMap_append]
  rfl

/-- Where the session hands nothing over, nothing is written. -/
theorem leaving_mute {events : List Serve.Event} (mute : Mute events) :
    leaving (events.map .session) = frames (events.map .session) := by
  have nothing : leaving (events.map .session) = [] := by
    rw [leaving, filterMap_innermost, filterMap_beneath, inner_session]
    exact mute
  rw [nothing, eq_comm, frames, List.filterMap_eq_nil_iff]
  intro event member
  obtain ⟨inner, there, rfl⟩ := List.mem_map.mp member
  cases inner with
  | written lane frame =>
    have handed : frame ∈ leaving (events.map .session) :=
      List.mem_filterMap.mpr ⟨.emitted frame, List.mem_filterMap.mpr ⟨_, member, rfl⟩, rfl⟩
    rw [nothing] at handed
    cases handed
  | _ => rfl

/-- The frames that leave the outbox are those that the writer takes. -/
theorem leaving_effect {past : List Runtime.Event}
    (consistent : Runtime.Consistent past process.session.runtime)
    (effect : Effect env fromSlice process events after) : leaving events = frames events := by
  have returned (asked : Asked) (params : Value) (result : RpcResult) (first later : List Serve.Event)
      (front : Mute first) (back : Mute later) :
      leaving (first.map .session ++ .returned asked params result :: later.map .session) =
        frames (first.map .session ++ .returned asked params result :: later.map .session) := by
    rw [leaving_append, frames_append, leaving_mute front]
    exact congrArg (_ ++ ·) (leaving_mute back)
  cases effect with
  | looped loop _ taken =>
    exact leaving_mute (mute_perform consistent (by rintro rfl; cases loop) taken)
  | returned returns taken =>
    exact returned _ _ _ [] _ (.of_none rfl) (mute_handled taken)
  | waiting _ taken | guest taken | broken _ taken =>
    exact leaving_mute (mute_perform consistent (by simp) taken)
  | answered _ taken _ sent =>
    exact returned _ _ _ _ _ (mute_perform consistent (by simp) taken) (mute_handled sent)
  | @stopped action runtime emitted stops taken =>
    simp only [Runtime.machine, Option.ite_none_left_eq_some] at taken
    have silent : Runtime.Withheld emitted := Runtime.withheld_perform consistent (by
      rintro rfl
      cases stops) taken.2
    have inside : Mute (emitted.map .runtime) := by rwa [Mute, observed_runtime]
    rw [afterShutdown, ← List.map_map]
    exact leaving_mute inside
  | took => rfl
  | compiling | looked | accepted | cancelled | aborted | finished => rfl

/-- What leaves the outbox is what the writer takes. -/
theorem leaving_of_execution (execution : (machine env fromSlice).Execution history process) :
    leaving (trace history) = frames (trace history) := by
  refine execution.historyInvariant (fun history _ =>
    leaving (trace history) = frames (trace history)) ?_ ?_
  · rintro process ⟨name, rfl⟩
    rfl
  · intro history process action next events prior same taken
    obtain ⟨-, -, effect⟩ := step_spec taken
    obtain ⟨-, -, run, below, -⟩ := parts_of_execution prior
    rw [trace_append, leaving_append, frames_append, same]
    simpa using leaving_effect (Runtime.consistent_of_execution below) effect

/-- A process is made of its layers. As long as requests are served its session is in
a state of the session's own machine, reached with the same events; its runtime, its
host, its mailboxes and its outbox always are in states of theirs. In the run of the
outbox the frames are handed over that the writer of the process takes. -/
theorem process_runs_its_layers (execution : (machine env fromSlice).Execution history process) :
    (process.session.left = false → ∃ run,
      (Serve.machine fromSlice).Execution run process.session ∧
      trace run = (trace history).filterMap inner) ∧
      (∃ run, Runtime.machine.Execution run process.session.runtime ∧
        trace run = (trace history).filterMap beneath) ∧
      (∃ run state, Host.machine.Execution run state ∧ state.host = process.session.runtime.host ∧
        (∀ serial, state.calls.lookup serial = process.session.runtime.waiting serial) ∧
        trace run = (trace history).filterMap innermost) ∧
      (∀ serial object, process.session.runtime.heap.lookup serial = some object →
        Mailbox.machine.Reachable object.mailbox) ∧
      ∃ run state, Outbox.machine.Execution run state ∧ state.queues = process.session.out.queues ∧
        state.closed = process.session.out.closed ∧ state.dropped = process.session.out.dropped ∧
        (trace run).filterMap Outbox.handedOver = frames (trace history) := by
  obtain ⟨-, session, run, runtime, seen⟩ := parts_of_execution execution
  obtain ⟨hosting, state, host, beside, same⟩ := Runtime.simulation.execution runtime
  obtain ⟨writing, tasks, outbox, mirrors, passed⟩ := Host.simulation.execution host
  rw [List.filterMap_some, seen, List.filterMap_filterMap] at same
  refine ⟨session, ⟨run, runtime, seen⟩, ⟨hosting, state, host, beside.host, beside.calls, same⟩,
    fun _ _ found => Runtime.attained_of_execution runtime found, ?_⟩
  rw [beside.host] at mirrors
  refine ⟨writing, tasks, outbox, mirrors.queues, mirrors.closed, mirrors.dropped, ?_⟩
  rw [passed, same, ← leaving_of_execution execution]
  rfl

/-- The outbox and the session behind two refusals. -/
theorem process_runs_its_layers_refusals :
    (∃ run session, (Serve.machine sampleParser).Execution run session) ∧
      ∃ run state, Outbox.machine.Execution run state ∧
        ((trace run).filterMap Outbox.handedOver).map Frame.value = [refusal, refusal] := by
  obtain ⟨history, process, execution, values, live⟩ := execution_writeInPieces
  obtain ⟨session, -, -, -, run, state, outbox, -, -, -, passed⟩ := process_runs_its_layers execution
  obtain ⟨above, served, -⟩ := session live
  exact ⟨⟨above, process.session, served⟩, run, state, outbox, passed ▸ values⟩

end Process

end Spinfoam.Serve
