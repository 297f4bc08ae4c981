import Spinfoam.Serve.Exit
import Spinfoam.Serve.Refinement

/-!
# The way out

What is put into the control queue comes out of it in the same order and is written.
Once the writer has found the outbox closed and empty nothing comes into it any more,
and everything that had been queued is on the output.
-/

namespace Spinfoam

open Spinfoam.Json Spinfoam.Std Spinfoam.Outbox Spinfoam.Guest Spinfoam.Semantics

namespace Outbox

/-- A closed outbox accepts nothing. -/
theorem Queues.offer_closed (queues : Queues) (lane : Lane) (entry : DataFrame) :
    queues.offer true lane entry = none := by
  cases lane <;> simp [Queues.offer, Queues.pushData]

theorem LaneMove.empty {lane : Lane} {events : List Event} {entries : List DataFrame}
    (move : LaneMove lane [] events entries) (nothing : acceptedEntries lane events = []) :
    entries = [] := by
  cases move with
  | still | remove => rfl
  | accept entry accepted =>
    rw [nothing] at accepted
    cases accepted

section Tasks

variable {state final : State} {events : List Event}

/-- A closed outbox accepts nothing and stays closed. -/
theorem Effect.shut {action : Action} {result : State × List Event}
    (effect : Effect state action result) (closed : state.closed = true) :
    result.1.closed = true ∧ ∀ lane, acceptedEntries lane result.2 = [] := by
  cases effect with
  | accepted sends offered =>
    rw [closed, Queues.offer_closed] at offered
    cases offered
  | closed => exact ⟨rfl, fun _ => rfl⟩
  | refused | tooLarge | senderClosed | senderParked | senderAsleep | senderDropped | returned
  | ended | parked | asleep | unknownRequest | removedRequest | removedObject =>
    exact ⟨closed, fun _ => rfl⟩

/-- Nothing comes into a closed outbox that is empty. -/
theorem drained_of_reaches (reachable : machine.Reachable state)
    (stretch : machine.Reaches state events final) (closed : state.closed = true)
    (drained : ∀ lane, state.queues.lane lane = []) :
    final.closed = true ∧ ∀ lane, final.queues.lane lane = [] := by
  obtain ⟨history, steps, -⟩ := stretch
  induction steps with
  | refl => exact ⟨closed, drained⟩
  | step taken _ ih =>
    obtain ⟨run, execution⟩ := reachable
    obtain ⟨wellFormed, effect⟩ := effect_of_step execution taken
    obtain ⟨still, nothing⟩ := effect.shut closed
    refine ih ⟨_, execution.step taken⟩ still fun lane => ?_
    have moved := effect.laneMove wellFormed lane
    rw [drained] at moved
    exact moved.empty (nothing lane)

end Tasks

end Outbox

/-- The outbox of a runtime stays closed and empty, too. -/
theorem Runtime.drained_of_reaches {runtime after : Runtime} {events : List Runtime.Event}
    (reachable : machine.Reachable runtime) (stretch : machine.Reaches runtime events after)
    (closed : runtime.host.out.closed = true) (drained : runtime.host.out.next = none) :
    after.host.out.closed = true ∧ after.host.out.next = none := by
  obtain ⟨history, execution⟩ := reachable
  obtain ⟨hosting, host, hosted, beside, -⟩ := simulation.execution execution
  obtain ⟨writing, tasks, written, mirrors, -⟩ := Host.simulation.execution hosted
  obtain ⟨_, hostAfter, hostSteps, besideAfter, -⟩ :=
    simulation.reaches ⟨_, execution⟩ beside stretch
  obtain ⟨_, tasksAfter, taskSteps, mirrorsAfter, -⟩ :=
    Host.simulation.reaches ⟨_, hosted⟩ mirrors hostSteps
  rw [beside.host] at mirrors
  rw [besideAfter.host] at mirrorsAfter
  obtain ⟨shut, empty⟩ := Outbox.drained_of_reaches ⟨_, written⟩ taskSteps
    (mirrors.closed.trans closed) fun lane => by
      rw [mirrors.queues]
      exact Outbox.next_eq_none.mp drained lane
  refine ⟨mirrorsAfter.closed.symm.trans shut, Outbox.next_eq_none.mpr fun lane => ?_⟩
  rw [Outbox.lane, ← mirrorsAfter.queues]
  exact empty lane

namespace Serve.Process

variable {env : Environment} {fromSlice : List UInt8 → Except String Value}
  {process after : Process} {events : List Event}
  {history : List (Transition Process Action Event)}

/-- The frames that have been put into the control queue, as responses or as notices. -/
def queuedFrames (events : List Event) : List Frame :=
  (queued (events.filterMap inner)).map Prod.snd

/-- The control frames that the writer has taken. -/
def takenFrames (events : List Event) : List Frame := written (events.filterMap inner)

@[simp] theorem queuedFrames_append (first second : List Event) :
    queuedFrames (first ++ second) = queuedFrames first ++ queuedFrames second := by
  simp [queuedFrames]

@[simp] theorem takenFrames_append (first second : List Event) :
    takenFrames (first ++ second) = takenFrames first ++ takenFrames second := by
  simp [takenFrames]

/-- They are among all frames that it has taken. -/
theorem takenFrames_sublist (events : List Event) :
    (takenFrames events).Sublist (frames events) := by
  induction events with
  | nil => exact .slnil
  | cons event rest ih =>
    cases event with
    | session event =>
      cases event with
      | written lane frame =>
        cases lane with
        | control => exact ih.cons_cons frame
        | object name => exact ih.cons frame
      | _ => exact ih
    | _ => exact ih

/-- The shutdown behind the loop leaves the host alone. -/
theorem host_stopped (prior : (machine env fromSlice).Execution history process)
    {action : Runtime.Action} {runtime : Runtime} {emitted : List Runtime.Event}
    (stops : Stops process action)
    (taken : process.session.runtime.perform action = some (runtime, emitted)) :
    runtime.host = process.session.runtime.host := by
  cases stops with
  | first =>
    simp only [Runtime.perform, Option.ite_none_left_eq_some, Option.some.injEq] at taken
    have same := Runtime.shutdown_host process.session.runtime process.session.spawned
    rwa [taken.2] at same
  | later order stopping =>
    cases stood_of_execution prior with
    | serving stage => exact absurd (stage.symm.trans stopping) (by simp)
    | ended stage => simp [stopping] at stage
    | @stopping _ _ _ _ _ _ call rest waiting purpose =>
      simp only [Runtime.perform, waiting, purpose, Option.bind_some,
        Option.map_eq_some_iff] at taken
      obtain ⟨object, -, same⟩ := taken
      have kept := Runtime.proceed_shutdown_host process.session.runtime process.session.spawned
        call.object rest order (object.pollStop call.phase)
      rwa [same] at kept

/-- Behind the loop, too, nothing leaves the control queue but by the writer. -/
theorem balanced_behind (prior : (machine env fromSlice).Execution history process)
    (effect : Effect env fromSlice process events after) (left : process.session.left = true) :
    process.session.out.controls ++ queuedFrames events =
      takenFrames events ++ after.session.out.controls := by
  have guarded := (steady_of_execution prior).guarded
  have never (live : process.session.left = false) : False :=
    absurd (live.symm.trans left) Bool.false_ne_true
  have performed {action : Runtime.Action} {session : Session} {more : List Serve.Event}
      (taken : process.session.perform fromSlice (.runtime action) = some (session, more)) :
      process.session.out.controls ++ queuedFrames (more.map .session) =
        takenFrames (more.map .session) ++ session.out.controls := by
    obtain ⟨own, runtime, emitted, stepped, rfl, rfl⟩ := perform_runtime taken
    simp only [Runtime.machine, Option.ite_none_left_eq_some] at stepped
    have noticed := Runtime.noticed_perform (by rintro value rfl; cases own)
      (by rintro rfl; cases own) stepped.2
    have moved : Serve.Effect process.session (.runtime action) _ _ := .runtime emitted noticed
    rw [queuedFrames, takenFrames, inner_session]
    exact (moved.adds guarded).flow
  cases effect with
  | looped _ going => exact (never going).elim
  | returned returns => exact (never returns.live).elim
  | waiting calls | answered calls => exact (never calls.live).elim
  | compiling waits => exact (never (handling_spec waits).1).elim
  | guest taken | broken _ taken => exact performed taken
  | took looks taken =>
    have moved : Serve.Effect process.session .write _ _ := .wrote taken
    exact (moved.adds guarded).flow
  | looked | accepted | cancelled | finished => exact List.append_nil _
  | @aborted number task =>
    have same : (process.dropTask number task).session.out = process.session.out := by
      unfold dropTask
      split_ifs <;> rfl
    simp [same, queuedFrames, takenFrames, queued, written]
  | @stopped action runtime emitted stops taken =>
    simp only [Runtime.machine, Option.ite_none_left_eq_some] at taken
    have same := host_stopped prior stops taken.2
    have kept : (process.afterShutdown runtime emitted).1.session.out.controls =
        process.session.out.controls := by
      rw [afterShutdown]
      split_ifs <;> simp [Session.out, Outbox.controls, Outbox.close, Outbox.lane, same]
    have unqueued : queuedFrames (process.afterShutdown runtime emitted).2 = [] := by
      simp [afterShutdown, queuedFrames, queued, inner, List.filterMap_map, Function.comp_def]
    have untaken : takenFrames (process.afterShutdown runtime emitted).2 = [] := by
      simp [afterShutdown, takenFrames, written, inner, List.filterMap_map, Function.comp_def]
    rw [kept, unqueued, untaken, List.append_nil, List.nil_append]

/-- Every frame that has been put into the control queue has been taken or waits, once
and in its order. -/
theorem balanced_of_execution (execution : (machine env fromSlice).Execution history process) :
    queuedFrames (trace history) =
      takenFrames (trace history) ++ process.session.out.controls := by
  refine execution.historyInvariant (fun history process =>
    queuedFrames (trace history) =
      takenFrames (trace history) ++ process.session.out.controls) ?_ ?_
  · rintro process ⟨name, rfl⟩
    rfl
  · intro history process action next events prior balanced taken
    obtain ⟨behind, session, -⟩ := parts_of_execution prior
    obtain ⟨-, -, effect⟩ := step_spec taken
    rw [trace_append, queuedFrames_append, takenFrames_append]
    cases left : process.session.left with
    | false =>
      obtain ⟨run, above, shown⟩ := session left
      obtain ⟨more, steps, stretch⟩ := effect.reaches above.reachable left behind
      have flow := (accounts_of_execution (above.continue steps)).2.flow
      rw [trace_append, shown, stretch] at flow
      simp only [queued_append, written_append, List.map_append] at flow
      have same : queuedFrames (trace history) ++ queuedFrames events =
          takenFrames (trace history) ++ takenFrames events ++ next.session.out.controls := flow
      simpa using same
    | true =>
      have one : trace [⟨process, action, events, next⟩] = events := by simp
      rw [one, balanced, List.append_assoc, List.append_assoc, balanced_behind prior effect left]

section Ending

/-- The parts of a request do not touch the writer. -/
theorem writer_call {task : Nat} {asked : Asked} {params : Value} {action : Runtime.Action}
    (taken : process.call fromSlice task asked params action = some (after, events)) :
    after.writer = process.writer := by
  simp only [call, Option.bind_eq_some_iff] at taken
  obtain ⟨⟨middle, first⟩, -, taken⟩ := taken
  split at taken
  · cases Option.some.inj taken
    rfl
  · obtain ⟨⟨next, more⟩, responded, same⟩ := Option.map_eq_some_iff.mp taken
    obtain ⟨session, later, -, -, rfl⟩ := respond_spec responded
    cases same
    rfl

theorem writer_handle {task : Nat} {moment : Moment}
    (taken : process.handle env fromSlice task moment = some (after, events)) :
    after.writer = process.writer := by
  simp only [handle, Option.bind_eq_some_iff] at taken
  obtain ⟨⟨asked, params⟩, -, taken⟩ := taken
  cases handled : env.handle process.initialized process.session.runtime task moment asked.method
    params with
  | mk handling initialized =>
    simp only [handled] at taken
    cases handling with
    | answered result =>
      obtain ⟨session, later, -, -, rfl⟩ := respond_spec taken
      rfl
    | calling action =>
      have calls : ({ process with initialized } : Process).call fromSlice task asked params action =
          some (after, events) := taken
      have kept := writer_call calls
      exact kept
    | compiling request =>
      cases Option.some.inj taken
      rfl

theorem writer_part {action : Serve.Action}
    (taken : process.part fromSlice action = some (after, events)) :
    after.writer = process.writer := by
  simp only [part, Option.map_eq_some_iff] at taken
  obtain ⟨⟨session, more⟩, -, same⟩ := taken
  cases same
  rfl

/-- The writer ends in a look into a closed outbox that is empty, or because its
`select!` sees that the outbox is closed. -/
theorem writer_ends {action : Action}
    (taken : process.perform env fromSlice action = some (after, events))
    (going : process.writer ≠ .done) (ended : after.writer = .done) :
    after.session = process.session ∧ process.session.out.closed = true ∧
      (action = .cancelWriter ∨ process.session.out.next = none) := by
  have kept (same : after.writer = process.writer) : False := going (same ▸ ended)
  cases action with
  | session action =>
    simp only [perform, Option.ite_none_right_eq_some, Option.map_eq_some_iff] at taken
    obtain ⟨-, ⟨session, emitted⟩, -, same⟩ := taken
    cases same
    exact (kept rfl).elim
  | handle task moment => exact (kept (writer_handle taken)).elim
  | loaded task result | resume task order =>
    simp only [perform, Option.bind_eq_some_iff] at taken
    obtain ⟨⟨asked, params⟩, -, taken⟩ := taken
    exact (kept (writer_call taken)).elim
  | compiled task output =>
    simp only [perform, Option.bind_eq_some_iff] at taken
    obtain ⟨⟨asked, params⟩, -, taken⟩ := taken
    obtain ⟨session, later, -, -, rfl⟩ := respond_spec taken
    exact (kept rfl).elim
  | guest object turn clock order => exact (kept (writer_part taken)).elim
  | take =>
    simp only [perform, Option.ite_none_right_eq_some] at taken
    obtain ⟨-, taken⟩ := taken
    split at taken
    · rename_i empty
      cases Option.some.inj taken
      by_cases closed : process.session.out.closed = true
      · exact ⟨rfl, closed, Or.inr empty⟩
      · rw [if_neg closed] at ended
        cases ended
    · rw [writer_part taken] at ended
      cases ended
  | accept count =>
    simp only [perform] at taken
    split at taken
    · simp only [Option.ite_none_left_eq_some] at taken
      cases Option.some.inj taken.2
      split_ifs at ended
    · cases taken
  | broken error =>
    simp only [perform] at taken
    split at taken
    · rw [writer_part taken] at ended
      cases ended
    · cases taken
  | cancelWriter =>
    simp only [perform] at taken
    split at taken
    · simp only [Option.ite_none_right_eq_some] at taken
      cases Option.some.inj taken.2
      exact ⟨rfl, taken.1, Or.inl rfl⟩
    · cases taken
  | abort number =>
    simp only [perform] at taken
    split at taken
    · simp only [Option.ite_none_right_eq_some, Option.map_eq_some_iff] at taken
      obtain ⟨-, task, -, same⟩ := taken
      cases same
      exact (kept rfl).elim
    · cases taken
  | shutdown =>
    simp only [perform] at taken
    split at taken
    · simp only [Option.ite_none_right_eq_some, Option.map_eq_some_iff] at taken
      obtain ⟨-, ⟨runtime, emitted⟩, -, same⟩ := taken
      cases same
      exact (kept rfl).elim
    · cases taken
  | pollShutdown order =>
    simp only [perform] at taken
    split at taken
    · simp only [Option.map_eq_some_iff] at taken
      obtain ⟨⟨runtime, emitted⟩, -, same⟩ := taken
      cases same
      exact (kept rfl).elim
    · cases taken
  | finish =>
    simp only [perform] at taken
    split at taken
    · cases Option.some.inj taken
      exact (kept rfl).elim
    · cases taken

/-- A step of the process leaves an outbox closed and empty that is so. -/
theorem drained_step (prior : (machine env fromSlice).Execution history process)
    (effect : Effect env fromSlice process events after)
    (closed : process.session.out.closed = true) (drained : process.session.out.next = none) :
    after.session.out.closed = true ∧ after.session.out.next = none := by
  obtain ⟨behind, session, run, below, -⟩ := parts_of_execution prior
  cases left : process.session.left with
  | false =>
    obtain ⟨served, above, -⟩ := session left
    exact Runtime.drained_of_reaches below.reachable
      ((runtime_simulation fromSlice).reaches above.reachable
        (effect.reaches above.reachable left behind)) closed drained
  | true =>
    exact Runtime.drained_of_reaches below.reachable
      (effect.reaches_behind left (Runtime.sound_of_reachable below)) closed drained

/-- The writer has been ended by its `select!` while frames were waiting. -/
def CutOff (history : List (Transition Process Action Event)) : Prop :=
  ∃ transition ∈ history, transition.action = .cancelWriter ∧
    transition.before.session.out.next ≠ none

/-- If nothing has cut it off, the writer has ended at an empty outbox that is closed. -/
theorem drained_of_done (execution : (machine env fromSlice).Execution history process)
    (ended : process.writer = .done) :
    CutOff history ∨ process.session.out.closed = true ∧ process.session.out.next = none := by
  refine execution.historyInvariant (fun history process => process.writer = .done →
    CutOff history ∨ process.session.out.closed = true ∧ process.session.out.next = none)
    ?_ ?_ ended
  · rintro process ⟨name, rfl⟩ ended
    cases ended
  · intro history process action next events prior before taken ended
    obtain ⟨alive, calm, effect⟩ := step_spec taken
    have longer (cut : CutOff history) : CutOff (history ++ [⟨process, action, events, next⟩]) := by
      obtain ⟨transition, member, cuts⟩ := cut
      exact ⟨transition, List.mem_append_left _ member, cuts⟩
    by_cases going : process.writer = .done
    · rcases before going with cut | ⟨closed, drained⟩
      · exact Or.inl (longer cut)
      · exact Or.inr (drained_step prior effect closed drained)
    · rw [step_eq calm alive] at taken
      obtain ⟨same, closed, cuts⟩ := writer_ends taken going ended
      rw [same]
      by_cases empty : process.session.out.next = none
      · exact Or.inr ⟨closed, empty⟩
      · exact Or.inl ⟨_, List.mem_append_right _ (List.mem_singleton_self _),
          cuts.resolve_right empty, empty⟩

end Ending

/-- Everything that has been put into the control queue, every response among it, has
been taken by the writer or still waits, once each and in the order in which it was put
there. When the writer has ended, and its `select!` has not made it leave frames behind,
nothing waits and nothing can come any more: everything that was ever queued has been
taken, and what has been taken is on the output, whole and in its order. -/
theorem answers_reach_the_output (execution : (machine env fromSlice).Execution history process) :
    queuedFrames (trace history) = takenFrames (trace history) ++ process.session.out.controls ∧
    (process.writer = .done → CutOff history ∨
      process.session.out.closed = true ∧ process.session.out.next = none ∧
      queuedFrames (trace history) = takenFrames (trace history) ∧
      (queuedFrames (trace history)).Sublist (frames (trace history)) ∧
      output (trace history) = ((frames (trace history)).map encoded).flatten) := by
  have balanced := balanced_of_execution execution
  refine ⟨balanced, fun ended => ?_⟩
  rcases drained_of_done execution ended with cut | ⟨closed, drained⟩
  · exact Or.inl cut
  · have waiting : process.session.out.controls = [] := by
      rw [Outbox.controls, Outbox.next_eq_none.mp drained]
      rfl
    rw [waiting, List.append_nil] at balanced
    refine Or.inr ⟨closed, drained, balanced, balanced ▸ takenFrames_sublist _, ?_⟩
    cases wired_of_execution execution with
    | whole _ sent => exact sent
    | part writer => simp [ended] at writer

/-- A request before `sf.initialize`, whose refusal is written, and the end. -/
def writeAndEnd : List Action :=
  asks sampleStart 0 ++ [.take, .accept 122, .session .signal, .abort 0, .shutdown, .take]

/-- The refusal is on the output. -/
theorem answers_reach_the_output_refusal :
    ∃ history process, (machine sampleEnvironment sampleParser).Execution history process ∧
      (queuedFrames (trace history)).map Frame.value = [refusal] ∧
      queuedFrames (trace history) = takenFrames (trace history) ∧
      (queuedFrames (trace history)).Sublist (frames (trace history)) ∧
      output (trace history) = ((frames (trace history)).map encoded).flatten := by
  have evaluated : ((machine sampleEnvironment sampleParser).run sampleProcess writeAndEnd).any
      (fun result => decide ((queuedFrames (trace result.1)).map Frame.value = [refusal]) &&
        (match result.2.writer with
        | .done => true
        | _ => false) &&
        result.1.all fun transition =>
          match transition.action with
          | .cancelWriter => false
          | _ => true) = true := by decide +kernel
  obtain ⟨history, process, execution, tested⟩ := Machine.execution_of_test evaluated ⟨"", rfl⟩
  simp only [Bool.and_eq_true, decide_eq_true_eq, List.all_eq_true] at tested
  obtain ⟨⟨values, ended⟩, patient⟩ := tested
  have done : process.writer = .done := by
    split at ended
    · assumption
    · cases ended
  rcases (answers_reach_the_output execution).2 done with ⟨transition, member, cuts, -⟩ | delivered
  · have waits := patient transition member
    rw [cuts] at waits
    cases waits
  · exact ⟨history, process, execution, values, delivered.2.2⟩

end Serve.Process

end Spinfoam
