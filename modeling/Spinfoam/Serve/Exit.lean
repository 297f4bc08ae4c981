import Spinfoam.Serve.Teardown

/-!
# The way out

Wherever a process is, it can end. What it takes are a signal, the drops of its
tasks and polls of what it has spawned itself: no frame of the embedder, no byte
that the output takes, and nothing that a guest would have to do.
-/

namespace Spinfoam.Serve

open Spinfoam.Json Spinfoam.Std Spinfoam.Outbox Spinfoam.Guest Spinfoam.Semantics

namespace Process

/-- The steps of the end. -/
def Action.ending : Action → Bool
  | .session .signal | .abort _ | .shutdown | .pollShutdown _ | .guest _ _ _ _ | .finish => true
  | _ => false

/-- How many steps the end takes at most. -/
def remaining (process : Process) : Nat :=
  match process.stage with
  | .serving =>
    process.session.tasks.entries.length + 3 * process.session.runtime.objects.entries.length + 5
  | .stopping =>
    match process.session.runtime.stops.lookup process.session.spawned with
    | none => 0
    | some call => call.rank + 1
  | .draining => 1
  | .ended _ => 0

/-- The process can get to its end within this many steps. -/
def Ends (env : Environment) (fromSlice : List UInt8 → Except String Value) (process : Process)
    (count : Nat) : Prop :=
  ∃ later final result, (machine env fromSlice).Steps process later final ∧
    final.stage = .ended result ∧ later.length ≤ count ∧
    ∀ transition ∈ later, transition.action.ending = true

section Steps

variable {env : Environment} {fromSlice : List UInt8 → Except String Value}
  {process next : Process} {action : Action} {events : List Event} {count : Nat}

theorem Ends.mono {more : Nat} (ends : Ends env fromSlice process count) (le : count ≤ more) :
    Ends env fromSlice process more := by
  obtain ⟨later, final, result, steps, ended, few, own⟩ := ends
  exact ⟨later, final, result, steps, ended, few.trans le, own⟩

theorem Ends.step (taken : (machine env fromSlice).step process action = some (next, events))
    (own : action.ending = true) (ends : Ends env fromSlice next count) :
    Ends env fromSlice process (count + 1) := by
  obtain ⟨later, final, result, steps, ended, few, others⟩ := ends
  refine ⟨_, final, result, .step taken steps, ended, Nat.succ_le_succ few, ?_⟩
  intro transition member
  rcases List.mem_cons.mp member with rfl | there
  · exact own
  · exact others transition there

/-- A step of a process that has not ended. -/
theorem step_eq (calm : process.session.runtime.panicked = false)
    (going : ∀ result, process.stage ≠ .ended result) :
    (machine env fromSlice).step process action = process.perform env fromSlice action := by
  cases stage : process.stage with
  | ended result => exact absurd stage (going result)
  | _ => simp [machine, stage, calm]

variable {history : List (Transition Process Action Event)}

/-- The wait for the writer is limited. -/
theorem ends_draining (execution : (machine env fromSlice).Execution history process)
    (draining : process.stage = .draining) : Ends env fromSlice process 1 := by
  have calm := (steady_of_execution execution).sound.calm
  have taken : (machine env fromSlice).step process .finish =
      some ({ process with stage := .ended process.result }, [.ended process.result]) := by
    rw [step_eq calm (by simp [draining])]
    simp [perform, draining]
  exact ⟨_, _, process.result, .step taken .refl, rfl, le_refl _, by simp [Action.ending]⟩

/-- While objects are being stopped, some poll always brings the end nearer. -/
theorem ends_stopping {call : Runtime.StopCall}
    (execution : (machine env fromSlice).Execution history process)
    (stopping : process.stage = .stopping)
    (waiting : process.session.runtime.stops.lookup process.session.spawned = some call) :
    Ends env fromSlice process (call.rank + 1) := by
  induction ranked : call.rank using Nat.strong_induction_on generalizing history process call with
  | h rank ih =>
    have sound := (steady_of_execution execution).sound
    have further {action : Action} {next : Process} {events : List Event}
        (own : action.ending = true)
        (taken : (machine env fromSlice).step process action = some (next, events))
        (down : next.stage = .draining ∨ next.stage = .stopping ∧
          ∀ later, next.session.runtime.stops.lookup next.session.spawned = some later →
            later.rank < call.rank) : Ends env fromSlice process (rank + 1) := by
      have positive : 0 < rank := by
        rw [← ranked, Runtime.StopCall.rank, Runtime.StopCall.targets, List.length_cons]
        omega
      have after := execution.step taken
      rcases down with draining | ⟨stage, nearer⟩
      · exact (Ends.step taken own (ends_draining after draining)).mono (by omega)
      · cases stood_of_execution after with
        | serving here => exact absurd (here.symm.trans stage) (by simp)
        | ended here => simp [stage] at here
        | @stopping _ _ _ _ _ _ later rest found =>
          have less := nearer later found
          exact (Ends.step taken own (ih later.rank (ranked ▸ less) after stage found rfl)).mono
            (by omega)
    obtain ⟨runtime, emitted, performed, nearer⟩ :=
      Runtime.awaited_step sound waiting .idle ⟨0, 0⟩ []
    have stepped : Runtime.machine.step process.session.runtime
        (call.awaited process.session.spawned .idle ⟨0, 0⟩ []) = some (runtime, emitted) := by
      simpa [Runtime.machine, sound.calm] using performed
    by_cases parked : call.phase = .parked false
    · have polled : call.awaited process.session.spawned .idle ⟨0, 0⟩ [] =
          .poll call.object .idle ⟨0, 0⟩ [] := by
        rw [Runtime.StopCall.awaited, parked]
      rw [polled] at stepped
      refine @further (.guest call.object .idle ⟨0, 0⟩ [])
        { process with session := { process.session with runtime } }
        ((emitted.map Serve.Event.runtime ++
          (added process.session.out runtime.host.out).map (Serve.Event.queued none)).map
            Event.session) rfl ?_
        (Or.inr ⟨stopping, nearer⟩)
      rw [step_eq sound.calm (by simp [stopping])]
      simp only [perform, part, Session.perform, ofRuntime, if_true, stepped, Option.map_some]
    · have polled : call.awaited process.session.spawned .idle ⟨0, 0⟩ [] =
          .pollStop process.session.spawned [] := by
        unfold Runtime.StopCall.awaited
        split
        · rename_i same
          exact absurd same parked
        · rfl
      rw [polled] at stepped
      refine @further (.pollShutdown []) (process.afterShutdown runtime emitted).1
        (process.afterShutdown runtime emitted).2 rfl ?_ ?_
      · rw [step_eq sound.calm (by simp [stopping])]
        simp only [perform, stopping, stepped, Option.map_some]
      · by_cases down : .shutdown ∈ emitted
        · exact Or.inl (by simp [afterShutdown, down])
        · exact Or.inr ⟨by simp [afterShutdown, down], by simpa [afterShutdown, down] using nearer⟩

/-- The tasks are dropped one after the other. -/
theorem ends_left (execution : (machine env fromSlice).Execution history process)
    (serving : process.stage = .serving) (left : process.session.left = true) :
    Ends env fromSlice process (process.session.tasks.entries.length +
      3 * process.session.runtime.objects.entries.length + 4) := by
  have steady := steady_of_execution execution
  have calm := steady.sound.calm
  induction listed : process.session.tasks.entries.length generalizing history process with
  | zero =>
    have empty := List.eq_nil_of_length_eq_zero listed
    have free : process.session.spawned ∉ process.session.runtime.stops := by
      cases steady.custody serving process.session.spawned with
      | idle _ _ _ stops => exact stops
      | busy _ held | calling _ held =>
        have idle := idle_of_custody (steady.custody serving) empty
        exact absurd ((idle.handlers _).symm.trans held) (by simp)
    obtain ⟨runtime, emitted, shut⟩ : ∃ runtime emitted,
        process.session.runtime.shutdown process.session.spawned = (runtime, emitted) := ⟨_, _, rfl⟩
    have stepped : Runtime.machine.step process.session.runtime
        (.shutdown process.session.spawned) = some (runtime, emitted) := by
      simp [Runtime.machine, calm, Runtime.perform, free, shut]
    have taken : (machine env fromSlice).step process .shutdown =
        some (process.afterShutdown runtime emitted) := by
      rw [step_eq calm (by simp [serving])]
      simp only [perform, serving]
      rw [if_pos ⟨left, empty⟩, stepped, Option.map_some]
    have after := execution.step taken
    by_cases down : .shutdown ∈ emitted
    · have draining : (process.afterShutdown runtime emitted).1.stage = .draining := by
        simp [afterShutdown, down]
      exact (Ends.step taken rfl (ends_draining after draining)).mono (by omega)
    · have stopping : (process.afterShutdown runtime emitted).1.stage = .stopping := by
        simp [afterShutdown, down]
      cases stood_of_execution after with
      | serving here => exact absurd (here.symm.trans stopping) (by simp)
      | ended here =>
        rcases here with here | ⟨_, here⟩
        · exact absurd (here.symm.trans stopping) (by simp)
        · exact absurd (here.symm.trans stopping) (by simp)
      | @stopping _ _ _ _ _ _ call rest waiting =>
        have few : call.rank ≤ 3 * process.session.runtime.objects.entries.length + 2 := by
          have found : (process.session.runtime.shutdown process.session.spawned).1.stops.lookup
              process.session.spawned = some call := by
            rw [shut]
            simpa [afterShutdown, down] using waiting
          have ranked := Runtime.rank_shutdownFrom found
          have listed := process.session.runtime.length_ordered
          omega
        exact (Ends.step taken rfl (ends_stopping after stopping waiting)).mono (by omega)
  | succ count ih =>
    obtain ⟨⟨number, task⟩, rest, same⟩ := List.exists_cons_of_length_eq_add_one listed
    have found : process.session.tasks.lookup number = some task :=
      AList.mem_lookup_iff.mpr (by rw [same]; exact List.mem_cons_self)
    have taken : (machine env fromSlice).step process (.abort number) =
        some (process.dropTask number task, []) := by
      rw [step_eq calm (by simp [serving])]
      simp [perform, serving, left, found]
    have after := execution.step taken
    have tasks : (process.dropTask number task).session.tasks.entries.length = count := by
      have member : number ∈ process.session.tasks := Map.mem_of_lookup found
      rw [dropTask]
      split_ifs
      · have kept := Map.length_insert_of_mem member { task with phase := .finished }
        have gone := Map.length_erase_of_mem
          ((AList.mem_insert process.session.tasks).mpr (Or.inl rfl) : number ∈
            process.session.tasks.insert number { task with phase := .finished })
        simp only [Session.finish]
        omega
      · have gone := Map.length_erase_of_mem member
        simp only
        omega
    have objects : (process.dropTask number task).session.runtime.objects =
        process.session.runtime.objects := by
      rw [dropTask]
      split_ifs <;> rfl
    have still : (process.dropTask number task).session.left = true := by
      rw [dropTask]
      split_ifs <;> exact left
    have ends := ih after serving still (steady_of_execution after)
      (steady_of_execution after).sound.calm tasks
    rw [objects] at ends
    exact (Ends.step taken rfl ends).mono (by omega)

/-- From every state of every run a process can end: once its loop is left, which a
signal brings about, polls of its own tasks and objects are enough, and their number
is bounded by what it holds. -/
theorem every_process_can_end (execution : (machine env fromSlice).Execution history process) :
    Ends env fromSlice process process.remaining := by
  have calm := (steady_of_execution execution).sound.calm
  cases stage : process.stage with
  | serving =>
    rw [remaining, stage]
    cases left : process.session.left with
    | true => exact (ends_left execution stage left).mono (by simp)
    | false =>
      have taken : (machine env fromSlice).step process (.session .signal) =
          some (process.adopt fromSlice .signal { process.session with left := true } [], []) := by
        rw [step_eq calm (by simp [stage])]
        simp [perform, ofLoop, left, Session.perform]
      have after := execution.step taken
      exact Ends.step taken rfl (ends_left after stage rfl)
  | stopping =>
    cases stood_of_execution execution with
    | serving here => exact absurd (here.symm.trans stage) (by simp)
    | ended here => simp [stage] at here
    | stopping _ _ _ _ _ waiting =>
      have ends := ends_stopping execution stage waiting
      simpa [remaining, stage, waiting] using ends
  | draining =>
    rw [remaining, stage]
    exact ends_draining execution stage
  | ended result =>
    rw [remaining, stage]
    exact ⟨[], process, result, .refl, stage, le_refl _, by simp⟩

/-- With four tasks, an object that is being unloaded and one that is being loaded. -/
theorem every_process_can_end_twelve :
    ∃ history process, (machine sampleEnvironment sampleParser).Execution history process ∧
      process.session.runtime.loads.keys = [3] ∧ process.session.runtime.stops.keys = [4] ∧
      Ends sampleEnvironment sampleParser process 12 := by
  obtain ⟨history, process, execution, serving, loads, stops, objects, tasks⟩ :=
    execution_loadAndUnload
  have ends := every_process_can_end execution
  have few : process.remaining = 12 := by simp [remaining, serving, objects, tasks]
  exact ⟨history, process, execution, loads, stops, few ▸ ends⟩

end Steps

end Process

end Spinfoam.Serve
