import Spinfoam.Runtime.Reasons
import Spinfoam.Semantics.Simulation

/-!
# How much a guest can log

`sf_log` counts attempts in windows of a second. Whatever a guest tries, at whatever
moments its attempts read the clock, and however its polls interleave with everything
else, the messages accepted from it between two moments are bounded by their distance.
-/

namespace Spinfoam

open Spinfoam.Json Spinfoam.Std Spinfoam.Outbox Spinfoam.Guest Spinfoam.Semantics
open Spinfoam.Runtime

section Credit

variable (first last : Nat)

/-- What the guest of an object may still log between two moments. -/
def Object.logCredit (object : Object) : Nat :=
  match object.task with
  | .none | .spawned => Window.allowance 1000000000 10 first last
  | .running context _ => context.window.credit 1000000000 10 first last
  | .finished => 0

/-- The same for an object that may not have been loaded yet. -/
def Runtime.logCredit (runtime : Runtime) (serial : Nat) : Nat :=
  match runtime.heap.lookup serial with
  | none => Window.allowance 1000000000 10 first last
  | some object => object.logCredit first last

end Credit

namespace Runtime

/-- The messages of an object that have been accepted for the output. -/
def logged (serial : Nat) (events : List Event) : Nat :=
  events.countP fun
    | .replied number call reply =>
      decide (number = serial) && decide (call.helper = .logRaw) && decide (reply = .value 0)
    | _ => false

/-- If the guest of the object tries to log in this step, it reads the clock between the
two moments. -/
def Action.LogsWithin (serial first last : Nat) : Action → Prop
  | .poll number (.helper call scope) _ _ => number = serial → call.helper = .logRaw →
    first ≤ scope.clock.monotonic ∧ scope.clock.monotonic ≤ last
  | _ => True

/-- Where the guest of the object calls no helper, it logs nothing. -/
def Unheard (serial : Nat) (events : List Event) : Prop :=
  ∀ call reply, .replied serial call reply ∉ events

variable {runtime after : Runtime} {events more : List Event} {serial first last : Nat}
  {object next : Object}

@[simp] theorem logged_append (serial : Nat) (front back : List Event) :
    logged serial (front ++ back) = logged serial front + logged serial back :=
  List.countP_append

theorem Unheard.logged (unheard : Unheard serial events) : logged serial events = 0 := by
  rw [Runtime.logged, List.countP_eq_zero]
  intro event member
  cases event with
  | replied number call reply =>
    have other : number ≠ serial := by
      rintro rfl
      exact unheard call reply member
    simp [other]
  | _ => simp

theorem unheard_of_mute (mute : Mute events) : Unheard serial events :=
  fun _ _ member => by cases mute _ member

theorem logCredit_of_lookup (found : runtime.heap.lookup serial = some object) :
    runtime.logCredit first last serial = object.logCredit first last := by
  rw [Runtime.logCredit, found]

theorem logCredit_running {context : GuestContext} {posted : Option Posted}
    (task : object.task = .running context posted) :
    object.logCredit first last = context.window.credit 1000000000 10 first last := by
  rw [Object.logCredit, task]

theorem logCredit_course (course : Object.Course object next) :
    next.logCredit first last ≤ object.logCredit first last := by
  cases course with
  | same task => rw [Object.logCredit, Object.logCredit, task]
  | spawned before task => rw [Object.logCredit, Object.logCredit, before, task]
  | begun clock before task =>
    rw [logCredit_running task, Object.logCredit, before]
    exact Window.credit_le_allowance _

/-- A move in which the guest calls no helper gives it nothing. -/
theorem Move.logCredit (move : Move runtime events after) (sound : Sound runtime)
    (known : ∀ serial object, runtime.heap.lookup serial = some object →
      object.wait = object.reason)
    (unheard : Unheard serial events) :
    after.logCredit first last serial ≤ runtime.logCredit first last serial := by
  cases stored : after.heap.lookup serial with
  | none =>
    have before : runtime.heap.lookup serial = none := by
      rw [AList.lookup_eq_none] at stored ⊢
      exact fun member => stored (move.known member)
    rw [Runtime.logCredit, Runtime.logCredit, stored, before]
  | some object =>
    rw [logCredit_of_lookup stored]
    cases move.became stored with
    | same found => rw [logCredit_of_lookup found]
    | @loaded request load waiting number =>
      have fresh : runtime.heap.lookup serial = none := by
        rw [AList.lookup_eq_none, ← number]
        exact (sound.loading waiting).2
      rw [Runtime.logCredit, fresh]
      exact le_rfl
    | @tended object _ found tended =>
      rw [logCredit_of_lookup found]
      exact logCredit_course (tended.course (sound.object found).1).2
    | @worked object context posted next guest found task worked =>
      rw [logCredit_of_lookup found, logCredit_running task]
      have waits := known serial object found
      rw [Object.reason_running task] at waits
      cases worked with
      | @helper scope call _ reply invoked =>
        exact absurd (List.mem_singleton_self _) (unheard call reply)
      | @stay ready future _ _ _ polled | @complete ready future _ _ _ _ polled =>
        have same := (@pollPosted_wait (runtime.guest object context) ready future waits).1
        rw [polled] at same
        change guest.context.window.credit 1000000000 10 first last ≤ _
        rw [same]
        exact le_rfl
    | finished =>
      rw [Object.logCredit, settle_task]
      exact Nat.zero_le _

/-- So do several, if no helper is called in any of them. -/
theorem Moves.logCredit (moves : Moves runtime events after) (sound : Sound runtime)
    (known : ∀ serial object, runtime.heap.lookup serial = some object →
      object.wait = object.reason)
    (unheard : Unheard serial events) :
    after.logCredit first last serial ≤ runtime.logCredit first last serial := by
  induction moves with
  | refl => exact le_rfl
  | @head runtime middle after front rest move more ih =>
    have now : middle.logCredit first last serial ≤ runtime.logCredit first last serial :=
      move.logCredit sound known fun call reply member =>
        unheard call reply (List.mem_append_left _ member)
    have later := ih (sound.move move) (fun _ _ stored => move.reasoned sound (known _ _) stored)
      fun call reply member => unheard call reply (List.mem_append_right _ member)
    exact later.trans now

/-- What a helper accepts for the output is paid by the credit of its guest. -/
theorem credit_invoke {guest : Guest} {scope : Scope} {call : HelperCall}
    (within : call.helper = .logRaw →
      first ≤ scope.clock.monotonic ∧ scope.clock.monotonic ≤ last) :
    logged serial [.replied serial call (guest.invoke scope call).2] +
        (guest.invoke scope call).1.context.window.credit 1000000000 10 first last ≤
      guest.context.window.credit 1000000000 10 first last := by
  by_cases logs : call.helper = .logRaw
  · obtain ⟨after, before⟩ := within logs
    have paid := @Window.credit_take 1000000000 10 first last scope.clock.monotonic (by decide)
      after before guest.context.window
    have counted (reply : Reply) : logged serial [.replied serial call reply] =
        if reply = .value 0 then 1 else 0 := by
      simp [logged, logs, List.countP_singleton]
    obtain ⟨helper, a, b, c, d, e⟩ := call
    obtain rfl : helper = .logRaw := logs
    rw [counted]
    change (if (guest.hLog scope a b).2 = .value 0 then 1 else 0) +
      (guest.hLog scope a b).1.context.window.credit 1000000000 10 first last ≤ _
    rcases (hLog_cases guest scope a b).2.2 with ⟨same, refused⟩ | ⟨same, granted⟩
    · rw [if_neg refused, same, Nat.zero_add]
    · rw [same]
      split_ifs with accepted
      · rwa [granted accepted] at paid
      · omega
  · have silent : logged serial [.replied serial call (guest.invoke scope call).2] = 0 := by
      simp [logged, logs]
    rw [silent, Nat.zero_add, invoke_window guest scope logs]

/-- A guest is heard only when it calls a helper. -/
theorem unheard_turn {number : Nat} {context : GuestContext} {posted : Option Posted}
    {order : List String} {turn : Turn} (other : ∀ call scope, turn ≠ .helper call scope)
    (taken : runtime.turn number object context posted order turn = some (after, events)) :
    Unheard serial events := by
  intro call reply member
  obtain ⟨-, none, -⟩ := helped_turn taken member
  cases turn with
  | idle =>
    obtain ⟨-, rfl⟩ := Prod.mk.inj (Option.some.inj taken)
    cases member
  | helper call scope => exact other call scope rfl
  | resume ready =>
    subst none
    cases taken
  | finish result =>
    obtain ⟨-, rfl⟩ := Prod.mk.inj (Option.some.inj taken)
    cases mute_host _ _ member

/-- The turn of a guest is paid by its credit. -/
theorem logCredit_turn (sound : Sound runtime)
    (known : ∀ serial object, runtime.heap.lookup serial = some object →
      object.wait = object.reason)
    {number : Nat} {context : GuestContext} {posted : Option Posted} {clock : Clock}
    {order : List String} {turn : Turn} (found : runtime.heap.lookup number = some object)
    (task : object.task = .running context posted) (live : object.cancel = false)
    (within : (Action.poll number turn clock order).LogsWithin serial first last)
    (taken : runtime.turn number object context posted order turn = some (after, events)) :
    logged serial events + after.logCredit first last serial ≤
      runtime.logCredit first last serial := by
  have quiet (unheard : Unheard serial events) : logged serial events +
      after.logCredit first last serial ≤ runtime.logCredit first last serial := by
    rw [unheard.logged, Nat.zero_add]
    exact (turn_moves found task live taken).logCredit sound known unheard
  cases turn with
  | helper call scope =>
    cases posted with
    | some future => cases taken
    | none =>
      by_cases own : number = serial
      · subst own
        have paid := @credit_invoke number first last (runtime.guest object context) scope call
          (within rfl)
        have called : some (runtime.absorb number object _ _, [Event.replied number call _]) =
            some (after, events) := taken
        simp only [Option.some.injEq, Prod.mk.injEq] at called
        obtain ⟨rfl, rfl⟩ := called
        rw [logCredit_of_lookup found, logCredit_running task,
          logCredit_of_lookup (AList.lookup_insert _)]
        exact paid
      · refine quiet fun heard reply member => ?_
        obtain ⟨same, -⟩ := helped_turn taken member
        exact own same.symm
  | idle | resume | finish => exact quiet (unheard_turn (by simp) taken)

/-- A poll of an object's task. -/
theorem logCredit_pollTask (sound : Sound runtime)
    (known : ∀ serial object, runtime.heap.lookup serial = some object →
      object.wait = object.reason)
    {number : Nat} {turn : Turn} {clock : Clock} {order : List String}
    (within : (Action.poll number turn clock order).LogsWithin serial first last)
    (taken : runtime.pollTask number turn clock order = some (after, events)) :
    logged serial events + after.logCredit first last serial ≤
      runtime.logCredit first last serial := by
  have ends {move : Moves runtime events after} (unheard : Unheard serial events) :
      logged serial events + after.logCredit first last serial ≤
        runtime.logCredit first last serial := by
    rw [unheard.logged, Nat.zero_add]
    exact move.logCredit sound known unheard
  have moves := pollTask_moves taken
  simp only [Runtime.pollTask, Option.bind_eq_some_iff] at taken
  obtain ⟨object, found, taken⟩ := taken
  cases task : object.task with
  | none | finished => simp [task] at taken
  | spawned =>
    simp only [task] at taken
    cases cancelled : object.cancel with
    | true =>
      have begun : (object.begin clock).cancel = true := cancelled
      rw [if_pos begun] at taken
      obtain ⟨-, rfl⟩ := Prod.mk.inj (Option.some.inj taken)
      exact @ends moves (unheard_of_mute (mute_host _))
    | false =>
      have begun : ¬ (object.begin clock).cancel = true := by
        simpa [Object.begin] using cancelled
      rw [if_neg begun, Option.map_eq_some_iff] at taken
      obtain ⟨⟨final, later⟩, turned, same⟩ := taken
      obtain ⟨rfl, rfl⟩ := Prod.mk.inj same
      -- the guest gets its context first, and its turn in the same poll
      have move : Move runtime [.invoked number] (runtime.put number (object.begin clock)) :=
        .tend found (.begin clock task cancelled)
      have begins : (runtime.put number (object.begin clock)).logCredit first last serial ≤
          runtime.logCredit first last serial :=
        move.logCredit sound known (by simp [Unheard])
      have turns := logCredit_turn (sound.move move)
        (fun _ _ stored => move.reasoned sound (known _ _) stored) (AList.lookup_insert _) rfl
        cancelled within turned
      rw [← List.singleton_append, logged_append]
      have silent : logged serial [.invoked number] = 0 := rfl
      dsimp only
      omega
  | running context posted =>
    simp only [task] at taken
    cases cancelled : object.cancel with
    | true =>
      rw [if_pos cancelled] at taken
      obtain ⟨-, rfl⟩ := Prod.mk.inj (Option.some.inj taken)
      exact @ends moves (unheard_of_mute (mute_host _))
    | false =>
      rw [if_neg (by simp [cancelled])] at taken
      exact logCredit_turn sound known found task cancelled within taken

/-- Every step is paid by the credit of the object. -/
theorem logCredit_step {action : Action} (sound : Sound runtime)
    (known : ∀ serial object, runtime.heap.lookup serial = some object →
      object.wait = object.reason)
    (within : action.LogsWithin serial first last)
    (taken : machine.step runtime action = some (after, events)) :
    logged serial events + after.logCredit first last serial ≤
      runtime.logCredit first last serial := by
  rcases mute_or_poll taken with mute | ⟨number, turn, clock, order, rfl, polled⟩
  · simp only [machine, Option.ite_none_left_eq_some] at taken
    rw [(unheard_of_mute mute).logged, Nat.zero_add]
    exact (perform_moves sound taken.2).logCredit sound known (unheard_of_mute mute)
  · exact logCredit_pollTask sound known within polled

/-- A stretch of a run is paid by the credit the object has at its beginning. -/
theorem logCredit_steps {stretch : List (Transition Runtime Action Event)}
    (steps : machine.Steps runtime stretch after)
    (within : ∀ transition ∈ stretch, transition.action.LogsWithin serial first last) :
    ∀ {history}, machine.Execution history runtime →
      logged serial (trace stretch) + after.logCredit first last serial ≤
        runtime.logCredit first last serial := by
  induction steps with
  | refl =>
    intro history _
    simp [logged]
  | @step runtime action next events later final taken rest ih =>
    intro history execution
    have now := logCredit_step (sound_of_reachable execution) (reasoned_of_execution execution)
      (within _ List.mem_cons_self) taken
    have then_ := ih (fun transition member => within transition (List.mem_cons_of_mem _ member))
      (execution.step taken)
    rw [trace_cons, logged_append]
    dsimp only
    omega

/-- Take any stretch of any run in which the attempts of an object to log read the clock
between two moments, in whatever order. Of them ten are accepted for each full second
between the two moments, and at most twenty more. -/
theorem logs_are_limited {history earlier stretch later : List (Transition Runtime Action Event)}
    (execution : machine.Execution history runtime) (split : history = earlier ++ (stretch ++ later))
    (within : ∀ transition ∈ stretch, transition.action.LogsWithin serial first last) :
    logged serial (trace stretch) ≤ 10 * ((last - first) / 1000000000 + 2) := by
  obtain ⟨start, before, steps⟩ := execution.parted split
  obtain ⟨final, during, -⟩ := steps.split
  have paid := logCredit_steps during within before
  have credit : start.logCredit first last serial ≤ Window.allowance 1000000000 10 first last := by
    unfold Runtime.logCredit
    split
    · exact le_rfl
    · unfold Object.logCredit
      split
      · exact le_rfl
      · exact le_rfl
      · exact Window.credit_le_allowance _
      · exact Nat.zero_le _
  exact (Nat.le_of_add_right_le paid).trans credit

/-- A guest that tries to log eleven times at once. -/
def chatter : List Action :=
  [.load 0 "" .null [], .loaded 0 (.ok true), .start "o1"] ++
    List.replicate 11 (.poll 1 (.helper { helper := .logRaw, b := 2 } (textual "hi")) ⟨0, 0⟩ [])

/-- Ten of its messages are accepted. -/
theorem logs_are_limited_chatter :
    ∃ history runtime, machine.Execution history runtime ∧ logged 1 (trace history) = 10 ∧
      logged 1 (trace history) ≤ 20 := by
  have evaluated : ((machine.run { host := { session := "" } } chatter).any fun result =>
      decide (logged 1 (trace result.1) = 10) && result.1.all fun transition =>
        match transition.action with
        | .poll _ (.helper _ scope) _ _ => decide (scope.clock.monotonic = 0)
        | _ => true) = true := by
    decide +kernel
  obtain ⟨history, runtime, execution, tested⟩ := Machine.execution_of_test evaluated ⟨"", rfl⟩
  simp only [Bool.and_eq_true, decide_eq_true_eq, List.all_eq_true] at tested
  refine ⟨history, runtime, execution, tested.1, ?_⟩
  refine @logs_are_limited runtime 1 0 0 history [] history [] execution (by simp) ?_
  intro transition member
  have timely := tested.2 transition member
  unfold Action.LogsWithin
  split
  · rename_i same
    simp only [same, decide_eq_true_eq] at timely
    exact fun _ _ => ⟨Nat.zero_le _, timely.le⟩
  · trivial

end Runtime

end Spinfoam
