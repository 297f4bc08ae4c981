import Spinfoam.Runtime.Machine

/-!
# The cells of an object

The state, the task, the handle, the mailbox, the wait reason and the outcome of
an object are separate cells. `Object.Sound` is how they fit together at every
suspension point, and everything that can be done to an object keeps it.
-/

namespace Spinfoam

open Spinfoam.Json Spinfoam.Std Spinfoam.Outbox Spinfoam.Guest Spinfoam.Semantics
open Spinfoam.Runtime

namespace Object

/-- The task of the object holds a guest. -/
def Active (object : Object) : Prop := ∃ context posted, object.task = .running context posted

/-- How the cells of an object fit together at a suspension point. -/
structure Sound (object : Object) : Prop where
  loaded : object.state = .loaded →
    object.task = .none ∧ object.program = true ∧ object.handle = false
  starting : object.state = .starting → object.task = .spawned
  running : object.state = .running → object.Active
  stopping : object.state = .stopping →
    object.cancel = true ∧ (object.task = .spawned ∨ object.Active)
  terminal : object.state.terminal = true →
    (object.task = .none ∨ object.task = .finished) ∧ object.mailbox.entries = []
  waits : object.wait ≠ .none → object.Active
  context : ∀ {context posted}, object.task = .running context posted →
    context.id = object.id ∧ context.capabilities = object.capabilities
  outcome : object.outcome.isSome = true ↔ object.state = .exited ∨ object.state = .failed

/-- What is known of an object while someone waits for it to stop: before the
wakeup its task is still to end, afterwards it has. -/
def Fits (object : Object) : StopPhase → Prop
  | .parked false => object.state = .stopping
  | .parked true | .joining => object.state.terminal = true

/-- An object that has ended and holds nothing any more. -/
structure Released (object : Object) : Prop where
  final : object.state.terminal = true
  program : object.program = false
  config : object.config = .null
  mailbox : object.mailbox.entries = [] ∧ object.mailbox.bytes = 0 ∧ object.mailbox.recent = []

/-- What can happen to an object without its guest. -/
inductive Tended (serial : Nat) (object : Object) : List Runtime.Event → Object → Prop where
  | start (loaded : object.state = .loaded) :
      Tended serial object [] { object with state := .starting, task := .spawned, handle := true }
  | stop : Tended serial object [] object.stop.1
  | pollStop {phase : StopPhase} (fits : object.Fits phase) :
      Tended serial object [] (object.pollStop phase).1
  | cancel : Tended serial object [] { object with cancel := true }
  | deliver (event : Value) :
      Tended serial object
        (if (object.deliver event).2 = .ok (Mailbox.admitted false) then
          [.accepted serial event] else [])
        (object.deliver event).1
  | begin (clock : Clock) (spawned : object.task = .spawned) (live : object.cancel = false) :
      Tended serial object [.invoked serial] (object.begin clock)

section Laws

variable {object after : Object}

/-- A fresh object. -/
theorem sound_loaded (id hash : String) (config : Value) (capabilities : List Capability) :
    Sound { id, hash, config, capabilities } where
  loaded := fun _ => ⟨rfl, rfl, rfl⟩
  starting := by simp
  running := by simp
  stopping := by simp
  terminal := by simp [State.terminal]
  waits := by simp
  context := by simp
  outcome := by simp

theorem Sound.not_active (sound : object.Sound) (final : object.state.terminal = true) :
    ¬ object.Active := by
  rintro ⟨context, posted, active⟩
  rcases (sound.terminal final).1 with idle | idle <;>
    · rw [active] at idle
      cases idle

/-- An active object is running or stopping. -/
theorem Sound.state_of_active (sound : object.Sound) (active : object.Active) :
    object.state = .running ∨ object.state = .stopping := by
  obtain ⟨context, posted, task⟩ := active
  cases state : object.state with
  | loaded =>
    have idle := (sound.loaded state).1
    rw [task] at idle
    cases idle
  | starting =>
    have spawned := sound.starting state
    rw [task] at spawned
    cases spawned
  | running => exact Or.inl rfl
  | stopping => exact Or.inr rfl
  | stopped | exited | failed =>
    exact absurd ⟨context, posted, task⟩ (sound.not_active (by rw [state]; rfl))

/-- A spawned object is starting or stopping. -/
theorem Sound.state_of_spawned (sound : object.Sound) (spawned : object.task = .spawned) :
    object.state = .starting ∨ object.state = .stopping := by
  cases state : object.state with
  | loaded =>
    have idle := (sound.loaded state).1
    rw [spawned] at idle
    cases idle
  | starting => exact Or.inl rfl
  | running =>
    obtain ⟨context, posted, task⟩ := sound.running state
    rw [spawned] at task
    cases task
  | stopping => exact Or.inr rfl
  | stopped | exited | failed =>
    have final : object.state.terminal = true := by rw [state]; rfl
    rcases (sound.terminal final).1 with idle | idle <;>
      · rw [spawned] at idle
        cases idle

/-- `release` only lets go of what the object holds. -/
theorem Sound.release (sound : object.Sound) (final : object.state.terminal = true) :
    object.release.Sound where
  loaded := by
    intro loaded
    change object.state = .loaded at loaded
    rw [loaded] at final
    cases final
  starting := sound.starting
  running := sound.running
  stopping := sound.stopping
  terminal := fun _ => ⟨(sound.terminal final).1, rfl⟩
  waits := sound.waits
  context := sound.context
  outcome := sound.outcome

/-- `join` keeps the state and the task. -/
theorem join_spec (object : Object) :
    (object.handle = true ∧ object.join = ({ object with handle := false }, some .joining)) ∨
      (object.handle = false ∧ object.join = (object.release, none)) := by
  cases held : object.handle with
  | true => exact Or.inl ⟨rfl, by simp [join, held]⟩
  | false => exact Or.inr ⟨rfl, by simp [join, held]⟩

theorem Sound.join (sound : object.Sound) (final : object.state.terminal = true) :
    object.join.1.Sound := by
  rcases object.join_spec with ⟨-, same⟩ | ⟨-, same⟩
  · rw [same]
    refine ⟨?_, sound.starting, sound.running, sound.stopping, sound.terminal, sound.waits,
      sound.context, sound.outcome⟩
    intro loaded
    change object.state = .loaded at loaded
    rw [loaded] at final
    cases final
  · rw [same]
    exact sound.release final

theorem released_release (final : object.state.terminal = true) : object.release.Released :=
  ⟨final, rfl, rfl, rfl, rfl, rfl⟩

/-- Where a stop may wait, or that it has returned. -/
def Halted : Object × Option StopPhase → Prop
  | (after, some phase) => after.Fits phase
  | (after, none) => after.Released

theorem halted_join (final : object.state.terminal = true) : Halted object.join := by
  rcases object.join_spec with ⟨-, same⟩ | ⟨-, same⟩
  · rw [same]
    exact final
  · rw [same]
    exact released_release final

/-- The ways in which a stop goes on from each state. -/
theorem stop_spec (object : Object) :
    (object.state = .loaded ∧ object.stop = { object with state := .stopped }.join) ∨
      ((object.state = .starting ∨ object.state = .running ∨ object.state = .stopping) ∧
        object.stop = ({ object with state := .stopping, cancel := true },
          some (.parked false))) ∨
      (object.state.terminal = true ∧ object.stop = object.join) := by
  unfold stop
  cases state : object.state with
  | loaded => exact Or.inl ⟨rfl, rfl⟩
  | starting => exact Or.inr (Or.inl ⟨Or.inl rfl, rfl⟩)
  | running => exact Or.inr (Or.inl ⟨Or.inr (Or.inl rfl), rfl⟩)
  | stopping => exact Or.inr (Or.inl ⟨Or.inr (Or.inr rfl), rfl⟩)
  | stopped | exited | failed => exact Or.inr (Or.inr ⟨rfl, rfl⟩)

theorem halted_stop (object : Object) : Halted object.stop := by
  rcases object.stop_spec with ⟨-, same⟩ | ⟨-, same⟩ | ⟨final, same⟩
  · rw [same]
    exact halted_join rfl
  · rw [same]
    exact rfl
  · rw [same]
    exact halted_join final

/-- A state is not both. -/
theorem not_terminal_of_stopping (stopping : object.state = .stopping) :
    ¬ object.state.terminal = true := by
  rw [stopping]
  exact Bool.false_ne_true

/-- A later poll of a stop finds the object as it is, or takes its handle, or
releases it. -/
theorem pollStop_spec {phase : StopPhase} (fits : object.Fits phase) :
    ((object.pollStop phase).1 = object ∧ Halted (object.pollStop phase)) ∨
      object.state.terminal = true ∧
        (object.pollStop phase = object.join ∨ object.pollStop phase = (object.release, none)) := by
  cases phase with
  | parked woken =>
    cases woken with
    | false => exact Or.inl ⟨rfl, fits⟩
    | true =>
      have same : object.pollStop (.parked true) = object.join :=
        if_neg fun stopping => not_terminal_of_stopping stopping fits
      exact Or.inr ⟨fits, Or.inl same⟩
  | joining =>
    unfold pollStop
    split
    · contradiction
    · contradiction
    · split
      · exact Or.inr ⟨fits, Or.inr rfl⟩
      · exact Or.inr ⟨fits, Or.inr rfl⟩
      · exact Or.inl ⟨rfl, fits⟩

theorem halted_pollStop {phase : StopPhase} (fits : object.Fits phase) :
    Halted (object.pollStop phase) := by
  rcases pollStop_spec fits with ⟨-, halted⟩ | ⟨final, same | same⟩
  · exact halted
  · rw [same]
    exact halted_join final
  · rw [same]
    exact released_release final

variable {serial : Nat} {events : List Runtime.Event}

/-- A tended object keeps its identity. -/
theorem Tended.same (tended : Tended serial object events after) :
    after.id = object.id ∧ after.capabilities = object.capabilities := by
  have joined : ∀ object : Object,
      object.join.1.id = object.id ∧ object.join.1.capabilities = object.capabilities := by
    intro object
    rcases object.join_spec with ⟨-, same⟩ | ⟨-, same⟩ <;>
      · rw [same]
        exact ⟨rfl, rfl⟩
  cases tended with
  | start | cancel | begin => exact ⟨rfl, rfl⟩
  | stop =>
    rcases object.stop_spec with ⟨-, same⟩ | ⟨-, same⟩ | ⟨-, same⟩
    · rw [same]
      exact joined _
    · rw [same]
      exact ⟨rfl, rfl⟩
    · rw [same]
      exact joined _
  | pollStop fits =>
    rcases pollStop_spec fits with ⟨same, -⟩ | ⟨-, same | same⟩
    · rw [same]
      exact ⟨rfl, rfl⟩
    · rw [same]
      exact joined _
    · rw [same]
      exact ⟨rfl, rfl⟩
  | deliver event =>
    unfold Object.deliver
    split <;> exact ⟨rfl, rfl⟩

/-- An object that has not ended has no outcome. -/
theorem Sound.unsettled (sound : object.Sound) (open_ : object.state.terminal = false) :
    object.outcome.isSome = false := by
  by_contra settled
  rcases sound.outcome.mp ((Bool.not_eq_false _).mp settled) with state | state <;>
    · rw [state] at open_
      cases open_

private theorem Sound.stop (sound : object.Sound) : object.stop.1.Sound := by
  rcases object.stop_spec with ⟨loaded, same⟩ | ⟨state, same⟩ | ⟨final, same⟩
  · obtain ⟨idle, -, handle⟩ := sound.loaded loaded
    have joined : ({ object with state := .stopped } : Object).join =
        (({ object with state := .stopped } : Object).release, none) := by
      simp [Object.join, handle]
    rw [same, joined]
    have unsettled := sound.unsettled (by rw [loaded]; rfl)
    exact
      { loaded := by simp [Object.release]
        starting := by simp [Object.release]
        running := by simp [Object.release]
        stopping := by simp [Object.release]
        terminal := fun _ => ⟨Or.inl idle, rfl⟩
        waits := sound.waits
        context := sound.context
        outcome := by simp [Object.release, unsettled] }
  · rw [same]
    have unsettled : object.outcome.isSome = false := by
      rcases state with state | state | state <;>
        exact sound.unsettled (by rw [state]; rfl)
    have task : object.task = .spawned ∨ object.Active := by
      rcases state with state | state | state
      · exact Or.inl (sound.starting state)
      · exact Or.inr (sound.running state)
      · exact (sound.stopping state).2
    exact
      { loaded := by simp
        starting := by simp
        running := by simp
        stopping := fun _ => ⟨rfl, task⟩
        terminal := by simp [State.terminal]
        waits := sound.waits
        context := sound.context
        outcome := by simp [unsettled] }
  · rw [same]
    exact sound.join final

/-- Whatever is done to an object, its cells keep fitting together. -/
theorem Tended.sound (tended : Tended serial object events after) (sound : object.Sound) :
    after.Sound := by
  cases tended with
  | start loaded =>
    obtain ⟨idle, -, -⟩ := sound.loaded loaded
    have waits : object.wait = .none := by
      by_contra waiting
      obtain ⟨context, posted, active⟩ := sound.waits waiting
      rw [idle] at active
      cases active
    exact
      { loaded := by simp
        starting := fun _ => rfl
        running := by simp
        stopping := by simp
        terminal := by simp [State.terminal]
        waits := fun waiting => absurd waits waiting
        context := by simp
        outcome := by simp [sound.unsettled (by rw [loaded]; rfl)] }
  | stop => exact sound.stop
  | pollStop fits =>
    rcases pollStop_spec fits with ⟨same, -⟩ | ⟨final, same | same⟩
    · rwa [same]
    · rw [same]
      exact sound.join final
    · rw [same]
      exact sound.release final
  | cancel =>
    exact ⟨sound.loaded, sound.starting, sound.running,
      fun stopping => ⟨rfl, (sound.stopping stopping).2⟩, sound.terminal, sound.waits,
      sound.context, sound.outcome⟩
  | deliver event =>
    have accepts : ∀ mailbox, object.state.terminal = false →
        ({ object with mailbox } : Object).Sound := by
      intro mailbox isOpen
      refine ⟨sound.loaded, sound.starting, sound.running, sound.stopping, ?_, sound.waits,
        sound.context, sound.outcome⟩
      intro final
      exact absurd (isOpen.symm.trans final) Bool.false_ne_true
    unfold Object.deliver
    split
    · exact accepts _ (by simp [*, State.terminal])
    · exact accepts _ (by simp [*, State.terminal])
    · exact accepts _ (by simp [*, State.terminal])
    · exact sound
  | begin clock spawned live =>
    have unsettled : object.outcome.isSome = false := by
      rcases sound.state_of_spawned spawned with state | state <;>
        exact sound.unsettled (by rw [state]; rfl)
    have active : (object.begin clock).Active := ⟨_, _, rfl⟩
    exact
      { loaded := by simp [Object.begin]
        starting := by simp [Object.begin]
        running := fun _ => active
        stopping := by simp [Object.begin]
        terminal := by simp [Object.begin, State.terminal]
        waits := fun _ => active
        context := by
          intro context posted task
          cases task
          exact ⟨rfl, rfl⟩
        outcome := by simp [Object.begin, unsettled] }

/-- Nobody who waits for an object to stop loses sight of it. -/
theorem Tended.fits (tended : Tended serial object events after) (sound : object.Sound)
    {phase : StopPhase} (fits : object.Fits phase) : after.Fits phase := by
  have final_of : ∀ {phase : StopPhase}, object.Fits phase →
      object.state = .stopping ∨ object.state.terminal = true := by
    intro phase fits
    cases phase with
    | parked woken =>
      cases woken with
      | false => exact Or.inl fits
      | true => exact Or.inr fits
    | joining => exact Or.inr fits
  have joined : ∀ object : Object, object.join.1.state = object.state := by
    intro object
    rcases object.join_spec with ⟨-, same⟩ | ⟨-, same⟩
    · rw [same]
    · rw [same, release]
  have still : ∀ {after : Object}, after.state = object.state → after.Fits phase := by
    intro after same
    cases phase with
    | parked woken => cases woken <;> simpa [Fits, same] using fits
    | joining => simpa [Fits, same] using fits
  cases tended with
  | start loaded =>
    rcases final_of fits with state | state <;>
      · rw [loaded] at state
        cases state
  | stop =>
    rcases object.stop_spec with ⟨loaded, same⟩ | ⟨state, same⟩ | ⟨final, same⟩
    · rcases final_of fits with state | state <;>
        · rw [loaded] at state
          cases state
    · rw [same]
      have isOpen : ¬ object.state.terminal = true := by
        rcases state with state | state | state <;>
          · rw [state]
            exact Bool.false_ne_true
      cases phase with
      | parked woken =>
        cases woken with
        | false => exact rfl
        | true => exact absurd fits isOpen
      | joining => exact absurd fits isOpen
    · rw [same]
      exact still (joined object)
  | pollStop now =>
    rcases pollStop_spec now with ⟨same, -⟩ | ⟨-, same | same⟩
    · rwa [same]
    · rw [same]
      exact still (joined object)
    · rw [same]
      exact still rfl
  | cancel => exact still rfl
  | deliver event =>
    refine still ?_
    unfold Object.deliver
    split <;> rfl
  | begin clock spawned live =>
    rcases sound.state_of_spawned spawned with state | state
    · rcases final_of fits with other | other <;>
        · rw [state] at other
          cases other
    · rw [(sound.stopping state).1] at live
      cases live

/-- An object whose task is done has ended, and is sound. -/
theorem Sound.settle (object : Object) (unsettled : object.outcome.isSome = false)
    (result : Option (Except String Int)) (mailbox : Mailbox) :
    (object.settle result mailbox).Sound := by
  rcases result with _ | error | code
  all_goals
    constructor
    case terminal => exact fun _ => ⟨Or.inr rfl, rfl⟩
    case outcome => simp [Object.settle, conclude, unsettled]
    all_goals simp [Object.settle, conclude]

@[simp] theorem settle_id (object : Object) (result : Option (Except String Int))
    (mailbox : Mailbox) : (object.settle result mailbox).id = object.id := by
  rcases result with _ | error | code <;> rfl

@[simp] theorem settle_capabilities (object : Object) (result : Option (Except String Int))
    (mailbox : Mailbox) : (object.settle result mailbox).capabilities = object.capabilities := by
  rcases result with _ | error | code <;> rfl

@[simp] theorem settle_terminal (object : Object) (result : Option (Except String Int))
    (mailbox : Mailbox) : (object.settle result mailbox).state.terminal = true := by
  rcases result with _ | error | code <;> rfl

/-- A guest that goes on keeps its object active. -/
theorem Sound.resumed (sound : object.Sound) (active : object.Active) {context : GuestContext}
    (id : context.id = object.id) (capabilities : context.capabilities = object.capabilities)
    (mailbox : Mailbox) (wait : Wait) (posted : Option Posted) :
    ({ object with mailbox, wait, task := .running context posted } : Object).Sound where
  loaded := by
    intro loaded
    rcases sound.state_of_active active with state | state <;> simp [state] at loaded
  starting := by
    intro starting
    rcases sound.state_of_active active with state | state <;> simp [state] at starting
  running := fun _ => ⟨context, posted, rfl⟩
  stopping := fun stopping => ⟨(sound.stopping stopping).1, Or.inr ⟨context, posted, rfl⟩⟩
  terminal := fun final => absurd active (sound.not_active final)
  waits := fun _ => ⟨context, posted, rfl⟩
  context := by
    intro other future task
    cases task
    exact ⟨id, capabilities⟩
  outcome := sound.outcome

end Laws

end Object

end Spinfoam
