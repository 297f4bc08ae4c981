import Spinfoam.Outbox.Conservation

/-!
# How long a frame waits

`next` serves control frames in bursts of eight while data is ready, and the
objects with data in rotation. Whatever is queued or withdrawn in between, these
rules bound the number of calls a frame has to wait for.
-/

namespace Spinfoam.Outbox

open Spinfoam.Json Spinfoam.Std Spinfoam.Semantics

/-- A call of `next` begins with this step. -/
def begins (transition : Transition State Action Event) : Bool :=
  match transition.action, transition.before.writer with
  | .next _, .idle => true
  | _, _ => false

/-- The calls of `next` made in a run. -/
def calls (later : List (Transition State Action Event)) : Nat := later.countP begins

/-- The calls an object may wait for behind others in the rotation. -/
def objectWait (front : List String) (burst : Nat) : Nat := 9 * front.length + (9 - min burst 8)

/-- The calls a control frame may wait for at an index of its queue. -/
def controlWait (index burst : Nat) : Nat := index + 1 + (index + 1 - (8 - min burst 8) + 7) / 8

/-- The object waits behind others, with this entry at the head of its queue. -/
structure Waits (queues : Queues) (name : String) (front : List String) (entry : DataFrame) :
    Prop where
  rotation : ∃ back, queues.ready = front ++ name :: back
  head : ∃ rest, queues.data.queue name = entry :: rest

section Steps

variable {state : State} {action : Action} {result : State × List Event}

theorem begins_of_sends (sends : action.sends = true) (before after : State)
    (events : List Event) : begins ⟨before, action, events, after⟩ = false := by
  cases action <;> first | rfl | cases sends

theorem begins_of_parked {woken : Bool} (writer : state.writer = .parked woken)
    (action : Action) (events : List Event) (after : State) :
    begins ⟨state, action, events, after⟩ = false := by
  simp only [begins, writer]

/-- Only a call that finds a frame goes on from queues that are not drained. -/
theorem Effect.not_begins (effect : Effect state action result)
    (undrained : ¬ state.queues.Drained)
    (unserved : ∀ lane frame, result.2 ≠ [.returned lane frame]) :
    begins ⟨state, action, result.2, result.1⟩ = false := by
  cases effect with
  | refused sends | tooLarge sends | senderClosed sends | senderParked sends | accepted sends =>
    exact begins_of_sends sends _ _ _
  | senderAsleep | senderDropped | closed | unknownRequest | removedRequest | removedObject => rfl
  | returned => exact absurd rfl (unserved _ _)
  | ended closedFirst permit closed cause =>
    rcases cause with drained | ⟨woken, parked⟩
    · exact absurd drained undrained
    · exact begins_of_parked parked _ _ _
  | parked closedFirst isOpen drained => exact absurd drained undrained
  | asleep closedFirst isOpen writer => exact begins_of_parked writer _ _ _

variable {name : String} {front : List String} {entry : DataFrame}

theorem Waits.undrained {queues : Queues} (waits : Waits queues name front entry) :
    ¬ queues.Drained := by
  obtain ⟨rest, queued⟩ := waits.head
  intro drained
  rw [drained.2 name] at queued
  cases queued

/-- Queueing a frame pushes nobody back. -/
theorem Waits.offer {queues next : Queues} {closed : Bool} {lane : Lane} {other : DataFrame}
    (waits : Waits queues name front entry)
    (offered : queues.offer closed lane other = some next) :
    Waits next name front entry ∧ next.controlBurst = queues.controlBurst := by
  obtain ⟨⟨back, rotation⟩, ⟨rest, queued⟩⟩ := waits
  cases lane with
  | control =>
    simp only [Queues.offer, Option.ite_none_left_eq_some] at offered
    obtain ⟨-, rfl⟩ := Queues.pushControl_eq_some.mp offered.2
    exact ⟨⟨⟨back, rotation⟩, ⟨rest, queued⟩⟩, rfl⟩
  | object place =>
    obtain ⟨-, -, -, rfl⟩ := Queues.pushData_eq_some.mp offered
    refine ⟨⟨?_, ?_⟩, rfl⟩
    · simp only
      split_ifs
      · exact ⟨back, rotation⟩
      · exact ⟨back ++ [place], by simp [rotation]⟩
    · by_cases same : name = place
      · subst same
        exact ⟨rest ++ [other], by simp [queued]⟩
      · exact ⟨rest, by simp [MultiQueue.queue_put_ne _ _ same, queued]⟩

/-- Taking another object out of the rotation pushes nobody back. -/
theorem Waits.filter {queues next : Queues} {object : String}
    (waits : Waits queues name front entry) (other : name ≠ object)
    (rotation : next.ready = queues.ready.filter (· ≠ object))
    (queue : next.data.queue name = queues.data.queue name) :
    ∃ shorter : List String, shorter.length ≤ front.length ∧ Waits next name shorter entry := by
  obtain ⟨⟨back, before⟩, ⟨rest, queued⟩⟩ := waits
  refine ⟨front.filter (· ≠ object), List.length_filter_le .., ?_, ?_⟩
  · exact ⟨back.filter (· ≠ object), by rw [rotation, before]; simp [other]⟩
  · exact ⟨rest, queue.trans queued⟩

/-- Each call brings a waiting object nearer to its turn. -/
theorem Waits.served {queues next : Queues} {frame : Frame}
    (wellFormed : queues.WellFormed) (waits : Waits queues name front entry)
    (served : queues.Served (some (frame, next))) :
    (queues.serving = .object name ∧ frame = entry.frame) ∨
      queues.serving ≠ .object name ∧ ∃ shorter, Waits next name shorter entry ∧
        objectWait shorter next.controlBurst + 1 ≤ objectWait front queues.controlBurst := by
  obtain ⟨⟨back, rotation⟩, ⟨rest, queued⟩⟩ := waits
  cases served with
  | @control _ others waiting turn =>
    have serving : queues.serving = .control := by simp [Queues.serving, waiting, turn]
    have early : queues.controlBurst < 8 := by
      rcases turn with early | empty
      · exact early
      · rw [rotation] at empty
        simp at empty
    refine Or.inr ⟨by simp [serving], front, ⟨⟨back, rotation⟩, ⟨rest, queued⟩⟩, ?_⟩
    simp only [objectWait]
    omega
  | @data object ready first others turn standing taken =>
    rw [Queues.serving_data turn standing]
    cases front with
    | nil =>
      obtain ⟨rfl, rfl⟩ := List.cons.inj (rotation.symm.trans standing)
      rw [queued] at taken
      obtain ⟨rfl, rfl⟩ := List.cons.inj taken
      exact Or.inl ⟨rfl, rfl⟩
    | cons head tail =>
      obtain ⟨rfl, rfl⟩ := List.cons.inj (standing.symm.trans rotation)
      have different : name ≠ object := by
        rintro rfl
        have distinct := wellFormed.readyNodup
        rw [rotation] at distinct
        simp at distinct
      refine Or.inr ⟨by simpa using Ne.symm different, tail, ⟨?_, ?_⟩, ?_⟩
      · simp only
        split_ifs
        · exact ⟨back, rfl⟩
        · exact ⟨back ++ [object], by simp⟩
      · exact ⟨rest, by simp [MultiQueue.queue_put_ne _ _ different, queued]⟩
      · simp only [objectWait, List.length_cons]
        omega

/-- What a step does for a waiting object: its head entry is returned, or entries of
it are withdrawn, or it waits on, and after a call for less. -/
theorem Effect.object_progress (effect : Effect state action result)
    (wellFormed : state.queues.WellFormed) (waits : Waits state.queues name front entry) :
    (returnedOn (.object name) result.2).head? = some entry.frame ∨
      removedEntries (.object name) result.2 ≠ [] ∨
      returnedOn (.object name) result.2 = [] ∧
        ∃ shorter, Waits result.1.queues name shorter entry ∧
          objectWait shorter result.1.queues.controlBurst +
              (begins ⟨state, action, result.2, result.1⟩).toNat ≤
            objectWait front state.queues.controlBurst := by
  have quiet : (∀ lane frame, result.2 ≠ [.returned lane frame]) →
      returnedOn (.object name) result.2 = [] → (∃ shorter : List String,
        shorter.length ≤ front.length ∧ Waits result.1.queues name shorter entry) →
      result.1.queues.controlBurst = state.queues.controlBurst →
      returnedOn (.object name) result.2 = [] ∧
        ∃ shorter, Waits result.1.queues name shorter entry ∧
          objectWait shorter result.1.queues.controlBurst +
              (begins ⟨state, action, result.2, result.1⟩).toNat ≤
            objectWait front state.queues.controlBurst := by
    rintro unserved silent ⟨shorter, fewer, still⟩ burst
    refine ⟨silent, shorter, still, ?_⟩
    rw [effect.not_begins waits.undrained unserved, burst]
    simp only [objectWait, Bool.toNat_false]
    omega
  cases effect with
  | refused | tooLarge | senderClosed | senderParked | senderAsleep | senderDropped | closed
  | ended | parked | asleep | unknownRequest =>
    exact Or.inr (Or.inr (quiet (by simp) rfl ⟨front, le_refl _, waits⟩ rfl))
  | accepted sends offered =>
    obtain ⟨still, burst⟩ := waits.offer offered
    refine Or.inr (Or.inr (quiet (by simp) rfl ⟨front, le_refl _, ?_⟩ ?_))
    · simpa using still
    · simpa using burst
  | returned closedFirst served =>
    rcases waits.served wellFormed served with ⟨own, rfl⟩ | ⟨other, shorter, still, less⟩
    · exact Or.inl (by simp [returnedOn, own])
    · refine Or.inr (Or.inr ⟨by simp [returnedOn, other], shorter, by simpa using still, ?_⟩)
      refine le_trans (Nat.add_le_add_left ?_ _) less
      exact Bool.toNat_le _
  | removedRequest object id removed =>
    obtain ⟨next, same, -, -, own, others⟩ := Queues.removeRequest_spec wellFormed object id
    obtain rfl := Except.ok.inj (same.symm.trans removed)
    obtain ⟨burst, rotation⟩ := Queues.removeRequest_rotation wellFormed removed
    by_cases mine : name = object
    · subst mine
      by_cases none : (state.queues.data.queue name).filter (·.requestId == some id) = []
      · have kept : (state.queues.data.queue name).filter
            (fun entry => !(entry.requestId == some id)) = state.queues.data.queue name := by
          rw [List.filter_eq_self]
          intro entry member
          simpa using List.filter_eq_nil_iff.mp none entry member
        rw [kept] at own rotation
        obtain ⟨rest, queued⟩ := waits.head
        have ready : next.ready = state.queues.ready := by
          rcases rotation with ⟨ready, -⟩ | ⟨-, empty⟩
          · exact ready
          · rw [queued] at empty
            cases empty
        refine Or.inr (Or.inr (quiet (by simp) rfl ⟨front, le_refl _, ?_⟩ burst))
        exact ⟨by simpa [ready] using waits.rotation, ⟨rest, own.trans queued⟩⟩
      · exact Or.inr (Or.inl (by simpa [removedEntries] using none))
    · refine Or.inr (Or.inr (quiet (by simp) rfl ?_ burst))
      rcases rotation with ⟨ready, -⟩ | ⟨ready, -⟩
      · obtain ⟨rest, queued⟩ := waits.head
        exact ⟨front, le_refl _, by simpa [ready] using waits.rotation,
          ⟨rest, (others name mine).trans queued⟩⟩
      · exact waits.filter mine ready (others name mine)
  | removedObject object removed =>
    obtain ⟨next, same, -, -, own, others⟩ := Queues.removeObject_spec wellFormed object
    obtain rfl := Except.ok.inj (same.symm.trans removed)
    obtain ⟨burst, rotation⟩ := Queues.removeObject_rotation wellFormed removed
    by_cases mine : name = object
    · subst mine
      obtain ⟨rest, queued⟩ := waits.head
      exact Or.inr (Or.inl (by simp [removedEntries, queued]))
    · exact Or.inr (Or.inr (quiet (by simp) rfl (waits.filter mine rotation (others name mine))
        burst))

/-- Each call brings a waiting control frame nearer to its turn. -/
theorem control_served {queues next : Queues} {frame target : Frame} {index : Nat}
    (waiting : queues.control[index]? = some target)
    (served : queues.Served (some (frame, next))) :
    (queues.serving = .control ∧ (index = 0 ∧ frame = target ∨
        ∃ before, index = before + 1 ∧ next.control[before]? = some target ∧
          controlWait before next.controlBurst + 1 ≤ controlWait index queues.controlBurst)) ∨
      queues.serving ≠ .control ∧ next.control[index]? = some target ∧
        controlWait index next.controlBurst + 1 ≤ controlWait index queues.controlBurst := by
  cases served with
  | @control _ rest queued turn =>
    have serving : queues.serving = .control := by simp [Queues.serving, queued, turn]
    refine Or.inl ⟨serving, ?_⟩
    rw [queued] at waiting
    cases index with
    | zero => exact Or.inl ⟨rfl, by simpa using waiting⟩
    | succ before =>
      refine Or.inr ⟨before, rfl, by simpa using waiting, ?_⟩
      simp only [controlWait]
      omega
  | @data object ready first rest turn rotation queued =>
    refine Or.inr ⟨by simp [Queues.serving_data turn rotation], waiting, ?_⟩
    have late : 8 ≤ queues.controlBurst := by
      rcases turn with empty | late
      · rw [empty] at waiting
        simp at waiting
      · exact late
    simp only [controlWait]
    omega

/-- What a step does for a waiting control frame. -/
theorem Effect.control_progress (effect : Effect state action result)
    (wellFormed : state.queues.WellFormed) {index : Nat} {target : Frame}
    (waiting : state.queues.control[index]? = some target) :
    (index = 0 ∧ returnedOn .control result.2 = [target]) ∨
      (∃ before frame, index = before + 1 ∧ returnedOn .control result.2 = [frame] ∧
        result.1.queues.control[before]? = some target ∧
        controlWait before result.1.queues.controlBurst + 1 ≤
          controlWait index state.queues.controlBurst) ∨
      returnedOn .control result.2 = [] ∧ result.1.queues.control[index]? = some target ∧
        controlWait index result.1.queues.controlBurst +
            (begins ⟨state, action, result.2, result.1⟩).toNat ≤
          controlWait index state.queues.controlBurst := by
  have undrained : ¬ state.queues.Drained := by
    intro drained
    rw [drained.1] at waiting
    simp at waiting
  have quiet : (∀ lane frame, result.2 ≠ [.returned lane frame]) →
      result.1.queues.controlBurst = state.queues.controlBurst →
      controlWait index result.1.queues.controlBurst +
          (begins ⟨state, action, result.2, result.1⟩).toNat ≤
        controlWait index state.queues.controlBurst := by
    intro unserved burst
    rw [effect.not_begins undrained unserved, burst]
    exact le_refl _
  cases effect with
  | refused | tooLarge | senderClosed | senderParked | senderAsleep | senderDropped | closed
  | ended | parked | asleep | unknownRequest =>
    exact Or.inr (Or.inr ⟨rfl, waiting, quiet (by simp) rfl⟩)
  | @accepted _ _ lane entry queues senders offered =>
    have grown : ∃ more, queues.control = state.queues.control ++ more ∧
        queues.controlBurst = state.queues.controlBurst := by
      cases lane with
      | control =>
        simp only [Queues.offer, Option.ite_none_left_eq_some] at offered
        obtain ⟨-, rfl⟩ := Queues.pushControl_eq_some.mp offered.2
        exact ⟨_, rfl, rfl⟩
      | object place =>
        obtain ⟨-, -, -, rfl⟩ := Queues.pushData_eq_some.mp offered
        exact ⟨[], by simp, rfl⟩
    obtain ⟨more, control, burst⟩ := grown
    refine Or.inr (Or.inr ⟨rfl, ?_, quiet (by simp) (by simpa using burst)⟩)
    have inside := (List.getElem?_eq_some_iff.mp waiting).1
    rw [State.notifyChanged_queues, control, List.getElem?_append_left inside]
    exact waiting
  | @returned closedFirst frame queues served =>
    rcases control_served waiting served with
      ⟨own, ⟨rfl, rfl⟩ | ⟨before, rfl, still, less⟩⟩ | ⟨other, still, less⟩
    · exact Or.inl ⟨rfl, by simp [returnedOn, own]⟩
    · exact Or.inr (Or.inl ⟨before, frame, rfl, by simp [returnedOn, own], still, less⟩)
    · refine Or.inr (Or.inr ⟨by simp [returnedOn, other], still, ?_⟩)
      exact le_trans (Nat.add_le_add_left (Bool.toNat_le _) _) less
  | removedRequest object id removed =>
    obtain ⟨next, same, -, control, -⟩ := Queues.removeRequest_spec wellFormed object id
    obtain rfl := Except.ok.inj (same.symm.trans removed)
    refine Or.inr (Or.inr ⟨rfl, ?_, quiet (by simp)
      (Queues.removeRequest_rotation wellFormed removed).1⟩)
    simpa [control] using waiting
  | removedObject object removed =>
    obtain ⟨next, same, -, control, -⟩ := Queues.removeObject_spec wellFormed object
    obtain rfl := Except.ok.inj (same.symm.trans removed)
    refine Or.inr (Or.inr ⟨rfl, ?_, quiet (by simp)
      (Queues.removeObject_rotation wellFormed removed).1⟩)
    simpa [control] using waiting

/-- Between two frames that are returned the count of control frames stands still. -/
theorem Effect.controlBurst (effect : Effect state action result)
    (wellFormed : state.queues.WellFormed)
    (unserved : ∀ lane frame, .returned lane frame ∉ result.2) :
    result.1.queues.controlBurst = state.queues.controlBurst := by
  cases effect with
  | refused | tooLarge | senderClosed | senderParked | senderAsleep | senderDropped | closed
  | ended | parked | asleep | unknownRequest => rfl
  | @accepted _ _ lane entry queues senders offered =>
    rw [State.notifyChanged_queues]
    cases lane with
    | control =>
      simp only [Queues.offer, Option.ite_none_left_eq_some] at offered
      obtain ⟨-, rfl⟩ := Queues.pushControl_eq_some.mp offered.2
      rfl
    | object place =>
      obtain ⟨-, -, -, rfl⟩ := Queues.pushData_eq_some.mp offered
      rfl
  | returned => exact absurd (List.mem_singleton_self _) (unserved _ _)
  | removedRequest object id removed => exact (Queues.removeRequest_rotation wellFormed removed).1
  | removedObject object removed => exact (Queues.removeObject_rotation wellFormed removed).1

/-- A data frame starts the count of control frames anew, and with control frames
waiting none is returned before the count is full. -/
theorem Effect.data_returned (effect : Effect state action result) {object : String}
    {frame : Frame} (returned : .returned (.object object) frame ∈ result.2) :
    result.1.queues.controlBurst = 0 ∧
      (state.queues.control = [] ∨ 8 ≤ state.queues.controlBurst) := by
  cases effect with
  | returned closedFirst served =>
    have lane : state.queues.serving = .object object := by simpa using (by simpa using returned :
      Lane.object object = state.queues.serving ∧ _).1.symm
    cases served with
    | control waiting turn => simp [Queues.serving, waiting, turn] at lane
    | data turn => exact ⟨rfl, turn⟩
  | _ => simp at returned

end Steps

section Runs

variable {history later : List (Transition State Action Event)} {state final : State}

theorem calls_cons (transition : Transition State Action Event) :
    calls (transition :: later) = (begins transition).toNat + calls later := by
  rw [calls, List.countP_cons, calls]
  cases begins transition <;> simp [Nat.add_comm]

/-- An object that waits is served, unless frames of it are withdrawn. -/
theorem object_served (execution : machine.Execution history state)
    (steps : machine.Steps state later final) {name : String} {front : List String}
    {entry : DataFrame} (waits : Waits state.queues name front entry)
    (enough : objectWait front state.queues.controlBurst ≤ calls later) :
    (returnedOn (.object name) (trace later)).head? = some entry.frame ∨
      removedEntries (.object name) (trace later) ≠ [] := by
  induction steps generalizing history front with
  | refl =>
    simp only [objectWait, calls, List.countP_nil] at enough
    omega
  | @step state action next events later final taken rest ih =>
    obtain ⟨wellFormed, effect⟩ := effect_of_step execution taken
    rw [trace_cons, returnedOn_append, removedEntries_append]
    rcases effect.object_progress wellFormed waits with
      served | removed | ⟨silent, shorter, still, less⟩
    · exact Or.inl (by simp [List.head?_append, served])
    · exact Or.inr (by simp [removed])
    · rw [calls_cons] at enough
      rcases ih (execution.step taken) still (by simp only at less; omega) with served | removed
      · exact Or.inl (by simpa [silent] using served)
      · exact Or.inr (by simp [removed])

/-- A control frame is served in its turn. -/
theorem control_frame_served (execution : machine.Execution history state)
    (steps : machine.Steps state later final) {index : Nat} {target : Frame}
    (waiting : state.queues.control[index]? = some target)
    (enough : controlWait index state.queues.controlBurst ≤ calls later) :
    (returnedOn .control (trace later))[index]? = some target := by
  induction steps generalizing history index with
  | refl =>
    simp only [controlWait, calls, List.countP_nil] at enough
    omega
  | @step state action next events later final taken rest ih =>
    obtain ⟨wellFormed, effect⟩ := effect_of_step execution taken
    rw [trace_cons, returnedOn_append]
    rw [calls_cons] at enough
    have one := Bool.toNat_le (begins ⟨state, action, events, next⟩)
    rcases effect.control_progress wellFormed waiting with
      ⟨rfl, served⟩ | ⟨before, frame, rfl, served, still, less⟩ | ⟨silent, still, less⟩
    · simp only at served
      simp [served]
    · simp only at served still less
      have later := ih (execution.step taken) still (by omega)
      simpa [served] using later
    · simp only at silent still less
      have later := ih (execution.step taken) still (by omega)
      simpa [silent] using later

/-- Nothing but a returned frame moves the count of control frames. -/
theorem controlBurst_of_steps (execution : machine.Execution history state)
    (steps : machine.Steps state later final)
    (unserved : ∀ transition ∈ later, ∀ lane frame, .returned lane frame ∉ transition.events) :
    final.queues.controlBurst = state.queues.controlBurst := by
  induction steps generalizing history with
  | refl => rfl
  | @step state action next events later final taken rest ih =>
    obtain ⟨wellFormed, effect⟩ := effect_of_step execution taken
    have first := effect.controlBurst wellFormed
      fun lane frame => unserved _ List.mem_cons_self lane frame
    have more := ih (execution.step taken)
      fun transition member => unserved transition (List.mem_cons_of_mem _ member)
    exact more.trans first

/-- No two data frames are returned in a row while a control frame waits. -/
theorem control_empty_between_data (execution : machine.Execution history state)
    (steps : machine.Steps state later final)
    {before middle rest : List (Transition State Action Event)}
    {first second : Transition State Action Event}
    (split : later = before ++ first :: (middle ++ second :: rest)) {object other : String}
    {frame next : Frame} (returned : .returned (.object object) frame ∈ first.events)
    (between : ∀ transition ∈ middle, ∀ lane frame, .returned lane frame ∉ transition.events)
    (again : .returned (.object other) next ∈ second.events) :
    second.before.queues.control = [] := by
  subst split
  obtain ⟨start, front, onward⟩ := steps.split
  cases onward with
  | step taken onward =>
    have reached := execution.continue front
    have zero := ((effect_of_step reached taken).2.data_returned returned).1
    obtain ⟨stop, inner, onward⟩ := onward.split
    have burst := controlBurst_of_steps (reached.step taken) inner between
    cases onward with
    | step taken' _ =>
      have later := (reached.step taken).continue inner
      rcases ((effect_of_step later taken').2.data_returned again).2 with empty | full
      · exact empty
      · simp only at zero burst
        omega

/-- The service bounds of `next`, from any reachable state on and whatever is
queued or withdrawn meanwhile. -/
theorem outbox_service_bounds (execution : machine.Execution history state)
    (steps : machine.Steps state later final) :
    (∀ name position entry, state.queues.ready[position]? = some name →
      (state.queues.data.queue name).head? = some entry →
      9 * (position + 1) ≤ calls later →
      (returnedOn (.object name) (trace later)).head? = some entry.frame ∨
        removedEntries (.object name) (trace later) ≠ []) ∧
    (∀ index frame, state.queues.control[index]? = some frame →
      index + index / 8 + 2 ≤ calls later →
      (returnedOn .control (trace later))[index]? = some frame) ∧
    ∀ before first middle second rest, later = before ++ first :: (middle ++ second :: rest) →
      (∃ object frame, .returned (.object object) frame ∈ first.events) →
      (∀ transition ∈ middle, ∀ lane frame, .returned lane frame ∉ transition.events) →
      (∃ object frame, .returned (.object object) frame ∈ second.events) →
      second.before.queues.control = [] := by
  refine ⟨?_, ?_, ?_⟩
  · intro name position entry standing head enough
    obtain ⟨inside, rfl⟩ := List.getElem?_eq_some_iff.mp standing
    have rotation : state.queues.ready = state.queues.ready.take position ++
        state.queues.ready[position] :: state.queues.ready.drop (position + 1) := by
      rw [List.getElem_cons_drop, List.take_append_drop]
    obtain ⟨rest, queued⟩ := List.head?_eq_some_iff.mp head
    refine object_served execution steps ⟨⟨_, rotation⟩, ⟨rest, queued⟩⟩ (le_trans ?_ enough)
    simp only [objectWait, List.length_take]
    omega
  · intro index frame waiting enough
    refine control_frame_served execution steps waiting (le_trans ?_ enough)
    simp only [controlWait]
    omega
  · rintro before first middle second rest split ⟨object, frame, returned⟩ between
      ⟨other, next, again⟩
    exact control_empty_between_data execution steps split returned between again

/-- A log line that nine control frames were queued ahead of. -/
theorem outbox_service_bounds_log :
    ∃ history state later final,
      machine.run {} (.tryData "o1" (.object []) :: List.replicate 9 (.tryControl shutdownReply)) =
        some (history, state) ∧
      machine.run state (List.replicate 9 (.next false)) = some (later, final) ∧
      (returnedOn (.object "o1") (trace later)).head? = some ⟨.object [], by decide⟩ := by
  obtain ⟨history, state, ran, later, final, went, standing, head, enough, kept⟩ :
      ∃ history state, machine.run {}
        (.tryData "o1" (.object []) :: List.replicate 9 (.tryControl shutdownReply)) =
          some (history, state) ∧
      ∃ later final, machine.run state (List.replicate 9 (.next false)) = some (later, final) ∧
        state.queues.ready[0]? = some "o1" ∧
        (state.queues.data.queue "o1").head? = some ⟨⟨.object [], by decide⟩, none⟩ ∧
        9 * (0 + 1) ≤ calls later ∧ removedEntries (.object "o1") (trace later) = [] :=
    ⟨_, _, rfl, _, _, rfl, by decide⟩
  refine ⟨history, state, later, final, ran, went, ?_⟩
  have bounds := outbox_service_bounds (Machine.execution_of_run rfl ran)
    (Machine.steps_of_run went)
  exact (bounds.1 "o1" 0 _ standing head enough).resolve_right (not_not.mpr kept)

end Runs

end Spinfoam.Outbox
