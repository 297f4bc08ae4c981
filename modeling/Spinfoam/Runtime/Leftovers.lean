import Spinfoam.Runtime.Confinement
import Spinfoam.Runtime.Inventory
import Spinfoam.Runtime.Lifecycle
import Spinfoam.Runtime.Stops

/-!
# What a terminal object leaves behind

Only an active object has anything in the outbox or a call pending at the host,
and when its task ends all of it goes at once. Nothing comes back: a terminal
object stays terminal, and the id of an unloaded object is not given out again.
-/

namespace Spinfoam

open Spinfoam.Json Spinfoam.Std Spinfoam.Outbox Spinfoam.Guest Spinfoam.Semantics

/-- The object in whose name a frame speaks. -/
def speaker (value : Value) : Option String :=
  ((value.get "params").bind fun params => params.get "object_id").bind Value.asStr

namespace Runtime

variable {runtime after : Runtime} {events more : List Event} {serial : Nat} {object : Object}

/-- Some active object has this id. -/
def Resident (runtime : Runtime) (name : String) : Prop :=
  ∃ serial object, runtime.heap.lookup serial = some object ∧ object.id = name ∧ object.Active

section Lanes

theorem tended_active {next : Object} (tended : Object.Tended serial object events next)
    (sound : object.Sound) (active : object.Active) : next.Active := by
  rcases tended_task tended with same | ⟨loaded, -⟩ | ⟨clock, fresh⟩
  · obtain ⟨context, posted, task⟩ := active
    exact ⟨context, posted, same.trans task⟩
  · rcases sound.state_of_active active with state | state <;>
      · rw [loaded] at state
        cases state
  · exact ⟨_, _, fresh⟩

/-- An active object stays so, or its lane is emptied. -/
theorem Move.vacates (move : Move runtime more after) (sound : Sound runtime) {name : String}
    (resident : runtime.Resident name) :
    after.Resident name ∨ after.host.out.lane (.object name) = [] := by
  obtain ⟨serial, object, found, rfl, active⟩ := resident
  have put : ∀ {number : Nat} {current next : Object} {host : Host} {nextHandle : Nat},
      runtime.heap.lookup number = some current → next.id = current.id →
      (current.Active → next.Active) → ({ runtime with
        heap := runtime.heap.insert number next
        host
        nextHandle } : Runtime).Resident object.id := by
    intro number current next host nextHandle stored id keeps
    by_cases same : serial = number
    · subst same
      obtain rfl := Option.some.inj (found.symm.trans stored)
      exact ⟨serial, next, AList.lookup_insert _, id, keeps active⟩
    · exact ⟨serial, object, (AList.lookup_insert_ne same).trans found, rfl, active⟩
  cases move with
  | respond | issue | forget | park | unpark | clear | settle | absent | host =>
    exact Or.inl ⟨serial, object, found, rfl, active⟩
  | @bind request load waiting =>
    have different : serial ≠ load.serial := by
      rintro rfl
      exact (sound.loading waiting).2 (Map.mem_of_lookup found)
    exact Or.inl ⟨serial, object, (AList.lookup_insert_ne different).trans found, rfl, active⟩
  | tend stored tended =>
    exact Or.inl (put stored tended.same.1 (tended_active tended (sound.object stored).1))
  | helper stored task => exact Or.inl (put stored rfl fun _ => ⟨_, _, rfl⟩)
  | stay stored task => exact Or.inl (put stored rfl fun _ => ⟨_, _, rfl⟩)
  | complete stored task => exact Or.inl (put stored rfl fun _ => ⟨_, _, rfl⟩)
  | @finish number current later context posted result stored ending order =>
    rw [finish_eq]
    by_cases same : serial = number
    · subst same
      obtain rfl := Option.some.inj (found.symm.trans stored)
      have id : later.id = object.id := by cases ending <;> rfl
      right
      rw [← id]
      exact (Outbox.tryControl_lane_object _ _ _).trans
        (@cleanHost_traffic nothing _ later.id order).2.2
    · left
      exact ⟨serial, object, (AList.lookup_insert_ne same).trans found, rfl, active⟩

/-- Only active objects have entries in the outbox, and what speaks there speaks for
the object of its lane. -/
structure Housed (runtime : Runtime) : Prop where
  resident : ∀ {name entry}, entry ∈ runtime.host.out.lane (.object name) → runtime.Resident name
  addressed : ∀ {lane entry}, entry ∈ runtime.host.out.lane lane → Speaks entry.frame.value →
    ∃ name, lane = .object name ∧ speaker entry.frame.value = some name

/-- What is shipped speaks for the object that ships it. -/
theorem Confined.speaker (confined : Confined events runtime) (sound : Sound runtime) {lane : Lane}
    {entry : DataFrame} (ships : runtime.Ships lane entry) :
    ∃ name, lane = .object name ∧ runtime.Resident name ∧
      Spinfoam.speaker entry.frame.value = some name := by
  obtain ⟨serial, object, found, active, rfl, message | sends⟩ := ships
  · obtain ⟨text, notice⟩ := message.notice
    refine ⟨object.id, rfl, ⟨serial, object, found, rfl, active⟩, ?_⟩
    rw [notice]
    rfl
  · obtain ⟨stored, asked, grants, value⟩ := confined.sends sound sends
    obtain rfl := Option.some.inj (found.symm.trans stored)
    refine ⟨object.id, rfl, ⟨serial, object, found, rfl, active⟩, ?_⟩
    rw [value]
    rfl

theorem Housed.move (housed : Housed runtime) (sound : Sound runtime)
    (consistent : Consistent events runtime) (confined : Confined events runtime)
    (move : Move runtime more after) : Housed after := by
  have carried := move.carries sound consistent
  constructor
  case resident =>
    intro name entry member
    have before : runtime.Resident name := by
      rcases carried _ entry member with old | ships | ⟨impossible, -⟩
      · exact housed.resident old
      · obtain ⟨other, same, resident, -⟩ := confined.speaker sound ships
        obtain rfl := Lane.object.inj same
        exact resident
      · cases impossible
    rcases move.vacates sound before with stays | empty
    · exact stays
    · rw [empty] at member
      cases member
  case addressed =>
    intro lane entry member speaks
    rcases carried _ entry member with old | ships | ⟨-, silent⟩
    · exact housed.addressed old speaks
    · obtain ⟨name, place, -, named⟩ := confined.speaker sound ships
      exact ⟨name, place, named⟩
    · exact absurd speaks silent

theorem housed_of_execution {history : List (Transition Runtime Action Event)}
    (execution : machine.Execution history runtime) : Housed runtime := by
  refine (invariant_of_moves (fun events runtime => Consistent events runtime ∧
    Confined events runtime ∧ Housed runtime) ?_ ?_ execution).2.2
  · intro session
    refine ⟨consistent_start session, confined_start session, ?_, ?_⟩
    · intro name entry member
      cases member
    · intro lane entry member
      cases lane <;> cases member
  · rintro events runtime more after sound ⟨consistent, confined, housed⟩ move
    exact ⟨consistent.move sound move, confined.move sound consistent move,
      housed.move sound consistent confined move⟩

end Lanes

section Terminal

/-- Nothing of the object is left. -/
structure Vacant (runtime : Runtime) (object : Object) : Prop where
  mailbox : object.mailbox.entries = []
  wait : object.wait = .none
  pending : ∀ id entry, runtime.host.pending.lookup id = some entry → entry.object ≠ object.id
  lane : runtime.host.out.lane (.object object.id) = []

/-- Who holds a guard is active. -/
theorem Consistent.resident (consistent : Consistent events runtime) {future : Nat}
    {guard : Host.CallGuard} (held : runtime.live future = some guard) :
    runtime.Resident guard.object := by
  obtain ⟨object, found, guarded⟩ := Option.bind_eq_some_iff.mp held
  unfold Object.guard at guarded
  split at guarded
  · rename_i context posted task
    obtain ⟨posted, rfl, own⟩ := Option.bind_eq_some_iff.mp guarded
    cases posted with
    | calling call =>
      obtain rfl := Option.some.inj own
      exact ⟨future, object, found, (consistent.sound found task).2.symm, ⟨_, _, task⟩⟩
    | _ => cases own
  · cases guarded

/-- No active object has the id of a terminal one. -/
theorem Sound.not_resident (sound : Sound runtime) (found : runtime.heap.lookup serial = some object)
    (final : object.state.terminal = true) : ¬ runtime.Resident object.id := by
  rintro ⟨other, current, stored, same, active⟩
  obtain rfl := sound.serial_eq found stored same.symm
  obtain rfl := Option.some.inj (found.symm.trans stored)
  exact (sound.object found).1.not_active final active

theorem vacant_of_terminal {history : List (Transition Runtime Action Event)}
    (execution : machine.Execution history runtime)
    (found : runtime.heap.lookup serial = some object) (final : object.state.terminal = true) :
    runtime.Vacant object := by
  have sound := sound_of_reachable execution
  have consistent := consistent_of_execution execution
  have good := (sound.object found).1
  have absent := sound.not_resident found final
  constructor
  case mailbox => exact (good.terminal final).2
  case wait =>
    by_contra waits
    exact good.not_active final (good.waits waits)
  case pending =>
    intro id entry waiting same
    obtain ⟨future, guard, held, -, own⟩ := consistent.accounted.ledger.pendingLive waiting
    have resident := consistent.resident held
    rw [own, same] at resident
    exact absent resident
  case lane =>
    apply List.eq_nil_iff_forall_not_mem.mpr
    intro entry member
    exact absent ((housed_of_execution execution).resident member)

/-- A terminal object keeps its state for ever. -/
theorem terminal_steps {later : List (Transition Runtime Action Event)} {final : Runtime}
    {state : State} (steps : machine.Steps runtime later final) :
    ∀ {history}, machine.Execution history runtime → runtime.state serial = some state →
      state.terminal = true → final.state serial = some state := by
  induction steps with
  | refl =>
    intro history _ held _
    exact held
  | @step current action next events later final taken _ ih =>
    intro history before held ended
    refine ih (before.step taken) ?_ ended
    simp only [machine, Option.ite_none_left_eq_some] at taken
    have visible := visible_perform (sound_of_reachable before) taken.2 serial
    rw [held] at visible
    generalize next.state serial = reached at visible ⊢
    cases visible with
    | same => rfl
    | follow follows => cases follows <;> cases ended

end Terminal

section Emission

/-- Only the writer takes frames out of the outbox. -/
theorem Move.emitted (move : Move runtime more after) (consistent : Consistent events runtime)
    {frame : Frame} (emitted : .host (.emitted frame) ∈ more) :
    ∃ lane, ∃ entry ∈ runtime.host.out.lane lane, entry.frame = frame := by
  have polled_busy : ∀ {serial : Nat} {object : Object} {context : GuestContext} {ready : Ready}
      {future : Posted} {guest : Guest} {first : List Host.Event} {progress : Progress},
      runtime.heap.lookup serial = some object → object.task = .running context (some future) →
      (runtime.guest object context).pollPosted ready future = (guest, first, progress) →
      Host.Busy first := by
    intro serial object context ready future guest first progress found task polled
    have spec := conversed (runtime.guest object context) ready future (by
      rintro call rfl
      exact (consistent.sound found task).1)
    rw [polled] at spec
    cases spec with
    | quiet => simp [Host.Busy]
    | started started => exact started.busy
    | polled served => exact served.busy
  rw [mem_hosted] at emitted
  cases move with
  | respond | issue | forget | bind | park | unpark | clear | absent | helper => cases emitted
  | tend found tended =>
    rw [hosted_tended tended] at emitted
    cases emitted
  | @settle serial object found released unload order =>
    rw [Runtime.finishStop, hosted_append, hosted_host] at emitted
    rcases List.mem_append.mp emitted with member | member
    · exact absurd member (Host.busy_cancelObject runtime.host object.id order).not_emitted
    · cases member
  | host moved =>
    rw [hosted_host] at emitted
    cases moved with
    | response value =>
      rcases runtime.host.response_eq value with ⟨other, -, -, same⟩ | ⟨-, same⟩ <;>
        · rw [same] at emitted
          simp [Host.ignore] at emitted
    | next taken =>
      obtain ⟨-, -, place, entry, same, lanes⟩ := Outbox.next_eq_some taken
      obtain rfl := Host.Event.emitted.inj (List.mem_singleton.mp emitted)
      refine ⟨place, entry, ?_, same⟩
      rw [lanes, if_pos rfl]
      exact List.mem_append_left _ List.mem_cons_self
    | close | control => cases emitted
  | stay found task polled =>
    rw [hosted_host] at emitted
    exact absurd emitted (polled_busy found task polled).not_emitted
  | @complete serial object context ready future guest first word envelope found task polled =>
    have silent : hosted (.completed serial future word ::
        handed serial (runtime.guest object context) word envelope) = [] := hosted_handed ..
    rw [hosted_append, silent, List.append_nil, hosted_host] at emitted
    exact absurd emitted (polled_busy found task polled).not_emitted
  | @finish serial object current context posted result found ending order =>
    rw [finish_eq, hosted_host] at emitted
    rcases List.mem_append.mp emitted with member | member
    · cases posted with
      | none => cases member
      | some future =>
        cases future with
        | calling call =>
          have withdrawn := (Host.dropGuard_spec runtime.host call.guard).busy
          have dropped : Host.Busy [.dropped call.guard.id] := .one (by simp [Host.Event.subject])
          exact absurd member (withdrawn.append dropped).not_emitted
        | _ => cases member
    · exact absurd member (Host.busy_cancelObject _ current.id order).not_emitted

end Emission

section Binding

/-- Every object is bound under its id until it has been let go. -/
def Listed (events : List Event) (runtime : Runtime) : Prop :=
  ∀ serial, serial ∈ runtime.heap → runtime.objects.lookup (objectId serial) = some serial ∨
    runtime.ReleasedAt serial ∨ .shutdown ∈ events

/-- Ids differ where numbers do. -/
theorem objectId_injective {other : Nat} (same : objectId serial = objectId other) :
    serial = other := by
  unfold objectId at same
  rw [String.append_right_inj] at same
  exact Nat.repr_injective same

/-- An object that has just been loaded is bound. -/
theorem Move.listed_new (move : Move runtime more after) (unknown : serial ∉ runtime.heap)
    (member : serial ∈ after.heap) : after.objects.lookup (objectId serial) = some serial := by
  have stored : ∀ {number : Nat} {current next : Object},
      runtime.heap.lookup number = some current → serial ∉ runtime.heap.insert number next := by
    intro number current next found member
    rcases (AList.mem_insert _).mp member with same | old
    · exact unknown (same ▸ Map.mem_of_lookup found)
    · exact unknown old
  cases move with
  | @bind request load waiting =>
    rcases (AList.mem_insert _).mp member with rfl | old
    · exact AList.lookup_insert _
    · exact absurd old unknown
  | tend found => exact absurd member (stored found)
  | helper found => exact absurd member (stored found)
  | stay found => exact absurd member (stored found)
  | complete found => exact absurd member (stored found)
  | finish found ending order =>
    rw [finish_eq] at member
    exact absurd member (stored found)
  | _ => exact absurd member unknown

/-- An object stays bound unless it is unloaded or everything is shut down. -/
theorem Move.listed_old (move : Move runtime more after) (sound : Sound runtime)
    (known : serial ∈ runtime.heap)
    (bound : runtime.objects.lookup (objectId serial) = some serial) :
    after.objects.lookup (objectId serial) = some serial ∨ runtime.ReleasedAt serial ∨
      .shutdown ∈ more := by
  cases move with
  | clear => exact Or.inr (Or.inr List.mem_cons_self)
  | @bind request load waiting =>
    have different : objectId serial ≠ objectId load.serial := by
      intro same
      rw [objectId_injective same] at known
      exact (sound.loading waiting).2 known
    exact Or.inl ((AList.lookup_insert_ne different).trans bound)
  | @settle number object found released unload order =>
    by_cases same : objectId serial = object.id
    · rw [(sound.object found).2] at same
      obtain rfl := objectId_injective same
      exact Or.inr (Or.inl ⟨object, found, released⟩)
    · left
      simp only [Runtime.finishStop]
      split_ifs
      · exact (AList.lookup_erase_ne same).trans bound
      · exact bound
  | finish found ending order =>
    rw [finish_eq]
    exact Or.inl bound
  | _ => exact Or.inl bound

theorem Listed.move (listed : Listed events runtime) (sound : Sound runtime)
    (move : Move runtime more after) : Listed (events ++ more) after := by
  intro serial member
  by_cases known : serial ∈ runtime.heap
  · rcases listed serial known with bound | released | down
    · rcases move.listed_old sound known bound with stays | released | down
      · exact Or.inl stays
      · exact Or.inr (Or.inl (move.releasedAt sound released))
      · exact Or.inr (Or.inr (List.mem_append_right _ down))
    · exact Or.inr (Or.inl (move.releasedAt sound released))
    · exact Or.inr (Or.inr (List.mem_append_left _ down))
  · exact Or.inl (move.listed_new known member)

theorem listed_of_execution {history : List (Transition Runtime Action Event)}
    (execution : machine.Execution history runtime) : Listed (trace history) runtime := by
  refine invariant_of_moves Listed ?_ (fun sound listed move => listed.move sound move) execution
  intro session serial member
  exact absurd member (AList.notMem_empty serial)

/-- The event is about what is bound. -/
def Event.registers : Event → Bool
  | .bound _ _ | .stopped _ _ => true
  | _ => false

theorem registers_host {first : List Host.Event} {event : Event}
    (member : event ∈ first.map .host) : event.registers = false := by
  obtain ⟨inner, -, rfl⟩ := List.mem_map.mp member
  rfl

/-- A completed future neither binds nor stops anything. -/
theorem registers_completion {first : List Host.Event} {future : Posted} {guest : Guest}
    {word : Nat} {envelope : Option Value} {event : Event}
    (member : event ∈ first.map .host ++ .completed serial future word ::
      handed serial guest word envelope) : event.registers = false := by
  rcases List.mem_append.mp member with host | rest
  · exact registers_host host
  · rcases List.mem_cons.mp rest with rfl | handedOver
    · rfl
    · unfold handed at handedOver
      split at handedOver
      · split_ifs at handedOver
        · cases handedOver
        · rw [List.mem_singleton.mp handedOver]
          rfl
      · cases handedOver

/-- A number is not given out again. -/
theorem Move.unbound_known (move : Move runtime more after) (sound : Sound runtime)
    (known : serial ∈ runtime.heap) {other : Nat} : .bound other (objectId serial) ∉ more := by
  intro bound
  cases move with
  | @bind request load waiting =>
    simp only [Runtime.finishLoad, List.mem_cons, Event.bound.injEq, List.not_mem_nil,
      reduceCtorEq, or_false] at bound
    rw [objectId_injective bound.2] at known
    exact (sound.loading waiting).2 known
  | tend found tended =>
    cases tended with
    | deliver => split_ifs at bound <;> simp at bound
    | _ => simp at bound
  | settle => simp [Runtime.finishStop] at bound
  | host | stay | finish => exact absurd (registers_host bound) (by simp [Event.registers])
  | complete => exact absurd (registers_completion bound) (by simp [Event.registers])
  | _ => simp at bound

/-- What a stop has answered for is gone. -/
theorem Move.stopped (move : Move runtime more after) (sound : Sound runtime)
    (listed : Listed events runtime) (running : .shutdown ∉ events) {unload : Bool}
    (stopped : .stopped (objectId serial) unload ∈ more) (known : serial ∈ runtime.heap) :
    after.ReleasedAt serial ∧ (unload = true → objectId serial ∉ after.objects) := by
  cases move with
  | @settle number object found released flag order =>
    simp only [Runtime.finishStop, List.mem_append, List.mem_map, reduceCtorEq, and_false,
      exists_false, List.mem_cons, Event.stopped.injEq, List.not_mem_nil, or_false, false_or]
      at stopped
    obtain ⟨same, rfl⟩ := stopped
    have own := same
    rw [(sound.object found).2] at same
    obtain rfl := objectId_injective same
    refine ⟨⟨object, found, released⟩, ?_⟩
    rintro rfl
    simp [Runtime.finishStop, own, AList.mem_erase]
  | @absent id missing =>
    simp only [List.mem_cons, Event.stopped.injEq, List.not_mem_nil, reduceCtorEq, or_false]
      at stopped
    obtain ⟨rfl, rfl⟩ := stopped
    obtain ⟨object, found⟩ := Option.isSome_iff_exists.mp (AList.lookup_isSome.mpr known)
    have unbound : objectId serial ∉ runtime.objects := by
      intro bound
      obtain ⟨other, listed⟩ := Option.isSome_iff_exists.mp (AList.lookup_isSome.mpr bound)
      obtain ⟨same, -⟩ := sound.bound listed
      obtain rfl := objectId_injective same
      simp [Runtime.get, listed, found] at missing
    refine ⟨?_, fun _ => unbound⟩
    rcases listed serial known with bound | released | down
    · exact absurd (AList.lookup_isSome.mp (by rw [bound]; rfl)) unbound
    · exact released
    · exact absurd down running
  | tend found tended =>
    cases tended with
    | deliver => split_ifs at stopped <;> simp at stopped
    | _ => simp at stopped
  | bind => simp [Runtime.finishLoad] at stopped
  | host | stay | finish => exact absurd (registers_host stopped) (by simp [Event.registers])
  | complete => exact absurd (registers_completion stopped) (by simp [Event.registers])
  | _ => simp at stopped

theorem Moves.unbound_known (moves : Moves runtime more after) :
    Sound runtime → serial ∈ runtime.heap → ∀ other, .bound other (objectId serial) ∉ more := by
  induction moves with
  | refl => simp
  | head move _ ih =>
    intro sound known other bound
    rcases List.mem_append.mp bound with now | next
    · exact move.unbound_known sound known now
    · exact ih (sound.move move) (move.known known) other next

/-- What a stop has answered for is gone, and stays gone for the rest of the step. -/
theorem Moves.stopped (moves : Moves runtime more after) :
    ∀ {events unload}, Sound runtime → Listed events runtime → .shutdown ∉ events ++ more →
      .stopped (objectId serial) unload ∈ more → serial ∈ runtime.heap →
        after.ReleasedAt serial ∧ (unload = true → objectId serial ∉ after.objects) := by
  induction moves with
  | refl =>
    intro events unload _ _ _ stopped
    cases stopped
  | @head runtime middle after first rest move later ih =>
    intro events unload sound listed running stopped known
    rw [← List.append_assoc, List.mem_append, not_or] at running
    rcases List.mem_append.mp stopped with now | next
    · have before : .shutdown ∉ events := fun down => running.1 (List.mem_append_left _ down)
      obtain ⟨released, unbound⟩ := move.stopped sound listed before now known
      have good := sound.move move
      refine ⟨later.releasedAt good released, ?_⟩
      intro unloads bound
      have fresh := later.unbound_known good (move.known known)
      exact unbound unloads (later.unbound fresh bound)
    · refine ih (sound.move move) (listed.move sound move) ?_ next (move.known known)
      rw [List.mem_append, not_or]
      exact running

end Binding

section Silence

/-- Nothing speaks for an object that has been let go. -/
theorem Moves.silent (moves : Moves runtime more after) :
    ∀ {events}, Sound runtime → Consistent events runtime → Confined events runtime →
      Housed runtime → runtime.ReleasedAt serial → ∀ frame, .host (.emitted frame) ∈ more →
        Speaks frame.value → speaker frame.value ≠ some (objectId serial) := by
  induction moves with
  | refl => simp
  | head move _ ih =>
    intro events sound consistent confined housed released frame emitted speaks spoken
    rcases List.mem_append.mp emitted with now | next
    · obtain ⟨lane, entry, member, rfl⟩ := move.emitted consistent now
      obtain ⟨name, rfl, named⟩ := housed.addressed member speaks
      obtain ⟨object, found, held⟩ := released
      rw [spoken, ← (sound.object found).2] at named
      obtain rfl := Option.some.inj named
      exact sound.not_resident found held.final (housed.resident member)
    · exact ih (sound.move move) (consistent.move sound move)
        (confined.move sound consistent move) (housed.move sound consistent confined move)
        (move.releasedAt sound released) frame next speaks spoken

/-- What happens after an object has been let go. -/
structure Silent (serial : Nat) (later : List (Transition Runtime Action Event)) : Prop where
  frames : ∀ frame, .host (.emitted frame) ∈ trace later → Speaks frame.value →
    speaker frame.value ≠ some (objectId serial)
  bindings : ∀ other, .bound other (objectId serial) ∉ trace later

theorem silent_steps {later : List (Transition Runtime Action Event)} {final : Runtime}
    (steps : machine.Steps runtime later final) :
    ∀ {history}, machine.Execution history runtime → runtime.ReleasedAt serial →
      Silent serial later ∧ (objectId serial ∉ runtime.objects → objectId serial ∉ final.objects) := by
  induction steps with
  | refl =>
    intro history _ _
    exact ⟨⟨by simp, by simp⟩, id⟩
  | step taken _ ih =>
    intro history before released
    have sound := sound_of_reachable before
    have next := before.step taken
    simp only [machine, Option.ite_none_left_eq_some] at taken
    have moves := perform_moves sound taken.2
    obtain ⟨rest, stays⟩ := ih next (moves.releasedAt sound released)
    have quiet := moves.silent sound (consistent_of_execution before)
      (confined_of_execution before) (housed_of_execution before) released
    obtain ⟨object, found, -⟩ := id released
    have fresh := moves.unbound_known sound (Map.mem_of_lookup found)
    refine ⟨⟨?_, ?_⟩, fun unbound => stays fun bound => unbound (moves.unbound fresh bound)⟩
    · intro frame emitted
      rw [trace_cons] at emitted
      rcases List.mem_append.mp emitted with now | after
      · exact quiet frame now
      · exact rest.frames frame after
    · intro other bound
      rw [trace_cons] at bound
      rcases List.mem_append.mp bound with now | after
      · exact fresh other now
      · exact rest.bindings other after

end Silence

section Claims

variable {history : List (Transition Runtime Action Event)}

/-- A terminal object leaves nothing behind, now and for ever: no event, no wait, no
pending call, no frame. After the answer to a stop no frame of the object gets out, and
after the answer to an unload its id is never bound again. -/
theorem terminal_objects_leave_nothing (execution : machine.Execution history runtime) :
    (∀ serial object, runtime.heap.lookup serial = some object → object.state.terminal = true →
      runtime.Vacant object ∧
      ∀ later final, machine.Steps runtime later final → ∃ next,
        final.heap.lookup serial = some next ∧ next.id = object.id ∧ next.state = object.state ∧
          final.Vacant next) ∧
    ∀ earlier middle later, history = earlier ++ middle :: later →
      ∀ serial unload, serial ∈ middle.before.heap →
        .stopped (objectId serial) unload ∈ middle.events →
        .shutdown ∉ trace earlier ++ middle.events →
        (∀ frame, .host (.emitted frame) ∈ trace later → Speaks frame.value →
          speaker frame.value ≠ some (objectId serial)) ∧
        (unload = true → objectId serial ∉ runtime.objects ∧
          ∀ other, .bound other (objectId serial) ∉ trace later) := by
  refine ⟨?_, ?_⟩
  · intro serial object found ended
    refine ⟨vacant_of_terminal execution found ended, ?_⟩
    intro later final steps
    have reached := execution.continue steps
    obtain ⟨next, stored, same⟩ := Option.map_eq_some_iff.mp
      (terminal_steps steps execution (state_of_lookup found) ended)
    refine ⟨next, stored, ?_, same, vacant_of_terminal reached stored (by rwa [same])⟩
    rw [((sound_of_reachable reached).object stored).2,
      ((sound_of_reachable execution).object found).2]
  · intro earlier middle later split serial unload known stopped running
    obtain ⟨before, taken⟩ := execution.cut split
    have next := before.step taken
    have sound := sound_of_reachable before
    simp only [machine, Option.ite_none_left_eq_some] at taken
    obtain ⟨released, unbound⟩ := (perform_moves sound taken.2).stopped sound
      (listed_of_execution before) running stopped known
    obtain ⟨silent, stays⟩ := silent_steps (execution.resume split) next released
    exact ⟨silent.frames, fun unloads => ⟨stays (unbound unloads), silent.bindings⟩⟩

/-- Unload that object while its request is in the outbox, then write all frames. -/
def unloadOnce : List Action :=
  readOnce ++ [.stop 0 "o1" true [], .poll 1 .idle ⟨0, 0⟩ [], .pollStop 0 [], .pollStop 0 [],
    .next, .next]

/-- The request of that object was queued, and is never written. -/
theorem terminal_objects_leave_nothing_unload :
    ∃ earlier middle later runtime, machine.Execution (earlier ++ middle :: later) runtime ∧
      (trace earlier).any Event.queues = true ∧ .stopped "o1" true ∈ middle.events ∧
      later.length = 2 ∧ (∀ frame, .host (.emitted frame) ∈ trace later → Speaks frame.value →
        speaker frame.value ≠ some "o1") ∧ "o1" ∉ runtime.objects := by
  have evaluated : ((machine.run { host := { session := "" } } unloadOnce).any fun result =>
      match result.1.drop 11 with
      | [] => false
      | middle :: later => (trace (result.1.take 11)).any Event.queues &&
          decide (.stopped "o1" true ∈ middle.events ∧
            .shutdown ∉ trace (result.1.take 11) ++ middle.events ∧ later.length = 2) &&
          (middle.before.heap.lookup 1).isSome) = true := by decide +kernel
  obtain ⟨history, runtime, execution, tested⟩ := Machine.execution_of_test evaluated ⟨"", rfl⟩
  have split : history = history.take 11 ++ history.drop 11 := (List.take_append_drop 11 history).symm
  simp only at tested
  generalize history.take 11 = earlier at split tested
  generalize history.drop 11 = rest at split tested
  cases rest with
  | nil => cases tested
  | cons middle later =>
    simp only [Bool.and_eq_true, decide_eq_true_eq] at tested
    obtain ⟨⟨queued, stopped, running, two⟩, known⟩ := tested
    obtain ⟨silent, gone⟩ := (terminal_objects_leave_nothing execution).2 earlier middle later
      split 1 true (AList.lookup_isSome.mp known) stopped running
    subst split
    exact ⟨earlier, middle, later, runtime, execution, queued, stopped, two, silent, (gone rfl).1⟩

end Claims

end Runtime

end Spinfoam
