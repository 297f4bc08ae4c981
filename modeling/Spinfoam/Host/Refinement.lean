import Spinfoam.Host.Settlement
import Spinfoam.Host.Traffic
import Spinfoam.Semantics.Simulation

/-!
# The host over the outbox

The host works on the outbox through its functions. Each of them is a step of the
outbox under its tasks, whose writer is not parked and whose senders are gone: a
sender that finds no room gives up and is polled anew. So every run of the host
has a run of the outbox beside it that hands over the same frames.
-/

namespace Spinfoam

open Spinfoam.Json Spinfoam.Std Spinfoam.Outbox Spinfoam.Semantics

namespace Outbox

/-- The frame that an event hands to the writer. -/
def handedOver : Event → Option Frame
  | .returned _ frame => some frame
  | _ => none

/-- The state of the tasks between two operations on the outbox. -/
structure Mirrors (out : Outbox) (state : State) : Prop where
  queues : state.queues = out.queues
  closed : state.closed = out.closed
  dropped : state.dropped = out.dropped
  writer : state.writer = .idle
  senders : state.senders = ∅
  running : state.panicked = none

/-- The tasks take the outbox from one state to another and hand over these frames. -/
def Follows (out : Outbox) (frames : List Frame) (after : Outbox) : Prop :=
  ∀ state : State, Mirrors out state → ∃ events next, machine.Reaches state events next ∧
    Mirrors after next ∧ events.filterMap handedOver = frames

variable {out middle after : Outbox} {state next : State} {first second : List Frame}

namespace Follows

theorem refl (out : Outbox) : Follows out [] out :=
  fun _ mirrors => ⟨[], _, .refl _, mirrors, rfl⟩

theorem trans (front : Follows out first middle) (back : Follows middle second after) :
    Follows out (first ++ second) after := by
  intro state mirrors
  obtain ⟨events, next, steps, still, rfl⟩ := front state mirrors
  obtain ⟨more, final, rest, last, rfl⟩ := back next still
  exact ⟨events ++ more, final, steps.trans rest, last, List.filterMap_append⟩

/-- One operation after another that hands over nothing. -/
theorem andThen (front : Follows out [] middle) (back : Follows middle first after) :
    Follows out first after := front.trans back

end Follows

namespace Mirrors

/-- While no task has panicked, a step is what is performed. -/
theorem step (mirrors : Mirrors out state) (action : Action) :
    machine.step state action = state.perform action := by
  simp [machine, mirrors.running]

/-- The tasks queue an entry when the outbox does. -/
theorem tryOffer (mirrors : Mirrors out state) (lane : Lane) (entry : DataFrame) :
    (out.offer lane entry = none ∧ state.tryOffer lane entry = none) ∨
      ∃ after next, out.offer lane entry = some after ∧
        state.tryOffer lane entry = some (next, [.accepted lane entry]) ∧ Mirrors after next := by
  have queued := @offer_queues out lane entry
  cases offered : out.offer lane entry with
  | none =>
    left
    rw [offered] at queued
    simp [State.tryOffer, mirrors.queues, mirrors.closed, ← queued]
  | some after =>
    right
    obtain ⟨-, stays, dropped, -⟩ := offer_eq_some offered
    have isOpen := (offer_eq_some offered).1
    rw [offered] at queued
    refine ⟨after, { state with queues := after.queues, permit := true }, rfl, ?_, ?_⟩
    · simp [State.tryOffer, mirrors.queues, mirrors.closed, ← queued, State.notifyChanged,
        mirrors.writer]
    · exact ⟨rfl, by rw [stays, ← isOpen]; exact mirrors.closed, mirrors.dropped.trans dropped.symm,
        mirrors.writer, mirrors.senders, mirrors.running⟩

/-- There is no sender to wake. -/
theorem notifySpace (mirrors : Mirrors out state) : Mirrors out state.notifySpace := by
  refine ⟨mirrors.queues, mirrors.closed, mirrors.dropped, mirrors.writer, ?_, mirrors.running⟩
  rw [State.notifySpace, mirrors.senders]
  rfl

end Mirrors

/-- `try_control` is a step of the outbox. -/
theorem follows_tryControl (out : Outbox) (value : Value) :
    Follows out [] (out.tryControl value).1 := by
  intro state mirrors
  have step := mirrors.step (.tryControl value)
  cases encoded : encode value with
  | none =>
    simp only [State.perform, encoded] at step
    refine ⟨_, _, .one step, ?_, rfl⟩
    simpa [tryControl, encoded] using mirrors
  | some frame =>
    rcases mirrors.tryOffer .control ⟨frame, none⟩ with
      ⟨full, refused⟩ | ⟨after, next, room, pushed, still⟩
    · simp only [State.perform, encoded, refused] at step
      refine ⟨_, _, .one step, ?_, rfl⟩
      simpa [tryControl, encoded, full] using mirrors
    · simp only [State.perform, encoded, pushed] at step
      refine ⟨_, _, .one step, ?_, rfl⟩
      simpa [tryControl, encoded, room] using still

/-- `try_data` is a step of the outbox. -/
theorem follows_tryData (out : Outbox) (object : String) (value : Value) :
    Follows out [] (out.tryData object value).1 := by
  intro state mirrors
  have step := mirrors.step (.tryData object value)
  cases encoded : encode value with
  | none =>
    simp only [State.perform, encoded] at step
    refine ⟨_, _, .one step, ?_, rfl⟩
    simpa [tryData, encoded] using mirrors
  | some frame =>
    rcases mirrors.tryOffer (.object object) ⟨frame, requestId value⟩ with
      ⟨full, refused⟩ | ⟨after, next, room, pushed, still⟩
    · simp only [State.perform, encoded, refused] at step
      refine ⟨_, _, .one step, ?_, rfl⟩
      simp only [tryData, encoded, full]
      exact ⟨mirrors.queues, mirrors.closed, by simp [mirrors.dropped], mirrors.writer,
        mirrors.senders, mirrors.running⟩
    · simp only [State.perform, encoded, pushed] at step
      refine ⟨_, _, .one step, ?_, rfl⟩
      simpa [tryData, encoded, room] using still

/-- A request that finds room is queued by a sender in its first poll. -/
theorem follows_offer {object : String} {entry : DataFrame}
    (tagged : entry.requestId = requestId entry.frame.value)
    (offered : out.offer (.object object) entry = some after) : Follows out [] after := by
  intro state mirrors
  obtain ⟨isOpen, stays, dropped, -⟩ := offer_eq_some offered
  have queued := @offer_queues out (.object object) entry
  rw [offered, isOpen] at queued
  have fits : ¬ entry.frame.length > objectBytes := by
    have room := (Queues.pushData_eq_some.mp queued.symm).2.1
    omega
  have encoded : encode entry.frame.value = some entry.frame := encode_eq_some.mpr rfl
  have free : (0 : Nat) ∉ state.senders := by
    rw [mirrors.senders]
    exact AList.notMem_empty 0
  have room : state.queues.offer false (.object object) ⟨entry.frame, requestId entry.frame.value⟩ =
      some after.queues := by
    rw [mirrors.queues, ← tagged]
    exact queued.symm
  have step := mirrors.step (.data 0 object entry.frame.value)
  simp only [State.perform, if_neg free, encoded, if_neg fits, State.attempt, mirrors.closed, isOpen,
    room, State.notifyChanged, mirrors.writer, Bool.false_eq_true, if_false] at step
  refine ⟨_, _, .one step, ?_, rfl⟩
  refine ⟨rfl, stays.symm, mirrors.dropped.trans dropped.symm, rfl, ?_, mirrors.running⟩
  rw [mirrors.senders]
  rfl

/-- The queues behind `remove_request`, in which nothing underflows. -/
theorem removeRequest_queues (out : Outbox) (object id : String) :
    out.queues.removeRequest object id = .ok (out.removeRequest object id).queues := by
  obtain ⟨next, removed, -⟩ := Queues.removeRequest_spec out.wellFormed object id
  unfold removeRequest
  split
  · rename_i queues same
    exact same
  · rename_i failed
    rw [removed] at failed
    cases failed

/-- `remove_request` is a step of the outbox. -/
theorem follows_removeRequest (out : Outbox) (object id : String) :
    Follows out [] (out.removeRequest object id) := by
  intro state mirrors
  obtain ⟨closed, dropped, -⟩ := removeRequest_spec out object id
  have step := mirrors.step (.removeRequest object id)
  simp only [State.perform, mirrors.queues, removeRequest_queues] at step
  have still : Mirrors (out.removeRequest object id)
      { state with queues := (out.removeRequest object id).queues } :=
    ⟨rfl, mirrors.closed.trans closed.symm, mirrors.dropped.trans dropped.symm, mirrors.writer,
      mirrors.senders, mirrors.running⟩
  refine ⟨_, _, .one step, ?_, rfl⟩
  split_ifs
  · exact still.notifySpace
  · exact still

/-- The queues behind `remove_object`, in which nothing underflows. -/
theorem removeObject_queues (out : Outbox) (object : String) :
    out.queues.removeObject object = .ok (out.removeObject object).queues := by
  obtain ⟨next, removed, -⟩ := Queues.removeObject_spec out.wellFormed object
  unfold removeObject
  split
  · rename_i queues same
    exact same
  · rename_i failed
    rw [removed] at failed
    cases failed

/-- `remove_object` is a step of the outbox. -/
theorem follows_removeObject (out : Outbox) (object : String) :
    Follows out [] (out.removeObject object) := by
  intro state mirrors
  obtain ⟨closed, dropped, -⟩ := removeObject_spec out object
  have step := mirrors.step (.removeObject object)
  simp only [State.perform, mirrors.queues, removeObject_queues] at step
  have still : Mirrors (out.removeObject object)
      { state with queues := (out.removeObject object).queues } :=
    ⟨rfl, mirrors.closed.trans closed.symm, mirrors.dropped.trans dropped.symm, mirrors.writer,
      mirrors.senders, mirrors.running⟩
  exact ⟨_, _, .one step, still.notifySpace, rfl⟩

/-- The queues behind a pass of the writer, in which nothing underflows. -/
theorem next_queues {frame : Frame} (taken : out.next = some (frame, after)) :
    out.queues.next = .ok (some (frame, after.queues)) := by
  unfold next at taken
  split at taken
  · rename_i head queues passed
    simp only [Option.some.injEq, Prod.mk.injEq] at taken
    obtain ⟨rfl, rfl⟩ := taken
    exact passed
  · cases taken

/-- A pass of the writer is a step of the outbox, which hands the frame over. -/
theorem follows_next {frame : Frame} (taken : out.next = some (frame, after)) :
    Follows out [frame] after := by
  intro state mirrors
  obtain ⟨closed, dropped, -⟩ := next_eq_some taken
  have step := mirrors.step (.next false)
  simp only [State.perform, State.pollNext, mirrors.writer, State.turn, mirrors.queues,
    next_queues taken] at step
  have still : Mirrors after { state with queues := after.queues, writer := .idle } :=
    ⟨rfl, mirrors.closed.trans closed.symm, mirrors.dropped.trans dropped.symm, rfl,
      mirrors.senders, mirrors.running⟩
  exact ⟨_, _, .one step, still.notifySpace, rfl⟩

/-- Closing is a step of the outbox. -/
theorem follows_close (out : Outbox) : Follows out [] out.close := by
  intro state mirrors
  refine ⟨_, _, .one (mirrors.step .close), ?_, rfl⟩
  exact ⟨mirrors.queues, rfl, mirrors.dropped, mirrors.writer, mirrors.senders, mirrors.running⟩

end Outbox

namespace Host

/-- The frame that an event hands to the writer. -/
def emittedFrame : Event → Option Frame
  | .emitted frame => some frame
  | _ => none

variable {host : Host} {guard : CallGuard}

/-- The outbox under a `host.cancel`. -/
theorem follows_sendCancel (host : Host) (id : String) :
    Follows host.out [] (host.sendCancel id).1.out := by
  have follows := follows_tryControl host.out (cancelNotice id)
  unfold sendCancel
  split <;> rename_i out same <;> rwa [same] at follows

/-- The outbox under a guard that is dropped. -/
theorem follows_dropGuard (host : Host) (guard : CallGuard) :
    Follows host.out [] (host.dropGuard guard).1.out := by
  have removed := follows_removeRequest host.out guard.object guard.id
  unfold dropGuard
  extract_lets unqueued unregistered
  split_ifs
  · exact removed.andThen (follows_sendCancel unregistered guard.id)
  · exact removed
  · exact removed

/-- The outbox under a call that ends. -/
theorem follows_finish (host : Host) (guard : CallGuard) (result : Result) :
    Follows host.out [] (host.finish guard result).1.out :=
  follows_dropGuard host guard

/-- The outbox under a call that looks for its reply. -/
theorem follows_pollReply (host : Host) (guard : CallGuard) (elapsed : Bool) :
    Follows host.out [] (host.pollReply guard elapsed).1.out := by
  rcases pollReply_eq host guard elapsed with ⟨-, same⟩ | ⟨result, same, -⟩
  · rw [same]
    exact .refl _
  · rw [same]
    exact follows_finish host guard result

/-- The outbox under a call that waits for space. -/
theorem follows_pollSend (host : Host) {guard : CallGuard} {entry : DataFrame} (elapsed : Bool)
    (asks : Asks guard.id entry) : Follows host.out [] (host.pollSend guard entry elapsed).1.out := by
  unfold pollSend
  split
  · exact follows_finish host guard _
  · split
    · rename_i out offered
      have tagged : entry.requestId = requestId entry.frame.value :=
        asks.tagged.trans (requestId_of_isCall asks.call).symm
      exact (follows_offer tagged offered).andThen
        (follows_pollReply { host with out } { guard with sent := true } elapsed)
    · split_ifs
      · exact follows_finish host guard _
      · exact .refl _

/-- Every poll of `Host::call` is a run of the outbox that hands nothing over. -/
theorem follows_poll (host : Host) {call : Call} (sound : call.Sound) (spaceReady elapsed : Bool) :
    Follows host.out [] (host.poll call spaceReady elapsed).1.out := by
  obtain ⟨guard, phase⟩ := call
  cases phase with
  | waiting => exact follows_pollReply host guard elapsed
  | sending entry =>
    simp only [poll]
    split_ifs
    · exact follows_pollSend host elapsed sound.1
    · exact follows_finish host guard _
    · exact .refl _

/-- The first poll of `Host::call` is such a run. -/
theorem follows_call (host : Host) (object capability : String) (arguments : Value)
    (timeoutMs now : Nat) (elapsed : Bool) :
    Follows host.out [] (host.call object capability arguments timeoutMs now elapsed).1.out := by
  unfold call
  split_ifs
  · exact .refl _
  · exact .refl _
  · simp only [startSend]
    split
    · exact follows_finish (host.register object) _ _
    · rename_i frame encoded
      split_ifs
      · exact follows_finish (host.register object) _ _
      · have starts : Starts (request host.nextId object capability arguments timeoutMs now)
            ⟨frame, requestId (request host.nextId object capability arguments timeoutMs now)⟩ :=
          ⟨encode_eq_some.mp encoded, rfl⟩
        exact follows_pollSend (host.register object) elapsed (starts.asks (isCall_request ..))

/-- The end of an object is such a run. -/
theorem follows_cancelObject (host : Host) (object : String) (order : List String) :
    Follows host.out [] (host.cancelObject object order).1.out := by
  refine @cancelCalls_induction (fun _ after => Follows host.out [] after.out) (fun _ => True) ?_
    (host.idsOf object order) (fun _ _ => trivial) [] host (.refl _)
  rintro events after id - follows
  refine follows.andThen ?_
  unfold cancelCall
  split_ifs
  · exact follows_sendCancel { after with
      pending := after.pending.erase id
      replies := after.replies.insert id (.error Status.closed) } id
  · exact .refl _

/-- Events about calls hand no frame over. -/
theorem emittedFrame_of_busy {events : List Event} (busy : Busy events) :
    events.filterMap emittedFrame = [] := by
  apply List.filterMap_eq_nil_iff.mpr
  intro event member
  cases event with
  | emitted frame => exact absurd member busy.not_emitted
  | _ => rfl

section Steps

variable {state next : State} {events : List Event}

/-- A poll of a call on the machine does to the outbox what it does to that of the
host. -/
theorem follows_resume {future : Nat} {result : Host × List Event × Outcome}
    (busy : Busy result.2.1) (follows : Follows state.host.out [] result.1.out)
    (same : state.resume future result = (next, events)) :
    Follows state.host.out (events.filterMap emittedFrame) next.host.out := by
  have host : (state.resume future result).1.host = result.1 := by
    obtain ⟨host, more, outcome⟩ := result
    cases outcome <;> rfl
  have trace := state.resume_events future result
  rw [same] at host trace
  subst trace
  rw [emittedFrame_of_busy busy]
  exact host ▸ follows

/-- Every step of the host is a few steps of the outbox. -/
theorem follows_perform (consistent : ∀ future call, state.calls.lookup future = some call → call.Sound)
    {action : Action} (taken : state.perform action = some (next, events)) :
    Follows state.host.out (events.filterMap emittedFrame) next.host.out := by
  cases action with
  | call future object capability arguments timeoutMs now elapsed =>
    simp only [State.perform, Option.ite_none_left_eq_some, Option.some.injEq] at taken
    have started := call_spec state.host object capability arguments timeoutMs now elapsed
    have follows := follows_call state.host object capability arguments timeoutMs now elapsed
    exact follows_resume started.busy follows taken.2
  | poll future spaceReady elapsed =>
    obtain ⟨call, found, same⟩ := Option.map_eq_some_iff.mp taken
    have sound := consistent future call found
    have polled := poll_spec state.host sound spaceReady elapsed
    exact follows_resume polled.busy (follows_poll state.host sound spaceReady elapsed) same
  | drop future =>
    obtain ⟨call, found, same⟩ := Option.map_eq_some_iff.mp taken
    simp only [abandon, Prod.mk.injEq] at same
    obtain ⟨rfl, rfl⟩ := same
    have dropped : Busy [.dropped call.guard.id] := .one (by simp [Event.subject])
    rw [emittedFrame_of_busy ((dropGuard_spec state.host call.guard).busy.append dropped)]
    exact follows_dropGuard state.host call.guard
  | response frame =>
    simp only [State.perform, Option.some.injEq, Prod.mk.injEq] at taken
    obtain ⟨rfl, rfl⟩ := taken
    have silent : (state.host.response frame).2.filterMap emittedFrame = [] := by
      rcases response_eq state.host frame with ⟨id, -, -, same⟩ | ⟨-, same⟩ <;>
        · rw [same]
          rfl
    rw [silent, response_out]
    exact .refl _
  | cancelObject object order =>
    simp only [State.perform, Option.some.injEq, Prod.mk.injEq] at taken
    obtain ⟨rfl, rfl⟩ := taken
    rw [emittedFrame_of_busy (busy_cancelObject state.host object order)]
    exact (follows_cancelObject state.host object order).andThen (follows_removeObject _ object)
  | next =>
    simp only [State.perform] at taken
    split at taken
    · cases Option.some.inj taken
      exact .refl _
    · rename_i frame out passed
      cases Option.some.inj taken
      exact follows_next passed
  | close =>
    cases Option.some.inj taken
    exact follows_close _
  | control value =>
    simp only [State.perform, Option.ite_none_right_eq_some, Option.some.injEq, Prod.mk.injEq] at taken
    obtain ⟨-, rfl, rfl⟩ := taken
    exact follows_tryControl _ value
  | data object value =>
    simp only [State.perform, Option.ite_none_right_eq_some, Option.some.injEq, Prod.mk.injEq] at taken
    obtain ⟨-, rfl, rfl⟩ := taken
    exact follows_tryData _ object value

/-- The host is simulated by the outbox it works on. -/
theorem simulation :
    Forward machine Outbox.machine (fun state other => Mirrors state.host.out other) emittedFrame
      handedOver where
  initial := by
    rintro state ⟨session, rfl⟩
    exact ⟨{}, rfl, rfl, rfl, rfl, rfl, rfl, rfl⟩
  step := by
    rintro state other action next events ⟨history, execution⟩ mirrors taken
    have sound := (consistent_of_execution execution).sound
    obtain ⟨outputs, after, steps, still, same⟩ := follows_perform sound taken other mirrors
    exact ⟨outputs, after, steps, still, same⟩

end Steps

end Host

end Spinfoam
