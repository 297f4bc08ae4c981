import Spinfoam.Runtime.Machine
import Spinfoam.Host.Effects
import Spinfoam.Guest.Table

/-!
# Notices

The runtime puts nothing but notices into the control queue: frames with a
method, at its end. Taking frames out and queueing responses is left to the
session.
-/

namespace Spinfoam

open Spinfoam.Json Spinfoam.Std Spinfoam.Outbox Spinfoam.Guest

namespace Outbox

/-- The frames in the control queue, oldest first. -/
def controls (out : Outbox) : List Frame := (out.lane .control).map DataFrame.frame

/-- Only notices have been queued, and nothing has been taken. A closed outbox
stays closed. -/
structure Noticed (out after : Outbox) : Prop where
  grown : ∃ more, after.controls = out.controls ++ more ∧
    ∀ frame ∈ more, frame.value.get "method" ≠ none
  closed : out.closed = true → after.closed = true

namespace Noticed

variable {out middle after : Outbox}

/-- What leaves the control lane and the mark of the end alone adds no notice. -/
theorem of_lane (same : after.lane .control = out.lane .control) (closed : after.closed = out.closed) :
    Noticed out after :=
  ⟨⟨[], by simp [controls, same], by simp⟩, closed.trans⟩

theorem refl (out : Outbox) : Noticed out out := of_lane rfl rfl

theorem trans (first : Noticed out middle) (second : Noticed middle after) : Noticed out after := by
  obtain ⟨more, grown, notices⟩ := first.grown
  obtain ⟨rest, further, others⟩ := second.grown
  refine ⟨⟨more ++ rest, by rw [further, grown, List.append_assoc], ?_⟩, second.closed ∘ first.closed⟩
  intro frame member
  rcases List.mem_append.mp member with here | there
  · exact notices frame here
  · exact others frame there

/-- One more frame with a method is a notice. -/
theorem of_frame {frame : Frame} (grown : after.lane .control = out.lane .control ++ [⟨frame, none⟩])
    (notice : frame.value.get "method" ≠ none) (closed : after.closed = out.closed) :
    Noticed out after :=
  ⟨⟨[frame], by simp [controls, grown], by simpa using notice⟩, closed.trans⟩

/-- A value with a method is queued as a notice or not at all. -/
theorem tryControl (out : Outbox) {value : Value} (notice : value.get "method" ≠ none) :
    Noticed out (out.tryControl value).1 := by
  have closed := out.tryControl_closed value
  rcases tryControl_spec out value with same | ⟨frame, after, encoded, offered, same⟩
  · rw [same]
    exact refl out
  · rw [same] at closed ⊢
    have grown : after.lane .control = out.lane .control ++ [⟨frame, none⟩] := by
      simpa using (offer_eq_some offered).2.2.2 .control
    refine of_frame grown ?_ closed
    rwa [encode_eq_some.mp encoded]

/-- What goes to a lane of an object does not touch the control lane. -/
theorem offer {name : String} {entry : DataFrame} (offered : out.offer (.object name) entry = some after) :
    Noticed out after := by
  obtain ⟨isOpen, stays, -, lanes⟩ := offer_eq_some offered
  exact of_lane (by simpa using lanes .control) (stays.trans isOpen.symm)

/-- `try_data` does not touch the control lane. -/
theorem tryData (out : Outbox) (object : String) (value : Value) :
    Noticed out (out.tryData object value).1 := by
  unfold Outbox.tryData
  split
  · exact refl out
  · split
    · exact of_lane rfl rfl
    · rename_i offered
      exact offer offered

/-- `remove_object` does not touch the control lane. -/
theorem removeObject (out : Outbox) (object : String) : Noticed out (out.removeObject object) := by
  obtain ⟨closed, -, lanes⟩ := removeObject_spec out object
  exact of_lane (by simpa using lanes .control) closed

end Noticed

end Outbox

namespace Host

open Outbox

variable {host : Host}

/-- `host.cancel` is a notice. -/
theorem notice_cancelNotice (id : String) : (cancelNotice id).get "method" ≠ none := by
  simp [cancelNotice, Value.get, List.lookup]

/-- A guard that is dropped sends at most a `host.cancel`. -/
theorem noticed_dropGuard (host : Host) (guard : CallGuard) :
    Noticed host.out (host.dropGuard guard).1.out := by
  rcases (dropGuard_spec host guard).notice with ⟨-, same⟩ | ⟨-, -, -, frame, value, grown⟩
  · exact .of_lane same (dropGuard_spec host guard).closed
  · refine .of_frame grown ?_ (dropGuard_spec host guard).closed
    rw [value]
    exact notice_cancelNotice guard.id

/-- A call that looks for its reply sends only notices. -/
theorem noticed_pollReply (host : Host) (guard : CallGuard) (elapsed : Bool) :
    Noticed host.out (host.pollReply guard elapsed).1.out := by
  rcases pollReply_eq host guard elapsed with ⟨-, same⟩ | ⟨result, same, -⟩
  · rw [same]
    exact .refl _
  · rw [same]
    exact noticed_dropGuard host guard

/-- A call that waits for space sends only notices. -/
theorem noticed_pollSend (host : Host) (guard : CallGuard) (entry : DataFrame) (elapsed : Bool) :
    Noticed host.out (host.pollSend guard entry elapsed).1.out := by
  unfold pollSend
  by_cases closed : host.out.closed = true
  · rw [if_pos closed]
    exact noticed_dropGuard host guard
  · rw [if_neg closed]
    split
    · rename_i out offered
      exact (Noticed.offer offered).trans (noticed_pollReply { host with out } _ elapsed)
    · split_ifs
      · exact noticed_dropGuard host guard
      · exact .refl _

/-- A call that offers its request for the first time sends only notices. -/
theorem noticed_startSend (host : Host) (guard : CallGuard) (request : Value) (elapsed : Bool) :
    Noticed host.out (host.startSend guard request elapsed).1.out := by
  unfold startSend
  split
  · exact noticed_dropGuard host guard
  · split_ifs
    · exact noticed_dropGuard host guard
    · exact noticed_pollSend host guard _ elapsed

/-- A poll of `Host::call` sends the embedder only notices. -/
theorem noticed_poll (host : Host) (call : Call) (spaceReady elapsed : Bool) :
    Noticed host.out (host.poll call spaceReady elapsed).1.out := by
  unfold poll
  split
  · exact noticed_pollReply host _ elapsed
  · split_ifs
    · exact noticed_pollSend host _ _ elapsed
    · exact noticed_dropGuard host _
    · exact .refl _

/-- The first poll of `Host::call`, too, sends only notices. -/
theorem noticed_call (host : Host) (object capability : String) (arguments : Value)
    (timeoutMs now : Nat) (elapsed : Bool) :
    Noticed host.out (host.call object capability arguments timeoutMs now elapsed).1.out := by
  simp only [call]
  split_ifs
  · exact .refl _
  · exact .refl _
  · have started := noticed_startSend (host.register object)
      { id := host.nextId, sent := false, object }
      (request host.nextId object capability arguments timeoutMs now) elapsed
    generalize Host.startSend _ _ _ _ = result at started ⊢
    exact started

/-- The end of an object sends a `host.cancel` for each of its calls. -/
theorem noticed_cancelObject (host : Host) (object : String) (order : List String) :
    Noticed host.out (host.cancelObject object order).1.out := by
  refine @cancelCalls_induction (fun _ after => Noticed host.out after.out) (fun _ => True) ?_
    (host.idsOf object order) (fun _ _ => trivial) [] host (.refl _)
  intro events after id _ noticed
  by_cases registered : id ∈ after.pending
  · rcases (cancelCall_spec registered).notice with ⟨-, same⟩ | ⟨-, frame, value, grown⟩
    · exact noticed.trans (.of_lane same (cancelCall_spec registered).closed)
    · refine noticed.trans (.of_frame grown ?_ (cancelCall_spec registered).closed)
      rw [value]
      exact notice_cancelNotice id
  · rwa [cancelCall_of_not_mem registered]

end Host

namespace Guest

open Outbox

variable {guest : Guest}

/-- A helper sends the embedder nothing but notices. -/
theorem noticed_invoke (guest : Guest) (scope : Scope) (call : HelperCall) :
    Noticed guest.host.out (guest.invoke scope call).1.host.out := by
  have spec := invoke_spec guest scope call
  generalize guest.invoke scope call = result at spec ⊢
  cases spec with
  | table same mailbox host =>
    rw [host]
    exact .refl _
  | log same mailbox host =>
    rw [host]
    exact .tryData _ _ _
  | posted => exact .refl _

/-- A posted future sends only notices. -/
theorem noticed_pollPosted (guest : Guest) (ready : Ready) (future : Posted) :
    Noticed guest.host.out (guest.pollPosted ready future).1.host.out := by
  have settled : ∀ (guest : Guest) outcome,
      (guest.settleCall outcome).1.host = guest.host := by
    intro guest outcome
    obtain (status | value) | call := outcome
    · rfl
    · exact (insert_spec { guest with wait := .none } (.json value)).2.2.1
    · rfl
  cases future with
  | sleep | yield =>
    unfold pollPosted
    split_ifs <;> exact .refl _
  | event ms =>
    simp only [pollPosted]
    split
    · rename_i event mailbox received
      rw [(insert_spec { guest with mailbox, wait := .none } (.json event)).2.2.1]
      exact .refl _
    · split_ifs <;> exact .refl _
  | call capability arguments ms =>
    have noticed := guest.host.noticed_call guest.context.id capability arguments (timeoutMs ms)
      ready.clock.unix ready.elapsed
    simp only [pollPosted]
    generalize guest.host.call guest.context.id capability arguments (timeoutMs ms)
      ready.clock.unix ready.elapsed = result at noticed ⊢
    rw [settled { guest with host := result.1 }]
    exact noticed
  | calling call =>
    have noticed := guest.host.noticed_poll call ready.space ready.elapsed
    simp only [pollPosted]
    generalize guest.host.poll call ready.space ready.elapsed = result at noticed ⊢
    rw [settled { guest with host := result.1 }]
    exact noticed

/-- A run that is dropped sends at most a `host.cancel`. -/
theorem noticed_dropRun (guest : Guest) (posted : Option Posted) :
    Noticed guest.host.out (guest.dropRun posted).1.host.out := by
  rcases posted with _ | (ms | _ | ms | ⟨capability, arguments, ms⟩ | call)
  · exact .refl _
  · exact .refl _
  · exact .refl _
  · exact .refl _
  · exact .refl _
  · exact Host.noticed_dropGuard guest.host call.guard

end Guest

namespace Runtime

open Outbox

variable {runtime after : Runtime} {events : List Event}

/-- The host is cleaned of an object with notices alone. -/
theorem noticed_cleanHost (host : Host) (id : String) (order : List String) :
    Noticed host.out (cleanHost host id order).1.out :=
  (host.noticed_cancelObject id order).trans (.removeObject _ id)

/-- The end of a task is announced by a notice, behind those of its calls. -/
theorem noticed_finish (runtime : Runtime) (serial : Nat) (object : Object)
    (context : GuestContext) (posted : Option Posted) (result : Option (Except String Int))
    (order : List String) :
    Noticed runtime.host.out
      (runtime.finish serial object context posted result order).1.host.out := by
  have notice : ∀ status, (stateNotice status).get "method" ≠ none := by
    simp [stateNotice, Value.get, List.lookup]
  exact ((noticed_dropRun (runtime.guest object context) posted).trans
    (noticed_cleanHost _ object.id order)).trans (.tryControl _ (notice _))

/-- One turn of a guest sends only notices. -/
theorem noticed_turn {serial : Nat} {object : Object} {context : GuestContext}
    {posted : Option Posted} {order : List String} {turn : Turn}
    (taken : runtime.turn serial object context posted order turn = some (after, events)) :
    Noticed runtime.host.out after.host.out := by
  cases turn with
  | idle =>
    obtain ⟨rfl, -⟩ := Prod.mk.inj (Option.some.inj taken)
    exact .refl _
  | helper call scope =>
    cases posted with
    | some future => cases taken
    | none =>
      obtain ⟨rfl, -⟩ := Prod.mk.inj (Option.some.inj taken)
      exact noticed_invoke (runtime.guest object context) scope call
  | resume ready =>
    cases posted with
    | none => cases taken
    | some future =>
      have noticed := noticed_pollPosted (runtime.guest object context) ready future
      simp only [Runtime.turn] at taken
      generalize (runtime.guest object context).pollPosted ready future = result at taken noticed
      obtain ⟨guest, first, next | ⟨word, envelope⟩⟩ := result
      · obtain ⟨rfl, -⟩ := Prod.mk.inj (Option.some.inj taken)
        exact noticed
      · obtain ⟨rfl, -⟩ := Prod.mk.inj (Option.some.inj taken)
        exact noticed
  | finish result =>
    have noticed := noticed_finish runtime serial object context posted (some result) order
    rwa [Option.some.inj taken] at noticed

/-- A poll of an object's task sends only notices. -/
theorem noticed_pollTask {serial : Nat} {turn : Turn} {clock : Clock} {order : List String}
    (taken : runtime.pollTask serial turn clock order = some (after, events)) :
    Noticed runtime.host.out after.host.out := by
  simp only [pollTask, Option.bind_eq_some_iff] at taken
  obtain ⟨object, -, taken⟩ := taken
  split at taken
  · cases taken
  · cases taken
  · split_ifs at taken
    · have noticed := noticed_finish runtime serial (object.begin clock)
        (.new object.id object.config object.capabilities clock) none none order
      rwa [Option.some.inj taken] at noticed
    · obtain ⟨⟨next, more⟩, turned, same⟩ := Option.map_eq_some_iff.mp taken
      obtain ⟨rfl, -⟩ := Prod.mk.inj same
      have noticed := noticed_turn turned
      exact noticed
  · rename_i context posted _
    split_ifs at taken
    · have noticed := noticed_finish runtime serial object context posted none order
      rwa [Option.some.inj taken] at noticed
    · exact noticed_turn taken

/-- Stopping the objects one after the other leaves the host alone. -/
theorem shutdownFrom_host (runtime : Runtime) (request : Nat) (serials : List Nat) :
    (runtime.shutdownFrom request serials).1.host = runtime.host := by
  induction serials generalizing runtime with
  | nil => rfl
  | cons serial rest ih =>
    unfold shutdownFrom
    split
    · exact ih runtime
    · split
      · rfl
      · exact ih _

/-- A shutdown goes from object to object and leaves the host alone. -/
theorem proceed_shutdown_host (runtime : Runtime) (request serial : Nat) (rest : List Nat)
    (order : List String) (result : Object × Option Object.StopPhase) :
    (runtime.proceed request serial (.shutdown rest) order result).1.host = runtime.host := by
  obtain ⟨object, _ | phase⟩ := result
  · exact shutdownFrom_host { runtime.put serial object with
      stops := runtime.stops.erase request } request rest
  · rfl

/-- A stop that goes on sends only notices. -/
theorem noticed_proceed (runtime : Runtime) (request serial : Nat) (purpose : Purpose)
    (order : List String) (result : Object × Option Object.StopPhase) :
    Noticed runtime.host.out (runtime.proceed request serial purpose order result).1.host.out := by
  cases purpose with
  | request unload =>
    obtain ⟨object, _ | phase⟩ := result
    · have noticed := noticed_cleanHost runtime.host object.id order
      simp only [proceed, finishStop, Runtime.put]
      generalize cleanHost runtime.host object.id order = cleaned at noticed ⊢
      exact noticed
    · exact .refl _
  | shutdown rest =>
    have same := proceed_shutdown_host runtime request serial rest order result
    exact .of_lane (congrArg (fun host => host.out.lane .control) same)
      (congrArg (fun host => host.out.closed) same)

/-- A delivery is between the embedder and a mailbox. -/
theorem deliver_host (runtime : Runtime) (id eventId topic : String) (payload : Value) :
    (runtime.deliver id eventId topic payload).1.host = runtime.host := by
  unfold Runtime.deliver
  split_ifs
  · rfl
  · split <;> rfl

/-- A start leaves the host alone. -/
theorem start_host (runtime : Runtime) (id : String) : (runtime.start id).1.host = runtime.host := by
  unfold Runtime.start
  split
  · rfl
  · split_ifs <;> rfl

/-- The beginning of a load leaves the host alone. -/
theorem load_host (runtime : Runtime) (request : Nat) (hash : String) (config : Value)
    (capabilities : List Capability) :
    (runtime.load request hash config capabilities).1.host = runtime.host := by
  unfold Runtime.load
  split_ifs <;> rfl

/-- The end of a load leaves the host alone. -/
theorem finishLoad_host (runtime : Runtime) (request : Nat) (load : Load)
    (result : Except String Bool) :
    (runtime.finishLoad request load result).1.host = runtime.host := by
  rcases result with error | (_ | _) <;> rfl

/-- The first poll of `Runtime::shutdown` leaves the host alone. -/
theorem shutdown_host (runtime : Runtime) (request : Nat) :
    (runtime.shutdown request).1.host = runtime.host := by
  have cancelled : ∀ serials (runtime : Runtime), (runtime.cancelAll serials).host = runtime.host := by
    intro serials
    induction serials with
    | nil => exact fun _ => rfl
    | cons serial rest ih =>
      intro runtime
      unfold cancelAll
      split
      · exact ih runtime
      · exact ih _
  exact (shutdownFrom_host _ request _).trans (cancelled _ runtime)

/-- Whatever the runtime does short of a response or a pass of the writer, the
control queue only gets notices. -/
theorem noticed_perform {action : Action} (silent : ∀ value, action ≠ .control value)
    (unread : action ≠ .next)
    (taken : runtime.perform action = some (after, events)) :
    Noticed runtime.host.out after.host.out := by
  have unchanged : after.host = runtime.host → Noticed runtime.host.out after.host.out :=
    fun same => .of_lane (congrArg (fun host => host.out.lane .control) same)
      (congrArg (fun host => host.out.closed) same)
  cases action with
  | load request hash config capabilities =>
    simp only [perform, Option.ite_none_left_eq_some, Option.some.injEq] at taken
    exact unchanged (by rw [← load_host runtime request hash config capabilities, taken.2])
  | loaded request result =>
    simp only [perform, Option.map_eq_some_iff] at taken
    obtain ⟨load, -, same⟩ := taken
    exact unchanged (by rw [← finishLoad_host runtime request load result, same])
  | dropLoad request =>
    obtain ⟨rfl, -⟩ := Prod.mk.inj (Option.some.inj taken)
    exact .refl _
  | start id =>
    exact unchanged (by rw [← start_host runtime id, Option.some.inj taken])
  | stop request id unload order =>
    simp only [perform, Option.ite_none_left_eq_some, Option.some.injEq] at taken
    have noticed : Noticed runtime.host.out (runtime.stop request id unload order).1.host.out := by
      unfold Runtime.stop
      split
      · exact .refl _
      · exact noticed_proceed runtime request _ _ order _
    rwa [taken.2] at noticed
  | shutdown request =>
    simp only [perform, Option.ite_none_left_eq_some, Option.some.injEq] at taken
    exact unchanged (by rw [← shutdown_host runtime request, taken.2])
  | pollStop request order =>
    simp only [perform, Option.bind_eq_some_iff, Option.map_eq_some_iff] at taken
    obtain ⟨call, -, object, -, same⟩ := taken
    have noticed := noticed_proceed runtime request call.object call.purpose order
      (object.pollStop call.phase)
    rwa [same] at noticed
  | dropStop request =>
    obtain ⟨rfl, -⟩ := Prod.mk.inj (Option.some.inj taken)
    exact .refl _
  | deliver id eventId topic payload =>
    exact unchanged (by rw [← deliver_host runtime id eventId topic payload, Option.some.inj taken])
  | status id =>
    obtain ⟨rfl, -⟩ := Prod.mk.inj (Option.some.inj taken)
    exact .refl _
  | poll serial turn clock order => exact noticed_pollTask taken
  | close =>
    obtain ⟨rfl, -⟩ := Prod.mk.inj (Option.some.inj taken)
    exact ⟨⟨[], by simp [controls], by simp⟩, fun _ => rfl⟩
  | response frame =>
    have same : (runtime.host.response frame).1.out = after.host.out :=
      congrArg (fun result => result.1.host.out) (Option.some.inj taken)
    rw [← same, Host.response_out]
    exact .refl _
  | control value => exact absurd rfl (silent value)
  | next => exact absurd rfl unread

end Runtime

end Spinfoam
