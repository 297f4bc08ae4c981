import Spinfoam.Host.Accounts
import Spinfoam.Runtime.Changes

/-!
# The host calls of the guests

The registry of host calls was accounted for on the machine of the host alone.
Here the futures that hold the guards are those of the guests: a guest holds one
guard at most, and only while its call is suspended.
-/

namespace Spinfoam

open Spinfoam.Json Spinfoam.Std Spinfoam.Outbox Spinfoam.Guest Spinfoam.Semantics

/-- The guard in a future. -/
def Guest.Posted.guard : Posted → Option Host.CallGuard
  | .calling waiting => some waiting.guard
  | _ => none

/-- The guard that is left after a poll. -/
def Guest.Progress.guard : Progress → Option Host.CallGuard
  | .pending future => future.guard
  | .done _ _ => none

/-- The guard that the guest of an object holds. -/
def Object.guard (object : Object) : Option Host.CallGuard :=
  match object.task with
  | .running _ posted => posted.bind Posted.guard
  | _ => none

namespace Runtime

/-- The events of the host. -/
def hosted (events : List Event) : List Host.Event :=
  events.filterMap fun
    | .host event => some event
    | _ => none

/-- Who holds which guard. -/
def live (runtime : Runtime) (serial : Nat) : Option Host.CallGuard :=
  (runtime.heap.lookup serial).bind Object.guard

/-- The calls of all guests are accounted for. -/
structure Consistent (events : List Event) (runtime : Runtime) : Prop where
  accounted : Host.Accounted (hosted events) runtime.host runtime.live
  sound : ∀ {serial object context call}, runtime.heap.lookup serial = some object →
    object.task = .running context (some (.calling call)) →
      call.Sound ∧ call.guard.object = object.id

variable {runtime after : Runtime} {events more : List Event}

@[simp] theorem hosted_append (first second : List Event) :
    hosted (first ++ second) = hosted first ++ hosted second :=
  List.filterMap_append

@[simp] theorem hosted_host (events : List Host.Event) : hosted (events.map .host) = events := by
  rw [hosted, List.filterMap_map]
  exact List.filterMap_some

@[simp] theorem hosted_cons_host (event : Host.Event) (events : List Event) :
    hosted (.host event :: events) = event :: hosted events := rfl

/-- What a future hands over is nothing to the host. -/
theorem hosted_handed (serial : Nat) (guest : Guest) (word : Nat) (envelope : Option Value) :
    hosted (handed serial guest word envelope) = [] := by
  unfold handed
  split
  · split_ifs <;> rfl
  · rfl

section Guards

variable {serial : Nat} {object next : Object}

/-- The guard of an object that is known. -/
theorem live_of_lookup (found : runtime.heap.lookup serial = some object) :
    runtime.live serial = object.guard := by
  rw [live, found]
  rfl

/-- An object that is replaced may have another guard. -/
theorem live_put (runtime : Runtime) (serial : Nat) (object : Object) :
    (runtime.put serial object).live = Function.update runtime.live serial object.guard := by
  ext1 other
  by_cases same : other = serial
  · subst same
    simp [live, put]
  · simp [live, put, same]

/-- The guard of a running object is that of its posted future. -/
theorem guard_running {context : GuestContext} {posted : Option Posted}
    (task : object.task = .running context posted) : object.guard = posted.bind Posted.guard := by
  rw [Object.guard, task]

/-- What is done to an object without its guest leaves its guard alone. -/
theorem tended_guard (tended : Object.Tended serial object events next) (sound : object.Sound) :
    next.guard = object.guard := by
  have joined : ∀ object : Object, object.join.1.guard = object.guard := by
    intro object
    rcases object.join_spec with ⟨-, same⟩ | ⟨-, same⟩
    · rw [same]
      rfl
    · rw [same]
      rfl
  cases tended with
  | start loaded =>
    rw [Object.guard, Object.guard, (sound.loaded loaded).1]
  | stop =>
    rcases object.stop_spec with ⟨-, same⟩ | ⟨-, same⟩ | ⟨-, same⟩
    · rw [same, joined]
      rfl
    · rw [same]
      rfl
    · rw [same, joined]
  | pollStop fits =>
    rcases Object.pollStop_spec fits with ⟨same, -⟩ | ⟨-, same | same⟩
    · rw [same]
    · rw [same, joined]
    · rw [same]
      rfl
  | cancel => rfl
  | deliver event =>
    unfold Object.deliver
    split <;> rfl
  | begin clock spawned =>
    rw [Object.guard, Object.guard, spawned]
    rfl

/-- What is done to an object from outside is nothing to the host. -/
theorem hosted_tended (tended : Object.Tended serial object events next) : hosted events = [] := by
  cases tended with
  | deliver event => split_ifs <;> rfl
  | _ => rfl

@[simp] theorem guard_settle (object : Object) (result : Option (Except String Int))
    (mailbox : Mailbox) : (object.settle result mailbox).guard = none := by
  rw [Object.guard, settle_task]

end Guards

section Guests

/-- What a poll of a posted future does to the host. -/
inductive Conversed (guest : Guest) (ready : Ready) :
    Posted → Guest × List Host.Event × Progress → Prop where
  | quiet {future : Posted} {after : Guest} {progress : Progress} (plain : future.guard = none)
      (host : after.host = guest.host) (left : progress.guard = none) :
      Conversed guest ready future (after, [], progress)
  | started {capability : String} {arguments : Value} {ms : Nat}
      {result : Host × List Host.Event × Host.Outcome} {after : Guest} {progress : Progress}
      (started : Host.Started guest.context.id capability arguments (timeoutMs ms)
        ready.clock.unix guest.host result)
      (host : after.host = result.1) (left : progress.guard = result.2.2.guard)
      (suspended : ∀ call, progress = .pending (.calling call) → result.2.2 = .pending call) :
      Conversed guest ready (.call capability arguments ms) (after, result.2.1, progress)
  | polled {call : Host.Call} {result : Host × List Host.Event × Host.Outcome} {after : Guest}
      {progress : Progress}
      (polled : Host.Polled call.guard call.Sends guest.host result)
      (host : after.host = result.1) (left : progress.guard = result.2.2.guard)
      (suspended : ∀ next, progress = .pending (.calling next) → result.2.2 = .pending next) :
      Conversed guest ready (.calling call) (after, result.2.1, progress)

/-- The end of a call in the guest keeps what the host says. -/
theorem settleCall_host (guest : Guest) (outcome : Host.Outcome) :
    (guest.settleCall outcome).1.host = guest.host ∧
      (guest.settleCall outcome).2.guard = outcome.guard ∧
      ∀ call, (guest.settleCall outcome).2 = .pending (.calling call) → outcome = .pending call := by
  rcases outcome with (status | value) | call
  · exact ⟨rfl, rfl, by simp [settleCall]⟩
  · exact ⟨(insert_spec { guest with wait := .none } (.json value)).2.2.1, rfl,
      by simp [settleCall]⟩
  · refine ⟨rfl, rfl, ?_⟩
    rintro _ ⟨⟩
    rfl

/-- A posted future talks to the host as its call does. -/
theorem conversed (guest : Guest) (ready : Ready) (future : Posted)
    (sound : ∀ call, future = .calling call → call.Sound) :
    Conversed guest ready future (guest.pollPosted ready future) := by
  cases future with
  | sleep | yield =>
    unfold pollPosted
    split_ifs <;> exact .quiet rfl rfl rfl
  | event ms =>
    simp only [pollPosted]
    split
    · rename_i event mailbox taken
      exact .quiet rfl (insert_spec { guest with mailbox, wait := .none } (.json event)).2.2.1 rfl
    · split_ifs <;> exact .quiet rfl rfl rfl
  | call capability arguments ms =>
    have started := Host.call_spec guest.host guest.context.id capability arguments (timeoutMs ms)
      ready.clock.unix ready.elapsed
    simp only [pollPosted]
    generalize guest.host.call guest.context.id capability arguments (timeoutMs ms)
      ready.clock.unix ready.elapsed = result at started ⊢
    obtain ⟨host, left, suspended⟩ := settleCall_host { guest with host := result.1 } result.2.2
    exact .started started host left suspended
  | calling call =>
    have polled := Host.poll_spec guest.host (sound call rfl) ready.space ready.elapsed
    simp only [pollPosted]
    generalize guest.host.poll call ready.space ready.elapsed = result at polled ⊢
    obtain ⟨host, left, suspended⟩ := settleCall_host { guest with host := result.1 } result.2.2
    exact .polled polled host left suspended

end Guests

section Moves

variable {serial : Nat} {object next : Object}

/-- Which guards are live depends on the objects alone. -/
theorem live_of_heap (same : after.heap = runtime.heap) : after.live = runtime.live := by
  ext1 other
  rw [live, live, same]

/-- What leaves the objects and the host alone. -/
theorem Consistent.quiet (consistent : Consistent events runtime)
    (heap : after.heap = runtime.heap) (host : after.host = runtime.host)
    (silent : hosted more = []) : Consistent (events ++ more) after := by
  constructor
  case accounted =>
    rw [hosted_append, silent, List.append_nil, host, live_of_heap heap]
    exact consistent.accounted
  case sound =>
    rw [heap]
    exact consistent.sound

/-- What changes the host, but no object. -/
theorem Consistent.converse (consistent : Consistent events runtime)
    (heap : after.heap = runtime.heap)
    (accounted : Host.Accounted (hosted events ++ hosted more) after.host runtime.live) :
    Consistent (events ++ more) after := by
  constructor
  case accounted =>
    rw [hosted_append, live_of_heap heap]
    exact accounted
  case sound =>
    rw [heap]
    exact consistent.sound

/-- What changes the host and one object. -/
theorem Consistent.put (consistent : Consistent events runtime)
    (heap : after.heap = runtime.heap.insert serial next)
    (accounted : Host.Accounted (hosted events ++ hosted more) after.host
      (Function.update runtime.live serial next.guard))
    (own : ∀ {context call}, next.task = .running context (some (.calling call)) →
      call.Sound ∧ call.guard.object = next.id) : Consistent (events ++ more) after := by
  constructor
  case accounted =>
    rw [hosted_append, @live_of_heap (runtime.put serial next) _ heap, live_put]
    exact accounted
  case sound =>
    intro other current context call found task
    rw [heap] at found
    obtain ⟨rfl, rfl⟩ | ⟨-, old⟩ := Map.lookup_insert_eq_some found
    · exact own task
    · exact consistent.sound old task

/-- What changes one object, but no guard. -/
theorem Consistent.keep (consistent : Consistent events runtime)
    (heap : after.heap = runtime.heap.insert serial next) (host : after.host = runtime.host)
    (silent : hosted more = []) (guard : next.guard = runtime.live serial)
    (own : ∀ {context call}, next.task = .running context (some (.calling call)) →
      call.Sound ∧ call.guard.object = next.id) : Consistent (events ++ more) after := by
  refine consistent.put heap ?_ own
  rw [silent, List.append_nil, host, guard, Function.update_eq_self]
  exact consistent.accounted

/-- The state notification belongs to no call. -/
theorem foreign_stateNotice (status : Value) : Host.foreign (stateNotice status) = true := by
  simp [Host.foreign, stateNotice, List.lookup]

/-- A log message is no frame of a call. -/
theorem foreign_logNotice (id message : String) : Host.foreign (logNotice id message) = true := by
  simp [Host.foreign, logNotice, List.lookup]

private theorem Consistent.hostMoved (consistent : Consistent events runtime) {host : Host}
    {first : List Host.Event} (moved : HostMoved runtime.host first host) :
    Consistent (events ++ first.map .host) { runtime with host } := by
  have accounted := consistent.accounted
  refine consistent.converse rfl ?_
  rw [hosted_host]
  cases moved with
  | response frame => exact accounted.response frame
  | next taken =>
    obtain ⟨-, -, place, entry, -, lanes⟩ := Outbox.next_eq_some taken
    refine accounted.shrunk ?_ (by simp [Host.Event.subject])
    intro lane
    rw [lanes]
    exact List.subset_append_right _ _
  | close =>
    have fewer : ∀ lane, runtime.host.out.close.lane lane ⊆ runtime.host.out.lane lane :=
      fun lane => List.Subset.refl _
    exact accounted.shrunk fewer (by simp)
  | control plain =>
    rw [List.append_nil]
    exact accounted.controlled (by simp [Host.foreign, plain])

/-- A helper calls the host for its log at most. -/
private theorem Consistent.helper (consistent : Consistent events runtime)
    {context : GuestContext} {scope : Scope} {call : HelperCall} {guest : Guest} {reply : Reply}
    (found : runtime.heap.lookup serial = some object)
    (task : object.task = .running context none)
    (invoked : (runtime.guest object context).invoke scope call = (guest, reply)) :
    Consistent (events ++ [.replied serial call reply])
      (runtime.absorb serial object guest reply.future) := by
  have idle : runtime.live serial = none := by
    rw [live_of_lookup found, guard_running task]
    rfl
  have spec := invoke_spec (runtime.guest object context) scope call
  rw [invoked] at spec
  have answers : (∀ future, reply ≠ .posted future) → reply.future = none := by
    intro answered
    cases reply with
    | posted future => exact absurd rfl (answered future)
    | _ => rfl
  cases spec with
  | table same mailbox host wait answered =>
    have unposted := answers answered
    refine consistent.keep rfl host rfl ?_ ?_
    · rw [idle, guard_running rfl, unposted]
      rfl
    · rintro context waiting running
      rw [unposted] at running
      cases running
  | log same mailbox host wait answered =>
    have unposted := answers answered
    refine consistent.put rfl ?_ ?_
    · rw [guard_running rfl, unposted]
      change Host.Accounted (hosted events ++ []) guest.host (Function.update runtime.live serial none)
      rw [List.append_nil, ← idle, Function.update_eq_self, host]
      exact consistent.accounted.logged (foreign_logNotice ..) rfl
    · rintro context waiting running
      rw [unposted] at running
      cases running
  | @posted wait future kind =>
    have plain : ∀ waiting, future ≠ .calling waiting := by
      rintro waiting rfl
      simp at kind
    refine consistent.keep rfl rfl rfl ?_ ?_
    · rw [idle, guard_running rfl]
      cases future with
      | calling waiting => exact absurd rfl (plain waiting)
      | _ => rfl
    · rintro context waiting running
      cases running
      exact absurd rfl (plain waiting)

/-- A poll of a posted future takes part in the call it is about. -/
private theorem Consistent.resume (consistent : Consistent events runtime)
    {context : GuestContext} {future : Posted} {ready : Ready} {guest : Guest}
    {first : List Host.Event} {progress : Progress} {posted : Option Posted}
    (found : runtime.heap.lookup serial = some object)
    (task : object.task = .running context (some future)) (name : context.id = object.id)
    (polled : (runtime.guest object context).pollPosted ready future = (guest, first, progress))
    (left : posted.bind Posted.guard = progress.guard)
    (suspended : ∀ call, posted = some (.calling call) → progress = .pending (.calling call))
    (silent : hosted more = []) :
    Consistent (events ++ (first.map .host ++ more))
      (runtime.absorb serial object guest posted) := by
  have holds : runtime.live serial = future.guard := by
    rw [live_of_lookup found, guard_running task]
    rfl
  have sound : ∀ call, future = .calling call → call.Sound := by
    rintro call rfl
    exact (consistent.sound found task).1
  have spec := conversed (runtime.guest object context) ready future sound
  rw [polled] at spec
  have trace : hosted (first.map .host ++ more) = first := by
    rw [hosted_append, hosted_host, silent, List.append_nil]
  cases spec with
  | quiet plain host unguarded =>
    refine consistent.keep rfl host trace ?_ ?_
    · rw [guard_running rfl, left, unguarded, holds, plain]
    · rintro _ call running
      cases running
      rw [suspended call rfl] at unguarded
      cases unguarded
  | @started capability arguments ms result _ _ started host guard goes =>
    refine consistent.put rfl ?_ ?_
    · rw [trace, guard_running rfl, left, guard]
      have accounted := consistent.accounted.started holds started
      rw [← host] at accounted
      exact accounted
    · rintro _ call running
      cases running
      obtain ⟨suits, own⟩ := started.sound (goes call (suspended call rfl))
      exact ⟨suits, own.trans name⟩
  | @polled call result _ _ went host guard goes =>
    obtain ⟨suits, own⟩ := consistent.sound found task
    have asks : ∀ entry, call.Sends entry → Host.Asks call.guard.id entry := by
      intro entry sending
      rw [Host.Call.Sends] at sending
      simp only [Host.Call.Sound, sending] at suits
      exact suits.1
    refine consistent.put rfl ?_ ?_
    · rw [trace, guard_running rfl, left, guard]
      have accounted := consistent.accounted.polled holds asks went
      rw [← host] at accounted
      exact accounted
    · rintro _ next running
      cases running
      obtain ⟨still, -, same⟩ := went.sound asks (goes next (suspended next rfl))
      exact ⟨still, same.trans own⟩

/-- A dropped run gives up the call it waits for. -/
theorem accounted_dropRun (accounted : Host.Accounted (hosted events) runtime.host runtime.live)
    (context : GuestContext) (posted : Option Posted)
    (holds : runtime.live serial = posted.bind Posted.guard) :
    Host.Accounted (hosted events ++ ((runtime.guest object context).dropRun posted).2)
      ((runtime.guest object context).dropRun posted).1.host
      (Function.update runtime.live serial none) := by
  have idle : posted.bind Posted.guard = none →
      Host.Accounted (hosted events ++ []) runtime.host (Function.update runtime.live serial none) := by
    intro unguarded
    rw [List.append_nil, ← holds.trans unguarded, Function.update_eq_self]
    exact accounted
  cases posted with
  | none => exact idle rfl
  | some future =>
    cases future with
    | calling call => exact accounted.abandoned holds
    | _ => exact idle rfl

/-- The end of a run gives up everything the object had with the host. -/
private theorem Consistent.finish (consistent : Consistent events runtime)
    {current : Object} {context : GuestContext} {posted : Option Posted}
    {result : Option (Except String Int)} (found : runtime.heap.lookup serial = some object)
    (ending : Ending object result current context posted) (order : List String) :
    Consistent (events ++ (runtime.finish serial current context posted result order).2)
      (runtime.finish serial current context posted result order).1 := by
  have holds : runtime.live serial = posted.bind Posted.guard := by
    rw [live_of_lookup found]
    cases ending with
    | running task => exact guard_running task
    | spawned clock task =>
      rw [Object.guard, task]
      rfl
  have dropped := @accounted_dropRun _ _ _ current consistent.accounted context posted holds
  have cleaned := dropped.cancelledObject current.id order
  rw [finish_eq]
  refine consistent.put rfl ?_ ?_
  · rw [guard_settle, hosted_host, ← List.append_assoc]
    exact cleaned.controlled (foreign_stateNotice _)
  · intro _ call running
    rw [settle_task] at running
    cases running

/-- Every move keeps the calls accounted for. -/
theorem Consistent.move (consistent : Consistent events runtime) (sound : Sound runtime)
    (move : Move runtime more after) : Consistent (events ++ more) after := by
  cases move with
  | respond | issue | forget | park | unpark | clear | absent => exact consistent.quiet rfl rfl rfl
  | @bind request load waiting =>
    have fresh : runtime.heap.lookup load.serial = none :=
      AList.lookup_eq_none.mpr (sound.loading waiting).2
    refine consistent.keep rfl rfl rfl ?_ ?_
    · rw [live, fresh]
      rfl
    · rintro context call running
      cases running
  | @tend serial object next events found tended =>
    have guard := tended_guard tended (sound.object found).1
    refine consistent.keep rfl rfl (hosted_tended tended) ?_ ?_
    · rw [guard, live_of_lookup found]
    · intro context call running
      rcases tended_task tended with same | ⟨-, spawned⟩ | ⟨clock, fresh⟩
      · rw [same] at running
        have own := consistent.sound found running
        exact ⟨own.1, own.2.trans tended.same.1.symm⟩
      · rw [spawned] at running
        cases running
      · rw [fresh] at running
        cases running
  | @settle serial object found released unload order =>
    refine consistent.converse rfl ?_
    have trace : hosted (runtime.finishStop object unload order).2 =
        (cleanHost runtime.host object.id order).2 := by
      rw [Runtime.finishStop, hosted_append, hosted_host]
      exact List.append_nil _
    rw [trace]
    exact consistent.accounted.cancelledObject object.id order
  | host moved => exact consistent.hostMoved moved
  | helper found task invoked => exact consistent.helper found task invoked
  | @stay serial object context ready future next guest first found task polled =>
    have name := ((sound.object found).1.context task).1
    have resumed : Consistent (events ++ (first.map .host ++ []))
        (runtime.absorb serial object guest (some next)) :=
      consistent.resume found task name polled rfl (by rintro call ⟨⟩; rfl) rfl
    simpa using resumed
  | complete found task polled =>
    have name := ((sound.object found).1.context task).1
    exact consistent.resume found task name polled rfl (by rintro call ⟨⟩) (hosted_handed ..)
  | finish found ending order => exact consistent.finish found ending order

/-- The start is consistent. -/
theorem consistent_start (session : String) : Consistent [] { host := { session } } := by
  refine ⟨Host.Accounted.start session, ?_⟩
  intro serial object context call found
  cases found

/-- Every state of every run is consistent. -/
theorem consistent_of_execution {history : List (Transition Runtime Action Event)}
    (execution : machine.Execution history runtime) : Consistent (trace history) runtime :=
  invariant_of_moves Consistent consistent_start
    (fun sound consistent move => consistent.move sound move) execution

end Moves

end Runtime

end Spinfoam
