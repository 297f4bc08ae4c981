import Spinfoam.Host.Refinement
import Spinfoam.Runtime.Calls
import Spinfoam.Guest.Journal

/-!
# The runtime over the host

The futures of the host's machine are those that the guests have posted. What an
object does to the host is a step of the host under that object's number, so every
run of the runtime has a run of the host beside it with the same events.
-/

namespace Spinfoam

open Spinfoam.Json Spinfoam.Std Spinfoam.Outbox Spinfoam.Guest Spinfoam.Semantics

/-- The call that a future waits for. -/
def Guest.Posted.waiting : Posted → Option Host.Call
  | .calling suspended => some suspended
  | _ => none

/-- The call that is left after a poll. -/
def Guest.Progress.waiting : Progress → Option Host.Call
  | .pending future => future.waiting
  | .done _ _ => none

/-- The call that is left after a poll of the host. -/
def Host.Outcome.waiting : Host.Outcome → Option Host.Call
  | .ready _ => none
  | .pending call => some call

/-- The call that the guest of an object waits for. -/
def Object.waiting (object : Object) : Option Host.Call :=
  match object.task with
  | .running _ posted => posted.bind Posted.waiting
  | _ => none

namespace Runtime

/-- Who waits for which call. -/
def waiting (runtime : Runtime) (serial : Nat) : Option Host.Call :=
  (runtime.heap.lookup serial).bind Object.waiting

/-- The host and the calls that are waited for, as the state of the host's machine. -/
structure Beside (host : Host) (calls : Nat → Option Host.Call) (state : Host.State) : Prop where
  host : state.host = host
  calls : ∀ future, state.calls.lookup future = calls future

/-- The host's machine gets from one state to another with these events. -/
def Leads (host : Host) (calls : Nat → Option Host.Call) (events : List Host.Event) (after : Host)
    (left : Nat → Option Host.Call) : Prop :=
  ∀ state, Beside host calls state →
    ∃ next, Host.machine.Reaches state events next ∧ Beside after left next

section Steps

variable {host middle after : Host} {calls between left : Nat → Option Host.Call}
  {first second : List Host.Event} {future : Nat}

namespace Leads

theorem refl (host : Host) (calls : Nat → Option Host.Call) : Leads host calls [] host calls :=
  fun state beside => ⟨state, .refl _, beside⟩

theorem trans (front : Leads host calls first middle between)
    (back : Leads middle between second after left) :
    Leads host calls (first ++ second) after left := by
  intro state beside
  obtain ⟨next, steps, still⟩ := front state beside
  obtain ⟨final, rest, last⟩ := back next still
  exact ⟨final, steps.trans rest, last⟩

/-- A step of the host that concerns no future. -/
theorem aside (action : Host.Action)
    (taken : ∀ state : Host.State, state.host = host →
      state.perform action = some ({ state with host := after }, first)) :
    Leads host calls first after calls := by
  intro state beside
  exact ⟨_, .one (taken state beside.host), rfl, beside.calls⟩

/-- The first or a later poll of a future. -/
theorem resume {result : Host × List Host.Event × Host.Outcome}
    (polls : ∀ state, Beside host calls state →
      ∃ action, Host.machine.step state action = some (state.resume future result)) :
    Leads host calls result.2.1 result.1 (Function.update calls future result.2.2.waiting) := by
  intro state beside
  obtain ⟨action, taken⟩ := polls state beside
  obtain ⟨hosting, events, outcome⟩ := result
  have kept : ∀ other, (state.resume future (hosting, events, outcome)).1.calls.lookup other =
      Function.update calls future outcome.waiting other := by
    intro other
    by_cases same : other = future
    · subst same
      cases outcome <;> simp [Host.State.resume, Host.Outcome.waiting]
    · cases outcome <;> simp [Host.State.resume, same, AList.lookup_insert_ne,
        AList.lookup_erase_ne, beside.calls]
  cases outcome with
  | ready result => exact ⟨_, .one taken, rfl, kept⟩
  | pending call => exact ⟨_, .one taken, rfl, kept⟩

/-- A future is dropped. -/
theorem drop {call : Host.Call} (waits : calls future = some call) :
    Leads host calls (host.abandon call).2 (host.abandon call).1
      (Function.update calls future none) := by
  intro state beside
  have found : state.calls.lookup future = some call := (beside.calls future).trans waits
  have taken : Host.machine.step state (.drop future) =
      some ({ state with host := (host.abandon call).1, calls := state.calls.erase future },
        (host.abandon call).2) := by
    simp [Host.machine, Host.State.perform, found, beside.host]
  refine ⟨_, .one taken, rfl, ?_⟩
  intro other
  by_cases same : other = future
  · subst same
    simp
  · simp [same, AList.lookup_erase_ne, beside.calls]

/-- The end of an object. -/
theorem cleanHost (host : Host) (id : String) (order : List String) :
    Leads host calls (Runtime.cleanHost host id order).2 (Runtime.cleanHost host id order).1 calls :=
  .aside (.cancelObject id order) fun state same => by
    rw [← same]
    rfl

/-- A frame of the control queue that is no call's leaves the calls alone. -/
theorem control (host : Host) {value : Value} (foreign : Host.foreign value = true) :
    Leads host calls [] { host with out := (host.out.tryControl value).1 } calls :=
  .aside (.control value) fun state same => by simp [Host.State.perform, same, foreign]

end Leads

end Steps

variable {runtime after : Runtime} {more : List Event} {serial : Nat} {object next : Object}

/-- Which calls wait depends on the objects alone. -/
theorem waiting_of_heap (same : after.heap = runtime.heap) : after.waiting = runtime.waiting := by
  ext1 serial
  rw [waiting, waiting, same]

/-- An object that is replaced may have another call waiting. -/
theorem waiting_of_insert (heap : after.heap = runtime.heap.insert serial next) :
    after.waiting = Function.update runtime.waiting serial next.waiting := by
  ext1 other
  by_cases same : other = serial
  · subst same
    simp [waiting, heap]
  · simp [waiting, heap, same]

/-- The call of an object that is known. -/
theorem waiting_of_lookup (found : runtime.heap.lookup serial = some object) :
    runtime.waiting serial = object.waiting := by
  rw [waiting, found]
  rfl

/-- A running object's call is that of the future it has posted. -/
theorem waiting_running {context : GuestContext} {posted : Option Posted}
    (task : object.task = .running context posted) :
    object.waiting = posted.bind Posted.waiting := by
  rw [Object.waiting, task]

/-- Who holds no guard waits for no call. -/
theorem waiting_of_guard (free : object.guard = none) : object.waiting = none := by
  cases task : object.task with
  | running context posted =>
    rw [waiting_running task]
    rw [Object.guard, task] at free
    rcases posted with _ | future
    · rfl
    · cases future with
      | calling call => cases free
      | _ => rfl
  | none | spawned | finished => rw [Object.waiting, task]

/-- The host's machine follows a move of the runtime. -/
def Followed (runtime : Runtime) (events : List Host.Event) (after : Runtime) : Prop :=
  Leads runtime.host runtime.waiting events after.host after.waiting

/-- The runtime moves and the host does not. -/
theorem Followed.still (host : after.host = runtime.host) (waiting : after.waiting = runtime.waiting) :
    Followed runtime [] after := by
  rw [Followed, host, waiting]
  exact .refl _ _

/-- An object changes whose guest waits for the same call as before, or for none. -/
theorem Followed.keep (found : runtime.heap.lookup serial = some object)
    (heap : after.heap = runtime.heap.insert serial next) (host : after.host = runtime.host)
    (same : next.waiting = object.waiting) : Followed runtime [] after := by
  refine .still host ?_
  rw [waiting_of_insert heap, same, ← waiting_of_lookup found, Function.update_eq_self]

/-- A call waits on exactly if it is pending. -/
theorem settleCall_waiting (guest : Guest) (outcome : Host.Outcome) :
    (guest.settleCall outcome).2.waiting = outcome.waiting := by
  cases outcome with
  | ready result => cases result <;> rfl
  | pending call => rfl

/-- What a poll of a posted future does to the host is the poll of a call. -/
theorem followed_pollPosted {context : GuestContext} {ready : Ready} {future : Posted} {guest : Guest}
    {events : List Host.Event} {progress : Progress} {posted : Option Posted}
    (found : runtime.heap.lookup serial = some object)
    (task : object.task = .running context (some future))
    (polled : (runtime.guest object context).pollPosted ready future = (guest, events, progress))
    (left : posted.bind Posted.waiting = progress.waiting) :
    Followed runtime events (runtime.absorb serial object guest posted) := by
  have before : runtime.waiting serial = future.waiting := by
    rw [waiting_of_lookup found, waiting_running task]
    rfl
  have own : (runtime.absorb serial object guest posted).waiting =
      Function.update runtime.waiting serial progress.waiting := by
    rw [waiting_of_insert rfl]
    exact congrArg _ left
  have quiet (plain : future.waiting = none) (host : guest.host = runtime.host)
      (none : progress.waiting = none) :
      Followed runtime [] (runtime.absorb serial object guest posted) := by
    refine .still host ?_
    rw [own, none, ← plain, ← before, Function.update_eq_self]
  have settled (result : Host × List Host.Event × Host.Outcome)
      (same : { runtime.guest object context with host := result.1 }.settleCall result.2.2 =
        (guest, progress))
      (polls : ∀ state, Beside runtime.host runtime.waiting state →
        ∃ action, Host.machine.step state action = some (state.resume serial result)) :
      Followed runtime result.2.1 (runtime.absorb serial object guest posted) := by
    have host := (settleCall_host { runtime.guest object context with host := result.1 } result.2.2).1
    have waits := settleCall_waiting { runtime.guest object context with host := result.1 } result.2.2
    rw [same] at host waits
    have leads := Leads.resume polls
    rwa [← waits, ← own, show result.1 = _ from host.symm] at leads
  cases future with
  | sleep ms | yield =>
    simp only [pollPosted] at polled
    split_ifs at polled <;>
      · obtain ⟨rfl, rfl, rfl⟩ := polled
        exact quiet rfl rfl rfl
  | event ms =>
    simp only [pollPosted] at polled
    split at polled
    · rename_i event mailbox taken
      cases polled
      have kept := (insert_spec { runtime.guest object context with mailbox, wait := .none }
        (.json event)).2.2.1
      exact quiet rfl kept rfl
    · split_ifs at polled <;>
        · cases polled
          exact quiet rfl rfl rfl
  | call capability arguments ms =>
    simp only [pollPosted, Prod.mk.injEq] at polled
    obtain ⟨rfl, rfl, rfl⟩ := polled
    refine settled _ rfl fun state beside => ⟨.call serial context.id capability arguments
      (timeoutMs ms) ready.clock.unix ready.elapsed, ?_⟩
    have free : serial ∉ state.calls := by
      rw [← AList.lookup_eq_none, beside.calls, before]
      rfl
    simp only [Host.machine, Host.State.perform, if_neg free, beside.host]
    rfl
  | calling call =>
    simp only [pollPosted, Prod.mk.injEq] at polled
    obtain ⟨rfl, rfl, rfl⟩ := polled
    refine settled _ rfl fun state beside => ⟨.poll serial ready.space ready.elapsed, ?_⟩
    have waits : state.calls.lookup serial = some call := (beside.calls serial).trans before
    simp only [Host.machine, Host.State.perform, waits, beside.host]
    rfl

/-- What the host does of itself. -/
theorem followed_hostMoved {host : Host} {events : List Host.Event}
    (moved : HostMoved runtime.host events host) : Followed runtime events { runtime with host } := by
  cases moved with
  | response frame =>
    exact .aside (.response frame) fun state same => by simp [Host.State.perform, same]
  | next taken =>
    exact .aside .next fun state same => by simp [Host.State.perform, same, taken]
  | close => exact .aside .close fun state same => by simp [Host.State.perform, same]
  | @control value plain =>
    exact .aside (.control value) fun state same => by
      simp [Host.State.perform, same, Host.foreign, plain]

/-- A helper speaks to the host through its log only. -/
theorem followed_helper {context : GuestContext} {scope : Scope} {call : HelperCall} {guest : Guest}
    {reply : Reply} (found : runtime.heap.lookup serial = some object)
    (task : object.task = .running context none)
    (invoked : (runtime.guest object context).invoke scope call = (guest, reply)) :
    Followed runtime [] (runtime.absorb serial object guest reply.future) := by
  have idle : object.waiting = none := by
    rw [waiting_running task]
    rfl
  have unposted (answered : ∀ future, reply ≠ .posted future) : reply.future = none := by
    cases reply with
    | posted future => exact absurd rfl (answered future)
    | _ => rfl
  have spec := invoke_spec (runtime.guest object context) scope call
  rw [invoked] at spec
  cases spec with
  | table same mailbox host wait answered =>
    refine .keep found rfl host ?_
    rw [idle, waiting_running rfl, unposted answered]
    rfl
  | @log after reply message same mailbox host wait answered =>
    have kept : (runtime.absorb serial object guest reply.future).waiting = runtime.waiting := by
      rw [waiting_of_insert rfl, waiting_running rfl, unposted answered]
      change Function.update runtime.waiting serial none = _
      rw [← idle, ← waiting_of_lookup found, Function.update_eq_self]
    rw [Followed, kept]
    refine .aside (.data context.id (logNotice context.id message)) fun state same => ?_
    have silent : (logNotice context.id message).get "id" = none := by
      simp [logNotice, List.lookup]
    simp only [Host.State.perform, foreign_logNotice, silent, and_self, if_true, same]
    exact congrArg (fun host => some ({ state with host }, [])) host.symm
  | @posted wait future kind =>
    refine .keep found rfl rfl ?_
    rw [idle, waiting_running rfl]
    cases future with
    | calling call => simp at kind
    | _ => rfl

/-- A dropped run gives up the call it waits for. -/
theorem leads_dropRun (context : GuestContext) (posted : Option Posted)
    (waits : runtime.waiting serial = posted.bind Posted.waiting) :
    Leads runtime.host runtime.waiting ((runtime.guest object context).dropRun posted).2
      ((runtime.guest object context).dropRun posted).1.host
      (Function.update runtime.waiting serial none) := by
  have idle (none : posted.bind Posted.waiting = none) :
      Leads runtime.host runtime.waiting [] runtime.host
        (Function.update runtime.waiting serial Option.none) := by
    rw [← none, ← waits, Function.update_eq_self]
    exact .refl _ _
  cases posted with
  | none => exact idle rfl
  | some future =>
    cases future with
    | calling call => exact .drop waits
    | _ => exact idle rfl

/-- The end of a run gives up its call, then the rest that the object has with the
host, and tells the embedder. -/
theorem followed_finish {current : Object} {context : GuestContext} {posted : Option Posted}
    {result : Option (Except String Int)} (found : runtime.heap.lookup serial = some object)
    (ending : Ending object result current context posted) (order : List String) :
    Followed runtime (hosted (runtime.finish serial current context posted result order).2)
      (runtime.finish serial current context posted result order).1 := by
  have waits : runtime.waiting serial = posted.bind Posted.waiting := by
    rw [waiting_of_lookup found]
    cases ending with
    | running task => exact waiting_running task
    | spawned clock task =>
      rw [Object.waiting, task]
      rfl
  have dropped := @leads_dropRun runtime serial current context posted waits
  have left : (runtime.finish serial current context posted result order).1.waiting =
      Function.update runtime.waiting serial none := by
    have heap : (runtime.finish serial current context posted result order).1.heap =
        runtime.heap.insert serial
          (current.settle result ((runtime.guest current context).dropRun posted).1.mailbox) := rfl
    rw [waiting_of_insert heap, Object.waiting, settle_task]
  rw [Followed, left, finish_eq, hosted_host]
  refine dropped.trans ?_
  rw [← List.append_nil (cleanHost _ _ _).2]
  exact (Leads.cleanHost _ current.id order).trans (.control _ (foreign_stateNotice _))

/-- Every move of the runtime is a few steps of the host. -/
theorem Move.followed (move : Move runtime more after) (sound : Sound runtime) :
    Followed runtime (hosted more) after := by
  cases move with
  | respond | issue | forget | park | unpark | clear | absent => exact .still rfl (waiting_of_heap rfl)
  | @bind request load waits =>
    refine .still rfl ?_
    have fresh : runtime.waiting load.serial = none := by
      rw [waiting, AList.lookup_eq_none.mpr (sound.loading waits).2]
      rfl
    have heap : (runtime.finishLoad request load (.ok true)).1.heap = runtime.heap.insert load.serial
        { id := objectId load.serial, hash := load.hash, config := load.config
          capabilities := load.capabilities } := rfl
    rw [waiting_of_insert heap, Function.update_eq_self_iff, fresh]
    rfl
  | @tend serial object next events found tended =>
    rw [hosted_tended tended]
    refine .keep found rfl rfl ?_
    rcases tended_task tended with same | ⟨loaded, spawned⟩ | ⟨clock, fresh⟩
    · rw [Object.waiting, Object.waiting, same]
    · rw [Object.waiting, Object.waiting, spawned, ((sound.object found).1.loaded loaded).1]
    · have free := tended_guard tended (sound.object found).1
      rw [guard_running fresh] at free
      rw [waiting_running fresh, waiting_of_guard free.symm]
      rfl
  | @settle serial object found released unload order =>
    have trace : hosted (runtime.finishStop object unload order).2 =
        (cleanHost runtime.host object.id order).2 := by
      rw [Runtime.finishStop, hosted_append, hosted_host]
      exact List.append_nil _
    rw [trace, Followed, @waiting_of_heap runtime _ rfl]
    exact .cleanHost runtime.host object.id order
  | host moved =>
    rw [hosted_host]
    exact followed_hostMoved moved
  | helper found task invoked => exact followed_helper found task invoked
  | stay found task polled =>
    rw [hosted_host]
    exact followed_pollPosted found task polled rfl
  | @complete serial object context ready future guest first word envelope found task polled =>
    have silent : hosted (.completed serial future word ::
        handed serial (runtime.guest object context) word envelope) = [] := hosted_handed ..
    rw [hosted_append, silent, List.append_nil, hosted_host]
    exact followed_pollPosted found task polled rfl
  | finish found ending order => exact followed_finish found ending order

/-- Moves of the runtime are a run of the host's machine. -/
theorem Moves.followed (moves : Moves runtime more after) :
    Sound runtime → Followed runtime (hosted more) after := by
  induction moves with
  | refl =>
    intro _
    exact .refl _ _
  | head move rest ih =>
    intro sound
    rw [hosted_append]
    exact (move.followed sound).trans (ih (sound.move move))

/-- What the host knows of an event of the runtime. -/
def hostEvent : Event → Option Host.Event
  | .host event => some event
  | _ => none

theorem hosted_eq_filterMap (events : List Event) : hosted events = events.filterMap hostEvent := rfl

/-- The runtime is simulated by its host. -/
theorem simulation :
    Forward machine Host.machine (fun runtime state => Beside runtime.host runtime.waiting state)
      hostEvent some where
  initial := by
    rintro runtime ⟨session, rfl⟩
    exact ⟨{ host := { session } }, ⟨session, rfl⟩, rfl, fun _ => rfl⟩
  step := by
    rintro runtime state action next events ⟨history, execution⟩ beside taken
    have sound := sound_of_reachable execution
    simp only [machine, Option.ite_none_left_eq_some] at taken
    obtain ⟨after, steps, still⟩ := (perform_moves sound taken.2).followed sound state beside
    exact ⟨_, after, steps, still, List.filterMap_some⟩

section Silence

variable {events : List Event}

/-- The events hand nothing over to the writer. -/
def Withheld (events : List Event) : Prop := (hosted events).filterMap Host.emittedFrame = []

/-- Stretches that hand nothing over hand nothing over together. -/
theorem Withheld.append {first second : List Event} (front : Withheld first) (back : Withheld second) :
    Withheld (first ++ second) := by
  rw [Withheld, hosted_append, List.filterMap_append, front, back]
  rfl

/-- Events about calls hand nothing over. -/
theorem withheld_host {events : List Host.Event} (busy : Host.Busy events) :
    Withheld (events.map .host) := by
  rw [Withheld, hosted_host]
  exact Host.emittedFrame_of_busy busy

/-- The end of a task hands nothing over. -/
theorem withheld_finish (runtime : Runtime) (serial : Nat) (current : Object) (context : GuestContext)
    (posted : Option Posted) (result : Option (Except String Int)) (order : List String) :
    Withheld (runtime.finish serial current context posted result order).2 := by
  rw [finish_eq]
  refine withheld_host (Host.Busy.append ?_ (Host.busy_cancelObject _ current.id order))
  have idle : Host.Busy [] := by simp [Host.Busy]
  cases posted with
  | none => exact idle
  | some future =>
    cases future with
    | calling call =>
      have dropped : Host.Busy [.dropped call.guard.id] := .one (by simp [Host.Event.subject])
      exact (Host.dropGuard_spec runtime.host call.guard).busy.append dropped
    | _ => exact idle

/-- The beginning of a load hands nothing over. -/
theorem withheld_load (request : Nat) (hash : String) (config : Value)
    (capabilities : List Capability) :
    Withheld (runtime.load request hash config capabilities).2 := by
  unfold Runtime.load
  split_ifs <;> rfl

/-- The end of a load hands nothing over. -/
theorem withheld_finishLoad (request : Nat) (load : Load) (result : Except String Bool) :
    Withheld (runtime.finishLoad request load result).2 := by
  rcases result with error | main
  · rfl
  · cases main <;> rfl

/-- A start hands nothing over. -/
theorem withheld_start (id : String) : Withheld (runtime.start id).2 := by
  unfold Runtime.start
  split
  · rfl
  · split_ifs <;> rfl

/-- A delivery hands nothing over. -/
theorem withheld_deliver (id eventId topic : String) (payload : Value) :
    Withheld (runtime.deliver id eventId topic payload).2 := by
  unfold Runtime.deliver
  split
  · rfl
  · split
    · rfl
    · refine .append ?_ rfl
      split_ifs <;> rfl

/-- A shutdown hands nothing over. -/
theorem withheld_shutdownFrom (runtime : Runtime) (request : Nat) (serials : List Nat) :
    Withheld (runtime.shutdownFrom request serials).2 := by
  induction serials generalizing runtime with
  | nil => rfl
  | cons serial rest ih =>
    unfold shutdownFrom
    split
    · exact ih runtime
    · split
      · rfl
      · exact ih _

/-- A stop that goes on hands nothing over. -/
theorem withheld_proceed (request : Nat) (purpose : Purpose) (order : List String)
    (result : Object × Option Object.StopPhase) :
    Withheld (runtime.proceed request serial purpose order result).2 := by
  obtain ⟨object, _ | phase⟩ := result
  · cases purpose with
    | request unload => exact (withheld_host (Host.busy_cancelObject _ object.id order)).append rfl
    | shutdown rest => exact withheld_shutdownFrom _ request rest
  · rfl

theorem withheld_pollPosted (guest : Guest) (ready : Ready) (future : Posted)
    (own : ∀ call, future = .calling call → call.Sound) :
    Host.Busy (guest.pollPosted ready future).2.1 := by
  have spec := conversed guest ready future own
  generalize guest.pollPosted ready future = result at spec ⊢
  cases spec with
  | quiet => simp [Host.Busy]
  | started started => exact started.busy
  | polled served => exact served.busy

/-- A turn of a guest hands nothing over. -/
theorem withheld_turn {context : GuestContext} {posted : Option Posted} {order : List String}
    {turn : Turn} (own : ∀ call, posted = some (.calling call) → call.Sound)
    (taken : runtime.turn serial object context posted order turn = some (after, more)) :
    Withheld more := by
  cases turn with
  | idle =>
    cases Option.some.inj taken
    rfl
  | helper call scope =>
    cases posted with
    | some future => cases taken
    | none =>
      cases Option.some.inj taken
      rfl
  | resume ready =>
    cases posted with
    | none => cases taken
    | some future =>
      have busy := withheld_pollPosted (runtime.guest object context) ready future fun call same =>
        own call (congrArg some same)
      simp only [Runtime.turn] at taken
      generalize (runtime.guest object context).pollPosted ready future = result at taken busy
      obtain ⟨guest, first, next | ⟨word, envelope⟩⟩ := result
      · cases Option.some.inj taken
        exact withheld_host busy
      · cases Option.some.inj taken
        have silent : Withheld (.completed serial future word ::
            handed serial (runtime.guest object context) word envelope) := by
          rw [Withheld]
          exact congrArg (List.filterMap Host.emittedFrame) (hosted_handed ..)
        exact (withheld_host busy).append silent
  | finish result =>
    have silent := withheld_finish runtime serial object context posted (some result) order
    rwa [Option.some.inj taken] at silent

/-- A poll of an object's task hands nothing over. -/
theorem withheld_pollTask (consistent : Consistent events runtime) {turn : Turn} {clock : Clock}
    {order : List String}
    (taken : runtime.pollTask serial turn clock order = some (after, more)) : Withheld more := by
  simp only [Runtime.pollTask, Option.bind_eq_some_iff] at taken
  obtain ⟨object, found, taken⟩ := taken
  cases task : object.task with
  | none | finished => simp [task] at taken
  | spawned =>
    simp only [task] at taken
    split_ifs at taken
    · have silent := withheld_finish runtime serial (object.begin clock)
        (.new object.id object.config object.capabilities clock) none none order
      rwa [Option.some.inj taken] at silent
    · obtain ⟨⟨last, later⟩, turned, same⟩ := Option.map_eq_some_iff.mp taken
      cases same
      have silent : Withheld later := withheld_turn (by rintro call ⟨⟩) turned
      have invoked : Withheld [.invoked serial] := rfl
      exact invoked.append silent
  | running context posted =>
    simp only [task] at taken
    split_ifs at taken
    · have silent := withheld_finish runtime serial object context posted none order
      rwa [Option.some.inj taken] at silent
    · refine withheld_turn ?_ taken
      rintro call rfl
      exact (consistent.sound found task).1

/-- Only the writer takes frames out of the outbox. -/
theorem withheld_perform (consistent : Consistent events runtime) {action : Action}
    (other : action ≠ .next) (taken : runtime.perform action = some (after, more)) :
    Withheld more := by
  cases action with
  | load request hash config capabilities =>
    simp only [perform, Option.ite_none_left_eq_some] at taken
    have silent := @withheld_load runtime request hash config capabilities
    rwa [Option.some.inj taken.2] at silent
  | loaded request result =>
    obtain ⟨load, -, same⟩ := Option.map_eq_some_iff.mp taken
    have silent := @withheld_finishLoad runtime request load result
    rwa [same] at silent
  | start id =>
    have silent := @withheld_start runtime id
    rwa [Option.some.inj taken] at silent
  | stop request id unload order =>
    simp only [perform, Option.ite_none_left_eq_some] at taken
    have same := Option.some.inj taken.2
    unfold Runtime.stop at same
    split at same
    · cases same
      split_ifs <;> rfl
    · rename_i serial object _
      have silent := @withheld_proceed runtime serial request (.request unload) order object.stop
      rwa [same] at silent
  | shutdown request =>
    simp only [perform, Option.ite_none_left_eq_some] at taken
    have same := Option.some.inj taken.2
    unfold Runtime.shutdown at same
    have silent := withheld_shutdownFrom (runtime.cancelAll runtime.ordered) request
      runtime.ordered
    rwa [same] at silent
  | pollStop request order =>
    simp only [perform, Option.bind_eq_some_iff, Option.map_eq_some_iff] at taken
    obtain ⟨call, -, object, -, same⟩ := taken
    have silent := @withheld_proceed runtime call.object request call.purpose order
      (object.pollStop call.phase)
    rwa [same] at silent
  | deliver id eventId topic payload =>
    have silent := @withheld_deliver runtime id eventId topic payload
    rwa [Option.some.inj taken] at silent
  | response frame =>
    simp only [perform, Option.some.injEq, Prod.mk.injEq] at taken
    rw [← taken.2, Withheld, hosted_host]
    rcases runtime.host.response_eq frame with ⟨id, -, -, same⟩ | ⟨-, same⟩ <;>
      · rw [same]
        rfl
  | poll serial turn clock order => exact withheld_pollTask consistent taken
  | next => exact absurd rfl other
  | control value =>
    simp only [perform, Option.ite_none_right_eq_some] at taken
    cases Option.some.inj taken.2
    rfl
  | dropLoad | dropStop | status | close =>
    cases Option.some.inj taken
    rfl

end Silence

section Mailboxes

variable {events : List Event}

/-- Some run of the mailbox's machine ends here. -/
abbrev Attained (mailbox : Mailbox) : Prop := Mailbox.machine.Reachable mailbox

/-- A mailbox goes from states that its machine reaches to such states. -/
theorem attained_perform {mailbox : Mailbox} (attained : Attained mailbox) (action : Mailbox.Action) :
    Attained (mailbox.perform action).1 := by
  obtain ⟨history, execution⟩ := attained
  exact ⟨_, execution.step (show Mailbox.machine.step mailbox action = some (_, _) from rfl)⟩

/-- The end of a stop leaves the mailbox in a state that its machine reaches. -/
theorem attained_join (attained : Attained object.mailbox) : Attained object.join.1.mailbox := by
  rcases object.join_spec with ⟨-, same⟩ | ⟨-, same⟩
  · rw [same]
    exact attained
  · rw [same]
    exact attained_perform attained .clear

/-- What is done to an object from outside is a run of its mailbox. -/
theorem attained_tended (tended : Object.Tended serial object events next)
    (attained : Attained object.mailbox) : Attained next.mailbox := by
  cases tended with
  | start | cancel | begin => exact attained
  | stop =>
    rcases object.stop_spec with ⟨-, same⟩ | ⟨-, same⟩ | ⟨-, same⟩
    · rw [same]
      exact attained_join attained
    · rw [same]
      exact attained
    · rw [same]
      exact attained_join attained
  | pollStop fits =>
    rcases Object.pollStop_spec fits with ⟨same, -⟩ | ⟨-, same | same⟩
    · rw [same]
      exact attained
    · rw [same]
      exact attained_join attained
    · rw [same]
      exact attained_perform attained .clear
  | deliver event =>
    have delivered := attained_perform attained (.deliver event)
    unfold Object.deliver
    split
    · exact delivered
    · exact delivered
    · exact delivered
    · exact attained

/-- A call that ends is nothing to the mailbox. -/
theorem attained_settleCall {guest : Guest} (outcome : Host.Outcome)
    (attained : Attained guest.mailbox) : Attained (guest.settleCall outcome).1.mailbox := by
  rcases outcome with (status | value) | call
  · exact attained
  · have same := (insert_spec { guest with wait := .none } (.json value)).2.1
    exact same ▸ attained
  · exact attained

/-- A poll of a future polls the mailbox at most. -/
theorem attained_pollPosted {guest : Guest} (ready : Ready) (future : Posted)
    (attained : Attained guest.mailbox) : Attained (guest.pollPosted ready future).1.mailbox := by
  cases future with
  | sleep | yield =>
    unfold pollPosted
    split_ifs <;> exact attained
  | event ms =>
    have polled := attained_perform attained (.poll ready.elapsed)
    simp only [Mailbox.perform, Mailbox.poll] at polled
    simp only [pollPosted]
    split
    · rename_i event mailbox received
      rw [received] at polled
      rw [(insert_spec { guest with mailbox, wait := .none } (.json event)).2.1]
      exact polled
    · rename_i mailbox empty
      rw [empty] at polled
      split_ifs at polled ⊢ <;> exact polled
  | call capability arguments ms => exact attained_settleCall _ attained
  | calling call => exact attained_settleCall _ attained

/-- Dropping a run is a run of the mailbox. -/
theorem attained_dropRun {guest : Guest} (posted : Option Posted) (attained : Attained guest.mailbox) :
    Attained (guest.dropRun posted).1.mailbox := by
  cases posted with
  | none => exact attained
  | some future =>
    cases future with
    | event ms => exact attained_perform attained .drop
    | _ => exact attained

/-- A move keeps the mailboxes of all objects in their runs. -/
theorem Move.attained (move : Move runtime more after)
    (attained : ∀ {serial object}, runtime.heap.lookup serial = some object → Attained object.mailbox)
    (stored : after.heap.lookup serial = some object) : Attained object.mailbox := by
  have absorbed {number : Nat} {old : Object} {guest : Guest} {posted : Option Posted}
      (own : Attained guest.mailbox)
      (stored : (runtime.absorb number old guest posted).heap.lookup serial = some object) :
      Attained object.mailbox := by
    obtain ⟨rfl, rfl⟩ | ⟨-, found⟩ := Map.lookup_insert_eq_some stored
    · exact own
    · exact attained found
  cases move with
  | respond | issue | forget | park | unpark | clear | absent | settle | host => exact attained stored
  | bind =>
    obtain ⟨rfl, rfl⟩ | ⟨-, found⟩ := Map.lookup_insert_eq_some stored
    · exact ⟨[], .initial rfl⟩
    · exact attained found
  | tend found tended =>
    obtain ⟨rfl, rfl⟩ | ⟨-, old⟩ := Map.lookup_insert_eq_some stored
    · exact attained_tended tended (attained found)
    · exact attained old
  | @helper number old context scope call guest reply found task invoked =>
    have spec := invoke_spec (runtime.guest old context) scope call
    rw [invoked] at spec
    refine absorbed ?_ stored
    cases spec with
    | table _ mailbox | log _ mailbox =>
      rw [mailbox]
      exact attained found
    | posted => exact attained found
  | @stay number old context ready future next guest first found task polled =>
    have own : Attained (runtime.guest old context).mailbox := attained found
    have polls := attained_pollPosted ready future own
    rw [polled] at polls
    exact absorbed polls stored
  | @complete number old context ready future guest first word envelope found task polled =>
    have own : Attained (runtime.guest old context).mailbox := attained found
    have polls := attained_pollPosted ready future own
    rw [polled] at polls
    exact absorbed polls stored
  | @finish number old current context posted result found ending order =>
    have own : Attained (runtime.guest current context).mailbox := by
      have before : Attained old.mailbox := attained found
      cases ending with
      | running => exact before
      | spawned => exact before
    rw [finish_eq] at stored
    obtain ⟨rfl, rfl⟩ | ⟨-, old⟩ := Map.lookup_insert_eq_some stored
    · exact attained_perform (attained_dropRun posted own) .clear
    · exact attained old

/-- In every run each mailbox is in a state that its machine reaches. -/
theorem attained_of_execution {history : List (Transition Runtime Action Event)}
    (execution : machine.Execution history runtime)
    (found : runtime.heap.lookup serial = some object) : Attained object.mailbox := by
  refine invariant_of_moves (fun _ runtime => ∀ serial object,
      runtime.heap.lookup serial = some object → Attained object.mailbox)
    ?_ ?_ execution serial object found
  · rintro session serial object ⟨⟩
  · intro _ runtime more after _ attained move serial object stored
    exact move.attained (fun found => attained _ _ found) stored

end Mailboxes

end Runtime

end Spinfoam
