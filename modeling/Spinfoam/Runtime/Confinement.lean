import Spinfoam.Guest.Atomicity
import Spinfoam.Runtime.Traffic

/-!
# Confinement

A request in the outbox is one that the guest of its object has made with a helper
call, with the arguments as they were at that moment, and one entry of the
object's own list of capabilities grants it.
-/

namespace Spinfoam

open Spinfoam.Json Spinfoam.Std Spinfoam.Outbox Spinfoam.Guest Spinfoam.Semantics

/-- One entry of the object's list grants the capability with these arguments. -/
def Object.Grants (object : Object) (capability : String) (arguments : Value) : Prop :=
  ∃ entry ∈ object.capabilities, entry.permits capability arguments = true

/-- The future is a host call. -/
def Guest.Posted.calls : Posted → Bool
  | .call _ _ _ | .calling _ => true
  | _ => false

namespace Runtime

variable {runtime after : Runtime} {events more : List Event} {serial : Nat} {object : Object}

/-- The frame is the request of a call that the guest of this object was allowed to
make, when it asked for it. -/
inductive Requested (events : List Event) (runtime : Runtime) (serial : Nat) (frame : Frame) :
    Prop where
  | of {object : Object} {call : HelperCall} {capability : String} {arguments : Value}
      {ms now : Nat} {id : String} (found : runtime.heap.lookup serial = some object)
      (asked : .replied serial call (.posted (.call capability arguments ms)) ∈ events)
      (grants : object.Grants capability arguments)
      (value : frame.value = Host.request id object.id capability arguments (timeoutMs ms) now) :
      Requested events runtime serial frame

section Identity

/-- An object that has been loaded stays, with its id and its list. -/
theorem Move.identity (move : Move runtime more after) (sound : Sound runtime)
    (found : runtime.heap.lookup serial = some object) :
    ∃ next, after.heap.lookup serial = some next ∧ next.id = object.id ∧
      next.capabilities = object.capabilities := by
  have member : serial ∈ after.heap := move.known (Map.mem_of_lookup found)
  obtain ⟨next, stored⟩ := Option.isSome_iff_exists.mp (AList.lookup_isSome.mpr member)
  refine ⟨next, stored, ?_⟩
  cases move.became stored with
  | same old =>
    obtain rfl := Option.some.inj (found.symm.trans old)
    exact ⟨rfl, rfl⟩
  | loaded waiting number =>
    have unused := (sound.loading waiting).2
    rw [number] at unused
    exact absurd (Map.mem_of_lookup found) unused
  | tended old tended =>
    obtain rfl := Option.some.inj (found.symm.trans old)
    exact tended.same
  | worked old =>
    obtain rfl := Option.some.inj (found.symm.trans old)
    exact ⟨rfl, rfl⟩
  | finished old ending =>
    obtain rfl := Option.some.inj (found.symm.trans old)
    rw [Object.settle_id, Object.settle_capabilities]
    cases ending <;> exact ⟨rfl, rfl⟩

theorem Requested.move {frame : Frame} (requested : Requested events runtime serial frame)
    (move : Move runtime more after) (sound : Sound runtime) :
    Requested (events ++ more) after serial frame := by
  obtain ⟨found, asked, ⟨entry, listed, permits⟩, value⟩ := requested
  obtain ⟨next, stored, id, capabilities⟩ := move.identity sound found
  refine .of stored (List.mem_append_left _ asked) ⟨entry, ?_, permits⟩ (id ▸ value)
  rwa [capabilities]

end Identity

/-- Whatever is on its way from a guest to the embedder was asked for and granted. -/
structure Confined (events : List Event) (runtime : Runtime) : Prop where
  posted : ∀ {serial object context capability arguments ms},
    runtime.heap.lookup serial = some object →
    object.task = .running context (some (.call capability arguments ms)) →
    object.Grants capability arguments ∧
      ∃ call, .replied serial call (.posted (.call capability arguments ms)) ∈ events
  sending : ∀ {serial object context call entry}, runtime.heap.lookup serial = some object →
    object.task = .running context (some (.calling call)) → call.phase = .sending entry →
    Requested events runtime serial entry.frame
  queued : ∀ {id frame}, .host (.queued id frame) ∈ events →
    ∃ serial, Requested events runtime serial frame
  lane : ∀ {lane entry}, entry ∈ runtime.host.out.lane lane →
    entry.frame.value.get "method" = some (.string "host.call") →
    ∃ serial, lane = .object (objectId serial) ∧ Requested events runtime serial entry.frame

section Moves

/-- A request that a guest tries to queue has been asked for and granted. -/
theorem Confined.sends (confined : Confined events runtime) (sound : Sound runtime)
    {entry : DataFrame} (sends : runtime.Sends serial entry) :
    Requested events runtime serial entry.frame := by
  obtain ⟨object, context, future, ready, found, task, posts⟩ := sends
  cases future with
  | call capability arguments ms =>
    obtain ⟨grants, call, asked⟩ := confined.posted found task
    have name : (runtime.guest object context).context.id = object.id :=
      ((sound.object found).1.context task).1
    have value := posts.1
    rw [name] at value
    exact .of found asked grants value
  | calling call => exact confined.sending found task posts
  | _ => cases posts

/-- What is shipped as a host call is such a request. -/
theorem Confined.ships (confined : Confined events runtime) (sound : Sound runtime) {lane : Lane}
    {entry : DataFrame} (ships : runtime.Ships lane entry)
    (method : entry.frame.value.get "method" = some (.string "host.call")) :
    ∃ serial, lane = .object (objectId serial) ∧
      Requested events runtime serial entry.frame := by
  obtain ⟨serial, object, found, -, rfl, message | sends⟩ := ships
  · obtain ⟨text, notice⟩ := message.notice
    rw [notice] at method
    simp [logNotice, List.lookup] at method
  · exact ⟨serial, congrArg _ (sound.object found).2, confined.sends sound sends⟩

/-- No poll leaves a call that has not been started. -/
theorem pollPosted_ne_call {guest next : Guest} {ready : Ready} {future : Posted}
    {first : List Host.Event} {capability : String} {arguments : Value} {ms : Nat} :
    guest.pollPosted ready future ≠ (next, first, .pending (.call capability arguments ms)) := by
  have settled : ∀ (guest : Guest) (outcome : Host.Outcome),
      (guest.settleCall outcome).2 ≠ .pending (.call capability arguments ms) := by
    intro guest outcome
    obtain (status | value) | call := outcome <;> simp [Guest.settleCall]
  intro polled
  have last := congrArg (fun result => result.2.2) polled
  cases future with
  | sleep | yield =>
    simp only [Guest.pollPosted] at last
    split_ifs at last
    cases last
  | event =>
    simp only [Guest.pollPosted] at last
    split at last
    · cases last
    · split_ifs at last
      cases last
  | call | calling =>
    simp only [Guest.pollPosted] at last
    exact settled _ _ last

/-- A call that waits for its first poll was waiting before, or a helper call has just
posted it. -/
inductive Asking (runtime : Runtime) (events : List Event) (serial : Nat)
    (capabilities : List Capability) (context : GuestContext) (capability : String)
    (arguments : Value) (ms : Nat) : Prop where
  | waiting {object : Object} (found : runtime.heap.lookup serial = some object)
      (task : object.task = .running context (some (.call capability arguments ms)))
      (list : capabilities = object.capabilities) :
      Asking runtime events serial capabilities context capability arguments ms
  | posted {object : Object} {scope : Scope} {call : HelperCall}
      (found : runtime.heap.lookup serial = some object)
      (task : object.task = .running context none) (list : capabilities = object.capabilities)
      (granted : Guest.Granted (runtime.guest object context) scope call capability arguments ms)
      (replied : .replied serial call (.posted (.call capability arguments ms)) ∈ events) :
      Asking runtime events serial capabilities context capability arguments ms

theorem Move.asking (move : Move runtime more after) {context : GuestContext}
    {capability : String} {arguments : Value} {ms : Nat}
    (stored : after.heap.lookup serial = some object)
    (task : object.task = .running context (some (.call capability arguments ms))) :
    Asking runtime more serial object.capabilities context capability arguments ms := by
  cases move.became stored with
  | same found => exact .waiting found task rfl
  | loaded => cases task
  | tended found tended =>
    rcases tended_task tended with same | ⟨-, spawned⟩ | ⟨clock, fresh⟩
    · exact .waiting found (same.symm.trans task) tended.same.2
    · rw [spawned] at task
      cases task
    · rw [fresh] at task
      cases task
  | @worked old before _ next guest found running worked =>
    cases worked with
    | @helper scope call _ reply invoked =>
      have spec := invoke_spec (runtime.guest old before) scope call
      rw [invoked] at spec
      injection task with same posted
      cases spec with
      | table unchanged mailbox host wait answered | log unchanged mailbox host wait answered =>
        cases reply with
        | posted future => exact absurd rfl (answered future)
        | _ => cases posted
      | posted kind =>
        obtain rfl := Option.some.inj posted
        simp only [reduceCtorEq, exists_const, false_or, Posted.call.injEq] at kind
        obtain ⟨_, _, _, ⟨rfl, rfl, rfl⟩, granted⟩ := kind
        obtain rfl : before = context := same
        exact .posted found running rfl granted List.mem_cons_self
    | stay polled =>
      cases task
      exact absurd polled pollPosted_ne_call
    | complete => cases task
  | finished =>
    rw [settle_task] at task
    cases task

/-- Such a call has been asked for and granted. -/
theorem Confined.posted_move (confined : Confined events runtime) (sound : Sound runtime)
    (move : Move runtime more after) {context : GuestContext} {capability : String}
    {arguments : Value} {ms : Nat} (stored : after.heap.lookup serial = some object)
    (task : object.task = .running context (some (.call capability arguments ms))) :
    object.Grants capability arguments ∧
      ∃ call, .replied serial call (.posted (.call capability arguments ms)) ∈ events ++ more := by
  unfold Object.Grants
  cases move.asking stored task with
  | waiting found before list =>
    obtain ⟨grants, call, asked⟩ := confined.posted found before
    rw [list]
    exact ⟨grants, call, List.mem_append_left _ asked⟩
  | @posted old scope call found running list granted replied =>
    have own : context.capabilities = old.capabilities :=
      ((sound.object found).1.context running).2
    obtain ⟨entry, listed, permits⟩ := granted.permitted
    have known : entry ∈ context.capabilities := listed
    rw [own] at known
    rw [list]
    exact ⟨⟨entry, known, permits⟩, call, List.mem_append_right _ replied⟩

theorem Confined.move (confined : Confined events runtime) (sound : Sound runtime)
    (consistent : Consistent events runtime) (move : Move runtime more after) :
    Confined (events ++ more) after := by
  constructor
  case posted => exact fun stored task => confined.posted_move sound move stored task
  case sending =>
    intro serial object context call entry stored task phase
    have sends := move.sending sound consistent stored task phase
    exact (confined.sends sound sends).move move sound
  case queued =>
    intro id frame member
    rcases List.mem_append.mp member with old | new
    · obtain ⟨serial, requested⟩ := confined.queued old
      exact ⟨serial, requested.move move sound⟩
    · obtain ⟨serial, entry, sends, rfl⟩ := move.queued sound consistent new
      exact ⟨serial, (confined.sends sound sends).move move sound⟩
  case lane =>
    intro lane entry member method
    rcases move.carries sound consistent lane entry member with old | ships | ⟨-, silent⟩
    · obtain ⟨serial, place, requested⟩ := confined.lane old method
      exact ⟨serial, place, requested.move move sound⟩
    · obtain ⟨serial, place, requested⟩ := confined.ships sound ships method
      exact ⟨serial, place, requested.move move sound⟩
    · exact absurd (Or.inl method) silent

theorem confined_start (session : String) : Confined [] { host := { session } } where
  posted := by
    intro serial object context capability arguments ms found
    cases found
  sending := by
    intro serial object context call entry found
    cases found
  queued := by simp
  lane := by
    intro lane entry member
    cases lane <;> cases member

theorem confined_of_execution {history : List (Transition Runtime Action Event)}
    (execution : machine.Execution history runtime) : Confined (trace history) runtime := by
  refine (invariant_of_moves (fun events runtime => Consistent events runtime ∧
    Confined events runtime) ?_ ?_ execution).2
  · intro session
    exact ⟨consistent_start session, confined_start session⟩
  · rintro events runtime more after sound ⟨consistent, confined⟩ move
    exact ⟨consistent.move sound move, confined.move sound consistent move⟩

end Moves

section Steps

/-- The event comes from a guest that runs. -/
def Event.ofGuest : Event → Bool
  | .replied _ _ _ | .completed _ _ _ | .received _ _ _ => true
  | _ => false

/-- No guest runs. -/
def Mute (events : List Event) : Prop := ∀ event ∈ events, event.ofGuest = false

theorem mute_host (events : List Host.Event) : Mute (events.map .host) := by
  intro event member
  obtain ⟨inner, -, rfl⟩ := List.mem_map.mp member
  rfl

theorem mute_shutdownFrom (runtime : Runtime) (request : Nat) (serials : List Nat) :
    Mute (runtime.shutdownFrom request serials).2 := by
  induction serials generalizing runtime with
  | nil => simp [Mute, Event.ofGuest, shutdownFrom]
  | cons serial rest ih =>
    unfold shutdownFrom
    split
    · exact ih runtime
    · split
      · simp [Mute]
      · exact ih _

theorem mute_proceed (runtime : Runtime) (request serial : Nat) (purpose : Purpose)
    (order : List String) (result : Object × Option Object.StopPhase) :
    Mute (runtime.proceed request serial purpose order result).2 := by
  obtain ⟨object, _ | phase⟩ := result
  · cases purpose with
    | request unload =>
      intro event member
      rcases List.mem_append.mp member with host | rest
      · exact mute_host _ event host
      · simp only [List.mem_cons, List.not_mem_nil, or_false] at rest
        rcases rest with rfl | rfl <;> rfl
    | shutdown rest => exact mute_shutdownFrom _ request rest
  · simp [Mute, proceed]

/-- Guests run only in polls of the tasks of their objects. -/
theorem mute_or_poll {action : Action}
    (taken : machine.step runtime action = some (after, events)) :
    Mute events ∨ ∃ number turn clock order, action = .poll number turn clock order ∧
      runtime.pollTask number turn clock order = some (after, events) := by
  simp only [machine, Option.ite_none_left_eq_some] at taken
  replace taken := taken.2
  cases action with
  | poll number turn clock order => exact Or.inr ⟨number, turn, clock, order, rfl, taken⟩
  | load request hash config capabilities =>
    left
    simp only [perform, Option.ite_none_left_eq_some, Runtime.load] at taken
    split_ifs at taken <;>
      · obtain ⟨rfl, rfl⟩ := Prod.mk.inj (Option.some.inj taken.2)
        simp [Mute, Event.ofGuest]
  | loaded request result =>
    left
    simp only [perform, Option.map_eq_some_iff] at taken
    obtain ⟨load, -, same⟩ := taken
    rcases result with error | _ | _ <;>
      · obtain ⟨rfl, rfl⟩ := Prod.mk.inj same
        simp [Mute, Event.ofGuest]
  | start id =>
    left
    simp only [perform, Runtime.start] at taken
    split at taken
    · obtain ⟨rfl, rfl⟩ := Prod.mk.inj (Option.some.inj taken)
      simp [Mute, Event.ofGuest]
    · split_ifs at taken <;>
        · obtain ⟨rfl, rfl⟩ := Prod.mk.inj (Option.some.inj taken)
          simp [Mute, Event.ofGuest]
  | stop request id unload order =>
    left
    simp only [perform, Option.ite_none_left_eq_some, Runtime.stop] at taken
    obtain ⟨-, taken⟩ := taken
    split at taken
    · obtain ⟨rfl, rfl⟩ := Prod.mk.inj (Option.some.inj taken)
      split_ifs <;> simp [Mute, Event.ofGuest]
    · obtain ⟨rfl, rfl⟩ := Prod.mk.inj (Option.some.inj taken)
      exact mute_proceed _ _ _ _ _ _
  | shutdown request =>
    left
    simp only [perform, Option.ite_none_left_eq_some, Runtime.shutdown] at taken
    obtain ⟨rfl, rfl⟩ := Prod.mk.inj (Option.some.inj taken.2)
    exact mute_shutdownFrom _ _ _
  | pollStop request order =>
    left
    simp only [perform, Option.bind_eq_some_iff, Option.map_eq_some_iff] at taken
    obtain ⟨call, -, object, -, same⟩ := taken
    obtain ⟨rfl, rfl⟩ := Prod.mk.inj same
    exact mute_proceed _ _ _ _ _ _
  | deliver id eventId topic payload =>
    left
    simp only [perform, Runtime.deliver] at taken
    split_ifs at taken
    · obtain ⟨rfl, rfl⟩ := Prod.mk.inj (Option.some.inj taken)
      simp [Mute, Event.ofGuest]
    · split at taken
      · obtain ⟨rfl, rfl⟩ := Prod.mk.inj (Option.some.inj taken)
        simp [Mute, Event.ofGuest]
      · obtain ⟨rfl, rfl⟩ := Prod.mk.inj (Option.some.inj taken)
        split_ifs <;> simp [Mute, Event.ofGuest]
  | next =>
    left
    simp only [perform] at taken
    split at taken <;>
      · obtain ⟨rfl, rfl⟩ := Prod.mk.inj (Option.some.inj taken)
        simp [Mute, Event.ofGuest]
  | response frame =>
    obtain ⟨rfl, rfl⟩ := Prod.mk.inj (Option.some.inj taken)
    exact Or.inl (mute_host _)
  | control value =>
    left
    simp only [perform, Option.ite_none_right_eq_some] at taken
    obtain ⟨rfl, rfl⟩ := Prod.mk.inj (Option.some.inj taken.2)
    simp [Mute]
  | dropLoad | dropStop | status | close =>
    left
    obtain ⟨rfl, rfl⟩ := Prod.mk.inj (Option.some.inj taken)
    simp [Mute, Event.ofGuest]

/-- A helper of an object's guest answers in this step. The guest has run before or
has no handle yet. -/
structure Helped (runtime after : Runtime) (serial : Nat) (call : HelperCall) (reply : Reply) :
    Prop where
  of ::
  answered : ∃ object context scope guest next,
    runtime.heap.lookup serial = some object ∧
    (object.task = .running context none ∨ object.task = .spawned ∧ context.handles = ∅) ∧
    (runtime.guest object context).invoke scope call = (guest, reply) ∧
    after.host = guest.host ∧ after.heap.lookup serial = some next ∧
    next.task = .running guest.context reply.future
  others : ∀ other, other ≠ serial → after.heap.lookup other = runtime.heap.lookup other

/-- A turn in which a helper answers is a call of it. -/
theorem helped_turn {number : Nat} {current : Object} {context : GuestContext}
    {posted : Option Posted} {order : List String} {turn : Turn} {call : HelperCall}
    {reply : Reply}
    (taken : runtime.turn number current context posted order turn = some (after, events))
    (replied : .replied serial call reply ∈ events) :
    serial = number ∧ posted = none ∧ ∃ scope guest,
      (runtime.guest current context).invoke scope call = (guest, reply) ∧
      after = runtime.absorb number current guest reply.future := by
  cases turn with
  | idle =>
    obtain ⟨-, rfl⟩ := Prod.mk.inj (Option.some.inj taken)
    cases replied
  | helper made scope =>
    cases posted with
    | some future => cases taken
    | none =>
      obtain ⟨rfl, rfl⟩ := Prod.mk.inj (Option.some.inj taken)
      obtain ⟨rfl, rfl, rfl⟩ := Event.replied.inj (List.mem_singleton.mp replied)
      exact ⟨rfl, rfl, scope, _, rfl, rfl⟩
  | resume ready =>
    cases posted with
    | none => cases taken
    | some future =>
      simp only [Runtime.turn] at taken
      split at taken
      · obtain ⟨-, rfl⟩ := Prod.mk.inj (Option.some.inj taken)
        cases mute_host _ _ replied
      · obtain ⟨-, rfl⟩ := Prod.mk.inj (Option.some.inj taken)
        rcases List.mem_append.mp replied with host | rest
        · cases mute_host _ _ host
        · unfold handed at rest
          split at rest
          · split_ifs at rest <;> simp at rest
          · simp at rest
  | finish result =>
    obtain ⟨-, rfl⟩ := Prod.mk.inj (Option.some.inj taken)
    cases mute_host _ _ replied

/-- Helpers answer in polls of the task of their object. -/
theorem helped_pollTask {number : Nat} {turn : Turn} {clock : Clock} {order : List String}
    {call : HelperCall} {reply : Reply}
    (taken : runtime.pollTask number turn clock order = some (after, events))
    (replied : .replied serial call reply ∈ events) : Helped runtime after serial call reply := by
  simp only [Runtime.pollTask, Option.bind_eq_some_iff] at taken
  obtain ⟨object, found, taken⟩ := taken
  cases task : object.task with
  | none | finished => simp [task] at taken
  | spawned =>
    simp only [task] at taken
    split_ifs at taken
    · obtain ⟨-, rfl⟩ := Prod.mk.inj (Option.some.inj taken)
      cases mute_host _ _ replied
    · rw [Option.map_eq_some_iff] at taken
      obtain ⟨⟨last, later⟩, turned, same⟩ := taken
      obtain ⟨rfl, rfl⟩ := Prod.mk.inj same
      have spoken := (List.mem_cons.mp replied).resolve_left (by simp)
      obtain ⟨rfl, -, scope, guest, invoked, rfl⟩ := helped_turn turned spoken
      refine ⟨⟨object, _, scope, guest, _, found, Or.inr ⟨task, rfl⟩, invoked, rfl,
        AList.lookup_insert _, rfl⟩, ?_⟩
      intro other different
      exact (AList.lookup_insert_ne different).trans (AList.lookup_insert_ne different)
  | running context posted =>
    simp only [task] at taken
    split_ifs at taken
    · obtain ⟨-, rfl⟩ := Prod.mk.inj (Option.some.inj taken)
      cases mute_host _ _ replied
    · obtain ⟨rfl, rfl, scope, guest, invoked, rfl⟩ := helped_turn taken replied
      refine ⟨⟨object, context, scope, guest, _, found, Or.inl task, invoked, rfl,
        AList.lookup_insert _, rfl⟩, ?_⟩
      intro other different
      exact AList.lookup_insert_ne different

theorem helped_step {action : Action} {call : HelperCall} {reply : Reply}
    (taken : machine.step runtime action = some (after, events))
    (replied : .replied serial call reply ∈ events) : Helped runtime after serial call reply := by
  rcases mute_or_poll taken with mute | ⟨number, turn, clock, order, -, polled⟩
  · cases mute _ replied
  · exact helped_pollTask polled replied

end Steps

section Returns

/-- The statuses with which a call that has been let through may return. -/
def callStatuses : List Status := [.limit, .timeout, .hostError, .closed]

/-- A result that is no refusal of a helper. -/
def Usual (result : Host.Result) : Prop := ∀ status, result = .error status → status ∈ callStatuses

theorem usual_resultOf (frame : Value) : Usual (Host.resultOf frame) := by
  unfold Host.resultOf
  split
  · split_ifs
    · simp [Usual]
    · simp [Usual, callStatuses]
  · simp [Usual, callStatuses]

variable {host : Host}

/-- Every reply that waits for its call is usual. -/
theorem Consistent.usual (consistent : Consistent events runtime) {id : String}
    {result : Host.Result} (stored : runtime.host.replies.lookup id = some result) :
    Usual result := by
  rcases consistent.accounted.ledger.replied stored with rfl | ⟨frame, -, rfl⟩
  · simp [Usual, callStatuses]
  · exact usual_resultOf frame

/-- A call returns what has come as its reply, or that nothing has. -/
theorem usual_polled
    (replies : ∀ {id result}, host.replies.lookup id = some result → Usual result)
    {guard : Host.CallGuard} {sends : DataFrame → Prop}
    {result : Host × List Host.Event × Host.Outcome}
    (polled : Host.Polled guard sends host result) {outcome : Host.Result}
    (returned : result.2.2 = .ready outcome) : Usual outcome := by
  cases polled with
  | parked | queued | waiting => cases returned
  | returned withdrawn reply | queuedReturned sending withdrawn reply =>
    cases returned
    rcases reply with stored | rfl | rfl
    · exact replies stored
    · simp [Usual, callStatuses]
    · simp [Usual, callStatuses]

/-- The word that a guest gets for the result of its call. -/
inductive Answers : Host.Result → Nat → Prop where
  | status (status : Status) : Answers (.error status) status.word
  | full (value : Value) : Answers (.ok value) Status.limit.word
  | handle (value : Value) {word : Nat} (plain : ¬ Negative word) : Answers (.ok value) word

theorem settleCall_answers {guest next : Guest} {outcome : Host.Outcome} {word : Nat}
    {envelope : Option Value} (settled : guest.settleCall outcome = (next, .done word envelope)) :
    ∃ result, outcome = .ready result ∧ Answers result word := by
  obtain (status | value) | call := outcome
  · obtain ⟨rfl, -⟩ := Progress.done.inj (Prod.mk.inj settled).2
    exact ⟨_, rfl, .status status⟩
  · have given : (({ guest with wait := .none } : Guest).insert (.json value)).2 = word :=
      (Progress.done.inj (Prod.mk.inj settled).2).1
    refine ⟨_, rfl, ?_⟩
    obtain ⟨-, -, -, -, full, room⟩ := insert_spec { guest with wait := .none } (.json value)
    by_cases stuck : ({ guest with wait := .none } : Guest).Full
    · rw [← given, full stuck]
      exact .full value
    · rw [← given, room stuck]
      exact .handle value (not_negative_nextHandle stuck)
  · cases settled

/-- No call that has been let through is refused like a helper call. -/
theorem Answers.usual {result : Host.Result} {word : Nat} (answers : Answers result word)
    (usual : Usual result) : word ≠ Status.denied.word ∧ word ≠ Status.invalid.word := by
  have apart : ∀ status ∈ callStatuses, Status.word status ≠ Status.denied.word ∧
      Status.word status ≠ Status.invalid.word := by decide
  cases answers with
  | status status => exact apart status (usual status rfl)
  | full => exact apart Status.limit (by simp [callStatuses])
  | handle value plain =>
    refine ⟨?_, ?_⟩ <;>
      · rintro rfl
        exact plain (by decide)

/-- Only a closed call answers that it is closed. -/
theorem Answers.closed {result : Host.Result} (answers : Answers result Status.closed.word)
    (usual : Usual result) : result = .error Status.closed := by
  have apart : ∀ status ∈ callStatuses, Status.word status = Status.closed.word →
      status = Status.closed := by decide
  generalize same : Status.word Status.closed = word at answers
  cases answers with
  | status status => rw [apart status (usual status rfl) same.symm]
  | full => exact absurd same (by decide)
  | handle value plain => exact absurd (same ▸ by decide) plain

/-- A future completes in a poll of it. -/
theorem Move.completed (move : Move runtime more after) {future : Posted} {word : Nat}
    (completed : .completed serial future word ∈ more) :
    ∃ object context ready guest first envelope,
      runtime.heap.lookup serial = some object ∧ object.task = .running context (some future) ∧
      (runtime.guest object context).pollPosted ready future =
        (guest, first, .done word envelope) := by
  have spoken : ∀ {first : List Host.Event},
      Event.completed serial future word ∉ first.map Event.host := by
    intro first member
    obtain ⟨event, -, impossible⟩ := List.mem_map.mp member
    cases impossible
  cases move with
  | @complete number object context ready _ guest first _ envelope found task polled =>
    rcases List.mem_append.mp completed with host | rest
    · exact absurd host spoken
    · rcases List.mem_cons.mp rest with own | handedOver
      · obtain ⟨rfl, rfl, rfl⟩ := Event.completed.inj own
        exact ⟨object, context, ready, guest, first, envelope, found, task, polled⟩
      · unfold handed at handedOver
        split at handedOver
        · split_ifs at handedOver <;> simp at handedOver
        · cases handedOver
  | tend found tended =>
    cases tended with
    | deliver => split_ifs at completed <;> simp at completed
    | _ => simp at completed
  | settle =>
    rcases List.mem_append.mp completed with host | rest
    · exact absurd host spoken
    · simp at rest
  | host | stay | finish => exact absurd completed spoken
  | bind => simp [finishLoad] at completed
  | _ => simp at completed

/-- How the poll of a call ends the call. -/
inductive Ended (guest : Guest) (result : Host.Result) : Posted → Prop where
  | called {capability : String} {arguments : Value} {ms now : Nat} {elapsed : Bool}
      (returned : (guest.host.call guest.context.id capability arguments (timeoutMs ms) now
        elapsed).2.2 = .ready result) : Ended guest result (.call capability arguments ms)
  | polled {call : Host.Call} {space elapsed : Bool}
      (returned : (guest.host.poll call space elapsed).2.2 = .ready result) :
      Ended guest result (.calling call)

/-- A call that completes has returned a result. -/
theorem Move.ended (move : Move runtime more after) (consistent : Consistent events runtime)
    {future : Posted} {word : Nat} (calls : future.calls = true)
    (completed : .completed serial future word ∈ more) :
    ∃ object context result, runtime.heap.lookup serial = some object ∧
      object.task = .running context (some future) ∧
      Ended (runtime.guest object context) result future ∧ Usual result ∧ Answers result word := by
  obtain ⟨object, context, ready, guest, first, envelope, found, task, polled⟩ :=
    move.completed completed
  refine ⟨object, context, ?_⟩
  cases future with
  | call capability arguments ms =>
    have started := Host.call_spec (runtime.guest object context).host
      (runtime.guest object context).context.id capability arguments (timeoutMs ms)
      ready.clock.unix ready.elapsed
    simp only [Guest.pollPosted] at polled
    generalize reached : (runtime.guest object context).host.call _ _ _ _ _ _ = outcome
      at started polled
    obtain ⟨one, two⟩ := Prod.mk.inj polled
    obtain ⟨result, returned, answers⟩ := settleCall_answers (Prod.ext one (Prod.mk.inj two).2)
    refine ⟨result, found, task, .called (reached ▸ returned), ?_, answers⟩
    cases started with
    | refused =>
      cases returned
      simp [Usual, callStatuses]
    | @registered later waiting =>
      have replies : ∀ {id result}, ((runtime.guest object context).host.register
          (runtime.guest object context).context.id).replies.lookup id = some result →
          Usual result := fun stored => consistent.usual stored
      have same : later.2.2 = .ready result := returned
      exact usual_polled replies waiting same
  | calling call =>
    have spec := Host.poll_spec (runtime.guest object context).host
      (consistent.sound found task).1 ready.space ready.elapsed
    simp only [Guest.pollPosted] at polled
    generalize reached : (runtime.guest object context).host.poll _ _ _ = outcome at spec polled
    obtain ⟨one, two⟩ := Prod.mk.inj polled
    obtain ⟨result, returned, answers⟩ := settleCall_answers (Prod.ext one (Prod.mk.inj two).2)
    exact ⟨result, found, task, .polled (reached ▸ returned), usual_polled consistent.usual spec returned,
      answers⟩
  | _ => cases calls

theorem refusals_of_execution {history : List (Transition Runtime Action Event)}
    (execution : machine.Execution history runtime) :
    ∀ serial future word, .completed serial future word ∈ trace history → future.calls = true →
      word ≠ Status.denied.word ∧ word ≠ Status.invalid.word := by
  refine (invariant_of_moves (fun events runtime => Consistent events runtime ∧
    ∀ serial future word, .completed serial future word ∈ events → future.calls = true →
      word ≠ Status.denied.word ∧ word ≠ Status.invalid.word) ?_ ?_ execution).2
  · intro session
    exact ⟨consistent_start session, by simp⟩
  · rintro events runtime more after sound ⟨consistent, usual⟩ move
    refine ⟨consistent.move sound move, ?_⟩
    intro serial future word member calls
    rcases List.mem_append.mp member with old | new
    · exact usual serial future word old calls
    · obtain ⟨-, -, result, -, -, -, usually, answers⟩ := move.ended consistent calls new
      exact answers.usual usually

end Returns

section Claims

variable {history : List (Transition Runtime Action Event)}

/-- The handle table of the guest of an object. -/
def table (runtime : Runtime) (serial : Nat) : Map Nat Handle :=
  match (runtime.heap.lookup serial).map Object.task with
  | some (.running context _) => context.handles
  | _ => ∅

/-- In this step the guest asks for a call and is let through, with the value that is
under its handle now. -/
inductive Asked (transition : Transition Runtime Action Event) (serial : Nat)
    (capability : String) (arguments : Value) (ms : Nat) : Prop where
  | of {call : HelperCall} {object : Object} {context : GuestContext}
      (helper : call.helper = .hostCallRaw)
      (replied : .replied serial call (.posted (.call capability arguments ms)) ∈
        transition.events)
      (found : transition.before.heap.lookup serial = some object)
      (task : object.task = .running context none)
      (copied : context.json call.c = some arguments) (timeout : ms = call.d) :
      Asked transition serial capability arguments ms

/-- The frame is the request of such a call, and one entry of the object's own list
names the capability and constrains the arguments to what they are. -/
inductive Warranted (history : List (Transition Runtime Action Event)) (runtime : Runtime)
    (serial : Nat) (frame : Frame) : Prop where
  | of {object : Object} {entry : Capability} {arguments : Value} {ms now : Nat} {id : String}
      {transition : Transition Runtime Action Event}
      (found : runtime.heap.lookup serial = some object) (own : object.id = objectId serial)
      (listed : entry ∈ object.capabilities)
      (fields : ∀ field ∈ entry.arguments, ∃ value, arguments.get field.1 = some value ∧
        value.same field.2 = true)
      (scalar : (∀ members, arguments ≠ .object members) → entry.arguments = [])
      (member : transition ∈ history) (asked : Asked transition serial entry.name arguments ms)
      (value : frame.value =
        Host.request id (objectId serial) entry.name arguments (timeoutMs ms) now) :
      Warranted history runtime serial frame

/-- A posted call was made with a value of the guest, in the same step. -/
theorem Helped.asked {transition : Transition Runtime Action Event} {call : HelperCall}
    {capability : String} {arguments : Value} {ms : Nat}
    (helped : Helped transition.before transition.after serial call
      (.posted (.call capability arguments ms)))
    (replied : .replied serial call (.posted (.call capability arguments ms)) ∈
      transition.events) : Asked transition serial capability arguments ms := by
  obtain ⟨⟨object, context, scope, guest, next, found, task, invoked, -⟩, -⟩ := helped
  have spec := invoke_spec (transition.before.guest object context) scope call
  rw [invoked] at spec
  have granted : Guest.Granted (transition.before.guest object context) scope call capability
      arguments ms := by
    cases spec with
    | table same mailbox host wait answered | log same mailbox host wait answered =>
      exact absurd rfl (answered _)
    | posted kind =>
      simp only [reduceCtorEq, exists_const, false_or, Posted.call.injEq] at kind
      obtain ⟨_, _, _, ⟨rfl, rfl, rfl⟩, granted⟩ := kind
      exact granted
  have copied : context.json call.c = some arguments := granted.copied
  rcases task with running | ⟨-, empty⟩
  · exact .of granted.helper replied found running copied granted.timeout
  · rw [GuestContext.json, empty] at copied
    cases copied

/-- A refused call changes neither the host nor any table. -/
theorem Helped.refused {call : HelperCall} {word : Nat}
    (helped : Helped runtime after serial call (.value word)) (helper : call.helper = .hostCallRaw) :
    after.host = runtime.host ∧ after.table = runtime.table := by
  obtain ⟨⟨object, context, scope, guest, next, found, task, invoked, host, stored, left⟩,
    others⟩ := helped
  have spec := invoke_spec (runtime.guest object context) scope call
  rw [invoked] at spec
  have same : guest = runtime.guest object context := by
    cases spec with
    | table _ _ _ _ _ local_ => exact local_ helper
    | log _ _ _ _ _ other =>
      rw [helper] at other
      cases other
  rw [same] at host left
  refine ⟨host, ?_⟩
  ext1 other
  by_cases own : other = serial
  · subst own
    rw [table, table, stored, found, Option.map_some, Option.map_some, left]
    rcases task with running | ⟨spawned, empty⟩
    · rw [running]
      rfl
    · rw [spawned]
      exact empty
  · rw [table, table, others other own]

theorem Requested.warranted (execution : machine.Execution history runtime) {frame : Frame}
    (requested : Requested (trace history) runtime serial frame) :
    Warranted history runtime serial frame := by
  obtain ⟨found, replied, ⟨entry, listed, permits⟩, value⟩ := requested
  obtain ⟨transition, member, emitted⟩ := mem_trace.mp replied
  obtain ⟨-, taken⟩ := execution.taken member
  have own := ((sound_of_reachable execution).object found).2
  have scalar := Capability.unconstrained permits
  obtain ⟨rfl, fields⟩ := Capability.permits_iff.mp permits
  refine .of found own listed fields scalar member ?_ (own ▸ value)
  exact (helped_step taken emitted).asked emitted

/-- Every host call in the outbox is one that the guest of the object it names has made,
as one entry of the object's own list grants it, with the value that was under the handle
when it was made. A call that is denied or invalid, which is all that is answered at once,
changes nothing, and a call that was let through is neither. -/
theorem capability_confinement (execution : machine.Execution history runtime) :
    (∀ id frame, .host (.queued id frame) ∈ trace history →
      ∃ serial, Warranted history runtime serial frame) ∧
    (∀ lane entry, entry ∈ runtime.host.out.lane lane →
      entry.frame.value.get "method" = some (.string "host.call") →
      ∃ serial, lane = .object (objectId serial) ∧
        Warranted history runtime serial entry.frame) ∧
    (∀ transition ∈ history, ∀ serial call word,
      .replied serial call (.value word) ∈ transition.events → call.helper = .hostCallRaw →
      transition.after.host = transition.before.host ∧
        transition.after.table = transition.before.table) ∧
    ∀ serial future word, .completed serial future word ∈ trace history → future.calls = true →
      word ≠ Status.denied.word ∧ word ≠ Status.invalid.word := by
  have confined := confined_of_execution execution
  refine ⟨?_, ?_, ?_, ?_⟩
  · intro id frame queued
    obtain ⟨serial, requested⟩ := confined.queued queued
    exact ⟨serial, requested.warranted execution⟩
  · intro lane entry member method
    obtain ⟨serial, place, requested⟩ := confined.lane member method
    exact ⟨serial, place, requested.warranted execution⟩
  · intro transition member serial call word replied helper
    obtain ⟨-, taken⟩ := execution.taken member
    exact (helped_step taken replied).refused helper
  · exact refusals_of_execution execution

/-- A guest with one text in its memory. -/
def textual (text : String) : Scope where
  memory _ length := if (encodeUtf8 text).length = length then some (encodeUtf8 text) else none
  writable _ _ := false
  clock := ⟨0, 0⟩
  fromStr _ := none
  sized := by
    intro pointer length bytes read
    split_ifs at read with fits
    rw [← Option.some.inj read, fits]

/-- Load an object that may read one file, and let its guest ask for it. -/
def readOnce : List Action :=
  [.load 0 "" .null [{ name := "read", arguments := [("path", .string "/a")] }],
    .loaded 0 (.ok true), .start "o1",
    .poll 1 (.helper { helper := .jsonObject } (textual "")) ⟨0, 0⟩ [],
    .poll 1 (.helper { helper := .jsonStringRaw, b := 2 } (textual "/a")) ⟨0, 0⟩ [],
    .poll 1 (.helper { helper := .jsonSetRaw, a := 1, c := 4, d := 2 } (textual "path")) ⟨0, 0⟩ [],
    .poll 1 (.helper { helper := .hostCallRaw, b := 4, c := 1, d := 5 } (textual "read")) ⟨0, 0⟩ [],
    .poll 1 (.resume ⟨false, false, ⟨0, 0⟩⟩) ⟨0, 0⟩ []]

/-- Whether a request is queued. -/
def Event.queues : Event → Bool
  | .host (.queued _ _) => true
  | _ => false

/-- The arguments of the request that is queued. -/
def Event.arguments : Event → Option Value
  | .host (.queued _ frame) =>
    (frame.value.get "params").bind fun params => params.get "arguments"
  | _ => none

/-- The request of that guest is in the outbox with the path it may read, and is
warranted. -/
theorem capability_confinement_read :
    ∃ history runtime id frame serial, machine.Execution history runtime ∧
      .host (.queued id frame) ∈ trace history ∧
      (Event.host (.queued id frame)).arguments = some (.object [("path", .string "/a")]) ∧
      Warranted history runtime serial frame := by
  have evaluated : ((machine.run { host := { session := "" } } readOnce).any fun result =>
      (trace result.1).any fun event => event.queues &&
        decide (event.arguments = some (.object [("path", .string "/a")]))) = true := by
    decide +kernel
  obtain ⟨history, runtime, execution, tested⟩ := Machine.execution_of_test evaluated ⟨"", rfl⟩
  obtain ⟨event, member, asks⟩ := List.any_eq_true.mp tested
  obtain ⟨queued, reads⟩ := (Bool.and_eq_true ..).mp asks
  match event, queued with
  | .host (.queued id frame), _ =>
    obtain ⟨serial, warranted⟩ := (capability_confinement execution).1 id frame member
    exact ⟨history, runtime, id, frame, serial, execution, member, of_decide_eq_true reads,
      warranted⟩

end Claims

end Runtime

end Spinfoam
