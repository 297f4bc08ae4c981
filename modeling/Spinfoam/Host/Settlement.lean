import Spinfoam.Host.Accounts

/-!
# How calls end

The results about whole runs of the host machine: what a call returns, what it
leaves behind, and how its cancellation is announced.
-/

namespace Spinfoam.Host

open Spinfoam.Json Spinfoam.Std Spinfoam.Outbox Spinfoam.Semantics

/-- The frame is addressed to the call with this id. -/
def Names (frame : Value) (id : String) : Prop := (frame.get "id").bind Value.asStr = some id

/-- The guards of the calls in progress. -/
def State.live (state : State) (future : Nat) : Option CallGuard :=
  (state.calls.lookup future).map Call.guard

/-- The invariant of the machine. -/
structure Consistent (events : List Event) (state : State) : Prop where
  accounted : Accounted events state.host state.live
  sound : ∀ future call, state.calls.lookup future = some call → call.Sound

variable {events : List Event} {state : State}

/-- The guard of a suspended call is live. -/
theorem State.live_of_lookup {future : Nat} {call : Call}
    (found : state.calls.lookup future = some call) : state.live future = some call.guard := by
  simp [State.live, found]

/-- A call that is resumed keeps its guard as long as it is pending. -/
theorem State.live_resume (state : State) (future : Nat) (result : Host × List Event × Outcome) :
    (state.resume future result).1.live =
      Function.update state.live future result.2.2.guard := by
  obtain ⟨host, events, outcome⟩ := result
  ext1 other
  by_cases same : other = future
  · subst same
    cases outcome <;> simp [State.resume, State.live, Outcome.guard]
  · cases outcome <;>
      simp [State.resume, State.live, same, AList.lookup_insert_ne, AList.lookup_erase_ne]

@[simp] theorem State.resume_events (state : State) (future : Nat)
    (result : Host × List Event × Outcome) : (state.resume future result).2 = result.2.1 := by
  obtain ⟨host, events, outcome⟩ := result
  cases outcome <;> rfl

/-- A call that is dropped has no guard. -/
theorem State.live_erase (state : State) (future : Nat) (host : Host) :
    State.live { state with host, calls := state.calls.erase future } =
      Function.update state.live future none := by
  ext1 other
  by_cases same : other = future
  · subst same
    simp [State.live]
  · simp [State.live, same, AList.lookup_erase_ne]

private theorem resume_consistent {future : Nat} {result : Host × List Event × Outcome}
    (consistent : Consistent events state)
    (accounted : Accounted (events ++ result.2.1) result.1
      (Function.update state.live future result.2.2.guard))
    (suspended : ∀ call, result.2.2 = .pending call → call.Sound) :
    Consistent (events ++ (state.resume future result).2) (state.resume future result).1 := by
  have live := state.live_resume future result
  obtain ⟨host, more, outcome⟩ := result
  constructor
  case accounted =>
    rw [live]
    cases outcome <;> exact accounted
  case sound =>
    intro other call found
    cases outcome with
    | ready result =>
      by_cases same : other = future
      · subst same
        simp [State.resume] at found
      · rw [State.resume, AList.lookup_erase_ne same] at found
        exact consistent.sound other call found
    | pending left =>
      by_cases same : other = future
      · subst same
        simp only [State.resume, AList.lookup_insert, Option.some.injEq] at found
        exact suspended call (by rw [found])
      · rw [State.resume, AList.lookup_insert_ne same] at found
        exact consistent.sound other call found

/-- Every action keeps the invariant. -/
theorem Consistent.step (consistent : Consistent events state) {action : Action} {after : State}
    {more : List Event} (taken : machine.step state action = some (after, more)) :
    Consistent (events ++ more) after := by
  have accounted := consistent.accounted
  cases action with
  | call future object capability arguments timeoutMs now elapsed =>
    simp only [machine, State.perform, Option.ite_none_left_eq_some, Option.some.injEq] at taken
    obtain ⟨idle, taken⟩ := taken
    obtain ⟨rfl, rfl⟩ := Prod.mk.inj taken
    have started := call_spec state.host object capability arguments timeoutMs now elapsed
    refine resume_consistent consistent (accounted.started ?_ started) fun call left =>
      (started.sound left).1
    simp [State.live, AList.lookup_eq_none.mpr idle]
  | poll future spaceReady elapsed =>
    simp only [machine, State.perform, Option.map_eq_some_iff] at taken
    obtain ⟨call, found, taken⟩ := taken
    obtain ⟨rfl, rfl⟩ := Prod.mk.inj taken
    have sound := consistent.sound future call found
    have asks : ∀ entry, call.Sends entry → Asks call.guard.id entry := by
      intro entry sending
      rw [Call.Sends] at sending
      simp only [Call.Sound, sending] at sound
      exact sound.1
    have polled := poll_spec state.host sound spaceReady elapsed
    exact resume_consistent consistent
      (accounted.polled (State.live_of_lookup found) asks polled)
      fun call left => (polled.sound asks left).1
  | drop future =>
    simp only [machine, State.perform, Option.map_eq_some_iff] at taken
    obtain ⟨call, found, taken⟩ := taken
    obtain ⟨rfl, rfl⟩ := Prod.mk.inj taken
    constructor
    case accounted =>
      rw [State.live_erase]
      exact accounted.abandoned (State.live_of_lookup found)
    case sound =>
      intro other left held
      have different : other ≠ future := by
        rintro rfl
        rw [AList.lookup_erase] at held
        cases held
      rw [AList.lookup_erase_ne different] at held
      exact consistent.sound other left held
  | response frame =>
    obtain ⟨rfl, rfl⟩ := Prod.mk.inj (Option.some.inj taken)
    exact ⟨accounted.response frame, consistent.sound⟩
  | cancelObject object order =>
    obtain ⟨rfl, rfl⟩ := Prod.mk.inj (Option.some.inj taken)
    exact ⟨accounted.cancelledObject object order, consistent.sound⟩
  | next =>
    simp only [machine, State.perform] at taken
    split at taken
    · obtain ⟨rfl, rfl⟩ := Prod.mk.inj (Option.some.inj taken)
      simpa using consistent
    · rename_i frame out passed
      obtain ⟨rfl, rfl⟩ := Prod.mk.inj (Option.some.inj taken)
      obtain ⟨-, -, place, entry, -, lanes⟩ := Outbox.next_eq_some passed
      refine ⟨accounted.shrunk ?_ ?_, consistent.sound⟩
      · intro lane
        rw [lanes]
        exact List.subset_append_right _ _
      · simp [Event.subject]
  | close =>
    obtain ⟨rfl, rfl⟩ := Prod.mk.inj (Option.some.inj taken)
    have fewer : ∀ lane, state.host.out.close.lane lane ⊆ state.host.out.lane lane :=
      fun lane => List.Subset.refl _
    exact ⟨accounted.shrunk fewer (by simp), consistent.sound⟩
  | control value =>
    simp only [machine, State.perform, Option.ite_none_right_eq_some, Option.some.injEq] at taken
    obtain ⟨other, taken⟩ := taken
    obtain ⟨rfl, rfl⟩ := Prod.mk.inj taken
    rw [List.append_nil]
    exact ⟨accounted.controlled other, consistent.sound⟩
  | data object value =>
    simp only [machine, State.perform, Option.ite_none_right_eq_some, Option.some.injEq] at taken
    obtain ⟨⟨other, unnamed⟩, taken⟩ := taken
    obtain ⟨rfl, rfl⟩ := Prod.mk.inj taken
    rw [List.append_nil]
    exact ⟨accounted.logged other unnamed, consistent.sound⟩

/-- Every state of every run is consistent. -/
theorem consistent_of_execution {history : List (Transition State Action Event)}
    (execution : machine.Execution history state) : Consistent (trace history) state := by
  induction execution with
  | initial valid =>
    obtain ⟨session, rfl⟩ := valid
    refine ⟨Accounted.start session, ?_⟩
    intro future call found
    cases found
  | step _ taken ih => simpa using ih.step taken

/-- What lies behind an event of a step. -/
def Explained (state : State) (action : Action) : Event → Prop
  | .answered id frame => action = .response frame ∧ Names frame id ∧ id ∈ state.host.pending
  | .emitted frame => ∃ lane, ∃ entry ∈ state.host.out.lane lane, entry.frame = frame
  | .returned id (.ok value) => state.host.replies.lookup id = some (.ok value)
  | _ => True

private theorem explained_polled {host : Host} {guard : CallGuard} {sends : DataFrame → Prop}
    {result : Host × List Event × Outcome} (polled : Polled guard sends host result)
    (replies : host.replies = state.host.replies) {action : Action} {event : Event}
    (member : event ∈ result.2.1) : Explained state action event := by
  have notices : ∀ {guard : CallGuard} {host after : Host} {notices : List Event},
      Withdrawn guard host after notices → ∀ event ∈ notices, event = .cancelled guard.id := by
    intro guard host after notices withdrawn event member
    rcases withdrawn.notice with ⟨rfl, -⟩ | ⟨rfl, -⟩
    · cases member
    · exact List.mem_singleton.mp member
  have ending : ∀ {guard : CallGuard} {after : Host} {notices : List Event} {result : Result},
      Withdrawn guard host after notices →
      Reply guard host result → event ∈ notices ++ [.returned guard.id result] →
      Explained state action event := by
    intro guard after events result withdrawn reply member
    rcases List.mem_append.mp member with notice | last
    · rw [notices withdrawn event notice]
      trivial
    · obtain rfl := List.mem_singleton.mp last
      cases result with
      | error status => trivial
      | ok value =>
        rw [Explained, ← replies]
        rcases reply with found | impossible | impossible
        · exact found
        · cases impossible
        · cases impossible
  cases polled with
  | parked => cases member
  | waiting => cases member
  | queued =>
    rw [List.mem_singleton.mp member]
    trivial
  | returned withdrawn reply => exact ending withdrawn reply member
  | queuedReturned _ withdrawn reply =>
    rcases List.mem_cons.mp member with rfl | later
    · trivial
    · exact ending withdrawn reply later

/-- Every event of a step from a consistent state is explained by that step. -/
theorem Consistent.explained (consistent : Consistent events state) {action : Action}
    {after : State} {more : List Event} (taken : machine.step state action = some (after, more))
    {event : Event} (member : event ∈ more) : Explained state action event := by
  cases action with
  | call future object capability arguments timeoutMs now elapsed =>
    simp only [machine, State.perform, Option.ite_none_left_eq_some, Option.some.injEq] at taken
    obtain rfl : _ = more := congrArg Prod.snd taken.2
    have started := call_spec state.host object capability arguments timeoutMs now elapsed
    rw [State.resume_events] at member
    generalize state.host.call object capability arguments timeoutMs now elapsed = result
      at started member
    cases started with
    | refused => cases member
    | registered polled =>
      rcases List.mem_cons.mp member with rfl | later
      · trivial
      · exact explained_polled polled rfl later
  | poll future spaceReady elapsed =>
    simp only [machine, State.perform, Option.map_eq_some_iff] at taken
    obtain ⟨call, found, taken⟩ := taken
    obtain rfl : _ = more := congrArg Prod.snd taken
    rw [State.resume_events] at member
    have polled := poll_spec state.host (consistent.sound future call found) spaceReady elapsed
    exact explained_polled polled rfl member
  | drop future =>
    simp only [machine, State.perform, Option.map_eq_some_iff] at taken
    obtain ⟨call, -, taken⟩ := taken
    obtain rfl : _ = more := congrArg Prod.snd taken
    change event ∈ (state.host.dropGuard call.guard).2 ++ _ at member
    rcases List.mem_append.mp member with notice | last
    · rcases (dropGuard_spec state.host call.guard).notice with ⟨none, -⟩ | ⟨one, -⟩
      · rw [none] at notice
        cases notice
      · rw [one] at notice
        rw [List.mem_singleton.mp notice]
        trivial
    · rw [List.mem_singleton.mp last]
      trivial
  | response frame =>
    obtain rfl : _ = more := congrArg Prod.snd (Option.some.inj taken)
    change event ∈ (state.host.response frame).2 at member
    rcases response_eq state.host frame with ⟨id, named, registered, same⟩ | ⟨-, same⟩
    · rw [same] at member
      obtain rfl := List.mem_singleton.mp member
      exact ⟨rfl, named, registered⟩
    · rw [same] at member
      obtain rfl := List.mem_singleton.mp member
      trivial
  | cancelObject object order =>
    obtain rfl : _ = more := congrArg Prod.snd (Option.some.inj taken)
    have onlyCancels : ∀ event ∈ [] ++ (state.host.cancelObject object order).2,
        ∃ id, event = .objectCancelled id ∨ event = .cancelled id := by
      refine cancelCalls_induction
        (fun events _ => ∀ event ∈ events, ∃ id, event = .objectCancelled id ∨ event = .cancelled id)
        (fun _ => True) ?_ (fun _ _ => trivial) (by simp)
      intro events host id _ earlier event member
      rcases List.mem_append.mp member with old | new
      · exact earlier event old
      · by_cases registered : id ∈ host.pending
        · rcases (cancelCall_spec registered).notice with ⟨one, -⟩ | ⟨two, -⟩
          · rw [one] at new
            exact ⟨id, Or.inl (List.mem_singleton.mp new)⟩
          · rw [two] at new
            exact ⟨id, by simpa using new⟩
        · rw [cancelCall_of_not_mem registered] at new
          cases new
    obtain ⟨id, rfl | rfl⟩ := onlyCancels event member <;> trivial
  | next =>
    simp only [machine, State.perform] at taken
    split at taken
    · obtain ⟨-, rfl⟩ := Prod.mk.inj (Option.some.inj taken)
      cases member
    · rename_i frame out passed
      obtain ⟨-, rfl⟩ := Prod.mk.inj (Option.some.inj taken)
      obtain rfl := List.mem_singleton.mp member
      obtain ⟨-, -, place, entry, same, lanes⟩ := Outbox.next_eq_some passed
      exact ⟨place, entry, by simp [lanes], same⟩
  | close =>
    obtain ⟨-, rfl⟩ := Prod.mk.inj (Option.some.inj taken)
    cases member
  | control value =>
    simp only [machine, State.perform, Option.ite_none_right_eq_some, Option.some.injEq] at taken
    obtain ⟨-, rfl⟩ := Prod.mk.inj taken.2
    cases member
  | data object value =>
    simp only [machine, State.perform, Option.ite_none_right_eq_some, Option.some.injEq] at taken
    obtain ⟨-, rfl⟩ := Prod.mk.inj taken.2
    cases member


/-- A response can always come. -/
theorem step_response (state : State) (frame : Value) :
    machine.step state (.response frame) =
      some ({ state with host := (state.host.response frame).1 },
        (state.host.response frame).2) := rfl

section Runs

variable {history : List (Transition State Action Event)}

/-- A step of a run: the invariant before it and what explains its events. -/
theorem step_of_split (execution : machine.Execution history state)
    {earlier later : List (Transition State Action Event)}
    {transition : Transition State Action Event} (split : history = earlier ++ transition :: later) :
    Consistent (trace earlier) transition.before ∧
      machine.step transition.before transition.action =
        some (transition.after, transition.events) ∧
      ∀ event ∈ transition.events, Explained transition.before transition.action event := by
  obtain ⟨before, taken⟩ := execution.cut split
  have consistent := consistent_of_execution before
  exact ⟨consistent, taken, fun event member => consistent.explained taken member⟩

/-- Once the cancellation of a call has been queued, its request is not handed to
the writer any more. -/
theorem not_emitted_after_cancelled (execution : machine.Execution history state)
    {earlier later : List (Transition State Action Event)}
    {transition : Transition State Action Event} (split : history = earlier ++ transition :: later)
    {id : String} (cancelled : .cancelled id ∈ trace earlier) {frame : Frame}
    (emitted : .emitted frame ∈ transition.events) : ¬ IsCall id frame.value := by
  obtain ⟨consistent, -, explained⟩ := step_of_split execution split
  obtain ⟨lane, entry, queued, rfl⟩ := explained _ emitted
  have lanes := consistent.accounted.lanes
  intro call
  cases lane with
  | control => exact (lanes.control queued).1 call
  | object name =>
    have named := (lanes.tagged queued).trans (requestId_of_isCall call)
    exact lanes.fresh (by simp) queued named cancelled

/-- A successful call returns the result of the first response that found it
pending. -/
theorem returned_ok (execution : machine.Execution history state)
    {earlier later : List (Transition State Action Event)}
    {transition : Transition State Action Event} (split : history = earlier ++ transition :: later)
    {id : String} {value : Value} (returned : .returned id (.ok value) ∈ transition.events) :
    ∃ front response back frame, earlier = front ++ response :: back ∧
      response.action = .response frame ∧ Names frame id ∧ id ∈ response.before.host.pending ∧
      frame.get "result" = some value ∧
      ∀ other ∈ front, ∀ frame, other.action = .response frame → Names frame id →
        id ∉ other.before.host.pending := by
  obtain ⟨consistent, -, explained⟩ := step_of_split execution split
  have reply : transition.before.host.replies.lookup id = some (.ok value) :=
    explained _ returned
  obtain impossible | ⟨frame, answered, result⟩ := consistent.accounted.ledger.replied reply
  · cases impossible
  obtain ⟨response, member, emitted⟩ := mem_trace.mp answered
  obtain ⟨front, back, rfl⟩ := List.append_of_mem member
  have inner : history = front ++ response :: (back ++ transition :: later) := by
    simpa using split
  obtain ⟨before, -, reasons⟩ := step_of_split execution inner
  obtain ⟨action, named, registered⟩ := reasons _ emitted
  have content : frame.get "result" = some value := by
    unfold resultOf at result
    split at result
    · split_ifs at result
      obtain rfl := Except.ok.inj result
      assumption
    · cases result
  refine ⟨front, response, back, frame, rfl, action, named, registered, content, ?_⟩
  intro other member' frame' action' named' pending'
  -- a response that finds the call pending takes the entry for good
  obtain ⟨first, rest, rfl⟩ := List.append_of_mem member'
  have outer : history = first ++ other :: (rest ++ response :: (back ++ transition :: later)) := by
    simpa using inner
  obtain ⟨-, taken', -⟩ := step_of_split execution outer
  have answered' : .answered id frame' ∈ other.events := by
    rw [action', step_response, Option.some.injEq, Prod.mk.injEq] at taken'
    rw [← taken'.2]
    rcases response_eq other.before.host frame' with ⟨found, hit, -, same⟩ | ⟨absent, -⟩
    · obtain rfl := Option.some.inj (named'.symm.trans hit)
      simp [same]
    · exact absurd pending' (absent id named')
  exact (before.accounted.ledger.pendingFresh registered).1 frame'
    (mem_trace.mpr ⟨other, by simp, answered'⟩)

/-- The settlement of host calls. Ids are distinct; a call succeeds only with the
first response that finds it pending; a response that finds nothing only counts
as ignored; a call that has returned or was dropped has no pending entry and no
queued request; a call is cancelled at most once, never after it was answered,
and its request does not leave after its cancellation was queued. -/
theorem host_calls_settle_once (execution : machine.Execution history state) :
    (registeredIds (trace history)).Nodup ∧
      (∀ earlier transition later, history = earlier ++ transition :: later →
        ∀ id value, .returned id (.ok value) ∈ transition.events →
          ∃ front response back frame, earlier = front ++ response :: back ∧
            response.action = .response frame ∧ Names frame id ∧
            id ∈ response.before.host.pending ∧ frame.get "result" = some value ∧
            ∀ other ∈ front, ∀ frame, other.action = .response frame → Names frame id →
              id ∉ other.before.host.pending) ∧
      (∀ transition ∈ history, ∀ frame, transition.action = .response frame →
        (∀ id, Names frame id → id ∉ transition.before.host.pending) →
          transition.after = { transition.before with
            host := { transition.before.host with
              ignored := min (transition.before.host.ignored + 1) (2 ^ 64 - 1) } }) ∧
      (∀ id, (.dropped id ∈ trace history ∨ ∃ result, .returned id result ∈ trace history) →
        id ∉ state.host.pending ∧
          ∀ lane, ∀ entry ∈ state.host.out.lane lane, ¬ IsCall id entry.frame.value) ∧
      (∀ id, (trace history).count (.cancelled id) ≤ 1) ∧
      (∀ id frame, .answered id frame ∈ trace history → .cancelled id ∉ trace history) ∧
      ∀ earlier transition later, history = earlier ++ transition :: later →
        ∀ id, .cancelled id ∈ transition.events →
          ∀ after ∈ later, ∀ frame, .emitted frame ∈ after.events → ¬ IsCall id frame.value := by
  have consistent := consistent_of_execution execution
  obtain ⟨ledger, lanes⟩ := consistent.accounted
  refine ⟨ledger.distinct, ?_, ?_, ?_, ledger.once, fun _ _ => ledger.exclusive, ?_⟩
  · intro earlier transition later split id value returned
    exact returned_ok execution split returned
  · intro transition member frame action absent
    obtain ⟨-, taken⟩ := execution.taken member
    rw [action, step_response, Option.some.injEq, Prod.mk.injEq] at taken
    rcases response_eq transition.before.host frame with ⟨id, named, registered, -⟩ | ⟨-, ignored⟩
    · exact absurd registered (absent id named)
    · rw [← taken.1, ignored]
      rfl
  · intro id settled
    have gone : ∀ future guard, state.live future = some guard → guard.id ≠ id := by
      rintro future guard held rfl
      obtain ⟨dropped, returned⟩ := ledger.liveOpen held
      rcases settled with member | ⟨result, member⟩
      · exact dropped member
      · exact returned result member
    constructor
    · intro registered
      obtain ⟨entry, found⟩ := Option.isSome_iff_exists.mp (AList.lookup_isSome.mpr registered)
      obtain ⟨future, guard, held, named, -⟩ := ledger.pendingLive found
      exact gone future guard held named
    · intro lane entry queued call
      cases lane with
      | control => exact (lanes.control queued).1 call
      | object name =>
        have named := (lanes.tagged queued).trans (requestId_of_isCall call)
        obtain ⟨future, guard, held, same, -⟩ := lanes.owned queued named
        exact gone future guard held same
  · intro earlier transition later split id cancelled after member frame emitted
    obtain ⟨front, back, rfl⟩ := List.append_of_mem member
    have inner : history = (earlier ++ transition :: front) ++ after :: back := by
      simpa using split
    refine not_emitted_after_cancelled execution inner ?_ emitted
    exact mem_trace.mpr ⟨transition, by simp, cancelled⟩

/-- The embedder answers the first call of a session with 7. -/
def answer : Value :=
  .object [("id", .string "sf:s:1"), ("jsonrpc", .string "2.0"), ("result", .number (.int 7))]

/-- A call is queued, written, answered, and returns. -/
def answeredCall : List Action :=
  [.call 0 "o1" "read" (.object []) 10 0 false, .next, .response answer, .poll 0 false false]

set_option maxRecDepth 10000 in
/-- A call that the embedder answers settles once. -/
theorem host_calls_settle_once_answered :
    ∃ history state, machine.run { host := { session := "s" } } answeredCall =
        some (history, state) ∧
      .returned "sf:s:1" (.ok (.number (.int 7))) ∈ trace history ∧ "sf:s:1" ∉ state.host.pending ∧
      .cancelled "sf:s:1" ∉ trace history := by
  obtain ⟨history, state, ran, returned, answered⟩ : ∃ history state,
      machine.run { host := { session := "s" } } answeredCall = some (history, state) ∧
      .returned "sf:s:1" (.ok (.number (.int 7))) ∈ trace history ∧
      .answered "sf:s:1" answer ∈ trace history := ⟨_, _, rfl, by decide⟩
  obtain ⟨-, -, -, settled, -, exclusive, -⟩ :=
    host_calls_settle_once (Machine.execution_of_run ⟨"s", rfl⟩ ran)
  exact ⟨history, state, ran, returned, (settled _ (Or.inr ⟨_, returned⟩)).1,
    exclusive _ _ answered⟩

/-- A `host.cancel` that leaves the outbox is about a call that was issued; the
request of that call precedes it in the output or never appears there at all;
and a call that never found room in the outbox is announced as over only when
its object was. -/
theorem host_cancel_output (execution : machine.Execution history state) :
    ∀ earlier transition later, history = earlier ++ transition :: later →
      ∀ id frame, .emitted frame ∈ transition.events → IsCancel id frame.value →
        (∃ object, .registered id object ∈ trace earlier) ∧
          ((∃ request, .emitted request ∈ trace earlier ∧ IsCall id request.value) ∨
            ∀ request, .emitted request ∈ trace history → ¬ IsCall id request.value) ∧
          ((∃ request, .queued id request ∈ trace earlier) ∨
            .objectCancelled id ∈ trace earlier) := by
  intro earlier transition later split id frame emitted cancel
  obtain ⟨consistent, -, explained⟩ := step_of_split execution split
  obtain ⟨ledger, lanes⟩ := consistent.accounted
  obtain ⟨lane, entry, waiting, rfl⟩ := explained _ emitted
  have cancelled : .cancelled id ∈ trace earlier := by
    cases lane with
    | control => exact (lanes.control waiting).2 cancel
    | object name => exact absurd cancel (lanes.plain waiting)
  refine ⟨ledger.known cancelled rfl, ?_, ledger.announced cancelled⟩
  obtain ⟨announcing, member, queued⟩ := mem_trace.mp cancelled
  obtain ⟨front, back, rfl⟩ := List.append_of_mem member
  by_cases preceded : ∃ request, .emitted request ∈ trace (front ++ announcing :: back) ∧
      IsCall id request.value
  · exact Or.inl preceded
  · right
    intro request output call
    obtain ⟨writing, member', written⟩ := mem_trace.mp output
    rw [split, List.mem_append] at member'
    rcases member' with before | after
    · exact preceded ⟨request, mem_trace.mpr ⟨writing, before, written⟩, call⟩
    · obtain ⟨first, rest, shifted⟩ := List.append_of_mem after
      have inner : history =
          ((front ++ announcing :: back) ++ first) ++ writing :: rest := by
        rw [split, shifted]
        simp
      refine not_emitted_after_cancelled execution inner ?_ written call
      exact mem_trace.mpr ⟨announcing, by simp, queued⟩

/-- A call is queued and expires before the writer comes by. -/
def expiredCall : List Action :=
  [.call 0 "o1" "read" (.object []) 10 0 false, .poll 0 false true, .next]

/-- The event hands a frame with this property to the writer. -/
def Event.writes (test : Value → Bool) : Event → Bool
  | .emitted frame => test frame.value
  | _ => false

set_option maxRecDepth 10000 in
private theorem expiredCall_run :
    ∃ history state, machine.run { host := { session := "s" } } expiredCall =
        some (history, state) ∧
      (∃ frame, .emitted frame ∈ trace history ∧ IsCancel "sf:s:1" frame.value) ∧
      ∀ request, .emitted request ∈ trace history → ¬ IsCall "sf:s:1" request.value := by
  obtain ⟨history, state, ran, ⟨event, member, cancel⟩, none⟩ : ∃ history state,
      machine.run { host := { session := "s" } } expiredCall = some (history, state) ∧
      (∃ event ∈ trace history, event.writes (fun value => IsCancel "sf:s:1" value) = true) ∧
      ∀ event ∈ trace history, event.writes (fun value => IsCall "sf:s:1" value) = false :=
    ⟨_, _, rfl, by decide⟩
  refine ⟨history, state, ran, ?_, ?_⟩
  · cases event with
    | emitted frame => exact ⟨frame, member, of_decide_eq_true cancel⟩
    | _ => cases cancel
  · intro request output call
    have absent := none _ output
    simp [Event.writes, call] at absent

/-- A call that expires before it is sent is cancelled all the same. -/
theorem host_cancel_output_expired :
    ∃ history state, machine.run { host := { session := "s" } } expiredCall =
        some (history, state) ∧ ∃ object, .registered "sf:s:1" object ∈ trace history := by
  obtain ⟨history, state, ran, ⟨frame, output, cancel⟩, -⟩ := expiredCall_run
  obtain ⟨transition, member, emitted⟩ := mem_trace.mp output
  obtain ⟨earlier, later, split⟩ := List.append_of_mem member
  obtain ⟨⟨object, registered⟩, -⟩ := host_cancel_output
    (Machine.execution_of_run ⟨"s", rfl⟩ ran) earlier transition later split "sf:s:1" frame
    emitted cancel
  exact ⟨history, state, ran, object, by simp [split, registered]⟩

/-- The writer gets the `host.cancel` of a call whose `host.call` it never gets. -/
theorem host_cancel_without_call :
    ∃ history state, machine.Execution history state ∧
      (∃ frame, .emitted frame ∈ trace history ∧ IsCancel "sf:s:1" frame.value) ∧
      ∀ request, .emitted request ∈ trace history → ¬ IsCall "sf:s:1" request.value := by
  obtain ⟨history, state, ran, outcome⟩ := expiredCall_run
  exact ⟨history, state, Machine.execution_of_run ⟨"s", rfl⟩ ran, outcome⟩

end Runs

end Spinfoam.Host
