import Spinfoam.Host.Traffic
import Spinfoam.Runtime.Calls

/-!
# What the guests put into the outbox

A guest speaks through its log and through its host calls. Every move of the
runtime adds to the outbox only what the guest of some active object says in it,
in the lane of that object.
-/

namespace Spinfoam

open Spinfoam.Json Spinfoam.Std Spinfoam.Outbox Spinfoam.Guest Spinfoam.Semantics

namespace Guest

variable {guest : Guest}

/-- The entry that a poll of a future tries to queue. -/
def Posts (guest : Guest) (ready : Ready) : Posted → DataFrame → Prop
  | .call capability arguments ms => Host.Starts (Host.request guest.host.nextId guest.context.id
      capability arguments (timeoutMs ms) ready.clock.unix)
  | .calling call => call.Sends
  | _ => fun _ => False

/-- The entry of a log message. -/
structure Says (id : String) (entry : DataFrame) : Prop where
  notice : ∃ message, entry.frame.value = logNotice id message
  untagged : entry.requestId = none

/-- A helper ships a log message at most. -/
theorem invoke_traffic (guest : Guest) (scope : Scope) (call : HelperCall) :
    Carries (fun lane entry => lane = .object guest.context.id ∧ Says guest.context.id entry)
      guest.host.out (guest.invoke scope call).1.host.out := by
  have spec := invoke_spec guest scope call
  generalize guest.invoke scope call = result at spec ⊢
  cases spec with
  | table same mailbox host =>
    rw [host]
    exact .refl _
  | @log after reply message same mailbox host =>
    have out := congrArg Host.out host
    rw [out]
    refine (Carries.tryData guest.host.out guest.context.id _).mono ?_
    rintro lane entry ⟨rfl, value, tag⟩
    exact ⟨rfl, ⟨message, value⟩, tag.trans (by simp [requestId, logNotice, List.lookup])⟩
  | posted => exact .refl _

/-- A future ships its request, in the lane of its object. -/
theorem pollPosted_traffic (guest : Guest) (ready : Ready) (future : Posted)
    (own : ∀ call, future = .calling call → call.Sound ∧ call.guard.object = guest.context.id) :
    Carries (Host.Own guest.context.id (guest.Posts ready future)) guest.host.out
        (guest.pollPosted ready future).1.host.out ∧
      (∀ id frame, .queued id frame ∈ (guest.pollPosted ready future).2.1 →
        ∃ entry, guest.Posts ready future entry ∧ entry.frame = frame) ∧
      ∀ call entry, (guest.pollPosted ready future).2.2 = .pending (.calling call) →
        call.phase = .sending entry → guest.Posts ready future entry := by
  have conversed := Runtime.conversed guest ready future fun call same => (own call same).1
  generalize guest.pollPosted ready future = result at conversed ⊢
  cases conversed with
  | @quiet future after progress plain host left =>
    rw [host]
    refine ⟨.refl _, by simp, ?_⟩
    rintro call entry rfl
    cases left
  | started started host left suspended =>
    obtain ⟨carried, queued, sending⟩ := started.carries
    rw [host]
    refine ⟨carried, queued, ?_⟩
    intro call entry pending phase
    exact sending call entry (suspended call pending) phase
  | @polled call result after progress polled host left suspended =>
    obtain ⟨queued, sending⟩ := polled.traffic
    have carried := polled.carries
    rw [(own call rfl).2] at carried
    rw [host]
    refine ⟨carried, queued, ?_⟩
    intro next entry pending phase
    exact sending next entry (suspended next pending) phase

/-- A dropped run ships nothing. -/
theorem dropRun_traffic {ships : Lane → DataFrame → Prop} (guest : Guest)
    (posted : Option Posted) :
    Carries ships guest.host.out (guest.dropRun posted).1.host.out ∧
      ∀ id frame, .queued id frame ∉ (guest.dropRun posted).2 := by
  have idle : Carries ships guest.host.out guest.host.out ∧
      ∀ id frame, Host.Event.queued id frame ∉ [] := ⟨.refl _, fun _ _ => List.not_mem_nil⟩
  cases posted with
  | none => exact idle
  | some future =>
    cases future with
    | calling call =>
      have withdrawn := Host.dropGuard_spec guest.host call.guard
      refine ⟨withdrawn.carries, ?_⟩
      intro id frame member
      change _ ∈ (guest.host.dropGuard call.guard).2 ++ [_] at member
      rcases withdrawn.notice with ⟨same, -⟩ | ⟨same, -⟩ <;>
        · rw [same] at member
          simp at member
    | _ => exact idle

end Guest

namespace Runtime

variable {runtime after : Runtime} {events more : List Event} {serial : Nat}

/-- The request that the guest of an object tries to queue. -/
def Sends (runtime : Runtime) (serial : Nat) (entry : DataFrame) : Prop :=
  ∃ object context future ready, runtime.heap.lookup serial = some object ∧
    object.task = .running context (some future) ∧
    (runtime.guest object context).Posts ready future entry

/-- What the guest of an active object says, in the lane of that object. -/
def Ships (runtime : Runtime) (lane : Lane) (entry : DataFrame) : Prop :=
  ∃ serial object, runtime.heap.lookup serial = some object ∧ object.Active ∧
    lane = .object object.id ∧ (Says object.id entry ∨ runtime.Sends serial entry)

/-- The end of an object ships nothing and empties the lane of the object. -/
theorem cleanHost_traffic {ships : Lane → DataFrame → Prop} (host : Host) (id : String)
    (order : List String) :
    Carries ships host.out (cleanHost host id order).1.out ∧
      (∀ other frame, .queued other frame ∉ (cleanHost host id order).2) ∧
      (cleanHost host id order).1.out.lane (.object id) = [] := by
  obtain ⟨carried, silent⟩ := @Host.carries_cancelObject ships host id order
  refine ⟨carried.trans (.removeObject _ _), silent, ?_⟩
  have removed := (host.cancelObject id order).1.out.removeObject_spec id
  exact (removed.2.2 _).trans (if_pos rfl)

theorem silent_stateNotice (status : Value) : ¬ Speaks (stateNotice status) := by
  simp [Speaks, stateNotice, List.lookup]

theorem mem_hosted {event : Host.Event} : .host event ∈ events ↔ event ∈ hosted events := by
  simp only [hosted, List.mem_filterMap]
  constructor
  · intro member
    exact ⟨_, member, rfl⟩
  · rintro ⟨other, member, same⟩
    cases other with
    | host inner =>
      obtain rfl := Option.some.inj same
      exact member
    | _ => cases same

section Moves

/-- A poll of a posted future ships the request of that future. -/
theorem poll_traffic (sound : Sound runtime) (consistent : Consistent events runtime)
    {object : Object} {context : GuestContext} {ready : Ready} {future : Posted} {guest : Guest}
    {first : List Host.Event} {progress : Progress}
    (found : runtime.heap.lookup serial = some object)
    (task : object.task = .running context (some future))
    (polled : (runtime.guest object context).pollPosted ready future = (guest, first, progress)) :
    Carries (Host.Own object.id (runtime.Sends serial)) runtime.host.out guest.host.out ∧
      (∀ id frame, .queued id frame ∈ first →
        ∃ entry, runtime.Sends serial entry ∧ entry.frame = frame) ∧
      ∀ call entry, progress = .pending (.calling call) → call.phase = .sending entry →
        runtime.Sends serial entry := by
  have name := ((sound.object found).1.context task).1
  have own : ∀ call, future = .calling call → call.Sound ∧ call.guard.object = context.id := by
    rintro call rfl
    obtain ⟨good, same⟩ := consistent.sound found task
    exact ⟨good, same.trans name.symm⟩
  have sends : ∀ entry, (runtime.guest object context).Posts ready future entry →
      runtime.Sends serial entry :=
    fun entry posts => ⟨object, context, future, ready, found, task, posts⟩
  obtain ⟨carried, queued, sending⟩ :=
    pollPosted_traffic (runtime.guest object context) ready future own
  rw [polled] at carried queued sending
  refine ⟨carried.mono ?_, ?_, ?_⟩
  · rintro lane entry ⟨rfl, posts⟩
    exact ⟨congrArg Lane.object name, sends entry posts⟩
  · intro id frame member
    obtain ⟨entry, posts, same⟩ := queued id frame member
    exact ⟨entry, sends entry posts, same⟩
  · intro call entry pending phase
    exact sends entry (sending call entry pending phase)

/-- What a guest speaks is shipped. -/
private theorem ships_own {object : Object} (found : runtime.heap.lookup serial = some object)
    (active : object.Active) {out : Outbox} {speech : DataFrame → Prop}
    (carried : Carries (Host.Own object.id speech) runtime.host.out out)
    (speaks : ∀ entry, speech entry → Says object.id entry ∨ runtime.Sends serial entry) :
    Carries runtime.Ships runtime.host.out out := by
  apply carried.mono
  rintro lane entry ⟨rfl, said⟩
  exact ⟨serial, object, found, active, rfl, speaks entry said⟩

/-- What a move adds to the outbox is said by the guest of an active object. -/
theorem Move.carries (move : Move runtime more after) (sound : Sound runtime)
    (consistent : Consistent events runtime) :
    Carries runtime.Ships runtime.host.out after.host.out := by
  cases move with
  | respond | issue | forget | bind | tend | park | unpark | clear | absent => exact .refl _
  | @settle serial object found released unload order =>
    exact (cleanHost_traffic runtime.host object.id order).1
  | host moved =>
    cases moved with
    | response frame =>
      rw [Host.response_out]
      exact .refl _
    | next taken => exact .next taken
    | close => exact .of_subset fun _ => List.Subset.refl _
    | control plain =>
      apply Carries.tryControl
      simp [Speaks, plain]
  | @helper serial object context scope call guest reply found task invoked =>
    have carried := invoke_traffic (runtime.guest object context) scope call
    have name : (runtime.guest object context).context.id = object.id :=
      ((sound.object found).1.context task).1
    rw [invoked, name] at carried
    exact ships_own found ⟨context, none, task⟩ carried fun _ => Or.inl
  | @stay serial object context ready future next guest first found task polled =>
    have carried := (poll_traffic sound consistent found task polled).1
    exact ships_own found ⟨context, some future, task⟩ carried fun _ => Or.inr
  | @complete serial object context ready future guest first word envelope found task polled =>
    have carried := (poll_traffic sound consistent found task polled).1
    exact ships_own found ⟨context, some future, task⟩ carried fun _ => Or.inr
  | @finish serial object current context posted result found ending order =>
    rw [finish_eq]
    have dropped := (@dropRun_traffic runtime.Ships (runtime.guest current context) posted).1
    have cleaned := (@cleanHost_traffic runtime.Ships
      ((runtime.guest current context).dropRun posted).1.host current.id order).1
    exact (dropped.trans cleaned).trans (.tryControl _ (silent_stateNotice _))

/-- What is queued in a move is the request of a guest. -/
theorem Move.queued (move : Move runtime more after) (sound : Sound runtime)
    (consistent : Consistent events runtime) {id : String} {frame : Frame}
    (queued : .host (.queued id frame) ∈ more) :
    ∃ serial entry, runtime.Sends serial entry ∧ entry.frame = frame := by
  rw [mem_hosted] at queued
  cases move with
  | respond | issue | forget | bind | park | unpark | clear | absent | helper => cases queued
  | tend found tended =>
    rw [hosted_tended tended] at queued
    cases queued
  | @settle serial object found released unload order =>
    rw [Runtime.finishStop, hosted_append, hosted_host] at queued
    rcases List.mem_append.mp queued with member | member
    · exact absurd member
        ((@cleanHost_traffic nothing runtime.host object.id order).2.1 id frame)
    · cases member
  | host moved =>
    rw [hosted_host] at queued
    cases moved with
    | response value =>
      rcases Host.response_eq runtime.host value with ⟨other, -, -, same⟩ | ⟨-, same⟩ <;>
        · rw [same] at queued
          simp [Host.ignore] at queued
    | next => simp at queued
    | close | control => cases queued
  | stay found task polled =>
    rw [hosted_host] at queued
    obtain ⟨entry, sends⟩ := (poll_traffic sound consistent found task polled).2.1 id frame queued
    exact ⟨_, entry, sends⟩
  | @complete serial object context ready future guest first word envelope found task polled =>
    have silent : hosted (.completed serial future word ::
        handed serial (runtime.guest object context) word envelope) = [] := hosted_handed ..
    rw [hosted_append, silent, List.append_nil, hosted_host] at queued
    obtain ⟨entry, sends⟩ := (poll_traffic sound consistent found task polled).2.1 id frame queued
    exact ⟨_, entry, sends⟩
  | @finish serial object current context posted result found ending order =>
    rw [finish_eq, hosted_host] at queued
    rcases List.mem_append.mp queued with member | member
    · exact absurd member
        ((@dropRun_traffic nothing (runtime.guest current context) posted).2 id frame)
    · exact absurd member ((@cleanHost_traffic nothing
        ((runtime.guest current context).dropRun posted).1.host current.id order).2.1 id frame)

/-- A request that waits for space after a move was one before it. -/
theorem Move.sending (move : Move runtime more after) (sound : Sound runtime)
    (consistent : Consistent events runtime) {object : Object} {context : GuestContext}
    {call : Host.Call} {entry : DataFrame} (stored : after.heap.lookup serial = some object)
    (task : object.task = .running context (some (.calling call)))
    (phase : call.phase = .sending entry) : runtime.Sends serial entry := by
  have waiting : ∀ {old : Object}, runtime.heap.lookup serial = some old →
      old.task = .running context (some (.calling call)) → runtime.Sends serial entry :=
    fun found task => ⟨_, context, _, ⟨false, false, ⟨0, 0⟩⟩, found, task, phase⟩
  cases move.became stored with
  | same found => exact waiting found task
  | loaded => cases task
  | tended found tended =>
    rcases tended_task tended with same | ⟨-, spawned⟩ | ⟨clock, fresh⟩
    · exact waiting found (same.symm.trans task)
    · rw [spawned] at task
      cases task
    · rw [fresh] at task
      cases task
  | @worked old before posted next guest found running worked =>
    cases worked with
    | @helper scope made _ reply invoked =>
      have spec := invoke_spec (runtime.guest old before) scope made
      rw [invoked] at spec
      injection task with _ posted
      cases spec with
      | table same mailbox host wait answered | log same mailbox host wait answered =>
        cases reply with
        | posted future => exact absurd rfl (answered future)
        | _ => cases posted
      | posted kind =>
        obtain rfl := Option.some.inj posted
        simp at kind
    | stay polled =>
      cases task
      exact (poll_traffic sound consistent found running polled).2.2 call entry rfl phase
    | complete => cases task
  | finished =>
    rw [settle_task] at task
    cases task

end Moves

end Runtime

end Spinfoam
