import Spinfoam.Host.Closing
import Spinfoam.Runtime.Confinement
import Spinfoam.Runtime.Tables

/-!
# The size of the requests

What a guest can get under a handle is bounded, and so are the names of its
capabilities and the id of its object. The request of a call that has been let
through is not much larger than its arguments: it always fits the queue.
-/

namespace Spinfoam

open Spinfoam.Json Spinfoam.Std Spinfoam.Outbox Spinfoam.Guest Spinfoam.Semantics

/-- What a handle may hold. -/
def Small : Handle → Prop
  | .json value => value.size ≤ maxValueBytes
  | .bytes bytes => bytes.length ≤ maxValueBytes

/-- Handles inherit the byte limit from what they are made of. -/
theorem inherited_small : Inherited Small where
  checked := fun valid => size_le_of_validValue valid
  part := fun small within => (Value.part_le within).2.2.trans small
  dumped := by
    intro value small
    rw [Small, length_encodeUtf8]
    exact small
  bytes := fun short => short

/-- The names of the capabilities are those that a load accepts. -/
def Named (capabilities : List Capability) : Prop :=
  ∀ entry ∈ capabilities, entry.name.utf8ByteSize ≤ 128

/-- What a list of such names grants has such a name. -/
theorem Object.Grants.named {object : Object} {capability : String} {arguments : Value}
    (grants : object.Grants capability arguments) (named : Named object.capabilities) :
    capability.utf8ByteSize ≤ 128 := by
  obtain ⟨entry, listed, permits⟩ := grants
  rw [← (Capability.permits_iff.mp permits).1]
  exact named entry listed

namespace Runtime

variable {runtime after : Runtime} {events more : List Event} {serial : Nat} {object : Object}

/-- Every number that a load hands out and every list it takes is within its limits. -/
structure Modest (runtime : Runtime) : Prop where
  next : runtime.next < 2 ^ 64
  loads : ∀ {request load}, runtime.loads.lookup request = some load → Named load.capabilities
  objects : ∀ {serial object}, runtime.heap.lookup serial = some object →
    Named object.capabilities

section Moves

/-- Only a load draws a number. -/
theorem Move.next (move : Move runtime more after) (small : runtime.next < 2 ^ 64) :
    after.next < 2 ^ 64 := by
  cases move with
  | issue request fresh config names room => exact room
  | finish found ending order =>
    rw [finish_eq]
    exact small
  | respond | forget | bind | tend | park | unpark | clear | settle | absent | host | helper | stay
  | complete => exact small

/-- No move gives out more than the counters have room for. -/
theorem Modest.move (modest : Modest runtime) (move : Move runtime more after) : Modest after := by
  refine ⟨move.next modest.next, ?_, ?_⟩
  · intro request load found
    cases move with
    | issue other fresh config names =>
      obtain ⟨-, rfl⟩ | ⟨-, found⟩ := Map.lookup_insert_eq_some found
      · exact names
      · exact modest.loads found
    | forget other => exact modest.loads (Map.lookup_erase_eq_some found).2
    | bind waiting => exact modest.loads (Map.lookup_erase_eq_some found).2
    | finish found' ending order =>
      rw [finish_eq] at found
      exact modest.loads found
    | respond | tend | park | unpark | clear | settle | absent | host | helper | stay | complete =>
      exact modest.loads found
  · intro serial object stored
    cases move.became stored with
    | same found => exact modest.objects found
    | loaded waiting => exact modest.loads waiting
    | tended found tended =>
      rw [tended.same.2]
      exact modest.objects found
    | worked found =>
      have named := modest.objects found
      exact named
    | finished found ending =>
      have named := modest.objects found
      rw [Object.settle_capabilities]
      cases ending <;> exact named

/-- The arguments of a call that waits for its first poll are small. -/
def Spare (runtime : Runtime) : Prop :=
  ∀ serial object context capability arguments ms, runtime.heap.lookup serial = some object →
    object.task = .running context (some (.call capability arguments ms)) →
      arguments.size ≤ maxValueBytes

/-- The arguments come from under a handle. -/
theorem Spare.move (spare : Spare runtime) (bounded : Bounded Small runtime)
    (move : Move runtime more after) : Spare after := by
  intro serial object context capability arguments ms stored task
  cases move.asking stored task with
  | waiting found before => exact spare _ _ _ _ _ _ found before
  | posted found running list granted =>
    have table := ((bounded.objects found).guest running).2
    exact holds_json table granted.copied

/-- The request of a call fits the queue, whenever the call is polled first. -/
def Fits (runtime : Runtime) (object : Object) (capability : String) (arguments : Value)
    (ms now : Nat) : Prop :=
  ∃ frame, encode (Host.request runtime.host.nextId object.id capability arguments (timeoutMs ms)
    now) = some frame ∧ frame.length ≤ objectBytes

/-- A granted call with small arguments fits the queue. -/
theorem fits_of_small (session : runtime.host.session.utf8ByteSize ≤ 128)
    (sound : Sound runtime) (modest : Modest runtime)
    (found : runtime.heap.lookup serial = some object) {capability : String} {arguments : Value}
    (grants : object.Grants capability arguments) (small : arguments.size ≤ maxValueBytes)
    (room : runtime.host.next + 1 < 2 ^ 64) (ms now : Nat) :
    runtime.Fits object capability arguments ms now := by
  have call : runtime.host.nextId.utf8ByteSize ≤ 256 := Host.utf8ByteSize_callId_le session room
  have owner : object.id.utf8ByteSize ≤ 128 := by
    have number : serial < 2 ^ 64 :=
      (sound.numbered (Map.mem_of_lookup found)).trans_lt modest.next
    have printed : (toString serial).utf8ByteSize ≤ 4 * 20 :=
      utf8ByteSize_repr_le (by decide) (number.trans (by decide))
    have mark : "o".utf8ByteSize = 1 := by decide
    rw [(sound.object found).2, objectId, String.utf8ByteSize_append, mark]
    omega
  have name := grants.named (modest.objects found)
  have size := @Host.size_request_le _ _ _ arguments (timeoutMs ms) now call owner name
    (Nat.min_le_right _ _)
  have limits : maxValueBytes = 16384 ∧ objectBytes = 65536 ∧ maxFrame = 262144 := by decide
  have encodes : (Host.request runtime.host.nextId object.id capability arguments (timeoutMs ms)
      now).size < maxFrame := by omega
  refine ⟨⟨_, encodes⟩, encode_eq_some.mpr rfl, ?_⟩
  simp only [Frame.length_eq]
  omega

end Moves

section Lasting

/-- A helper does not open a closed outbox. -/
theorem invoke_lasts (guest : Guest) (scope : Scope) (call : HelperCall) :
    guest.host.Lasts (guest.invoke scope call).1.host := by
  have spec := invoke_spec guest scope call
  generalize guest.invoke scope call = result at spec ⊢
  cases spec with
  | table same mailbox host =>
    rw [host]
    exact .refl _
  | @log after reply message same mailbox host =>
    rw [host]
    exact .tryData _ _ _
  | posted => exact .refl _

/-- A posted future does not open a closed outbox. -/
theorem pollPosted_lasts (guest : Guest) (ready : Ready) (future : Posted)
    (good : ∀ call, future = .calling call → call.Sound) :
    guest.host.Lasts (guest.pollPosted ready future).1.host := by
  have spec := conversed guest ready future good
  generalize guest.pollPosted ready future = result at spec ⊢
  cases spec with
  | quiet plain host =>
    rw [host]
    exact .refl _
  | started started host =>
    rw [host]
    exact .of_started started
  | polled polled host =>
    rw [host]
    exact .of_polled polled

/-- Dropping a run does not open a closed outbox. -/
theorem dropRun_lasts (guest : Guest) (posted : Option Posted) :
    guest.host.Lasts (guest.dropRun posted).1.host := by
  cases posted with
  | none => exact .refl _
  | some future =>
    cases future with
    | calling call => exact .of_keeps (Host.dropGuard_spec guest.host call.guard).toKeeps
    | _ => exact .refl _

/-- Cleaning the host does not open a closed outbox. -/
theorem cleanHost_lasts (host : Host) (id : String) (order : List String) :
    host.Lasts (cleanHost host id order).1 :=
  (Host.Lasts.cancelObject host id order).trans (.removeObject _ id)

/-- No move reopens the outbox or changes the session. -/
theorem Move.lasts (move : Move runtime more after) (consistent : Consistent events runtime) :
    runtime.host.Lasts after.host := by
  have good : ∀ {serial object context future}, runtime.heap.lookup serial = some object →
      object.task = .running context (some future) → ∀ call, future = .calling call →
      call.Sound := by
    rintro serial object context future found task call rfl
    exact (consistent.sound found task).1
  cases move with
  | respond | issue | forget | bind | tend | park | unpark | clear | absent => exact .refl _
  | @settle serial object found released unload order =>
    exact cleanHost_lasts runtime.host object.id order
  | host moved =>
    cases moved with
    | response frame => exact .response _ frame
    | next taken => exact .withOut fun closed => (Outbox.next_eq_some taken).1.trans closed
    | close => exact .withOut fun _ => rfl
    | control plain => exact .tryControl _ _
  | @helper serial object context scope call guest reply found task invoked =>
    have lasts := invoke_lasts (runtime.guest object context) scope call
    rw [invoked] at lasts
    exact lasts
  | @stay serial object context ready future next guest first found task polled
  | @complete serial object context ready future guest first word envelope found task polled =>
    have lasts := pollPosted_lasts (runtime.guest object context) ready future (good found task)
    rw [polled] at lasts
    exact lasts
  | @finish serial object current context posted result found ending order =>
    rw [finish_eq]
    have dropped := dropRun_lasts (runtime.guest current context) posted
    have cleaned := cleanHost_lasts ((runtime.guest current context).dropRun posted).1.host
      current.id order
    exact (dropped.trans cleaned).trans (.tryControl _ _)

/-- Moves do not open a closed outbox. -/
theorem Moves.lasts (moves : Moves runtime more after) :
    ∀ {events}, Sound runtime → Consistent events runtime → runtime.host.Lasts after.host := by
  induction moves with
  | refl =>
    intro events _ _
    exact .refl _
  | head move _ ih =>
    intro events sound consistent
    exact (move.lasts consistent).trans (ih (sound.move move) (consistent.move sound move))

/-- The process from its start on, with the random number of its session. -/
def process (random : BitVec 128) : Machine Runtime Action Event :=
  { machine with Initial := fun runtime => runtime = { host := .new random } }

/-- The session is drawn once. -/
theorem execution_of_process {random : BitVec 128}
    {history : List (Transition Runtime Action Event)}
    (execution : (process random).Execution history runtime) :
    machine.Execution history runtime ∧ runtime.host.session = Host.sessionName random := by
  induction execution with
  | initial valid =>
    obtain rfl := valid
    exact ⟨.initial ⟨Host.sessionName random, rfl⟩, rfl⟩
  | step _ taken ih =>
    obtain ⟨before, session⟩ := ih
    have stepped : machine.step _ _ = some (_, _) := taken
    refine ⟨before.step stepped, ?_⟩
    have sound := sound_of_reachable before
    simp only [machine, Option.ite_none_left_eq_some] at stepped
    have lasts := (perform_moves sound stepped.2).lasts sound (consistent_of_execution before)
    rw [lasts.session, session]

end Lasting

section Returns

/-- A call that has returned that it is closed was cancelled with its object, unless
the outbox is closed. -/
def Severed (events : List Event) (runtime : Runtime) : Prop :=
  ∀ serial future, .completed serial future Status.closed.word ∈ events → future.calls = true →
    runtime.host.out.closed = true ∨ ∃ call, future = .calling call ∧
      call.guard.object = objectId serial ∧ .host (.objectCancelled call.guard.id) ∈ events

/-- What the size of a request depends on. -/
structure Provided (events : List Event) (runtime : Runtime) : Prop where
  consistent : Consistent events runtime
  confined : Confined events runtime
  answering : runtime.host.Answering
  bounded : Bounded Small runtime
  modest : Modest runtime
  spare : Spare runtime
  severed : runtime.host.session.utf8ByteSize ≤ 128 → Severed events runtime

/-- The request of a call that waits for its first poll fits. -/
theorem Provided.fits (provided : Provided events runtime) (sound : Sound runtime)
    (session : runtime.host.session.utf8ByteSize ≤ 128) {context : GuestContext}
    {capability : String} {arguments : Value} {ms : Nat}
    (found : runtime.heap.lookup serial = some object)
    (task : object.task = .running context (some (.call capability arguments ms)))
    (room : runtime.host.next + 1 < 2 ^ 64) (now : Nat) :
    runtime.Fits object capability arguments ms now :=
  fits_of_small session sound provided.modest found (provided.confined.posted found task).1
    (provided.spare _ _ _ _ _ _ found task) room ms now

/-- A call that answers `SF_CLOSED` in a move was severed in it or before. -/
theorem Provided.severed_move (provided : Provided events runtime) (sound : Sound runtime)
    (session : runtime.host.session.utf8ByteSize ≤ 128) (move : Move runtime more after) :
    Severed (events ++ more) after := by
  have lasts := move.lasts provided.consistent
  intro serial future completed calls
  rcases List.mem_append.mp completed with old | new
  · rcases provided.severed session serial future old calls with closed | ⟨call, same, own, taken⟩
    · exact Or.inl (lasts.closed closed)
    · exact Or.inr ⟨call, same, own, List.mem_append_left _ taken⟩
  · obtain ⟨object, context, result, found, task, ended, usual, answers⟩ :=
      move.ended provided.consistent calls new
    obtain rfl := answers.closed usual
    cases ended with
    | called returned =>
      have name : (runtime.guest object context).context.id = object.id :=
        ((sound.object found).1.context task).1
      refine Or.inl (lasts.closed ?_)
      refine provided.consistent.accounted.callClosed ?_ returned
      rw [name]
      intro room
      exact provided.fits sound session found task room _
    | @polled call space elapsed returned =>
      have guarded : runtime.live serial = some call.guard := by
        rw [live_of_lookup found, guard_running task]
        rfl
      rcases provided.consistent.accounted.closed guarded returned with closed | taken
      · exact Or.inl (lasts.closed closed)
      · have own := (provided.consistent.sound found task).2.trans (sound.object found).2
        exact Or.inr ⟨call, rfl, own, List.mem_append_left _ (mem_hosted.mpr taken)⟩

/-- Every move keeps what calls rely on. -/
theorem Provided.move (provided : Provided events runtime) (sound : Sound runtime)
    (move : Move runtime more after) : Provided (events ++ more) after where
  consistent := provided.consistent.move sound move
  confined := provided.confined.move sound provided.consistent move
  answering := move.answering provided.answering
  bounded := provided.bounded.move inherited_small provided.answering move fun _ _ _ short => short
  modest := provided.modest.move move
  spare := provided.spare.move provided.bounded move
  severed := by
    rw [(move.lasts provided.consistent).session]
    exact fun session => provided.severed_move sound session move

/-- At the start there is nothing to rely on. -/
theorem provided_start (session : String) : Provided [] { host := { session } } where
  consistent := consistent_start session
  confined := confined_start session
  answering := by
    intro id result found
    cases found
  bounded := by
    refine ⟨?_, ?_⟩
    · intro request load found
      cases found
    · intro serial object found
      cases found
  modest := by
    refine ⟨Nat.two_pow_pos 64, ?_, ?_⟩
    · intro request load found
      cases found
    · intro serial object found
      cases found
  spare := by
    intro serial object context capability arguments ms found
    cases found
  severed := by
    intro _ serial future completed
    cases completed

/-- In every run calls have what they rely on. -/
theorem provided_of_execution {history : List (Transition Runtime Action Event)}
    (execution : machine.Execution history runtime) : Provided (trace history) runtime :=
  invariant_of_moves Provided provided_start
    (fun sound provided move => provided.move sound move) execution

end Returns

section Claims

variable {history : List (Transition Runtime Action Event)}

/-- What a handle holds is small, so that the request of a call that has been let
through always fits, and a call is closed only together with the outbox or with the
calls of its object. -/
theorem host_call_fits {random : BitVec 128} (execution : (process random).Execution history runtime) :
    (∀ serial object context posted handle entry, runtime.heap.lookup serial = some object →
      object.task = .running context posted → context.handles.lookup handle = some entry →
        Small entry) ∧
    (∀ serial object context capability arguments ms now,
      runtime.heap.lookup serial = some object →
      object.task = .running context (some (.call capability arguments ms)) →
      runtime.host.next + 1 < 2 ^ 64 → runtime.Fits object capability arguments ms now) ∧
    ∀ earlier middle later, history = earlier ++ middle :: later →
      ∀ serial future, .completed serial future Status.closed.word ∈ middle.events →
        future.calls = true → middle.after.host.out.closed = true ∨
          ∃ call, future = .calling call ∧ call.guard.object = objectId serial ∧
            .host (.objectCancelled call.guard.id) ∈ trace earlier ++ middle.events := by
  obtain ⟨along, session⟩ := execution_of_process execution
  have short : runtime.host.session.utf8ByteSize ≤ 128 := by
    rw [session]
    exact Host.utf8ByteSize_sessionName_le random
  have provided := provided_of_execution along
  refine ⟨?_, ?_, ?_⟩
  · intro serial object context posted handle entry found task stored
    exact ((provided.bounded.objects found).guest task).2 handle entry stored
  · intro serial object context capability arguments ms now found task room
    exact provided.fits (sound_of_reachable along) short found task room now
  · intro earlier middle later split serial future completed calls
    obtain ⟨before, taken⟩ := execution.cut split
    obtain ⟨reached, first⟩ := execution_of_process (before.step taken)
    have severed := (provided_of_execution reached).severed (by
      rw [first]
      exact Host.utf8ByteSize_sessionName_le random)
    simpa using severed serial future (by simpa using Or.inr completed) calls

/-- Whether the first object waits for the first poll of a call, and an id is left for it. -/
def waits (runtime : Runtime) : Bool :=
  decide (runtime.host.next + 1 < 2 ^ 64) &&
    match (runtime.heap.lookup 1).map Object.task with
    | some (.running _ (some (.call _ _ _))) => true
    | _ => false

/-- The request of a guest that may read fits before it is sent. -/
theorem host_call_fits_read :
    ∃ history runtime object context capability arguments ms,
      (process 0).Execution history runtime ∧ runtime.heap.lookup 1 = some object ∧
      object.task = .running context (some (.call capability arguments ms)) ∧
      runtime.Fits object capability arguments ms 0 := by
  have evaluated : (((process 0).run { host := .new 0 } (readOnce.take 7)).any fun result =>
      waits result.2) = true := by decide +kernel
  obtain ⟨history, runtime, execution, waiting⟩ := Machine.execution_of_test evaluated rfl
  simp only [waits, Bool.and_eq_true, decide_eq_true_eq] at waiting
  obtain ⟨room, posted⟩ := waiting
  split at posted
  · rename_i context capability arguments ms task
    obtain ⟨object, found, running⟩ := Option.map_eq_some_iff.mp task
    refine ⟨history, runtime, object, context, capability, arguments, ms, execution, found,
      running, ?_⟩
    exact (host_call_fits execution).2.1 1 object context capability arguments ms 0 found running
      room
  · cases posted

end Claims

end Runtime

end Spinfoam
