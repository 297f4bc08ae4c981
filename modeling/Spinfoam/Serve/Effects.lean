import Spinfoam.Serve.Session

/-!
# What a step of a session does

Every step has one of a few effects. Results about sessions are proved against
these and do not unfold the loop.
-/

namespace Spinfoam.Serve

open Spinfoam.Json Spinfoam.Std Spinfoam.Outbox Spinfoam.Semantics

/-- A frame that answers nothing that was a request. -/
def Unasked (frame : Frame) : Prop :=
  frame.value.get "method" ≠ none ∨ frame.value.get "id" = some .null

/-- Why a request is refused at once. -/
inductive Refusal (session : Session) (asked : Asked) : RpcError → Prop where
  | duplicate (held : asked.id ∈ session.ids) : Refusal session asked duplicateId
  | busy (new : asked.id ∉ session.ids) (metered : asked.metered = true)
      (full : session.slots = 0) : Refusal session asked tooManyRequests

/-- What the loop does with a frame. -/
inductive Received (session : Session) : List Event → Session → Prop where
  | passed : Received session [] session
  /-- The frame is a response to a host call. -/
  | answered {host : Host} {events : List Host.Event} (same : host.out = session.out) :
      Received session (events.map fun event => .runtime (.host event))
        { session with runtime := { session.runtime with host } }
  | rejected {frame : Frame} {out : Outbox} (unasked : Unasked frame)
      (offered : session.out.offer .control ⟨frame, none⟩ = some out) :
      Received session [.queued none frame] (session.withOut out)
  /-- An answer could not be queued. -/
  | left : Received session [] { session with left := true }
  | refused {asked : Asked} {error : RpcError} {frame : Frame} {out : Outbox}
      (refusal : Refusal session asked error)
      (value : frame.value = response (.string asked.id) (.error error))
      (offered : session.out.offer .control ⟨frame, none⟩ = some out) :
      Received session [.requested asked, .queued (some asked) frame] (session.withOut out)
  | abandoned (asked : Asked) : Received session [.requested asked] { session with left := true }
  | spawned {asked : Asked} (short : asked.id.utf8ByteSize ≤ 128) (new : asked.id ∉ session.ids)
      (free : asked.metered = true → session.slots ≠ 0) :
      Received session [.requested asked] (session.spawn asked)

/-- The bytes the reader has for a turn of `frame`: those it had buffered, or new ones. -/
inductive Filled (session : Session) : List Event → List UInt8 → Prop where
  | buffered (waiting : session.buffer ≠ []) : Filled session [] session.buffer
  | arrived (empty : session.buffer = []) (bytes : List UInt8) :
      Filled session [.arrived bytes] bytes

/-- What the attempt of a task to queue its response comes to. -/
inductive Sent (session : Session) (number : Nat) (task : Task) (frame : Frame)
    (shutdown : Bool) : List Event → Session → Prop where
  | closed (closed : session.out.closed = true) :
      Sent session number task frame shutdown [.unsent task.asked .closed]
        (session.finish number task shutdown)
  | queued {out : Outbox} (offered : session.out.offer .control ⟨frame, none⟩ = some out) :
      Sent session number task frame shutdown [.queued (some task.asked) frame]
        ((session.withOut out).finish number task shutdown)
  | parked (isOpen : session.out.closed = false) :
      Sent session number task frame shutdown []
        { session with
          tasks := session.tasks.insert number { task with phase := .sending frame shutdown } }

inductive Effect (session : Session) (action : Action) : List Event → Session → Prop where
  | idle : Effect session action [] session
  | runtime {runtime : Runtime} (events : List Runtime.Event)
      (noticed : session.out.Noticed runtime.host.out) :
      Effect session action
        (events.map .runtime ++ (added session.out runtime.host.out).map (.queued none))
        { session with runtime }
  | wrote {frame : Frame} {out : Outbox} (taken : session.out.next = some (frame, out)) :
      Effect session action [.written session.out.queues.serving frame] (session.withOut out)
  | left : Effect session action [] { session with left := true }
  | handled {number : Nat} {task : Task} (found : session.tasks.lookup number = some task)
      (phase : task.phase = .handling) (result : RpcResult) {frame : Frame} {shutdown : Bool}
      {events : List Event} {after : Session}
      (encoded : encodeControl (response (.string task.asked.id) result) = some frame)
      (sent : Sent session number task frame shutdown events after) : Effect session action events after
  | tooLarge {number : Nat} {task : Task} (found : session.tasks.lookup number = some task)
      (phase : task.phase = .handling) {result : RpcResult} {shutdown : Bool}
      (encoded : encodeControl (response (.string task.asked.id) result) = none) :
      Effect session action [.unsent task.asked .frameTooLarge] (session.finish number task shutdown)
  | polled {number : Nat} {task : Task} (found : session.tasks.lookup number = some task)
      {frame : Frame} {shutdown : Bool} (phase : task.phase = .sending frame shutdown)
      {events : List Event} {after : Session}
      (sent : Sent session number task frame shutdown events after) : Effect session action events after
  | joined {number : Nat} {task : Task} (joins : action = .joined number)
      (found : session.tasks.lookup number = some task)
      (phase : task.phase = .finished) :
      Effect session action [] { session with tasks := session.tasks.erase number, frame := [] }
  | ended {input : List Event} {bytes : List UInt8} (filled : Filled session input bytes) :
      Effect session action input { session with buffer := bytes, left := true }
  | more {input : List Event} {bytes : List UInt8} (filled : Filled session input bytes)
      (inner : newline ∉ bytes) :
      Effect session action input { session with frame := session.frame ++ bytes, buffer := [] }
  | framed {input : List Event} {front rest : List UInt8} {events : List Event} {after : Session}
      (filled : Filled session input (front ++ newline :: rest)) (inner : newline ∉ front)
      (received : Received { session with frame := [], buffer := rest } events after) :
      Effect session action (input ++ .framed (session.frame ++ (front ++ [newline])) :: events) after

section Spec

variable {session : Session}

/-- An answer of the loop is queued, or the loop is left. -/
theorem answer_spec (session : Session) (asked : Option Asked) (value : Value) :
    session.answer asked value = ({ session with left := true }, []) ∨
      ∃ frame out, frame.value = value ∧ session.out.offer .control ⟨frame, none⟩ = some out ∧
        session.answer asked value = (session.withOut out, [.queued asked frame]) := by
  unfold Session.answer
  rcases Outbox.tryControl_spec session.out value with same | ⟨frame, out, encoded, offered, same⟩
  · left
    rw [same]
    rfl
  · right
    refine ⟨frame, out, encode_eq_some.mp encoded, offered, ?_⟩
    simp [same, encoded]

/-- What is no well-formed request is answered without an id. -/
theorem reject_spec (session : Session) (code : Int) (kind message : String) :
    Received session (session.reject code kind message).2 (session.reject code kind message).1 := by
  unfold Session.reject
  rcases answer_spec session none (response .null (.error (.new code kind message))) with
    same | ⟨frame, out, value, offered, same⟩
  · rw [same]
    exact .left
  · rw [same]
    refine .rejected (Or.inr ?_) offered
    rw [value]
    rfl

/-- A request is refused, or gets a task of its own. -/
theorem request_spec (session : Session) {asked : Asked} (short : asked.id.utf8ByteSize ≤ 128) :
    Received session (session.request asked).2 (session.request asked).1 := by
  have refused : ∀ error, Refusal session asked error → ∀ result,
      result = session.answer (some asked) (response (.string asked.id) (.error error)) →
      Received session (.requested asked :: result.2) result.1 := by
    rintro error refusal result rfl
    rcases answer_spec session (some asked) (response (.string asked.id) (.error error)) with
      same | ⟨frame, out, value, offered, same⟩
    · rw [same]
      exact .abandoned asked
    · rw [same]
      exact .refused refusal value offered
  unfold Session.request
  split_ifs with held full
  · exact refused _ (.duplicate held) _ rfl
  · exact refused _ (.busy held full.1 full.2) _ rfl
  · exact .spawned short held fun metered none => full ⟨metered, none⟩

/-- The id of a request is short. -/
theorem requestId_eq_some {value : Value} {text : String}
    (allowed : Session.requestId value = some text) : text.utf8ByteSize ≤ 128 := by
  unfold Session.requestId at allowed
  split at allowed
  · simp only [Option.ite_none_left_eq_some, not_lt, Option.some.injEq] at allowed
    obtain ⟨short, rfl⟩ := allowed
    exact short
  · cases allowed

/-- What the loop does with a value. -/
theorem receive_spec (session : Session) (value : Value) :
    Received session (session.receive value).2 (session.receive value).1 := by
  unfold Session.receive
  extract_lets isObject
  by_cases shape : (!isObject) ∨ (value.get "jsonrpc").bind Value.asStr ≠ some "2.0"
  · rw [if_pos shape]
    exact reject_spec ..
  · rw [if_neg shape]
    by_cases reply : value.get "method" = none ∧ value.get "id" ≠ none ∧
        (value.get "result" ≠ none ∨ value.get "error" ≠ none)
    · rw [if_pos reply]
      exact .answered (Host.response_out session.runtime.host value)
    · rw [if_neg reply]
      split
      · exact reject_spec ..
      · split
        · exact .passed
        · split
          · exact reject_spec ..
          · rename_i id allowed
            exact request_spec session (requestId_eq_some allowed)

/-- What the loop does with a frame. -/
theorem parse_spec (fromSlice : List UInt8 → Except String Value) (session : Session)
    (frame : List UInt8) :
    Received session (session.parse fromSlice frame).2 (session.parse fromSlice frame).1 := by
  unfold Session.parse
  split
  · exact reject_spec ..
  · exact receive_spec ..

/-- A task that sends its response is done, or waits for space. -/
theorem send_spec (session : Session) (number : Nat) (task : Task) (frame : Frame)
    (shutdown : Bool) :
    Sent session number task frame shutdown (session.send number task frame shutdown).2
      (session.send number task frame shutdown).1 := by
  unfold Session.send
  by_cases closed : session.out.closed = true
  · rw [if_pos closed]
    exact .closed closed
  · rw [if_neg closed]
    split
    · rename_i out offered
      exact .queued offered
    · exact .parked (by simpa using closed)

/-- A turn of `frame` and what follows it. -/
theorem progress_spec (fromSlice : List UInt8 → Except String Value) (action : Action) {input : List Event}
    {bytes : List UInt8} (filled : Filled session input bytes) :
    let result := ({ session with buffer := bytes } : Session).progress fromSlice
      (frameTurn session.frame bytes)
    Effect session action (input ++ result.2) result.1 := by
  have turned := frameTurn_spec session.frame bytes
  generalize frameTurn session.frame bytes = progress at turned
  cases turned with
  | eof | cut | tooLong => simpa [Session.progress] using Effect.ended filled
  | more _ inner => simpa [Session.progress] using Effect.more filled inner
  | framed front rest inner =>
    exact .framed filled inner (parse_spec fromSlice _ _)

/-- Every step has one of the effects. -/
theorem step_spec {fromSlice : List UInt8 → Except String Value} {after : Session}
    {action : Action} {events : List Event}
    (taken : (machine fromSlice).step session action = some (after, events)) :
    session.left = false ∧ Effect session action events after := by
  simp only [machine, Option.ite_none_left_eq_some, not_or, Bool.not_eq_true] at taken
  obtain ⟨⟨live, -⟩, taken⟩ := taken
  refine ⟨live, ?_⟩
  cases action with
  | runtime action =>
    simp only [Session.perform, Option.ite_none_right_eq_some, Option.map_eq_some_iff] at taken
    obtain ⟨own, ⟨runtime, emitted⟩, stepped, same⟩ := taken
    obtain ⟨rfl, rfl⟩ := Prod.mk.inj same
    apply Effect.runtime
    simp only [Runtime.machine, Option.ite_none_left_eq_some] at stepped
    refine Runtime.noticed_perform ?_ ?_ stepped.2
    · rintro value rfl
      cases own
    · rintro rfl
      cases own
  | write =>
    simp only [Session.perform] at taken
    split at taken
    · obtain ⟨rfl, rfl⟩ := Prod.mk.inj (Option.some.inj taken)
      exact .idle
    · rename_i frame out next
      obtain ⟨rfl, rfl⟩ := Prod.mk.inj (Option.some.inj taken)
      exact .wrote next
  | handled number result =>
    simp only [Session.perform, Option.bind_eq_some_iff, Option.ite_none_right_eq_some,
      Option.some.injEq] at taken
    obtain ⟨task, found, phase, same⟩ := taken
    unfold Session.handled at same
    extract_lets shutdown at same
    split at same
    · rename_i encoded
      obtain ⟨rfl, rfl⟩ := Prod.mk.inj same
      exact .tooLarge found phase encoded
    · rename_i frame encoded
      have sent := send_spec session number task frame shutdown
      rw [same] at sent
      exact .handled found phase result encoded sent
  | poll number =>
    simp only [Session.perform, Option.bind_eq_some_iff] at taken
    obtain ⟨task, found, taken⟩ := taken
    split at taken
    · rename_i frame shutdown phase
      have sent := send_spec session number task frame shutdown
      rw [Option.some.inj taken] at sent
      exact .polled found phase sent
    · cases taken
  | signal =>
    obtain ⟨rfl, rfl⟩ := Prod.mk.inj (Option.some.inj taken)
    exact .left
  | leave =>
    simp only [Session.perform, Option.ite_none_right_eq_some, Option.some.injEq,
      Prod.mk.injEq] at taken
    obtain ⟨-, rfl, rfl⟩ := taken
    exact .left
  | joined number =>
    simp only [Session.perform, Option.ite_none_left_eq_some, Option.bind_eq_some_iff,
      Option.ite_none_right_eq_some, Option.some.injEq, Prod.mk.injEq] at taken
    obtain ⟨-, task, found, phase, rfl, rfl⟩ := taken
    exact .joined rfl found phase
  | frame read =>
    simp only [Session.perform, Option.ite_none_left_eq_some] at taken
    obtain ⟨-, taken⟩ := taken
    by_cases waiting : session.buffer ≠ []
    · rw [if_pos waiting] at taken
      have effect := progress_spec fromSlice (.frame read) (.buffered waiting)
      simpa [Option.some.inj taken] using effect
    · rw [if_neg waiting] at taken
      split at taken
      · obtain ⟨rfl, rfl⟩ := Prod.mk.inj (Option.some.inj taken)
        exact .left
      · rename_i bytes
        have effect := progress_spec fromSlice (.frame (.ok bytes))
          (.arrived (not_not.mp waiting) bytes)
        obtain ⟨rfl, rfl⟩ := Prod.mk.inj (Option.some.inj taken)
        exact effect

end Spec

end Spinfoam.Serve
