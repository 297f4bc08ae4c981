import Spinfoam.Host.Effects

/-!
# What host calls return

A result that reaches a guest is a value within the limits or a negative status,
whatever the embedder has sent.
-/

namespace Spinfoam

open Spinfoam.Json Spinfoam.Std Spinfoam.Outbox

/-- A word of the guest's return register that is negative as a signed number. -/
def Negative (word : Nat) : Prop := 2 ^ 63 ≤ word

instance (word : Nat) : Decidable (Negative word) := inferInstanceAs (Decidable (_ ≤ _))

/-- A status as the guest's return register holds it. -/
def Status.word (status : Status) : Nat := (status % 2 ^ 64).toNat

namespace Host

/-- A result that may be handed to a guest. -/
def Result.Proper : Result → Prop
  | .ok value => validValue value = true
  | .error status => Negative status.word

/-- All replies that wait for their calls are proper. -/
def Answering (host : Host) : Prop :=
  ∀ id result, host.replies.lookup id = some result → Result.Proper result

/-- What an operation leaves behind is proper, and so is what it returns. -/
def Answers (result : Host × List Event × Outcome) : Prop :=
  result.1.Answering ∧ ∀ value, result.2.2 = .ready value → Result.Proper value

variable {host after : Host}

/-- `SF_CLOSED` may be handed to a guest. -/
theorem proper_closed : Result.Proper (.error Status.closed) :=
  (by decide : Negative Status.closed.word)

/-- `SF_TIMEOUT` may be handed to a guest. -/
theorem proper_timeout : Result.Proper (.error Status.timeout) :=
  (by decide : Negative Status.timeout.word)

/-- `SF_LIMIT` may be handed to a guest. -/
theorem proper_limit : Result.Proper (.error Status.limit) :=
  (by decide : Negative Status.limit.word)

/-- `SF_HOST_ERROR` may be handed to a guest. -/
theorem proper_hostError : Result.Proper (.error Status.hostError) :=
  (by decide : Negative Status.hostError.word)

/-- Whatever a response says, it stands for a proper result. -/
theorem proper_resultOf (frame : Value) : Result.Proper (resultOf frame) := by
  unfold resultOf
  split
  · split_ifs with valid
    · exact valid
    · exact proper_limit
  · exact proper_hostError

/-- A reply channel gets a proper result. -/
theorem Answering.insert (answering : host.Answering) {id : String} {result : Result}
    (proper : result.Proper) (replies : after.replies = host.replies.insert id result) :
    after.Answering := by
  intro other value found
  rw [replies] at found
  obtain ⟨-, rfl⟩ | ⟨-, found⟩ := Map.lookup_insert_eq_some found
  · exact proper
  · exact answering other value found

/-- A reply channel is given up. -/
theorem Answering.erase (answering : host.Answering) {id : String}
    (replies : after.replies = host.replies.erase id) : after.Answering := by
  intro other value found
  rw [replies] at found
  exact answering other value (Map.lookup_erase_eq_some found).2

/-- A guard that is dropped leaves the other replies as they are. -/
theorem Answering.dropGuard (answering : host.Answering) (guard : CallGuard) :
    (host.dropGuard guard).1.Answering :=
  answering.erase (dropGuard_spec host guard).replies

/-- A call that ends with a proper result has a proper answer. -/
private theorem Answering.finish (answering : host.Answering) (guard : CallGuard) {result : Result}
    (proper : result.Proper) : Answers (host.finish guard result) := by
  refine ⟨answering.dropGuard guard, ?_⟩
  rintro value same
  obtain rfl := Outcome.ready.inj same
  exact proper

/-- What a call finds as its reply is proper, and so is a timeout. -/
private theorem Answering.pollReply (answering : host.Answering) (guard : CallGuard)
    (elapsed : Bool) : Answers (host.pollReply guard elapsed) := by
  rcases pollReply_eq host guard elapsed with ⟨-, same⟩ | ⟨result, same, reply⟩
  · rw [same]
    exact ⟨answering, by simp⟩
  · rw [same]
    apply answering.finish
    rcases reply with replied | rfl | rfl
    · exact answering _ _ replied
    · exact proper_closed
    · exact proper_timeout

/-- A call that waits for space ends properly. -/
private theorem Answering.pollSend (answering : host.Answering) (guard : CallGuard)
    (entry : DataFrame) (elapsed : Bool) : Answers (host.pollSend guard entry elapsed) := by
  unfold Host.pollSend
  by_cases closed : host.out.closed = true
  · rw [if_pos closed]
    exact answering.finish guard proper_closed
  · rw [if_neg closed]
    split
    · rename_i out offered
      have kept : ({ host with out } : Host).Answering := answering
      exact kept.pollReply _ elapsed
    · split_ifs
      · exact answering.finish guard proper_timeout
      · exact ⟨answering, by simp⟩

/-- A call that offers its request ends properly, or waits. -/
private theorem Answering.startSend (answering : host.Answering) (guard : CallGuard)
    (request : Value) (elapsed : Bool) : Answers (host.startSend guard request elapsed) := by
  unfold Host.startSend
  split
  · exact answering.finish guard proper_closed
  · split_ifs
    · exact answering.finish guard proper_closed
    · exact answering.pollSend guard _ elapsed

/-- A poll of a suspended call. -/
theorem Answering.poll (answering : host.Answering) (call : Call) (spaceReady elapsed : Bool) :
    Answers (host.poll call spaceReady elapsed) := by
  unfold Host.poll
  split
  · exact answering.pollReply _ elapsed
  · split_ifs
    · exact answering.pollSend _ _ elapsed
    · exact answering.finish _ proper_timeout
    · exact ⟨answering, by simp⟩

/-- The first poll of a call. -/
theorem Answering.call (answering : host.Answering) (object capability : String)
    (arguments : Value) (timeoutMs now : Nat) (elapsed : Bool) :
    Answers (host.call object capability arguments timeoutMs now elapsed) := by
  simp only [Host.call]
  split_ifs
  · exact ⟨answering, by simpa using proper_limit⟩
  · exact ⟨answering, by simpa using proper_limit⟩
  · have registered : (host.register object).Answering := answering
    have started := registered.startSend { id := host.nextId, sent := false, object }
      (request host.nextId object capability arguments timeoutMs now) elapsed
    generalize Host.startSend _ _ _ _ = result at started ⊢
    exact started

/-- A call that is dropped leaves proper replies behind. -/
theorem Answering.abandon (answering : host.Answering) (call : Call) :
    (host.abandon call).1.Answering :=
  answering.dropGuard call.guard

/-- `Host::response` stores nothing but proper results. -/
theorem Answering.response (answering : host.Answering) (frame : Value) :
    (host.response frame).1.Answering := by
  rcases response_eq host frame with ⟨id, -, -, same⟩ | ⟨-, same⟩
  · rw [same]
    exact answering.insert (proper_resultOf frame) rfl
  · rw [same]
    exact answering

/-- A call that is cancelled gets a proper reply. -/
theorem Answering.cancelCall (answering : host.Answering) (id : String) :
    (host.cancelCall id).1.Answering := by
  by_cases registered : id ∈ host.pending
  · exact answering.insert proper_closed (cancelCall_spec registered).replies
  · rwa [cancelCall_of_not_mem registered]

/-- Cancelling calls one after the other keeps all replies proper. -/
theorem Answering.cancelCalls (answering : host.Answering) (ids : List String) :
    (host.cancelCalls ids).1.Answering := by
  induction ids generalizing host with
  | nil => exact answering
  | cons id rest ih => exact ih (answering.cancelCall id)

/-- The end of an object keeps all replies proper. -/
theorem Answering.cancelObject (answering : host.Answering) (object : String)
    (order : List String) : (host.cancelObject object order).1.Answering :=
  answering.cancelCalls _

end Host

end Spinfoam
