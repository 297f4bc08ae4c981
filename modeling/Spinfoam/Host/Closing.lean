import Spinfoam.Host.Accounts
import Spinfoam.Json.Measures

/-!
# Closed calls

A call returns that it is closed if the outbox is, if its object has been
cancelled, or if its request is too large for the queues. An outbox that is closed
stays closed.
-/

namespace Spinfoam.Host

open Spinfoam.Json Spinfoam.Std Spinfoam.Outbox

variable {host : Host} {guard : CallGuard} {elapsed : Bool}

/-- A call has got the reply that it is closed, or cannot get any. -/
def Cut (host : Host) (id : String) : Prop :=
  host.replies.lookup id = some (.error Status.closed) ∨ id ∉ host.pending ∧ id ∉ host.replies

/-- Only a call that was cut off finds its reply closed. -/
theorem pollReply_closed
    (returned : (host.pollReply guard elapsed).2.2 = .ready (.error Status.closed)) :
    host.Cut guard.id := by
  unfold pollReply at returned
  cases replied : host.replies.lookup guard.id with
  | some result =>
    rw [replied] at returned
    obtain rfl := Outcome.ready.inj returned
    exact Or.inl replied
  | none =>
    rw [replied] at returned
    by_cases registered : guard.id ∈ host.pending
    · simp only [registered, not_true_eq_false, if_false] at returned
      split_ifs at returned
      exact absurd (Outcome.ready.inj returned) (by decide)
    · exact Or.inr ⟨registered, AList.lookup_eq_none.mp replied⟩

/-- A call that waits for space is closed with the outbox or cut off. -/
theorem pollSend_closed {entry : DataFrame}
    (returned : (host.pollSend guard entry elapsed).2.2 = .ready (.error Status.closed)) :
    host.out.closed = true ∨ host.Cut guard.id := by
  unfold pollSend at returned
  by_cases closed : host.out.closed = true
  · exact Or.inl closed
  · rw [if_neg closed] at returned
    split at returned
    · rename_i out offered
      have replied : (pollReply { host with out } { guard with sent := true } elapsed).2.2 =
          .ready (.error Status.closed) := returned
      have cut := pollReply_closed replied
      exact Or.inr cut
    · split_ifs at returned
      exact absurd (Outcome.ready.inj returned) (by decide)

/-- Whenever a call answers `SF_CLOSED`, the outbox is closed or the call was cut off. -/
theorem poll_closed {call : Call} {spaceReady : Bool}
    (returned : (host.poll call spaceReady elapsed).2.2 = .ready (.error Status.closed)) :
    host.out.closed = true ∨ host.Cut call.guard.id := by
  unfold poll at returned
  split at returned
  · exact Or.inr (pollReply_closed returned)
  · split_ifs at returned
    · exact pollSend_closed returned
    · exact absurd (Outcome.ready.inj returned) (by decide)

/-- A call whose request fits the queues is closed at once only with the outbox. -/
theorem call_closed {object capability : String} {arguments : Value} {timeoutMs now : Nat}
    (fits : host.next + 1 < 2 ^ 64 → ∃ frame,
      encode (request host.nextId object capability arguments timeoutMs now) = some frame ∧
        frame.length ≤ objectBytes)
    (returned : (host.call object capability arguments timeoutMs now elapsed).2.2 =
      .ready (.error Status.closed)) :
    host.out.closed = true ∨ (host.register object).Cut host.nextId := by
  unfold call at returned
  split_ifs at returned with full exhausted
  · exact absurd (Outcome.ready.inj returned) (by decide)
  · exact absurd (Outcome.ready.inj returned) (by decide)
  · obtain ⟨frame, encoded, short⟩ := fits (not_le.mp exhausted)
    simp only [startSend, encoded, if_neg (not_lt.mpr short)] at returned
    exact pollSend_closed returned

variable {events : List Event} {live : Nat → Option CallGuard}

/-- A suspended call is closed by its object or by the outbox. -/
theorem Accounted.closed (accounted : Accounted events host live) {future : Nat} {call : Call}
    (found : live future = some call.guard) {spaceReady : Bool}
    (returned : (host.poll call spaceReady elapsed).2.2 = .ready (.error Status.closed)) :
    host.out.closed = true ∨ .objectCancelled call.guard.id ∈ events := by
  rcases poll_closed returned with closed | replied | ⟨unregistered, unreplied⟩
  · exact Or.inl closed
  · exact Or.inr (accounted.answers.cancelled replied)
  · rcases accounted.answers.awaited found with member | member
    · exact absurd member unregistered
    · exact absurd member unreplied

/-- A new call has got no reply. -/
theorem Accounted.callClosed (accounted : Accounted events host live)
    {object capability : String} {arguments : Value} {timeoutMs now : Nat}
    (fits : host.next + 1 < 2 ^ 64 → ∃ frame,
      encode (request host.nextId object capability arguments timeoutMs now) = some frame ∧
        frame.length ≤ objectBytes)
    (returned : (host.call object capability arguments timeoutMs now elapsed).2.2 =
      .ready (.error Status.closed)) : host.out.closed = true := by
  rcases call_closed fits returned with closed | replied | ⟨unregistered, -⟩
  · exact closed
  · have registry := accounted.ledger.toRegistry
    exact absurd rfl (registry.unknown registry.next_fresh (accounted.answers.cancelled replied))
  · exact absurd ((AList.mem_insert _).mpr (Or.inl rfl)) unregistered

section Sizes

/-- The session is thirty-two hexadecimal digits. -/
theorem utf8ByteSize_sessionName_le (random : BitVec 128) :
    (sessionName random).utf8ByteSize ≤ 128 := by
  have digits : (Nat.toDigits 16 random.toNat).length ≤ 32 := by
    rw [Nat.length_toDigits_le_iff (by decide) (by decide)]
    exact random.isLt
  have bytes := utf8ByteSize_le_length (sessionName random)
  rw [sessionName, String.length_ofList, List.length_append, List.length_replicate] at bytes
  rw [sessionName]
  omega

/-- The id of a call is short. -/
theorem utf8ByteSize_callId_le {session : String} {serial : Nat}
    (short : session.utf8ByteSize ≤ 128) (small : serial < 2 ^ 64) :
    (callId session serial).utf8ByteSize ≤ 256 := by
  have printed : (toString serial).utf8ByteSize ≤ 4 * 20 :=
    utf8ByteSize_repr_le (by decide) (small.trans (by decide))
  have marks : "sf:".utf8ByteSize = 3 ∧ ":".utf8ByteSize = 1 := by decide
  simp only [callId, String.utf8ByteSize_append, marks.1, marks.2]
  omega

/-- A request is not much larger than its arguments. -/
theorem size_request_le {id object capability : String} {arguments : Value} {timeoutMs now : Nat}
    (call : id.utf8ByteSize ≤ 256) (owner : object.utf8ByteSize ≤ 128)
    (name : capability.utf8ByteSize ≤ 128) (limited : timeoutMs ≤ 86400000) :
    (request id object capability arguments timeoutMs now).size ≤ arguments.size + 8192 := by
  have strings : ∀ text : String, (Value.string text).size ≤ 6 * text.utf8ByteSize + 2 :=
    Value.utf8ByteSize_quote_le
  have deadline : (Value.number (.int ((now + timeoutMs) % 2 ^ 128 : Nat))).size ≤ 4 * 39 + 1 := by
    apply size_int_le (by decide)
    exact (Nat.mod_lt _ (by decide)).trans (by decide)
  have result : (Value.number (.int maxValueBytes)).size ≤ 4 * 5 + 1 :=
    size_int_le (by decide) (by decide)
  have timeout : (Value.number (.int timeoutMs)).size ≤ 4 * 8 + 1 := by
    apply size_int_le (by decide)
    exact limited.trans_lt (by decide)
  have version := strings "2.0"
  have method := strings "host.call"
  have called := strings id
  have named := strings capability
  have owned := strings object
  have texts : "2.0".utf8ByteSize = 3 ∧ "host.call".utf8ByteSize = 9 := by decide
  have keys : (Value.quote "id").utf8ByteSize + (Value.quote "jsonrpc").utf8ByteSize +
      (Value.quote "method").utf8ByteSize + (Value.quote "params").utf8ByteSize +
      (Value.quote "arguments").utf8ByteSize + (Value.quote "capability").utf8ByteSize +
      (Value.quote "deadline_unix_ms").utf8ByteSize + (Value.quote "max_result_bytes").utf8ByteSize +
      (Value.quote "object_id").utf8ByteSize + (Value.quote "timeout_ms").utf8ByteSize ≤ 256 := by
    decide
  simp only [request, Value.size_object, List.map_cons, List.map_nil, List.sum_cons, List.sum_nil]
  omega

end Sizes

section Lasting

variable {after : Host}

/-- The session stays the same, and a closed outbox stays closed. -/
structure Lasts (host after : Host) : Prop where
  session : after.session = host.session
  closed : host.out.closed = true → after.out.closed = true

namespace Lasts

variable {middle : Host}

theorem refl (host : Host) : Lasts host host := ⟨rfl, id⟩

theorem trans (first : Lasts host middle) (second : Lasts middle after) : Lasts host after :=
  ⟨second.session.trans first.session, fun closed => second.closed (first.closed closed)⟩

/-- What keeps session and outbox lasts. -/
theorem of_keeps (keeps : Keeps host after) : Lasts host after :=
  ⟨keeps.session, fun closed => keeps.closed.trans closed⟩

/-- The outbox may be exchanged for one that is closed if it was. -/
theorem withOut {out : Outbox} (closed : host.out.closed = true → out.closed = true) :
    Lasts host { host with out } := ⟨rfl, closed⟩

/-- Nothing is queued in a closed outbox. -/
theorem offer {lane : Lane} {entry : DataFrame} {out : Outbox}
    (offered : host.out.offer lane entry = some out) : Lasts host { host with out } := by
  apply withOut
  intro closed
  rw [(Outbox.offer_eq_some offered).1] at closed
  cases closed

/-- `try_control` does not open a closed outbox. -/
theorem tryControl (host : Host) (value : Value) :
    Lasts host { host with out := (host.out.tryControl value).1 } := by
  rcases host.out.tryControl_spec value with same | ⟨frame, out, -, offered, same⟩
  · rw [same]
    exact refl host
  · rw [same]
    exact offer offered

/-- `try_data` does not open a closed outbox. -/
theorem tryData (host : Host) (object : String) (value : Value) :
    Lasts host { host with out := (host.out.tryData object value).1 } := by
  apply withOut
  intro closed
  unfold Outbox.tryData
  split
  · exact closed
  · split
    · exact closed
    · rename_i out offered
      have lasts := offer offered
      exact lasts.closed closed

/-- `remove_object` does not open a closed outbox. -/
theorem removeObject (host : Host) (object : String) :
    Lasts host { host with out := host.out.removeObject object } := by
  apply withOut
  intro closed
  exact (host.out.removeObject_spec object).1.trans closed

/-- A response does not open a closed outbox. -/
theorem response (host : Host) (frame : Value) : Lasts host (host.response frame).1 := by
  refine ⟨?_, ?_⟩
  · rcases host.response_eq frame with ⟨id, -, -, same⟩ | ⟨-, same⟩
    · rw [same]
    · rw [same]
      rfl
  · rw [response_out]
    exact id

/-- The end of an object does not open a closed outbox. -/
theorem cancelObject (host : Host) (object : String) (order : List String) :
    Lasts host (host.cancelObject object order).1 := by
  refine @cancelCalls_induction (fun _ after => Lasts host after) (fun _ => True) ?_
    (host.idsOf object order) (fun _ _ => trivial) [] host (refl host)
  rintro - after id - lasts
  refine lasts.trans ?_
  by_cases registered : id ∈ after.pending
  · exact of_keeps (cancelCall_spec registered).toKeeps
  · rw [cancelCall_of_not_mem registered]
    exact refl after

/-- A poll of a call does not open a closed outbox. -/
theorem of_polled {sends : DataFrame → Prop} {result : Host × List Event × Outcome}
    (polled : Polled guard sends host result) : Lasts host result.1 := by
  cases polled with
  | parked | waiting => exact refl host
  | queued sending offered => exact offer offered
  | returned withdrawn => exact of_keeps withdrawn.toKeeps
  | queuedReturned sending withdrawn =>
    have keeps := withdrawn.toKeeps
    exact of_keeps keeps

/-- The first poll of a call does not open a closed outbox. -/
theorem of_started {object capability : String} {arguments : Value} {timeoutMs now : Nat}
    {result : Host × List Event × Outcome}
    (started : Started object capability arguments timeoutMs now host result) :
    Lasts host result.1 := by
  cases started with
  | refused => exact refl host
  | registered polled =>
    have registered : Lasts host (host.register object) := ⟨rfl, id⟩
    have lasts := of_polled polled
    exact registered.trans lasts

end Lasts

end Lasting

end Spinfoam.Host
