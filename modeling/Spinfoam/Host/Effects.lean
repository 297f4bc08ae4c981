import Spinfoam.Host.Calls

/-!
# What the host operations change

One law for each operation of `Spinfoam.Host`. Later modules reason about a step
of the host through these laws and do not unfold the operations.
-/

namespace Spinfoam.Host

open Spinfoam.Json Spinfoam.Std Spinfoam.Outbox

variable {host after : Host}

/-- The frame asks the embedder to perform the call with this id. -/
def IsCall (id : String) (value : Value) : Prop :=
  value.get "method" = some (.string "host.call") ∧ value.get "id" = some (.string id)

/-- The frame tells the embedder that the call with this id is over. -/
def IsCancel (id : String) (value : Value) : Prop :=
  value.get "method" = some (.string "host.cancel") ∧
    (value.get "params").bind (Value.get "id") = some (.string id)

instance (id : String) (value : Value) : Decidable (IsCall id value) := by
  unfold IsCall
  infer_instance

instance (id : String) (value : Value) : Decidable (IsCancel id value) := by
  unfold IsCancel
  infer_instance

/-- A value that is neither a call nor the cancellation of one. -/
def foreign (value : Value) : Bool :=
  value.get "method" ≠ some (.string "host.call") ∧
    value.get "method" ≠ some (.string "host.cancel")

/-- The entry is remembered under this id. -/
def bears (id : String) (entry : DataFrame) : Bool := entry.requestId == some id

@[simp] theorem bears_iff {id : String} {entry : DataFrame} :
    bears id entry = true ↔ entry.requestId = some id := by
  simp [bears]

/-- Calls of one session have different ids. -/
theorem callId_injective (session : String) {left right : Nat}
    (same : callId session left = callId session right) : left = right := by
  unfold callId at same
  rw [String.append_right_inj] at same
  exact Nat.repr_injective same

/-- The entry is the request of the call with this id. -/
structure Asks (id : String) (entry : DataFrame) : Prop where
  tagged : entry.requestId = some id
  call : IsCall id entry.frame.value

/-- A request has the form of a call. -/
theorem isCall_request (id object capability : String) (arguments : Value)
    (timeoutMs now : Nat) :
    IsCall id (request id object capability arguments timeoutMs now) := ⟨rfl, rfl⟩

/-- A call is what its frame remembers as its request id. -/
theorem requestId_of_isCall {id : String} {value : Value} (call : IsCall id value) :
    requestId value = some id := by
  simp [requestId, call.2]

/-- The fields of the host that only registering a call and counting an ignored
response change. -/
structure Keeps (host after : Host) : Prop where
  next : after.next = host.next
  session : after.session = host.session
  closed : after.out.closed = host.out.closed

/-- The end of a call: nothing of it is left but, possibly, a notice to the
embedder. -/
structure Withdrawn (guard : CallGuard) (host after : Host) (events : List Event) : Prop
    extends Keeps host after where
  pending : after.pending = host.pending.erase guard.id
  replies : after.replies = host.replies.erase guard.id
  ignored : after.ignored = host.ignored
  lane : ∀ name, after.out.lane (.object name) =
    if name = guard.object then
      (host.out.lane (.object name)).filter fun entry => !bears guard.id entry
    else host.out.lane (.object name)
  notice : (events = [] ∧ after.out.lane .control = host.out.lane .control) ∨
    (events = [.cancelled guard.id] ∧ guard.id ∈ host.pending ∧ guard.sent = true ∧
      ∃ frame : Frame, frame.value = cancelNotice guard.id ∧
        after.out.lane .control = host.out.lane .control ++ [⟨frame, none⟩])

/-- `sendCancel` queues the notice or changes nothing. -/
theorem sendCancel_spec (host : Host) (id : String) :
    host.sendCancel id = (host, []) ∨
      ∃ (frame : Frame) (out : Outbox), frame.value = cancelNotice id ∧
        host.sendCancel id = ({ host with out }, [.cancelled id]) ∧ out.closed = host.out.closed ∧
        (∀ name, out.lane (.object name) = host.out.lane (.object name)) ∧
        out.lane .control = host.out.lane .control ++ [⟨frame, none⟩] := by
  unfold sendCancel
  rcases Outbox.tryControl_spec host.out (cancelNotice id) with
    same | ⟨frame, out, encoded, offered, same⟩
  · rw [same]
    exact Or.inl rfl
  · rw [same]
    obtain ⟨isOpen, stays, -, lanes⟩ := Outbox.offer_eq_some offered
    refine Or.inr ⟨frame, out, encode_eq_some.mp encoded, rfl, stays.trans isOpen.symm, ?_, ?_⟩
    · intro name
      simp [lanes]
    · simp [lanes]

/-- Dropping the guard withdraws the call. -/
theorem dropGuard_spec (host : Host) (guard : CallGuard) :
    Withdrawn guard host (host.dropGuard guard).1 (host.dropGuard guard).2 := by
  obtain ⟨closed, -, lanes⟩ := Outbox.removeRequest_spec host.out guard.object guard.id
  have lane : ∀ name, (host.out.removeRequest guard.object guard.id).lane (.object name) =
      if name = guard.object then
        (host.out.lane (.object name)).filter fun entry => !bears guard.id entry
      else host.out.lane (.object name) := by
    intro name
    simp [lanes, bears]
  have control : (host.out.removeRequest guard.object guard.id).lane .control =
      host.out.lane .control := by
    simp [lanes]
  simp only [dropGuard]
  split_ifs with registered sent
  · rcases sendCancel_spec { host with
      out := host.out.removeRequest guard.object guard.id
      replies := host.replies.erase guard.id
      pending := host.pending.erase guard.id } guard.id with
      same | ⟨frame, out, value, same, stays, others, grown⟩
    · rw [same]
      exact ⟨⟨rfl, rfl, closed⟩, rfl, rfl, rfl, lane, Or.inl ⟨rfl, control⟩⟩
    · rw [same]
      refine ⟨⟨rfl, rfl, stays.trans closed⟩, rfl, rfl, rfl, ?_, Or.inr ?_⟩
      · intro name
        exact (others name).trans (lane name)
      · refine ⟨rfl, registered, sent, frame, value, ?_⟩
        rw [grown]
        exact congrArg (· ++ _) control
  · exact ⟨⟨rfl, rfl, closed⟩, rfl, rfl, rfl, lane, Or.inl ⟨rfl, control⟩⟩
  · have absent : host.pending.erase guard.id = host.pending :=
      Map.erase_of_lookup_none (AList.lookup_eq_none.mpr registered)
    exact ⟨⟨rfl, rfl, closed⟩, absent.symm, rfl, rfl, lane, Or.inl ⟨rfl, control⟩⟩

/-- A call that was just queued and is withdrawn at once leaves the same behind
as one that was never queued. -/
theorem Withdrawn.of_offer {guard : CallGuard} {entry : DataFrame} {out : Outbox}
    {events : List Event} (offered : host.out.offer (.object guard.object) entry = some out)
    (tagged : entry.requestId = some guard.id)
    (withdrawn : Withdrawn guard { host with out } after events) :
    Withdrawn guard host after events := by
  obtain ⟨isOpen, stays, -, lanes⟩ := Outbox.offer_eq_some offered
  refine ⟨⟨withdrawn.next, withdrawn.session, ?_⟩, withdrawn.pending, withdrawn.replies,
    withdrawn.ignored, ?_, ?_⟩
  · rw [withdrawn.closed, stays, isOpen]
  · intro name
    have left := withdrawn.lane name
    simp only [lanes] at left
    rw [left]
    by_cases own : name = guard.object
    · subst own
      simp [bears, tagged]
    · have other : ¬ (Lane.object guard.object = Lane.object name) := by
        rintro ⟨⟩
        exact own rfl
      simp [own, other]
  · simpa [lanes] using withdrawn.notice

/-- The result of a call is what its reply channel holds, or the call ends
without a reply. -/
def Reply (guard : CallGuard) (host : Host) (result : Result) : Prop :=
  host.replies.lookup guard.id = some result ∨ result = .error Status.closed ∨
    result = .error Status.timeout

/-- What a poll of a call comes to, when `sends` are the entries it may try to
queue. -/
inductive Polled (guard : CallGuard) (sends : DataFrame → Prop) (host : Host) :
    Host × List Event × Outcome → Prop where
  | parked {entry : DataFrame} (sending : sends entry) (unsent : guard.sent = false) :
      Polled guard sends host (host, [], .pending ⟨guard, .sending entry⟩)
  | queued {entry : DataFrame} {out : Outbox} (sending : sends entry)
      (offered : host.out.offer (.object guard.object) entry = some out)
      (registered : guard.id ∈ host.pending) :
      Polled guard sends host ({ host with out }, [.queued guard.id entry.frame],
        .pending ⟨{ guard with sent := true }, .waiting⟩)
  | waiting (registered : guard.id ∈ host.pending) (sent : guard.sent = true) :
      Polled guard sends host (host, [], .pending ⟨guard, .waiting⟩)
  | returned {after : Host} {events : List Event} {result : Result}
      (withdrawn : Withdrawn guard host after events)
      (reply : Reply guard host result) :
      Polled guard sends host (after, events ++ [.returned guard.id result], .ready result)
  | queuedReturned {entry : DataFrame} {after : Host} {events : List Event} {result : Result}
      (sending : sends entry)
      (withdrawn : Withdrawn { guard with sent := true } host after events)
      (reply : Reply guard host result) :
      Polled guard sends host
        (after, .queued guard.id entry.frame :: (events ++ [.returned guard.id result]),
          .ready result)

/-- A suspended call either has its own request to send or has sent it. -/
def Call.Sound (call : Call) : Prop :=
  match call.phase with
  | .sending entry => Asks call.guard.id entry ∧ call.guard.sent = false
  | .waiting => call.guard.sent = true

variable {sends : DataFrame → Prop}

/-- A call that ends withdraws its guard. -/
private theorem finish_spec (host : Host) (guard : CallGuard) {result : Result}
    (reply : Reply guard host result) :
    Polled guard sends host (host.finish guard result) :=
  .returned (dropGuard_spec host guard) reply

/-- A call may end closed. -/
private theorem finish_closed (host : Host) (guard : CallGuard) :
    Polled guard sends host (host.finish guard (.error Status.closed)) :=
  finish_spec host guard (Or.inr (Or.inl rfl))

/-- A call may end timed out. -/
private theorem finish_timeout (host : Host) (guard : CallGuard) :
    Polled guard sends host (host.finish guard (.error Status.timeout)) :=
  finish_spec host guard (Or.inr (Or.inr rfl))

/-- Waiting for the reply either goes on or ends the call. -/
theorem pollReply_eq (host : Host) (guard : CallGuard) (elapsed : Bool) :
    (guard.id ∈ host.pending ∧
        host.pollReply guard elapsed = (host, [], .pending ⟨guard, .waiting⟩)) ∨
      ∃ result, host.pollReply guard elapsed = host.finish guard result ∧
        Reply guard host result := by
  unfold pollReply
  cases replied : host.replies.lookup guard.id with
  | some result => exact Or.inr ⟨result, rfl, Or.inl replied⟩
  | none =>
    by_cases registered : guard.id ∈ host.pending
    · cases elapsed with
      | true => exact Or.inr ⟨.error Status.timeout, by simp [registered], Or.inr (Or.inr rfl)⟩
      | false => exact Or.inl ⟨registered, by simp [registered]⟩
    · exact Or.inr ⟨.error Status.closed, by simp [registered], Or.inr (Or.inl rfl)⟩

/-- What a call does that has been sent. -/
theorem pollReply_spec (host : Host) {guard : CallGuard} (elapsed : Bool)
    (sent : guard.sent = true) : Polled guard sends host (host.pollReply guard elapsed) := by
  rcases pollReply_eq host guard elapsed with ⟨registered, same⟩ | ⟨result, same, reply⟩
  · rw [same]
    exact .waiting registered sent
  · rw [same]
    exact finish_spec host guard reply

/-- What a call does that waits for space. -/
theorem pollSend_spec (host : Host) {guard : CallGuard} {entry : DataFrame} (elapsed : Bool)
    (asks : Asks guard.id entry) (unsent : guard.sent = false) (sending : sends entry) :
    Polled guard sends host (host.pollSend guard entry elapsed) := by
  unfold pollSend
  by_cases closed : host.out.closed = true
  · rw [if_pos closed]
    exact finish_closed host guard
  · rw [if_neg closed]
    cases offered : host.out.offer (.object guard.object) entry with
    | none =>
      cases elapsed with
      | true => exact finish_timeout host guard
      | false => exact .parked sending unsent
    | some out =>
      simp only
      rcases pollReply_eq { host with out } { guard with sent := true } elapsed with
        ⟨registered, same⟩ | ⟨result, same, reply⟩
      · rw [same]
        exact .queued sending offered registered
      · rw [same]
        exact .queuedReturned sending (.of_offer offered asks.tagged (dropGuard_spec _ _)) reply

/-- The entry a new call tries to queue. -/
def Starts (request : Value) (entry : DataFrame) : Prop :=
  entry.frame.value = request ∧ entry.requestId = requestId request

/-- The entry that a call starts with asks for it. -/
theorem Starts.asks {id : String} {request : Value} {entry : DataFrame}
    (starts : Starts request entry) (call : IsCall id request) : Asks id entry where
  tagged := starts.2.trans (requestId_of_isCall call)
  call := starts.1 ▸ call

/-- What a call does when it offers its request. -/
theorem startSend_spec (host : Host) {guard : CallGuard} {request : Value} (elapsed : Bool)
    (call : IsCall guard.id request) (unsent : guard.sent = false) :
    Polled guard (Starts request) host (host.startSend guard request elapsed) := by
  unfold startSend
  split
  · exact finish_closed host guard
  · rename_i frame encoded
    have value := encode_eq_some.mp encoded
    split_ifs
    · exact finish_closed host guard
    · refine pollSend_spec host elapsed ⟨requestId_of_isCall call, ?_⟩ unsent ⟨value, rfl⟩
      exact value ▸ call

/-- The entry a suspended call tries to queue. -/
def Call.Sends (call : Call) (entry : DataFrame) : Prop := call.phase = .sending entry

/-- What a poll of a suspended call does. -/
theorem poll_spec (host : Host) {call : Call} (sound : call.Sound) (spaceReady elapsed : Bool) :
    Polled call.guard call.Sends host (host.poll call spaceReady elapsed) := by
  obtain ⟨guard, phase⟩ := call
  cases phase with
  | waiting => exact pollReply_spec host elapsed sound
  | sending entry =>
    by_cases turn : spaceReady = true ∨ host.out.closed = true
    · simp only [poll, if_pos turn]
      exact pollSend_spec host elapsed sound.1 sound.2 rfl
    · simp only [poll, if_neg turn]
      cases elapsed with
      | true => exact finish_timeout host guard
      | false => exact .parked rfl sound.2

/-- A call that stays suspended is sound, and is still the same call. -/
theorem Polled.sound {guard : CallGuard} {result : Host × List Event × Outcome}
    (polled : Polled guard sends host result) (asks : ∀ entry, sends entry → Asks guard.id entry)
    {call : Call} (suspended : result.2.2 = .pending call) :
    call.Sound ∧ call.guard.id = guard.id ∧ call.guard.object = guard.object := by
  cases polled with
  | parked sending unsent =>
    cases suspended
    exact ⟨⟨asks _ sending, unsent⟩, rfl, rfl⟩
  | queued =>
    cases suspended
    exact ⟨rfl, rfl, rfl⟩
  | waiting _ sent =>
    cases suspended
    exact ⟨sent, rfl, rfl⟩
  | returned => cases suspended
  | queuedReturned => cases suspended

/-- The first poll of a call either refuses it or registers it under a new id. -/
inductive Started (object capability : String) (arguments : Value) (timeoutMs now : Nat)
    (host : Host) : Host × List Event × Outcome → Prop where
  | refused : Started object capability arguments timeoutMs now host (host, [], .ready (.error Status.limit))
  | registered {result : Host × List Event × Outcome}
      (polled : Polled ⟨host.nextId, false, object⟩
        (Starts (request host.nextId object capability arguments timeoutMs now))
        (host.register object) result) :
      Started object capability arguments timeoutMs now host
        (result.1, .registered host.nextId object :: result.2.1, result.2.2)

/-- What the first poll of a call does. -/
theorem call_spec (host : Host) (object capability : String) (arguments : Value)
    (timeoutMs now : Nat) (elapsed : Bool) :
    Started object capability arguments timeoutMs now host
      (host.call object capability arguments timeoutMs now elapsed) := by
  simp only [call]
  split_ifs
  · exact .refused
  · exact .refused
  · have polled : Polled ⟨host.nextId, false, object⟩ _ _ _ :=
      startSend_spec (host.register object) elapsed
        (isCall_request host.nextId object capability arguments timeoutMs now) rfl
    generalize startSend _ _ _ _ = result at polled ⊢
    exact .registered polled

/-- A call that is suspended after its first poll is sound. -/
theorem Started.sound {object capability : String} {arguments : Value} {timeoutMs now : Nat}
    {result : Host × List Event × Outcome}
    (started : Started object capability arguments timeoutMs now host result) {call : Call}
    (suspended : result.2.2 = .pending call) : call.Sound ∧ call.guard.object = object := by
  cases started with
  | refused => cases suspended
  | registered polled =>
    obtain ⟨sound, -, same⟩ := polled.sound
      (fun entry starts => starts.asks (isCall_request _ _ _ _ _ _)) suspended
    exact ⟨sound, same⟩

/-- A response takes the pending entry it names, or it is ignored. -/
theorem response_eq (host : Host) (frame : Value) :
    (∃ id, (frame.get "id").bind Value.asStr = some id ∧ id ∈ host.pending ∧
        host.response frame = ({ host with
          pending := host.pending.erase id
          replies := host.replies.insert id (resultOf frame) }, [.answered id frame])) ∨
      (∀ id, (frame.get "id").bind Value.asStr = some id → id ∉ host.pending) ∧
        host.response frame = host.ignore := by
  unfold response
  cases named : (frame.get "id").bind Value.asStr with
  | none => exact Or.inr ⟨by simp, rfl⟩
  | some id =>
    by_cases registered : id ∈ host.pending
    · exact Or.inl ⟨id, rfl, registered, by simp [registered]⟩
    · refine Or.inr ⟨?_, by simp [registered]⟩
      rintro other ⟨⟩
      exact registered

/-- A response does not touch the outbox. -/
theorem response_out (host : Host) (frame : Value) : (host.response frame).1.out = host.out := by
  rcases host.response_eq frame with ⟨id, -, -, same⟩ | ⟨-, same⟩
  · rw [same]
  · rw [same]
    rfl

/-- Cancelling one pending call takes its entry, gives it a reply, and may queue
a notice. -/
structure Revoked (id : String) (host after : Host) (events : List Event) : Prop
    extends Keeps host after where
  pending : after.pending = host.pending.erase id
  replies : after.replies = host.replies.insert id (.error Status.closed)
  lane : ∀ name, after.out.lane (.object name) = host.out.lane (.object name)
  notice : (events = [.objectCancelled id] ∧ after.out.lane .control = host.out.lane .control) ∨
    (events = [.objectCancelled id, .cancelled id] ∧
      ∃ frame : Frame, frame.value = cancelNotice id ∧
        after.out.lane .control = host.out.lane .control ++ [⟨frame, none⟩])

/-- What the cancellation of a pending call does. -/
theorem cancelCall_spec {host : Host} {id : String} (registered : id ∈ host.pending) :
    Revoked id host (host.cancelCall id).1 (host.cancelCall id).2 := by
  simp only [cancelCall, if_pos registered]
  rcases sendCancel_spec { host with
    pending := host.pending.erase id
    replies := host.replies.insert id (.error Status.closed) } id with
    same | ⟨frame, out, value, same, stays, others, grown⟩
  · rw [same]
    exact ⟨⟨rfl, rfl, rfl⟩, rfl, rfl, fun _ => rfl, Or.inl ⟨rfl, rfl⟩⟩
  · rw [same]
    exact ⟨⟨rfl, rfl, stays⟩, rfl, rfl, others, Or.inr ⟨rfl, frame, value, grown⟩⟩

/-- A call that is not pending is not cancelled. -/
theorem cancelCall_of_not_mem {host : Host} {id : String} (absent : id ∉ host.pending) :
    host.cancelCall id = (host, []) := if_neg absent

/-- Whatever each single cancellation preserves, cancelling many preserves. -/
theorem cancelCalls_induction (property : List Event → Host → Prop) (allowed : String → Prop)
    (each : ∀ events host id, allowed id → property events host →
      property (events ++ (host.cancelCall id).2) (host.cancelCall id).1)
    {ids : List String} (permitted : ∀ id ∈ ids, allowed id) :
    ∀ {events : List Event} {host : Host}, property events host →
      property (events ++ (host.cancelCalls ids).2) (host.cancelCalls ids).1 := by
  induction ids with
  | nil =>
    intro events host holds
    simpa [cancelCalls] using holds
  | cons id rest ih =>
    intro events host holds
    have first := each events host id (permitted id List.mem_cons_self) holds
    have later := ih (fun other member => permitted other (List.mem_cons_of_mem _ member)) first
    simpa [cancelCalls, List.append_assoc] using later

/-- The calls that `cancel_object` goes through are those of the object. -/
theorem mem_idsOf {host : Host} {object : String} {order : List String} {id : String} :
    id ∈ host.idsOf object order ↔ ∃ entry, host.pending.lookup id = some entry ∧
      entry.object = object := by
  have listed : id ∈ (host.pending.entries.filter (·.2.object = object)).map Sigma.fst ↔
      ∃ entry, host.pending.lookup id = some entry ∧ entry.object = object := by
    constructor
    · intro member
      obtain ⟨⟨key, entry⟩, selected, rfl⟩ := List.mem_map.mp member
      obtain ⟨bound, same⟩ := List.mem_filter.mp selected
      exact ⟨entry, AList.mem_lookup_iff.mpr bound, by simpa using same⟩
    · rintro ⟨entry, found, same⟩
      refine List.mem_map.mpr ⟨⟨id, entry⟩, List.mem_filter.mpr ⟨?_, by simpa using same⟩, rfl⟩
      exact AList.mem_lookup_iff.mp found
  simp only [idsOf, List.mem_append, List.mem_filter, decide_eq_true_eq, listed]
  tauto

end Spinfoam.Host
