import Spinfoam.Guest.Helpers

/-!
# Posted futures

While a future posted by a helper is pending the guest does not run. A poll of it
either leaves it pending or completes it; the completion callback, which stores
the result in the handle table, belongs to the same poll. Here is also what each
helper call and each poll can change at all.
-/

namespace Spinfoam

open Spinfoam.Json Spinfoam.Std Spinfoam.Outbox

namespace Guest

/-- What the environment decides about a poll: whether `space` has notified the
future, whether its timer has fired, and the time. -/
structure Ready where
  space : Bool
  elapsed : Bool
  clock : Clock

inductive Progress where
  | pending (future : Posted)
  /-- The helper returns this word; an event it hands over is named. -/
  | done (word : Nat) (envelope : Option Value)

/-- The end of a posted host call: the wait is over and the callback stores the
result. -/
def settleCall (guest : Guest) : Host.Outcome → Guest × Progress
  | .pending call => (guest, .pending (.calling call))
  | .ready (.ok value) =>
    let (guest, word) := { guest with wait := .none }.insert (.json value)
    (guest, .done word none)
  | .ready (.error status) => ({ guest with wait := .none }, .done status.word none)

/-- A poll of a posted future. -/
def pollPosted (guest : Guest) (ready : Ready) : Posted → Guest × List Host.Event × Progress
  | .sleep ms =>
    if ready.elapsed then ({ guest with wait := .none }, [], .done 0 none)
    else (guest, [], .pending (.sleep ms))
  | .yield => if ready.elapsed then (guest, [], .done 0 none) else (guest, [], .pending .yield)
  | .event ms =>
    match guest.mailbox.receive with
    | (some event, mailbox) =>
      -- the event has left the mailbox whether or not it finds a handle
      let (guest, word) := { guest with mailbox, wait := .none }.insert (.json event)
      (guest, [], .done word (some event))
    | (none, mailbox) =>
      if ready.elapsed then
        ({ guest with mailbox := mailbox.abandon, wait := .none }, [],
          .done Status.timeout.word none)
      else ({ guest with mailbox }, [], .pending (.event ms))
  | .call capability arguments ms =>
    let (host, events, outcome) := guest.host.call guest.context.id capability arguments
      (timeoutMs ms) ready.clock.unix ready.elapsed
    let (guest, progress) := { guest with host }.settleCall outcome
    (guest, events, progress)
  | .calling call =>
    let (host, events, outcome) := guest.host.poll call ready.space ready.elapsed
    let (guest, progress) := { guest with host }.settleCall outcome
    (guest, events, progress)

/-- A posted future is dropped. -/
def dropPosted (guest : Guest) : Posted → Guest × List Host.Event
  | .yield => (guest, [])
  | .sleep _ | .call _ _ _ => ({ guest with wait := .none }, [])
  | .event _ => ({ guest with mailbox := guest.mailbox.abandon, wait := .none }, [])
  | .calling call =>
    let (host, events) := guest.host.abandon call
    ({ guest with host, wait := .none }, events)

/-- The run of a guest is dropped, with what it has posted. -/
def dropRun (guest : Guest) : Option Posted → Guest × List Host.Event
  | some future => guest.dropPosted future
  | none => (guest, [])

section Laws

/-- What no helper and no future changes about the guest. -/
structure SameGuest (guest after : Guest) : Prop where
  id : after.context.id = guest.context.id
  capabilities : after.context.capabilities = guest.context.capabilities

variable {guest : Guest}

/-- `insert` changes the table and the counter only. -/
theorem insert_spec (guest : Guest) (handle : Handle) :
    SameGuest guest (guest.insert handle).1 ∧ (guest.insert handle).1.mailbox = guest.mailbox ∧
      (guest.insert handle).1.host = guest.host ∧ (guest.insert handle).1.wait = guest.wait ∧
      (guest.Full → (guest.insert handle).2 = Status.limit.word) ∧
      (¬ guest.Full → (guest.insert handle).2 = guest.nextHandle) := by
  unfold insert
  split_ifs with full
  · exact ⟨⟨rfl, rfl⟩, rfl, rfl, rfl, fun _ => rfl, fun room => absurd full room⟩
  · exact ⟨⟨rfl, rfl⟩, rfl, rfl, rfl, fun stuck => absurd stuck full, fun _ => rfl⟩

/-- A host call that a helper has let through. -/
structure Granted (guest : Guest) (scope : Scope) (call : HelperCall) (capability : String)
    (arguments : Value) (ms : Nat) : Prop where
  helper : call.helper = .hostCallRaw
  name : text scope call.a call.b = some capability
  copied : guest.context.json call.c = some arguments
  timeout : ms = call.d
  permitted : ∃ entry ∈ guest.context.capabilities, entry.permits capability arguments = true

/-- What a helper call can do. -/
inductive Invoked (guest : Guest) (scope : Scope) (call : HelperCall) : Guest × Reply → Prop where
  /-- It works on the table of the guest. -/
  | table {after : Guest} {reply : Reply} (same : SameGuest guest after)
      (mailbox : after.mailbox = guest.mailbox) (host : after.host = guest.host)
      (wait : after.wait = guest.wait) (answered : ∀ future, reply ≠ .posted future)
      (local_ : call.helper = .hostCallRaw → after = guest) :
      Invoked guest scope call (after, reply)
  /-- It logs. -/
  | log {after : Guest} {reply : Reply} {message : String} (same : SameGuest guest after)
      (mailbox : after.mailbox = guest.mailbox)
      (host : after.host = { guest.host with
        out := (guest.host.out.tryData guest.context.id
          (logNotice guest.context.id message)).1 })
      (wait : after.wait = guest.wait) (answered : ∀ future, reply ≠ .posted future)
      (helper : call.helper = .logRaw) : Invoked guest scope call (after, reply)
  /-- It posts a future. -/
  | posted {wait : Wait} {future : Posted} (kind : (∃ ms, future = .sleep ms) ∨ future = .yield ∨
        (∃ ms, future = .event ms) ∨ ∃ capability arguments ms,
          future = .call capability arguments ms ∧
            Granted guest scope call capability arguments ms) :
      Invoked guest scope call ({ guest with wait }, .posted future)

variable {scope : Scope} {call : HelperCall}

private theorem invoked_still (reply : Reply) (answered : ∀ future, reply ≠ .posted future) :
    Invoked guest scope call (guest, reply) :=
  .table ⟨rfl, rfl⟩ rfl rfl rfl answered fun _ => rfl

private theorem invoked_create (handle : Handle) (other : call.helper ≠ .hostCallRaw) :
    Invoked guest scope call (guest.create handle) := by
  obtain ⟨same, mailbox, host, wait, -⟩ := insert_spec guest handle
  exact .table same mailbox host wait (by simp) fun helper => absurd helper other

private theorem invoked_createFound (found : Option Value) (other : call.helper ≠ .hostCallRaw) :
    Invoked guest scope call (guest.createFound found) := by
  cases found with
  | none => exact invoked_still _ (by simp [Reply.status])
  | some value => exact invoked_create _ other

private theorem invoked_update (handle : Nat) (target : Option Value)
    (other : call.helper ≠ .hostCallRaw) :
    Invoked guest scope call (guest.update handle target) := by
  unfold update
  split
  · exact invoked_still _ (by simp [Reply.status])
  · split_ifs
    · exact .table ⟨rfl, rfl⟩ rfl rfl rfl (by simp) fun helper => absurd helper other
    · exact invoked_still _ (by simp [Reply.status])

private theorem invoked_call (pointer length handle ms : Nat)
    (shape : call = ⟨.hostCallRaw, pointer, length, handle, ms, call.e⟩) :
    Invoked guest scope call (guest.hCall scope pointer length handle ms) := by
  unfold hCall
  split
  · exact invoked_still _ (by simp)
  · rename_i capability named
    split
    · exact invoked_still _ (by simp [Reply.status])
    · rename_i arguments copied
      split_ifs with permitted
      · refine .posted (Or.inr (Or.inr (Or.inr ⟨capability, arguments, ms, rfl, ?_⟩)))
        rw [shape]
        exact ⟨rfl, named, copied, rfl, by simpa using permitted⟩
      · exact invoked_still _ (by simp [Reply.status])

private theorem invoked_log (pointer length : Nat) (helper : call.helper = .logRaw) :
    Invoked guest scope call (guest.hLog scope pointer length) := by
  have other : call.helper ≠ .hostCallRaw := by rw [helper]; decide
  unfold hLog
  by_cases long : length > 1024
  · rw [if_pos long]
    exact invoked_still _ (by simp [Reply.status])
  · rw [if_neg long]
    cases text scope pointer length with
    | none => exact invoked_still _ (by simp)
    | some message =>
      have same := And.intro (renewWindow_id guest.context scope.clock)
        (renewWindow_capabilities guest.context scope.clock)
      generalize renewWindow guest.context scope.clock = context at same ⊢
      simp only
      by_cases often : context.logs ≥ 10
      · rw [if_pos often]
        refine .table ⟨same.1, same.2⟩ rfl rfl rfl ?_ fun impossible => absurd impossible other
        simp [Reply.status]
      · rw [if_neg often]
        refine .log ⟨same.1, same.2⟩ rfl (by rw [same.1]) rfl ?_ helper
        intro future
        split_ifs <;> simp [Reply.status]

/-- The helpers that only look at what they are given. -/
def Helper.reads : Helper → Bool
  | .nowMonoMs | .nowUnixMs | .jsonKind | .jsonI64 | .jsonBool | .jsonReadString
  | .jsonStringEqualsRaw | .bytesLen | .bytesRead | .memcpy | .memset | .memcmp => true
  | _ => false

/-- A reading helper changes nothing and answers at once. -/
theorem invoke_reading (guest : Guest) (scope : Scope) {call : HelperCall}
    (reads : call.helper.reads = true) :
    (guest.invoke scope call).1 = guest ∧
      ∀ future, (guest.invoke scope call).2 ≠ .posted future := by
  obtain ⟨helper, a, b, c, d, e⟩ := call
  cases helper with
  | nowMonoMs | nowUnixMs => exact ⟨rfl, by simp [invoke, hMono, hUnix]⟩
  | jsonKind =>
    refine ⟨rfl, ?_⟩
    simp only [invoke, hKind]
    split <;> simp [Reply.status]
  | jsonI64 =>
    simp only [invoke, hI64]
    split
    · split
      · split_ifs <;> simp
      · simp [Reply.status]
    · simp [Reply.status]
  | jsonBool =>
    refine ⟨rfl, ?_⟩
    simp only [invoke, hBool]
    split <;> simp [Reply.status]
  | jsonReadString =>
    simp only [invoke, hStringRead]
    split
    · simp [Reply.status]
    · split_ifs <;> simp [Reply.status]
  | jsonStringEqualsRaw =>
    simp only [invoke, hEquals]
    split
    · refine ⟨rfl, ?_⟩
      split <;> simp [Reply.status]
    · simp
  | bytesLen =>
    refine ⟨rfl, ?_⟩
    simp only [invoke, hLen]
    split <;> simp [Reply.status]
  | bytesRead =>
    simp only [invoke, hRead]
    split_ifs
    · simp [Reply.status]
    · split
      · split_ifs <;> simp [Reply.status]
      · simp [Reply.status]
  | memcpy =>
    simp only [invoke, hMemcpy]
    cases scope.memory b c <;> split_ifs <;> simp
  | memset =>
    simp only [invoke, hMemset]
    split_ifs <;> simp
  | memcmp =>
    simp only [invoke, hMemcmp]
    split_ifs
    · simp
    · split <;> simp [Reply.status]
  | _ => cases reads

/-- What each helper of the table can do. -/
theorem invoke_spec (guest : Guest) (scope : Scope) (call : HelperCall) :
    Invoked guest scope call (guest.invoke scope call) := by
  by_cases reads : call.helper.reads = true
  · obtain ⟨same, answered⟩ := invoke_reading guest scope reads
    generalize guest.invoke scope call = result at same answered ⊢
    obtain ⟨after, reply⟩ := result
    subst same
    exact invoked_still reply answered
  obtain ⟨helper, a, b, c, d, e⟩ := call
  cases helper with
  | sleepMs => exact .posted (Or.inl ⟨_, rfl⟩)
  | yield => exact .posted (Or.inr (Or.inl rfl))
  | eventNext => exact .posted (Or.inr (Or.inr (Or.inl ⟨_, rfl⟩)))
  | hostCallRaw => exact invoked_call a b c d rfl
  | logRaw => exact invoked_log a b rfl
  | config | jsonObject | jsonArray | jsonNull | jsonNumber | jsonBoolean =>
    exact invoked_create _ (by simp)
  | drop =>
    simp only [invoke, hDrop]
    split_ifs
    · exact .table ⟨rfl, rfl⟩ rfl rfl rfl (by simp) fun impossible => by cases impossible
    · exact invoked_still _ (by simp [Reply.status])
  | jsonParse =>
    simp only [invoke, hParse]
    split_ifs
    · exact invoked_still _ (by simp [Reply.status])
    · split
      · exact invoked_still _ (by simp)
      · split
        · exact invoked_still _ (by simp [Reply.status])
        · split_ifs
          · exact invoked_create _ (by simp)
          · exact invoked_still _ (by simp [Reply.status])
  | jsonGetRaw =>
    simp only [invoke, hGet]
    split
    · exact invoked_still _ (by simp)
    · exact invoked_createFound _ (by simp)
  | jsonAt => exact invoked_createFound _ (by simp)
  | jsonStringRaw =>
    simp only [invoke, hString]
    split
    · exact invoked_still _ (by simp)
    · split_ifs
      · exact invoked_create _ (by simp)
      · exact invoked_still _ (by simp [Reply.status])
  | jsonSetRaw =>
    simp only [invoke, hSet]
    split
    · exact invoked_still _ (by simp)
    · exact invoked_update _ _ (by simp)
  | jsonPush => exact invoked_update _ _ (by simp)
  | jsonDump =>
    simp only [invoke, hDump]
    split
    · exact invoked_create _ (by simp)
    · exact invoked_still _ (by simp [Reply.status])
  | bytes =>
    simp only [invoke, hBytes]
    split_ifs
    · exact invoked_still _ (by simp [Reply.status])
    · split
      · exact invoked_still _ (by simp)
      · exact invoked_create _ (by simp)
  | _ => exact absurd rfl reads

/-- No helper changes who the guest is. -/
theorem invoke_same {after : Guest} {reply : Reply}
    (invoked : guest.invoke scope call = (after, reply)) : SameGuest guest after := by
  have spec := invoke_spec guest scope call
  rw [invoked] at spec
  cases spec with
  | table same => exact same
  | log same => exact same
  | posted => exact ⟨rfl, rfl⟩

/-- A call that ends leaves the guest what it was. -/
theorem settleCall_same (guest : Guest) (outcome : Host.Outcome) :
    SameGuest guest (guest.settleCall outcome).1 := by
  rcases outcome with (status | value) | call
  · exact ⟨rfl, rfl⟩
  · have same := (insert_spec { guest with wait := .none } (.json value)).1
    exact ⟨same.id, same.capabilities⟩
  · exact ⟨rfl, rfl⟩

/-- No future changes who the guest is. -/
theorem pollPosted_same (guest : Guest) (ready : Ready) (future : Posted) :
    SameGuest guest (guest.pollPosted ready future).1 := by
  cases future with
  | sleep | yield =>
    unfold Guest.pollPosted
    split_ifs <;> exact ⟨rfl, rfl⟩
  | event ms =>
    simp only [Guest.pollPosted]
    split
    · rename_i event mailbox taken
      have same := (insert_spec { guest with mailbox, wait := .none } (.json event)).1
      exact ⟨same.id, same.capabilities⟩
    · split_ifs <;> exact ⟨rfl, rfl⟩
  | call capability arguments ms =>
    have settled := settleCall_same { guest with
      host := (guest.host.call guest.context.id capability arguments (timeoutMs ms)
        ready.clock.unix ready.elapsed).1 }
    exact ⟨(settled _).id, (settled _).capabilities⟩
  | calling call =>
    have settled := settleCall_same { guest with
      host := (guest.host.poll call ready.space ready.elapsed).1 }
    exact ⟨(settled _).id, (settled _).capabilities⟩

end Laws

end Guest

end Spinfoam
