import Spinfoam.Guest.Futures
import Spinfoam.Std.Window

/-!
# What the helpers leave alone

Four helpers post a future and say for what the guest waits, and one counts the log
attempts of the guest. The others answer at once and touch neither. A guest that waits
is therefore always known to wait for the future it has posted.
-/

namespace Spinfoam

open Spinfoam.Json Spinfoam.Std Spinfoam.Outbox

/-- The window of the log attempts of a guest. -/
def GuestContext.window (context : GuestContext) : Window where
  start := context.logWindow
  used := context.logs

namespace Guest

/-- For what a guest waits that has posted this future. -/
def Posted.reason : Posted → Wait
  | .sleep _ => .timer
  | .yield => .none
  | .event _ => .event
  | .call _ _ _ | .calling _ => .hostRpc

/-- For what it waits behind a poll of the future. -/
def Progress.reason : Progress → Wait
  | .pending next => next.reason
  | .done _ _ => .none

/-- For what a guest waits, if it has posted anything. -/
def reason (posted : Option Posted) : Wait := (posted.map Posted.reason).getD .none

/-- The helpers that post a future. -/
def Helper.posts : Helper → Bool
  | .sleepMs | .yield | .eventNext | .hostCallRaw => true
  | _ => false

/-- An answer at once that counts no attempt. -/
structure Plain (guest : Guest) (result : Guest × Reply) : Prop where
  window : result.1.context.window = guest.context.window
  wait : result.1.wait = guest.wait
  answered : result.2.future = none

section Laws

variable {guest : Guest} {scope : Scope} {call : HelperCall}

private theorem plain_still {reply : Reply} (answered : reply.future = none) :
    Plain guest (guest, reply) := ⟨rfl, rfl, answered⟩

theorem insert_window (guest : Guest) (handle : Handle) :
    (guest.insert handle).1.context.window = guest.context.window := by
  unfold insert
  split_ifs <;> rfl

private theorem plain_create (handle : Handle) : Plain guest (guest.create handle) :=
  ⟨insert_window guest handle, (insert_spec guest handle).2.2.2.1, rfl⟩

private theorem plain_createFound (found : Option Value) : Plain guest (guest.createFound found) := by
  cases found with
  | none => exact plain_still rfl
  | some value => exact plain_create _

private theorem plain_update (handle : Nat) (target : Option Value) :
    Plain guest (guest.update handle target) := by
  unfold update
  split
  · exact plain_still rfl
  · split_ifs
    · exact ⟨rfl, rfl, rfl⟩
    · exact plain_still rfl

/-- Most helpers answer at once. -/
theorem invoke_plain (guest : Guest) (scope : Scope) (silent : call.helper.posts = false)
    (other : call.helper ≠ .logRaw) : Plain guest (guest.invoke scope call) := by
  by_cases reads : call.helper.reads = true
  · obtain ⟨same, answered⟩ := invoke_reading guest scope reads
    generalize guest.invoke scope call = result at same answered ⊢
    obtain ⟨after, reply⟩ := result
    obtain rfl : after = guest := same
    refine plain_still ?_
    cases reply with
    | posted future => exact absurd rfl (answered future)
    | _ => rfl
  obtain ⟨helper, a, b, c, d, e⟩ := call
  cases helper with
  | sleepMs | yield | eventNext | hostCallRaw => cases silent
  | logRaw => exact absurd rfl other
  | config | jsonObject | jsonArray | jsonNull | jsonNumber | jsonBoolean => exact plain_create _
  | drop =>
    simp only [invoke, hDrop]
    split_ifs
    · exact ⟨rfl, rfl, rfl⟩
    · exact plain_still rfl
  | jsonParse =>
    simp only [invoke, hParse]
    split_ifs
    · exact plain_still rfl
    · split
      · exact plain_still rfl
      · split
        · exact plain_still rfl
        · split_ifs
          · exact plain_create _
          · exact plain_still rfl
  | jsonGetRaw =>
    simp only [invoke, hGet]
    split
    · exact plain_still rfl
    · exact plain_createFound _
  | jsonAt => exact plain_createFound _
  | jsonStringRaw =>
    simp only [invoke, hString]
    split
    · exact plain_still rfl
    · split_ifs
      · exact plain_create _
      · exact plain_still rfl
  | jsonSetRaw =>
    simp only [invoke, hSet]
    split
    · exact plain_still rfl
    · exact plain_update _ _
  | jsonPush => exact plain_update _ _
  | jsonDump =>
    simp only [invoke, hDump]
    split
    · exact plain_create _
    · exact plain_still rfl
  | bytes =>
    simp only [invoke, hBytes]
    split_ifs
    · exact plain_still rfl
    · split
      · exact plain_still rfl
      · exact plain_create _
  | _ => exact absurd rfl reads

/-- A permitted host call is posted, and nothing else happens. -/
theorem hCall_cases (guest : Guest) (scope : Scope) (pointer length handle ms : Nat) :
    Plain guest (guest.hCall scope pointer length handle ms) ∨
      ∃ capability arguments, guest.hCall scope pointer length handle ms =
        ({ guest with wait := .hostRpc }, .posted (.call capability arguments ms)) := by
  unfold hCall
  split
  · exact Or.inl (plain_still rfl)
  · split
    · exact Or.inl (plain_still rfl)
    · split_ifs
      · exact Or.inr ⟨_, _, rfl⟩
      · exact Or.inl (plain_still rfl)

/-- An attempt to log is counted, unless the message is refused as such. -/
theorem hLog_cases (guest : Guest) (scope : Scope) (pointer length : Nat) :
    (guest.hLog scope pointer length).1.wait = guest.wait ∧
      (guest.hLog scope pointer length).2.future = none ∧
      ((guest.hLog scope pointer length).1.context.window = guest.context.window ∧
          (guest.hLog scope pointer length).2 ≠ .value 0 ∨
        (guest.hLog scope pointer length).1.context.window =
            (guest.context.window.take 1000000000 10 scope.clock.monotonic).1 ∧
          ((guest.hLog scope pointer length).2 = .value 0 →
            (guest.context.window.take 1000000000 10 scope.clock.monotonic).2 = true)) := by
  have refusing : Reply.status Status.limit ≠ .value 0 := by decide
  have renewed : (renewWindow guest.context scope.clock).window =
      guest.context.window.renew 1000000000 scope.clock.monotonic := by
    have start : guest.context.window.start = guest.context.logWindow := rfl
    rw [renewWindow, Window.renew, start]
    split_ifs <;> rfl
  unfold hLog
  by_cases long : length > 1024
  · rw [if_pos long]
    exact ⟨rfl, rfl, Or.inl ⟨rfl, refusing⟩⟩
  · rw [if_neg long]
    cases text scope pointer length with
    | none => exact ⟨rfl, rfl, Or.inl ⟨rfl, by simp⟩⟩
    | some message =>
      simp only [Window.take, ← renewed]
      generalize renewWindow guest.context scope.clock = context
      by_cases often : context.logs ≥ 10
      · rw [if_pos often, if_pos (show 10 ≤ context.window.used from often)]
        exact ⟨rfl, rfl, Or.inr ⟨rfl, fun impossible => absurd impossible refusing⟩⟩
      · rw [if_neg often, if_neg (show ¬ 10 ≤ context.window.used from often)]
        refine ⟨rfl, ?_, Or.inr ⟨rfl, fun _ => rfl⟩⟩
        split_ifs <;> rfl

/-- Nothing else counts attempts. -/
theorem invoke_window (guest : Guest) (scope : Scope) (other : call.helper ≠ .logRaw) :
    (guest.invoke scope call).1.context.window = guest.context.window := by
  cases posts : call.helper.posts with
  | false => exact (invoke_plain guest scope posts other).window
  | true =>
    obtain ⟨helper, a, b, c, d, e⟩ := call
    cases helper with
    | sleepMs | eventNext | yield => rfl
    | hostCallRaw =>
      change (guest.hCall scope a b c d).1.context.window = guest.context.window
      rcases hCall_cases guest scope a b c d with silent | ⟨capability, arguments, same⟩
      · exact silent.window
      · rw [same]
    | _ => cases posts

/-- What a guest waits for when a helper has returned is what it has posted. -/
theorem invoke_wait (idle : guest.wait = .none) :
    (guest.invoke scope call).1.wait = reason (guest.invoke scope call).2.future := by
  have plain {result : Guest × Reply} (silent : Plain guest result) :
      result.1.wait = reason result.2.future := by
    rw [silent.wait, silent.answered, idle]
    rfl
  by_cases logs : call.helper = .logRaw
  · obtain ⟨helper, a, b, c, d, e⟩ := call
    cases logs
    obtain ⟨wait, answered, -⟩ := hLog_cases guest scope a b
    change (guest.hLog scope a b).1.wait = reason (guest.hLog scope a b).2.future
    rw [wait, answered, idle]
    rfl
  cases posts : call.helper.posts with
  | false => exact plain (invoke_plain guest scope posts logs)
  | true =>
    obtain ⟨helper, a, b, c, d, e⟩ := call
    cases helper with
    | sleepMs | eventNext => rfl
    | yield => exact idle
    | hostCallRaw =>
      change (guest.hCall scope a b c d).1.wait = reason (guest.hCall scope a b c d).2.future
      rcases hCall_cases guest scope a b c d with silent | ⟨capability, arguments, same⟩
      · exact plain silent
      · rw [same]
        rfl
    | _ => cases posts

/-- A guest whose host call is over does not wait for it. -/
theorem settleCall_wait (waits : guest.wait = .hostRpc) (outcome : Host.Outcome) :
    (guest.settleCall outcome).1.context.window = guest.context.window ∧
      (guest.settleCall outcome).1.wait = (guest.settleCall outcome).2.reason := by
  rcases outcome with (status | value) | call
  · exact ⟨rfl, rfl⟩
  · exact ⟨insert_window .., (insert_spec { guest with wait := .none } (.json value)).2.2.2.1⟩
  · exact ⟨rfl, waits⟩

/-- A poll of the future counts no attempt, and a guest does not wait for a future that
has completed. -/
theorem pollPosted_wait (ready : Ready) {future : Posted} (waits : guest.wait = future.reason) :
    (guest.pollPosted ready future).1.context.window = guest.context.window ∧
      (guest.pollPosted ready future).1.wait = (guest.pollPosted ready future).2.2.reason := by
  cases future with
  | sleep ms =>
    unfold pollPosted
    split_ifs
    · exact ⟨rfl, rfl⟩
    · exact ⟨rfl, waits⟩
  | yield =>
    unfold pollPosted
    split_ifs <;> exact ⟨rfl, waits⟩
  | event ms =>
    simp only [pollPosted]
    split
    · rename_i event mailbox taken
      exact ⟨insert_window ..,
        (insert_spec { guest with mailbox, wait := .none } (.json event)).2.2.2.1⟩
    · split_ifs
      · exact ⟨rfl, rfl⟩
      · exact ⟨rfl, waits⟩
  | call capability arguments ms =>
    exact @settleCall_wait { guest with
      host := (guest.host.call guest.context.id capability arguments (timeoutMs ms)
        ready.clock.unix ready.elapsed).1 } waits _
  | calling call =>
    exact @settleCall_wait { guest with
      host := (guest.host.poll call ready.space ready.elapsed).1 } waits _

end Laws

end Guest

end Spinfoam
