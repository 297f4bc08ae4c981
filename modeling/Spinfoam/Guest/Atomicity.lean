import Spinfoam.Guest.Table

/-!
# Atomic handle operations

A call that fails leaves the whole table as it was, and a call that succeeds
changes the one handle it is about. Values are copied into the table, so no two
handles share anything.
-/

namespace Spinfoam.Guest

open Spinfoam.Json Spinfoam.Std

/-- The handles of the table have been given out. -/
def Numbered (guest : Guest) : Prop :=
  ∀ handle ∈ guest.context.handles, handle < guest.nextHandle

/-- What a helper may do to the table. -/
structure Atomic (guest : Guest) (scope : Scope) (call : HelperCall) (after : Guest)
    (reply : Reply) : Prop where
  refused : reply.Refused → after.context.handles = guest.context.handles
  /-- A new handle is bound and nothing else changes. -/
  creates : call.helper.creates = true → ¬ reply.Refused →
    ∃ word handle, reply = .value word ∧ (guest.Numbered → word ∉ guest.context.handles) ∧
      after.context.handles = guest.context.handles.insert word handle
  /-- One key of the object under the target is set. -/
  sets : call.helper = .jsonSetRaw → ¬ reply.Refused →
    ∃ key value members grown, text scope call.b call.c = some key ∧
      guest.context.json call.d = some value ∧
      guest.context.json call.a = some (.object members) ∧
      (∀ other, Value.get other (.object grown) =
        if other = key then some value else Value.get other (.object members)) ∧
      after.context.handles = guest.context.handles.insert call.a (.json (.object grown))
  /-- The array under the target grows at its end. -/
  pushes : call.helper = .jsonPush → ¬ reply.Refused →
    ∃ value items, guest.context.json call.b = some value ∧
      guest.context.json call.a = some (.array items) ∧
      after.context.handles =
        guest.context.handles.insert call.a (.json (.array (items ++ [value])))
  drops : call.helper = .drop → ¬ reply.Refused →
    call.a ∈ guest.context.handles ∧
      after.context.handles = guest.context.handles.erase call.a
  /-- All other helpers leave the table alone. -/
  reads : call.helper.creates = false → call.helper ≠ .jsonSetRaw → call.helper ≠ .jsonPush →
    call.helper ≠ .drop → after.context.handles = guest.context.handles

/-- What the completion of a posted future may do to the table. -/
structure AtomicCompletion (guest : Guest) (future : Posted) (after : Guest)
    (progress : Progress) : Prop where
  pending : ∀ next, progress = .pending next →
    after.context.handles = guest.context.handles
  refused : ∀ word envelope, progress = .done word envelope → Negative word →
    after.context.handles = guest.context.handles
  fetches : ∀ word envelope, progress = .done word envelope → ¬ Negative word →
    future.fetches = true → guest.host.Answering →
    ∃ handle, (guest.Numbered → word ∉ guest.context.handles) ∧
      after.context.handles = guest.context.handles.insert word handle
  waits : future.fetches = false → after.context.handles = guest.context.handles

section Laws

variable {guest : Guest}

/-- The next number is fresh. -/
theorem Numbered.nextHandle (numbered : guest.Numbered) :
    guest.nextHandle ∉ guest.context.handles := by
  intro bound
  exact lt_irrefl _ (numbered _ bound)

/-- The number of a new handle looks like no status. -/
theorem not_negative_nextHandle (room : ¬ guest.Full) : ¬ Negative guest.nextHandle := by
  simp only [Guest.Full, Negative] at room ⊢
  omega

theorem invoke_atomic (guest : Guest) (scope : Scope) (call : HelperCall) :
    Atomic guest scope call (guest.invoke scope call).1 (guest.invoke scope call).2 := by
  have effect := invoke_table guest scope call
  generalize guest.invoke scope call = result at effect ⊢
  have fine : ¬ (Reply.value 0).Refused := by decide
  cases effect with
  | @kept after reply table counter config calm =>
    have given (changes : call.helper.creates = true ∨ call.helper = .jsonSetRaw ∨
        call.helper = .jsonPush ∨ call.helper = .drop) : reply.Refused := by
      refine calm.resolve_right ?_
      rintro ⟨creates, set, push, drop⟩
      simp [creates, set, push, drop] at changes
    exact
      { refused := fun _ => table
        creates := fun creates fine => absurd (given (Or.inl creates)) fine
        sets := fun set fine => absurd (given (Or.inr (Or.inl set))) fine
        pushes := fun push fine => absurd (given (Or.inr (Or.inr (Or.inl push)))) fine
        drops := fun drop fine => absurd (given (Or.inr (Or.inr (Or.inr drop)))) fine
        reads := fun _ _ _ _ => table }
  | @created handle creates room source =>
    have other {helper : Helper} (same : call.helper = helper)
        (reads : helper.creates = false) : False := by
      rw [same, reads] at creates
      cases creates
    exact
      { refused := fun refused => absurd refused (not_negative_nextHandle room)
        creates := fun _ _ => ⟨_, handle, rfl, Numbered.nextHandle, rfl⟩
        sets := fun set => (other set rfl).elim
        pushes := fun push => (other push rfl).elim
        drops := fun drop => (other drop rfl).elim
        reads := fun reads => by simp [creates] at reads }
  | replaced grown =>
    cases grown with
    | @set key value members helper named stored target =>
      exact
        { refused := fun refused => absurd refused fine
          creates := fun creates => by simp [helper, Helper.creates] at creates
          sets := fun _ _ =>
            ⟨key, value, members, _, named, stored, target,
              fun other => Value.lookup_insertMember key value members other, rfl⟩
          pushes := fun push => by simp [helper] at push
          drops := fun drop => by simp [helper] at drop
          reads := fun _ set => absurd helper set }
    | @push value items helper stored target =>
      exact
        { refused := fun refused => absurd refused fine
          creates := fun creates => by simp [helper, Helper.creates] at creates
          sets := fun set => by simp [helper] at set
          pushes := fun _ _ => ⟨value, items, stored, target, rfl⟩
          drops := fun drop => by simp [helper] at drop
          reads := fun _ _ push => absurd helper push }
  | dropped helper live =>
    exact
      { refused := fun refused => absurd refused fine
        creates := fun creates => by simp [helper, Helper.creates] at creates
        sets := fun set => by simp [helper] at set
        pushes := fun push => by simp [helper] at push
        drops := fun _ _ => ⟨live, rfl⟩
        reads := fun _ _ _ drop => absurd helper drop }

theorem pollPosted_atomic (guest : Guest) (ready : Ready) (future : Posted) :
    AtomicCompletion guest future (guest.pollPosted ready future).1
      (guest.pollPosted ready future).2.2 := by
  have effect := pollPosted_table guest ready future
  generalize guest.pollPosted ready future = result at effect ⊢
  cases effect with
  | pending context =>
    have table := congrArg GuestContext.handles context
    exact
      { pending := fun _ _ => table
        refused := fun _ _ _ _ => table
        fetches := fun _ _ done => by cases done
        waits := fun _ => table }
  | kept context counter calm =>
    have table := congrArg GuestContext.handles context
    refine ⟨fun _ _ => table, fun _ _ _ _ => table, ?_, fun _ => table⟩
    intro word envelope done fine fetches answering
    cases done
    rcases calm answering with negative | plain
    · exact absurd negative fine
    · rw [plain] at fetches
      cases fetches
  | @created after events value envelope room fetched context counter =>
    have table := congrArg GuestContext.handles context
    refine ⟨?_, ?_, ?_, ?_⟩
    · intro next pending
      cases pending
    · intro word envelope done negative
      cases done
      exact absurd negative (not_negative_nextHandle room)
    · intro word envelope done _ _ _
      cases done
      exact ⟨_, Numbered.nextHandle, table⟩
    · intro plain
      rw [fetched.fetches] at plain
      cases plain

/-- The answer to a call that names a dead handle: a fault on an invalid pointer argument,
and a negative status otherwise. -/
inductive Denied (scope : Scope) (call : HelperCall) : Reply → Prop where
  | invalid (pointer : call.InvalidPointer scope) : Denied scope call .fault
  | status {word : Nat} (negative : Negative word) : Denied scope call (.value word)

private theorem denied_status {status : Status} (negative : Negative status.word) :
    Denied scope call (.status status) := .status negative

private theorem denied_pointer {pointer length : Nat} (place : (pointer, length) ∈ call.texts)
    (unread : text scope pointer length = none) : Denied scope call .fault :=
  .invalid ⟨_, place, unread⟩

/-- No helper that takes handles goes on with a dead one. -/
theorem invoke_denied (guest : Guest) (scope : Scope) {call : HelperCall} {handle : Nat}
    (named : handle ∈ call.handles) (dead : handle ∉ guest.context.handles) :
    Denied scope call (guest.invoke scope call).2 := by
  have invalid : Negative Status.invalid.word := by decide
  have limit : Negative Status.limit.word := by decide
  have absent := json_of_dead dead
  have missing := AList.lookup_eq_none.mpr dead
  obtain ⟨helper, a, b, c, d, e⟩ := call
  cases helper with
  | drop | jsonKind | jsonBool | jsonI64 | jsonReadString | jsonDump | jsonAt | bytesLen =>
    obtain rfl : handle = a := by simpa [HelperCall.handles] using named
    simpa [invoke, hDrop, hKind, hBool, hI64, hStringRead, hDump, hAt, createFound, hLen, dead,
      absent, missing] using denied_status invalid
  | bytesRead =>
    obtain rfl : handle = a := by simpa [HelperCall.handles] using named
    simp only [invoke, hRead, missing]
    split_ifs
    · exact denied_status limit
    · exact denied_status invalid
  | jsonGetRaw =>
    obtain rfl : handle = a := by simpa [HelperCall.handles] using named
    cases key : text scope b c with
    | none => simpa [invoke, hGet, key] using denied_pointer List.mem_cons_self key
    | some key' => simpa [invoke, hGet, key, absent, createFound] using denied_status invalid
  | jsonStringEqualsRaw =>
    obtain rfl : handle = a := by simpa [HelperCall.handles] using named
    cases key : text scope b c with
    | none => simpa [invoke, hEquals, key] using denied_pointer List.mem_cons_self key
    | some key' =>
      cases value : text scope d e with
      | none =>
        simpa [invoke, hEquals, key, value] using
          denied_pointer (List.mem_cons_of_mem _ List.mem_cons_self) value
      | some value' => simpa [invoke, hEquals, key, value, absent] using denied_status invalid
  | hostCallRaw =>
    obtain rfl : handle = c := by simpa [HelperCall.handles] using named
    cases capability : text scope a b with
    | none => simpa [invoke, hCall, capability] using denied_pointer List.mem_cons_self capability
    | some name => simpa [invoke, hCall, capability, absent] using denied_status invalid
  | jsonSetRaw =>
    cases key : text scope b c with
    | none => simpa [invoke, hSet, key] using denied_pointer List.mem_cons_self key
    | some key' =>
      have either : handle = a ∨ handle = d := by simpa [HelperCall.handles] using named
      obtain rfl | rfl := either
      · simpa [invoke, hSet, key, absent, update] using denied_status invalid
      · simpa [invoke, hSet, key, absent, update] using denied_status invalid
  | jsonPush =>
    have either : handle = a ∨ handle = b := by simpa [HelperCall.handles] using named
    obtain rfl | rfl := either
    · simpa [invoke, hPush, absent, update] using denied_status invalid
    · simpa [invoke, hPush, absent, update] using denied_status invalid
  | _ => simp [HelperCall.handles] at named

/-- A call that names a dead handle fails, with a fault only on an invalid pointer argument,
and changes no handle. -/
theorem invoke_dead (guest : Guest) (scope : Scope) {call : HelperCall} {handle : Nat}
    (named : handle ∈ call.handles) (dead : handle ∉ guest.context.handles) :
    Denied scope call (guest.invoke scope call).2 ∧
      (guest.invoke scope call).1.context.handles = guest.context.handles ∧
      (guest.invoke scope call).1.nextHandle = guest.nextHandle := by
  have effect := invoke_table guest scope call
  have denied := invoke_denied guest scope named dead
  generalize guest.invoke scope call = result at effect denied ⊢
  cases effect with
  | kept table counter => exact ⟨denied, table, counter⟩
  | created creates room source live => exact absurd (live handle named) dead
  | replaced grown =>
    exfalso
    cases grown with
    | set helper _ stored target =>
      simp only [HelperCall.handles, helper, List.mem_cons, List.not_mem_nil, or_false] at named
      rcases named with rfl | rfl
      · exact dead (mem_of_json target)
      · exact dead (mem_of_json stored)
    | push helper stored target =>
      simp only [HelperCall.handles, helper, List.mem_cons, List.not_mem_nil, or_false] at named
      rcases named with rfl | rfl
      · exact dead (mem_of_json target)
      · exact dead (mem_of_json stored)
  | dropped helper live =>
    simp only [HelperCall.handles, helper, List.mem_singleton] at named
    exact absurd (named ▸ live) dead

end Laws

end Spinfoam.Guest
