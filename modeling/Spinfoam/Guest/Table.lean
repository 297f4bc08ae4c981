import Spinfoam.Guest.Futures

/-!
# Handle tables

What each helper does to the handle table of its guest. A helper that refuses or
faults leaves the table alone; otherwise it creates one handle under the next
number, replaces the value of one handle, drops one handle, or only reads.
-/

namespace Spinfoam

open Spinfoam.Json Spinfoam.Std Spinfoam.Guest

namespace Guest

/-- The call has failed: its status is negative, or it faults. Which of the two it is, and
that a call with sound pointers does not fault, is `invoke_dead` for dead handles. -/
def Reply.Refused : Reply → Prop
  | .value word | .wrote word _ _ => Negative word
  | .fault => True
  | .posted _ => False

instance (reply : Reply) : Decidable reply.Refused := by
  cases reply <;> unfold Reply.Refused <;> infer_instance

/-- The helpers that store a new handle. -/
def Helper.creates : Helper → Bool
  | .config | .jsonParse | .jsonGetRaw | .jsonAt | .jsonObject | .jsonArray | .jsonNull
  | .jsonStringRaw | .jsonNumber | .jsonBoolean | .jsonDump | .bytes => true
  | _ => false

/-- The arguments of a call that name handles. -/
def HelperCall.handles (call : HelperCall) : List Nat :=
  match call.helper with
  | .drop | .jsonGetRaw | .jsonAt | .jsonKind | .jsonI64 | .jsonBool | .jsonReadString
  | .jsonStringEqualsRaw | .jsonDump | .bytesLen | .bytesRead => [call.a]
  | .hostCallRaw => [call.c]
  | .jsonSetRaw => [call.a, call.d]
  | .jsonPush => [call.a, call.b]
  | _ => []

/-- The places of the texts a call hands over, each a pointer and a length. -/
def HelperCall.texts (call : HelperCall) : List (Nat × Nat) :=
  match call.helper with
  | .hostCallRaw | .logRaw | .jsonParse | .jsonStringRaw => [(call.a, call.b)]
  | .jsonGetRaw | .jsonSetRaw => [(call.b, call.c)]
  | .jsonStringEqualsRaw => [(call.b, call.c), (call.d, call.e)]
  | _ => []

/-- A pointer argument is invalid: no text can be read there, because the memory is out of
the guest's reach, the length is over the limit, or the bytes are not UTF-8. -/
def HelperCall.InvalidPointer (scope : Scope) (call : HelperCall) : Prop :=
  ∃ place ∈ call.texts, text scope place.1 place.2 = none

/-- The value that `sf_json_set` or `sf_json_push` leaves under its target. -/
inductive Grown (guest : Guest) (scope : Scope) (call : HelperCall) : Value → Prop where
  | set {key : String} {value : Value} {members : List (String × Value)}
      (helper : call.helper = .jsonSetRaw) (named : text scope call.b call.c = some key)
      (stored : guest.context.json call.d = some value)
      (target : guest.context.json call.a = some (.object members)) :
      Grown guest scope call (.object (Value.insertMember key value members))
  | push {value : Value} {items : List Value} (helper : call.helper = .jsonPush)
      (stored : guest.context.json call.b = some value)
      (target : guest.context.json call.a = some (.array items)) :
      Grown guest scope call (.array (items ++ [value]))

/-- The futures whose value gets a handle. -/
def Posted.fetches : Posted → Bool
  | .event _ | .call _ _ _ | .calling _ => true
  | .sleep _ | .yield => false

/-- Where the value under a new handle comes from. -/
inductive Source (guest : Guest) (scope : Scope) (call : HelperCall) : Handle → Prop where
  | config (helper : call.helper = .config) :
      Source guest scope call (.json guest.context.config)
  /-- A part of a value that the guest holds. -/
  | part {value part : Value} (stored : guest.context.json call.a = some value)
      (within : (∃ key, value.get key = some part) ∨ ∃ index, value.at? index = some part) :
      Source guest scope call (.json part)
  | checked {value : Value} (valid : validValue value = true) :
      Source guest scope call (.json value)
  | number (word : Nat) : Source guest scope call (.json (.number (.int (toI64 word))))
  | constant {value : Value}
      (simple : value ∈ [.object [], .array [], .null, .bool true, .bool false]) :
      Source guest scope call (.json value)
  /-- The encoding of a value that the guest holds. -/
  | dumped {value : Value} (stored : guest.context.json call.a = some value) :
      Source guest scope call (.bytes (encodeUtf8 value.compact))
  | bytes {bytes : List UInt8} (short : bytes.length ≤ maxValueBytes) :
      Source guest scope call (.bytes bytes)

/-- What a call does to the table of its guest. -/
inductive TableEffect (guest : Guest) (scope : Scope) (call : HelperCall) :
    Guest × Reply → Prop where
  | kept {after : Guest} {reply : Reply}
      (table : after.context.handles = guest.context.handles)
      (counter : after.nextHandle = guest.nextHandle)
      (config : after.context.config = guest.context.config)
      (calm : reply.Refused ∨ call.helper.creates = false ∧ call.helper ≠ .jsonSetRaw ∧
        call.helper ≠ .jsonPush ∧ call.helper ≠ .drop)
      (live : reply.Refused ∨ ∀ handle ∈ call.handles, handle ∈ guest.context.handles) :
      TableEffect guest scope call (after, reply)
  | created {handle : Handle} (creates : call.helper.creates = true) (room : ¬ guest.Full)
      (source : Source guest scope call handle)
      (live : ∀ other ∈ call.handles, other ∈ guest.context.handles) :
      TableEffect guest scope call ({ guest with
        context := { guest.context with
          handles := guest.context.handles.insert guest.nextHandle handle }
        nextHandle := guest.nextHandle + 1 }, .value guest.nextHandle)
  | replaced {value : Value} (grown : Grown guest scope call value)
      (valid : validValue value = true) :
      TableEffect guest scope call (guest.replace call.a value, .value 0)
  | dropped (helper : call.helper = .drop) (live : call.a ∈ guest.context.handles) :
      TableEffect guest scope call ({ guest with
        context := { guest.context with handles := guest.context.handles.erase call.a } },
        .value 0)

/-- The value a completed future has got for its guest, and the event it hands over. -/
inductive Fetched (guest : Guest) (ready : Ready) : Posted → Value → Option Value → Prop where
  | event {ms : Nat} {value : Value} (taken : guest.mailbox.receive.1 = some value) :
      Fetched guest ready (.event ms) value (some value)
  | called {capability : String} {arguments value : Value} {ms : Nat}
      (answered : (guest.host.call guest.context.id capability arguments (timeoutMs ms)
        ready.clock.unix ready.elapsed).2.2 = .ready (.ok value)) :
      Fetched guest ready (.call capability arguments ms) value none
  | polled {call : Host.Call} {value : Value}
      (answered : (guest.host.poll call ready.space ready.elapsed).2.2 = .ready (.ok value)) :
      Fetched guest ready (.calling call) value none

/-- What a poll of a posted future does to the table of its guest. -/
inductive CompletionEffect (guest : Guest) (ready : Ready) (future : Posted) :
    Guest × List Host.Event × Progress → Prop where
  | pending {after : Guest} {events : List Host.Event} {next : Posted}
      (context : after.context = guest.context) (counter : after.nextHandle = guest.nextHandle) :
      CompletionEffect guest ready future (after, events, .pending next)
  | kept {after : Guest} {events : List Host.Event} {word : Nat} {envelope : Option Value}
      (context : after.context = guest.context) (counter : after.nextHandle = guest.nextHandle)
      (calm : guest.host.Answering → Negative word ∨ future.fetches = false) :
      CompletionEffect guest ready future (after, events, .done word envelope)
  | created {after : Guest} {events : List Host.Event} {value : Value} {envelope : Option Value}
      (room : ¬ guest.Full) (fetched : Fetched guest ready future value envelope)
      (context : after.context = { guest.context with
        handles := guest.context.handles.insert guest.nextHandle (.json value) })
      (counter : after.nextHandle = guest.nextHandle + 1) :
      CompletionEffect guest ready future (after, events, .done guest.nextHandle envelope)

section Laws

variable {guest : Guest} {scope : Scope} {call : HelperCall}

theorem refused_invalid : (Reply.status Status.invalid).Refused := by decide

theorem refused_limit : (Reply.status Status.limit).Refused := by decide

theorem refused_denied : (Reply.status Status.denied).Refused := by decide

/-- A handle that can be read is live. -/
theorem mem_of_json {handle : Nat} {value : Value} (stored : guest.context.json handle = some value) :
    handle ∈ guest.context.handles := by
  apply AList.lookup_isSome.mp
  unfold GuestContext.json at stored
  split at stored
  · rename_i found
    simp [found]
  · cases stored

/-- There is no value under a dead handle. -/
theorem json_of_dead {handle : Nat} (dead : handle ∉ guest.context.handles) :
    guest.context.json handle = none := by
  rw [GuestContext.json, AList.lookup_eq_none.mpr dead]

private theorem refuse {reply : Reply} (refused : reply.Refused) :
    TableEffect guest scope call (guest, reply) :=
  .kept rfl rfl rfl (Or.inl refused) (Or.inl refused)

private theorem create_effect {handle : Handle} (creates : call.helper.creates = true)
    (source : Source guest scope call handle)
    (live : ∀ other ∈ call.handles, other ∈ guest.context.handles) :
    TableEffect guest scope call (guest.create handle) := by
  unfold create insert
  split_ifs with full
  · exact refuse refused_limit
  · exact .created creates full source live

/-- A part of a stored value gets a handle of its own. -/
private theorem createFound_effect {found : Option Value} (creates : call.helper.creates = true)
    (handles : call.handles = [call.a])
    (within : ∀ part, found = some part → ∃ value, guest.context.json call.a = some value ∧
      ((∃ key, value.get key = some part) ∨ ∃ index, value.at? index = some part)) :
    TableEffect guest scope call (guest.createFound found) := by
  cases found with
  | none => exact refuse refused_invalid
  | some part =>
    obtain ⟨value, stored, part⟩ := within part rfl
    apply create_effect creates (.part stored part)
    rw [handles]
    simpa using mem_of_json stored

private theorem update_effect {target : Option Value}
    (grown : ∀ value, target = some value → Grown guest scope call value) :
    TableEffect guest scope call (guest.update call.a target) := by
  unfold update
  split
  · exact refuse refused_invalid
  · rename_i value
    split_ifs with valid
    · exact .replaced (grown value rfl) valid
    · exact refuse refused_limit

private theorem calm_of_reads {helper : Helper} (reads : helper.reads = true) :
    helper.creates = false ∧ helper ≠ .jsonSetRaw ∧ helper ≠ .jsonPush ∧ helper ≠ .drop := by
  revert reads
  cases helper <;> decide

/-- A reader given a dead handle refuses. -/
private theorem invoke_reading_live (guest : Guest) (scope : Scope) {call : HelperCall}
    (reads : call.helper.reads = true) :
    (guest.invoke scope call).2.Refused ∨
      ∀ handle ∈ call.handles, handle ∈ guest.context.handles := by
  obtain ⟨helper, a, b, c, d, e⟩ := call
  have live : ∀ {value : Value}, guest.context.json a = some value →
      ∀ handle ∈ [a], handle ∈ guest.context.handles := by
    intro value stored
    simpa using mem_of_json stored
  cases helper with
  | nowMonoMs | nowUnixMs | memcpy | memset | memcmp => exact Or.inr (by simp [HelperCall.handles])
  | jsonKind | jsonBool =>
    cases stored : guest.context.json a with
    | none => exact Or.inl (by simpa [invoke, hKind, hBool, stored] using refused_invalid)
    | some value => exact Or.inr (live stored)
  | jsonI64 | jsonReadString =>
    cases stored : guest.context.json a with
    | none => exact Or.inl (by simpa [invoke, hI64, hStringRead, stored] using refused_invalid)
    | some value => exact Or.inr (live stored)
  | jsonStringEqualsRaw =>
    cases stored : guest.context.json a with
    | none =>
      left
      simp only [invoke, hEquals, stored]
      split
      · exact refused_invalid
      · trivial
    | some value => exact Or.inr (live stored)
  | bytesLen =>
    cases stored : guest.context.handles.lookup a with
    | none => exact Or.inl (by simpa [invoke, hLen, stored] using refused_invalid)
    | some value => exact Or.inr (by simpa [HelperCall.handles] using Map.mem_of_lookup stored)
  | bytesRead =>
    cases stored : guest.context.handles.lookup a with
    | none =>
      left
      simp only [invoke, hRead, stored]
      split_ifs
      · exact refused_limit
      · exact refused_invalid
    | some value => exact Or.inr (by simpa [HelperCall.handles] using Map.mem_of_lookup stored)
  | _ => cases reads

/-- Logging leaves the handles alone. -/
private theorem hLog_table (guest : Guest) (scope : Scope) (pointer length : Nat) :
    (guest.hLog scope pointer length).1.context.handles = guest.context.handles ∧
      (guest.hLog scope pointer length).1.nextHandle = guest.nextHandle ∧
      (guest.hLog scope pointer length).1.context.config = guest.context.config := by
  unfold hLog
  by_cases long : length > 1024
  · rw [if_pos long]
    exact ⟨rfl, rfl, rfl⟩
  · rw [if_neg long]
    cases text scope pointer length with
    | none => exact ⟨rfl, rfl, rfl⟩
    | some message =>
      simp only
      split_ifs <;> exact ⟨renewWindow_handles _ _, rfl, renewWindow_config _ _⟩

/-- What each helper of the table does to the handles. -/
theorem invoke_table (guest : Guest) (scope : Scope) (call : HelperCall) :
    TableEffect guest scope call (guest.invoke scope call) := by
  by_cases reads : call.helper.reads = true
  · have live := invoke_reading_live guest scope reads
    have same := (invoke_reading guest scope reads).1
    have calm := calm_of_reads reads
    generalize guest.invoke scope call = result at live same ⊢
    obtain ⟨after, reply⟩ := result
    subst same
    exact .kept rfl rfl rfl (Or.inr calm) live
  obtain ⟨helper, a, b, c, d, e⟩ := call
  cases helper with
  | sleepMs | yield | eventNext =>
    exact .kept rfl rfl rfl (Or.inr (by simp [Helper.creates])) (Or.inr (by simp [HelperCall.handles]))
  | hostCallRaw =>
    simp only [invoke, hCall]
    split
    · exact refuse trivial
    · split
      · exact refuse refused_invalid
      · rename_i arguments copied
        split_ifs
        · exact .kept rfl rfl rfl (Or.inr (by simp [Helper.creates]))
            (Or.inr (by simpa [HelperCall.handles] using mem_of_json copied))
        · exact refuse refused_denied
  | logRaw =>
    obtain ⟨table, counter, config⟩ := hLog_table guest scope a b
    exact .kept table counter config (Or.inr (by simp [Helper.creates]))
      (Or.inr (by simp [HelperCall.handles]))
  | config => exact create_effect rfl (.config rfl) (by simp [HelperCall.handles])
  | jsonObject | jsonArray | jsonNull =>
    exact create_effect rfl (.constant (by simp)) (by simp [HelperCall.handles])
  | jsonBoolean =>
    refine create_effect rfl (.constant ?_) (by simp [HelperCall.handles])
    cases decide (a ≠ 0) <;> simp
  | jsonNumber => exact create_effect rfl (.number a) (by simp [HelperCall.handles])
  | drop =>
    simp only [invoke, hDrop]
    split_ifs with live
    · exact .dropped rfl live
    · exact refuse refused_invalid
  | jsonParse =>
    simp only [invoke, hParse]
    split_ifs
    · exact refuse refused_limit
    · split
      · exact refuse trivial
      · split
        · exact refuse refused_invalid
        · split_ifs with valid
          · exact create_effect rfl (.checked valid) (by simp [HelperCall.handles])
          · exact refuse refused_limit
  | jsonGetRaw =>
    simp only [invoke, hGet]
    split
    · exact refuse trivial
    · rename_i key named
      refine createFound_effect rfl rfl ?_
      intro part found
      obtain ⟨value, stored, got⟩ := Option.bind_eq_some_iff.mp found
      exact ⟨value, stored, Or.inl ⟨key, got⟩⟩
  | jsonAt =>
    refine createFound_effect rfl rfl ?_
    intro part found
    obtain ⟨value, stored, got⟩ := Option.bind_eq_some_iff.mp found
    exact ⟨value, stored, Or.inr ⟨b, got⟩⟩
  | jsonStringRaw =>
    simp only [invoke, hString]
    split
    · exact refuse trivial
    · split_ifs with valid
      · exact create_effect rfl (.checked valid) (by simp [HelperCall.handles])
      · exact refuse refused_limit
  | jsonSetRaw =>
    simp only [invoke, hSet]
    split
    · exact refuse trivial
    · rename_i key named
      refine @update_effect guest scope ⟨.jsonSetRaw, a, b, c, d, e⟩ _ ?_
      intro value grown
      split at grown
      · rename_i stored target
        obtain rfl := Option.some.inj grown
        exact .set rfl named stored target
      · cases grown
  | jsonPush =>
    simp only [invoke, hPush]
    refine @update_effect guest scope ⟨.jsonPush, a, b, c, d, e⟩ _ ?_
    intro value grown
    split at grown
    · rename_i stored target
      obtain rfl := Option.some.inj grown
      exact .push rfl stored target
    · cases grown
  | jsonDump =>
    simp only [invoke, hDump]
    split
    · rename_i value stored
      exact create_effect rfl (.dumped stored)
        (by simpa [HelperCall.handles] using mem_of_json stored)
    · exact refuse refused_invalid
  | bytes =>
    simp only [invoke, hBytes]
    split_ifs with long
    · exact refuse refused_limit
    · split
      · exact refuse trivial
      · rename_i bytes read
        have short : bytes.length ≤ maxValueBytes := scope.sized read ▸ not_lt.mp long
        exact create_effect rfl (.bytes short) (by simp [HelperCall.handles])
  | _ => exact absurd rfl reads

/-- Only a future that fetches has fetched something. -/
theorem Fetched.fetches {ready : Ready} {future : Posted} {value : Value}
    {envelope : Option Value} (fetched : Fetched guest ready future value envelope) :
    future.fetches = true := by
  cases fetched <;> rfl

/-- The callback of a future stores what has been fetched, if there is room. -/
private theorem insert_completion {ready : Ready} {future : Posted} {value : Value}
    {envelope : Option Value} (fetched : Fetched guest ready future value envelope)
    {before : Guest} (context : before.context = guest.context)
    (counter : before.nextHandle = guest.nextHandle) (events : List Host.Event) :
    CompletionEffect guest ready future
      ((before.insert (.json value)).1, events, .done (before.insert (.json value)).2 envelope) := by
  have same : before.Full ↔ guest.Full := by rw [Guest.Full, context, counter, Guest.Full]
  have refused : Negative Status.limit.word := by decide
  unfold insert
  split_ifs with full
  · exact .kept context counter fun _ => Or.inl refused
  · rw [counter]
    refine .created (mt same.mpr full) fetched ?_ rfl
    rw [context]

private theorem settleCall_completion {ready : Ready} {future : Posted}
    {result : Host × List Host.Event × Host.Outcome}
    (answers : guest.host.Answering → Host.Answers result)
    (fetched : ∀ value, result.2.2 = .ready (.ok value) → Fetched guest ready future value none) :
    CompletionEffect guest ready future
      ((({ guest with host := result.1 } : Guest).settleCall result.2.2).1, result.2.1,
        (({ guest with host := result.1 } : Guest).settleCall result.2.2).2) := by
  obtain ⟨host, events, (status | value) | call⟩ := result
  · refine .kept rfl rfl ?_
    intro answering
    exact Or.inl ((answers answering).2 _ rfl)
  · let before : Guest := { guest with host, wait := .none }
    have context : before.context = guest.context := rfl
    exact insert_completion (fetched value rfl) context rfl events
  · exact .pending rfl rfl

/-- What a poll of each posted future does to the handles. -/
theorem pollPosted_table (guest : Guest) (ready : Ready) (future : Posted) :
    CompletionEffect guest ready future (guest.pollPosted ready future) := by
  cases future with
  | sleep ms =>
    simp only [pollPosted]
    split_ifs
    · exact .kept rfl rfl fun _ => Or.inr rfl
    · exact .pending rfl rfl
  | yield =>
    simp only [pollPosted]
    split_ifs
    · exact .kept rfl rfl fun _ => Or.inr rfl
    · exact .pending rfl rfl
  | event ms =>
    simp only [pollPosted]
    split
    · rename_i event mailbox received
      have taken : guest.mailbox.receive.1 = some event := by rw [received]
      let before : Guest := { guest with mailbox, wait := .none }
      have context : before.context = guest.context := rfl
      exact insert_completion (.event taken) context rfl []
    · have refused : Negative Status.timeout.word := by decide
      split_ifs
      · exact .kept rfl rfl fun _ => Or.inl refused
      · exact .pending rfl rfl
  | call capability arguments ms =>
    have answers (answering : guest.host.Answering) :=
      answering.call guest.context.id capability arguments (timeoutMs ms) ready.clock.unix
        ready.elapsed
    have fetched (value : Value) := @Fetched.called guest ready capability arguments value ms
    simp only [pollPosted]
    generalize guest.host.call guest.context.id capability arguments (timeoutMs ms)
      ready.clock.unix ready.elapsed = result at answers fetched ⊢
    exact settleCall_completion answers fetched
  | calling call =>
    have answers (answering : guest.host.Answering) :=
      answering.poll call ready.space ready.elapsed
    have fetched (value : Value) := @Fetched.polled guest ready call value
    simp only [pollPosted]
    generalize guest.host.poll call ready.space ready.elapsed = result at answers fetched ⊢
    exact settleCall_completion answers fetched

/-- Neither a helper nor a future brings an improper reply into the host. -/
theorem invoke_answering (answering : guest.host.Answering) :
    (guest.invoke scope call).1.host.Answering := by
  have spec := invoke_spec guest scope call
  generalize guest.invoke scope call = result at spec ⊢
  cases spec with
  | table same mailbox host =>
    rw [host]
    exact answering
  | log same mailbox host =>
    have replies := congrArg Host.replies host
    intro id result found
    exact answering id result (replies ▸ found)
  | posted => exact answering

/-- A posted future keeps all replies proper. -/
theorem pollPosted_answering (answering : guest.host.Answering) (ready : Ready)
    (future : Posted) : (guest.pollPosted ready future).1.host.Answering := by
  have settled : ∀ (guest : Guest) outcome, guest.host.Answering →
      (guest.settleCall outcome).1.host.Answering := by
    intro guest outcome answering
    obtain (status | value) | call := outcome
    · exact answering
    · have stored := (insert_spec { guest with wait := .none } (.json value)).2.2.1
      rw [Guest.settleCall, stored]
      exact answering
    · exact answering
  cases future with
  | sleep | yield =>
    unfold pollPosted
    split_ifs <;> exact answering
  | event ms =>
    simp only [pollPosted]
    split
    · rename_i event mailbox received
      rw [(insert_spec { guest with mailbox, wait := .none } (.json event)).2.2.1]
      exact answering
    · split_ifs <;> exact answering
  | call capability arguments ms =>
    have answers := answering.call guest.context.id capability arguments (timeoutMs ms)
      ready.clock.unix ready.elapsed
    simp only [pollPosted]
    generalize guest.host.call guest.context.id capability arguments (timeoutMs ms)
      ready.clock.unix ready.elapsed = result at answers ⊢
    exact settled { guest with host := result.1 } _ answers.1
  | calling call =>
    have answers := answering.poll call ready.space ready.elapsed
    simp only [pollPosted]
    generalize guest.host.poll call ready.space ready.elapsed = result at answers ⊢
    exact settled { guest with host := result.1 } _ answers.1

/-- Dropping a run gives out no handle. -/
theorem dropRun_nextHandle (guest : Guest) (posted : Option Posted) :
    (guest.dropRun posted).1.nextHandle = guest.nextHandle := by
  rcases posted with _ | _ | _ | _ | _ | _ <;> rfl

/-- Dropping a run keeps all replies proper. -/
theorem dropRun_answering (answering : guest.host.Answering) (posted : Option Posted) :
    (guest.dropRun posted).1.host.Answering := by
  rcases posted with _ | (ms | _ | ms | ⟨capability, arguments, ms⟩ | call)
  · exact answering
  · exact answering
  · exact answering
  · exact answering
  · exact answering
  · exact answering.abandon call

end Laws

end Guest

end Spinfoam
