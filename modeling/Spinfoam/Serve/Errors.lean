import Spinfoam.Build.Diagnostics
import Spinfoam.Json.Measures
import Spinfoam.Serve.Effects

/-!
# Errors fit

The message of an error is cut, its kind is one of a few and its id is short, so
that the answer with it fits a frame. The loop is left over an answer only when
the control queue is full.
-/

namespace Spinfoam

open Spinfoam.Json Spinfoam.Outbox

namespace RpcError

/-- The codes of the program, each with its kind. -/
def kinds : List (Int × String) :=
  [(-32700, "PARSE_ERROR"), (-32600, "INVALID_REQUEST"), (-32600, "DUPLICATE_ID"),
    (-32601, "METHOD_NOT_FOUND"), (-32602, "INVALID_PARAMS"), (-32000, "NOT_INITIALIZED"),
    (-32001, "BUSY"), (-32002, "MAILBOX_FULL"), (-32004, "OBJECT_NOT_FOUND"),
    (-32010, "INVALID_OBJECT"), (-32020, "SANDBOX_UNAVAILABLE")]

variable {code : Int} {kind : String}

theorem small_of_mem_kinds (known : (code, kind) ∈ kinds) :
    code.natAbs < 10 ^ 10 ∧ kind.utf8ByteSize ≤ 32 := by
  have all : ∀ entry ∈ kinds, entry.1.natAbs < 10 ^ 10 ∧ entry.2.utf8ByteSize ≤ 32 := by decide
  exact all _ known

/-- The message is what the backward scan leaves of the text. -/
theorem toList_message (code : Int) (kind message : String) :
    (new code kind message).message.toList = takeBytes message.toList 4096 := by
  rw [new]
  split_ifs with long
  · rw [String.toList_ofList, takeBytes_boundaryBelow]
  · rw [takeBytes_of_le]
    rw [String.utf8Len_toList]
    omega

theorem longestStart_message (code : Int) (kind message : String) :
    LongestStart message (new code kind message).message 4096 :=
  .of_takeBytes (toList_message code kind message)

/-- The scan of a long text ends where the message ends. -/
theorem scan_message (code : Int) (kind message : String) :
    scanBoundary message.toList 4096 = some (new code kind message).message.utf8ByteSize := by
  rw [scanBoundary_eq, boundaryBelow_eq, ← toList_message code kind message, String.utf8Len_toList]

/-- A message of 4096 bytes escapes to at most six times as many, and what stands
around it is short. -/
theorem size_toValue_new (known : (code, kind) ∈ kinds) (message : String) :
    (new code kind message).toValue.size ≤ 25 * 1024 := by
  obtain ⟨digits, short⟩ := small_of_mem_kinds known
  have number := size_int_le (by decide) digits
  have cut := (longestStart_message code kind message).fits
  have text := Value.utf8ByteSize_quote_le (new code kind message).message
  have label := Value.utf8ByteSize_quote_le kind
  have literal : ∀ text, (Value.string text).size = (Value.quote text).utf8ByteSize := fun _ => rfl
  have names : (Value.quote "code").utf8ByteSize = 6 ∧ (Value.quote "data").utf8ByteSize = 6 ∧
      (Value.quote "message").utf8ByteSize = 9 ∧ (Value.quote "kind").utf8ByteSize = 6 := by decide
  have parts : (new code kind message).code = code ∧
      (new code kind message).data = .object [("kind", .string kind)] := ⟨rfl, rfl⟩
  simp only [toValue, Value.size_object, parts, literal, names, List.map_cons, List.map_nil,
    List.sum_cons, List.sum_nil]
  omega

end RpcError

namespace Outbox

/-- The control queue takes nothing more. -/
def Refuses (out : Outbox) : Prop := out.closed = true ∨ controlSlots ≤ out.controls.length

/-- A value that fits a frame is refused only by the queue. -/
theorem tryControl_eq_false {out : Outbox} {value : Value} (fits : value.size < maxFrame) :
    (out.tryControl value).2 = false ↔ out.Refuses := by
  have encoded : encode value = some ⟨value, fits⟩ := encode_eq_some.mpr rfl
  have length : out.controls.length = out.queues.control.length := by
    simp [controls, lane, Queues.lane]
  have offered := @offer_queues out .control ⟨⟨value, fits⟩, none⟩
  rw [Refuses, length, tryControl, encoded, Option.bind_some]
  rw [Queues.offer, Queues.pushControl] at offered
  cases taken : out.offer .control ⟨⟨value, fits⟩, none⟩ with
  | none =>
    rw [taken, Option.map_none] at offered
    split_ifs at offered with closed room
    · simp [closed]
    · simpa using Or.inr (not_lt.mp room)
  | some after =>
    rw [taken, Option.map_some] at offered
    split_ifs at offered with closed room
    simp [closed, room]

end Outbox

namespace Build

/-- `build::truncate` keeps the longest start too, whatever the bound. -/
theorem longestStart_truncate (text : String) (max : Nat) :
    LongestStart text (truncate text max) max :=
  .of_takeBytes (toList_truncate text max)

/-- Its scan ends where the text it keeps ends. -/
theorem scan_truncate (text : String) (max : Nat) :
    scanBoundary text.toList (min max text.utf8ByteSize) =
      some (truncate text max).utf8ByteSize := by
  rw [scanBoundary_eq, boundaryBelow_eq, truncate, takeBytes_boundaryBelow,
    ← String.utf8Len_toList (String.ofList _), String.toList_ofList]

end Build

namespace Serve

open Spinfoam.Semantics

/-- The ids of the answers: that of a request, or null. -/
inductive ReplyId : Value → Prop where
  | null : ReplyId .null
  | string (text : String) (short : text.utf8ByteSize ≤ 128) : ReplyId (.string text)

variable {code : Int} {kind : String} {id : Value}

theorem ReplyId.size (reply : ReplyId id) : id.size ≤ 1024 := by
  cases reply with
  | null => decide
  | string text short =>
    have literal := Value.utf8ByteSize_quote_le text
    exact literal.trans (by omega)

/-- The answer with an error fits a frame. -/
theorem size_response_error (known : (code, kind) ∈ RpcError.kinds) (message : String)
    (reply : ReplyId id) : (response id (.error (.new code kind message))).size < maxFrame := by
  have short := reply.size
  have error := RpcError.size_toValue_new known message
  have names : (Value.quote "id").utf8ByteSize = 4 ∧ (Value.quote "jsonrpc").utf8ByteSize = 9 ∧
      (Value.quote "error").utf8ByteSize = 7 ∧ (Value.string "2.0").size = 5 := by decide
  simp only [response, Value.size_object, names, List.map_cons, List.map_nil, List.sum_cons,
    List.sum_nil, maxFrame]
  omega

/-- The loop goes on, unless the control queue takes nothing more. -/
def GoesOn (session after : Session) : Prop :=
  after.left = true → session.left = true ∨ session.out.Refuses

section Loop

variable {session : Session}

theorem GoesOn.refl (session : Session) : GoesOn session session := Or.inl

theorem goesOn_answer (asked : Option Asked) {value : Value} (fits : value.size < maxFrame) :
    GoesOn session (session.answer asked value).1 := by
  intro left
  unfold Session.answer at left
  cases sent : (session.out.tryControl value).2 with
  | false => exact .inr ((Outbox.tryControl_eq_false fits).mp sent)
  | true =>
    rw [← Prod.eta (session.out.tryControl value), sent] at left
    exact .inl left

theorem goesOn_reject (known : (code, kind) ∈ RpcError.kinds) (message : String) :
    GoesOn session (session.reject code kind message).1 :=
  goesOn_answer none (size_response_error known message .null)

theorem goesOn_request {asked : Asked} (short : asked.id.utf8ByteSize ≤ 128) :
    GoesOn session (session.request asked).1 := by
  have reply := ReplyId.string asked.id short
  unfold Session.request
  split_ifs
  · exact goesOn_answer _ (size_response_error (by decide) _ reply)
  · exact goesOn_answer _ (size_response_error (by decide) _ reply)
  · exact Or.inl

/-- Whatever a frame holds, the loop goes on behind it while the queue has room. -/
theorem goesOn_receive (value : Value) : GoesOn session (session.receive value).1 := by
  unfold Session.receive
  extract_lets isObject
  split_ifs
  · exact goesOn_reject (by decide) _
  · exact Or.inl
  · split
    · exact goesOn_reject (by decide) _
    · split
      · exact .refl session
      · split
        · exact goesOn_reject (by decide) _
        · rename_i allowed
          exact goesOn_request (requestId_eq_some allowed)

theorem goesOn_parse (fromSlice : List UInt8 → Except String Value) (frame : List UInt8) :
    GoesOn session (session.parse fromSlice frame).1 := by
  unfold Session.parse
  split
  · exact goesOn_reject (by decide) _
  · exact goesOn_receive _

/-- A turn of `frame` hands a frame over only when it goes on to the parser. -/
theorem goesOn_progress (fromSlice : List UInt8 → Except String Value) {progress : Progress}
    {frame : List UInt8} (framed : .framed frame ∈ (session.progress fromSlice progress).2) :
    GoesOn session (session.progress fromSlice progress).1 := by
  cases progress with
  | more | eof | failed => cases framed
  | framed front rest =>
    intro left
    exact (goesOn_parse fromSlice front left).imp id id

/-- A loop that ends over a frame it was handed has found the control queue full. -/
theorem full_of_framed {fromSlice : List UInt8 → Except String Value} {after : Session}
    {read : Except String (List UInt8)} {events : List Event} {frame : List UInt8}
    (taken : (machine fromSlice).step session (.frame read) = some (after, events))
    (framed : .framed frame ∈ events) (left : after.left = true) :
    controlSlots ≤ session.out.controls.length := by
  simp only [machine, Option.ite_none_left_eq_some, not_or, Bool.not_eq_true] at taken
  obtain ⟨⟨live, -⟩, taken⟩ := taken
  simp only [Session.perform, Option.ite_none_left_eq_some, not_or, Bool.not_eq_true] at taken
  obtain ⟨⟨-, isOpen⟩, taken⟩ := taken
  have full : ∀ {middle : Session}, middle.left = session.left → middle.out = session.out →
      (middle.left = true ∨ middle.out.Refuses) → controlSlots ≤ session.out.controls.length := by
    intro middle same out refused
    rw [same, out, Outbox.Refuses, live, isOpen] at refused
    simpa using refused
  split_ifs at taken with waiting
  · obtain ⟨rfl, rfl⟩ := Prod.mk.inj (Option.some.inj taken)
    exact full rfl rfl (goesOn_progress fromSlice framed left)
  · cases read with
    | error =>
      obtain ⟨-, rfl⟩ := Prod.mk.inj (Option.some.inj taken)
      cases framed
    | ok bytes =>
      obtain ⟨rfl, rfl⟩ := Prod.mk.inj (Option.some.inj taken)
      have later := (List.mem_cons.mp framed).resolve_left (by simp)
      have refused := @goesOn_progress { session with buffer := bytes } fromSlice _ frame later left
      exact @full { session with buffer := bytes } rfl rfl refused

end Loop

/-- Whatever the text of an error, its message is the longest start of it that
fits, and the answer with it fits a frame. It is refused only by a control queue
that is full or closed, and only a full one makes the loop end over a frame. -/
theorem error_replies_fit (known : (code, kind) ∈ RpcError.kinds) (message : String)
    (reply : ReplyId id) :
    scanBoundary message.toList 4096 =
      some (RpcError.new code kind message).message.utf8ByteSize ∧
    LongestStart message (RpcError.new code kind message).message 4096 ∧
    (response id (.error (.new code kind message))).size < maxFrame ∧
    (∀ out : Outbox, (out.tryControl (response id (.error (.new code kind message)))).2 = false ↔
      out.closed = true ∨ controlSlots ≤ out.controls.length) ∧
    (∀ (text : String) (max : Nat),
      scanBoundary text.toList (min max text.utf8ByteSize) =
        some (Build.truncate text max).utf8ByteSize ∧
      LongestStart text (Build.truncate text max) max) ∧
    ∀ (fromSlice : List UInt8 → Except String Value) (session after : Session)
      (read : Except String (List UInt8)) (events : List Event) (frame : List UInt8),
      (machine fromSlice).step session (.frame read) = some (after, events) →
      .framed frame ∈ events → after.left = true → controlSlots ≤ session.out.controls.length := by
  have fits := size_response_error known message reply
  refine ⟨RpcError.scan_message code kind message, RpcError.longestStart_message code kind message,
    fits, fun out => out.tryControl_eq_false fits, ?_, ?_⟩
  · intro text max
    exact ⟨Build.scan_truncate text max, Build.longestStart_truncate text max⟩
  · intro fromSlice session after read events frame taken framed left
    exact full_of_framed taken framed left

/-- An error that quotes a long input, for a request. -/
theorem error_replies_fit_quoted :
    (response (.string "1") (.error (.new (-32602) "INVALID_PARAMS"
      (String.ofList (List.replicate 5000 '€'))))).size < maxFrame :=
  (error_replies_fit (by decide) _ (.string "1" (by decide))).2.2.1

end Serve

end Spinfoam
