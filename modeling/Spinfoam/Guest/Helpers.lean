import Spinfoam.Guest.Context

/-!
# The helpers

Every helper of `helpers.rs` as a function of what it can reach. A helper returns
a word, faults the program, or posts a future on which the guest waits. Reads of
guest memory, the clocks and the JSON parser are inputs of a call; a write to
guest memory is part of its reply.
-/

namespace Spinfoam

open Spinfoam.Json Spinfoam.Std Spinfoam.Outbox

namespace Guest

/-- What a helper is given besides its arguments. -/
structure Scope where
  /-- `user_memory`: the bytes at an address, if the guest may read them. -/
  memory : Nat → Nat → Option (List UInt8)
  /-- `user_memory_mut`: whether the guest may write that many bytes there. -/
  writable : Nat → Nat → Bool
  clock : Clock
  /-- `serde_json::from_str`. -/
  fromStr : String → Option Value
  /-- As many bytes are read as were asked for. -/
  sized : ∀ {pointer length bytes}, memory pointer length = some bytes → bytes.length = length

/-- A future a helper has posted. -/
inductive Posted where
  | sleep (ms : Nat)
  | yield
  /-- `sf_event_next`, waiting in `Mailbox::receive`. -/
  | event (ms : Nat)
  /-- `sf_host_call` before the first poll of `Host::call`, with its own copy of
  the arguments. -/
  | call (capability : String) (arguments : Value) (ms : Nat)
  | calling (call : Host.Call)
deriving DecidableEq

inductive Reply where
  | value (word : Nat)
  /-- The helper wrote to guest memory. -/
  | wrote (word address : Nat) (bytes : List UInt8)
  | fault
  | posted (future : Posted)
deriving DecidableEq

/-- The future on which the guest waits after this reply. -/
def Reply.future : Reply → Option Posted
  | .posted future => some future
  | _ => none

/-- The answer with a status. -/
def Reply.status (status : Status) : Reply := .value status.word

/-- Decode UTF-8. -/
def decodeUtf8 (bytes : List UInt8) : Option String := String.fromUTF8? ⟨bytes.toArray⟩

def encodeUtf8 (text : String) : List UInt8 := text.toUTF8.data.toList

/-- Text survives its encoding. -/
@[simp] theorem decodeUtf8_encodeUtf8 (text : String) : decodeUtf8 (encodeUtf8 text) = some text := by
  have same : (⟨text.toUTF8.data.toList.toArray⟩ : ByteArray) = text.toByteArray := by simp
  rw [decodeUtf8, encodeUtf8, same, String.fromUTF8?, dif_pos text.isValidUTF8]
  rfl

/-- The encoding of a text has as many bytes as the text. -/
@[simp] theorem length_encodeUtf8 (text : String) : (encodeUtf8 text).length = text.utf8ByteSize := by
  rw [encodeUtf8, Array.length_toList]
  rfl

def text (scope : Scope) (pointer length : Nat) : Option String :=
  if length > maxValueBytes then none
  else (scope.memory pointer length).bind decodeUtf8

def timeoutMs (ms : Nat) : Nat := min ms 86400000

def toI64 (word : Nat) : Int :=
  if word % 2 ^ 64 < 2 ^ 63 then (word % 2 ^ 64 : Nat) else (word % 2 ^ 64 : Nat) - 2 ^ 64

/-- The eight bytes of a word, least significant first. -/
def leBytes (word : Nat) : List UInt8 :=
  (List.range 8).map fun index => UInt8.ofNat (word / 256 ^ index)

/-- The `sf.log` notification. -/
def logNotice (id message : String) : Value :=
  .object [
    ("jsonrpc", .string "2.0"),
    ("method", .string "sf.log"),
    ("params", .object [("message", .string message), ("object_id", .string id)])]

/-- Store a new handle and return its number, or the status that says why not. -/
def create (guest : Guest) (handle : Handle) : Guest × Reply :=
  let (guest, word) := guest.insert handle
  (guest, .value word)

/-- Replace the value under a handle. -/
def replace (guest : Guest) (handle : Nat) (value : Value) : Guest :=
  { guest with
    context := { guest.context with
      handles := guest.context.handles.insert handle (.json value) } }

def hSleep (guest : Guest) (ms : Nat) : Guest × Reply :=
  ({ guest with wait := .timer }, .posted (.sleep ms))

def hYield (guest : Guest) : Guest × Reply := (guest, .posted .yield)

def hMono (guest : Guest) (scope : Scope) : Guest × Reply :=
  (guest, .value ((scope.clock.monotonic - guest.context.started) / 1000000))

def hUnix (guest : Guest) (scope : Scope) : Guest × Reply := (guest, .value scope.clock.unix)

def hConfig (guest : Guest) : Guest × Reply := guest.create (.json guest.context.config)

def hDrop (guest : Guest) (handle : Nat) : Guest × Reply :=
  if handle ∈ guest.context.handles then
    ({ guest with
      context := { guest.context with handles := guest.context.handles.erase handle } },
      .value 0)
  else (guest, .status Status.invalid)

def hEvent (guest : Guest) (ms : Nat) : Guest × Reply :=
  ({ guest with wait := .event }, .posted (.event ms))

/-- `h_call`: the arguments are copied out of the table before anything waits. -/
def hCall (guest : Guest) (scope : Scope) (pointer length handle ms : Nat) : Guest × Reply :=
  match text scope pointer length with
  | none => (guest, .fault)
  | some capability =>
    match guest.context.json handle with
    | none => (guest, .status Status.invalid)
    | some arguments =>
      if guest.context.capabilities.any (·.permits capability arguments) then
        ({ guest with wait := .hostRpc }, .posted (.call capability arguments ms))
      else (guest, .status Status.denied)

/-- Begin a new window of log attempts once the last one is a second old. -/
def renewWindow (context : GuestContext) (clock : Clock) : GuestContext :=
  if clock.monotonic - context.logWindow ≥ 1000000000 then
    { context with logWindow := clock.monotonic, logs := 0 }
  else context

/-- Renewing the window of the log keeps the id. -/
@[simp] theorem renewWindow_id (context : GuestContext) (clock : Clock) :
    (renewWindow context clock).id = context.id := by
  unfold renewWindow
  split_ifs <;> rfl

/-- Renewing the window of the log keeps the capabilities. -/
@[simp] theorem renewWindow_capabilities (context : GuestContext) (clock : Clock) :
    (renewWindow context clock).capabilities = context.capabilities := by
  unfold renewWindow
  split_ifs <;> rfl

/-- Renewing the window of the log keeps the table. -/
@[simp] theorem renewWindow_handles (context : GuestContext) (clock : Clock) :
    (renewWindow context clock).handles = context.handles := by
  unfold renewWindow
  split_ifs <;> rfl

/-- Renewing the window of the log keeps the configuration. -/
@[simp] theorem renewWindow_config (context : GuestContext) (clock : Clock) :
    (renewWindow context clock).config = context.config := by
  unfold renewWindow
  split_ifs <;> rfl

def hLog (guest : Guest) (scope : Scope) (pointer length : Nat) : Guest × Reply :=
  if length > 1024 then (guest, .status Status.limit)
  else
    match text scope pointer length with
    | none => (guest, .fault)
    | some message =>
      let context := renewWindow guest.context scope.clock
      if context.logs ≥ 10 then ({ guest with context }, .status Status.limit)
      else
        let sent := guest.host.out.tryData context.id (logNotice context.id message)
        ({ guest with
          context := { context with logs := context.logs + 1 }
          host := { guest.host with out := sent.1 } },
          if sent.2 then .value 0 else .status Status.limit)

def hParse (guest : Guest) (scope : Scope) (pointer length : Nat) : Guest × Reply :=
  if length > maxValueBytes then (guest, .status Status.limit)
  else
    match text scope pointer length with
    | none => (guest, .fault)
    | some input =>
      match scope.fromStr input with
      | none => (guest, .status Status.invalid)
      | some value =>
        if validValue value then guest.create (.json value) else (guest, .status Status.limit)

/-- Store a copy of a value that was found, or answer `SF_INVALID`. -/
def createFound (guest : Guest) : Option Value → Guest × Reply
  | some value => guest.create (.json value)
  | none => (guest, .status Status.invalid)

def hGet (guest : Guest) (scope : Scope) (handle pointer length : Nat) : Guest × Reply :=
  match text scope pointer length with
  | none => (guest, .fault)
  | some key => guest.createFound ((guest.context.json handle).bind (Value.get key))

def hAt (guest : Guest) (handle index : Nat) : Guest × Reply :=
  guest.createFound ((guest.context.json handle).bind (Value.at? index))

def hKind (guest : Guest) (handle : Nat) : Guest × Reply :=
  (guest,
    match guest.context.json handle with
    | some .null => .value 0
    | some (.bool _) => .value 1
    | some (.number _) => .value 2
    | some (.string _) => .value 3
    | some (.array _) => .value 4
    | some (.object _) => .value 5
    | none => .status Status.invalid)

def hI64 (guest : Guest) (scope : Scope) (handle pointer : Nat) : Guest × Reply :=
  match guest.context.json handle with
  | some (.number number) =>
    match number.asI64 with
    | some value =>
      if scope.writable pointer 8 then
        (guest, .wrote 0 pointer (leBytes (value % 2 ^ 64).toNat))
      else (guest, .fault)
    | none => (guest, .status Status.invalid)
  | _ => (guest, .status Status.invalid)

def hBool (guest : Guest) (handle : Nat) : Guest × Reply :=
  (guest,
    match guest.context.json handle with
    | some (.bool value) => .value value.toNat
    | _ => .status Status.invalid)

def hStringRead (guest : Guest) (scope : Scope) (handle pointer length : Nat) : Guest × Reply :=
  match (guest.context.json handle).bind Value.asStr with
  | none => (guest, .status Status.invalid)
  | some value =>
    if length > maxValueBytes then (guest, .status Status.limit)
    else if scope.writable pointer length then
      (guest, .wrote value.utf8ByteSize pointer ((encodeUtf8 value).take length))
    else (guest, .fault)

def hEquals (guest : Guest) (scope : Scope)
    (handle keyPointer keyLength valuePointer valueLength : Nat) : Guest × Reply :=
  match text scope keyPointer keyLength, text scope valuePointer valueLength with
  | some key, some value =>
    (guest,
      match ((guest.context.json handle).bind (Value.get key)).bind Value.asStr with
      | some found => .value (decide (found = value)).toNat
      | none => .status Status.invalid)
  | _, _ => (guest, .fault)

def hObject (guest : Guest) : Guest × Reply := guest.create (.json (.object []))

def hArray (guest : Guest) : Guest × Reply := guest.create (.json (.array []))

def hNull (guest : Guest) : Guest × Reply := guest.create (.json .null)

def hString (guest : Guest) (scope : Scope) (pointer length : Nat) : Guest × Reply :=
  match text scope pointer length with
  | none => (guest, .fault)
  | some value =>
    if validValue (.string value) then guest.create (.json (.string value))
    else (guest, .status Status.limit)

def hNumber (guest : Guest) (word : Nat) : Guest × Reply :=
  guest.create (.json (.number (.int (toI64 word))))

def hBoolean (guest : Guest) (word : Nat) : Guest × Reply :=
  guest.create (.json (.bool (word ≠ 0)))

/-- The common end of `sf_json_set` and `sf_json_push`: keep the grown value if it
is within the limits. -/
def update (guest : Guest) (handle : Nat) : Option Value → Guest × Reply
  | none => (guest, .status Status.invalid)
  | some target =>
    if validValue target then (guest.replace handle target, .value 0)
    else (guest, .status Status.limit)

def hSet (guest : Guest) (scope : Scope) (handle pointer length value : Nat) : Guest × Reply :=
  match text scope pointer length with
  | none => (guest, .fault)
  | some key =>
    guest.update handle
      (match guest.context.json value, guest.context.json handle with
      | some value, some (.object members) => some (.object (Value.insertMember key value members))
      | _, _ => none)

def hPush (guest : Guest) (handle value : Nat) : Guest × Reply :=
  guest.update handle
    (match guest.context.json value, guest.context.json handle with
    | some value, some (.array items) => some (.array (items ++ [value]))
    | _, _ => none)

def hDump (guest : Guest) (handle : Nat) : Guest × Reply :=
  match guest.context.json handle with
  | some value => guest.create (.bytes (encodeUtf8 value.compact))
  | none => (guest, .status Status.invalid)

def hBytes (guest : Guest) (scope : Scope) (pointer length : Nat) : Guest × Reply :=
  if length > maxValueBytes then (guest, .status Status.limit)
  else
    match scope.memory pointer length with
    | none => (guest, .fault)
    | some bytes => guest.create (.bytes bytes)

def hLen (guest : Guest) (handle : Nat) : Guest × Reply :=
  (guest,
    match guest.context.handles.lookup handle with
    | some (.bytes bytes) => .value bytes.length
    | some (.json (.string value)) => .value value.utf8ByteSize
    | some (.json (.array items)) => .value items.length
    | some (.json (.object members)) => .value members.length
    | _ => .status Status.invalid)

def hRead (guest : Guest) (scope : Scope) (handle offset pointer length : Nat) : Guest × Reply :=
  if length > maxValueBytes then (guest, .status Status.limit)
  else
    match guest.context.handles.lookup handle with
    | some (.bytes bytes) =>
      if offset > bytes.length then (guest, .status Status.invalid)
      else
        let count := min length (bytes.length - offset)
        if scope.writable pointer count then
          (guest, .wrote count pointer ((bytes.drop offset).take count))
        else (guest, .fault)
    | _ => (guest, .status Status.invalid)

def hMemcpy (guest : Guest) (scope : Scope) (destination pointer length : Nat) : Guest × Reply :=
  if length > maxValueBytes then (guest, .fault)
  else
    match scope.memory pointer length with
    | none => (guest, .fault)
    | some bytes =>
      if scope.writable destination length then (guest, .wrote destination destination bytes)
      else (guest, .fault)

def hMemset (guest : Guest) (scope : Scope) (pointer value length : Nat) : Guest × Reply :=
  if length > maxValueBytes then (guest, .fault)
  else if scope.writable pointer length then
    (guest, .wrote pointer pointer (List.replicate length (UInt8.ofNat value)))
  else (guest, .fault)

def hMemcmp (guest : Guest) (scope : Scope) (left right length : Nat) : Guest × Reply :=
  if length > maxValueBytes then (guest, .fault)
  else
    match scope.memory left length, scope.memory right length with
    | some first, some second =>
      (guest, .status (if first < second then -1 else if first = second then 0 else 1))
    | _, _ => (guest, .fault)

/-- The names under which a program links the helpers. -/
inductive Helper where
  | sleepMs | yield | nowMonoMs | nowUnixMs | config | drop | eventNext | hostCallRaw | logRaw
  | jsonParse | jsonGetRaw | jsonAt | jsonKind | jsonI64 | jsonBool | jsonReadString
  | jsonStringEqualsRaw | jsonObject | jsonArray | jsonNull | jsonStringRaw | jsonNumber
  | jsonBoolean | jsonSetRaw | jsonPush | jsonDump | bytes | bytesLen | bytesRead
  | memcpy | memset | memcmp
deriving DecidableEq

/-- A call of a helper with its five argument registers. -/
structure HelperCall where
  helper : Helper
  a : Nat := 0
  b : Nat := 0
  c : Nat := 0
  d : Nat := 0
  e : Nat := 0
deriving DecidableEq

/-- The dispatch table `HELPERS`. -/
def invoke (guest : Guest) (scope : Scope) (call : HelperCall) : Guest × Reply :=
  let ⟨helper, a, b, c, d, e⟩ := call
  match helper with
  | .sleepMs => guest.hSleep a
  | .yield => guest.hYield
  | .nowMonoMs => guest.hMono scope
  | .nowUnixMs => guest.hUnix scope
  | .config => guest.hConfig
  | .drop => guest.hDrop a
  | .eventNext => guest.hEvent a
  | .hostCallRaw => guest.hCall scope a b c d
  | .logRaw => guest.hLog scope a b
  | .jsonParse => guest.hParse scope a b
  | .jsonGetRaw => guest.hGet scope a b c
  | .jsonAt => guest.hAt a b
  | .jsonKind => guest.hKind a
  | .jsonI64 => guest.hI64 scope a b
  | .jsonBool => guest.hBool a
  | .jsonReadString => guest.hStringRead scope a b c
  | .jsonStringEqualsRaw => guest.hEquals scope a b c d e
  | .jsonObject => guest.hObject
  | .jsonArray => guest.hArray
  | .jsonNull => guest.hNull
  | .jsonStringRaw => guest.hString scope a b
  | .jsonNumber => guest.hNumber a
  | .jsonBoolean => guest.hBoolean a
  | .jsonSetRaw => guest.hSet scope a b c d
  | .jsonPush => guest.hPush a b
  | .jsonDump => guest.hDump a
  | .bytes => guest.hBytes scope a b
  | .bytesLen => guest.hLen a
  | .bytesRead => guest.hRead scope a b c d
  | .memcpy => guest.hMemcpy scope a b c
  | .memset => guest.hMemset scope a b c
  | .memcmp => guest.hMemcmp scope a b c

end Guest

end Spinfoam
