import Spinfoam.Guest.Helpers
import Spinfoam.Json.Measures

/-!
# Dumping and parsing

A guest takes a value out of its table as text, in pieces as long as it likes,
and gets it back from the parser.
-/

namespace Spinfoam

open Spinfoam.Json Spinfoam.Std

namespace Guest

/-- A call of `sf_bytes_read`, but for its offset. -/
structure Reading where
  scope : Scope
  pointer : Nat
  capacity : Nat

/-- The guest has room for what it asks for. -/
structure Reading.Roomy (reading : Reading) : Prop where
  positive : 1 ≤ reading.capacity
  bounded : reading.capacity ≤ maxValueBytes
  writable : ∀ count ≤ reading.capacity, reading.scope.writable reading.pointer count = true

/-- The answer to the next read. -/
def readNext (guest : Guest) (handle offset : Nat) (reading : Reading) : Guest × Reply :=
  guest.hRead reading.scope handle offset reading.pointer reading.capacity

/-- The loop of a guest that reads from the front and goes on behind what it has
got: where it is after a number of reads, and what they have brought. -/
def readLoop (guest : Guest) (handle : Nat) (readings : Nat → Reading) : Nat → Nat × List UInt8
  | 0 => (0, [])
  | count + 1 =>
    let (offset, brought) := guest.readLoop handle readings count
    match (guest.readNext handle offset (readings count)).2 with
    | .wrote word _ bytes => (offset + word, brought ++ bytes)
    | _ => (offset, brought)

section Reads

variable {guest : Guest} {handle offset : Nat} {bytes : List UInt8} {reading : Reading}

/-- A read inside the bytes. -/
theorem readNext_eq (stored : guest.context.handles.lookup handle = some (.bytes bytes))
    (inside : offset ≤ bytes.length) (roomy : reading.Roomy) :
    guest.readNext handle offset reading =
      (guest, .wrote (min reading.capacity (bytes.length - offset)) reading.pointer
        ((bytes.drop offset).take reading.capacity)) := by
  have rest : (bytes.drop offset).take (min reading.capacity (bytes.length - offset)) =
      (bytes.drop offset).take reading.capacity := by
    rw [← List.length_drop, List.take_eq_take_iff]
    omega
  rw [readNext, hRead, if_neg (not_lt.mpr roomy.bounded), stored]
  simp only [not_lt.mpr inside, roomy.writable _ (min_le_left _ _), if_true, if_false, rest]

/-- A read behind the bytes. -/
theorem readNext_beyond (stored : guest.context.handles.lookup handle = some (.bytes bytes))
    (beyond : bytes.length < offset) (bounded : reading.capacity ≤ maxValueBytes) :
    guest.readNext handle offset reading = (guest, .status Status.invalid) := by
  rw [readNext, hRead, if_neg (not_lt.mpr bounded), stored]
  simp only [gt_iff_lt, beyond, if_true]

variable {readings : Nat → Reading}

/-- The loop has read all up to where it is, and every read moves it on until it
is at the end. -/
theorem readLoop_spec (stored : guest.context.handles.lookup handle = some (.bytes bytes))
    (roomy : ∀ index, (readings index).Roomy) (count : Nat) :
    ∃ offset, guest.readLoop handle readings count = (offset, bytes.take offset) ∧
      offset ≤ bytes.length ∧ (count ≤ offset ∨ offset = bytes.length) := by
  induction count with
  | zero => exact ⟨0, rfl, Nat.zero_le _, Or.inl (Nat.le_refl _)⟩
  | succ count ih =>
    obtain ⟨offset, reached, inside, moved⟩ := ih
    have answered := readNext_eq stored inside (roomy count)
    have positive := (roomy count).positive
    refine ⟨offset + min (readings count).capacity (bytes.length - offset), ?_, by omega, by omega⟩
    rw [readLoop, reached]
    simp only [answered, Prod.mk.injEq, true_and]
    have whole : (bytes.drop offset).take (readings count).capacity =
        (bytes.drop offset).take (min (readings count).capacity (bytes.length - offset)) := by
      rw [← List.length_drop, List.take_eq_take_iff]
      omega
    rw [List.take_add, whole]

/-- Some read finds nothing left, and the first to do so has all behind it. -/
theorem readLoop_complete (stored : guest.context.handles.lookup handle = some (.bytes bytes))
    (roomy : ∀ index, (readings index).Roomy) :
    ∃ count, guest.readLoop handle readings count = (bytes.length, bytes) := by
  obtain ⟨offset, reached, inside, moved⟩ := readLoop_spec stored roomy bytes.length
  obtain rfl : offset = bytes.length := by omega
  exact ⟨bytes.length, by rw [reached, List.take_length]⟩

end Reads

/-- The guest with one more handle. -/
def stored (guest : Guest) (entry : Handle) : Guest :=
  { guest with
    context := { guest.context with
      handles := guest.context.handles.insert guest.nextHandle entry }
    nextHandle := guest.nextHandle + 1 }

theorem create_of_room {guest : Guest} (room : ¬ guest.Full) (entry : Handle) :
    guest.create entry = (guest.stored entry, .value guest.nextHandle) := by
  rw [create, insert, if_neg room]
  rfl

theorem lookup_stored (guest : Guest) (entry : Handle) :
    (guest.stored entry).context.handles.lookup guest.nextHandle = some entry :=
  AList.lookup_insert _

/-- A text within the limits of the helpers comes back from the parser. -/
theorem hParse_of_room {guest : Guest} (room : ¬ guest.Full) {scope : Scope} {pointer : Nat}
    {value : Value} (valid : validValue value = true)
    (memory : scope.memory pointer (encodeUtf8 value.compact).length =
      some (encodeUtf8 value.compact))
    (inverse : scope.fromStr value.compact = some value) :
    guest.hParse scope pointer (encodeUtf8 value.compact).length =
      (guest.stored (.json value), .value guest.nextHandle) := by
  have size := size_le_of_validValue valid
  have short : ¬ (encodeUtf8 value.compact).length > maxValueBytes := by
    rw [length_encodeUtf8]
    exact not_lt.mpr size
  rw [hParse, if_neg short, text, if_neg short, memory, Option.bind_some, decodeUtf8_encodeUtf8]
  simp only [inverse, valid, if_true]
  exact create_of_room room _

/-- A guest with room for two handles dumps a value within the limits, reads the
encoding from the front in pieces of any sizes until a read finds nothing left,
and gets the value back from the parser. -/
theorem dump_read_parse (guest : Guest) {handle : Nat} {value : Value}
    (held : guest.context.json handle = some value) (valid : validValue value = true)
    (slots : guest.context.handles.entries.length + 2 ≤ maxHandles)
    (numbers : guest.nextHandle + 2 ≤ 2 ^ 63 - 1) :
    ∃ dumped encoding, encoding = encodeUtf8 value.compact ∧
      guest.hDump handle = (dumped, .value guest.nextHandle) ∧
      (∀ readings : Nat → Reading, (∀ index, (readings index).Roomy) →
        (∀ index, ∃ offset, offset ≤ encoding.length ∧
          dumped.readLoop guest.nextHandle readings index = (offset, encoding.take offset) ∧
          dumped.readNext guest.nextHandle offset (readings index) =
            (dumped, .wrote (min (readings index).capacity (encoding.length - offset))
              (readings index).pointer ((encoding.drop offset).take (readings index).capacity)) ∧
          (min (readings index).capacity (encoding.length - offset) = 0 →
            encoding.take offset = encoding)) ∧
        ∃ index, dumped.readLoop guest.nextHandle readings index = (encoding.length, encoding) ∧
          (dumped.readNext guest.nextHandle encoding.length (readings index)).2 =
            .wrote 0 (readings index).pointer []) ∧
      (∀ offset reading, reading.capacity ≤ maxValueBytes → encoding.length < offset →
        dumped.readNext guest.nextHandle offset reading = (dumped, .status Status.invalid)) ∧
      ∀ scope pointer, scope.memory pointer encoding.length = some encoding →
        scope.fromStr value.compact = some value →
        ∃ parsed, dumped.hParse scope pointer encoding.length =
            (parsed, .value (guest.nextHandle + 1)) ∧
          parsed.context.json (guest.nextHandle + 1) = some value := by
  have room : ¬ guest.Full := by
    unfold Full
    omega
  have entry : (guest.stored (.bytes (encodeUtf8 value.compact))).context.handles.lookup
      guest.nextHandle = some (.bytes (encodeUtf8 value.compact)) := lookup_stored _ _
  have still : ¬ (guest.stored (.bytes (encodeUtf8 value.compact))).Full := by
    have grown := Map.length_insert_le guest.context.handles guest.nextHandle
      (.bytes (encodeUtf8 value.compact))
    unfold Full stored
    simp only
    omega
  refine ⟨guest.stored (.bytes (encodeUtf8 value.compact)), _, rfl, ?_, ?_, ?_, ?_⟩
  · rw [hDump, held]
    exact create_of_room room _
  · intro readings roomy
    constructor
    · intro index
      obtain ⟨offset, reached, inside, -⟩ := readLoop_spec entry roomy index
      refine ⟨offset, inside, reached, readNext_eq entry inside (roomy index), ?_⟩
      intro nothing
      have positive := (roomy index).positive
      exact List.take_of_length_le (by omega)
    · obtain ⟨index, reached⟩ := readLoop_complete entry roomy
      refine ⟨index, reached, ?_⟩
      rw [readNext_eq entry (le_refl _) (roomy index)]
      simp
  · intro offset reading bounded beyond
    exact readNext_beyond entry beyond bounded
  · intro scope pointer memory inverse
    refine ⟨_, hParse_of_room still valid memory inverse, ?_⟩
    rw [GuestContext.json]
    simp only [stored, AList.lookup_insert]

/-- `{"a":[1,"b"]}` -/
def nestedValue : Value := .object [("a", .array [.number (.int 1), .string "b"])]

def nestedBytes : List UInt8 := [123, 34, 97, 34, 58, 91, 49, 44, 34, 98, 34, 93, 125]

/-- A guest that holds this value. -/
def holder : Guest where
  context := { GuestContext.new "o1" .null [] ⟨0, 0⟩ with
    handles := (∅ : Map Nat Handle).insert 1 (.json nestedValue) }
  mailbox := {}
  host := { session := "" }
  nextHandle := 2

/-- A memory that reads the encoding over and over. -/
def nestedScope : Scope where
  memory := fun _ length => some ((List.range length).map fun index =>
    nestedBytes.getD (index % 13) 0)
  writable := fun _ _ => true
  clock := ⟨0, 0⟩
  fromStr := fun text => if text = nestedValue.compact then some nestedValue else none
  sized := by
    rintro pointer length bytes read
    rw [← Option.some.inj read]
    simp

/-- The encoding comes back, read in pieces of three, and so does the value. -/
theorem dump_read_parse_nested :
    ∃ dumped parsed, holder.hDump 1 = (dumped, .value 2) ∧
      (∃ index, dumped.readLoop 2 (fun _ => ⟨nestedScope, 64, 3⟩) index = (13, nestedBytes)) ∧
      dumped.hParse nestedScope 64 13 = (parsed, .value 3) ∧
      parsed.context.json 3 = some nestedValue := by
  obtain ⟨dumped, encoding, same, dump, reads, -, parse⟩ :=
    dump_read_parse holder (show holder.context.json 1 = some nestedValue by rfl)
      (by decide +kernel) (by decide) (by decide)
  have bytes : encodeUtf8 nestedValue.compact = nestedBytes := by decide +kernel
  obtain rfl := same.trans bytes
  have roomy : Reading.Roomy ⟨nestedScope, 64, 3⟩ := ⟨by decide, by decide, fun _ _ => rfl⟩
  obtain ⟨index, reached, -⟩ := (reads (fun _ => ⟨nestedScope, 64, 3⟩) fun _ => roomy).2
  obtain ⟨parsed, answered, held⟩ := parse nestedScope 64 rfl (by simp [nestedScope])
  exact ⟨dumped, parsed, dump, ⟨index, reached⟩, answered, held⟩

end Guest

end Spinfoam
