import Spinfoam.Build.Request
import Spinfoam.Semantics.Machine

/-!
# The compiler's host

The compiler runs as a guest whose only helpers copy the name of the source,
take its output and its messages, and serve an in-memory file system. The file
system starts as the submitted files below the source directory together with
the SDK.
-/

namespace Spinfoam.Build

open Spinfoam.Guest Spinfoam.Semantics Spinfoam.Std

/-- What stands at the front of a byte string: how many bytes belong to the next
character, or to the longest start of one, and whether the character is complete. -/
def nextChunk : List UInt8 → Nat × Bool
  | [] => (0, false)
  | first :: rest =>
    let continues (index : Nat) := rest[index]?.any fun byte => 0x80 ≤ byte && byte ≤ 0xBF
    let second (low high : UInt8) := rest[0]?.any fun byte => low ≤ byte && byte ≤ high
    if first < 0x80 then (1, true)
    else if 0xC2 ≤ first ∧ first ≤ 0xDF then if continues 0 then (2, true) else (1, false)
    else if (first = 0xE0 ∧ second 0xA0 0xBF) ∨ (0xE1 ≤ first ∧ first ≤ 0xEC ∧ continues 0) ∨
        (first = 0xED ∧ second 0x80 0x9F) ∨ (0xEE ≤ first ∧ first ≤ 0xEF ∧ continues 0) then
      if continues 1 then (3, true) else (2, false)
    else if (first = 0xF0 ∧ second 0x90 0xBF) ∨ (0xF1 ≤ first ∧ first ≤ 0xF3 ∧ continues 0) ∨
        (first = 0xF4 ∧ second 0x80 0x8F) then
      if continues 1 then if continues 2 then (4, true) else (3, false) else (2, false)
    else (1, false)

/-- The character a complete chunk encodes. -/
def decodeChunk : List UInt8 → Char
  | [first] => Char.ofNat first.toNat
  | first :: rest =>
    Char.ofNat (rest.foldl (fun code byte => code * 64 + byte.toNat % 64)
      (first.toNat % 2 ^ (6 - rest.length)))
  | [] => Char.ofNat 0xFFFD

/-- The characters of a byte string, each malformed chunk replaced. There are at
most as many as bytes, which bounds the recursion. -/
def lossyChars : Nat → List UInt8 → List Char
  | 0, _ => []
  | _ + 1, [] => []
  | fuel + 1, bytes =>
    let (length, valid) := nextChunk bytes
    (if valid then decodeChunk (bytes.take length) else Char.ofNat 0xFFFD) ::
      lossyChars fuel (bytes.drop length)

/-- `String::from_utf8_lossy`. -/
def fromUtf8Lossy (bytes : List UInt8) : String :=
  String.ofList (lossyChars bytes.length bytes)

/-- `build::truncate`. -/
def truncate (text : String) (max : Nat) : String :=
  String.ofList (takeBytes text.toList (boundaryBelow text.toList (min max text.utf8ByteSize)))

example : fromUtf8Lossy [0x61, 0xE2, 0x82, 0xAC, 0xC3, 0xF0, 0x90, 0x41] =
    String.ofList ['a', '€', Char.ofNat 0xFFFD, Char.ofNat 0xFFFD, 'A'] := by decide

/-- `u64::MAX`, the compiler's -1. -/
def u64Max : Nat := 2 ^ 64 - 1

/-- `MAX_OUTPUT`. -/
def maxOutput : Nat := 64 * 1024

/-- `Context`. -/
structure Context where
  input : List UInt8
  files : Map String (List UInt8)
  /-- `open`: each descriptor's file and how much of it has been read. -/
  opened : Map Nat (String × Nat)
  next : Nat
  output : List UInt8
  error : String
  diagnostics : String
  truncated : Bool

/-- The compiler's memory, as its helpers may reach it. -/
structure Reach where
  /-- `user_memory`. -/
  memory : Nat → Nat → Option (List UInt8)
  /-- `user_memory_mut`. -/
  writable : Nat → Nat → Bool
  sized : ∀ {pointer length bytes}, memory pointer length = some bytes → bytes.length = length

inductive Call where
  | inputCopy (pointer length : Nat)
  | write (pointer length : Nat)
  | fatal (pointer length : Nat)
  | openFile (pointer length flags : Nat)
  | readFile (fd pointer length : Nat)
  | closeFile (fd : Nat)
  | diagnostic (pointer length : Nat)
deriving DecidableEq

inductive Answer where
  | value (word : Nat)
  /-- The helper wrote to the compiler's memory. -/
  | wrote (word address : Nat) (bytes : List UInt8)
  /-- The helper fails the program. -/
  | fault
  /-- The host itself would abort. -/
  | panicked
deriving DecidableEq

/-- The program goes on after this answer. -/
def Answer.continues : Answer → Bool
  | .value _ | .wrote _ _ _ => true
  | .fault | .panicked => false

/-- The bindings of the submitted files, each below the source directory. -/
def sources (files : Map String String) : List (String × List UInt8) :=
  files.entries.map fun file => ("/src/" ++ file.1, encodeUtf8 file.2)

/-- The map `run` builds: every submitted file, and then the SDK. -/
def fileTree (sdk : String) (files : Map String String) : Map String (List UInt8) :=
  (Map.insertAll ∅ (sources files)).insert "/src/spinfoam.h" (encodeUtf8 sdk)

namespace Context

/-- The context `run` begins with. -/
def new (sdk : String) (files : Map String String) (entry : String) : Context where
  input := encodeUtf8 ("/src/" ++ entry) ++ [0]
  files := fileTree sdk files
  opened := ∅
  next := 0
  output := []
  error := ""
  diagnostics := ""
  truncated := false

def inputCopy (context : Context) (reach : Reach) (pointer length : Nat) : Context × Answer :=
  if !reach.writable pointer length ∨ length ≠ context.input.length then (context, .fault)
  else (context, .wrote length pointer context.input)

def write (context : Context) (reach : Reach) (pointer length : Nat) : Context × Answer :=
  match reach.memory pointer length with
  | none => (context, .fault)
  | some bytes =>
    if length > maxOutput - context.output.length then
      ({ context with error := "compiler output exceeds 64 KiB" }, .fault)
    else ({ context with output := context.output ++ bytes }, .value length)

def fatal (context : Context) (reach : Reach) (pointer length : Nat) : Context × Answer :=
  match reach.memory pointer (min length 4096) with
  | none => (context, .fault)
  | some bytes => ({ context with error := fromUtf8Lossy bytes }, .fault)

def diagnostic (context : Context) (reach : Reach) (pointer length : Nat) : Context × Answer :=
  match reach.memory pointer (min length (16 * 1024)) with
  | none => (context, .fault)
  | some bytes =>
    let message := fromUtf8Lossy bytes ++ "\n"
    let remaining := 16 * 1024 - context.diagnostics.utf8ByteSize
    ({ context with
      truncated := context.truncated || decide (length > 16 * 1024) ||
        decide (message.utf8ByteSize > remaining)
      diagnostics := context.diagnostics ++ truncate message remaining },
      .value length)

/-- `open`. -/
def openFile (context : Context) (reach : Reach) (pointer length flags : Nat) : Context × Answer :=
  if length > 256 ∨ flags ≠ 0 then (context, .value u64Max)
  else
    match (reach.memory pointer length).bind decodeUtf8 with
    | none => (context, .fault)
    | some path =>
      match virtualPath path with
      | none => (context, .value u64Max)
      | some name =>
        if name ∉ context.files ∨ context.opened.entries.length ≥ 64 then
          (context, .value u64Max)
        -- The descriptor has to fit an `i32`.
        else if context.next + 1 ≤ 2 ^ 31 - 1 - 2 then
          ({ context with
            next := context.next + 1
            opened := context.opened.insert (context.next + 1 + 2) (name, 0) },
            .value (context.next + 1 + 2))
        else (context, .fault)

/-- `read`. -/
def readFile (context : Context) (reach : Reach) (fd pointer length : Nat) : Context × Answer :=
  if !reach.writable pointer length then (context, .fault)
  else
    match context.opened.lookup fd with
    | none => (context, .value u64Max)
    | some (name, offset) =>
      match context.files.lookup name with
      | none => (context, .panicked)
      | some bytes =>
        if bytes.length < offset then (context, .panicked)
        else
          let count := min length (bytes.length - offset)
          ({ context with opened := context.opened.insert fd (name, offset + count) },
            .wrote count pointer ((bytes.drop offset).take count))

/-- `close`. -/
def closeFile (context : Context) (fd : Nat) : Context × Answer :=
  ({ context with opened := context.opened.erase fd }, .value 0)

/-- The table of helpers. -/
def invoke (context : Context) (reach : Reach) : Call → Context × Answer
  | .inputCopy pointer length => context.inputCopy reach pointer length
  | .write pointer length => context.write reach pointer length
  | .fatal pointer length => context.fatal reach pointer length
  | .openFile pointer length flags => context.openFile reach pointer length flags
  | .readFile fd pointer length => context.readFile reach fd pointer length
  | .closeFile fd => context.closeFile fd
  | .diagnostic pointer length => context.diagnostic reach pointer length

end Context

/-- The compiler between two of its calls. -/
structure Compilation where
  context : Context
  /-- No call has failed the program. -/
  running : Bool

structure Action where
  reach : Reach
  call : Call

/-- A call and its answer. -/
structure Exchange where
  call : Call
  answer : Answer
deriving DecidableEq

def step (compilation : Compilation) (action : Action) : Option (Compilation × List Exchange) :=
  if compilation.running then
    let (context, answer) := compilation.context.invoke action.reach action.call
    some (⟨context, answer.continues⟩, [⟨action.call, answer⟩])
  else none

/-- The calls of one compilation. -/
def machine (sdk : String) (request : Request) : Machine Compilation Action Exchange where
  Initial compilation :=
    compilation = ⟨Context.new sdk request.files request.entry, true⟩
  step := step

end Spinfoam.Build
