import Spinfoam.Build.Diagnostics
import Spinfoam.Json.Measures
import Spinfoam.Outbox.Tasks
import Spinfoam.Serve.Session

/-!
# The result of a compilation

What `run` makes of the compiler's output, what `compile` answers with, and that
the answer fits a frame whatever the compiler has written and reported.
-/

namespace Spinfoam.Build

open Spinfoam.Json Spinfoam.Outbox Spinfoam.Semantics Spinfoam.Std
open String (utf8Len utf8Len_toList)

/-- The characters of the standard base64 alphabet, and the padding. -/
def IsBase64 (char : Char) : Prop :=
  65 ≤ char.toNat ∧ char.toNat ≤ 90 ∨ 97 ≤ char.toNat ∧ char.toNat ≤ 122 ∨
    48 ≤ char.toNat ∧ char.toNat ≤ 57 ∨ char = '+' ∨ char = '/' ∨ char = '='

instance (char : Char) : Decidable (IsBase64 char) := inferInstanceAs (Decidable (_ ∨ _))

/-- What `compile` uses of the `base64` and `sha2` crates. -/
structure Encoders where
  /-- `STANDARD.encode`. -/
  encode : List UInt8 → String
  /-- Every three bytes, and those that are left over, make four characters. -/
  encodedSize : ∀ bytes, (encode bytes).utf8ByteSize = 4 * ((bytes.length + 2) / 3)
  encodedText : ∀ bytes, ∀ char ∈ (encode bytes).toList, IsBase64 char
  /-- `Sha256::digest`. -/
  digest : List UInt8 → List UInt8
  digestSize : ∀ bytes, (digest bytes).length = 32

/-- The two digits of a byte. -/
def hexDigits (byte : UInt8) : List Char :=
  [Nat.digitChar (byte.toNat / 16), Nat.digitChar (byte.toNat % 16)]

/-- `sha256`. -/
def Encoders.sha256 (encoders : Encoders) (bytes : List UInt8) : String :=
  String.ofList ((encoders.digest bytes).flatMap hexDigits)

/-- `Output`. -/
structure Output where
  elf : List UInt8
  diagnostics : String
  truncated : Bool

/-- How the operation of `run` ends. -/
inductive Ended where
  | notLoaded (error : String)
  | failed (error : String)
  | exited (code : Nat)
  | cancelled
  | timedOut

/-- The first bytes of an ELF file. -/
def elfMagic : List UInt8 := [0x7F, 0x45, 0x4C, 0x46]

/-- The end of `run`. -/
def Context.finish (context : Context) : Ended → Except String Output
  | .cancelled => .error "build cancelled"
  | .timedOut => .error "compiler exceeded 15 second deadline"
  | .notLoaded error => .error error
  | .failed error => .error (if context.error = "" then error else context.error)
  | .exited code =>
    if context.error ≠ "" then .error context.error
    else if code = 1 ∧ elfMagic <+: context.output then
      .ok ⟨context.output, context.diagnostics, context.truncated⟩
    else
      .error ("compiler failed (0x" ++ String.ofList (Nat.toDigits 16 code) ++ ")")

/-- The end of `Builds::compile`. The fingerprint is the hash of the toolchain. -/
def compileResult (encoders : Encoders) (toolchain : List UInt8) (cancelled : Bool)
    (output : Except String Output) : Value :=
  if cancelled then .object [("result", .null), ("state", .string "cancelled")]
  else
    match output with
    | .ok output =>
      .object [
        ("result", .object [
          ("diagnostics", .string output.diagnostics),
          ("diagnostics_truncated", .bool output.truncated),
          ("elf", .string (encoders.encode output.elf)),
          ("sdk_version", .number (.int 1)),
          ("sha256", .string (encoders.sha256 output.elf)),
          ("toolchain", .string (encoders.sha256 toolchain))]),
        ("state", .string "succeeded")]
    | .error error =>
      .object [
        ("result", .object [
          ("error", .string (truncate error (16 * 1024))), ("kind", .string "BUILD_FAILED")]),
        ("state", .string "failed")]

section Sizes

/-- Characters that are not escaped take their own bytes. -/
theorem utf8ByteSize_quote_plain {text : String}
    (plain : ∀ char ∈ text.toList, Value.escapeChar char = String.singleton char) :
    (Value.quote text).utf8ByteSize = text.utf8ByteSize + 2 := by
  have inner : ∀ chars : List Char,
      (∀ char ∈ chars, Value.escapeChar char = String.singleton char) →
        (Value.escape chars).utf8ByteSize = utf8Len chars := by
    intro chars
    induction chars with
    | nil => intro _; rfl
    | cons char rest ih =>
      intro each
      have later := ih fun other member => each other (List.mem_cons_of_mem _ member)
      rw [Value.escape, String.utf8ByteSize_append, each char List.mem_cons_self,
        String.utf8ByteSize_singleton, later, String.utf8Len_cons, Nat.add_comm]
  have mark : "\"".utf8ByteSize = 1 := by decide
  rw [Value.quote, String.utf8ByteSize_append, String.utf8ByteSize_append, mark,
    inner _ plain, utf8Len_toList]
  omega

theorem escapeChar_plain {char : Char} (printable : 32 ≤ char.toNat) (quote : char ≠ '\x22')
    (backslash : char ≠ '\x5c') : Value.escapeChar char = String.singleton char := by
  have control : ∀ other : Char, other.toNat < 32 → char ≠ other := by
    rintro other low rfl
    omega
  rw [Value.escapeChar, if_neg quote, if_neg backslash, if_neg (control _ (by decide)),
    if_neg (control _ (by decide)), if_neg (control _ (by decide)), if_neg (control _ (by decide)),
    if_neg (control _ (by decide)), if_neg (by omega), if_neg (by omega)]

theorem printable_of_isBase64 {char : Char} (code : IsBase64 char) :
    32 ≤ char.toNat ∧ char ≠ '\x22' ∧ char ≠ '\x5c' := by
  have numbers : '\x22'.toNat = 34 ∧ '\x5c'.toNat = 92 := by decide
  rcases code with upper | lower | digit | rfl | rfl | rfl
  · refine ⟨by omega, ?_, ?_⟩ <;> rintro rfl <;> omega
  · refine ⟨by omega, ?_, ?_⟩ <;> rintro rfl <;> omega
  · refine ⟨by omega, ?_, ?_⟩ <;> rintro rfl <;> omega
  all_goals decide

variable (encoders : Encoders) (bytes : List UInt8)

theorem utf8ByteSize_quote_encode :
    (Value.quote (encoders.encode bytes)).utf8ByteSize = 4 * ((bytes.length + 2) / 3) + 2 := by
  rw [utf8ByteSize_quote_plain, encoders.encodedSize]
  intro char member
  obtain ⟨printable, quote, backslash⟩ :=
    printable_of_isBase64 (encoders.encodedText bytes char member)
  exact escapeChar_plain printable quote backslash

/-- A hash is printed in 64 digits. -/
theorem utf8ByteSize_sha256 : (encoders.sha256 bytes).utf8ByteSize = 64 := by
  have digit : ∀ index < 16, (Nat.digitChar index).utf8Size = 1 := by decide
  have digits : ∀ bytes : List UInt8, utf8Len (bytes.flatMap hexDigits) = 2 * bytes.length := by
    intro bytes
    induction bytes with
    | nil => rfl
    | cons first rest ih =>
      have high := digit (first.toNat / 16) (by have := first.toNat_lt; omega)
      have low := digit (first.toNat % 16) (by omega)
      rw [List.flatMap_cons, String.utf8Len_append, ih, hexDigits, String.utf8Len_cons,
        String.utf8Len_cons, String.utf8Len_nil, high, low, List.length_cons]
      omega
  rw [Encoders.sha256, String.utf8ByteSize_ofList, digits, encoders.digestSize]

end Sizes

section Runs

variable {sdk : String} {request : Request} {compilation : Compilation}
  {history : List (Transition Compilation Action Exchange)}

/-- A call adds to the output what there is room for. -/
theorem invoke_output (context : Context) (reach : Reach) (call : Call) :
    ∃ bytes, (context.invoke reach call).1.output = context.output ++ bytes ∧
      bytes.length ≤ maxOutput - context.output.length := by
  have none : context.output = context.output ++ [] := (List.append_nil _).symm
  cases call with
  | write pointer length =>
    simp only [Context.invoke, Context.write]
    split
    · exact ⟨[], none, Nat.zero_le _⟩
    · rename_i bytes read
      split_ifs with long
      · exact ⟨[], none, Nat.zero_le _⟩
      · exact ⟨bytes, rfl, by rw [reach.sized read]; omega⟩
  | openFile pointer length flags =>
    obtain ⟨answer, served, -⟩ | ⟨path, name, -, -, -, -, -, served⟩ :=
      openFile_spec context reach pointer length flags
    · rw [Context.invoke, served]
      exact ⟨[], none, Nat.zero_le _⟩
    · rw [Context.invoke, served]
      exact ⟨[], none, Nat.zero_le _⟩
  | closeFile fd => exact ⟨[], none, Nat.zero_le _⟩
  | inputCopy | fatal | readFile | diagnostic =>
    simp only [Context.invoke, Context.inputCopy, Context.fatal, Context.readFile,
      Context.diagnostic]
    repeat' split
    all_goals exact ⟨[], none, Nat.zero_le _⟩

/-- The output stays within its limit. -/
theorem output_of_execution (execution : (machine sdk request).Execution history compilation) :
    compilation.context.output.length ≤ maxOutput := by
  refine execution.invariant (fun compilation => compilation.context.output.length ≤ maxOutput)
    ?_ ?_
  · rintro compilation rfl
    exact Nat.zero_le _
  · intro compilation action next events bounded taken
    obtain ⟨bytes, written, room⟩ :=
      invoke_output compilation.context action.reach action.call
    rw [(step_eq_some taken).2.1, written, List.length_append]
    omega

/-- What `run` returns is within the limits of the context. -/
theorem finish_eq_ok {context : Context} {ended : Ended} {output : Output}
    (finished : context.finish ended = .ok output) :
    output.elf = context.output ∧ output.diagnostics = context.diagnostics := by
  cases ended with
  | exited code =>
    simp only [Context.finish] at finished
    split_ifs at finished
    cases finished
    exact ⟨rfl, rfl⟩
  | notLoaded | failed | cancelled | timedOut => cases finished

/-- The answer to a compilation is small enough to be sent under a short id. -/
theorem size_compileResult (encoders : Encoders) (toolchain : List UInt8) (cancelled : Bool)
    {output : Except String Output}
    (bounded : ∀ result, output = .ok result → result.elf.length ≤ maxOutput ∧
      result.diagnostics.utf8ByteSize ≤ maxDiagnostics) :
    (compileResult encoders toolchain cancelled output).size ≤ 190000 := by
  have names : (Value.quote "result").utf8ByteSize = 8 ∧ (Value.quote "state").utf8ByteSize = 7 ∧
      (Value.quote "cancelled").utf8ByteSize = 11 ∧ (Value.quote "succeeded").utf8ByteSize = 11 ∧
      (Value.quote "failed").utf8ByteSize = 8 ∧ (Value.quote "diagnostics").utf8ByteSize = 13 ∧
      (Value.quote "diagnostics_truncated").utf8ByteSize = 23 ∧
      (Value.quote "elf").utf8ByteSize = 5 ∧ (Value.quote "sdk_version").utf8ByteSize = 13 ∧
      (Value.quote "sha256").utf8ByteSize = 8 ∧ (Value.quote "toolchain").utf8ByteSize = 11 ∧
      (Value.quote "error").utf8ByteSize = 7 ∧ (Value.quote "kind").utf8ByteSize = 6 ∧
      (Value.quote "BUILD_FAILED").utf8ByteSize = 14 := by decide
  have literal : ∀ text, (Value.string text).size = (Value.quote text).utf8ByteSize := fun _ => rfl
  have flag : ∀ truth, (Value.bool truth).size ≤ 5 := by decide
  have one : (Value.number (.int 1)).size = 1 := by decide
  have nothing : Value.null.size = 4 := by decide
  unfold compileResult
  split_ifs
  · simp [Value.size_object, literal, nothing, names]
  · cases output with
    | error error =>
      have text := Value.utf8ByteSize_quote_le (truncate error (16 * 1024))
      have short := utf8Len_takeBytes_le error.toList (16 * 1024)
      rw [← toList_truncate, utf8Len_toList] at short
      simp only [Value.size_object, literal, names, List.map_cons, List.map_nil, List.sum_cons,
        List.sum_nil]
      omega
    | ok result =>
      obtain ⟨elf, diagnostics⟩ := bounded result rfl
      have code := utf8ByteSize_quote_encode encoders result.elf
      have text := Value.utf8ByteSize_quote_le result.diagnostics
      have hash := Value.utf8ByteSize_quote_le (encoders.sha256 result.elf)
      have print := Value.utf8ByteSize_quote_le (encoders.sha256 toolchain)
      have cut := flag result.truncated
      rw [utf8ByteSize_sha256] at hash print
      simp only [Value.size_object, literal, names, one, code, List.map_cons, List.map_nil,
        List.sum_cons, List.sum_nil]
      simp only [maxOutput, maxDiagnostics] at elf diagnostics
      omega

/-- Whatever the compiler writes and reports, its output is bounded, and the
response with the result fits a frame, so that no other frame is sent for it. -/
theorem finished_build_delivered (encoders : Encoders) (toolchain : List UInt8)
    (execution : (machine sdk request).Execution history compilation) (ended : Ended)
    (cancelled : Bool) {id : String} (short : id.utf8ByteSize ≤ 128) :
    compilation.context.output.length ≤ maxOutput ∧
    (Serve.response (.string id) (.ok (compileResult encoders toolchain cancelled
      (compilation.context.finish ended)))).size < maxFrame ∧
    ∃ frame, encodeControl (Serve.response (.string id) (.ok (compileResult encoders toolchain
        cancelled (compilation.context.finish ended)))) = some frame ∧
      frame.value = Serve.response (.string id) (.ok (compileResult encoders toolchain cancelled
        (compilation.context.finish ended))) := by
  have output := output_of_execution execution
  have diagnostics := (reported_of_execution execution).bounded
  have bounded : ∀ result, compilation.context.finish ended = .ok result →
      result.elf.length ≤ maxOutput ∧ result.diagnostics.utf8ByteSize ≤ maxDiagnostics := by
    intro result finished
    obtain ⟨elf, text⟩ := finish_eq_ok finished
    rw [elf, text]
    exact ⟨output, diagnostics⟩
  have answer := size_compileResult encoders toolchain cancelled bounded
  generalize compileResult encoders toolchain cancelled (compilation.context.finish ended) = result
    at answer
  have literal : (Value.string id).size = (Value.quote id).utf8ByteSize := rfl
  have name := Value.utf8ByteSize_quote_le id
  have names : (Value.quote "id").utf8ByteSize = 4 ∧ (Value.quote "jsonrpc").utf8ByteSize = 9 ∧
      (Value.quote "result").utf8ByteSize = 8 ∧ (Value.string "2.0").size = 5 := by decide
  have size : (Serve.response (.string id) (.ok result)).size < maxFrame := by
    simp only [Serve.response, Value.size_object, literal, names, List.map_cons, List.map_nil,
      List.sum_cons, List.sum_nil, maxFrame]
    omega
  refine ⟨output, size, ⟨_, size⟩, ?_, rfl⟩
  have encoded : encode (Serve.response (.string id) (.ok result)) = some ⟨_, size⟩ :=
    encode_eq_some.mpr rfl
  rw [encodeControl, encoded]

/-- The character of six bits. -/
def base64Digit (bits : Nat) : Char :=
  if bits < 26 then Char.ofNat (65 + bits)
  else if bits < 52 then Char.ofNat (97 + (bits - 26))
  else if bits < 62 then Char.ofNat (48 + (bits - 52))
  else if bits = 62 then '+'
  else '/'

/-- The characters of three bytes at a time, and of what is left over. -/
def base64Groups : List UInt8 → List Char
  | [] => []
  | [first] => [base64Digit (first.toNat / 4), base64Digit (first.toNat % 4 * 16), '=', '=']
  | [first, second] =>
    [base64Digit (first.toNat / 4), base64Digit (first.toNat % 4 * 16 + second.toNat / 16),
      base64Digit (second.toNat % 16 * 4), '=']
  | first :: second :: third :: rest =>
    [base64Digit (first.toNat / 4), base64Digit (first.toNat % 4 * 16 + second.toNat / 16),
      base64Digit (second.toNat % 16 * 4 + third.toNat / 64), base64Digit (third.toNat % 64)] ++
      base64Groups rest

theorem base64Digit_spec (bits : Nat) :
    IsBase64 (base64Digit bits) ∧ (base64Digit bits).utf8Size = 1 := by
  have each : ∀ bits < 62, IsBase64 (base64Digit bits) ∧ (base64Digit bits).utf8Size = 1 := by
    decide
  by_cases small : bits < 62
  · exact each bits small
  · rw [base64Digit, if_neg (by omega), if_neg (by omega), if_neg small]
    split_ifs <;> decide

theorem utf8Len_base64Groups (bytes : List UInt8) :
    utf8Len (base64Groups bytes) = 4 * ((bytes.length + 2) / 3) := by
  have padding : '='.utf8Size = 1 := by decide
  induction bytes using base64Groups.induct with
  | case1 => rfl
  | case2 first => simp [base64Groups, base64Digit_spec, padding]
  | case3 first second => simp [base64Groups, base64Digit_spec, padding]
  | case4 first second third rest ih =>
    simp only [base64Groups, String.utf8Len_append, ih, String.utf8Len_cons, String.utf8Len_nil,
      base64Digit_spec, List.length_cons]
    omega

theorem isBase64_of_mem {bytes : List UInt8} {char : Char} (member : char ∈ base64Groups bytes) :
    IsBase64 char := by
  have padding : IsBase64 '=' := by decide
  induction bytes using base64Groups.induct with
  | case1 => cases member
  | case2 | case3 =>
    simp only [base64Groups, List.mem_cons, List.not_mem_nil, or_false] at member
    rcases member with rfl | rfl | rfl | rfl
    all_goals first | exact padding | exact (base64Digit_spec _).1
  | case4 first second third rest ih =>
    rcases List.mem_append.mp member with group | later
    · simp only [List.mem_cons, List.not_mem_nil, or_false] at group
      rcases group with rfl | rfl | rfl | rfl
      all_goals exact (base64Digit_spec _).1
    · exact ih later

/-- The standard encoding, with the hashes of an empty file and of the shortest output. -/
def sampleEncoders : Encoders where
  encode bytes := String.ofList (base64Groups bytes)
  encodedSize bytes := by rw [String.utf8ByteSize_ofList, utf8Len_base64Groups]
  encodedText bytes char member := isBase64_of_mem (by simpa using member)
  digest bytes :=
    if bytes = elfMagic then
      [59, 219, 180, 254, 131, 151, 205, 43, 132, 36, 48, 179, 156, 207, 240, 26, 134, 99, 199, 81,
        148, 94, 245, 233, 160, 158, 38, 127, 184, 177, 211, 89]
    else
      [227, 176, 196, 66, 152, 252, 28, 20, 154, 251, 244, 200, 153, 111, 185, 36, 39, 174, 65, 228,
        100, 155, 147, 76, 164, 149, 153, 27, 120, 82, 184, 85]
  digestSize bytes := by split_ifs <;> rfl

set_option maxRecDepth 10000 in
/-- A compilation that writes the shortest output and ends well. -/
theorem finished_build_delivered_elf :
    ∃ history compilation, (machine "" single).run fresh [⟨.holding elfMagic, .write 0 4⟩] =
        some (history, compilation) ∧
      compilation.context.finish (.exited 1) = .ok ⟨elfMagic, "", false⟩ ∧
      sampleEncoders.encode elfMagic = "f0VMRg==" ∧
      (Serve.response (.string "a") (.ok (compileResult sampleEncoders [] false
        (compilation.context.finish (.exited 1))))).size < maxFrame := by
  obtain ⟨history, compilation, ran, finished⟩ : ∃ history compilation,
      (machine "" single).run fresh [⟨.holding elfMagic, .write 0 4⟩] =
        some (history, compilation) ∧
      compilation.context.finish (.exited 1) = .ok ⟨elfMagic, "", false⟩ := ⟨_, _, rfl, rfl⟩
  have execution : (machine "" single).Execution history compilation :=
    Machine.execution_of_run rfl ran
  exact ⟨history, compilation, ran, finished, by decide,
    (finished_build_delivered sampleEncoders [] execution (.exited 1) false (by decide)).2.1⟩

end Runs

end Spinfoam.Build
