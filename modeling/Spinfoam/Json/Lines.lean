import Spinfoam.Json.Value

/-!
# Lines

The compact serialization of a value is a single line: control characters are
escaped. In UTF-8 a byte below 128 is a character of its own, so a line stays a
line when it is encoded.
-/

namespace Spinfoam.Json

section Encoding

variable {char : Char} {byte : UInt8}

/-- A byte below 128 encodes the character of this number. -/
theorem toNat_of_mem_utf8EncodeChar (ascii : byte.toNat < 128)
    (member : byte ∈ String.utf8EncodeChar char) : char.toNat = byte.toNat := by
  have wrap (value : Nat) : (UInt8.ofNat value).toNat = value % 256 := UInt8.toNat_ofNat
  have same : char.val.toNat = char.toNat := rfl
  unfold String.utf8EncodeChar at member
  simp only [same] at member
  split_ifs at member with one two three <;>
    simp only [List.mem_cons, List.not_mem_nil, or_false] at member
  · subst member
    rw [wrap]
    omega
  · rcases member with rfl | rfl <;>
    · rw [wrap] at ascii
      omega
  · rcases member with rfl | rfl | rfl <;>
    · rw [wrap] at ascii
      omega
  · rcases member with rfl | rfl | rfl | rfl <;>
    · rw [wrap] at ascii
      omega

/-- The bytes of a text are those of its characters. -/
theorem toList_toUTF8 (text : String) :
    text.toUTF8.data.toList = text.toList.flatMap String.utf8EncodeChar := by
  have encoded : text.toUTF8 = text.toList.utf8Encode := String.utf8Encode_toList.symm
  rw [encoded, List.utf8Encode]
  simp

end Encoding

namespace Value

mutual

/-- The doubles of a value are printed without a newline. -/
def Inline : Value → Prop
  | .number (.float text) => '\n' ∉ text.toList
  | .array items => InlineItems items
  | .object members => InlineMembers members
  | .null | .bool _ | .number (.int _) | .string _ => True

def InlineItems : List Value → Prop
  | [] => True
  | item :: rest => item.Inline ∧ InlineItems rest

def InlineMembers : List (String × Value) → Prop
  | [] => True
  | (_, value) :: rest => value.Inline ∧ InlineMembers rest

end

section Newlines

/-- Escaped text has no newline. -/
theorem newline_notMem_escape (chars : List Char) : '\n' ∉ (escape chars).toList := by
  induction chars with
  | nil => simp [escape]
  | cons char rest ih =>
    rw [escape, String.toList_append, List.mem_append, not_or]
    refine ⟨?_, ih⟩
    unfold escapeChar
    split_ifs with _ _ _ _ line
    · decide
    · decide
    · decide
    · decide
    · decide
    · decide
    · decide
    · simp
    · simp
    · simpa using fun same => line same.symm

/-- A string literal has no newline. -/
theorem newline_notMem_quote (text : String) : '\n' ∉ (quote text).toList := by
  have inner := newline_notMem_escape text.toList
  simpa [quote] using inner

/-- An integer has no newline. -/
theorem newline_notMem_int (value : Int) : '\n' ∉ (toString value).toList := by
  have digits (value : Nat) : '\n' ∉ (toString value).toList := by
    intro member
    have digit : ('\n').isDigit = true := by
      rw [show toString value = Nat.repr value from rfl, Nat.toList_repr] at member
      exact Nat.isDigit_of_mem_toDigits (by decide) (by decide) member
    exact absurd digit (by decide)
  cases value with
  | ofNat value => exact digits value
  | negSucc value =>
    have text : toString (Int.negSucc value) = "-" ++ toString (value + 1) := rfl
    rw [text, String.toList_append, List.mem_append, not_or]
    exact ⟨by decide, digits (value + 1)⟩

mutual

/-- The compact serialization is one line. -/
theorem newline_notMem_compact (value : Value) (inline : value.Inline) :
    '\n' ∉ value.compact.toList := by
  cases value with
  | null => decide
  | bool value => cases value <;> decide
  | number value =>
    cases value with
    | int value => exact newline_notMem_int value
    | float text => exact inline
  | string text => exact newline_notMem_quote text
  | array items =>
    have inner := newline_notMem_compactItems items inline
    simpa [compact] using inner
  | object members =>
    have inner := newline_notMem_compactMembers members inline
    simpa [compact] using inner

theorem newline_notMem_compactItems (items : List Value) (inline : InlineItems items) :
    '\n' ∉ (compactItems items).toList := by
  match items, inline with
  | [], _ => simp [compactItems]
  | [item], inline => exact newline_notMem_compact item inline.1
  | item :: next :: rest, inline =>
    have first := newline_notMem_compact item inline.1
    have others := newline_notMem_compactItems (next :: rest) inline.2
    simp [compactItems, first, others]

theorem newline_notMem_compactMembers (members : List (String × Value))
    (inline : InlineMembers members) : '\n' ∉ (compactMembers members).toList := by
  match members, inline with
  | [], _ => simp [compactMembers]
  | [(key, value)], inline =>
    have name := newline_notMem_quote key
    have first := newline_notMem_compact value inline.1
    simp [compactMembers, name, first]
  | (key, value) :: next :: rest, inline =>
    have name := newline_notMem_quote key
    have first := newline_notMem_compact value inline.1
    have others := newline_notMem_compactMembers (next :: rest) inline.2
    simp [compactMembers, name, first, others]

end

end Newlines

end Value

end Spinfoam.Json
