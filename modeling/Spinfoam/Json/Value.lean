import Mathlib

/-!
# JSON values

`Value` is `serde_json::Value` as this program builds it: object members stand
in the key order of the underlying `BTreeMap`, integers are kept apart from
doubles, and a double is kept as the text `serde_json` prints for it.

`Value.compact` is the compact serialization. Every size limit of the program
is a limit on the number of UTF-8 bytes of that text.
-/

namespace Spinfoam.Json

/-- A JSON number. -/
inductive Number where
  | int (value : Int)
  | float (text : String)
deriving DecidableEq, Repr

namespace Number

def text : Number → String
  | .int value => toString value
  | .float text => text

/-- Equality of numbers: doubles compare by value, so the two zeros agree. -/
def same : Number → Number → Bool
  | .int left, .int right => left == right
  | .float left, .float right =>
    left == right || (["0.0", "-0.0"].contains left && ["0.0", "-0.0"].contains right)
  | _, _ => false

/-- `Number::as_i64`. -/
def asI64 : Number → Option Int
  | .int value => if -2 ^ 63 ≤ value ∧ value < 2 ^ 63 then some value else none
  | .float _ => none

@[simp] theorem same_refl (number : Number) : number.same number = true := by
  cases number <;> simp [same]

end Number

inductive Value where
  | null
  | bool (value : Bool)
  | number (value : Number)
  | string (value : String)
  | array (items : List Value)
  | object (members : List (String × Value))
deriving Repr, Inhabited

namespace Value

mutual

/-- Decide equality of values. -/
def decEq : (left right : Value) → Decidable (left = right)
  | .null, .null => isTrue rfl
  | .bool left, .bool right => decidable_of_iff (left = right) (by simp)
  | .number left, .number right => decidable_of_iff (left = right) (by simp)
  | .string left, .string right => decidable_of_iff (left = right) (by simp)
  | .array left, .array right =>
    match decEqItems left right with
    | isTrue same => isTrue (by rw [same])
    | isFalse different => isFalse fun same => different (by injection same)
  | .object left, .object right =>
    match decEqMembers left right with
    | isTrue same => isTrue (by rw [same])
    | isFalse different => isFalse fun same => different (by injection same)
  | .null, .bool _ | .null, .number _ | .null, .string _ | .null, .array _ | .null, .object _
  | .bool _, .null | .bool _, .number _ | .bool _, .string _ | .bool _, .array _
  | .bool _, .object _ | .number _, .null | .number _, .bool _ | .number _, .string _
  | .number _, .array _ | .number _, .object _ | .string _, .null | .string _, .bool _
  | .string _, .number _ | .string _, .array _ | .string _, .object _ | .array _, .null
  | .array _, .bool _ | .array _, .number _ | .array _, .string _ | .array _, .object _
  | .object _, .null | .object _, .bool _ | .object _, .number _ | .object _, .string _
  | .object _, .array _ => isFalse (by intro same; cases same)

def decEqItems : (left right : List Value) → Decidable (left = right)
  | [], [] => isTrue rfl
  | [], _ :: _ => isFalse (by intro same; cases same)
  | _ :: _, [] => isFalse (by intro same; cases same)
  | left :: lefts, right :: rights =>
    match decEq left right, decEqItems lefts rights with
    | isTrue head, isTrue tail => isTrue (by rw [head, tail])
    | isFalse different, _ => isFalse fun same => different (by injection same)
    | _, isFalse different => isFalse fun same => different (by injection same)

def decEqMembers : (left right : List (String × Value)) → Decidable (left = right)
  | [], [] => isTrue rfl
  | [], _ :: _ => isFalse (by intro same; cases same)
  | _ :: _, [] => isFalse (by intro same; cases same)
  | (key, left) :: lefts, (other, right) :: rights =>
    match (inferInstance : Decidable (key = other)), decEq left right,
      decEqMembers lefts rights with
    | isTrue keys, isTrue head, isTrue tail => isTrue (by rw [keys, head, tail])
    | isFalse different, _, _ => isFalse fun same => different (by simp_all)
    | _, isFalse different, _ => isFalse fun same => different (by simp_all)
    | _, _, isFalse different => isFalse fun same => different (by simp_all)

end

instance : DecidableEq Value := decEq

mutual

/-- `Value`'s `PartialEq`: structural, up to the two zeros of the doubles. -/
def same : Value → Value → Bool
  | .null, .null => true
  | .bool left, .bool right => left == right
  | .number left, .number right => left.same right
  | .string left, .string right => left == right
  | .array left, .array right => sameItems left right
  | .object left, .object right => sameMembers left right
  | _, _ => false

def sameItems : List Value → List Value → Bool
  | [], [] => true
  | left :: lefts, right :: rights => left.same right && sameItems lefts rights
  | _, _ => false

def sameMembers : List (String × Value) → List (String × Value) → Bool
  | [], [] => true
  | (key, left) :: lefts, (other, right) :: rights =>
    key == other && left.same right && sameMembers lefts rights
  | _, _ => false

end

/-- `Value::get` with a string index. -/
def get (key : String) : Value → Option Value
  | .object members => members.lookup key
  | _ => none

/-- `Value::get` with a number. -/
def at? (index : Nat) : Value → Option Value
  | .array items => items[index]?
  | _ => none

/-- `Value::as_str`. -/
def asStr : Value → Option String
  | .string text => some text
  | _ => none

@[simp] theorem get_object (key : String) (members : List (String × Value)) :
    (Value.object members).get key = members.lookup key := rfl

@[simp] theorem asStr_string (text : String) : (Value.string text).asStr = some text := rfl

/-- `Map::insert`: keys stay sorted, an existing key has its value replaced. -/
def insertMember (key : String) (value : Value) :
    List (String × Value) → List (String × Value)
  | [] => [(key, value)]
  | (other, current) :: rest =>
    if key < other then (key, value) :: (other, current) :: rest
    else if key = other then (key, value) :: rest
    else (other, current) :: insertMember key value rest

/-- A member is found at the front or behind it. -/
theorem lookup_cons (other key : String) (value : Value) (members : List (String × Value)) :
    ((key, value) :: members).lookup other =
      if other = key then some value else members.lookup other := by
  rw [List.lookup_cons]
  split_ifs with same
  · rw [beq_iff_eq.mpr same]
  · rw [beq_eq_false_iff_ne.mpr same]

/-- Insertion sets one member and keeps the others. -/
theorem lookup_insertMember (key : String) (value : Value) (members : List (String × Value))
    (other : String) :
    (insertMember key value members).lookup other =
      if other = key then some value else members.lookup other := by
  induction members with
  | nil => rw [insertMember, lookup_cons]
  | cons member rest ih =>
    obtain ⟨first, current⟩ := member
    rw [insertMember]
    by_cases before : key < first
    · rw [if_pos before, lookup_cons]
    · rw [if_neg before]
      by_cases equal : key = first
      · subst equal
        rw [if_pos rfl, lookup_cons, lookup_cons]
        split_ifs <;> rfl
      · rw [if_neg equal, lookup_cons, lookup_cons, ih]
        by_cases here : other = first
        · rw [if_pos here, if_pos here, if_neg (here ▸ Ne.symm equal)]
        · rw [if_neg here, if_neg here]

/-- One character of a string literal. -/
def escapeChar (char : Char) : String :=
  if char = '\x22' then "\\\""
  else if char = '\x5c' then "\\\\"
  else if char = '\x08' then "\\b"
  else if char = '\t' then "\\t"
  else if char = '\n' then "\\n"
  else if char = '\x0c' then "\\f"
  else if char = '\r' then "\\r"
  else if char.toNat < 16 then "\\u000" ++ String.singleton (Nat.digitChar char.toNat)
  else if char.toNat < 32 then "\\u001" ++ String.singleton (Nat.digitChar (char.toNat - 16))
  else String.singleton char

def escape : List Char → String
  | [] => ""
  | char :: rest => escapeChar char ++ escape rest

/-- A string literal. -/
def quote (text : String) : String := "\"" ++ escape text.toList ++ "\""

mutual

/-- The compact serialization, `serde_json::to_vec`. -/
def compact : Value → String
  | .null => "null"
  | .bool true => "true"
  | .bool false => "false"
  | .number value => value.text
  | .string text => quote text
  | .array items => "[" ++ compactItems items ++ "]"
  | .object members => "\x7b" ++ compactMembers members ++ "\x7d"

def compactItems : List Value → String
  | [] => ""
  | [item] => item.compact
  | item :: next :: rest => item.compact ++ "," ++ compactItems (next :: rest)

def compactMembers : List (String × Value) → String
  | [] => ""
  | [(key, value)] => quote key ++ ":" ++ value.compact
  | (key, value) :: next :: rest =>
    quote key ++ ":" ++ value.compact ++ "," ++ compactMembers (next :: rest)

end

/-- The number of bytes of the compact serialization. -/
def size (value : Value) : Nat := value.compact.utf8ByteSize

section Escaping

/-- Escaping a character makes it at most six times as long. -/
theorem utf8ByteSize_escapeChar_le (char : Char) :
    (escapeChar char).utf8ByteSize ≤ 6 * char.utf8Size := by
  have positive := char.utf8Size_pos
  have digit : ∀ index < 16, (Nat.digitChar index).utf8Size = 1 := by decide
  unfold escapeChar
  split_ifs with _ _ _ _ _ _ _ low high
  all_goals try (simp only [String.utf8ByteSize_append, String.utf8ByteSize_singleton])
  · exact le_trans (by decide : "\\\"".utf8ByteSize ≤ 6) (by omega)
  · exact le_trans (by decide : "\\\\".utf8ByteSize ≤ 6) (by omega)
  · exact le_trans (by decide : "\\b".utf8ByteSize ≤ 6) (by omega)
  · exact le_trans (by decide : "\\t".utf8ByteSize ≤ 6) (by omega)
  · exact le_trans (by decide : "\\n".utf8ByteSize ≤ 6) (by omega)
  · exact le_trans (by decide : "\\f".utf8ByteSize ≤ 6) (by omega)
  · exact le_trans (by decide : "\\r".utf8ByteSize ≤ 6) (by omega)
  · have lead : "\\u000".utf8ByteSize = 5 := by decide
    rw [lead, digit _ low]
    omega
  · have lead : "\\u001".utf8ByteSize = 5 := by decide
    rw [lead, digit _ (by omega)]
    omega
  · omega

/-- Escaping makes a text at most six times as long. -/
theorem utf8ByteSize_escape_le (chars : List Char) :
    (escape chars).utf8ByteSize ≤ 6 * String.utf8Len chars := by
  induction chars with
  | nil => simp [escape]
  | cons char rest ih =>
    have head := utf8ByteSize_escapeChar_le char
    simp only [escape, String.utf8ByteSize_append, String.utf8Len_cons]
    omega

/-- Escaping turns one byte into at most six, and a literal adds two quotes. -/
theorem utf8ByteSize_quote_le (text : String) :
    (quote text).utf8ByteSize ≤ 6 * text.utf8ByteSize + 2 := by
  have inner := utf8ByteSize_escape_le text.toList
  have mark : "\"".utf8ByteSize = 1 := by decide
  rw [String.utf8Len_toList] at inner
  simp only [quote, String.utf8ByteSize_append, mark]
  omega

end Escaping

end Value

end Spinfoam.Json
