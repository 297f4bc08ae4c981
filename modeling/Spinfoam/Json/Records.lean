import Spinfoam.Json.Value

/-!
# Records in JSON

What a derived `Deserialize` with `deny_unknown_fields` takes from a value. A
record is read from an object, whose members may stand in any order, or from an
array, which lists the fields in the order of their declaration. Every field has
its own reader; a field that is missing has a default or fails the record.
-/

namespace Spinfoam.Json

variable {α : Type}

/-- What a record with these fields finds for each of them. No other field is allowed. -/
def fieldsOf (names : List String) : Value → Option (List (Option Value))
  | .object members =>
    if members.all fun member => names.contains member.1 then
      some (names.map fun name => members.lookup name)
    else none
  | .array items =>
    if items.length ≤ names.length then
      some (items.map some ++ List.replicate (names.length - items.length) none)
    else none
  | _ => none

namespace Reader

/-- A field that has to be there. -/
def required (read : Value → Option α) (found : Option Value) : Option α := found.bind read

/-- A field with `#[serde(default)]`. -/
def withDefault (fallback : α) (read : Value → Option α) : Option Value → Option α
  | none => some fallback
  | some value => read value

/-- An unsigned integer of this many bits. -/
def unsigned (bits : Nat) : Value → Option Nat
  | .number (.int value) => if 0 ≤ value ∧ value < 2 ^ bits then some value.toNat else none
  | _ => none

/-- `Option<T>`. -/
def optional (read : Value → Option α) : Value → Option (Option α)
  | .null => some none
  | value => (read value).map some

/-- `Vec<T>`. -/
def list (read : Value → Option α) : Value → Option (List α)
  | .array items => items.mapM read
  | _ => none

/-- `BTreeMap<String, T>`. -/
def map (read : Value → Option α) : Value → Option (List (String × α))
  | .object members => members.mapM fun (key, value) => (read value).map fun item => (key, item)
  | _ => none

end Reader

end Spinfoam.Json
