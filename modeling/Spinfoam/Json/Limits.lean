import Spinfoam.Json.Value

/-!
# The bounds on JSON values

`validValue` is the check of `helpers.rs` on every value that enters the process
from outside or is built by a guest: nesting, number of nodes, encoded size.
-/

namespace Spinfoam.Json

def maxValueBytes : Nat := 16 * 1024

namespace Value

mutual

/-- `visit` of `valid_value`: the verdict on a subtree and the node counter
behind it. The traversal ends at the first node beyond a bound. -/
def visit (depth : Nat) : Value → Nat → Bool × Nat
  | .array items, count =>
    if depth > 32 ∨ count + 1 > 4096 then (false, count + 1)
    else visitItems (depth + 1) items (count + 1)
  | .object members, count =>
    if depth > 32 ∨ count + 1 > 4096 then (false, count + 1)
    else visitMembers (depth + 1) members (count + 1)
  | .null, count | .bool _, count | .number _, count | .string _, count =>
    (!decide (depth > 32 ∨ count + 1 > 4096), count + 1)

def visitItems (depth : Nat) : List Value → Nat → Bool × Nat
  | [], count => (true, count)
  | item :: rest, count =>
    match visit depth item count with
    | (true, count) => visitItems depth rest count
    | (false, count) => (false, count)

def visitMembers (depth : Nat) : List (String × Value) → Nat → Bool × Nat
  | [], count => (true, count)
  | (_, value) :: rest, count =>
    match visit depth value count with
    | (true, count) => visitMembers depth rest count
    | (false, count) => (false, count)

end

end Value

/-- `valid_value`. -/
def validValue (value : Value) : Bool :=
  (value.visit 0 0).1 && decide (value.size ≤ maxValueBytes)

/-- A valid value fits the byte limit. -/
theorem size_le_of_validValue {value : Value} (valid : validValue value = true) :
    value.size ≤ maxValueBytes := by
  simp only [validValue, Bool.and_eq_true, decide_eq_true_eq] at valid
  exact valid.2

end Spinfoam.Json
