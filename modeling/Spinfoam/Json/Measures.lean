import Spinfoam.Json.Limits

/-!
# What the limits say

`validValue` counts while it walks. Here is what it accepts, in terms of the
nesting, the nodes and the encoded size of a value, and that it accepts with a
value all parts of it.
-/

namespace Spinfoam.Json

namespace Value

mutual

/-- How deeply a value nests. -/
def depth : Value → Nat
  | .array items => depthItems items
  | .object members => depthMembers members
  | .null | .bool _ | .number _ | .string _ => 0

def depthItems : List Value → Nat
  | [] => 0
  | item :: rest => max (item.depth + 1) (depthItems rest)

def depthMembers : List (String × Value) → Nat
  | [] => 0
  | (_, value) :: rest => max (value.depth + 1) (depthMembers rest)

end

mutual

/-- The number of nodes of a value. -/
def nodes : Value → Nat
  | .array items => nodesItems items + 1
  | .object members => nodesMembers members + 1
  | .null | .bool _ | .number _ | .string _ => 1

def nodesItems : List Value → Nat
  | [] => 0
  | item :: rest => item.nodes + nodesItems rest

def nodesMembers : List (String × Value) → Nat
  | [] => 0
  | (_, value) :: rest => value.nodes + nodesMembers rest

end

section Visit

/-- A counted walk goes on exactly if both bounds hold. -/
private theorem scalar_visit {depth count next : Nat} :
    (!decide (depth > 32 ∨ count + 1 > 4096), count + 1) = (true, next) ↔
      depth + 0 ≤ 32 ∧ count + 1 ≤ 4096 ∧ next = count + 1 := by
  simp only [Prod.mk.injEq, Bool.not_eq_true', decide_eq_false_iff_not]
  omega

/-- One element of a container, and then the others. -/
private theorem element_visit {depth count next inner nodes deepest others : Nat}
    {first : Bool × Nat} {later : Nat → Bool × Nat}
    (head : ∀ reached, first = (true, reached) ↔
      depth + 1 + inner ≤ 32 ∧ count + nodes ≤ 4096 ∧ reached = count + nodes)
    (tail : ∀ reached, reached ≤ 4096 → (later reached = (true, next) ↔
      depth + deepest ≤ 32 ∧ reached + others ≤ 4096 ∧ next = reached + others)) :
    (match first with
      | (true, reached) => later reached
      | (false, reached) => (false, reached)) = (true, next) ↔
      depth + max (inner + 1) deepest ≤ 32 ∧ count + (nodes + others) ≤ 4096 ∧
        next = count + (nodes + others) := by
  obtain ⟨_ | _, reached⟩ := first
  · have stopped : ¬ (depth + 1 + inner ≤ 32 ∧ count + nodes ≤ 4096) := by
      intro inside
      cases (head (count + nodes)).mpr ⟨inside.1, inside.2, rfl⟩
    simp only [Prod.mk.injEq, Bool.false_eq_true, false_and, false_iff]
    omega
  · obtain ⟨inside, room, same⟩ := (head reached).mp rfl
    have rest := tail reached (by omega)
    simp only [rest]
    omega

mutual

theorem visit_eq_true (value : Value) {depth count next : Nat} :
    value.visit depth count = (true, next) ↔
      depth + value.depth ≤ 32 ∧ count + value.nodes ≤ 4096 ∧ next = count + value.nodes := by
  cases value with
  | null | bool | number | string => exact scalar_visit
  | array items =>
    rw [visit, Value.depth, nodes]
    split_ifs with beyond
    · simp only [Prod.mk.injEq, Bool.false_eq_true, false_and, false_iff]
      omega
    · rw [visitItems_eq_true items (by omega) (by omega)]
      omega
  | object members =>
    rw [visit, Value.depth, nodes]
    split_ifs with beyond
    · simp only [Prod.mk.injEq, Bool.false_eq_true, false_and, false_iff]
      omega
    · rw [visitMembers_eq_true members (by omega) (by omega)]
      omega

theorem visitItems_eq_true (items : List Value) {depth count next : Nat} (shallow : depth ≤ 32)
    (few : count ≤ 4096) :
    visitItems (depth + 1) items count = (true, next) ↔
      depth + depthItems items ≤ 32 ∧ count + nodesItems items ≤ 4096 ∧
        next = count + nodesItems items := by
  cases items with
  | nil =>
    simp only [visitItems, depthItems, nodesItems, Prod.mk.injEq, true_and]
    omega
  | cons item rest =>
    rw [visitItems, depthItems, nodesItems]
    exact element_visit (fun _ => visit_eq_true item)
      fun reached within => visitItems_eq_true rest shallow within

theorem visitMembers_eq_true (members : List (String × Value)) {depth count next : Nat}
    (shallow : depth ≤ 32) (few : count ≤ 4096) :
    visitMembers (depth + 1) members count = (true, next) ↔
      depth + depthMembers members ≤ 32 ∧ count + nodesMembers members ≤ 4096 ∧
        next = count + nodesMembers members := by
  cases members with
  | nil =>
    simp only [visitMembers, depthMembers, nodesMembers, Prod.mk.injEq, true_and]
    omega
  | cons member rest =>
    rw [visitMembers, depthMembers, nodesMembers]
    exact element_visit (fun _ => visit_eq_true member.2)
      fun reached within => visitMembers_eq_true rest shallow within

end

end Visit

section Parts

variable {value part : Value}

private theorem compactItems_cons_le (item : Value) (rest : List Value) :
    item.size + (compactItems rest).utf8ByteSize ≤
      (compactItems (item :: rest)).utf8ByteSize := by
  cases rest with
  | nil => simp [compactItems, size]
  | cons next others =>
    rw [compactItems, String.utf8ByteSize_append, String.utf8ByteSize_append, size]
    omega

private theorem compactMembers_cons_le (member : String × Value) (rest : List (String × Value)) :
    member.2.size + (compactMembers rest).utf8ByteSize ≤
      (compactMembers (member :: rest)).utf8ByteSize := by
  cases rest with
  | nil =>
    simp only [compactMembers, String.utf8ByteSize_append, size]
    simp
  | cons next others =>
    simp only [compactMembers, String.utf8ByteSize_append, size]
    omega

/-- An item takes its own bytes, and a comma or nothing. -/
theorem utf8ByteSize_compactItems (items : List Value) :
    (compactItems items).utf8ByteSize = (items.map fun item => item.size + 1).sum - 1 := by
  have mark : ",".utf8ByteSize = 1 := by decide
  induction items with
  | nil => rfl
  | cons first rest ih =>
    cases rest with
    | nil => simp [compactItems, size]
    | cons next others =>
      simp only [compactItems, String.utf8ByteSize_append, mark, size, ih, List.map_cons,
        List.sum_cons]
      omega

theorem size_array (items : List Value) :
    (Value.array items).size = (items.map fun item => item.size + 1).sum - 1 + 2 := by
  have marks : "[".utf8ByteSize = 1 ∧ "]".utf8ByteSize = 1 := by decide
  rw [size, compact, String.utf8ByteSize_append, String.utf8ByteSize_append,
    utf8ByteSize_compactItems, marks.1, marks.2]
  omega

/-- A member takes its key, its value, a colon, and a comma or nothing. -/
theorem utf8ByteSize_compactMembers (members : List (String × Value)) :
    (compactMembers members).utf8ByteSize =
      (members.map fun member => (quote member.1).utf8ByteSize + member.2.size + 2).sum - 1 := by
  have marks : ":".utf8ByteSize = 1 ∧ ",".utf8ByteSize = 1 := by decide
  induction members with
  | nil => rfl
  | cons first rest ih =>
    cases rest with
    | nil =>
      simp only [compactMembers, String.utf8ByteSize_append, marks, size, List.map_cons,
        List.map_nil, List.sum_cons, List.sum_nil]
      omega
    | cons next others =>
      simp only [compactMembers, String.utf8ByteSize_append, marks, size, ih, List.map_cons,
        List.sum_cons]
      omega

theorem size_object (members : List (String × Value)) :
    (Value.object members).size =
      (members.map fun member => (quote member.1).utf8ByteSize + member.2.size + 2).sum - 1 + 2 := by
  have marks : "\x7b".utf8ByteSize = 1 ∧ "\x7d".utf8ByteSize = 1 := by decide
  rw [size, compact, String.utf8ByteSize_append, String.utf8ByteSize_append,
    utf8ByteSize_compactMembers, marks.1, marks.2]
  omega

theorem item_le {items : List Value} (member : part ∈ items) :
    part.depth + 1 ≤ depthItems items ∧ part.nodes ≤ nodesItems items ∧
      part.size ≤ (compactItems items).utf8ByteSize := by
  induction items with
  | nil => cases member
  | cons item rest ih =>
    have longer := compactItems_cons_le item rest
    rw [depthItems, nodesItems]
    rcases List.mem_cons.mp member with rfl | later
    · omega
    · have := ih later
      omega

theorem member_le {members : List (String × Value)} {key : String}
    (member : (key, part) ∈ members) :
    part.depth + 1 ≤ depthMembers members ∧ part.nodes ≤ nodesMembers members ∧
      part.size ≤ (compactMembers members).utf8ByteSize := by
  induction members with
  | nil => cases member
  | cons first rest ih =>
    have longer := compactMembers_cons_le first rest
    rw [depthMembers, nodesMembers]
    rcases List.mem_cons.mp member with rfl | later
    · simp only at longer ⊢
      omega
    · have := ih later
      omega

/-- An element of an array is smaller than the array in every respect. -/
theorem element_le {items : List Value} (member : part ∈ items) :
    part.depth < (Value.array items).depth ∧ part.nodes < (Value.array items).nodes ∧
      part.size ≤ (Value.array items).size := by
  have bound := item_le member
  simp only [Value.depth, Value.nodes, Value.size, compact, String.utf8ByteSize_append] at bound ⊢
  omega

theorem memberValue_le {members : List (String × Value)} {key : String}
    (member : (key, part) ∈ members) :
    part.depth < (Value.object members).depth ∧ part.nodes < (Value.object members).nodes ∧
      part.size ≤ (Value.object members).size := by
  have bound := member_le member
  simp only [Value.depth, Value.nodes, Value.size, compact, String.utf8ByteSize_append] at bound ⊢
  omega

/-- A part of a value is smaller than the value in every respect. -/
theorem part_le (within : (∃ key, value.get key = some part) ∨
      ∃ index, value.at? index = some part) :
    part.depth < value.depth ∧ part.nodes < value.nodes ∧ part.size ≤ value.size := by
  rcases within with ⟨key, found⟩ | ⟨index, found⟩
  · cases value with
    | object members =>
      obtain ⟨front, back, rfl, -⟩ := List.lookup_eq_some_iff.mp found
      exact @memberValue_le part _ key (by simp)
    | _ => cases found
  · cases value with
    | array items => exact element_le (List.mem_of_getElem? found)
    | _ => cases found

end Parts

end Value

/-- What `valid_value` accepts. -/
theorem validValue_iff (value : Value) :
    validValue value = true ↔ value.depth ≤ 32 ∧ value.nodes ≤ 4096 ∧ value.size ≤ 16384 := by
  have walked : (value.visit 0 0).1 = true ↔ value.depth ≤ 32 ∧ value.nodes ≤ 4096 := by
    constructor
    · intro accepted
      have bounds := value.visit_eq_true.mp (Prod.ext accepted rfl :
        value.visit 0 0 = (true, (value.visit 0 0).2))
      omega
    · rintro ⟨shallow, few⟩
      have reached : value.visit 0 0 = (true, 0 + value.nodes) :=
        value.visit_eq_true.mpr (by omega)
      rw [reached]
  rw [validValue, Bool.and_eq_true, walked, decide_eq_true_eq, and_assoc]
  rfl

/-- With a value all its parts are within the limits. -/
theorem validValue_part {value part : Value} (valid : validValue value = true)
    (within : (∃ key, value.get key = some part) ∨ ∃ index, value.at? index = some part) :
    validValue part = true := by
  obtain ⟨depth, nodes, size⟩ := (validValue_iff value).mp valid
  have smaller := Value.part_le within
  rw [validValue_iff]
  omega

section Numbers

private theorem utf8Len_le (chars : List Char) : String.utf8Len chars ≤ 4 * chars.length := by
  induction chars with
  | nil => simp
  | cons char rest ih =>
    have := char.utf8Size_le_four
    rw [String.utf8Len_cons, List.length_cons]
    omega

/-- No character takes more than four bytes. -/
theorem utf8ByteSize_le_length (text : String) : text.utf8ByteSize ≤ 4 * text.length := by
  have bytes := utf8Len_le text.toList
  rwa [String.utf8Len_toList, String.length_toList] at bytes

/-- A number prints as one character for each digit. -/
theorem utf8ByteSize_repr_le {number width : Nat} (some : 0 < width) (small : number < 10 ^ width) :
    (Nat.repr number).utf8ByteSize ≤ 4 * width := by
  have digits : (Nat.repr number).length ≤ width := Nat.repr_length number width some small
  have bytes := utf8ByteSize_le_length (Nat.repr number)
  omega

/-- An integer may have a sign in front. -/
theorem size_int_le {number : Int} {width : Nat} (some : 0 < width)
    (small : number.natAbs < 10 ^ width) : (Value.number (.int number)).size ≤ 4 * width + 1 := by
  rw [Value.size, Value.compact, Number.text]
  cases number with
  | ofNat digits => exact (utf8ByteSize_repr_le some small).trans (Nat.le_succ _)
  | negSucc digits =>
    have printed : (Nat.repr (digits + 1)).utf8ByteSize ≤ 4 * width :=
      utf8ByteSize_repr_le some small
    have sign : ("-" ++ Nat.repr (digits + 1)).utf8ByteSize ≤ 4 * width + 1 := by
      have mark : "-".utf8ByteSize = 1 := by decide
      rw [String.utf8ByteSize_append, mark]
      omega
    exact sign

/-- The number that a guest makes of a register is within the limits: nineteen
digits are enough for it. -/
theorem validValue_int {number : Int} (low : -2 ^ 63 ≤ number) (high : number < 2 ^ 63) :
    validValue (.number (.int number)) = true := by
  have size := @size_int_le number 19 (by decide) (by omega)
  exact (validValue_iff _).mpr ⟨Nat.zero_le _, by simp [Value.nodes], by omega⟩

end Numbers

end Spinfoam.Json
