import Spinfoam.Json.Measures

/-!
# What `valid_value` decides

The limits in terms of the nodes of a value, and their independence of the order
in which the members of its objects stand.
-/

namespace Spinfoam.Json

/-- A value is a node of another one at some level. The root is at level 0. -/
inductive Node (root : Value) : Nat → Value → Prop where
  | root : Node root 0 root
  | element {level : Nat} {items : List Value} {item : Value}
      (outer : Node root level (.array items)) (member : item ∈ items) :
      Node root (level + 1) item
  | member {level : Nat} {members : List (String × Value)} {key : String} {value : Value}
      (outer : Node root level (.object members)) (member : (key, value) ∈ members) :
      Node root (level + 1) value

/-- The same value, but for the order of the members of its objects. -/
inductive Reordered : Value → Value → Prop where
  | refl (value : Value) : Reordered value value
  | trans {first second third : Value} (front : Reordered first second)
      (back : Reordered second third) : Reordered first third
  | members {left right : List (String × Value)} (permuted : left.Perm right) :
      Reordered (.object left) (.object right)
  | element {left right : Value} (front back : List Value) (inner : Reordered left right) :
      Reordered (.array (front ++ left :: back)) (.array (front ++ right :: back))
  | member {left right : Value} (front back : List (String × Value)) (key : String)
      (inner : Reordered left right) :
      Reordered (.object (front ++ (key, left) :: back)) (.object (front ++ (key, right) :: back))

namespace Value

section Levels

variable {root value part : Value} {level inner : Nat}

/-- A node of a node is a node. -/
theorem node_trans (outer : Node root level value) (deeper : Node value inner part) :
    Node root (level + inner) part := by
  induction deeper with
  | root => exact outer
  | element _ member ih => exact .element ih member
  | member _ member ih => exact .member ih member

/-- No node lies below the depth of the root. -/
theorem level_le (node : Node root level part) : level + part.depth ≤ root.depth := by
  induction node with
  | root => omega
  | element _ member ih =>
    have below := (item_le member).1
    rw [Value.depth] at ih
    omega
  | member _ member ih =>
    have below := (member_le member).1
    rw [Value.depth] at ih
    omega

/-- The depth of some items is that of one of them. -/
theorem depthItems_attained (items : List Value) :
    items = [] ∨ ∃ item ∈ items, item.depth + 1 = depthItems items := by
  induction items with
  | nil => exact Or.inl rfl
  | cons item rest ih =>
    right
    rw [depthItems]
    rcases ih with rfl | ⟨deepest, member, same⟩
    · exact ⟨item, List.mem_cons_self, by simp [depthItems]⟩
    · rcases le_total (item.depth + 1) (depthItems rest) with below | above
      · exact ⟨deepest, List.mem_cons_of_mem _ member, by omega⟩
      · exact ⟨item, List.mem_cons_self, by omega⟩

/-- The depth of some members is that of one of them. -/
theorem depthMembers_attained (members : List (String × Value)) :
    members = [] ∨ ∃ member ∈ members, member.2.depth + 1 = depthMembers members := by
  induction members with
  | nil => exact Or.inl rfl
  | cons first rest ih =>
    right
    rw [depthMembers]
    rcases ih with rfl | ⟨deepest, member, same⟩
    · exact ⟨first, List.mem_cons_self, by simp [depthMembers]⟩
    · rcases le_total (first.2.depth + 1) (depthMembers rest) with below | above
      · exact ⟨deepest, List.mem_cons_of_mem _ member, by omega⟩
      · exact ⟨first, List.mem_cons_self, by omega⟩

/-- Some node lies at the depth of the root. -/
theorem exists_deepest (root : Value) : ∃ part, Node root root.depth part := by
  induction count : root.nodes using Nat.strong_induction_on generalizing root with
  | _ count ih =>
    subst count
    cases root with
    | null | bool | number | string => exact ⟨_, .root⟩
    | array items =>
      obtain rfl | ⟨item, member, same⟩ := depthItems_attained items
      · exact ⟨_, .root⟩
      · have smaller := (item_le member).2.1
        obtain ⟨part, deeper⟩ := ih item.nodes (by rw [nodes]; omega) item rfl
        refine ⟨part, ?_⟩
        rw [depth, ← same, Nat.add_comm]
        exact node_trans (.element .root member) deeper
    | object members =>
      obtain rfl | ⟨⟨key, value⟩, member, same⟩ := depthMembers_attained members
      · exact ⟨_, .root⟩
      · have smaller := (member_le member).2.1
        obtain ⟨part, deeper⟩ := ih value.nodes (by rw [nodes]; omega) value rfl
        refine ⟨part, ?_⟩
        rw [depth, ← same, Nat.add_comm]
        exact node_trans (.member .root member) deeper

/-- A bound on the depth is a bound on the level of every node. -/
theorem depth_le_iff (root : Value) (bound : Nat) :
    root.depth ≤ bound ↔ ∀ level part, Node root level part → level ≤ bound := by
  constructor
  · intro shallow level part node
    have below := level_le node
    omega
  · intro each
    obtain ⟨part, deepest⟩ := exists_deepest root
    exact each _ _ deepest

end Levels

section Order

/-- The limits see the same in both values. -/
structure Alike (left right : Value) : Prop where
  depth : left.depth = right.depth
  nodes : left.nodes = right.nodes
  size : left.size = right.size

/-- The depth does not depend on the order of the members. -/
theorem depthMembers_perm {left right : List (String × Value)} (permuted : left.Perm right) :
    depthMembers left = depthMembers right := by
  induction permuted with
  | nil => rfl
  | cons member _ ih => rw [depthMembers, depthMembers, ih]
  | swap first second rest =>
    simp only [depthMembers]
    omega
  | trans _ _ front back => exact front.trans back

/-- The number of nodes does not depend on the order of the members. -/
theorem nodesMembers_perm {left right : List (String × Value)} (permuted : left.Perm right) :
    nodesMembers left = nodesMembers right := by
  induction permuted with
  | nil => rfl
  | cons member _ ih => rw [nodesMembers, nodesMembers, ih]
  | swap first second rest =>
    simp only [nodesMembers]
    omega
  | trans _ _ front back => exact front.trans back

/-- Objects with the same members in another order are alike. -/
theorem alike_members {left right : List (String × Value)} (permuted : left.Perm right) :
    Alike (.object left) (.object right) where
  depth := by rw [depth, depth, depthMembers_perm permuted]
  nodes := by rw [nodes, nodes, nodesMembers_perm permuted]
  size := by rw [size_object, size_object, (permuted.map _).sum_eq]

/-- Arrays with one element exchanged for a like one are alike. -/
theorem alike_element {left right : Value} (front back : List Value) (alike : Alike left right) :
    Alike (.array (front ++ left :: back)) (.array (front ++ right :: back)) := by
  obtain ⟨depths, counts, sizes⟩ := alike
  refine ⟨?_, ?_, ?_⟩
  · rw [depth, depth]
    induction front with
    | nil => rw [List.nil_append, List.nil_append, depthItems, depthItems, depths]
    | cons first rest ih => rw [List.cons_append, List.cons_append, depthItems, depthItems, ih]
  · rw [nodes, nodes, Nat.add_right_cancel_iff]
    induction front with
    | nil => rw [List.nil_append, List.nil_append, nodesItems, nodesItems, counts]
    | cons first rest ih => rw [List.cons_append, List.cons_append, nodesItems, nodesItems, ih]
  · simp [size_array, sizes]

/-- Objects with one member exchanged for a like one are alike. -/
theorem alike_member {left right : Value} (front back : List (String × Value)) (key : String)
    (alike : Alike left right) :
    Alike (.object (front ++ (key, left) :: back)) (.object (front ++ (key, right) :: back)) := by
  obtain ⟨depths, counts, sizes⟩ := alike
  refine ⟨?_, ?_, ?_⟩
  · rw [depth, depth]
    induction front with
    | nil => rw [List.nil_append, List.nil_append, depthMembers, depthMembers, depths]
    | cons first rest ih =>
      rw [List.cons_append, List.cons_append, depthMembers, depthMembers, ih]
  · rw [nodes, nodes, Nat.add_right_cancel_iff]
    induction front with
    | nil => rw [List.nil_append, List.nil_append, nodesMembers, nodesMembers, counts]
    | cons first rest ih =>
      rw [List.cons_append, List.cons_append, nodesMembers, nodesMembers, ih]
  · simp [size_object, sizes]

/-- The order of the members is not seen by the limits. -/
theorem alike_of_reordered {left right : Value} (reordered : Reordered left right) :
    Alike left right := by
  induction reordered with
  | refl => exact ⟨rfl, rfl, rfl⟩
  | trans _ _ front back =>
    exact ⟨front.depth.trans back.depth, front.nodes.trans back.nodes, front.size.trans back.size⟩
  | members permuted => exact alike_members permuted
  | element front back _ ih => exact alike_element front back ih
  | member front back key _ ih => exact alike_member front back key ih

end Order

end Value

/-- `valid_value` accepts exactly the values whose nodes all lie within 32 levels,
which have at most 4096 nodes and whose compact encoding takes at most 16384
bytes. The order of the members of an object plays no part, and the elements and
members of an accepted value are accepted. -/
theorem validValue_exact (value : Value) :
    (validValue value = true ↔
      (∀ level part, Node value level part → level ≤ 32) ∧ value.nodes ≤ 4096 ∧
        value.compact.utf8ByteSize ≤ 16384) ∧
    (∀ other, Reordered value other → validValue other = validValue value) ∧
    (validValue value = true →
      (∀ items, value = .array items → ∀ item ∈ items, validValue item = true) ∧
      (∀ members, value = .object members → ∀ key part, (key, part) ∈ members →
        validValue part = true)) := by
  refine ⟨?_, ?_, ?_⟩
  · rw [validValue_iff, Value.depth_le_iff]
    rfl
  · intro other reordered
    obtain ⟨depth, nodes, size⟩ := Value.alike_of_reordered reordered
    rw [Bool.eq_iff_iff, validValue_iff, validValue_iff, depth, nodes, size]
  · intro valid
    obtain ⟨depth, nodes, size⟩ := (validValue_iff value).mp valid
    constructor
    · rintro items rfl item member
      have smaller := Value.element_le member
      rw [validValue_iff]
      omega
    · rintro members rfl key part member
      have smaller := Value.memberValue_le member
      rw [validValue_iff]
      omega

/-- Swapped members within an array. -/
theorem validValue_exact_swapped :
    validValue (.array [.object [("b", .null), ("a", .bool true)]]) =
      validValue (.array [.object [("a", .bool true), ("b", .null)]]) := by
  have swapped : Reordered (.array [.object [("a", .bool true), ("b", .null)]])
      (.array [.object [("b", .null), ("a", .bool true)]]) :=
    .element [] [] (.members (.swap _ _ _))
  exact (validValue_exact _).2.1 _ swapped

end Spinfoam.Json
