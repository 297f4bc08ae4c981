import Spinfoam.Build.Paths

/-!
# Resolution of virtual paths

`virtual_path` against the plain meaning of a path: its parts lead from the root
to a directory, one after the other. What it accepts are the walks that enter
the source directory and never leave it, and what it returns is where they end.
-/

namespace Spinfoam.Build

open Spinfoam.Guest

/-- Where a part leads from a directory. The root is its own parent. -/
def descend (directories : List (List Char)) (part : List Char) : List (List Char) :=
  if part = [] ∨ part = ".".toList then directories
  else if part = "..".toList then directories.dropLast
  else directories ++ [part]

/-- Where parts lead one after the other. -/
def walk (directories names : List (List Char)) : List (List Char) := names.foldl descend directories

/-- The parts of a name that lead anywhere. -/
def significant (name : String) : List (List Char) :=
  (parts name).filter fun part => part ≠ [] ∧ part ≠ ".".toList

/-- The walk never leaves the directories below this one. -/
def Confined (top : List Char) (directories names : List (List Char)) : Prop :=
  ∀ front, front <+: names → [top] <+: walk directories front

section Walks

variable {top part : List Char} {directories names out : List (List Char)}

@[simp] theorem walk_nil : walk directories [] = directories := rfl

@[simp] theorem walk_cons :
    walk directories (part :: names) = walk (descend directories part) names := rfl

theorem confined_nil : Confined top directories [] ↔ [top] <+: directories := by
  constructor
  · intro confined
    exact confined [] (List.prefix_refl _)
  · intro inside front initial
    rwa [List.prefix_nil.mp initial, walk_nil]

/-- A walk is confined when it begins inside and stays there after its first part. -/
theorem confined_cons : Confined top directories (part :: names) ↔
    [top] <+: directories ∧ Confined top (descend directories part) names := by
  constructor
  · intro confined
    refine ⟨confined [] List.nil_prefix, ?_⟩
    intro front initial
    exact confined (part :: front) (List.cons_prefix_cons.mpr ⟨rfl, initial⟩)
  · rintro ⟨inside, confined⟩ front initial
    cases front with
    | nil => exact inside
    | cons first later =>
      obtain ⟨rfl, rest⟩ := List.cons_prefix_cons.mp initial
      exact confined later rest

/-- Only the top itself has no parent inside. -/
theorem inside_dropLast (inner : List (List Char)) :
    [top] <+: (top :: inner).dropLast ↔ 1 < (top :: inner).length := by
  cases inner with
  | nil => simp
  | cons next rest => simp

/-- The loop goes on as long as it stays inside. -/
theorem resolve_cons (inside : [top] <+: directories) :
    resolve directories (part :: names) =
      if [top] <+: descend directories part then resolve (descend directories part) names
      else none := by
  obtain ⟨inner, rfl⟩ := inside
  rw [List.singleton_append, resolve]
  by_cases idle : part = [] ∨ part = ".".toList
  · have still : descend (top :: inner) part = top :: inner := by rw [descend, if_pos idle]
    rw [if_pos idle, still, if_pos (by simp)]
  · by_cases up : part = "..".toList
    · have higher : descend (top :: inner) part = (top :: inner).dropLast := by
        rw [descend, if_neg idle, if_pos up]
      have limit := @inside_dropLast top inner
      rw [if_neg idle, if_pos up, higher]
      split_ifs with shallow kept kept
      · exact absurd (limit.mp kept) (not_lt.mpr shallow)
      · rfl
      · rfl
      · exact absurd (limit.mpr (not_le.mp shallow)) kept
    · have deeper : descend (top :: inner) part = top :: inner ++ [part] := by
        rw [descend, if_neg idle, if_neg up]
      rw [if_neg idle, if_neg up, deeper, if_pos (by simp)]

/-- Inside, the loop computes the confined walks. -/
theorem resolve_eq_some (inside : [top] <+: directories) :
    resolve directories names = some out ↔
      Confined top directories names ∧ out = walk directories names := by
  induction names generalizing directories with
  | nil =>
    rw [confined_nil, resolve, Option.some.injEq, eq_comm]
    exact (and_iff_right inside).symm
  | cons part rest ih =>
    rw [resolve_cons inside, confined_cons, walk_cons, and_iff_right inside]
    split_ifs with kept
    · exact ih kept
    · simp only [false_iff, not_and]
      intro confined
      exact absurd (confined [] List.nil_prefix) kept

/-- The loop can stop between any two parts. -/
theorem resolve_append (directories first second : List (List Char)) :
    resolve directories (first ++ second) =
      (resolve directories first).bind fun reached => resolve reached second := by
  induction first generalizing directories with
  | nil => rfl
  | cons part rest ih =>
    rw [List.cons_append, resolve, resolve]
    split_ifs
    · exact ih _
    · rfl
    · exact ih _
    · exact ih _

/-- Parts that lead nowhere can be left out. -/
theorem resolve_filter (directories names : List (List Char)) :
    resolve directories (names.filter fun part => part ≠ [] ∧ part ≠ ".".toList) =
      resolve directories names := by
  induction names generalizing directories with
  | nil => rfl
  | cons part rest ih =>
    by_cases idle : part = [] ∨ part = ".".toList
    · rw [List.filter_cons_of_neg (by simpa [imp_iff_not_or] using idle), resolve, if_pos idle, ih]
    · rw [List.filter_cons_of_pos (by simpa using not_or.mp idle), resolve, resolve, if_neg idle,
        if_neg idle]
      split_ifs
      · rfl
      · exact ih _
      · exact ih _

theorem walk_filter (directories names : List (List Char)) :
    walk directories (names.filter fun part => part ≠ [] ∧ part ≠ ".".toList) =
      walk directories names := by
  induction names generalizing directories with
  | nil => rfl
  | cons part rest ih =>
    by_cases idle : part = [] ∨ part = ".".toList
    · rw [List.filter_cons_of_neg (by simpa [imp_iff_not_or] using idle), walk_cons, descend,
        if_pos idle, ih]
    · rw [List.filter_cons_of_pos (by simpa using not_or.mp idle), walk_cons, walk_cons, ih]

end Walks

section Roots

variable {name path : String} {directories : List (List Char)}

/-- The walk from the root enters a directory, or the loop gives up. -/
theorem resolve_significant {first : List Char} {rest : List (List Char)}
    (split : significant name = first :: rest) (lower : first ≠ "..".toList) :
    resolve [] (parts name) = resolve [first] rest := by
  have among : first ∈ significant name := by
    rw [split]
    exact List.mem_cons_self
  have apart : ¬ (first = [] ∨ first = ".".toList) := by
    have kept := (List.mem_filter.mp among).2
    simpa [not_or] using kept
  rw [← resolve_filter, ← significant, split, resolve, if_neg apart, if_neg lower]
  rfl

/-- What is inside a directory begins with it. -/
theorem head_of_confined {top : List Char} {names : List (List Char)}
    (confined : Confined top directories names) :
    (walk directories names).head? = some top := by
  obtain ⟨inner, whole⟩ := confined names (List.prefix_refl _)
  rw [← whole]
  rfl

/-- What `virtual_path` accepts and returns. -/
theorem virtualPath_eq_some : virtualPath name = some path ↔
    name.toList.head? = some '/' ∧ ∃ rest, significant name = "src".toList :: rest ∧
      Confined "src".toList ["src".toList] rest ∧
      path = "/" ++ joined (walk ["src".toList] rest) := by
  rw [virtualPath]
  by_cases absolute : name.toList.head? = some '/'
  · rw [if_neg (not_not.mpr absolute), and_iff_right absolute]
    cases split : significant name with
    | nil =>
      have nowhere : resolve [] (parts name) = some [] := by
        rw [← resolve_filter, ← significant, split]
        rfl
      simp [nowhere]
    | cons first rest =>
      by_cases lower : first = "..".toList
      · have failed : resolve [] (parts name) = none := by
          rw [← resolve_filter, ← significant, split, lower]
          rfl
        simp [failed, lower]
      · rw [resolve_significant split lower]
        constructor
        · intro found
          obtain ⟨out, resolved, returned⟩ := Option.bind_eq_some_iff.mp found
          obtain ⟨confined, rfl⟩ := (resolve_eq_some (List.prefix_refl [first])).mp resolved
          rw [head_of_confined confined] at returned
          split_ifs at returned with source
          obtain rfl := Option.some.inj source
          exact ⟨rest, rfl, confined, (Option.some.inj returned).symm⟩
        · rintro ⟨later, same, confined, rfl⟩
          obtain ⟨rfl, rfl⟩ := List.cons.inj same
          have resolved := (resolve_eq_some (List.prefix_refl _)).mpr ⟨confined, rfl⟩
          rw [resolved, Option.bind_some, head_of_confined confined, if_pos rfl]
  · rw [if_pos absolute]
    simp [absolute]

/-- No piece of a split list has the separator in it. -/
theorem separator_not_mem_splitOn {separator : Char} {text piece : List Char}
    (member : piece ∈ text.splitOn separator) : separator ∉ piece := by
  induction text generalizing piece with
  | nil =>
    rw [List.splitOn_nil, List.mem_singleton] at member
    rw [member]
    exact List.not_mem_nil
  | cons first rest ih =>
    rw [List.splitOn_cons_eq_if_modifyHead] at member
    split_ifs at member with here
    · rcases List.mem_cons.mp member with rfl | later
      · exact List.not_mem_nil
      · exact ih later
    · cases pieces : rest.splitOn separator with
      | nil => exact absurd pieces (List.splitOn_ne_nil _ _)
      | cons head tail =>
        rw [pieces, List.modifyHead_cons] at member
        rw [pieces] at ih
        rcases List.mem_cons.mp member with rfl | later
        · rw [List.mem_cons, not_or]
          exact ⟨fun same => here (by simp [same]), ih List.mem_cons_self⟩
        · exact ih (List.mem_cons_of_mem _ later)

theorem slash_not_mem_part {part : List Char} (member : part ∈ parts name) : '/' ∉ part :=
  separator_not_mem_splitOn member

/-- What a walk reaches it has begun with or found on its way. -/
theorem mem_walk {part : List Char} {names : List (List Char)}
    (member : part ∈ walk directories names) :
    part ∈ directories ∨ part ∈ names ∧ Ordinary part := by
  induction names generalizing directories with
  | nil => exact Or.inl member
  | cons first rest ih =>
    rw [walk_cons] at member
    obtain before | ⟨later, ordinary⟩ := ih member
    · unfold descend at before
      split_ifs at before with idle up
      · exact Or.inl before
      · exact Or.inl (List.mem_of_mem_dropLast before)
      · rcases List.mem_append.mp before with old | new
        · exact Or.inl old
        · obtain rfl := List.mem_singleton.mp new
          exact Or.inr ⟨List.mem_cons_self, fun empty => idle (Or.inl empty),
            fun here => idle (Or.inr here), up⟩
    · exact Or.inr ⟨List.mem_cons_of_mem _ later, ordinary⟩

/-- The parts of a path are the directories it was made of. -/
theorem parts_path (filled : directories ≠ []) (plain : ∀ part ∈ directories, '/' ∉ part) :
    parts ("/" ++ joined directories) = [] :: directories := by
  have whole : "/" ++ joined directories = "" ++ "/" ++ joined directories := by simp
  have root : parts "" = [[]] := by decide
  have inner : parts (joined directories) = directories := by
    rw [parts, joined, String.toList_ofList, List.splitOn_intercalate _ plain filled]
  rw [whole, parts_append_slash, root, inner]
  rfl

/-- What `virtual_path` returns is made of ordinary parts below the source directory. -/
theorem canonical_of_virtualPath (found : virtualPath name = some path) :
    ∃ inner, path = "/" ++ joined ("src".toList :: inner) ∧
      parts path = [] :: "src".toList :: inner ∧ walk [] (parts name) = "src".toList :: inner ∧
      ∀ part ∈ "src".toList :: inner, Ordinary part := by
  obtain ⟨-, rest, split, confined, rfl⟩ := virtualPath_eq_some.mp found
  obtain ⟨inner, whole⟩ := confined rest (List.prefix_refl _)
  rw [List.singleton_append] at whole
  have source : Ordinary "src".toList := by decide
  have ends : walk [] (parts name) = "src".toList :: inner := by
    rw [← walk_filter, ← significant, split, whole]
    rfl
  have ordinary : ∀ part ∈ "src".toList :: inner, Ordinary part := by
    intro part member
    rw [whole] at member
    rcases mem_walk member with here | ⟨-, ordinary⟩
    · obtain rfl := List.mem_singleton.mp here
      exact source
    · exact ordinary
  have plain : ∀ part ∈ "src".toList :: inner, '/' ∉ part := by
    intro part member
    rw [← ends] at member
    rcases mem_walk member with here | ⟨listed, -⟩
    · cases here
    · exact slash_not_mem_part listed
  rw [← whole]
  exact ⟨inner, rfl, parts_path (List.cons_ne_nil _ _) plain, ends, ordinary⟩

/-- From a path it has returned, `virtual_path` goes on as from a directory. -/
theorem virtualPath_append {relative target : String} (found : virtualPath name = some path) :
    virtualPath (path ++ "/" ++ relative) = some target ↔
      Confined "src".toList (parts path).tail (parts relative) ∧
        target = "/" ++ joined (walk (parts path).tail (parts relative)) := by
  obtain ⟨inner, rfl, split, -, ordinary⟩ := canonical_of_virtualPath found
  have inside : ["src".toList] <+: "src".toList :: inner := by simp
  have absolute : ("/" ++ joined ("src".toList :: inner) ++ "/" ++ relative).toList.head? =
      some '/' := by
    simp [String.toList_append]
  have resolved : resolve [] (parts ("/" ++ joined ("src".toList :: inner) ++ "/" ++ relative)) =
      resolve ("src".toList :: inner) (parts relative) := by
    rw [parts_append_slash, split, List.cons_append, resolve, if_pos (Or.inl rfl),
      resolve_append, resolve_ordinary ordinary, Option.bind_some, List.nil_append]
  rw [split, List.tail_cons, virtualPath, if_neg (not_not.mpr absolute), resolved]
  constructor
  · intro reached
    obtain ⟨out, through, returned⟩ := Option.bind_eq_some_iff.mp reached
    obtain ⟨confined, rfl⟩ := (resolve_eq_some inside).mp through
    rw [head_of_confined confined, if_pos rfl] at returned
    exact ⟨confined, (Option.some.inj returned).symm⟩
  · rintro ⟨confined, rfl⟩
    rw [(resolve_eq_some inside).mpr ⟨confined, rfl⟩, Option.bind_some,
      head_of_confined confined, if_pos rfl]

/-- A path that has been returned is its own virtual path. -/
theorem virtualPath_idempotent (found : virtualPath name = some path) :
    virtualPath path = some path := by
  obtain ⟨inner, rfl, split, -, ordinary⟩ := canonical_of_virtualPath found
  have absolute : ("/" ++ joined ("src".toList :: inner)).toList.head? = some '/' := by
    simp [String.toList_append]
  rw [virtualPath, if_neg (not_not.mpr absolute), split, resolve, if_pos (Or.inl rfl),
    resolve_ordinary ordinary, Option.bind_some, List.nil_append, List.head?_cons, if_pos rfl]

/-- What `virtual_path` returns lies in the source directory, has no empty, `.` or
`..` part, is where the parts of the name lead from the root, and resolves to
itself and further names from there. It returns something exactly for an absolute
name that first enters the source directory and never leaves it. -/
theorem virtualPath_confines (name : String) :
    (∀ path, virtualPath name = some path →
      (path = "/src" ∨ ∃ below, path = "/src/" ++ below) ∧
      (∃ inner, parts path = [] :: inner ∧ ∀ part ∈ inner, Ordinary part) ∧
      path = "/" ++ joined (walk [] (parts name)) ∧
      virtualPath path = some path ∧
      ∀ relative target, virtualPath (path ++ "/" ++ relative) = some target ↔
        (∀ front, front <+: parts relative →
          ["src".toList] <+: walk (parts path).tail front) ∧
        target = "/" ++ joined (walk (parts path).tail (parts relative))) ∧
    ((virtualPath name).isSome ↔
      name.toList.head? = some '/' ∧ (significant name).head? = some "src".toList ∧
        ∀ front, front <+: significant name → front ≠ [] → ["src".toList] <+: walk [] front) := by
  constructor
  · intro path found
    obtain ⟨inner, shape, split, ends, ordinary⟩ := canonical_of_virtualPath found
    refine ⟨?_, ⟨_, split, ordinary⟩, by rw [ends, shape], virtualPath_idempotent found,
      fun relative target => virtualPath_append found⟩
    cases inner with
    | nil =>
      left
      rw [shape]
      decide
    | cons next rest =>
      right
      refine ⟨joined (next :: rest), ?_⟩
      have below : "/src/" = "/" ++ "src" ++ "/" := by decide
      rw [shape, joined_cons (List.cons_ne_nil _ _), String.ofList_toList, below]
      simp only [String.append_assoc]
  · rw [Option.isSome_iff_exists]
    constructor
    · rintro ⟨path, found⟩
      obtain ⟨absolute, rest, split, confined, -⟩ := virtualPath_eq_some.mp found
      refine ⟨absolute, by rw [split]; rfl, ?_⟩
      intro front initial begun
      rw [split] at initial
      cases front with
      | nil => exact absurd rfl begun
      | cons first later =>
        obtain ⟨rfl, within⟩ := List.cons_prefix_cons.mp initial
        exact confined later within
    · rintro ⟨absolute, first, stays⟩
      obtain ⟨rest, split⟩ := List.head?_eq_some_iff.mp first
      refine ⟨_, virtualPath_eq_some.mpr ⟨absolute, rest, split, ?_, rfl⟩⟩
      intro front initial
      have reached := stays ("src".toList :: front)
        (by rw [split]; exact List.cons_prefix_cons.mpr ⟨rfl, initial⟩) (List.cons_ne_nil _ _)
      exact reached

/-- A path that goes up and down again. -/
theorem virtualPath_confines_detour :
    virtualPath "/src//a/./b/../c.h" = some "/src/a/c.h" ∧
      virtualPath "/src/a/c.h" = some "/src/a/c.h" := by
  have found : virtualPath "/src//a/./b/../c.h" = some "/src/a/c.h" := by decide
  obtain ⟨-, -, -, fixed, -⟩ := (virtualPath_confines "/src//a/./b/../c.h").1 _ found
  exact ⟨found, fixed⟩

end Roots

end Spinfoam.Build
