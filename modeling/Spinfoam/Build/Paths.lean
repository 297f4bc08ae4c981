import Spinfoam.Guest.Helpers

/-!
# Source paths

Two rules about names of source files: `validPath` for the names an embedder may
submit, relative to the source directory, and `virtualPath` for the absolute
names the compiler may open. Components are kept as lists of characters.
-/

namespace Spinfoam.Build

open Spinfoam.Guest

/-- `str::split('/')`. -/
def parts (name : String) : List (List Char) := name.toList.splitOn '/'

/-- `join("/")`. -/
def joined (parts : List (List Char)) : String := String.ofList (['/'].intercalate parts)

/-- A component of `std::path::Path`. -/
inductive Component where
  | rootDir
  | curDir
  | parentDir
  | normal (part : List Char)
deriving DecidableEq

/-- What a part of a path between slashes contributes to its components. -/
def Component.ofPart (part : List Char) : Option Component :=
  if part = [] ∨ part = ".".toList then none
  else if part = "..".toList then some .parentDir
  else some (.normal part)

/-- `Path::components`: repeated slashes and inner dots are normalized away. -/
def components (name : String) : List Component :=
  (if name.toList.head? = some '/' then [.rootDir]
    else if (parts name).head? = some ".".toList then [.curDir] else []) ++
    (parts name).filterMap Component.ofPart

/-- The bytes that may stand in a source name. -/
def allowedByte (byte : UInt8) : Bool :=
  (48 ≤ byte && byte ≤ 57) || (65 ≤ byte && byte ≤ 90) || (97 ≤ byte && byte ≤ 122) ||
    (encodeUtf8 "_./-").contains byte

/-- `valid_path`. -/
def validPath (name : String) : Bool :=
  decide (name ≠ "") &&
    decide (name.utf8ByteSize ≤ 200) &&
    decide (name.toList.head? ≠ some '/') &&
    decide (name.toList.getLast? ≠ some '/') &&
    decide (¬ "//".toList <:+: name.toList) &&
    (encodeUtf8 name).all allowedByte &&
    (parts name).all (fun part =>
      decide (part ≠ [] ∧ part ≠ ".".toList ∧ part ≠ "..".toList ∧ part ≠ "spinfoam.h".toList)) &&
    (components name).all fun component =>
      match component with
      | .normal _ => true
      | _ => false

/-- The loop of `virtual_path`: go through the parts of a name and keep the
directories they lead to. -/
def resolve (directories : List (List Char)) : List (List Char) → Option (List (List Char))
  | [] => some directories
  | part :: rest =>
    if part = [] ∨ part = ".".toList then resolve directories rest
    else if part = "..".toList then
      if directories.length ≤ 1 then none else resolve directories.dropLast rest
    else resolve (directories ++ [part]) rest

/-- `virtual_path`. -/
def virtualPath (name : String) : Option String :=
  if name.toList.head? ≠ some '/' then none
  else
    (resolve [] (parts name)).bind fun directories =>
      if directories.head? = some "src".toList then some ("/" ++ joined directories) else none

/-- A part that names a file or a directory. -/
def Ordinary (part : List Char) : Prop := part ≠ [] ∧ part ≠ ".".toList ∧ part ≠ "..".toList

instance (part : List Char) : Decidable (Ordinary part) :=
  inferInstanceAs (Decidable (part ≠ [] ∧ part ≠ ".".toList ∧ part ≠ "..".toList))

section Laws

/-- Ordinary parts are kept as they are. -/
theorem resolve_ordinary {names : List (List Char)} (ordinary : ∀ part ∈ names, Ordinary part)
    (directories : List (List Char)) : resolve directories names = some (directories ++ names) := by
  induction names generalizing directories with
  | nil => simp [resolve]
  | cons part rest ih =>
    obtain ⟨filled, here, up⟩ := ordinary part List.mem_cons_self
    have later := ih (fun other member => ordinary other (List.mem_cons_of_mem _ member))
      (directories ++ [part])
    rw [resolve, if_neg (not_or.mpr ⟨filled, here⟩), if_neg up, later, List.append_assoc,
      List.singleton_append]

/-- The parts of two names with a slash between them. -/
theorem parts_append_slash (first second : String) :
    parts (first ++ "/" ++ second) = parts first ++ parts second := by
  have slash : "/".toList = ['/'] := by decide
  simp only [parts, String.toList_append, slash, List.append_assoc, List.singleton_append]
  exact List.splitOn_append_cons_self _ _

/-- The first part stands in front of a slash. -/
theorem joined_cons {part : List Char} {rest : List (List Char)} (filled : rest ≠ []) :
    joined (part :: rest) = String.ofList part ++ "/" ++ joined rest := by
  have slash : "/".toList = ['/'] := by decide
  rw [← String.toList_inj]
  simp [joined, List.intercalate_cons_of_ne_nil filled, slash]

end Laws

end Spinfoam.Build
