import Spinfoam.Build.Paths
import Spinfoam.Error
import Spinfoam.Std.Map

/-!
# Build requests

What `sf.build.compile` submits, and the checks it has to pass.
-/

namespace Spinfoam.Build

open Spinfoam.Std

structure Request where
  sdkVersion : Nat
  files : Map String String
  entry : String

/-- The parts of a name that lie before a slash, `&name[..i]` for each match. -/
def ancestors : List Char → List (List Char)
  | [] => []
  | char :: rest =>
    (if char = '/' then [[]] else []) ++ (ancestors rest).map (char :: ·)

/-- `Request::validate`. -/
def Request.validate (request : Request) : Except RpcError Unit :=
  if request.sdkVersion ≠ 1 then .error (.params "sdk_version must be 1")
  else if request.files.entries = [] ∨ request.files.entries.length > 32 ∨
      (request.files.entries.map fun file => file.2.utf8ByteSize).sum > 128 * 1024 then
    .error (.params "source bundle exceeds limits")
  else if !validPath request.entry ∨ request.entry ∉ request.files ∨
      request.files.keys.any (fun name => !validPath name) then
    .error (.params "invalid source path or entry")
  else if request.files.keys.any fun name =>
      (ancestors name.toList).any fun directory => String.ofList directory ∈ request.files then
    .error (.params "source file/directory conflict")
  else .ok ()

section Laws

end Laws

end Spinfoam.Build
