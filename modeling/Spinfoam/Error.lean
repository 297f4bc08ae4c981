import Spinfoam.Json.Value

/-!
# Errors

`RpcError` is what a control request answers with, the negative numbers are what
a helper returns to its guest. A long message is cut at a character boundary.
-/

namespace Spinfoam

open Spinfoam.Json

/-- `str::is_char_boundary`, on the characters of the string. -/
def isCharBoundary : List Char → Nat → Bool
  | _, 0 => true
  | [], _ + 1 => false
  | char :: rest, index + 1 =>
    decide (char.utf8Size ≤ index + 1) && isCharBoundary rest (index + 1 - char.utf8Size)

/-- The backward scan for a character boundary. -/
def boundaryBelow (chars : List Char) : Nat → Nat
  | 0 => 0
  | index + 1 => if isCharBoundary chars (index + 1) then index + 1 else boundaryBelow chars index

/-- The characters that lie within the first bytes of a string. -/
def takeBytes : List Char → Nat → List Char
  | [], _ => []
  | char :: rest, bytes =>
    if char.utf8Size ≤ bytes then char :: takeBytes rest (bytes - char.utf8Size) else []

structure RpcError where
  code : Int
  message : String
  data : Value
deriving DecidableEq

namespace RpcError

/-- `RpcError::new`. -/
def new (code : Int) (kind message : String) : RpcError where
  code := code
  message :=
    if message.utf8ByteSize > 4096 then
      String.ofList (takeBytes message.toList (boundaryBelow message.toList 4096))
    else message
  data := .object [("kind", .string kind)]

def params (message : String) : RpcError := new (-32602) "INVALID_PARAMS" message
def missing : RpcError := new (-32004) "OBJECT_NOT_FOUND" "object does not exist"
def busy (message : String) : RpcError := new (-32001) "BUSY" message

/-- The serialization of an error. -/
def toValue (error : RpcError) : Value :=
  .object [("code", .number (.int error.code)), ("data", error.data),
    ("message", .string error.message)]

end RpcError

abbrev RpcResult := Except RpcError Value

/-- The statuses a helper returns to its guest. -/
abbrev Status := Int

namespace Status

def invalid : Status := -1
def limit : Status := -2
def timeout : Status := -3
def denied : Status := -4
def hostError : Status := -5
def closed : Status := -6

end Status

end Spinfoam
