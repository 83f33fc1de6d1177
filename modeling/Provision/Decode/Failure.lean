import Provision.Marker
import Provision.Path
import Provision.Text.Quoted

/-!
# Why a value does not decode

A value that does not have the form of a type is refused with the first mismatch that shows. A
document with places also says where that is; a failure without a place names no path either.

* `Failure.message`: the words for a failure.
-/

set_option autoImplicit false

namespace Provision.Decode

/-- What stands where something else was expected. A missing value has a name of its own in each
kind of document. -/
inductive Found where
  | null
  | unit
  | bool (b : Bool)
  | integer (n : Int)
  | float (digits : String)
  | text (s : String)
  | sequence
  | map
  deriving DecidableEq, Repr, Inhabited

/-- The words for what stands there. -/
def Found.words : Found → String
  | .null => "null"
  | .unit => "unit value"
  | .bool b => "boolean \x60" ++ (if b then "true" else "false") ++ "\x60"
  | .integer n => "integer \x60" ++ toString n ++ "\x60"
  | .float digits => "floating point \x60" ++ digits ++ "\x60"
  | .text s => "string " ++ Text.quoted s
  | .sequence => "sequence"
  | .map => "map"

/-- How a value misses the form of its type. -/
inductive Mismatch where
  /-- A value of another kind. -/
  | kind (found : Found) (expected : String)
  /-- A value of the right kind that is none of the type. -/
  | value (found : Found) (expected : String)
  /-- A list with more items than fields, in the words of its kind of document. -/
  | surplus (length : Nat) (expected : String)
  /-- A list too short for the fields that must be given. -/
  | shortage (length : Nat) (record : String) (fields : Nat)
  | missing (field : String)
  | duplicate (field : String)
  /-- A value with a tag where none may be. -/
  | tagged
  | modeRange (mode : Int)
  deriving DecidableEq, Repr, Inhabited

/-- The words for a mismatch. -/
def Mismatch.message : Mismatch → String
  | .kind found expected => "invalid type: " ++ found.words ++ ", expected " ++ expected
  | .value found expected => "invalid value: " ++ found.words ++ ", expected " ++ expected
  | .surplus length expected => "invalid length " ++ toString length ++ ", expected " ++ expected
  | .shortage length record fields =>
    "invalid length " ++ toString length ++ ", expected struct " ++ record ++ " with " ++
      toString fields ++ (if fields = 1 then " element" else " elements")
  | .missing field => "missing field \x60" ++ field ++ "\x60"
  | .duplicate field => "duplicate field \x60" ++ field ++ "\x60"
  | .tagged => "untagged and internally tagged enums do not support enum input"
  | .modeRange mode => "file mode " ++ toString mode ++ " out of range"

/-- A mismatch and where it shows. -/
structure Failure where
  cause : Mismatch
  /-- The place in the document, if it has places. -/
  place : Option Marker
  /-- The steps from the root to the place. -/
  steps : Trail
  deriving DecidableEq, Repr, Inhabited

namespace Failure

/-- The failure as seen from one step nearer to the root. -/
def within (step : Segment) (f : Failure) : Failure := { f with steps := step :: f.steps }

/-- The text of the steps to a failure: names between dots and positions in brackets, and a dot
alone for the root. -/
def stepsText (steps : Trail) : String :=
  let rec go : Option String → Trail → String
    | parent, [] => parent.getD "."
    | parent, .key name :: rest => go (some ((parent.map (· ++ ".")).getD "" ++ name)) rest
    | parent, .index i :: rest => go (some (parent.getD "." ++ "[" ++ toString i ++ "]")) rest
  go none steps

/-- The words for a failure. The root needs no path, and the first character no place. -/
def message (f : Failure) : String :=
  match f.place with
  | none => f.cause.message
  | some m =>
    let path := stepsText f.steps
    (if path = "." then "" else path ++ ": ") ++ f.cause.message ++
      (if m.startLine = 1 ∧ m.startColumn = 1 then ""
        else " at line " ++ toString m.startLine ++ " column " ++ toString m.startColumn)

end Failure

/-- Reads something below a step. -/
def below {α : Type} (step : Segment) (r : Except Failure α) : Except Failure α :=
  r.mapError (Failure.within step)

end Provision.Decode
