import Provision.Decode.Codec
import Provision.Decode.Mode
import Provision.Json.Printer
import Provision.Word

/-!
# Reading values from JSON

Values of a JSON document have no places. A list may stand for a record, its items for the fields
in their order.
-/

set_option autoImplicit false

namespace Provision.Decode

/-- What a JSON value is found to be. -/
def foundInJson : Json → Found
  | .null => .null
  | .bool b => .bool b
  | .num (.int n) => .integer n
  | .num (.float x) => .float (x.text Json.numberForm)
  | .str s => .text s
  | .arr _ => .sequence
  | .obj _ => .map

/-- A failure in a JSON value. -/
def inJson (m : Mismatch) : Failure := ⟨m, none, []⟩

/-- Refuses a JSON value of another kind. -/
def notInJson {α : Type} (expected : String) (x : Json) : Except Failure α :=
  .error (inJson (.kind (foundInJson x) expected))

/-- The view of JSON. -/
def jsonView : View Json where
  fail _ := inJson
  text
    | .str s => .ok s
    | x => notInJson "a string" x
  bool
    | .bool b => .ok b
    | x => notInJson "a boolean" x
  int
    | .num (.int n) =>
      if Word.holdsSigned n then .ok n else .error (inJson (.value (.integer n) "i64"))
    | x => notInJson "i64" x
  mode
    | .null => .ok none
    | .num (.int n) => if n < Word.half then .ok (some n) else .error (inJson (.modeRange n))
    | .str s => match modeOfText? s with
      | some n => .ok (some n)
      | none => .error (inJson (.value (.text s) "a file mode"))
    | x => notInJson "a file mode" x
  present
    | .null => none
    | x => some x
  items
    | .arr items => .ok items
    | x => notInJson "a sequence" x
  parts name
    | .obj members => .ok (.named (members.map fun (k, x) => (.str k, x)))
    | .arr items => .ok (.listed items)
    | x => notInJson ("struct " ++ name) x
  entries
    | .obj members => .ok (members.map fun (k, x) => (.str k, x))
    | x => notInJson "a map" x
  key
    | .str s => .ok (.name s)
    | x => notInJson "field identifier" x
  step
    | .str s => .key s
    | _ => .key "?"
  surplus _ := "fewer elements in array"

/-- Reads a JSON value of a form. -/
def Codec.ofJson {α : Type} (c : Codec α) (x : Json) : Except Failure α := c.read jsonView x

end Provision.Decode
