import Provision.Decode.Codec
import Provision.Decode.Mode
import Provision.Word
import Provision.Yaml.Datum

/-!
# Reading values from YAML

There are two views. In the direct one a field decides what its scalar is: any scalar is a text,
and an empty one may also be an empty list or record. Failures have places there. In the resolved
one a scalar decides for itself whether it is a text, and failures show no place; there a list may
stand for a record, and a whole number as a key for the position of a field.

* `readDocument`: a record whose own fields are read directly and whose sections are resolved.
-/

set_option autoImplicit false

namespace Provision.Decode

open Yaml (Datum ScalarValue)

/-- Floating point numbers are always in positional form. -/
def floatForm : Binary64.TextForm := ⟨none, none, []⟩

/-- What the value of a scalar is found to be. -/
def foundInScalar : ScalarValue → Found
  | .null => .unit
  | .bool b => .bool b
  | .int n => .integer n
  | .float x => .float (x.text floatForm)
  | .infinity negative => .float (if negative then "-inf" else "inf")
  | .nan => .float "NaN"
  | .text s => .text s

/-- The value of a scalar. A scalar that does not fit its tag is no part of a sound document. -/
def scalarValue (tag : Option String) (style : Yaml.Style) (s : String) : ScalarValue :=
  (ScalarValue.ofScalar? tag style s).getD (.text s)

/-- What a value is found to be. -/
def foundInYaml : Datum → Found
  | .scalar _ tag style s _ => foundInScalar (scalarValue tag style s)
  | .sequence _ _ _ => .sequence
  | .mapping _ _ _ => .map

/-- The place of a value. -/
def placeOf (x : Datum) : Marker := .at (x.mark.line + 1) (x.mark.column + 1)

/-! ## The direct view -/

/-- A failure at a value. -/
def atValue (x : Datum) (m : Mismatch) : Failure := ⟨m, some (placeOf x), []⟩

/-- Refuses a value of another kind. -/
def notAtValue {α : Type} (expected : String) (x : Datum) : Except Failure α :=
  .error (atValue x (.kind (foundInYaml x) expected))

/-- The step to the value of a key. Only a scalar that is written out has a name in it. -/
def stepTo : Datum → Segment
  | .scalar _ _ _ s false => .key s
  | _ => .key "?"

/-- An empty plain scalar. -/
def isBlankScalar : Datum → Bool
  | .scalar _ _ .plain s _ => s.isEmpty
  | _ => false

/-- Whether a scalar is read for its kind: a plain one is, and a literal one with the kind's tag. -/
def readsAs (kind : String) (tag : Option String) (style : Yaml.Style) : Bool :=
  style = .plain || (style = .literal && tag = some (ScalarValue.coreTag kind))

/-- The direct view. -/
def directView : View Datum where
  fail := atValue
  text
    | .scalar _ _ _ s _ => .ok s
    | x => notAtValue "a string" x
  bool x := match x with
    | .scalar _ tag style s _ => match ScalarValue.bool? s with
      | some b => if readsAs "bool" tag style then .ok b else notAtValue "a boolean" x
      | none => notAtValue "a boolean" x
    | _ => notAtValue "a boolean" x
  int x := match x with
    | .scalar _ tag style s _ =>
      match (ScalarValue.int? s).filter Word.holdsSigned with
      | some n => if readsAs "int" tag style then .ok n else notAtValue "i64" x
      | none => notAtValue "i64" x
    | _ => notAtValue "i64" x
  mode x := notAtValue "a file mode" x
  present x := match x with
    | .scalar _ tag .plain s _ =>
      let absent := match tag with
        | none => s.isEmpty || ScalarValue.isNullWord s
        | some t => t = ScalarValue.coreTag "null" && ScalarValue.isNullWord s
      if absent then none else some x
    | _ => some x
  items x := match x with
    | .sequence _ _ items => .ok items
    | _ => if isBlankScalar x then .ok [] else notAtValue "a sequence" x
  parts name x := match x with
    | .mapping _ _ entries => .ok (.named entries)
    | _ => if isBlankScalar x then .ok (.named []) else notAtValue ("struct " ++ name) x
  entries x := match x with
    | .mapping _ _ entries => .ok entries
    | _ => if isBlankScalar x then .ok [] else notAtValue "a map" x
  key
    | .scalar _ _ _ s _ => .ok (.name s)
    | x => notAtValue "field identifier" x
  step := stepTo
  surplus _ := "no elements"

/-! ## The resolved view -/

/-- A failure of resolved values. -/
def resolvedFailure (m : Mismatch) : Failure := ⟨m, none, []⟩

/-- Refuses a resolved value of another kind. -/
def notResolved {α : Type} (expected : String) (x : Datum) : Except Failure α :=
  .error (resolvedFailure (.kind (foundInYaml x) expected))

/-- The resolved view. -/
def resolvedView : View Datum where
  fail _ := resolvedFailure
  text x := match foundInYaml x with
    | .text s => .ok s
    | _ => notResolved "a string" x
  bool x := match foundInYaml x with
    | .bool b => .ok b
    | _ => notResolved "a boolean" x
  int x := match foundInYaml x with
    | .integer n =>
      if n < Word.half then .ok n else .error (resolvedFailure (.value (.integer n) "i64"))
    | _ => notResolved "i64" x
  mode x := match foundInYaml x with
    | .unit => .ok none
    | .integer n => if n < Word.half then .ok (some n) else .error (resolvedFailure (.modeRange n))
    | .text s => match modeOfText? s with
      | some n => .ok (some n)
      | none => .error (resolvedFailure (.value (.text s) "a file mode"))
    | _ => notResolved "a file mode" x
  present x := match foundInYaml x with
    | .unit => none
    | _ => some x
  items
    | .sequence _ _ items => .ok items
    | x => notResolved "a sequence" x
  parts name
    | .mapping _ _ entries => .ok (.named entries)
    | .sequence _ _ items => .ok (.listed items)
    | x => notResolved ("struct " ++ name) x
  entries
    | .mapping _ _ entries => .ok entries
    | x => notResolved "a map" x
  key x := match foundInYaml x with
    | .text s => .ok (.name s)
    | .integer n => if 0 ≤ n then .ok (.number n.toNat) else notResolved "field identifier" x
    | _ => notResolved "field identifier" x
  step := stepTo
  surplus fields := toString fields ++ (if fields = 1 then " element" else " elements") ++
    " in sequence"

/-! ## Documents with sections -/

mutual

/-- The first value inside a section that stands for a case: a section is resolved without knowing
any. -/
def findCase : Datum → Option Failure
  | .scalar m tag style s copied =>
    if (Datum.caseName tag).isSome then some (atValue (.scalar m tag style s copied) .tagged)
    else none
  | .sequence m tag items =>
    if (Datum.caseName tag).isSome then some (atValue (.sequence m tag items) .tagged)
    else findCaseItems 0 items
  | .mapping m tag entries =>
    if (Datum.caseName tag).isSome then some (atValue (.mapping m tag entries) .tagged)
    else findCaseEntries entries

/-- The first such value among items. -/
def findCaseItems : (position : Nat) → List Datum → Option Failure
  | _, [] => none
  | position, x :: rest =>
    ((findCase x).map (·.within (.index position))).orElse fun _ =>
      findCaseItems (position + 1) rest

/-- The first such value among entries. -/
def findCaseEntries : List (Datum × Datum) → Option Failure
  | [] => none
  | (k, x) :: rest =>
    (findCase k).orElse fun _ =>
      ((findCase x).map (·.within (stepTo k))).orElse fun _ => findCaseEntries rest

end

/-- Reads a document that is one record: its own fields directly and at once, the other entries
resolved and after them. A failure in a section is one of the whole document. -/
def readDocument {σ : Type} (own sections : List (RecordField σ)) (empty : σ) (root : Datum) :
    Except Failure σ := do
  let entries ← directView.entries root
  let read (state : (σ × List String) × List (Datum × Datum)) (entry : Datum × Datum) :
      Except Failure ((σ × List String) × List (Datum × Datum)) := do
    let key ← directView.key entry.1
    match RecordField.find? own key with
    | some _ =>
      let r ← RecordField.readEntry directView own root state.1 entry
      .ok (r, state.2)
    | none =>
      match findCase entry.2 with
      | some f => .error (f.within (stepTo entry.1))
      | none => .ok (state.1, entry :: state.2)
  let ((r, _), rest) ← entries.foldlM read ((empty, []), [])
  let readSection (state : σ × List String) (entry : Datum × Datum) :
      Except Failure (σ × List String) := do
    let key ← directView.key entry.1
    RecordField.readKeyed resolvedView sections root state key entry
  match rest.reverse.foldlM readSection (r, []) with
  | .ok (r, _) => .ok r
  | .error f => .error ⟨f.cause, some (placeOf root), []⟩

end Provision.Decode
