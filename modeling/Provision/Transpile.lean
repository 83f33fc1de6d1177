import Provision.Header
import Provision.Variant.Config
import Provision.Yaml.Tree

/-!
# From a document to a document

A document is read for its header, for its values and for its places, checked, translated, and
checked once more. Whatever is found is reported with its place in the document, and only a config
without errors is written.

* `decode`: the config of a document, and the keys in it that mean nothing.
* `transpile`: the text of the document that is made, or why there is none.
-/

set_option autoImplicit false

namespace Provision

open Provision.Text (Bytes)
open Yaml (Datum)

/-- How a document is made. -/
structure Request where
  /-- Whether the result is indented. -/
  pretty : Bool := false
  /-- Whether warnings and keys that mean nothing are refused. -/
  strict : Bool := false
  /-- Whether a config is given without its wrapper. -/
  raw : Bool := false

namespace Report

/-- Gives each entry about the source a place in its text, unless it has one. -/
def located (tree : Yaml.Tree) (r : Report) : Report :=
  r.map fun e =>
    if e.marker.isNone && e.path.schema = .source then
      { e with marker := some (tree.markerFor e.path.trail) }
    else e

end Report

/-! ## Reading -/

/-- An entry about a key that means nothing. -/
def unusedKey (strict : Bool) (here : Trail) (key : String) (marker : Marker) : Entry :=
  ⟨if strict then .error else .warning, .source (here.key key), .unusedKey key, some marker⟩

mutual

/-- The keys of a part that are not in what was read of it. -/
def unused (strict : Bool) (here : Trail) : Yaml.Tree → Json → Report
  | .map entries _, .obj members => unusedEntries strict here entries members
  | .sequence items _, .arr values => unusedItems strict here 0 items values
  | _, _ => []

/-- The keys of entries that are not among what was read. -/
def unusedEntries (strict : Bool) (here : Trail) :
    List (String × Marker × Yaml.Tree) → List (String × Json) → Report
  | [], _ => []
  | (key, marker, t) :: rest, members =>
    (match Json.lookup key members with
      | some x => unused strict (here.key key) t x
      | none => [unusedKey strict here key marker]) ++
    unusedEntries strict here rest members

/-- The keys of items that are not in what was read of them. -/
def unusedItems (strict : Bool) (here : Trail) :
    (position : Nat) → List Yaml.Tree → List Json → Report
  | _, [], _ | _, _, [] => []
  | position, t :: trees, x :: values =>
    unused strict (here.index position) t x ++ unusedItems strict here (position + 1) trees values

end

/-- The config of a document whose places are known, and what was found in it. -/
def decode (variant : Variant) (strict : Bool) (tree : Yaml.Tree) (bytes : Bytes) :
    Option Config × Report :=
  match Datum.ofBytes? bytes with
  | none => (none, .sourceError [] .malformed)
  | some document => match Config.ofDatum variant document with
    | .error failure => (none, [⟨.error, .source [], .undecodable failure, failure.place⟩])
    | .ok config => (some config, unused strict [] tree config.json)

/-! ## The whole way -/

/-- Why there is no result. -/
inductive Refusal where
  /-- What the document is cannot be told. -/
  | dispatch (problem : Problem) (report : Report)
  | invalidSource (report : Report)
  | invalidResult (report : Report)
  deriving Repr

namespace Refusal

/-- What was found. -/
def report : Refusal → Report
  | .dispatch _ r | .invalidSource r | .invalidResult r => r

/-- The words for a refusal. -/
def message : Refusal → String
  | .dispatch problem _ => problem.message
  | .invalidSource _ => "source config is invalid"
  | .invalidResult _ => "config generated was invalid"

end Refusal

/-- What is made of a document. -/
structure Transpiled where
  output : String
  report : Report
  /-- The parts without an origin, if they were looked for. -/
  uncovered : List Trail := []
  deriving Repr

/-- A document as text; an indented one ends with a line end. -/
def render (pretty : Bool) (document : Document) : String :=
  if pretty then document.json.pretty 0 ++ "\n" else document.json.compact

/-- What is made of a document of which the header and the places are known. -/
def transpileAs (spec : Spec) (w : Workspace) (request : Request) (tree : Yaml.Tree)
    (bytes : Bytes) : Except Refusal Transpiled :=
  let (config, found) := decode spec.variant request.strict tree bytes
  match config with
  | none => .error (.invalidSource (found.located tree))
  | some config =>
    let checked := found ++ config.validate
    if checked.isFatal then .error (.invalidSource (checked.located tree))
    else
      let made := config.translate spec w request.raw
      let report := checked ++ made.report
      match made.value with
      | none => .error (.invalidSource ((report.traced made.provenance).located tree))
      | some document =>
        if report.isFatal then
          .error (.invalidSource ((report.traced made.provenance).located tree))
        else
          let flaws := document.validate
          let all := ((report ++ flaws).traced made.provenance).located tree
          if flaws.isFatal then .error (.invalidResult all)
          else if request.strict && !all.isEmpty then .error (.invalidSource all)
          else .ok
            { output := render request.pretty document
              report := all
              uncovered :=
                if w.options.debug then made.provenance.missing document.json else [] }

/-- A refusal for a problem at a place of the source. -/
def dispatchError (tree : Yaml.Tree) (problem : Problem) (trail : Trail) : Refusal :=
  .dispatch problem ((Report.sourceError trail problem).located tree)

/-- What is made of a document. -/
def transpile (w : Workspace) (request : Request) (bytes : Bytes) : Except Refusal Transpiled :=
  let tree := Yaml.Tree.ofBytes bytes
  match Header.ofBytes? bytes with
  | .error (problem, trail) => .error (dispatchError tree problem trail)
  | .ok header => match Spec.lookup header.variant header.version with
    | .error problem => .error (dispatchError tree problem versionTrail)
    | .ok spec => transpileAs spec w request tree bytes

end Provision
