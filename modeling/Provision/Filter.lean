import Provision.Pattern
import Provision.Provenance

/-!
# Fields that are not supported

Some machines take only part of what a config can say. A filter names places of a config and says
what is found there if they have content.

* `applyAll`: what some filters find in a document.
-/

set_option autoImplicit false

namespace Provision

/-- A field that is not supported. -/
structure Filter where
  pattern : Pattern
  /-- The values that are not supported. -/
  catches : Json → Bool := fun _ => true
  severity : Severity := .error
  problem : Problem

namespace Filter

/-- The filter that forbids every value at some places. -/
def forbid (pattern : String) (problem : Problem) : Filter :=
  { pattern := .ofText pattern, problem }

/-- The filter that forbids some values at some places. -/
def forbidIf (pattern : String) (catches : Json → Bool) (problem : Problem) : Filter :=
  { pattern := .ofText pattern, catches, problem }

/-- The filter that warns of every value at some places. -/
def warn (pattern : String) (problem : Problem) : Filter :=
  { pattern := .ofText pattern, severity := .warning, problem }

/-- Whether a filter finds a value at a place. -/
def applies (f : Filter) (here : Trail) (x : Json) : Bool :=
  f.pattern.fits here && !x.isEmpty && f.catches x

/-- What filters find at one place. The document lies at `root` in a larger one. -/
def findHere (filters : List Filter) (root : Path) (here : Trail) (x : Json) : Report :=
  (filters.filter (·.applies here x)).map fun f =>
    ⟨f.severity, ⟨root.schema, root.trail ++ here⟩, f.problem, none⟩

mutual

/-- What filters find in a part of a document. -/
def applyAt (filters : List Filter) (root : Path) (here : Trail) : Json → Report
  | .arr items =>
    findHere filters root here (.arr items) ++ applyItems filters root here 0 items
  | .obj members =>
    findHere filters root here (.obj members) ++ applyMembers filters root here members
  | x => findHere filters root here x

/-- What filters find in items. -/
def applyItems (filters : List Filter) (root : Path) (here : Trail) :
    (position : Nat) → List Json → Report
  | _, [] => []
  | position, x :: rest =>
    applyAt filters root (here.index position) x ++
      applyItems filters root here (position + 1) rest

/-- What filters find in members. -/
def applyMembers (filters : List Filter) (root : Path) (here : Trail) :
    List (String × Json) → Report
  | [] => []
  | (k, x) :: rest =>
    applyAt filters root (here.key k) x ++ applyMembers filters root here rest

end

/-- What filters find in a document, in the order of the document and then of the filters. -/
def applyAll (filters : List Filter) (root : Path) (document : Json) : Report :=
  applyAt filters root [] document

end Filter

end Provision
