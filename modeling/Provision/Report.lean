import Provision.Marker
import Provision.Problem

/-!
# Reports

The diagnostics found on the way, in the order they were found. Each is anchored at a path, and one
in the source may also have a place in its text.

* `Report.isFatal_append`: joining reports keeps their errors and adds none.
-/

set_option autoImplicit false

namespace Provision

/-- A diagnostic. -/
structure Entry where
  severity : Severity
  path : Path
  problem : Problem
  marker : Option Marker := none
  deriving DecidableEq, Repr, Inhabited

namespace Entry

/-- An error. -/
def error (path : Path) (problem : Problem) : Entry := ⟨.error, path, problem, none⟩

/-- A warning. -/
def warning (path : Path) (problem : Problem) : Entry := ⟨.warning, path, problem, none⟩

/-- Whether the entry is an error. -/
def isError (e : Entry) : Bool := e.severity = .error

/-- The entry on one line. -/
def text (e : Entry) : String :=
  let place := match e.marker with
    | some m => ", line " ++ toString m.startLine ++ " col " ++ toString m.startColumn
    | none => ""
  e.severity.text ++ " at " ++ e.path.text ++ place ++ ": " ++ e.problem.message

end Entry

/-- Diagnostics in the order they were found. -/
abbrev Report := List Entry

namespace Report

/-- An error at a place of the source. -/
def sourceError (trail : Trail) (problem : Problem) : Report := [.error (.source trail) problem]

/-- A warning at a place of the source. -/
def sourceWarning (trail : Trail) (problem : Problem) : Report := [.warning (.source trail) problem]

/-- Whether any entry is an error. -/
def isFatal (r : Report) : Bool := r.any Entry.isError

/-- Whether any entry is a warning. -/
def hasWarnings (r : Report) : Bool := r.any fun e => e.severity = .warning

/-- The entries, a line each. -/
def text (r : Report) : String := String.join (r.map fun e => e.text ++ "\n")

/-- Moves the entries of a document below a path into it. -/
def under (start : Path) (r : Report) : Report :=
  r.map fun e => if e.path.schema = start.schema then { e with path := start.under e.path } else e

/-- The entries that still point into the document that is made. -/
def targets (r : Report) : Report := r.filter fun e => e.path.schema = .target

@[simp] theorem isFatal_append (r s : Report) : isFatal (r ++ s) = (isFatal r || isFatal s) :=
  List.any_append

end Report

end Provision
