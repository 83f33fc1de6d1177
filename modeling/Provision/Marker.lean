/-!
# Markers

The place of a part of a document as a reader counts it: lines and columns from one, columns in
characters.
-/

set_option autoImplicit false

namespace Provision

/-- A stretch of a document. The end is the place behind its last character. -/
structure Marker where
  startLine : Nat
  startColumn : Nat
  stopLine : Nat
  stopColumn : Nat
  deriving DecidableEq, Repr, Inhabited

/-- A place without an extent. -/
def Marker.at (line column : Nat) : Marker := ⟨line, column, line, column⟩

end Provision
