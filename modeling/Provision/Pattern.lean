import Provision.Path

/-!
# Patterns of trails

A pattern names places in all entries of a list at once: its star stands for any position.
-/

set_option autoImplicit false

namespace Provision

/-- One step of a pattern. -/
inductive Pattern.Part where
  | key (name : String)
  | anyIndex
  deriving DecidableEq, Repr, Inhabited

/-- A sequence of steps, some of them left open. -/
structure Pattern where
  parts : List Pattern.Part
  deriving DecidableEq, Repr, Inhabited

namespace Pattern

/-- Whether a step fits a step of a pattern. -/
def Part.admits : Part → Segment → Bool
  | .key name, .key other => name = other
  | .anyIndex, .index _ => true
  | _, _ => false

/-- The text of a step. -/
def Part.text : Part → String
  | .key name => name
  | .anyIndex => "*"

/-- Reads a dotted text in which a star stands for any position. -/
def ofText (s : String) : Pattern :=
  if s.isEmpty then ⟨[]⟩
  else ⟨(Trail.pieces s.toList).map fun piece => if piece = "*" then .anyIndex else .key piece⟩

/-- The dotted text. -/
def text (p : Pattern) : String := ".".intercalate (p.parts.map Part.text)

/-- Whether the first steps of a trail fit. -/
def fitsStart (p : Pattern) (t : Trail) : Bool :=
  let rec go : List Part → Trail → Bool
    | [], _ => true
    | _ :: _, [] => false
    | part :: parts, s :: rest => part.admits s && go parts rest
  go p.parts t

/-- Whether a trail fits, step for step. -/
def fits (p : Pattern) (t : Trail) : Bool := p.parts.length = t.length && p.fitsStart t

end Pattern

end Provision
