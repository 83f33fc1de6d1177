import Provision.Word

/-!
# Paths

A place in a document is reached by keys and positions. Two documents are at hand, the one that is
read and the one that is made, so a path also says which of them it points into.

* `Trail.ofText`, `Trail.text`: the dotted text of a trail and its reading.
* `Trail.compare`: the order of trails, a prefix before what extends it.
-/

set_option autoImplicit false

namespace Provision

/-- One step into a document. -/
inductive Segment where
  | key (name : String)
  | index (position : Nat)
  deriving DecidableEq, Repr, Inhabited

namespace Segment

/-- The text of a step. -/
def text : Segment → String
  | .key name => name
  | .index position => toString position

/-- Keys come before positions, keys in the order of their characters, positions as numbers. -/
def compare : Segment → Segment → Ordering
  | .key a, .key b => if a < b then .lt else if a = b then .eq else .gt
  | .key _, .index _ => .lt
  | .index _, .key _ => .gt
  | .index a, .index b => if a < b then .lt else if a = b then .eq else .gt

/-- Reads one step: digits are a position if it fits 64 bits, everything else is a key. -/
def ofText (s : String) : Segment :=
  if !s.isEmpty && s.toList.all (·.isDigit) then
    let n := s.toList.foldl (fun n d => 10 * n + (d.toNat - 48)) 0
    if n < Word.count then .index n else .key s
  else .key s

end Segment

/-- The steps from the root of a document to a part of it. -/
abbrev Trail := List Segment

namespace Trail

/-- The text of a trail: a dollar sign for the root, and a dot before each step. -/
def text (t : Trail) : String := "$" ++ String.join (t.map fun s => "." ++ s.text)

/-- The pieces of a text between dots. -/
def pieces (s : List Char) : List String :=
  let rec go : List Char → List Char → List String
    | soFar, [] => [String.ofList soFar.reverse]
    | soFar, c :: rest =>
      if c = '.' then String.ofList soFar.reverse :: go [] rest else go (c :: soFar) rest
  go [] s

/-- Reads the text of a trail. The dollar sign and the dot after it may be missing. -/
def ofText (s : String) : Trail :=
  let cs := match s.toList with
    | '$' :: r => r
    | cs => cs
  let cs := match cs with
    | '.' :: r => r
    | cs => cs
  if cs.isEmpty then [] else (pieces cs).map Segment.ofText

/-- The order of trails, step by step. -/
def compare : Trail → Trail → Ordering
  | [], [] => .eq
  | [], _ :: _ => .lt
  | _ :: _, [] => .gt
  | a :: as, b :: bs => (a.compare b).then (compare as bs)

/-- What is left of a trail after a prefix of it. -/
def below? : (start : Trail) → Trail → Option Trail
  | [], t => some t
  | _ :: _, [] => none
  | a :: as, b :: bs => if a = b then below? as bs else none

/-- One step further by a key. -/
def key (t : Trail) (name : String) : Trail := t ++ [.key name]

/-- One step further by a position. -/
def index (t : Trail) (position : Nat) : Trail := t ++ [.index position]

/-- Several steps further, given as dotted text. -/
def dotted (t : Trail) (steps : String) : Trail := t ++ ofText steps

@[simp] theorem below?_append (start t : Trail) : below? start (start ++ t) = some t := by
  induction start with
  | nil => rfl
  | cons a as ih => simpa [below?] using ih

end Trail

/-- Which document a path points into: the one that is read, or the one that is made. -/
inductive Schema where
  | source
  | target
  deriving DecidableEq, Repr, Inhabited

namespace Schema

/-- The word for a schema. -/
def text : Schema → String
  | .source => "source"
  | .target => "target"

/-- The source comes before the target. -/
def compare : Schema → Schema → Ordering
  | .source, .target => .lt
  | .target, .source => .gt
  | _, _ => .eq

end Schema

/-- A place in one of the two documents. -/
structure Path where
  schema : Schema
  trail : Trail
  deriving DecidableEq, Repr, Inhabited

namespace Path

/-- A place in the document that is read. -/
def source (trail : Trail) : Path := ⟨.source, trail⟩

/-- A place in the document that is made. -/
def target (trail : Trail) : Path := ⟨.target, trail⟩

/-- Reads the text of a path. -/
def ofText (schema : Schema) (s : String) : Path := ⟨schema, .ofText s⟩

/-- The text of a path, which does not show its schema. -/
def text (p : Path) : String := p.trail.text

/-- One step further. -/
def append (p : Path) (s : Segment) : Path := ⟨p.schema, p.trail ++ [s]⟩

/-- The steps of the second path taken from the end of the first. -/
def join (p q : Path) : Path := ⟨p.schema, p.trail ++ q.trail⟩

/-- What is left after a path that leads to this one. -/
def below? (start p : Path) : Option Path :=
  if p.schema = start.schema then (start.trail.below? p.trail).map (⟨p.schema, ·⟩) else none

/-- The path moved below another, into whose document it then points. -/
def under (start p : Path) : Path := ⟨start.schema, start.trail ++ p.trail⟩

/-- The path without its last step. -/
def parent? (p : Path) : Option Path :=
  if p.trail.isEmpty then none else some ⟨p.schema, p.trail.dropLast⟩

/-- Paths are ordered by schema, then by their steps. -/
def compare (p q : Path) : Ordering := (p.schema.compare q.schema).then (p.trail.compare q.trail)

end Path

end Provision
