import Provision.Yaml.Cursor

/-!
# Line folding

Inside a scalar that runs over several lines a single line break reads as a space, and every
further one as a line feed; the blanks around the breaks vanish.

* `Gap.text`: what stands for the blanks and breaks between two pieces of text.
-/

set_option autoImplicit false

namespace Provision.Yaml

/-- The blanks and line breaks met since the last piece of text. -/
structure Gap where
  /-- A line break was met. -/
  broken : Bool
  blanks : List Char
  first : List Char
  further : List Char
  deriving Repr, Inhabited

namespace Gap

/-- Nothing met. -/
def none : Gap := ⟨false, [], [], []⟩

/-- The line goes on below without any text of its own, as after an escaped line break. -/
def joined : Gap := ⟨true, [], [], []⟩

/-- One more blank; after a break it does not count. -/
def blank (g : Gap) (c : Char) : Gap :=
  if g.broken then g else { g with blanks := g.blanks ++ [c] }

/-- One more line break; it discards the blanks before it. -/
def lineBreak (g : Gap) (written : List Char) : Gap :=
  if g.broken then { g with further := g.further ++ written }
  else { g with broken := true, blanks := [], first := written }

/-- The text of the gap. -/
def text (g : Gap) : List Char :=
  if !g.broken then g.blanks
  else if g.first.head? = some '\n' then (if g.further.isEmpty then [' '] else g.further)
  else g.first ++ g.further

end Gap

end Provision.Yaml
