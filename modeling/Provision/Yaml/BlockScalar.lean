import Provision.Yaml.Folding
import Provision.Yaml.Token

/-!
# Block scalars

The lines below a `|` or `>` that are indented deeper than what surrounds them. The bar keeps line
breaks, the angle folds them; a sign after it says what becomes of the breaks at the end, a digit
how deep the text is indented.

* `readHeader`: the signs after the bar.
-/

set_option autoImplicit false

namespace Provision.Yaml

/-- What becomes of the line breaks after the text: one stays, none stays, or all stay. -/
inductive Chomping where
  | clip | strip | keep
  deriving DecidableEq, Repr

/-- The meaning of a sign. -/
def chomping? (c : Char) : Option Chomping :=
  if c = '+' then some .keep else if c = '-' then some .strip else none

/-- The digit at hand, zero if there is none. A digit zero is refused. -/
def readIncrement (c : Cursor) : Except Malformed (Nat × Cursor) :=
  if c.char.isDigit then
    if c.char = '0' then .error ⟨c.mark⟩ else .ok (c.char.toNat - 48, c.skip)
  else .ok (0, c)

/-- The sign and the digit after the bar, in either order. -/
def readHeader (c : Cursor) : Except Malformed (Chomping × Nat × Cursor) := do
  match chomping? c.char with
  | some chomp => do
    let (increment, c) ← readIncrement c.skip
    .ok (chomp, increment, c)
  | none => do
    let (increment, c) ← readIncrement c
    match (if increment = 0 then none else chomping? c.char) with
    | some chomp => .ok (chomp, increment, c.skip)
    | none => .ok (.clip, increment, c)

/-- Over the indentation of a line: up to `indent` spaces, or all of them where the indentation is
still open. -/
def skipIndent (indent : Option Nat) (c : Cursor) : Cursor :=
  let rec go : Nat → Cursor → Cursor
    | 0, c => c
    | fuel + 1, c =>
      if c.char = ' ' && indent.all (c.mark.column < ·) then go fuel c.skip else c
  go (c.rest.length + 1) c

/-- Over empty lines and the indentation of the first line that is not: the greatest column
reached, and the breaks passed. A tab may not stand in the indentation of the reading for
values. -/
def readEmptyLines (r : Reading) (indent : Option Nat) :
    Nat → Nat → List Char → Cursor → Except Malformed (Nat × List Char × Cursor)
  | 0, deepest, breaks, c => .ok (deepest, breaks, c)
  | fuel + 1, deepest, breaks, c =>
    let c := skipIndent indent c
    let deepest := max deepest c.mark.column
    if r = .values && c.char = '\t' && indent.all (c.mark.column < ·) then .error ⟨c.mark⟩
    else if isBreak r c.char then
      let (written, c) := c.readBreak
      readEmptyLines r indent fuel deepest (breaks ++ written) c
    else .ok (deepest, breaks, c)

/-- What is read of a block scalar: its text, the break after its last line, the breaks after
that. -/
structure BlockText where
  text : List Char
  last : List Char
  further : List Char
  /-- The last line began with a blank. -/
  indented : Bool

/-- The lines of a block scalar. Folding joins two lines with text at their very start. -/
def readBlockLines (r : Reading) (literal : Bool) (indent : Nat) :
    Nat → BlockText → Cursor → Except Malformed (BlockText × Cursor)
  | 0, b, c => .ok (b, c)
  | fuel + 1, b, c =>
    if c.mark.column ≠ indent || isEnd c.char then .ok (b, c)
    else if r = .places && indent = 0 && c.atDocumentMark r then .ok (b, c)
    else
      let indented := isBlank c.char
      let between :=
        if !literal && b.last.head? = some '\n' && !b.indented && !indented then
          (if b.further.isEmpty then [' '] else [])
        else b.last
      let after := c.skipWhile fun ch => !isBreakOrEnd r ch
      let line := c.rest.take (c.rest.length - after.rest.length)
      let text := b.text ++ between ++ b.further ++ line
      if isEnd after.char then .ok (⟨text, [], [], indented⟩, after)
      else do
        let (last, c) := after.readBreak
        let (_, further, c) ← readEmptyLines r (some indent) (c.rest.length + 1) 0 [] c
        readBlockLines r literal indent fuel ⟨text, last, further, indented⟩ c

/-- The text with the breaks at its end that the sign keeps. -/
def BlockText.chomped (b : BlockText) (chomp : Chomping) : List Char :=
  match chomp with
  | .strip => b.text
  | .clip => b.text ++ b.last
  | .keep => b.text ++ b.last ++ b.further

/-- The place after the line of the bar. -/
def skipHeaderLine (r : Reading) (c : Cursor) : Except Malformed Cursor := do
  let c ← match r with
    | .values =>
      let c := c.skipWhile isBlank
      pure (if c.char = '#' then c.skipComment r else c)
    | .places => do
      let (_, _, c) ← c.skipToLineEnd true
      pure c
  if isBreakOrEnd r c.char then .ok c else .error ⟨c.mark⟩

/-- A block scalar whose bar is at hand, inside text indented to `indent`, and the place after it.
In the reading for places it starts at its first character of text. -/
def readBlock (r : Reading) (literal : Bool) (indent : Int) (c : Cursor) :
    Except Malformed (Token × Cursor) := do
  let style := if literal then Style.literal else Style.folded
  let (chomp, increment, afterHeader) ← readHeader c.skip
  let lineEnd ← skipHeaderLine r afterHeader
  let c' := if isBreak r lineEnd.char then lineEnd.skipBreak else lineEnd
  if r = .places && c'.char = '\t' then .error ⟨c'.mark⟩
  else
    let fixed : Option Nat :=
      if increment = 0 then none else some (increment + indent.toNat)
    let (deepest, breaks, c') ← readEmptyLines r fixed (c'.rest.length + 1) 0 [] c'
    let least : Nat := match r with
      | .values => max 1 (indent + 1).toNat
      | .places => (indent + 1).toNat
    let depth := fixed.getD (max deepest least)
    match r with
    | .values =>
      let (b, after) ←
        readBlockLines r literal depth (c'.rest.length + 1) ⟨[], [], breaks, false⟩ c'
      .ok (⟨.scalar style (String.ofList (b.chomped chomp)), c.mark, after.mark⟩, after)
    | .places =>
      if isEnd c'.char then
        -- nothing but breaks follows the bar
        let text :=
          if chomp = .strip || c'.mark.line = c.mark.line then []
          else if chomp = .clip || breaks.isEmpty then ['\n']
          else breaks
        .ok (⟨.scalar style (String.ofList text), c.mark, c'.mark⟩, c')
      else if c'.mark.column < depth && indent < c'.column then .error ⟨c'.mark⟩
      else
        let (b, after) ←
          readBlockLines r literal depth (c'.rest.length + 1) ⟨[], [], breaks, false⟩ c'
        -- a last line without a break is read as if it had one
        let unended := isEnd after.char && max depth 1 ≤ after.mark.column && chomp ≠ .strip
        let b := if unended then { b with last := b.last ++ ['\n'] } else b
        .ok (⟨.scalar style (String.ofList (b.chomped chomp)), c'.mark, after.mark⟩, after)

end Provision.Yaml
