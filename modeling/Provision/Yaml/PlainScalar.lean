import Provision.Yaml.Folding
import Provision.Yaml.Token

/-!
# Plain scalars

A scalar without quotes ends at a comment, at a colon before a blank, at the end of its
indentation, and inside a flow collection at a character of the collection.
-/

set_option autoImplicit false

namespace Provision.Yaml

/-- Whether the character at hand goes on a plain scalar. -/
def Cursor.continuesPlain (r : Reading) (flow : Bool) (c : Cursor) : Bool :=
  let ch := c.char
  if isSpaceOrEnd r ch then false
  else if ch = ':' then
    !(isSpaceOrEnd r (c.peek 1) || (flow && r = .places && isFlow (c.peek 1)))
  else !(flow && isFlow ch)

/-- The characters of a plain scalar up to a blank or its end. The reading for values refuses a
colon right before a character of the flow collection or a question mark. -/
def readPlainWord (r : Reading) (flow : Bool) :
    Nat → List Char → Cursor → Except Malformed (List Char × Cursor)
  | 0, soFar, c => .ok (soFar, c)
  | fuel + 1, soFar, c =>
    if c.continuesPlain r flow then
      if flow && r = .values && c.char = ':' && (isFlow (c.peek 1) || c.peek 1 = '?') then
        .error ⟨c.mark⟩
      else readPlainWord r flow fuel (c.char :: soFar) c.skip
    else .ok (soFar, c)

/-- The blanks and breaks after a piece of a plain scalar. A tab may not indent a line. -/
def readPlainGap (r : Reading) (indent : Int) :
    Nat → Gap → Cursor → Except Malformed (Gap × Cursor)
  | 0, gap, c => .ok (gap, c)
  | fuel + 1, gap, c =>
    if isBlank c.char then
      if gap.broken && c.char = '\t' && c.column < indent then
        match r with
        | .values => .error ⟨c.mark⟩
        | .places => do
          -- a line of blanks alone may hold one; a comment on it takes the line break back
          let (_, _, c') ← c.skipToLineEnd true
          let gap := { gap with broken := c'.fresh }
          if isBreakOrEnd r c'.char then readPlainGap r indent fuel gap c' else .error ⟨c.mark⟩
      else readPlainGap r indent fuel (gap.blank c.char) c.skip
    else if isBreak r c.char then
      let (written, c) := c.readBreak
      readPlainGap r indent fuel (gap.lineBreak written) c
    else .ok (gap, c)

/-- A plain scalar in pieces: its text in reverse, the gap after it, and the end of its last
piece. -/
def readPlainPieces (r : Reading) (flow : Bool) (indent : Int) :
    Nat → List Char → Gap → Mark → Cursor →
      Except Malformed (List Char × Gap × Mark × Cursor)
  | 0, soFar, gap, stop, c => .ok (soFar, gap, stop, c)
  | fuel + 1, soFar, gap, stop, c =>
    if c.atDocumentMark r || c.char = '#' then .ok (soFar, gap, stop, c)
    else if r = .places && flow && c.char = '-' && isFlow (c.peek 1) then .error ⟨c.mark⟩
    else do
      let (piece, c') ← readPlainWord r flow (c.rest.length + 1) [] c
      let (soFar, gap, stop) :=
        if piece.isEmpty then (soFar, gap, stop)
        else (piece ++ (gap.text.reverse ++ soFar), Gap.none, c'.mark)
      if !(isBlank c'.char || isBreak r c'.char) then .ok (soFar, gap, stop, c')
      else do
        let (gap, c') ← readPlainGap r indent (c'.rest.length + 1) gap c'
        if !flow && c'.column < indent then .ok (soFar, gap, stop, c')
        else readPlainPieces r flow indent fuel soFar gap stop c'

/-- A plain scalar: its token, whether a line break follows its text, and the place after it. Its
lines are indented at least as far as `indent`. -/
def readPlain (r : Reading) (flow : Bool) (indent : Int) (c : Cursor) :
    Except Malformed (Token × Bool × Cursor) := do
  if r = .places && flow && c.column < indent then .error ⟨c.mark⟩
  else
    let (reversed, gap, stop, c') ←
      readPlainPieces r flow indent (c.rest.length + 1) [] Gap.none c.mark c
    if r = .places && reversed.isEmpty then .error ⟨c.mark⟩
    else .ok (⟨.scalar .plain (String.ofList reversed.reverse), c.mark, stop⟩, gap.broken, c')

end Provision.Yaml
