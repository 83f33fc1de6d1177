import Provision.Yaml.Folding
import Provision.Yaml.Token

/-!
# Quoted scalars

Between single quotes a doubled quote stands for one; between double quotes a backslash opens an
escape, and at the end of a line it joins the next line on.

* `escaped`: the characters that an escape by letter stands for.
-/

set_option autoImplicit false

namespace Provision.Yaml

/-- The character that a backslash and a letter stand for. -/
def escaped (c : Char) : Option Char :=
  match c with
  | '0' => some (Char.ofNat 0)
  | 'a' => some (Char.ofNat 7)
  | 'b' => some (Char.ofNat 8)
  | 't' | '\t' => some '\t'
  | 'n' => some '\n'
  | 'v' => some (Char.ofNat 0x0b)
  | 'f' => some (Char.ofNat 0x0c)
  | 'r' => some '\r'
  | 'e' => some (Char.ofNat 0x1b)
  | ' ' => some ' '
  | '"' => some '"'
  | '/' => some '/'
  | '\\' => some '\\'
  | 'N' => some (Char.ofNat 0x85)
  | '_' => some (Char.ofNat 0xa0)
  | 'L' => some (Char.ofNat 0x2028)
  | 'P' => some (Char.ofNat 0x2029)
  | _ => none

/-- How many digits follow a letter that opens a character given by number. -/
def escapeWidth (c : Char) : Option Nat :=
  match c with
  | 'x' => some 2
  | 'u' => some 4
  | 'U' => some 8
  | _ => none

/-- The value of a hexadecimal digit. -/
def hexDigit? (c : Char) : Option Nat :=
  if '0' ≤ c ∧ c ≤ '9' then some (c.toNat - 48)
  else if 'a' ≤ c ∧ c ≤ 'f' then some (c.toNat - 87)
  else if 'A' ≤ c ∧ c ≤ 'F' then some (c.toNat - 55)
  else none

/-- The number that hexadecimal digits denote. -/
def hexNumber? (digits : List Char) : Option Nat :=
  digits.foldl (fun n c => do return (← n) * 16 + (← hexDigit? c)) (some 0)

/-- The character of an escape whose backslash is at hand. -/
def readEscape (c : Cursor) : Except Malformed (Char × Cursor) :=
  let letter := c.peek 1
  match escaped letter, escapeWidth letter with
  | some ch, _ => .ok (ch, c.skipN 2)
  | none, some width =>
    match hexNumber? ((List.range width).map fun i => c.peek (i + 2)) with
    | some n =>
      if n.isValidChar then .ok (Char.ofNat n, c.skipN (2 + width)) else .error ⟨c.mark⟩
    | none => .error ⟨c.mark⟩
  | none, none => .error ⟨c.mark⟩

/-- The characters of a quoted scalar up to a blank or its quote, in reverse onto those so far;
the flag tells of an escaped line break. -/
def readQuotedWord (r : Reading) (single : Bool) :
    Nat → List Char → Cursor → Except Malformed (List Char × Bool × Cursor)
  | 0, soFar, c => .ok (soFar, false, c)
  | fuel + 1, soFar, c =>
    let ch := c.char
    if isSpaceOrEnd r ch then .ok (soFar, false, c)
    else if single then
      if ch = '\'' then
        if c.peek 1 = '\'' then readQuotedWord r single fuel ('\'' :: soFar) (c.skipN 2)
        else .ok (soFar, false, c)
      else readQuotedWord r single fuel (ch :: soFar) c.skip
    else if ch = '"' then .ok (soFar, false, c)
    else if ch = '\\' then
      if isBreak r (c.peek 1) then .ok (soFar, true, c.skip.skipBreak)
      else do
        let (ch, c) ← readEscape c
        readQuotedWord r single fuel (ch :: soFar) c
    else readQuotedWord r single fuel (ch :: soFar) c.skip

/-- The blanks and breaks inside a quoted scalar. In the reading for places a tab may not indent a
line. -/
def readQuotedGap (r : Reading) (indent : Int) :
    Nat → Gap → Cursor → Except Malformed (Gap × Cursor)
  | 0, gap, c => .ok (gap, c)
  | fuel + 1, gap, c =>
    if isBlank c.char then
      if r = .places && gap.broken && c.char = '\t' && c.column < indent then .error ⟨c.mark⟩
      else readQuotedGap r indent fuel (gap.blank c.char) c.skip
    else if isBreak r c.char then
      let (written, c) := c.readBreak
      readQuotedGap r indent fuel (gap.lineBreak written) c
    else .ok (gap, c)

/-- The text of a quoted scalar in reverse, and its closing quote. In the reading for places its
lines are indented at least as far as `indent`. -/
def readQuotedPieces (r : Reading) (single : Bool) (indent : Int) :
    Nat → List Char → Cursor → Except Malformed (List Char × Cursor)
  | 0, _, c => .error ⟨c.mark⟩
  | fuel + 1, soFar, c =>
    if c.atDocumentMark r || isEnd c.char then .error ⟨c.mark⟩
    else if r = .places && c.column < indent then .error ⟨c.mark⟩
    else do
      let (soFar, joined, c) ← readQuotedWord r single (c.rest.length + 1) soFar c
      if c.char = (if single then '\'' else '"') then .ok (soFar, c)
      else do
        let (gap, c) ←
          readQuotedGap r indent (c.rest.length + 1) (if joined then Gap.joined else Gap.none) c
        readQuotedPieces r single indent fuel (gap.text.reverse ++ soFar) c

/-- What may stand after a quoted scalar in the reading for places: the end of the line, a colon
where the scalar can be a key, or a character of the flow collection around it. -/
def quotedEnds (flow sameLine : Bool) (ch : Char) : Bool :=
  isBreakOrEnd .places ch || (ch = ':' && (flow || sameLine)) ||
    (flow && (ch = ',' || ch = ']' || ch = '\x7d'))

/-- A quoted scalar whose opening quote is at hand, and the place after it. -/
def readQuoted (r : Reading) (flow single : Bool) (indent : Int) (c : Cursor) :
    Except Malformed (Token × Cursor) := do
  let (reversed, close) ← readQuotedPieces r single indent (c.rest.length + 1) [] c.skip
  let after := close.skip
  let style := if single then Style.singleQuoted else Style.doubleQuoted
  let token := ⟨.scalar style (String.ofList reversed.reverse), c.mark, after.mark⟩
  match r with
  | .values => .ok (token, after)
  | .places =>
    let (_, _, after) ← after.skipToLineEnd true
    if quotedEnds flow (c.mark.line = after.mark.line) after.char then .ok (token, after)
    else .error ⟨after.mark⟩

end Provision.Yaml
