/-!
# A place in a document

A document is read twice: once for its values, once for the places of its parts. The two readings
share their rules but for a few, and those few name the reading.

* `Cursor.skip`, `Cursor.skipBreak`: the two ways on, within a line and to the next.
-/

set_option autoImplicit false

namespace Provision.Yaml

/-- What a document is read for. The reading for values takes the line ends of all of Unicode; the
reading for places knows the two of ASCII. -/
inductive Reading where
  | values
  | places
  deriving DecidableEq, Repr

/-- A place: how many characters, line breaks, and characters of its line lie before it. -/
structure Mark where
  index : Nat
  line : Nat
  column : Nat
  deriving DecidableEq, Repr, Inhabited

/-- A text that is no document, and where that shows. -/
structure Malformed where
  mark : Mark
  deriving DecidableEq, Repr

/-- A place in a text with what lies ahead. -/
structure Cursor where
  rest : List Char
  mark : Mark
  /-- Only blanks lie between the place and the start of its line. -/
  fresh : Bool
  deriving Repr

namespace Cursor

/-- The start of a text. -/
def start (text : List Char) : Cursor := ⟨text, ⟨0, 0, 0⟩, true⟩

/-- The character `n` places ahead; past the end a NUL stands, which no document holds. -/
def peek (c : Cursor) (n : Nat) : Char := c.rest.getD n (Char.ofNat 0)

/-- The character at hand. -/
def char (c : Cursor) : Char := c.peek 0

/-- The column, for comparison with indentations. -/
def column (c : Cursor) : Int := c.mark.column

/-- Whether the text is read. -/
def atEnd (c : Cursor) : Bool := c.rest.isEmpty

/-- One character on within the line. -/
def skip (c : Cursor) : Cursor :=
  match c.rest with
  | [] => c
  | ch :: rest =>
    { rest, mark := ⟨c.mark.index + 1, c.mark.line, c.mark.column + 1⟩
      fresh := c.fresh && (ch = ' ' || ch = '\t') }

/-- Several characters on within the line. -/
def skipN (c : Cursor) : Nat → Cursor
  | 0 => c
  | n + 1 => c.skip.skipN n

/-- On to the next line, over the line break at hand. -/
def skipBreak (c : Cursor) : Cursor :=
  match c.rest with
  | [] => c
  | '\r' :: '\n' :: rest => ⟨rest, ⟨c.mark.index + 2, c.mark.line + 1, 0⟩, true⟩
  | _ :: rest => ⟨rest, ⟨c.mark.index + 1, c.mark.line + 1, 0⟩, true⟩

/-- On within the line while the character at hand is of a kind. -/
def skipWhile (p : Char → Bool) (c : Cursor) : Cursor :=
  let rec go : List Char → Cursor → Cursor
    | [], c => c
    | ch :: rest, c => if p ch then go rest c.skip else c
  go c.rest c

end Cursor

/-! ## Kinds of characters -/

/-- The end of the text. -/
def isEnd (c : Char) : Bool := c.toNat = 0

/-- A blank within a line. -/
def isBlank (c : Char) : Bool := c = ' ' || c = '\t'

/-- The end of a line. -/
def isBreak (r : Reading) (c : Char) : Bool :=
  c = '\n' || c = '\r' ||
    (r = .values && (c.toNat = 0x85 || c.toNat = 0x2028 || c.toNat = 0x2029))

/-- The end of a line or of the text. -/
def isBreakOrEnd (r : Reading) (c : Char) : Bool := isBreak r c || isEnd c

/-- A blank, or the end of a line or of the text. -/
def isSpaceOrEnd (r : Reading) (c : Char) : Bool := isBlank c || isBreakOrEnd r c

/-- A character that separates the parts of a flow collection. -/
def isFlow (c : Char) : Bool := c = ',' || c = '[' || c = ']' || c = '\x7b' || c = '\x7d'

/-- A letter or digit of a name, the dash or the underline. -/
def isWord (c : Char) : Bool := c.isAlphanum || c = '_' || c = '-'

/-- The characters a document may hold, by their numbers. -/
def isAllowed (c : Char) : Bool :=
  let n := c.toNat
  n == 0x09 || n == 0x0a || n == 0x0d || (0x20 ≤ n && n ≤ 0x7e) || n == 0x85 ||
    (0xa0 ≤ n && n ≤ 0xd7ff) || (0xe000 ≤ n && n ≤ 0xfffd) || 0x10000 ≤ n

namespace Cursor

/-- Over the line break at hand, with the text it stands for: a line feed, or the separator
itself. -/
def readBreak (c : Cursor) : List Char × Cursor :=
  let ch := c.char
  (if ch.toNat = 0x2028 || ch.toNat = 0x2029 then [ch] else ['\n'], c.skipBreak)

/-- Whether a line at hand opens or closes a document. -/
def atDocumentMark (r : Reading) (c : Cursor) : Bool :=
  c.mark.column = 0 && isSpaceOrEnd r (c.peek 3) &&
    ((c.char = '-' && c.peek 1 = '-' && c.peek 2 = '-') ||
      (c.char = '.' && c.peek 1 = '.' && c.peek 2 = '.'))

/-- Over a comment, up to the end of its line. -/
def skipComment (r : Reading) (c : Cursor) : Cursor := c.skipWhile fun ch => !isBreakOrEnd r ch

/-- What lies between a token and the end of its line, in the reading for places: whether there
was a tab, and whether there was a space. A comment needs a blank before it. -/
def skipToLineEnd (tabs : Bool) (c : Cursor) : Except Malformed (Bool × Bool × Cursor) :=
  let rec go : Nat → Bool → Bool → Cursor → Except Malformed (Bool × Bool × Cursor)
    | 0, tab, space, c => .ok (tab, space, c)
    | fuel + 1, tab, space, c =>
      if c.char = ' ' then go fuel tab true c.skip
      else if c.char = '\t' && tabs then go fuel true space c.skip
      else if c.char = '#' then
        if tab || space then go fuel tab space (c.skipComment .places) else .error ⟨c.mark⟩
      else .ok (tab, space, c)
  go (c.rest.length + 1) false false c

end Cursor

end Provision.Yaml
