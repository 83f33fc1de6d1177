import Provision.Yaml.ScalarValue

/-!
# Writing lists of texts

A text is written plainly where it reads back as itself. What would read back as something else
stands in quotes; several lines stand below each other where that is possible.

* `printItems`: a list of texts.
-/

set_option autoImplicit false

namespace Provision.Yaml.Printer

/-- How a text is written. -/
inductive Form where
  | plain
  | single
  | double
  | literal
  deriving DecidableEq, Repr

/-- The characters that end a line. -/
def endsLine (c : Char) : Bool :=
  c = '\n' || c = '\r' || c.toNat = 0x85 || c.toNat = 0x2028 || c.toNat = 0x2029

/-- The characters that are written as they are. -/
def isPrintable (c : Char) : Bool :=
  let n := c.toNat
  n = 10 || (0x20 ≤ n && n ≤ 0x7e) || (0xa0 ≤ n && n ≤ 0xd7ff) ||
    (0xe000 ≤ n && n ≤ 0xfffd && n ≠ 0xfeff) || 0x10000 ≤ n

/-- Whether a character separates words, or none follows. -/
def isGap (c : Option Char) : Bool := c.all fun c => c = ' ' || c = '\t' || endsLine c

/-- Whether a text has a sign inside that would be read as a mark; `last` is the character before
it. -/
def hasMark : (last : Char) → List Char → Bool
  | _, [] => false
  | last, c :: rest =>
    (c = ':' && isGap rest.head?) || (c = '#' && isGap (some last)) || hasMark c rest

/-- Whether a text starts with what would be read as a mark, or has one inside. -/
def hasIndicator (s : List Char) : Bool :=
  match s with
  | [] => false
  | c :: rest =>
    "#,[]\x7b\x7d&*!|>'\"%@\x60".toList.contains c ||
      ((c = '?' || c = ':' || c = '-') && isGap rest.head?) ||
      s.take 3 = ['-', '-', '-'] || s.take 3 = ['.', '.', '.'] || hasMark c rest

/-- Whether a pair of neighbours occurs in a text. -/
def hasPair (first second : Char → Bool) : List Char → Bool
  | a :: b :: rest => (first a && second b) || hasPair first second (b :: rest)
  | _ => false

/-- The form in which a text can be written if one is asked for. -/
def allowed (wanted : Form) (s : List Char) : Form :=
  let isSpace (c : Char) : Bool := c = ' '
  let spaceBreak := hasPair isSpace endsLine s
  let special := spaceBreak || !s.all isPrintable
  let edge := fun c => isSpace c || endsLine c
  let plain := !(s.head?.any edge || s.getLast?.any edge || special || s.any endsLine ||
    hasIndicator s)
  let single := !(hasPair endsLine isSpace s || special)
  match wanted with
  | .plain => if plain then .plain else if single then .single else .double
  | .single => if single then .single else .double
  | .literal => if s.isEmpty || s.getLast?.any isSpace || special then .double else .literal
  | .double => .double

/-- The form of a text. -/
def formOf (s : String) : Form :=
  let wanted := if s.toList.contains '\n' then Form.literal
    else if ScalarValue.isPaddedDigits s.toList then .single
    else match ScalarValue.ofPlain s with
      | .text _ => .plain
      | _ => .single
  allowed wanted s.toList

/-- A text between single quotes, in which quotes are doubled. What follows a line end inside is
indented. -/
def single (s : List Char) : List Char :=
  let rec go : (afterBreak : Bool) → List Char → List Char
    | afterBreak, [] => if afterBreak then [' ', ' '] else []
    | afterBreak, c :: rest =>
      if endsLine c then c :: go true rest
      else (if afterBreak then [' ', ' '] else []) ++ (if c = '\'' then [c, c] else [c]) ++
        go false rest
  '\'' :: (go false s ++ ['\''])

/-- A number in upper-case digits of base 16. -/
def hex (width n : Nat) : List Char :=
  let digits := (Nat.toDigits 16 n).map Char.toUpper
  List.replicate (width - digits.length) '0' ++ digits

/-- A character between double quotes. -/
def escape (c : Char) : List Char :=
  let n := c.toNat
  if c = '"' then ['\\', '"']
  else if c = '\\' then ['\\', '\\']
  else if isPrintable c && !endsLine c then [c]
  else match n with
    | 0 => ['\\', '0']
    | 7 => ['\\', 'a']
    | 8 => ['\\', 'b']
    | 9 => ['\\', 't']
    | 10 => ['\\', 'n']
    | 11 => ['\\', 'v']
    | 12 => ['\\', 'f']
    | 13 => ['\\', 'r']
    | 27 => ['\\', 'e']
    | 0x85 => ['\\', 'N']
    | 0x2028 => ['\\', 'L']
    | 0x2029 => ['\\', 'P']
    | _ => if n ≤ 0xff then '\\' :: 'x' :: hex 2 n else '\\' :: 'u' :: hex 4 n

/-- The marks behind the sign of a literal: for a blank at the start, and for line ends at the end
unless there is exactly one. -/
def literalMarks (s : List Char) : List Char :=
  (if s.head?.any fun c => c = ' ' || endsLine c then ['2'] else []) ++
    match s.reverse with
    | [] => ['-']
    | last :: before =>
      if !endsLine last then ['-']
      else if before.head?.all endsLine then ['+'] else []

/-- The lines of a literal, indented where they are not empty. -/
def literalLines (s : List Char) : List Char :=
  let rec go : (atStart : Bool) → List Char → List Char
    | _, [] => []
    | atStart, c :: rest =>
      if endsLine c then c :: go true rest
      else (if atStart then [' ', ' ', c] else [c]) ++ go false rest
  go true s

/-- A text as an item of a list. -/
def printItem (s : String) : String :=
  let cs := s.toList
  let scalar := match formOf s with
    | .plain => cs
    | .single => single cs
    | .double => '"' :: (cs.flatMap escape ++ ['"'])
    | .literal => '|' :: literalMarks cs ++ '\n' :: literalLines cs
  let closed := formOf s = .literal && scalar.getLast?.any endsLine
  "- " ++ String.ofList scalar ++ (if closed then "" else "\n")

/-- A list of texts. -/
def printItems (items : List String) : String := String.join (items.map printItem)

end Provision.Yaml.Printer
