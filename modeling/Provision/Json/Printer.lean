import Provision.Json.Basic

/-!
# The text of a JSON document

One line without spaces, or one member a line indented by two spaces.

* `quote`: quotes, backslashes and controls are escaped, everything else stands as it is.
-/

set_option autoImplicit false

namespace Provision.Json

/-- Numbers stand in positional form between `1e-5` and `1e+16`, and have a signed power of ten
beyond. -/
def numberForm : Binary64.TextForm := ⟨some 16, some 5, ['+']⟩

/-- The text of a number. -/
def Number.text : Number → String
  | .int n => toString n
  | .float x => x.text numberForm

/-- A control character by number: four hexadecimal digits. -/
def controlEscape (c : Char) : List Char :=
  let digits := Nat.toDigits 16 c.toNat
  '\\' :: 'u' :: (List.replicate (4 - digits.length) '0' ++ digits)

/-- One character inside quotes. -/
def escapeChar (c : Char) : List Char :=
  if c = '"' then ['\\', '"']
  else if c = '\\' then ['\\', '\\']
  else if c = '\n' then ['\\', 'n']
  else if c = '\r' then ['\\', 'r']
  else if c = '\t' then ['\\', 't']
  else if c = Char.ofNat 8 then ['\\', 'b']
  else if c = Char.ofNat 12 then ['\\', 'f']
  else if c.toNat < 32 then controlEscape c
  else [c]

/-- A text between quotes. -/
def quote (s : String) : String := String.ofList ('"' :: (s.toList.flatMap escapeChar ++ ['"']))

mutual

/-- The text of a value on one line. -/
def compact : Json → String
  | .null => "null"
  | .bool b => if b then "true" else "false"
  | .num n => n.text
  | .str s => quote s
  | .arr items => "[" ++ ",".intercalate (compactItems items) ++ "]"
  | .obj members => "\x7b" ++ ",".intercalate (compactMembers members) ++ "\x7d"

/-- The texts of values on one line each. -/
def compactItems : List Json → List String
  | [] => []
  | v :: rest => compact v :: compactItems rest

/-- The texts of members on one line each. -/
def compactMembers : List (String × Json) → List String
  | [] => []
  | (k, v) :: rest => (quote k ++ ":" ++ compact v) :: compactMembers rest

end

/-- A line break and the indentation of a depth. -/
def newline (depth : Nat) : String := String.ofList ('\n' :: List.replicate (2 * depth) ' ')

/-- Texts inside brackets, one a line; nothing stands between the brackets of none. -/
def bracketed (opening closing : String) (depth : Nat) : List String → String
  | [] => opening ++ closing
  | parts =>
    opening ++ newline (depth + 1) ++ ("," ++ newline (depth + 1)).intercalate parts
      ++ newline depth ++ closing

mutual

/-- The indented text of a value that stands at a depth. -/
def pretty (depth : Nat) : Json → String
  | .arr items => bracketed "[" "]" depth (prettyItems (depth + 1) items)
  | .obj members => bracketed "\x7b" "\x7d" depth (prettyMembers (depth + 1) members)
  | .null => compact .null
  | .bool b => compact (.bool b)
  | .num n => compact (.num n)
  | .str s => compact (.str s)

/-- The indented texts of values. -/
def prettyItems (depth : Nat) : List Json → List String
  | [] => []
  | v :: rest => pretty depth v :: prettyItems depth rest

/-- The indented texts of members. -/
def prettyMembers (depth : Nat) : List (String × Json) → List String
  | [] => []
  | (k, v) :: rest => (quote k ++ ": " ++ pretty depth v) :: prettyMembers depth rest

end

end Provision.Json
