import Provision.Json.Basic
import Provision.Text.Utf8
import Provision.Word

/-!
# Reading a JSON document

A reader of UTF-8 texts that says what is wrong with a text and where: the line, and the number of
bytes into it.

* `Json.parse`: a text as a value; of two members with one key the later value stands at the
  place of the first.
-/

set_option autoImplicit false

namespace Provision.Json

open Text (Bytes)

/-- What is wrong with a text that is no JSON document. -/
inductive Fault where
  | endInList | endInObject | endInString | endInValue
  | expectedColon | expectedListEnd | expectedObjectEnd | expectedWord | expectedValue
  | invalidEscape | invalidNumber | numberOutOfRange | controlInString | keyNotText
  | loneSurrogate | trailingComma | trailingCharacters | endOfHexEscape | tooDeep
  deriving DecidableEq, Repr

/-- The words for a fault. -/
def Fault.words : Fault → String
  | .endInList => "EOF while parsing a list"
  | .endInObject => "EOF while parsing an object"
  | .endInString => "EOF while parsing a string"
  | .endInValue => "EOF while parsing a value"
  | .expectedColon => "expected `:`"
  | .expectedListEnd => "expected `,` or `]`"
  | .expectedObjectEnd => "expected `,` or `\x7d`"
  | .expectedWord => "expected ident"
  | .expectedValue => "expected value"
  | .invalidEscape => "invalid escape"
  | .invalidNumber => "invalid number"
  | .numberOutOfRange => "number out of range"
  | .controlInString => "control character (\\u0000-\\u001F) found while parsing a string"
  | .keyNotText => "key must be a string"
  | .loneSurrogate => "lone leading surrogate in hex escape"
  | .trailingComma => "trailing comma"
  | .trailingCharacters => "trailing characters"
  | .endOfHexEscape => "unexpected end of hex escape"
  | .tooDeep => "recursion limit exceeded"

/-- A fault and the bytes left where it was noticed. -/
structure Failure where
  fault : Fault
  rest : Bytes

/-- A fault noticed on the byte at hand: that byte counts as read. -/
def failAt {α : Type} (fault : Fault) (rest : Bytes) : Except Failure (α × Bytes) :=
  .error ⟨fault, rest.drop 1⟩

/-- A fault noticed before the byte at hand. -/
def failBefore {α : Type} (fault : Fault) (rest : Bytes) : Except Failure (α × Bytes) :=
  .error ⟨fault, rest⟩

/-- The bytes after blanks. -/
def skipBlanks (bytes : Bytes) : Bytes :=
  bytes.dropWhile fun b => b == 0x20 || b == 0x0a || b == 0x09 || b == 0x0d

/-- Whether a byte is a decimal digit. -/
def isDigit (b : UInt8) : Bool := 0x30 ≤ b && b ≤ 0x39

/-- The value of a digit. -/
def digit (b : UInt8) : Nat := b.toNat - 0x30

/-! ## Numbers -/

/-- Reads digits onto a number while it fits into 64 bits: the number, how many were read, and the
bytes from the first one not read. -/
def takeDigits (limit : Nat) : Nat → Nat → Bytes → Nat × Nat × Bytes
  | n, count, b :: rest =>
    if isDigit b && n * 10 + digit b ≤ limit then
      takeDigits limit (n * 10 + digit b) (count + 1) rest
    else (n, count, b :: rest)
  | n, count, [] => (n, count, [])

/-- Skips digits: how many, and the bytes after them. -/
def skipDigits (bytes : Bytes) : Nat × Bytes :=
  ((bytes.takeWhile isDigit).length, bytes.dropWhile isDigit)

/-- `digits · 10 ^ power` in binary: the digits are rounded, then multiplied or divided by the
rounded power of ten. -/
def scaleDecimal (negative : Bool) (digits : Nat) (power : Int) : Option Binary64 := do
  let rec scale (x : Binary64) : Nat → Int → Option Binary64
    | 0, _ => some x
    | fuel + 1, power =>
      if power.natAbs ≤ 308 then do
        let ten ← Binary64.ofDecimal false 1 power.natAbs
        if power ≥ 0 then x.mul ten else x.div ten
      else if x.mantissa = 0 then some x
      else if power ≥ 0 then none
      else do
        let ten ← Binary64.ofDecimal false 1 308
        scale (← x.div ten) fuel (power + 308)
  let size ← Binary64.ofNat digits
  let scaled ← scale size 3000 power
  some { scaled with negative }

/-- A number in binary, or the fault that it is too large. -/
def floatStep (negative : Bool) (digits : Nat) (power : Int) (rest : Bytes) :
    Except Failure (Json × Bytes) :=
  match scaleDecimal negative digits power with
  | some x => .ok (.num (.float x), rest)
  | none => failBefore .numberOutOfRange rest

/-- The part of a number from its `e` on. -/
def readExponent (negative : Bool) (digits : Nat) (power : Int) (rest : Bytes) :
    Except Failure (Json × Bytes) :=
  let (minus, rest) := match rest.drop 1 with
    | 0x2b :: r => (false, r)
    | 0x2d :: r => (true, r)
    | r => (false, r)
  match rest with
  | [] => failBefore .endInValue []
  | b :: r =>
    if !isDigit b then failBefore .invalidNumber r
    else
      let (e, _, r) := takeDigits 0x7fffffff (digit b) 1 r
      match r with
      | c :: after =>
        if isDigit c then
          if digits ≠ 0 && !minus then failBefore .numberOutOfRange after
          else .ok (.num (.float (.zero negative)), (skipDigits r).2)
        else floatStep negative digits (if minus then power - e else power + e) r
      | [] => floatStep negative digits (if minus then power - e else power + e) r

/-- The part of a number from its point on. -/
def readFraction (negative : Bool) (digits : Nat) (power : Int) (rest : Bytes) :
    Except Failure (Json × Bytes) :=
  let (n, count, r) := takeDigits (Word.count - 1) digits 0 (rest.drop 1)
  if count = 0 ∧ (r.head?.map isDigit).getD false = false then
    match r with
    | [] => failAt .endInValue []
    | _ => failAt .invalidNumber r
  else
    -- digits that no longer fit are left out
    let r := (skipDigits r).2
    let power := power - count
    match r with
    | b :: _ =>
      if b = 0x65 ∨ b = 0x45 then readExponent negative n power r
      else floatStep negative n power r
    | [] => floatStep negative n power r

/-- A whole number as a value: what 64 bits do not hold is kept in binary. -/
def wholeNumber (negative : Bool) (n : Nat) : Json :=
  if !negative then .int n
  else if n ≠ 0 ∧ n ≤ Word.half then .int (-n)
  else .num (.float { (Binary64.ofNat n).getD (.zero true) with negative := true })

/-- A number after its sign. -/
def readNumber (negative : Bool) : Bytes → Except Failure (Json × Bytes)
  | [] => failBefore .endInValue []
  | b :: rest =>
    if !isDigit b then failBefore .invalidNumber rest
    else if b = 0x30 ∧ (rest.head?.map isDigit).getD false then failAt .invalidNumber rest
    else
      let (n, _, r) :=
        if b = 0x30 then (0, 1, rest) else takeDigits (Word.count - 1) (digit b) 1 rest
      let (dropped, r) := skipDigits r
      match r with
      | c :: _ =>
        if c = 0x2e then readFraction negative n dropped r
        else if c = 0x65 ∨ c = 0x45 then readExponent negative n dropped r
        else if dropped = 0 then .ok (wholeNumber negative n, r)
        else floatStep negative n dropped r
      | [] =>
        if dropped = 0 then .ok (wholeNumber negative n, r) else floatStep negative n dropped r

/-! ## Texts -/

/-- The value of a hexadecimal digit. -/
def hexValue (b : UInt8) : Option Nat :=
  if isDigit b then some (digit b)
  else if 0x61 ≤ b ∧ b ≤ 0x66 then some (b.toNat - 0x61 + 10)
  else if 0x41 ≤ b ∧ b ≤ 0x46 then some (b.toNat - 0x41 + 10)
  else none

/-- Four hexadecimal digits. -/
def readHex : Bytes → Except Failure (Nat × Bytes)
  | a :: b :: c :: d :: rest =>
    match hexValue a, hexValue b, hexValue c, hexValue d with
    | some a, some b, some c, some d => .ok (((a * 16 + b) * 16 + c) * 16 + d, rest)
    | _, _, _, _ => failBefore .invalidEscape rest
  | _ => failBefore .endInString []

/-- A character given by number, the bytes being those after the `u`. -/
def readNumbered (bytes : Bytes) : Except Failure (Char × Bytes) := do
  let (n, rest) ← readHex bytes
  if 0xdc00 ≤ n ∧ n ≤ 0xdfff then failBefore .loneSurrogate rest
  else if n < 0xd800 ∨ 0xdbff < n then .ok (Char.ofNat n, rest)
  else match rest with
    | 0x5c :: 0x75 :: rest => do
      let (m, rest) ← readHex rest
      if m < 0xdc00 ∨ 0xdfff < m then failBefore .loneSurrogate rest
      else .ok (Char.ofNat ((n - 0xd800) * 0x400 + (m - 0xdc00) + 0x10000), rest)
    | [] | [0x5c] => failBefore .endInString []
    | 0x5c :: _ :: rest | _ :: rest => failBefore .endOfHexEscape rest

/-- The character that follows a backslash. -/
def readEscape : Bytes → Except Failure (Char × Bytes)
  | [] => failBefore .endInString []
  | b :: rest =>
    if b = 0x22 ∨ b = 0x5c ∨ b = 0x2f then .ok (Char.ofNat b.toNat, rest)
    else if b = 0x62 then .ok (Char.ofNat 8, rest)
    else if b = 0x66 then .ok (Char.ofNat 12, rest)
    else if b = 0x6e then .ok ('\n', rest)
    else if b = 0x72 then .ok ('\r', rest)
    else if b = 0x74 then .ok ('\t', rest)
    else if b = 0x75 then readNumbered rest
    else failBefore .invalidEscape rest

/-- The bytes of a text up to its closing quote, in reverse onto those so far. -/
def readTextBytes : Nat → Bytes → Bytes → Except Failure (Bytes × Bytes)
  | 0, _, rest => failBefore .endInString rest
  | _ + 1, _, [] => failBefore .endInString []
  | fuel + 1, soFar, b :: rest =>
    if b = 0x22 then .ok (soFar, rest)
    else if b = 0x5c then do
      let (c, rest) ← readEscape rest
      readTextBytes fuel ((String.utf8EncodeChar c).reverse ++ soFar) rest
    else if b < 0x20 then failBefore .controlInString rest
    else readTextBytes fuel (b :: soFar) rest

/-- A text after its opening quote. -/
def readText (bytes : Bytes) : Except Failure (String × Bytes) := do
  let (reversed, rest) ← readTextBytes (bytes.length + 1) [] bytes
  .ok (String.ofList (Text.decodeUtf8 reversed.reverse), rest)

/-! ## Values -/

/-- The rest of a word such as `null` after its first letter. -/
def readWord (value : Json) : List UInt8 → Bytes → Except Failure (Json × Bytes)
  | [], rest => .ok (value, rest)
  | _ :: _, [] => failBefore .endInValue []
  | w :: word, b :: rest => if b = w then readWord value word rest
    else failBefore .expectedWord rest

mutual

/-- A value at a depth that may hold `depth - 1` further levels. -/
def readValue : Nat → Nat → Bytes → Except Failure (Json × Bytes)
  | 0, _, rest => failAt .endInValue rest
  | fuel + 1, depth, bytes =>
    match skipBlanks bytes with
    | [] => failAt .endInValue []
    | b :: rest =>
      if b = 0x6e then readWord .null [0x75, 0x6c, 0x6c] rest
      else if b = 0x74 then readWord (.bool true) [0x72, 0x75, 0x65] rest
      else if b = 0x66 then readWord (.bool false) [0x61, 0x6c, 0x73, 0x65] rest
      else if b = 0x2d then readNumber true rest
      else if isDigit b then readNumber false (b :: rest)
      else if b = 0x22 then do
        let (s, rest) ← readText rest
        .ok (.str s, rest)
      else if b = 0x5b then
        if depth ≤ 1 then failAt .tooDeep (b :: rest)
        else do
          let (items, rest) ← readItems fuel (depth - 1) true rest
          .ok (.arr items, rest)
      else if b = 0x7b then
        if depth ≤ 1 then failAt .tooDeep (b :: rest)
        else do
          let (members, rest) ← readMembers fuel (depth - 1) true [] rest
          .ok (.obj members, rest)
      else failAt .expectedValue (b :: rest)

/-- The items of an array up to its end; `first` before any item. -/
def readItems : Nat → Nat → Bool → Bytes → Except Failure (List Json × Bytes)
  | 0, _, _, rest => failAt .endInList rest
  | fuel + 1, depth, first, bytes =>
    match skipBlanks bytes with
    | [] => failAt .endInList []
    | b :: rest =>
      if b = 0x5d then .ok ([], rest)
      else if first then do
        let (v, rest) ← readValue fuel depth (b :: rest)
        let (vs, rest) ← readItems fuel depth false rest
        .ok (v :: vs, rest)
      else if b = 0x2c then
        match skipBlanks rest with
        | [] => failAt .endInValue []
        | c :: after =>
          if c = 0x5d then failAt .trailingComma (c :: after)
          else do
            let (v, rest) ← readValue fuel depth (c :: after)
            let (vs, rest) ← readItems fuel depth false rest
            .ok (v :: vs, rest)
      else failAt .expectedListEnd (b :: rest)

/-- The members of an object up to its end, added to those so far. -/
def readMembers :
    Nat → Nat → Bool → List (String × Json) → Bytes → Except Failure (List (String × Json) × Bytes)
  | 0, _, _, _, rest => failAt .endInObject rest
  | fuel + 1, depth, first, soFar, bytes =>
    match skipBlanks bytes with
    | [] => failAt .endInObject []
    | b :: rest =>
      if b = 0x7d then .ok (soFar, rest)
      else if first then
        if b = 0x22 then readMember fuel depth soFar rest
        else failAt .keyNotText (b :: rest)
      else if b = 0x2c then
        match skipBlanks rest with
        | [] => failAt .endInValue []
        | c :: after =>
          if c = 0x22 then readMember fuel depth soFar after
          else if c = 0x7d then failAt .trailingComma (c :: after)
          else failAt .keyNotText (c :: after)
      else failAt .expectedObjectEnd (b :: rest)

/-- A member after the opening quote of its key, and the members after it. -/
def readMember :
    Nat → Nat → List (String × Json) → Bytes → Except Failure (List (String × Json) × Bytes)
  | 0, _, _, rest => failAt .endInObject rest
  | fuel + 1, depth, soFar, bytes => do
    let (key, rest) ← readText bytes
    match skipBlanks rest with
    | [] => failAt .endInObject []
    | b :: rest =>
      if b = 0x3a then
        let (v, rest) ← readValue fuel depth rest
        readMembers fuel depth false (insert key v soFar) rest
      else failAt .expectedColon (b :: rest)

end

/-- What is wrong with a text, and where: the line from one, the column in bytes. -/
structure ParseError where
  fault : Fault
  line : Nat
  column : Nat
  deriving DecidableEq, Repr

/-- The message of a reader that refuses a text. -/
def ParseError.message (e : ParseError) : String :=
  e.fault.words ++ " at line " ++ toString e.line ++ " column " ++ toString e.column

/-- The line and the column after the first `count` bytes. -/
def place (count : Nat) (bytes : Bytes) : Nat × Nat :=
  (bytes.take count).foldl
    (fun (here : Nat × Nat) b => if b = 0x0a then (here.1 + 1, 0) else (here.1, here.2 + 1)) (1, 0)

/-- The value that a text stands for. -/
def parseBytes (bytes : Bytes) : Except ParseError Json :=
  let result : Except Failure (Json × Bytes) := do
    let (v, rest) ← readValue (2 * bytes.length + 2) 128 bytes
    match skipBlanks rest with
    | [] => .ok (v, [])
    | rest => failAt .trailingCharacters rest
  match result with
  | .ok (v, _) => .ok v
  | .error ⟨fault, rest⟩ =>
    let (line, column) := place (bytes.length - rest.length) bytes
    .error ⟨fault, line, column⟩

/-- The value that a text stands for. -/
def parse (s : String) : Except ParseError Json := parseBytes (Text.encodeUtf8 s.toList)

end Provision.Json
