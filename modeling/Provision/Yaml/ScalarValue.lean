import Provision.Binary64
import Provision.Yaml.Token

/-!
# What a scalar is worth

A plain scalar may be a null, a truth value or a number; any other is its text. A tag of the core
schema decides the kind itself, and the text then has to fit.

* `ScalarValue.ofPlain`: the value of a plain scalar without a tag.
* `ScalarValue.ofScalar?`: the value of any scalar, unless it does not fit its tag.
-/

set_option autoImplicit false

namespace Provision.Yaml

/-- The value of a scalar. -/
inductive ScalarValue where
  | null
  | bool (b : Bool)
  | int (n : Int)
  | float (x : Binary64)
  | infinity (negative : Bool)
  | nan
  | text (s : String)
  deriving DecidableEq, Repr, Inhabited

namespace ScalarValue

/-- The words for null. -/
def isNullWord (s : String) : Bool := s = "~" || s = "null" || s = "Null" || s = "NULL"

/-- The words for truth values. -/
def bool? (s : String) : Option Bool :=
  if s = "true" || s = "True" || s = "TRUE" then some true
  else if s = "false" || s = "False" || s = "FALSE" then some false
  else none

/-- The value of a digit. -/
def digit? (c : Char) : Option Nat :=
  let n := c.toNat
  if '0' ≤ c ∧ c ≤ '9' then some (n - 48)
  else if 'a' ≤ c ∧ c ≤ 'z' then some (n - 87)
  else if 'A' ≤ c ∧ c ≤ 'Z' then some (n - 55)
  else none

/-- The number that digits of a base denote; there is at least one. -/
def ofDigits? (base : Nat) (digits : List Char) : Option Nat :=
  if digits.isEmpty then none
  else digits.foldl (fun (n : Option Nat) c => do
    let d ← digit? c
    if d < base then some ((← n) * base + d) else none) (some 0)

/-- A run of digits with a needless zero in front is no number. -/
def isPaddedDigits (s : List Char) : Bool :=
  let digits := match s with
    | '+' :: r | '-' :: r => r
    | _ => s
  digits.length > 1 && digits.head? = some '0' && (digits.drop 1).all (·.isDigit)

/-- The number after `0x`, `0o` or `0b`. -/
def ofBasedDigits? : List Char → Option Nat
  | '0' :: 'x' :: r => ofDigits? 16 r
  | '0' :: 'o' :: r => ofDigits? 8 r
  | '0' :: 'b' :: r => ofDigits? 2 r
  | _ => none

/-- A whole number with an optional sign. -/
def int? (s : String) : Option Int :=
  let cs := s.toList
  let (negative, body) := match cs with
    | '+' :: r => (false, r)
    | '-' :: r => (true, r)
    | _ => (false, cs)
  let size := (ofBasedDigits? body).orElse fun _ =>
    if isPaddedDigits cs then none else ofDigits? 10 body
  size.map fun n => if negative then -(n : Int) else n

/-- A decimal number with an optional fraction and power of ten, after its sign. -/
def decimal? (negative : Bool) (s : List Char) : Option Binary64 := do
  let whole := s.takeWhile (·.isDigit)
  let rest := s.drop whole.length
  let (fraction, rest) := match rest with
    | '.' :: r => (r.takeWhile (·.isDigit), r.dropWhile (·.isDigit))
    | _ => ([], rest)
  let digits ← ofDigits? 10 (whole ++ fraction)
  let power ← match rest with
    | [] => some (0 : Int)
    | e :: r =>
      if e = 'e' ∨ e = 'E' then
        match r with
        | '+' :: r => (ofDigits? 10 r).map fun n => (n : Int)
        | '-' :: r => (ofDigits? 10 r).map fun n => -(n : Int)
        | _ => (ofDigits? 10 r).map fun n => (n : Int)
      else none
  Binary64.ofDecimal negative digits (power - fraction.length)

/-- A number that is not whole, or too long, or no number at all but of that kind. A finite text
beyond the greatest number is none. -/
def float? (s : String) : Option ScalarValue :=
  let cs := s.toList
  let unsigned := match cs with
    | '+' :: r => String.ofList r
    | _ => s
  if unsigned = ".inf" || unsigned = ".Inf" || unsigned = ".INF" then some (.infinity false)
  else if s = "-.inf" || s = "-.Inf" || s = "-.INF" then some (.infinity true)
  else if s = ".nan" || s = ".NaN" || s = ".NAN" then some .nan
  else match cs with
    | '+' :: r => (decimal? false r).map .float
    | '-' :: r => (decimal? true r).map .float
    | _ => (decimal? false cs).map .float

/-- Whole numbers are kept as such within 128 bits, without a sign or with one. -/
def fitsWord (n : Int) : Bool :=
  -0x80000000000000000000000000000000 ≤ n && n < 0x100000000000000000000000000000000

/-- The value of a plain scalar without a tag. -/
def ofPlain (s : String) : ScalarValue :=
  if s.isEmpty || isNullWord s then .null
  else match bool? s with
    | some b => .bool b
    | none => match (int? s).filter fitsWord with
      | some n => .int n
      | none =>
        if isPaddedDigits s.toList then .text s else (float? s).getD (.text s)

/-- The tags of the core schema that decide the kind of a scalar. -/
def coreTag (name : String) : String := "tag:yaml.org,2002:" ++ name

/-- The value of a scalar; `none` if its text does not fit its tag. -/
def ofScalar? (tag : Option String) (style : Style) (s : String) : Option ScalarValue :=
  match tag with
  | none => some (if style = .plain then ofPlain s else .text s)
  | some t =>
    if t = coreTag "bool" then (bool? s).map .bool
    else if t = coreTag "int" then ((int? s).filter fitsWord).map .int
    else if t = coreTag "float" then float? s
    else if t = coreTag "null" then if isNullWord s then some .null else none
    else if t.startsWith "!" && style = .plain then some (ofPlain s)
    else some (.text s)

/-- Equality as keys of a mapping: the two zeros are one. -/
def same : ScalarValue → ScalarValue → Bool
  | .float x, .float y => x = y || (x.mantissa = 0 && y.mantissa = 0)
  | a, b => a = b

end ScalarValue

end Provision.Yaml
