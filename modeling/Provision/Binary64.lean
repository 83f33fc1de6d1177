/-!
# Binary floating point numbers

A finite number of the 64-bit binary format as sign, mantissa and exponent, with the rounding that
makes one from a ratio and the shortest decimal text that reads back as it.

* `ofRatio`: the nearest number, ties going to the even mantissa.
* `shortest`: the decimal with the fewest digits that rounds to the number, the nearest of those.
-/

set_option autoImplicit false

namespace Provision

/-- The number `±mantissa · 2 ^ exponent`. The mantissa is below `2 ^ 53`, and at least `2 ^ 52`
unless the exponent is the least one. -/
structure Binary64 where
  negative : Bool
  mantissa : Nat
  exponent : Int
  deriving DecidableEq, Repr, Inhabited

namespace Binary64

/-- The least exponent of the format. -/
def leastExponent : Int := -1074

/-- The greatest exponent of the format. -/
def greatestExponent : Int := 971

/-- The least mantissa of a number that has all its digits. -/
def leastNormal : Nat := 0x10000000000000

/-- Zero, which keeps a sign. -/
def zero (negative : Bool) : Binary64 := ⟨negative, 0, leastExponent⟩

/-- `num / den` without its fraction, rounded to the nearest number, a tie to the even one. -/
def roundDiv (num den : Nat) : Nat :=
  let q := num / den
  let r := num % den
  if 2 * r > den then q + 1
  else if 2 * r = den then q + q % 2
  else q

/-- The number nearest to `num / den`; `none` if it lies beyond the greatest. -/
def ofRatio (negative : Bool) (num den : Nat) : Option Binary64 :=
  if num = 0 then some (zero negative)
  else
    let scaled (e : Int) : Nat × Nat :=
      if e < 0 then (num * Nat.pow 2 (-e).toNat, den) else (num, den * Nat.pow 2 e.toNat)
    let guess : Int := (Nat.log2 num : Int) - (Nat.log2 den : Int) - 52
    -- the guess is right or one too high
    let e := if (scaled guess).1 < (scaled guess).2 * leastNormal then guess - 1 else guess
    let e := max e leastExponent
    let m := roundDiv (scaled e).1 (scaled e).2
    let (m, e) := if m = 2 * leastNormal then (leastNormal, e + 1) else (m, e)
    if e > greatestExponent then none else some ⟨negative, m, e⟩

/-- A natural number, rounded. -/
def ofNat (n : Nat) : Option Binary64 := ofRatio false n 1

/-- The size of a number as a ratio. -/
def ratio (x : Binary64) : Nat × Nat :=
  if x.exponent < 0 then (x.mantissa, Nat.pow 2 (-x.exponent).toNat)
  else (x.mantissa * Nat.pow 2 x.exponent.toNat, 1)

/-- The product, rounded. -/
def mul (x y : Binary64) : Option Binary64 :=
  let (a, b) := x.ratio
  let (c, d) := y.ratio
  ofRatio (x.negative != y.negative) (a * c) (b * d)

/-- The quotient by a number that is not zero, rounded. -/
def div (x y : Binary64) : Option Binary64 :=
  let (a, b) := x.ratio
  let (c, d) := y.ratio
  ofRatio (x.negative != y.negative) (a * d) (b * c)

/-- The number nearest to `digits · 10 ^ power`. -/
def ofDecimal (negative : Bool) (digits : Nat) (power : Int) : Option Binary64 :=
  -- a power this small or large leaves nothing to compute
  if digits = 0 then some (zero negative)
  else if power > 400 then none
  else if power + (Nat.log2 digits : Int) < -2000 then some (zero negative)
  else if power < 0 then ofRatio negative digits (Nat.pow 10 (-power).toNat)
  else ofRatio negative (digits * Nat.pow 10 power.toNat) 1

/-- The first of `1, 2, …, 17` digit counts at which a decimal rounds to `x`. -/
def shortestFrom (x : Binary64) (num den : Nat) (topPower : Int) : Nat → Nat → Nat × Int
  | 0, _ => (num / den, 0)
  | fuel + 1, digits =>
    let power : Int := topPower - digits + 1
    let (n, d) := if power < 0 then (num * Nat.pow 10 (-power).toNat, den)
      else (num, den * Nat.pow 10 power.toNat)
    let low := n / d
    let reads (m : Nat) : Bool := ofDecimal x.negative m power = some x
    let lowReads := reads low
    let highReads := reads (low + 1)
    -- of two that read back the nearer one is taken, and the even one of a tie
    if lowReads && highReads then
      (if 2 * (n % d) < d || (2 * (n % d) = d && low % 2 = 0) then low else low + 1, power)
    else if lowReads then (low, power)
    else if highReads then (low + 1, power)
    else shortestFrom x num den topPower fuel (digits + 1)

/-- A decimal without zeros at the end of its digits. -/
def stripZeros : Nat → Nat → Int → Nat × Int
  | 0, m, p => (m, p)
  | fuel + 1, m, p => if m ≠ 0 ∧ m % 10 = 0 then stripZeros fuel (m / 10) (p + 1) else (m, p)

/-- The digits and the power of ten of the shortest decimal that reads back as the number. -/
def shortest (x : Binary64) : Nat × Int :=
  if x.mantissa = 0 then (0, 0)
  else
    let (num, den) := x.ratio
    let size : Int := (Nat.toDigits 10 (num / den)).length
    let leadingZeros : Int := (Nat.toDigits 10 (den / num)).length
    -- the power of ten of the first digit, or one more
    let topPower : Int := if num ≥ den then size - 1 else -leadingZeros + 1
    let topPower := if topPower < 0 ∧ num * Nat.pow 10 (-topPower).toNat < den then topPower - 1
      else topPower
    let (m, p) := shortestFrom x num den topPower 18 1
    stripZeros 20 m p

/-- The decimal digits of a number as characters. -/
def digitChars (n : Nat) : List Char := Nat.toDigits 10 n

/-- Which texts numbers get: how far the positional form reaches, and how the power of ten is
written beyond it. -/
structure TextForm where
  /-- The digit before the point may stand at most this many places left of it. -/
  longestWhole : Option Int
  /-- The first digit may stand at most this many places right of the point. -/
  longestFraction : Option Int
  /-- The sign of a power of ten that is not negative. -/
  powerSign : List Char

/-- The text of a number, with a point in every positional form. -/
def text (form : TextForm) (x : Binary64) : String :=
  let sign := if x.negative then "-" else ""
  let (m, p) := x.shortest
  let digits := digitChars m
  let count : Int := digits.length
  -- where the point stands, counted from the first digit
  let point := count + p
  let whole := form.longestWhole.all (point ≤ ·)
  let fraction := form.longestFraction.all (fun n => -n < point)
  let zeros (n : Int) : List Char := List.replicate n.toNat '0'
  let body : List Char :=
    if m = 0 then ['0', '.', '0']
    else if 0 ≤ p ∧ whole then digits ++ zeros p ++ ['.', '0']
    else if 0 < point ∧ whole then digits.take point.toNat ++ '.' :: digits.drop point.toNat
    else if point ≤ 0 ∧ fraction then '0' :: '.' :: (zeros (-point) ++ digits)
    else
      let power := point - 1
      let powerText := (if power < 0 then ['-'] else form.powerSign) ++ digitChars power.natAbs
      match digits with
      | [d] => d :: 'e' :: powerText
      | d :: rest => d :: '.' :: (rest ++ 'e' :: powerText)
      | [] => []
  sign ++ String.ofList body

end Binary64

end Provision
