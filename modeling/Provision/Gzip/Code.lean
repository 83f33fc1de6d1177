import Std.Data.TreeMap
import Provision.Text.Utf8

/-!
# Tokens and their codes

Data is taken apart into single bytes and copies of what came before. How repetitions are found
does not matter to what the tokens mean: they are only used if they give the data back.

Tokens are written as symbols, each followed by some more bits where it stands for a range, and
symbols as sequences of bits of which none begins another. The lengths of these sequences determine
them: shorter ones come first, and ones of equal length in the order of their symbols.

* `Token.expand?`: the data that tokens stand for.
* `Code.decode?`: reads one symbol.
* `fixedBits`: the bits of a symbol in the code that needs no description.
-/

set_option autoImplicit false

namespace Provision.Gzip

open Provision.Text (Bytes)

/-! ## Repetitions in data -/

/-- A part of the data. -/
inductive Token where
  | literal (b : UInt8)
  /-- As many bytes as `length` once more, from `distance` bytes back. The copy may run into
  itself. -/
  | copy (length distance : Nat)
  deriving DecidableEq, Repr, Inhabited

namespace Token

/-- Appends a copy byte by byte. -/
def copyBack (distance : Nat) : (length : Nat) → Array UInt8 → Option (Array UInt8)
  | 0, out => some out
  | length + 1, out =>
    if distance = 0 ∨ out.size < distance then none
    else match out[out.size - distance]? with
      | some b => copyBack distance length (out.push b)
      | none => none

/-- Appends what a token stands for. -/
def append? (out : Array UInt8) : Token → Option (Array UInt8)
  | .literal b => some (out.push b)
  | .copy length distance => copyBack distance length out

/-- Appends what some tokens stand for. -/
def appendAll? : List Token → Array UInt8 → Option (Array UInt8)
  | [], out => some out
  | t :: rest, out => match t.append? out with
    | some out => appendAll? rest out
    | none => none

/-- The data that tokens stand for. -/
def expand? (tokens : List Token) : Option Bytes := (appendAll? tokens #[]).map (·.toList)

/-! ## Finding repetitions -/

/-- The longest copy and the farthest that can be written. -/
def longest : Nat := 258

/-- How far back a copy may reach. -/
def farthest : Nat := 32768

/-- How many earlier places are tried for each copy. -/
def mostTries : Nat := 32

/-- How many bytes from two places are equal, at most `limit`. -/
def agreement (data : Array UInt8) (i j : Nat) : (limit : Nat) → Nat
  | 0 => 0
  | limit + 1 =>
    match data[i]?, data[j]? with
    | some a, some b => if a = b then agreement data (i + 1) (j + 1) limit + 1 else 0
    | _, _ => 0

/-- Three bytes in a row as a number. -/
def triple (data : Array UInt8) (i : Nat) : Nat :=
  ((data.getD i 0).toNat * 256 + (data.getD (i + 1) 0).toNat) * 256 + (data.getD (i + 2) 0).toNat

/-- The best copy at a place: its length and the place that it is from. -/
def bestCopy (data : Array UInt8) (here : Nat) (places : List Nat) : Nat × Nat :=
  places.foldl (fun best place =>
    if here - place > farthest then best
    else
      let n := agreement data place here longest
      if n > best.1 then (n, place) else best) (0, 0)

/-- Where each three bytes were seen, the latest first. -/
abbrev Seen := Std.TreeMap Nat (List Nat)

/-- Notes that the three bytes at a place were seen. -/
def note (data : Array UInt8) (seen : Seen) (i : Nat) : Seen :=
  let key := triple data i
  seen.insert key ((i :: seen.getD key []).take mostTries)

/-- Takes the data from a place on apart, taking the best copy wherever there is one. -/
def search (data : Array UInt8) : (fuel here : Nat) → Seen → List Token
  | 0, _, _ => []
  | fuel + 1, here, seen =>
    if here ≥ data.size then []
    else
      let (n, place) := bestCopy data here (seen.getD (triple data here) [])
      if n < 3 then
        .literal (data.getD here 0) :: search data fuel (here + 1) (note data seen here)
      else
        .copy n (here - place) ::
          search data fuel (here + n) ((List.range' here n).foldl (note data) seen)

/-- The parts of data. -/
def tokens (bytes : Bytes) : List Token :=
  let data := bytes.toArray
  let found := search data data.size 0 ∅
  if expand? found = some bytes then found else bytes.map .literal

theorem appendAll?_literals (bytes : Bytes) (out : Array UInt8) :
    appendAll? (bytes.map .literal) out = some (out ++ bytes.toArray) := by
  induction bytes generalizing out with
  | nil => simp [appendAll?]
  | cons b rest ih =>
    simp only [List.map_cons, appendAll?, append?, ih, Option.some.injEq]
    apply Array.toList_inj.mp
    simp

/-- The tokens of data stand for that data. -/
@[simp] theorem expand?_tokens (bytes : Bytes) : expand? (tokens bytes) = some bytes := by
  simp only [tokens]
  split
  · assumption
  · simp [expand?, appendAll?_literals]

end Token

/-! ## Bits -/

/-- A sequence of bits. -/
abbrev Bits := List Bool

/-- A number as bits, the lowest first. -/
def lowFirst (n : Nat) : (count : Nat) → Bits
  | 0 => []
  | count + 1 => (n % 2 = 1) :: lowFirst (n / 2) count

/-- A number as bits, the highest first. -/
def highFirst (n count : Nat) : Bits := (lowFirst n count).reverse

/-- Reads a number whose lowest bit comes first. -/
def readNumber : (count : Nat) → Bits → Option (Nat × Bits)
  | 0, bits => some (0, bits)
  | _ + 1, [] => none
  | count + 1, b :: bits => do
    let (n, rest) ← readNumber count bits
    some (2 * n + b.toNat, rest)

/-! ## Symbols of ranges -/

/-- For each symbol from 257 on: the length it starts at and how many bits follow it. -/
def lengthTable : List (Nat × Nat) :=
  [(3, 0), (4, 0), (5, 0), (6, 0), (7, 0), (8, 0), (9, 0), (10, 0), (11, 1), (13, 1), (15, 1),
    (17, 1), (19, 2), (23, 2), (27, 2), (31, 2), (35, 3), (43, 3), (51, 3), (59, 3), (67, 4),
    (83, 4), (99, 4), (115, 4), (131, 5), (163, 5), (195, 5), (227, 5), (258, 0)]

/-- For each symbol of a distance: the distance it starts at and how many bits follow it. -/
def distanceTable : List (Nat × Nat) :=
  [(1, 0), (2, 0), (3, 0), (4, 0), (5, 1), (7, 1), (9, 2), (13, 2), (17, 3), (25, 3), (33, 4),
    (49, 4), (65, 5), (97, 5), (129, 6), (193, 6), (257, 7), (385, 7), (513, 8), (769, 8),
    (1025, 9), (1537, 9), (2049, 10), (3073, 10), (4097, 11), (6145, 11), (8193, 12), (12289, 12),
    (16385, 13), (24577, 13)]

/-- The last row of a table that starts at most at a number: its position, start and bits. -/
def rowFor (table : List (Nat × Nat)) (n : Nat) : Nat × Nat × Nat :=
  table.zipIdx.foldl (fun best ((start, bits), i) =>
    if start ≤ n then (i, start, bits) else best) (0, 0, 0)

/-! ## The fixed code -/

/-- The bits of a symbol in the code that needs no description. -/
def fixedBits (symbol : Nat) : Bits :=
  if symbol < 144 then highFirst (0x30 + symbol) 8
  else if symbol < 256 then highFirst (0x190 + (symbol - 144)) 9
  else if symbol < 280 then highFirst (symbol - 256) 7
  else highFirst (0xc0 + (symbol - 280)) 8

/-- The bits of a token. -/
def Token.bits : Token → Bits
  | .literal b => fixedBits b.toNat
  | .copy length distance =>
    let (l, lengthStart, lengthBits) := rowFor lengthTable length
    let (d, distanceStart, distanceBits) := rowFor distanceTable distance
    fixedBits (257 + l) ++ lowFirst (length - lengthStart) lengthBits ++
      highFirst d 5 ++ lowFirst (distance - distanceStart) distanceBits

/-- The symbol behind the last token. -/
def endSymbol : Nat := 256

/-! ## Codes given by lengths -/

/-- The symbols of a code for each length of their bits from one on. -/
structure Code where
  symbols : List (List Nat)
  deriving Repr, Inhabited

namespace Code

/-- The most bits of a symbol. -/
def longestBits : Nat := 15

/-- The code in which each symbol has the given length, or does not occur if that is zero. -/
def ofLengths (lengths : List Nat) : Code :=
  ⟨(List.range longestBits).map fun i =>
    lengths.zipIdx.filterMap fun (l, symbol) => if l = i + 1 then some symbol else none⟩

/-- Reads one symbol: `code` are the bits so far, and `first` is the first code of the current
length. -/
def decodeFrom : (symbols : List (List Nat)) → (code first : Nat) → Bits → Option (Nat × Bits)
  | [], _, _, _ => none
  | _, _, _, [] => none
  | row :: rows, code, first, b :: bits =>
    let code := 2 * code + b.toNat
    let first := 2 * first
    match row[code - first]? with
    | some symbol => some (symbol, bits)
    | none => decodeFrom rows code (first + row.length) bits

/-- Reads one symbol. -/
def decode? (c : Code) (bits : Bits) : Option (Nat × Bits) := decodeFrom c.symbols 0 0 bits

/-- The code of literals and lengths that needs no description. -/
def fixed : Code :=
  ofLengths (List.replicate 144 8 ++ List.replicate 112 9 ++ List.replicate 24 7 ++
    List.replicate 8 8)

/-- The code of distances that needs no description. -/
def fixedDistances : Code := ofLengths (List.replicate 30 5)

end Code

end Provision.Gzip
