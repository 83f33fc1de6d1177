import Provision.Gzip.Code
import Provision.Text.Utf8

/-!
# Compressed streams

A stream is a header, the compressed data in blocks of bits, and a checksum and the length of the
data. One block in the fixed code is written; every kind of block is read.

* `checksum`: the checksum of some bytes.
* `compress`: the stream for some bytes. Equal bytes give equal streams: no time is written.
* `decompress?`: the bytes of a stream.
-/

set_option autoImplicit false

namespace Provision.Gzip

open Provision.Text (Bytes)

/-!
## The checksum

The remainder of the data, read as a polynomial over two elements, by a fixed polynomial of degree
32, with the bits of each byte from the lowest up.
-/

/-- One bit of a division by the fixed polynomial. -/
def checksumBit (r : UInt32) : UInt32 :=
  if r &&& 1 = 1 then (r >>> 1) ^^^ 0xedb88320 else r >>> 1

/-- Takes one byte into a remainder. -/
def checksumByte (r : UInt32) (b : UInt8) : UInt32 :=
  let r := r ^^^ b.toUInt32
  checksumBit (checksumBit (checksumBit (checksumBit
    (checksumBit (checksumBit (checksumBit (checksumBit r)))))))

/-- The checksum of some bytes. -/
def checksum (bytes : Bytes) : UInt32 := bytes.foldl checksumByte 0xffffffff ^^^ 0xffffffff

/-! ## Blocks and streams -/

/-! ## Writing -/

/-- The number that up to eight bits give, the lowest first. -/
def byteOf (bits : Bits) : UInt8 := UInt8.ofNat (bits.foldr (fun b n => 2 * n + b.toNat) 0)

/-- Bits as bytes, filled up with zeros. -/
def packBits : Bits → Bytes
  | [] => []
  | b0 :: b1 :: b2 :: b3 :: b4 :: b5 :: b6 :: b7 :: rest =>
    byteOf [b0, b1, b2, b3, b4, b5, b6, b7] :: packBits rest
  | few => [byteOf few]

/-- Bytes as bits. -/
def unpackBits (bytes : Bytes) : Bits := bytes.flatMap fun b => lowFirst b.toNat 8

/-- A number of four bytes, the lowest first. -/
def wordBytes (n : Nat) : Bytes := (List.range 4).map fun i => UInt8.ofNat (n / Nat.pow 256 i)

/-- The header of a stream without a time and a name, made with the best compression. -/
def header : Bytes := [0x1f, 0x8b, 0x08, 0, 0, 0, 0, 0, 0x02, 0xff]

/-- The data as one block in the fixed code. -/
def deflate (bytes : Bytes) : Bytes :=
  packBits ([true, true, false] ++ (Token.tokens bytes).flatMap Token.bits ++ fixedBits endSymbol)

/-- The stream for some bytes. -/
def compress (bytes : Bytes) : Bytes :=
  header ++ deflate bytes ++ wordBytes (checksum bytes).toNat ++ wordBytes bytes.length

/-! ## Reading -/

/-- Reads the tokens of a block. -/
def readTokens (literals distances : Code) :
    (fuel : Nat) → Bits → Array UInt8 → Option (Array UInt8 × Bits)
  | 0, _, _ => none
  | fuel + 1, bits, out => do
    let (symbol, bits) ← literals.decode? bits
    if symbol < 256 then readTokens literals distances fuel bits (out.push (UInt8.ofNat symbol))
    else if symbol = endSymbol then some (out, bits)
    else
      let (start, extra) ← lengthTable[symbol - 257]?
      let (more, bits) ← readNumber extra bits
      let (symbol, bits) ← distances.decode? bits
      let (far, extra) ← distanceTable[symbol]?
      let (farther, bits) ← readNumber extra bits
      let out ← (Token.copy (start + more) (far + farther)).append? out
      readTokens literals distances fuel bits out

/-- Reads bytes that are not compressed. -/
def readStored : (count : Nat) → Bits → Array UInt8 → Option (Array UInt8 × Bits)
  | 0, bits, out => some (out, bits)
  | count + 1, bits, out => do
    let (b, bits) ← readNumber 8 bits
    readStored count bits (out.push (UInt8.ofNat b))

/-- Reads numbers of three bits. -/
def readTriples : (count : Nat) → Bits → Option (List Nat × Bits)
  | 0, bits => some ([], bits)
  | count + 1, bits => do
    let (n, bits) ← readNumber 3 bits
    let (ns, bits) ← readTriples count bits
    some (n :: ns, bits)

/-- The order in which the lengths of the code of lengths come. -/
def lengthOrder : List Nat := [16, 17, 18, 0, 8, 7, 9, 6, 10, 5, 11, 4, 12, 3, 13, 2, 14, 1, 15]

/-- Reads the lengths of a code; the known ones are in reverse. A symbol above 15 repeats the last
one or zeros. -/
def readLengths (code : Code) (count : Nat) :
    (fuel : Nat) → (known : List Nat) → Bits → Option (List Nat × Bits)
  | 0, _, _ => none
  | fuel + 1, known, bits =>
    if known.length = count then some (known.reverse, bits)
    else if known.length > count then none
    else do
      let (symbol, bits) ← code.decode? bits
      if symbol < 16 then readLengths code count fuel (symbol :: known) bits
      else
        let (what, few, extra) ← match symbol with
          | 16 => known.head?.map (·, 3, 2)
          | 17 => some (0, 3, 3)
          | _ => some (0, 11, 7)
        let (more, bits) ← readNumber extra bits
        readLengths code count fuel (List.replicate (few + more) what ++ known) bits

/-- Reads the description of a code of literals and one of distances. -/
def readCodes (bits : Bits) : Option ((Code × Code) × Bits) := do
  let (literals, bits) ← readNumber 5 bits
  let (distances, bits) ← readNumber 5 bits
  let (lengths, bits) ← readNumber 4 bits
  let (given, bits) ← readTriples (lengths + 4) bits
  let table := lengthOrder.zip given
  let code := Code.ofLengths ((List.range 19).map fun symbol => (table.lookup symbol).getD 0)
  let count := literals + 257 + (distances + 1)
  let (all, bits) ← readLengths code count (count + 1) [] bits
  some ((.ofLengths (all.take (literals + 257)), .ofLengths (all.drop (literals + 257))), bits)

/-- Reads blocks up to the last one. -/
def readBlocks : (fuel : Nat) → Bits → Array UInt8 → Option (Array UInt8 × Bits)
  | 0, _, _ => none
  | fuel + 1, bits, out => do
    let (last, bits) ← readNumber 1 bits
    let (kind, bits) ← readNumber 2 bits
    let (out, bits) ← match kind with
      | 0 => do
        let bits := bits.drop (bits.length % 8)
        let (count, bits) ← readNumber 16 bits
        let (check, bits) ← readNumber 16 bits
        if count + check ≠ 65535 then none
        readStored count bits out
      | 1 => readTokens .fixed .fixedDistances (bits.length + 1) bits out
      | 2 => do
        let ((literals, distances), bits) ← readCodes bits
        readTokens literals distances (bits.length + 1) bits out
      | _ => none
    if last = 1 then some (out, bits) else readBlocks fuel bits out

/-- The bytes behind the next zero. -/
def skipName (bytes : Bytes) : Bytes := (bytes.dropWhile (· ≠ 0)).drop 1

/-- The bytes behind a header. -/
def skipHeader? (bytes : Bytes) : Option Bytes :=
  match bytes with
  | 0x1f :: 0x8b :: 0x08 :: flags :: _ :: _ :: _ :: _ :: _ :: _ :: rest =>
    let rest := if flags &&& 4 = 0 then rest
      else rest.drop (2 + (rest.getD 0 0).toNat + 256 * (rest.getD 1 0).toNat)
    let rest := if flags &&& 8 = 0 then rest else skipName rest
    let rest := if flags &&& 16 = 0 then rest else skipName rest
    some (if flags &&& 2 = 0 then rest else rest.drop 2)
  | _ => none

/-- The bytes of a stream, if its checksum and length are right and nothing follows it. -/
def decompress? (bytes : Bytes) : Option Bytes := do
  let body ← skipHeader? bytes
  let bits := unpackBits body
  let (out, rest) ← readBlocks (bits.length + 1) bits #[]
  let data := out.toList
  let (sum, rest) ← readNumber 32 (rest.drop (rest.length % 8))
  let (length, rest) ← readNumber 32 rest
  if sum = (checksum data).toNat ∧ length = data.length % 0x100000000 ∧ rest.isEmpty then some data
  else none

end Provision.Gzip
