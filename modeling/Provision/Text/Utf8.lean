/-!
# Texts as bytes

The UTF-8 form of a text, and two ways back: a strict one that refuses a malformed byte, and a
lenient one that puts the replacement character in the place of each malformed piece.

* `takeContinuation_length`: reading a character never lengthens what is left.
-/

set_option autoImplicit false

namespace Provision.Text

/-- A sequence of bytes. -/
abbrev Bytes := List UInt8

/-- The bytes of a text. -/
def encodeUtf8 (s : List Char) : Bytes := s.flatMap String.utf8EncodeChar

/-- For the first byte of a longer character: how many bytes follow it, the bits it contributes,
and the range of the byte right after it. Overlong forms, surrogates and numbers beyond Unicode
are ruled out here. -/
def leadByte (b : UInt8) : Option (Nat × Nat × UInt8 × UInt8) :=
  if 0xc2 ≤ b ∧ b ≤ 0xdf then some (1, b.toNat - 0xc0, 0x80, 0xbf)
  else if b = 0xe0 then some (2, 0, 0xa0, 0xbf)
  else if b = 0xed then some (2, 0xd, 0x80, 0x9f)
  else if 0xe1 ≤ b ∧ b ≤ 0xef then some (2, b.toNat - 0xe0, 0x80, 0xbf)
  else if b = 0xf0 then some (3, 0, 0x90, 0xbf)
  else if 0xf1 ≤ b ∧ b ≤ 0xf3 then some (3, b.toNat - 0xf0, 0x80, 0xbf)
  else if b = 0xf4 then some (3, 4, 0x80, 0x8f)
  else none

/-- Reads up to `count` continuation bytes, the first of them between `low` and `high`, onto the
bits so far: the number, or `none` if one is missing, and the bytes left. -/
def takeContinuation : Nat → Nat → UInt8 → UInt8 → Bytes → Option Nat × Bytes
  | 0, bits, _, _, rest => (some bits, rest)
  | _ + 1, _, _, _, [] => (none, [])
  | count + 1, bits, low, high, b :: rest =>
    if low ≤ b ∧ b ≤ high then
      takeContinuation count (bits * 64 + (b.toNat - 0x80)) 0x80 0xbf rest
    else (none, b :: rest)

theorem takeContinuation_length (count bits : Nat) (low high : UInt8) (rest : Bytes) :
    (takeContinuation count bits low high rest).2.length ≤ rest.length := by
  induction rest generalizing count bits low high with
  | nil => cases count <;> simp [takeContinuation]
  | cons b rest ih =>
    cases count with
    | zero => simp [takeContinuation]
    | succ count =>
      simp only [takeContinuation]
      split
      · exact Nat.le_trans (ih ..) (Nat.le_succ _)
      · exact Nat.le_refl _

/-- Reads one character that begins with the byte `b`; `none` stands for a malformed piece. -/
def readChar (b : UInt8) (rest : Bytes) : Option Char × Bytes :=
  if b < 0x80 then (some (Char.ofNat b.toNat), rest)
  else match leadByte b with
    | none => (none, rest)
    | some (count, bits, low, high) =>
      let (number, left) := takeContinuation count bits low high rest
      (number.map Char.ofNat, left)

theorem readChar_length (b : UInt8) (rest : Bytes) :
    (readChar b rest).2.length ≤ rest.length := by
  simp only [readChar]
  split
  · exact Nat.le_refl _
  · split
    · exact Nat.le_refl _
    · exact takeContinuation_length ..

/-- The characters of a byte sequence, with `none` for each malformed piece. -/
def readChars : Bytes → List (Option Char)
  | [] => []
  | b :: rest => (readChar b rest).1 :: readChars (readChar b rest).2
termination_by bytes => bytes.length
decreasing_by exact Nat.lt_succ_of_le (readChar_length b rest)

/-- The text that well-formed bytes stand for. -/
def decodeUtf8? (bytes : Bytes) : Option (List Char) := (readChars bytes).mapM id

/-- The text that bytes stand for, each malformed piece read as the replacement character. -/
def decodeUtf8 (bytes : Bytes) : List Char :=
  (readChars bytes).map fun c => c.getD (Char.ofNat 0xfffd)

end Provision.Text
