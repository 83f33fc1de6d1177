import Provision.Base64
import Provision.Gzip.Stream
import Provision.Json.Basic

/-!
# Data URLs

Contents that stand in a URL themselves: a text with most signs escaped, anything else in base64.

* `plain`: the URL for some bytes.
* `embed`: that URL, or the one for the compressed bytes where it is shorter.
* `contents?`: the bytes of a URL.
-/

set_option autoImplicit false

namespace Provision.DataUrl

open Provision.Text (Bytes)

/-- Whether a byte stands for itself in a URL. -/
def isPlain (b : UInt8) : Bool :=
  let c := Char.ofNat b.toNat
  b < 0x80 && (c.isAlphanum || "-._~$&+,:;=@".toList.contains c)

/-- A digit in base 16, upper case. -/
def hexDigit (n : Nat) : Char := if n < 10 then Char.ofNat (48 + n) else Char.ofNat (55 + n)

/-- The characters for a byte. -/
def escapeByte (b : UInt8) : List Char :=
  if isPlain b then [Char.ofNat b.toNat]
  else ['%', hexDigit (b.toNat / 16), hexDigit (b.toNat % 16)]

/-- The start of a URL with a text. -/
def textStart : String := "data:,"

/-- The start of a URL with other bytes. -/
def binaryStart : String := "data:;base64,"

/-- The URL with bytes in base64. -/
def binary (bytes : Bytes) : String := binaryStart ++ String.ofList (Base64.encode bytes)

/-- The URL for some bytes: those of a text are escaped one by one. -/
def plain (bytes : Bytes) : String :=
  match Text.decodeUtf8? bytes with
  | some _ => textStart ++ String.ofList (bytes.flatMap escapeByte)
  | none => binary bytes

/-- The URL for compressed bytes. -/
def compressed (bytes : Bytes) : String := binary (Gzip.compress bytes)

/-- A URL, and whether the bytes in it are compressed. -/
structure Embedded where
  url : String
  isCompressed : Bool
  deriving DecidableEq, Repr

/-- The URL for some bytes, which are compressed if that is allowed and the URL gets shorter. -/
def embed (mayCompress : Bool) (bytes : Bytes) : Embedded :=
  if mayCompress && (compressed bytes).length < (plain bytes).length then
    ⟨compressed bytes, true⟩
  else ⟨plain bytes, false⟩

/-- The members of a resource with a URL. -/
def Embedded.json (e : Embedded) : Json :=
  .obj (("source", .str e.url) ::
    (if e.isCompressed then [("compression", .str "gzip")] else []))

/-! ## Reading -/

/-- The value of a digit in base 16. -/
def hexValue? (c : Char) : Option Nat :=
  let n := c.toNat
  if 48 ≤ n ∧ n ≤ 57 then some (n - 48)
  else if 65 ≤ n ∧ n ≤ 70 then some (n - 55)
  else if 97 ≤ n ∧ n ≤ 102 then some (n - 87)
  else none

/-- The bytes of an escaped text. -/
def unescape? : List Char → Option Bytes
  | [] => some []
  | '%' :: a :: b :: rest => do
    let n := (← hexValue? a) * 16 + (← hexValue? b)
    some (UInt8.ofNat n :: (← unescape? rest))
  | c :: rest =>
    if c = '%' ∨ c.toNat ≥ 0x80 then none
    else (unescape? rest).map (UInt8.ofNat c.toNat :: ·)

/-- What follows a start of a text. -/
def after? : (start s : List Char) → Option (List Char)
  | [], s => some s
  | _ :: _, [] => none
  | a :: start, c :: s => if a = c then after? start s else none

/-- The bytes of a URL, as they are in it. -/
def contents? (url : String) : Option Bytes :=
  match after? textStart.toList url.toList with
  | some escaped => unescape? escaped
  | none => (after? binaryStart.toList url.toList).bind Base64.decode?

end Provision.DataUrl
