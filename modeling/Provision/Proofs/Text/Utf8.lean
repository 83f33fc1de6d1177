import Provision.Text.Utf8

/-!
# Texts survive as bytes

The bytes of a text are read back as the text, by the strict reader and by the lenient one.

* `readChar_utf8EncodeChar`: the bytes of a character are read as the character, and no more.
* `decodeUtf8_encodeUtf8`, `decodeUtf8?_encodeUtf8`: the bytes of a text are read as the text.
-/

set_option autoImplicit false

namespace Provision.Text

theorem toNat_ofNat_of_lt {n : Nat} (h : n < 256) : (UInt8.ofNat n).toNat = n :=
  Nat.mod_eq_of_lt h

/-- A continuation byte in the range adds its bits. -/
theorem takeContinuation_ofNat {n : Nat} {low high : UInt8} (hl : low.toNat ≤ n)
    (hh : n ≤ high.toNat) (hn : n < 256) (count bits : Nat) (rest : Bytes) :
    takeContinuation (count + 1) bits low high (UInt8.ofNat n :: rest) =
      takeContinuation count (bits * 64 + (n - 0x80)) 0x80 0xbf rest := by
  have hrange : low ≤ UInt8.ofNat n ∧ UInt8.ofNat n ≤ high := by
    rw [UInt8.le_iff_toNat_le, UInt8.le_iff_toNat_le, toNat_ofNat_of_lt hn]
    exact ⟨hl, hh⟩
  rw [takeContinuation, if_pos hrange, toNat_ofNat_of_lt hn]

/-- What the first byte of a longer character says, by its number. -/
theorem leadByte_ofNat : ∀ n < 256, leadByte (UInt8.ofNat n) =
    if 0xc2 ≤ n ∧ n ≤ 0xdf then some (1, n - 0xc0, 0x80, 0xbf)
    else if 0xe0 ≤ n ∧ n ≤ 0xef then
      some (2, n - 0xe0, if n = 0xe0 then 0xa0 else 0x80, if n = 0xed then 0x9f else 0xbf)
    else if 0xf0 ≤ n ∧ n ≤ 0xf4 then
      some (3, n - 0xf0, if n = 0xf0 then 0x90 else 0x80, if n = 0xf4 then 0x8f else 0xbf)
    else none := by
  decide +kernel

theorem readChar_ofNat {n count bits : Nat} {low high : UInt8} (hn : n < 256) (hlong : 0x80 ≤ n)
    (h : leadByte (UInt8.ofNat n) = some (count, bits, low, high)) (bs : Bytes) :
    readChar (UInt8.ofNat n) bs =
      ((takeContinuation count bits low high bs).1.map Char.ofNat,
        (takeContinuation count bits low high bs).2) := by
  have hlong' : ¬UInt8.ofNat n < 0x80 := by
    rw [UInt8.lt_iff_toNat_lt, toNat_ofNat_of_lt hn]
    exact Nat.not_lt.mpr hlong
  rw [readChar, if_neg hlong', h]

/-- A continuation byte of any character adds its six bits. -/
theorem takeContinuation_tail (count bits k : Nat) (rest : Bytes) :
    takeContinuation (count + 1) bits 0x80 0xbf (UInt8.ofNat (k % 64 + 128) :: rest) =
      takeContinuation count (bits * 64 + k % 64) 0x80 0xbf rest := by
  have hlow : (0x80 : UInt8).toNat ≤ k % 64 + 128 := Nat.le_add_left _ _
  have hhigh : k % 64 + 128 ≤ (0xbf : UInt8).toNat := by
    have : (0xbf : UInt8).toNat = 191 := rfl
    omega
  rw [takeContinuation_ofNat hlow hhigh (by omega), Nat.add_sub_cancel]

theorem toNat_ite (p : Prop) [Decidable p] (a b : UInt8) :
    (if p then a else b).toNat = if p then a.toNat else b.toNat := by
  split <;> rfl

/-- **The bytes of a character are read as the character, and no more.** -/
theorem readChar_utf8EncodeChar (c : Char) (rest : Bytes) :
    ∃ b bs, String.utf8EncodeChar c = b :: bs ∧ readChar b (bs ++ rest) = (some c, rest) := by
  have hvalid : c.val.toNat < 0xd800 ∨ 0xdfff < c.val.toNat ∧ c.val.toNat < 0x110000 := c.valid
  have hc : Char.ofNat c.val.toNat = c := Char.ofNat_toNat c
  rw [String.utf8EncodeChar]
  generalize c.val.toNat = v at hvalid hc
  -- the cases are the lengths of the character in bytes
  by_cases h1 : v ≤ 0x7f
  · have hshort : UInt8.ofNat v < 0x80 := by
      rw [UInt8.lt_iff_toNat_lt, toNat_ofNat_of_lt (by omega)]
      exact Nat.lt_succ_of_le h1
    refine ⟨UInt8.ofNat v, [], if_pos h1, ?_⟩
    rw [readChar, if_pos hshort, toNat_ofNat_of_lt (by omega), hc, List.nil_append]
  by_cases h2 : v ≤ 0x7ff
  · have hlead := leadByte_ofNat (v / 64 % 32 + 192) (by omega)
    have hv : (v / 64 % 32 + 192 - 0xc0) * 64 + v % 64 = v := by omega
    rw [if_pos (by omega)] at hlead
    refine ⟨UInt8.ofNat (v / 64 % 32 + 192), [UInt8.ofNat (v % 64 + 128)],
      (if_neg h1).trans (if_pos h2), ?_⟩
    rw [readChar_ofNat (by omega) (by omega) hlead, List.singleton_append, takeContinuation_tail,
      takeContinuation, hv]
    exact congrArg (fun c => (some c, rest)) hc
  by_cases h3 : v ≤ 0xffff
  · have hlead := leadByte_ofNat (v / 4096 % 16 + 224) (by omega)
    have hv : ((v / 4096 % 16 + 224 - 0xe0) * 64 + (v / 64 % 64 + 128 - 0x80)) * 64 + v % 64 = v := by
      omega
    rw [if_neg (by omega), if_pos (by omega)] at hlead
    refine ⟨UInt8.ofNat (v / 4096 % 16 + 224),
      [UInt8.ofNat (v / 64 % 64 + 128), UInt8.ofNat (v % 64 + 128)],
      (if_neg h1).trans ((if_neg h2).trans (if_pos h3)), ?_⟩
    have hlow : (if v / 4096 % 16 + 224 = 0xe0 then 0xa0 else 0x80 : UInt8).toNat ≤
        v / 64 % 64 + 128 := by
      rw [toNat_ite]
      change (if v / 4096 % 16 + 224 = 0xe0 then 0xa0 else 0x80) ≤ _
      split <;> omega
    have hhigh : v / 64 % 64 + 128 ≤
        (if v / 4096 % 16 + 224 = 0xed then 0x9f else 0xbf : UInt8).toNat := by
      rw [toNat_ite]
      change _ ≤ (if v / 4096 % 16 + 224 = 0xed then 0x9f else 0xbf)
      split <;> omega
    rw [readChar_ofNat (by omega) (by omega) hlead, List.cons_append, List.singleton_append,
      takeContinuation_ofNat hlow hhigh (by omega), takeContinuation_tail, takeContinuation, hv]
    exact congrArg (fun c => (some c, rest)) hc
  · have hlead := leadByte_ofNat (v / 262144 % 8 + 240) (by omega)
    have hv : (((v / 262144 % 8 + 240 - 0xf0) * 64 + (v / 4096 % 64 + 128 - 0x80)) * 64 +
        v / 64 % 64) * 64 + v % 64 = v := by omega
    rw [if_neg (by omega), if_neg (by omega), if_pos (by omega)] at hlead
    refine ⟨UInt8.ofNat (v / 262144 % 8 + 240),
      [UInt8.ofNat (v / 4096 % 64 + 128), UInt8.ofNat (v / 64 % 64 + 128),
        UInt8.ofNat (v % 64 + 128)],
      (if_neg h1).trans ((if_neg h2).trans (if_neg h3)), ?_⟩
    have hlow : (if v / 262144 % 8 + 240 = 0xf0 then 0x90 else 0x80 : UInt8).toNat ≤
        v / 4096 % 64 + 128 := by
      rw [toNat_ite]
      change (if v / 262144 % 8 + 240 = 0xf0 then 0x90 else 0x80) ≤ _
      split <;> omega
    have hhigh : v / 4096 % 64 + 128 ≤
        (if v / 262144 % 8 + 240 = 0xf4 then 0x8f else 0xbf : UInt8).toNat := by
      rw [toNat_ite]
      change _ ≤ (if v / 262144 % 8 + 240 = 0xf4 then 0x8f else 0xbf)
      split <;> omega
    rw [readChar_ofNat (by omega) (by omega) hlead, List.cons_append, List.cons_append,
      List.singleton_append, takeContinuation_ofNat hlow hhigh (by omega), takeContinuation_tail,
      takeContinuation_tail, takeContinuation, hv]
    exact congrArg (fun c => (some c, rest)) hc

/-- The bytes of a text are read character by character. -/
theorem readChars_encodeUtf8 (s : List Char) : readChars (encodeUtf8 s) = s.map some := by
  induction s with
  | nil => rw [encodeUtf8, List.flatMap_nil, readChars, List.map_nil]
  | cons c rest ih =>
    obtain ⟨b, bs, hc, hread⟩ := readChar_utf8EncodeChar c (encodeUtf8 rest)
    have hcons : encodeUtf8 (c :: rest) = b :: (bs ++ encodeUtf8 rest) := by
      rw [encodeUtf8, List.flatMap_cons, hc]
      rfl
    rw [hcons, readChars, hread, ih, List.map_cons]

/-- **The bytes of a text are read as the text**, whatever is done about malformed ones. -/
@[simp] theorem decodeUtf8_encodeUtf8 (s : List Char) : decodeUtf8 (encodeUtf8 s) = s := by
  rw [decodeUtf8, readChars_encodeUtf8, List.map_map]
  exact List.map_id s

/-- **The bytes of a text are well-formed**, and stand for the text. -/
@[simp] theorem decodeUtf8?_encodeUtf8 (s : List Char) : decodeUtf8? (encodeUtf8 s) = some s := by
  rw [decodeUtf8?, readChars_encodeUtf8]
  induction s with
  | nil => rfl
  | cons c rest ih =>
    rw [List.map_cons, List.mapM_cons, ih]
    rfl

@[simp] theorem encodeUtf8_append (s t : List Char) :
    encodeUtf8 (s ++ t) = encodeUtf8 s ++ encodeUtf8 t :=
  List.flatMap_append

end Provision.Text
