import Provision.Json.Parser
import Provision.Json.Printer
import Provision.Proofs.Text.Utf8

/-!
# Numbers and texts are read back

A whole number that a word can hold and a text between quotes are read as what they were printed
from, whatever stands after them, as long as that does not go on with a number.

* `readNumber_repr`: the digits of a number are read as the number.
* `readText_quote`: a text between quotes is read as the text.
-/

set_option autoImplicit false

namespace Provision.Json

open Text (Bytes encodeUtf8)

/-- The bytes of a text. -/
def utf8 (s : String) : Bytes := encodeUtf8 s.toList

@[simp] theorem utf8_append (s t : String) : utf8 (s ++ t) = utf8 s ++ utf8 t := by
  rw [utf8, String.toList_append, Text.encodeUtf8_append]
  rfl

/-! ## Numbers -/

/-- What follows a number does not go on with it. -/
def Stops (rest : Bytes) : Prop :=
  ∀ b ∈ rest.head?, isDigit b = false ∧ b ≠ 0x2e ∧ b ≠ 0x65 ∧ b ≠ 0x45

theorem stops_nil : Stops [] := nofun

theorem stops_cons {b : UInt8} (h : isDigit b = false ∧ b ≠ 0x2e ∧ b ≠ 0x65 ∧ b ≠ 0x45)
    (rest : Bytes) : Stops (b :: rest) := by
  intro c hc
  cases hc
  exact h

/-- The byte of a digit. -/
def digitByte (c : Char) : UInt8 := UInt8.ofNat c.toNat

theorem digitByte_toNat {c : Char} (h : c.isDigit = true) : (digitByte c).toNat = c.toNat := by
  have hrange : 48 ≤ c.toNat ∧ c.toNat ≤ 57 := by
    simpa [Char.isDigit, UInt32.le_iff_toNat_le] using h
  exact Text.toNat_ofNat_of_lt (by omega)

theorem digit_spec {c : Char} (h : c.isDigit = true) :
    isDigit (digitByte c) = true ∧ digit (digitByte c) = c.toNat - '0'.toNat ∧
      String.utf8EncodeChar c = [digitByte c] := by
  have hrange : 48 ≤ c.toNat ∧ c.toNat ≤ 57 := by
    simpa [Char.isDigit, UInt32.le_iff_toNat_le] using h
  have hbyte := digitByte_toNat h
  refine ⟨?_, ?_, ?_⟩
  · rw [isDigit, Bool.and_eq_true, decide_eq_true_eq, decide_eq_true_eq,
      UInt8.le_iff_toNat_le, UInt8.le_iff_toNat_le, hbyte]
    exact hrange
  · rw [digit, hbyte]
    rfl
  · rw [String.utf8EncodeChar]
    exact if_pos (Nat.le_trans hrange.2 (by decide))

theorem encodeUtf8_digits {cs : List Char} (h : ∀ c ∈ cs, c.isDigit = true) :
    encodeUtf8 cs = cs.map digitByte := by
  induction cs with
  | nil => rfl
  | cons c cs ih =>
    obtain ⟨hc, hcs⟩ := List.forall_mem_cons.mp h
    have hcons : encodeUtf8 (c :: cs) = String.utf8EncodeChar c ++ encodeUtf8 cs :=
      List.flatMap_cons
    rw [hcons, (digit_spec hc).2.2, ih hcs]
    rfl

theorem le_ofDigitChars (cs : List Char) (n : Nat) : n ≤ Nat.ofDigitChars 10 cs n := by
  induction cs generalizing n with
  | nil => exact Nat.le_refl n
  | cons c cs ih =>
    rw [Nat.ofDigitChars_cons]
    exact Nat.le_trans (by omega) (ih _)

/-- Digits are read onto a number that has room for them. -/
theorem takeDigits_digits {limit n count : Nat} {cs : List Char} {rest : Bytes}
    (hd : ∀ c ∈ cs, c.isDigit = true) (hl : Nat.ofDigitChars 10 cs n ≤ limit)
    (hr : Stops rest) :
    takeDigits limit n count (cs.map digitByte ++ rest) =
      (Nat.ofDigitChars 10 cs n, count + cs.length, rest) := by
  induction cs generalizing n count with
  | nil =>
    cases rest with
    | nil => rfl
    | cons b rest =>
      have hb := (hr b rfl).1
      rw [List.map_nil, List.nil_append, takeDigits, if_neg (by rw [hb]; exact nofun)]
      rfl
  | cons c cs ih =>
    obtain ⟨hc, hcs⟩ := List.forall_mem_cons.mp hd
    obtain ⟨hdigit, hvalue, -⟩ := digit_spec hc
    rw [Nat.ofDigitChars_cons] at hl ⊢
    have hstep : n * 10 + digit (digitByte c) = 10 * n + (c.toNat - '0'.toNat) := by
      rw [hvalue, Nat.mul_comm]
    have hroom : n * 10 + digit (digitByte c) ≤ limit := by
      rw [hstep]
      exact Nat.le_trans (le_ofDigitChars cs _) hl
    have hgo : (isDigit (digitByte c) && decide (n * 10 + digit (digitByte c) ≤ limit)) = true := by
      rw [hdigit, decide_eq_true hroom]
      rfl
    rw [List.map_cons, List.cons_append, takeDigits, if_pos hgo, hstep, ih hcs hl,
      List.length_cons, Nat.add_assoc, Nat.add_comm 1]

theorem skipDigits_of_stops {rest : Bytes} (h : Stops rest) : skipDigits rest = (0, rest) := by
  cases rest with
  | nil => rfl
  | cons b rest =>
    have hb := (h b rfl).1
    rw [skipDigits, List.takeWhile_cons_of_neg (by rw [hb]; exact nofun),
      List.dropWhile_cons_of_neg (by rw [hb]; exact nofun)]
    rfl

/-- The digits of a number begin with zero only if it is zero. -/
theorem toDigits_cases (n : Nat) :
    (n = 0 ∧ Nat.toDigits 10 n = ['0']) ∨
      ∃ c cs, Nat.toDigits 10 n = c :: cs ∧ c ≠ '0' := by
  induction n using Nat.strongRecOn with
  | ind n ih =>
    by_cases hn : n < 10
    · have hdigits : ∀ n < 10, n ≠ 0 → n.digitChar ≠ '0' := by decide
      rw [Nat.toDigits_of_lt_base hn]
      by_cases h0 : n = 0
      · exact .inl ⟨h0, by rw [h0]; rfl⟩
      · exact .inr ⟨n.digitChar, [], rfl, hdigits n hn h0⟩
    · have happ := Nat.toDigits_append_toDigits (b := 10) (n := n / 10) (d := n % 10) (by decide)
        (by omega) (by omega)
      rw [Nat.div_add_mod] at happ
      rcases ih (n / 10) (by omega) with ⟨h0, -⟩ | ⟨c, cs, hc, hne⟩
      · omega
      · refine .inr ⟨c, cs ++ Nat.toDigits 10 (n % 10), ?_, hne⟩
        rw [← happ, hc]
        rfl

theorem utf8_repr (n : Nat) : utf8 n.repr = (Nat.toDigits 10 n).map digitByte := by
  have hd : ∀ c ∈ Nat.toDigits 10 n, c.isDigit = true := fun _ =>
    Nat.isDigit_of_mem_toDigits (by decide) (by decide)
  rw [utf8, Nat.repr, String.toList_ofList, encodeUtf8_digits hd]

/-- A number ends where its digits end. -/
theorem readNumber_end {b : UInt8} {digits rest : Bytes} {negative : Bool} {n count : Nat}
    (hb : isDigit b = true) (hzero : b = 0x30 → ((digits ++ rest).head?.map isDigit).getD false = false)
    (htake : (if b = 0x30 then (0, 1, digits ++ rest)
      else takeDigits (Word.count - 1) (digit b) 1 (digits ++ rest)) = (n, count, rest))
    (hr : Stops rest) :
    readNumber negative (b :: (digits ++ rest)) = .ok (wholeNumber negative n, rest) := by
  have hpadded : ¬(b = 0x30 ∧ ((digits ++ rest).head?.map isDigit).getD false = true) := by
    rintro ⟨h0, h⟩
    rw [hzero h0] at h
    cases h
  rw [readNumber, hb, Bool.not_true, if_neg Bool.false_ne_true, if_neg hpadded, htake]
  dsimp only
  rw [skipDigits_of_stops hr]
  dsimp only
  cases rest with
  | nil => rfl
  | cons c rest =>
    obtain ⟨-, hpoint, he, hE⟩ := hr c rfl
    dsimp only
    rw [if_neg hpoint, if_neg (by rintro (h | h) <;> contradiction), if_pos rfl]

/-- **The digits of a number that a word can hold are read as the number.** -/
theorem readNumber_repr {n : Nat} (hn : n < Word.count) {rest : Bytes} (hr : Stops rest)
    (negative : Bool) :
    readNumber negative (utf8 n.repr ++ rest) = .ok (wholeNumber negative n, rest) := by
  have hd : ∀ c ∈ Nat.toDigits 10 n, c.isDigit = true := fun _ =>
    Nat.isDigit_of_mem_toDigits (by decide) (by decide)
  have hvalue : Nat.ofDigitChars 10 (Nat.toDigits 10 n) 0 = n :=
    Nat.ofDigitChars_toDigits (by decide) (by decide)
  have hstop : (rest.head?.map isDigit).getD false = false := by
    cases rest with
    | nil => rfl
    | cons b rest => exact (hr b rfl).1
  rw [utf8_repr]
  rcases toDigits_cases n with ⟨rfl, h0⟩ | ⟨c, cs, hc, hne⟩
  · rw [h0]
    exact @readNumber_end 0x30 [] rest negative 0 1 rfl (fun _ => hstop) (if_pos rfl) hr
  · rw [hc] at hd hvalue
    obtain ⟨hdc, hcs⟩ := List.forall_mem_cons.mp hd
    obtain ⟨hdigit, hval, -⟩ := digit_spec hdc
    have hfirst : digitByte c ≠ 0x30 := by
      intro h
      have hcode : c.toNat = 48 := by
        rw [← digitByte_toNat hdc, h]; rfl
      exact hne (by rw [← Char.ofNat_toNat c, hcode])
    have hread : Nat.ofDigitChars 10 cs (digit (digitByte c)) = n := by
      rwa [Nat.ofDigitChars_cons, Nat.mul_zero, Nat.zero_add, ← hval] at hvalue
    have htake : takeDigits (Word.count - 1) (digit (digitByte c)) 1 (cs.map digitByte ++ rest) =
        (n, 1 + cs.length, rest) := by
      rw [takeDigits_digits hcs (by rw [hread]; exact Nat.le_pred_of_lt hn) hr, hread]
    rw [hc, List.map_cons, List.cons_append]
    exact readNumber_end hdigit (fun h => absurd h hfirst) ((if_neg hfirst).trans htake) hr

/-! ## Texts -/

/-- Whether a byte stands for itself inside quotes. -/
def IsPlain (b : UInt8) : Prop := b ≠ 0x22 ∧ b ≠ 0x5c ∧ ¬b < 0x20

theorem readTextBytes_plain {bs : Bytes} (h : ∀ b ∈ bs, IsPlain b) (fuel : Nat)
    (soFar rest : Bytes) :
    readTextBytes (fuel + bs.length) soFar (bs ++ rest) =
      readTextBytes fuel (bs.reverse ++ soFar) rest := by
  induction bs generalizing soFar with
  | nil => rfl
  | cons b bs ih =>
    obtain ⟨⟨hquote, hslash, hcontrol⟩, hbs⟩ := List.forall_mem_cons.mp h
    rw [List.length_cons, ← Nat.add_assoc, List.cons_append, readTextBytes, if_neg hquote,
      if_neg hslash, if_neg hcontrol, ih hbs, List.reverse_cons, List.append_assoc]
    rfl

/-- An escape is read as the character it stands for. -/
theorem readTextBytes_escape {c : Char} {bs rest : Bytes}
    (h : readEscape (bs ++ rest) = .ok (c, rest)) (fuel : Nat) (soFar : Bytes) :
    readTextBytes (fuel + 1) soFar (0x5c :: (bs ++ rest)) =
      readTextBytes fuel ((String.utf8EncodeChar c).reverse ++ soFar) rest := by
  rw [readTextBytes, if_neg (by decide), if_pos rfl, h]
  rfl

/-- The bytes of a character that stands for itself. -/
theorem isPlain_of_char {c : Char} (hquote : c ≠ '"') (hslash : c ≠ '\\') (hcontrol : ¬c.toNat < 32) :
    ∀ b ∈ String.utf8EncodeChar c, IsPlain b := by
  have plain : ∀ {n : Nat}, n < 256 → n ≠ 0x22 → n ≠ 0x5c → 0x20 ≤ n → IsPlain (UInt8.ofNat n) := by
    intro n hn h1 h2 h3
    have hb := Text.toNat_ofNat_of_lt hn
    refine ⟨fun h => h1 ?_, fun h => h2 ?_, fun h => ?_⟩
    · rw [← hb, h]
      rfl
    · rw [← hb, h]
      rfl
    · rw [UInt8.lt_iff_toNat_lt, hb] at h
      exact absurd h (Nat.not_lt.mpr h3)
  have hcode : ∀ d : Char, c ≠ d → c.val.toNat ≠ d.toNat := fun d hne h =>
    hne (by rw [← Char.ofNat_toNat c, ← Char.ofNat_toNat d]; exact congrArg Char.ofNat h)
  have hq : c.val.toNat ≠ 0x22 := hcode _ hquote
  have hs : c.val.toNat ≠ 0x5c := hcode _ hslash
  have hc : ¬c.val.toNat < 32 := hcontrol
  intro b hb
  rw [String.utf8EncodeChar] at hb
  generalize c.val.toNat = v at hb hq hs hc
  by_cases h1 : v ≤ 0x7f
  · rw [if_pos h1] at hb
    cases List.mem_singleton.mp hb
    exact plain (by omega) hq hs (by omega)
  · rw [if_neg h1] at hb
    have high : ∃ n, 128 ≤ n ∧ n < 256 ∧ b = UInt8.ofNat n := by
      split at hb
      · simp only [List.mem_cons, List.not_mem_nil, or_false] at hb
        rcases hb with rfl | rfl <;> exact ⟨_, by omega, by omega, rfl⟩
      · split at hb
        · simp only [List.mem_cons, List.not_mem_nil, or_false] at hb
          rcases hb with rfl | rfl | rfl <;> exact ⟨_, by omega, by omega, rfl⟩
        · simp only [List.mem_cons, List.not_mem_nil, or_false] at hb
          rcases hb with rfl | rfl | rfl | rfl <;> exact ⟨_, by omega, by omega, rfl⟩
    obtain ⟨n, hlow, hn, rfl⟩ := high
    exact plain hn (by omega) (by omega) (by omega)

/-- The escape of a control character by number. -/
theorem controlEscape_spec : ∀ n < 32, ∃ a b, encodeUtf8 (controlEscape (Char.ofNat n)) =
    [0x5c, 0x75, 0x30, 0x30, a, b] ∧ hexValue a = some (n / 16) ∧ hexValue b = some (n % 16) := by
  intro n hn
  have hall : ∀ n < 32, let bs := encodeUtf8 (controlEscape (Char.ofNat n))
      bs = [0x5c, 0x75, 0x30, 0x30, bs.getD 4 0, bs.getD 5 0] ∧
        hexValue (bs.getD 4 0) = some (n / 16) ∧ hexValue (bs.getD 5 0) = some (n % 16) := by
    decide
  exact ⟨_, _, hall n hn⟩

/-- **A character inside quotes is read as itself.** -/
theorem readTextBytes_escapeChar (c : Char) :
    ∃ steps ≤ (encodeUtf8 (escapeChar c)).length, ∀ fuel soFar rest,
      readTextBytes (fuel + steps) soFar (encodeUtf8 (escapeChar c) ++ rest) =
        readTextBytes fuel ((String.utf8EncodeChar c).reverse ++ soFar) rest := by
  have short : ∀ {bs : Bytes}, encodeUtf8 (escapeChar c) = 0x5c :: bs →
      (∀ rest, readEscape (bs ++ rest) = .ok (c, rest)) →
      ∃ steps ≤ (encodeUtf8 (escapeChar c)).length, ∀ fuel soFar rest,
        readTextBytes (fuel + steps) soFar (encodeUtf8 (escapeChar c) ++ rest) =
          readTextBytes fuel ((String.utf8EncodeChar c).reverse ++ soFar) rest := by
    intro bs he hread
    rw [he]
    exact ⟨1, Nat.le_add_left _ _, fun fuel soFar rest =>
      readTextBytes_escape (hread rest) fuel soFar⟩
  by_cases h1 : c = '"'
  · subst h1
    exact short rfl fun _ => rfl
  by_cases h2 : c = '\\'
  · subst h2
    exact short rfl fun _ => rfl
  by_cases h3 : c = '\n'
  · subst h3
    exact short rfl fun _ => rfl
  by_cases h4 : c = '\r'
  · subst h4
    exact short rfl fun _ => rfl
  by_cases h5 : c = '\t'
  · subst h5
    exact short rfl fun _ => rfl
  by_cases h6 : c = Char.ofNat 8
  · subst h6
    exact short rfl fun _ => rfl
  by_cases h7 : c = Char.ofNat 12
  · subst h7
    exact short rfl fun _ => rfl
  by_cases h8 : c.toNat < 32
  · have he : escapeChar c = controlEscape (Char.ofNat c.toNat) := by
      rw [Char.ofNat_toNat, escapeChar, if_neg h1, if_neg h2, if_neg h3, if_neg h4, if_neg h5,
        if_neg h6, if_neg h7, if_pos h8]
    obtain ⟨a, b, hbytes, ha, hb⟩ := controlEscape_spec c.toNat h8
    refine short (he ▸ hbytes) fun rest => ?_
    have hhex : readHex (0x30 :: 0x30 :: a :: b :: rest) = .ok (c.toNat, rest) := by
      have h0 : hexValue 0x30 = some 0 := rfl
      have hn : ((0 * 16 + 0) * 16 + c.toNat / 16) * 16 + c.toNat % 16 = c.toNat := by omega
      rw [readHex, h0, ha, hb]
      simp only [hn]
    change readNumbered (0x30 :: 0x30 :: a :: b :: rest) = _
    rw [readNumbered, hhex]
    change (if 0xdc00 ≤ c.toNat ∧ c.toNat ≤ 0xdfff then _ else _) = _
    rw [if_neg (by omega), if_pos (by omega), Char.ofNat_toNat]
  · have he : encodeUtf8 (escapeChar c) = String.utf8EncodeChar c := by
      rw [escapeChar, if_neg h1, if_neg h2, if_neg h3, if_neg h4, if_neg h5, if_neg h6, if_neg h7,
        if_neg h8]
      exact List.append_nil _
    rw [he]
    exact ⟨_, Nat.le_refl _, fun fuel soFar rest =>
      readTextBytes_plain (isPlain_of_char h1 h2 h8) fuel soFar rest⟩

/-- The characters of a text inside quotes. -/
def escaped (s : String) : Bytes := encodeUtf8 (s.toList.flatMap escapeChar)

/-- The bytes of a text up to its closing quote are read as those of the text. -/
theorem readTextBytes_escaped (cs : List Char) (rest : Bytes) :
    ∀ fuel soFar, (encodeUtf8 (cs.flatMap escapeChar)).length < fuel →
      readTextBytes fuel soFar (encodeUtf8 (cs.flatMap escapeChar) ++ 0x22 :: rest) =
        .ok ((encodeUtf8 cs).reverse ++ soFar, rest) := by
  induction cs with
  | nil =>
    intro fuel soFar hfuel
    obtain ⟨fuel, rfl⟩ : ∃ n, fuel = n + 1 := ⟨fuel - 1, by omega⟩
    rfl
  | cons c cs ih =>
    intro fuel soFar hfuel
    obtain ⟨steps, hsteps, hread⟩ := readTextBytes_escapeChar c
    rw [List.flatMap_cons, Text.encodeUtf8_append, List.length_append] at hfuel
    obtain ⟨left, rfl⟩ : ∃ left, fuel = left + steps := ⟨fuel - steps, by omega⟩
    have hcons : encodeUtf8 (c :: cs) = String.utf8EncodeChar c ++ encodeUtf8 cs :=
      List.flatMap_cons
    rw [List.flatMap_cons, Text.encodeUtf8_append, List.append_assoc, hread, ih _ _ (by omega),
      hcons, List.reverse_append, List.append_assoc]

theorem utf8_quote (s : String) : utf8 (quote s) = 0x22 :: (escaped s ++ [0x22]) := by
  have hcons : ∀ cs, encodeUtf8 ('"' :: cs) = 0x22 :: encodeUtf8 cs := fun _ => rfl
  rw [utf8, quote, String.toList_ofList, hcons, Text.encodeUtf8_append]
  rfl

/-- **A text after its opening quote is read as the text.** -/
theorem readText_escaped (s : String) (rest : Bytes) :
    readText (escaped s ++ 0x22 :: rest) = .ok (s, rest) := by
  rw [escaped, readText, readTextBytes_escaped s.toList rest _ [] (by
    rw [List.length_append]
    omega)]
  change Except.ok (String.ofList (Text.decodeUtf8 (_ ++ []).reverse), rest) = _
  rw [List.append_nil, List.reverse_reverse, Text.decodeUtf8_encodeUtf8, String.ofList_toList]

end Provision.Json
