import Provision.Decode.Mode

/-!
# How file modes are written

What follows a zero or `0o` is read as octal digits. The reader of numbers also takes a sign in
front of them, so that such a text is a mode as well; all other texts are refused, and so are
numbers that do not fit a word.

* `Digits`, `Signed`: digits of a base, and numbers with an optional sign.
* `signed?_eq_some_iff`: what is read as a number.
* `Octal`: the texts that are taken for octal, with what is read of them.
* `modeOfText?_octal`: which of them are modes; every mode is read back from its octal digits.
* `signed_read`: a sign behind `0o`.
-/

set_option autoImplicit false

namespace Provision.Decode

open Text (isBlank not_isBlank_of_isDigit trim trim_padded)

/-! ## Numbers -/

/-- One or more digits of a base up to ten. -/
structure Digits (base : Nat) (s : List Char) : Prop where
  ne_nil : s ≠ []
  digit : ∀ c ∈ s, c.isDigit = true ∧ c.toNat - 48 < base

/-- The number that digits of a base denote. -/
def numberOf (base : Nat) (s : List Char) : Int := Nat.ofDigitChars base s 0

/-- Digits with an optional sign, and the number that is meant. -/
inductive Signed (base : Nat) : List Char → Int → Prop
  | unsigned {s : List Char} : Digits base s → Signed base s (numberOf base s)
  | plus {s : List Char} : Digits base s → Signed base ('+' :: s) (numberOf base s)
  | minus {s : List Char} : Digits base s → Signed base ('-' :: s) (-numberOf base s)

section Numbers

variable {base : Nat} {s : List Char} {n : Int}

/-- What is read behind the sign. -/
def magnitude? (base : Nat) (negative : Bool) (digits : List Char) : Option Int :=
  if digits.isEmpty || !digits.all (fun c => c.isDigit && c.toNat - 48 < base) then none
  else
    let size : Int := (digits.foldl (fun n c => n * base + (c.toNat - 48)) 0 : Nat)
    let n := if negative then -size else size
    if Word.holdsSigned n then some n else none

theorem signed?_minus (s : List Char) : signed? base ('-' :: s) = magnitude? base true s := rfl

theorem signed?_plus (s : List Char) : signed? base ('+' :: s) = magnitude? base false s := rfl

theorem signed?_unsigned (hplus : s.head? ≠ some '+') (hminus : s.head? ≠ some '-') :
    signed? base s = magnitude? base false s := by
  cases s with
  | nil => rfl
  | cons c rest =>
    unfold signed?
    split
    next hparts =>
    split at hparts
    · next h => exact absurd (congrArg List.head? h) hminus
    · next h => exact absurd (congrArg List.head? h) hplus
    · cases hparts
      rfl

/-- Digits are read if the number fits. -/
theorem magnitude?_eq_some_iff {negative : Bool} : magnitude? base negative s = some n ↔
    Digits base s ∧ n = (if negative then -numberOf base s else numberOf base s) ∧
      Word.holdsSigned n = true := by
  have hvalue : ((s.foldl (fun n c => n * base + (c.toNat - 48)) 0 : Nat) : Int) =
      numberOf base s := by
    rw [numberOf, Nat.ofDigitChars_eq_foldl]
    simp only [Nat.mul_comm base]
    rfl
  have hdigits : (s.isEmpty || !s.all fun c => c.isDigit && decide (c.toNat - 48 < base)) = false ↔
      Digits base s := by
    simp only [Bool.or_eq_false_iff, Bool.not_eq_false', List.isEmpty_eq_false_iff,
      List.all_eq_true, Bool.and_eq_true, decide_eq_true_eq]
    exact ⟨fun h => ⟨h.1, h.2⟩, fun h => ⟨h.ne_nil, h.digit⟩⟩
  rw [magnitude?, hvalue]
  by_cases h : Digits base s
  · rw [hdigits.mpr h, if_neg Bool.false_ne_true]
    dsimp only
    generalize (if negative = true then -numberOf base s else numberOf base s) = v
    simp only [Option.ite_none_right_eq_some, Option.some.injEq, h, true_and]
    grind
  · rw [eq_true_of_ne_false (mt hdigits.mp h), if_pos rfl]
    simp [h]

theorem holdsSigned_numberOf (base : Nat) (s : List Char) :
    Word.holdsSigned (numberOf base s) = true ↔ numberOf base s < Word.half := by
  have hnonneg : 0 ≤ numberOf base s := Int.natCast_nonneg _
  rw [Word.holdsSigned, Bool.and_eq_true, decide_eq_true_eq, decide_eq_true_eq]
  exact ⟨And.right, fun h => ⟨by omega, h⟩⟩

theorem Digits.head?_ne (h : Digits base s) {c : Char} (hc : c.isDigit = false) :
    s.head? ≠ some c := by
  intro hs
  have hdigit := (h.digit c (List.mem_of_head? hs)).1
  rw [hc] at hdigit
  cases hdigit

/-- **What is read as a number.** -/
theorem signed?_eq_some_iff :
    signed? base s = some n ↔ Signed base s n ∧ Word.holdsSigned n = true := by
  constructor
  · intro h
    by_cases hminus : s.head? = some '-'
    · obtain ⟨rest, rfl⟩ := List.head?_eq_some_iff.mp hminus
      rw [signed?_minus, magnitude?_eq_some_iff] at h
      obtain ⟨hdigits, rfl, hfits⟩ := h
      exact ⟨.minus hdigits, hfits⟩
    by_cases hplus : s.head? = some '+'
    · obtain ⟨rest, rfl⟩ := List.head?_eq_some_iff.mp hplus
      rw [signed?_plus, magnitude?_eq_some_iff] at h
      obtain ⟨hdigits, rfl, hfits⟩ := h
      exact ⟨.plus hdigits, hfits⟩
    rw [signed?_unsigned hplus hminus, magnitude?_eq_some_iff] at h
    obtain ⟨hdigits, rfl, hfits⟩ := h
    exact ⟨.unsigned hdigits, hfits⟩
  · rintro ⟨hsigned, hfits⟩
    cases hsigned with
    | unsigned hdigits =>
      rw [signed?_unsigned (hdigits.head?_ne rfl) (hdigits.head?_ne rfl)]
      exact magnitude?_eq_some_iff.mpr ⟨hdigits, rfl, hfits⟩
    | plus hdigits => exact magnitude?_eq_some_iff.mpr ⟨hdigits, rfl, hfits⟩
    | minus hdigits => exact magnitude?_eq_some_iff.mpr ⟨hdigits, rfl, hfits⟩

end Numbers

/-! ## Octal digits -/

theorem digits_toDigits (base : Nat) (hbase : 1 < base) (hten : base ≤ 10) (m : Nat) :
    Digits base (Nat.toDigits base m) where
  ne_nil := Nat.toDigits_ne_nil
  digit := by
    induction m using Nat.strongRecOn with
    | ind m ih =>
      have hlast (d : Nat) (hd : d < base) :
          d.digitChar.isDigit = true ∧ d.digitChar.toNat - 48 < base := by
        rw [Nat.isDigit_digitChar, Nat.toNat_digitChar_sub_48_of_lt_ten (by omega)]
        exact ⟨decide_eq_true (by omega), hd⟩
      rw [Nat.toDigits_eq_if hbase]
      split
      · next hm => simpa using hlast m hm
      · next hm =>
        intro c hc
        rcases List.mem_append.mp hc with hc | hc
        · exact ih (m / base) (Nat.div_lt_self (by omega) hbase) c hc
        · rw [List.mem_singleton.mp hc]
          exact hlast _ (Nat.mod_lt m (by omega))

theorem numberOf_toDigits (base : Nat) (hbase : 1 < base) (hten : base ≤ 10) (m : Nat) :
    numberOf base (Nat.toDigits base m) = m := by
  rw [numberOf, Nat.ofDigitChars_toDigits hbase hten]

/-- Zeros in front of digits. -/
theorem Digits.zeros {base : Nat} {s : List Char} (h : Digits base s) (hbase : 0 < base)
    (zeros : Nat) : Digits base (List.replicate zeros '0' ++ s) where
  ne_nil := List.append_ne_nil_of_right_ne_nil _ h.ne_nil
  digit c hc := by
    rcases List.mem_append.mp hc with hc | hc
    · rw [List.eq_of_mem_replicate hc]
      exact ⟨rfl, hbase⟩
    · exact h.digit c hc

theorem numberOf_zeros (base zeros : Nat) (s : List Char) :
    numberOf base (List.replicate zeros '0' ++ s) = numberOf base s := by
  rw [numberOf, Nat.ofDigitChars_append, Nat.ofDigitChars_replicate_zero, Nat.mul_zero, numberOf]

/-- The texts that are taken for octal, and what is read of them. -/
inductive Octal : List Char → List Char → Prop
  | letter (rest : List Char) : Octal ('0' :: 'o' :: rest) rest
  | zero {c : Char} (rest : List Char) : c ≠ 'o' → Octal ('0' :: c :: rest) (c :: rest)

theorem modeOfText?_of_octal {s : String} {t rest : List Char} (ht : trim s.toList = t)
    (h : Octal t rest) : modeOfText? s = signed? 8 rest := by
  rw [modeOfText?, ht]
  cases h with
  | letter => rfl
  | zero rest hc =>
    split
    · next heq => exact absurd (List.cons.inj (List.cons.inj heq).2).1 hc
    · next heq => rw [(List.cons.inj heq).2]
    · next hother => exact absurd rfl (hother _ _)

theorem Digits.octal {t digits : List Char} (h : Digits 8 digits)
    (ht : t = '0' :: 'o' :: digits ∨ t = '0' :: digits) : Octal t digits := by
  rcases ht with rfl | rfl
  · exact .letter digits
  · obtain ⟨c, rest, rfl⟩ := List.exists_cons_of_ne_nil h.ne_nil
    refine .zero rest fun hc => h.head?_ne (c := 'o') rfl ?_
    rw [hc]
    rfl

/-- A sign stands behind the zero or `0o`. -/
def HasSign (t : List Char) : Prop := ∃ rest, Octal t rest ∧ ∃ c ∈ rest.head?, c = '+' ∨ c = '-'

/-- **Without a sign, the texts of octal modes are those of octal digits.** -/
theorem modeOfText?_eq_some_iff {s : String} {t : List Char} (ht : trim s.toList = t)
    (hsign : ¬HasSign t) {n : Int} :
    (∃ rest, Octal t rest) ∧ modeOfText? s = some n ↔
      ∃ digits, (t = '0' :: 'o' :: digits ∨ t = '0' :: digits) ∧ Digits 8 digits ∧
        n = numberOf 8 digits ∧ numberOf 8 digits < Word.half := by
  constructor
  · rintro ⟨⟨rest, hrest⟩, hn⟩
    rw [modeOfText?_of_octal ht hrest, signed?_eq_some_iff] at hn
    obtain ⟨hsigned, hfits⟩ := hn
    cases hsigned with
    | unsigned hdigits =>
      refine ⟨rest, ?_, hdigits, rfl, (holdsSigned_numberOf 8 rest).mp hfits⟩
      cases hrest with
      | letter => exact .inl rfl
      | zero => exact .inr rfl
    | plus => exact absurd ⟨_, hrest, _, rfl, .inl rfl⟩ hsign
    | minus => exact absurd ⟨_, hrest, _, rfl, .inr rfl⟩ hsign
  · rintro ⟨digits, hspelled, hdigits, rfl, hfits⟩
    have hoctal := hdigits.octal hspelled
    refine ⟨⟨digits, hoctal⟩, ?_⟩
    rw [modeOfText?_of_octal ht hoctal, signed?_eq_some_iff]
    exact ⟨.unsigned hdigits, (holdsSigned_numberOf 8 digits).mpr hfits⟩

/-! ## Spellings of a mode -/

/-- Octal digits behind a zero or `0o` are read, with blanks around them. -/
theorem modeOfText?_spelled {s : String} {digits before after start : List Char}
    (hdigits : Digits 8 digits) (hfits : numberOf 8 digits < Word.half)
    (hbefore : ∀ c ∈ before, isBlank c = true) (hafter : ∀ c ∈ after, isBlank c = true)
    (hstart : start = ['0', 'o'] ∨ start = ['0'])
    (hs : s.toList = before ++ (start ++ digits) ++ after) :
    modeOfText? s = some (numberOf 8 digits) := by
  have hfirst : ∃ c ∈ (start ++ digits).head?, isBlank c = false := by
    rcases hstart with rfl | rfl <;> exact ⟨'0', rfl, rfl⟩
  have hlast : ∀ c ∈ (start ++ digits).getLast?, isBlank c = false := by
    rw [List.getLast?_append, List.getLast?_eq_some_getLast hdigits.ne_nil]
    rintro c ⟨⟩
    exact not_isBlank_of_isDigit (hdigits.digit _ (List.getLast_mem _)).1
  have htrim : trim s.toList = start ++ digits := by
    rw [hs, trim_padded hbefore hafter hfirst hlast]
  have hoctal : Octal (start ++ digits) digits := hdigits.octal (by
    rcases hstart with rfl | rfl
    · exact .inl rfl
    · exact .inr rfl)
  rw [modeOfText?_of_octal htrim hoctal, signed?_eq_some_iff]
  exact ⟨.unsigned hdigits, (holdsSigned_numberOf 8 digits).mpr hfits⟩

/-- **Which texts are octal modes.** Without a sign, a trimmed text is taken for octal and is a mode
exactly if it is a zero or `0o` and one or more octal digits whose number fits a word, and that
number is the mode. With a sign it is so for the digits behind the sign, and the sign counts. Every
mode from zero on is read back from both of its spellings, with any zeros in front. -/
theorem modeOfText?_octal {s : String} {t : List Char} (ht : trim s.toList = t) :
    (¬HasSign t → ∀ n, (∃ rest, Octal t rest) ∧ modeOfText? s = some n ↔
      ∃ digits, (t = '0' :: 'o' :: digits ∨ t = '0' :: digits) ∧ Digits 8 digits ∧
        n = numberOf 8 digits ∧ numberOf 8 digits < Word.half) ∧
    (∀ rest n, Octal t rest →
      (modeOfText? s = some n ↔ Signed 8 rest n ∧ Word.holdsSigned n = true)) ∧
    ∀ (m zeros : Nat) (before after start : List Char), m < Word.half →
      (∀ c ∈ before, isBlank c = true) → (∀ c ∈ after, isBlank c = true) →
      (start = ['0', 'o'] ∨ start = ['0']) →
      s.toList = before ++ (start ++ (List.replicate zeros '0' ++ Nat.toDigits 8 m)) ++ after →
      modeOfText? s = some (m : Int) := by
  refine ⟨fun hsign n => ?_, fun rest n hrest => ?_,
    fun m zeros before after start hm hbefore hafter hstart hs => ?_⟩
  · exact modeOfText?_eq_some_iff ht hsign
  · rw [modeOfText?_of_octal ht hrest, signed?_eq_some_iff]
  · have hdigits := (digits_toDigits 8 (by decide) (by decide) m).zeros (by decide) zeros
    have hnumber : numberOf 8 (List.replicate zeros '0' ++ Nat.toDigits 8 m) = m := by
      rw [numberOf_zeros, numberOf_toDigits 8 (by decide) (by decide)]
    have hfits : numberOf 8 (List.replicate zeros '0' ++ Nat.toDigits 8 m) < Word.half := by
      rw [hnumber]
      exact Int.ofNat_lt.mpr hm
    rw [modeOfText?_spelled hdigits hfits hbefore hafter hstart hs, hnumber]

/-- A mode with a blank before it, which is octal digits behind a zero and is read so. -/
theorem permissions_read :
    trim " 00644".toList = ['0', '0', '6', '4', '4'] ∧ ¬HasSign ['0', '0', '6', '4', '4'] ∧
      ((∃ rest, Octal ['0', '0', '6', '4', '4'] rest) ∧ modeOfText? " 00644" = some 420) ∧
      0o644 < Word.half ∧ (∀ c ∈ [' '], isBlank c = true) ∧
      " 00644".toList =
        [' '] ++ (['0'] ++ (List.replicate 1 '0' ++ Nat.toDigits 8 0o644)) ++ [] := by
  have htrim : trim " 00644".toList = ['0', '0', '6', '4', '4'] := by decide
  have hsign : ¬HasSign ['0', '0', '6', '4', '4'] := by
    rintro ⟨rest, hrest, c, hc, h⟩
    cases hrest
    cases hc
    exact absurd h (by decide)
  have hblank : ∀ c ∈ [' '], isBlank c = true := List.forall_mem_singleton.mpr rfl
  have hspelled : " 00644".toList =
      [' '] ++ (['0'] ++ (List.replicate 1 '0' ++ Nat.toDigits 8 0o644)) ++ [] := by decide
  have hread := (modeOfText?_octal htrim).2.2 0o644 1 [' '] [] ['0'] (by decide) hblank nofun
    (.inr rfl) hspelled
  have hdigits := (digits_toDigits 8 (by decide) (by decide) 0o644).zeros (by decide) 1
  have hoctal := ((modeOfText?_octal htrim).1 hsign 420).mpr
    ⟨['0', '6', '4', '4'], .inr rfl, hdigits, rfl, by decide⟩
  exact ⟨htrim, hsign, ⟨hoctal.1, hread⟩, by decide, hblank, hspelled⟩

/-- **A sign behind `0o` is read**, so that there are octal modes below zero. -/
theorem signed_read :
    HasSign (trim "0o-644".toList) ∧ modeOfText? "0o-644" = some (-420) :=
  ⟨⟨"-644".toList, .letter _, '-', rfl, .inr rfl⟩, by decide⟩

end Provision.Decode
