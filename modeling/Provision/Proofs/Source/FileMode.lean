import Provision.Proofs.Decode.Mode
import Provision.Source.Validate

/-!
# Modes in the wrong base

A mode that was meant in octal shows the digits of a common mode when it is printed in decimal. The
check compares numbers: it reads the decimal digits of the mode as octal ones and looks the result
up. Reading digits loses nothing, so this is the same as comparing the digits.

* `octalReading_eq_some_iff`: the number that is read has the same digits in base eight.
* `octalReading_eq_none_iff`: nothing is read exactly if there is a digit that base eight lacks.
* `signed?_toString`: the digits are read alike as a text, since no word is too long for it.
* `looksDecimal_exact`: the modes that are warned of.
-/

set_option autoImplicit false

namespace Provision.FileMode

open Decode (Digits digits_toDigits numberOf numberOf_toDigits magnitude?_eq_some_iff signed?
  signed?_unsigned)

/-! ## Digits in two bases -/

theorem toDigits_inj (base : Nat) (hbase : 1 < base) (hten : base ≤ 10) {m n : Nat}
    (h : Nat.toDigits base m = Nat.toDigits base n) : m = n := by
  rw [← Nat.ofDigitChars_toDigits hbase hten (n := m), h, Nat.ofDigitChars_toDigits hbase hten]

/-- The digits of a number that has several are those of its tens, and the last one. -/
theorem toDigits_tens {n : Nat} (h : 0 < n / 10) :
    Nat.toDigits 10 n = Nat.toDigits 10 (n / 10) ++ [(n % 10).digitChar] := by
  rw [Nat.toDigits_eq_if (by decide), if_neg (by omega)]

theorem digitChar_mem_toDigits (n : Nat) : (n % 10).digitChar ∈ Nat.toDigits 10 n := by
  rcases Nat.eq_zero_or_pos (n / 10) with hzero | hpos
  · have hn : n < 10 := by omega
    rw [Nat.toDigits_of_lt_base hn, Nat.mod_eq_of_lt hn]
    exact List.mem_singleton_self _
  · rw [toDigits_tens hpos]
    exact List.mem_append_right _ (List.mem_singleton_self _)

/-! ## Reading decimal digits as octal -/

section Reading

variable {n k : Nat}

/-- **The number that is read has the same digits.** -/
theorem toDigits_of_octalReading (h : octalReading n = some k) :
    Nat.toDigits 8 k = Nat.toDigits 10 n := by
  fun_induction octalReading n generalizing k with
  | case1 =>
    cases h
    rfl
  | case2 n hlt ih =>
    obtain ⟨high, hhigh, rfl⟩ := Option.map_eq_some_iff.mp h
    have hdigits := ih hhigh
    rcases Nat.eq_zero_or_pos ((n + 1) / 10) with hzero | hpos
    · -- a single digit, which is the same in both bases
      rw [hzero, octalReading, Option.some.injEq] at hhigh
      subst hhigh
      rw [Nat.zero_mul, Nat.zero_add, Nat.toDigits_of_lt_base hlt,
        Nat.toDigits_of_lt_base (by omega), Nat.mod_eq_of_lt (by omega)]
    · have hhigh : 0 < high := by
        refine Nat.pos_of_ne_zero fun h0 => ?_
        rw [h0] at hdigits
        have htens : 0 = (n + 1) / 10 :=
          toDigits_inj 10 (by decide) (by decide) hdigits
        omega
      rw [toDigits_tens hpos, ← hdigits, Nat.mul_comm,
        ← Nat.toDigits_append_toDigits (by decide) hhigh hlt, Nat.toDigits_of_lt_base hlt]
  | case3 => cases h

theorem le_of_octalReading (h : octalReading n = some k) : k ≤ n := by
  fun_induction octalReading n generalizing k with
  | case1 =>
    cases h
    exact Nat.le_refl 0
  | case2 n hlt ih =>
    obtain ⟨high, hhigh, rfl⟩ := Option.map_eq_some_iff.mp h
    have hle := ih hhigh
    omega
  | case3 => cases h

/-- Where nothing is read, there is a digit that base eight lacks. -/
theorem mem_of_octalReading_eq_none (h : octalReading n = none) :
    '8' ∈ Nat.toDigits 10 n ∨ '9' ∈ Nat.toDigits 10 n := by
  fun_induction octalReading n with
  | case1 => cases h
  | case2 n hlt ih =>
    have hnone := Option.map_eq_none_iff.mp h
    have hpos : 0 < (n + 1) / 10 := by
      refine Nat.pos_of_ne_zero fun h0 => ?_
      rw [h0, octalReading] at hnone
      cases hnone
    rw [toDigits_tens hpos]
    exact (ih hnone).imp (List.mem_append_left _) (List.mem_append_left _)
  | case3 n hge =>
    have hlast := digitChar_mem_toDigits (n + 1)
    have hdigit : (n + 1) % 10 = 8 ∨ (n + 1) % 10 = 9 := by omega
    rcases hdigit with hdigit | hdigit <;> rw [hdigit] at hlast
    · exact .inl hlast
    · exact .inr hlast

theorem not_mem_toDigits_eight (k : Nat) :
    '8' ∉ Nat.toDigits 8 k ∧ '9' ∉ Nat.toDigits 8 k := by
  have hdigits := (digits_toDigits 8 (by decide) (by decide) k).digit
  exact ⟨fun h => absurd (hdigits _ h).2 (by decide), fun h => absurd (hdigits _ h).2 (by decide)⟩

/-- **What is read is the number with the same digits in base eight.** -/
theorem octalReading_eq_some_iff :
    octalReading n = some k ↔ Nat.toDigits 8 k = Nat.toDigits 10 n := by
  refine ⟨toDigits_of_octalReading, fun h => ?_⟩
  cases hread : octalReading n with
  | none =>
    have hmem := mem_of_octalReading_eq_none hread
    rw [← h] at hmem
    exact absurd hmem (not_or.mpr (not_mem_toDigits_eight k))
  | some k' =>
    have hdigits := toDigits_of_octalReading hread
    rw [toDigits_inj 8 (by decide) (by decide) (hdigits.trans h.symm)]

/-- **Nothing is read exactly if there is an eight or a nine.** -/
theorem octalReading_eq_none_iff :
    octalReading n = none ↔ '8' ∈ Nat.toDigits 10 n ∨ '9' ∈ Nat.toDigits 10 n := by
  refine ⟨mem_of_octalReading_eq_none, fun h => ?_⟩
  refine Option.eq_none_iff_forall_ne_some.mpr fun k hk => ?_
  rw [← toDigits_of_octalReading hk] at h
  exact absurd h (not_or.mpr (not_mem_toDigits_eight k))

theorem octalReading_inj {m : Nat} (hm : octalReading m = some k) (hn : octalReading n = some k) :
    m = n :=
  toDigits_inj 10 (by decide) (by decide)
    ((toDigits_of_octalReading hm).symm.trans (toDigits_of_octalReading hn))

end Reading

/-! ## Reading the text of a number -/

/-- A whole number as it is written in a base up to ten. -/
def numeral (base : Nat) : Int → List Char
  | .ofNat n => Nat.toDigits base n
  | .negSucc n => '-' :: Nat.toDigits base (n + 1)

/-- In base ten, this is how numbers are printed. -/
theorem toList_toString (m : Int) : (toString m).toList = numeral 10 m := by
  cases m with
  | ofNat n => exact (congrArg String.toList Nat.repr_eq_ofList_toDigits).trans String.toList_ofList
  | negSucc n =>
    change ("-" ++ (n + 1).repr).toList = '-' :: Nat.toDigits 10 (n + 1)
    rw [String.toList_append, Nat.repr_eq_ofList_toDigits, String.toList_ofList,
      String.toList_ofList, List.singleton_append]

/-- **The text of a number is read as its digits are.** No number of a word is refused because its
text denotes one that does not fit. -/
theorem signed?_toString {m : Int} (hm : 0 ≤ m) (hfits : Word.holdsSigned m = true) :
    signed? 8 (toString m).toList = (octalReading m.toNat).map Int.ofNat := by
  obtain ⟨n, rfl⟩ := Int.eq_ofNat_of_zero_le hm
  have hten := digits_toDigits 10 (by decide) (by decide) n
  rw [toList_toString, Int.toNat_natCast]
  change signed? 8 (Nat.toDigits 10 n) = _
  rw [signed?_unsigned (hten.head?_ne rfl) (hten.head?_ne rfl)]
  cases hread : octalReading n with
  | none =>
    refine Option.eq_none_iff_forall_ne_some.mpr fun v hv => ?_
    have hdigits := (magnitude?_eq_some_iff.mp hv).1.digit
    rcases octalReading_eq_none_iff.mp hread with hmem | hmem <;>
      exact absurd (hdigits _ hmem).2 (by decide)
  | some k =>
    rw [← toDigits_of_octalReading hread]
    refine magnitude?_eq_some_iff.mpr ⟨digits_toDigits 8 (by decide) (by decide) k, ?_, ?_⟩
    · exact (numberOf_toDigits 8 (by decide) (by decide) k).symm
    · have hle := le_of_octalReading hread
      simp only [Word.holdsSigned, Bool.and_eq_true, decide_eq_true_eq] at hfits ⊢
      exact ⟨Int.le_trans (by decide) (Int.natCast_nonneg k),
        Int.lt_of_le_of_lt (Int.ofNat_le.mpr hle) hfits.2⟩

/-- The number that the digits denote fits a word with the sign of the mode before it as well. -/
theorem holdsSigned_of_octalReading {m : Int} {k : Nat} (hfits : Word.holdsSigned m = true)
    (h : octalReading m.natAbs = some k) : Word.holdsSigned (m.sign * k) = true := by
  have hle := le_of_octalReading h
  simp only [Word.holdsSigned, Bool.and_eq_true, decide_eq_true_eq] at hfits ⊢
  rcases Int.lt_trichotomy m 0 with hneg | rfl | hpos
  · rw [Int.sign_eq_neg_one_of_neg hneg]
    omega
  · rw [Int.sign_zero, Int.zero_mul]
    exact hfits
  · rw [Int.sign_eq_one_of_pos hpos]
    omega

/-! ## The modes that are warned of -/

/-- The modes that are common for a kind of node. -/
def commonModes (isDirectory : Bool) : List Int := if isDirectory then directoryModes else fileModes

theorem isReasonable_iff {isDirectory : Bool} {m : Int} :
    isReasonable isDirectory m = true ↔ m ∈ commonModes isDirectory :=
  List.contains_iff_mem

theorem le_of_mem_commonModes {isDirectory : Bool} {r : Int} (h : r ∈ commonModes isDirectory) :
    8 ≤ r := by
  have hmodes : ∀ isDirectory, ∀ r ∈ commonModes isDirectory, 8 ≤ r := by decide
  exact hmodes isDirectory r h

/-- The check reads the digits of a mode from eight on. -/
theorem looksDecimal_eq (isDirectory : Bool) (m : Int) : looksDecimal isDirectory m =
    (decide (8 ≤ m) && (octalReading m.toNat).any fun k : Nat => isReasonable isDirectory k) := by
  rw [looksDecimal]
  cases octalReading m.toNat <;> rfl

/-- Modes below zero have a sign, which no digits begin with. -/
theorem numeral_ne_of_neg {m : Int} (hm : m < 0) (n : Nat) : numeral 10 m ≠ Nat.toDigits 8 n := by
  have hdigits := digits_toDigits 8 (by decide) (by decide) n
  cases m with
  | ofNat k => exact absurd hm (Int.not_lt.mpr (Int.natCast_nonneg k))
  | negSucc k => exact fun h => hdigits.head?_ne (c := '-') rfl (by rw [← h]; rfl)

/-- **A mode is warned of exactly if its digits are those of a common mode in base eight.** -/
theorem looksDecimal_iff {isDirectory : Bool} {m : Int} : looksDecimal isDirectory m = true ↔
    ∃ r ∈ commonModes isDirectory, numeral 8 r = numeral 10 m := by
  rw [looksDecimal_eq, Bool.and_eq_true, decide_eq_true_eq, Option.any_eq_true]
  constructor
  · rintro ⟨hm, k, hread, hk⟩
    obtain ⟨n, rfl⟩ := Int.eq_ofNat_of_zero_le (Int.le_trans (by decide) hm)
    exact ⟨k, isReasonable_iff.mp hk, toDigits_of_octalReading hread⟩
  · rintro ⟨r, hr, hdigits⟩
    have hlarge := le_of_mem_commonModes hr
    obtain ⟨k, rfl⟩ := Int.eq_ofNat_of_zero_le (Int.le_trans (by decide) hlarge)
    have hm : 0 ≤ m := Int.not_lt.mp fun hneg => numeral_ne_of_neg hneg k hdigits.symm
    obtain ⟨n, rfl⟩ := Int.eq_ofNat_of_zero_le hm
    have hread := octalReading_eq_some_iff.mpr hdigits
    have hle := le_of_octalReading hread
    exact ⟨by omega, k, hread, isReasonable_iff.mpr hr⟩

theorem not_looksDecimal_of_neg {isDirectory : Bool} {m : Int} (hm : m < 0) :
    looksDecimal isDirectory m = false := by
  rw [looksDecimal_eq, decide_eq_false (by omega), Bool.false_and]

/-- The check reads the text of a mode as well. -/
theorem looksDecimal_eq_toString {isDirectory : Bool} {m : Int}
    (hfits : Word.holdsSigned m = true) : looksDecimal isDirectory m =
      (decide (8 ≤ m) && (signed? 8 (toString m).toList).any (isReasonable isDirectory)) := by
  by_cases hm : 0 ≤ m
  · rw [looksDecimal_eq, signed?_toString hm hfits, Option.any_map]
    rfl
  · rw [not_looksDecimal_of_neg (Int.not_le.mp hm), decide_eq_false (by omega), Bool.false_and]

/-- **Digits tell which modes are warned of.** A mode is warned of exactly if some common mode has
the same digits in base eight as it has in base ten. Reading decimal digits as octal tells all
numbers apart; it fails exactly at an eight or a nine, and never because the text of a number of a
word denotes one that does not fit, whichever sign it has; and modes below zero are not warned
of. -/
theorem looksDecimal_exact :
    (∀ (isDirectory : Bool) (m : Int), looksDecimal isDirectory m = true ↔
      ∃ r ∈ if isDirectory then directoryModes else fileModes, numeral 8 r = numeral 10 m) ∧
    (∀ (isDirectory : Bool) (m : Int), Word.holdsSigned m = true →
      looksDecimal isDirectory m =
        (decide (8 ≤ m) && (signed? 8 (toString m).toList).any (isReasonable isDirectory))) ∧
    (∀ n k : Nat, octalReading n = some k ↔ Nat.toDigits 8 k = Nat.toDigits 10 n) ∧
    (∀ m n k : Nat, octalReading m = some k → octalReading n = some k → m = n) ∧
    (∀ m : Int, 0 ≤ m → Word.holdsSigned m = true →
      signed? 8 (toString m).toList = (octalReading m.toNat).map Int.ofNat) ∧
    (∀ (m : Int) (k : Nat), Word.holdsSigned m = true → octalReading m.natAbs = some k →
      Word.holdsSigned (m.sign * k) = true) ∧
    (∀ n : Nat, octalReading n = none ↔ '8' ∈ Nat.toDigits 10 n ∨ '9' ∈ Nat.toDigits 10 n) ∧
    ∀ (isDirectory : Bool) (m : Int), m < 0 → looksDecimal isDirectory m = false := by
  refine ⟨fun _ _ => looksDecimal_iff, fun _ _ hfits => looksDecimal_eq_toString hfits,
    fun _ _ => octalReading_eq_some_iff, fun _ _ _ hm hn => octalReading_inj hm hn,
    fun _ hm hfits => signed?_toString hm hfits,
    fun _ _ hfits hread => holdsSigned_of_octalReading hfits hread,
    fun _ => octalReading_eq_none_iff, fun _ _ hm => not_looksDecimal_of_neg hm⟩

/-- A mode that is warned of for files, one whose text is read, and one below zero. -/
theorem modes_seen :
    looksDecimal false 644 = true ∧ 0 ≤ (4755 : Int) ∧ Word.holdsSigned 4755 = true ∧
      signed? 8 (toString (4755 : Int)).toList = some 0o4755 ∧ Word.holdsSigned (-755) = true ∧
      octalReading (-755 : Int).natAbs = some 0o755 ∧ Word.holdsSigned (-0o755) = true ∧
      (-755 : Int) < 0 ∧ looksDecimal true (-755) = false := by
  have hseen := (looksDecimal_exact.1 false 644).mpr ⟨0o644, by decide, by decide⟩
  have hread := (looksDecimal_exact.2.2.1 4755 0o4755).mpr (by decide)
  have htext := looksDecimal_exact.2.2.2.2.1 4755 (by decide) (by decide)
  rw [show (4755 : Int).toNat = 4755 from rfl, hread] at htext
  have hbelow := (looksDecimal_exact.2.2.1 (-755 : Int).natAbs 0o755).mpr (by decide)
  exact ⟨hseen, by decide, by decide, htext, by decide, hbelow,
    looksDecimal_exact.2.2.2.2.2.1 (-755) 0o755 (by decide) hbelow, by decide,
    looksDecimal_exact.2.2.2.2.2.2.2 true (-755) (by decide)⟩

end Provision.FileMode
