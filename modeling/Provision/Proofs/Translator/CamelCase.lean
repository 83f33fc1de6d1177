import Provision.Proofs.Json.Node
import Provision.Translator

/-!
# The rule for names

A key is named by joining its words, each of which but the first begins with a capital then. As the
words of a key are small and begin with letters, the capitals tell where they were joined: the key
can be read off its name. A name has no underscores, so it names itself.

* `isSnakeCase`: the keys that are made of words.
* `snakeCase_camelCase`: such a key is read back from its name.
* `not_mem_upper`, `camelCase_camelCase`: names have no underscores, and are their own names.
-/

set_option autoImplicit false

namespace Provision

/-! ## Keys and their words -/

/-- Lower-case letters and digits, and underscores each of which stands alone before a letter. -/
def isSnakeTail : List Char → Bool
  | [] => true
  | '_' :: c :: rest => c.isLower && isSnakeTail rest
  | c :: rest => (c.isLower || c.isDigit) && isSnakeTail rest

/-- Words of lower-case letters and digits that begin with letters, with an underscore between each
two. -/
def isSnakeCase (key : String) : Bool :=
  key.toList.head?.any Char.isLower && isSnakeTail key.toList

/-- A capital letter begins a word: an underscore comes before it, and it is small. -/
def apart (c : Char) : List Char := if c.isUpper then ['_', c.toLower] else [c]

/-- Puts an underscore before each capital letter of a name, and makes it small. -/
def snakeCase (name : String) : String := String.ofList (name.toList.flatMap apart)

/-! ## Reading a key off its name -/

namespace camelCase

theorem go_underscore (capital : Bool) (s : List Char) : go capital ('_' :: s) = go true s := by
  rw [go, if_pos rfl]

theorem go_false {c : Char} (h : c ≠ '_') (s : List Char) :
    go false (c :: s) = c :: go false s := by
  rw [go, if_neg h]
  rfl

theorem go_true {c : Char} (h : c ≠ '_') (s : List Char) :
    go true (c :: s) = Text.upper c ++ go false s := by
  rw [go, if_neg h, if_pos rfl]

end camelCase

section Letters

variable {c : Char}

theorem isLower_iff : c.isLower = true ↔ 97 ≤ c.toNat ∧ c.toNat ≤ 122 :=
  Bool.and_eq_true_iff.trans (and_congr decide_eq_true_iff decide_eq_true_iff)

theorem isUpper_iff : c.isUpper = true ↔ 65 ≤ c.toNat ∧ c.toNat ≤ 90 :=
  decide_eq_true_iff

theorem isDigit_iff : c.isDigit = true ↔ 48 ≤ c.toNat ∧ c.toNat ≤ 57 :=
  Bool.and_eq_true_iff.trans (and_congr decide_eq_true_iff decide_eq_true_iff)

theorem apart_of_small (h : (c.isLower || c.isDigit) = true) : apart c = [c] := by
  refine if_neg fun hupper => ?_
  rw [Bool.or_eq_true, isLower_iff, isDigit_iff] at h
  rw [isUpper_iff] at hupper
  omega

theorem ne_underscore_of_small (h : (c.isLower || c.isDigit) = true) : c ≠ '_' := by
  rintro rfl
  exact absurd h (by decide)

/-- The capital of a small letter is that letter at the beginning of a word. -/
theorem flatMap_apart_upper (h : c.isLower = true) : (Text.upper c).flatMap apart = ['_', c] := by
  have hletters : ∀ n < 26, (Text.upper (Char.ofNat (97 + n))).flatMap apart =
      ['_', Char.ofNat (97 + n)] := by decide
  obtain ⟨hfirst, hlast⟩ := isLower_iff.mp h
  have hc : Char.ofNat (97 + (c.toNat - 97)) = c := by
    rw [Nat.add_sub_cancel' hfirst, Char.ofNat_toNat]
  have hletter := hletters (c.toNat - 97) (by omega)
  rwa [hc] at hletter

end Letters

theorem flatMap_apart_go {s : List Char} (h : isSnakeTail s = true) :
    (camelCase.go false s).flatMap apart = s := by
  fun_induction isSnakeTail s with
  | case1 => rfl
  | case2 c rest ih =>
    obtain ⟨hc, hrest⟩ := Bool.and_eq_true_iff.mp h
    have hne : c ≠ '_' := ne_underscore_of_small (by rw [hc]; rfl)
    rw [camelCase.go_underscore, camelCase.go_true hne, List.flatMap_append,
      flatMap_apart_upper hc, ih hrest]
    rfl
  | case3 c rest _ ih =>
    obtain ⟨hc, hrest⟩ := Bool.and_eq_true_iff.mp h
    rw [camelCase.go_false (ne_underscore_of_small hc), List.flatMap_cons, apart_of_small hc,
      ih hrest]
    rfl

/-- **A key that is made of words is read back from its name.** -/
theorem snakeCase_camelCase {key : String} (h : isSnakeCase key = true) :
    snakeCase (camelCase key) = key := by
  rw [isSnakeCase, Bool.and_eq_true] at h
  rw [snakeCase, camelCase, String.toList_ofList, flatMap_apart_go h.2, String.ofList_toList]

/-- So no two such keys share a name. -/
theorem camelCase_inj {k l : String} (hk : isSnakeCase k = true) (hl : isSnakeCase l = true)
    (h : camelCase k = camelCase l) : k = l := by
  rw [← snakeCase_camelCase hk, h, snakeCase_camelCase hl]

/-! ## Names have no underscores -/

theorem ofNat_eq_underscore {n : Nat} (h : Char.ofNat n = '_') : n = 0x5f := by
  by_cases hn : n.isValidChar
  · rw [Char.ofNat, dif_pos hn] at h
    exact congrArg Char.toNat h
  · rw [Char.ofNat, dif_neg hn] at h
    exact absurd h (by decide)

/-- The upper case of a letter of a run is another character than the underscore. -/
theorem ne_underscore_of_covers {r : Text.CaseRun} (hr : r ∈ Text.caseRuns) {n : Nat}
    (hn : r.covers n = true) : (n + r.shift).toNat ≠ 0x5f := by
  have hruns : ∀ r ∈ Text.caseRuns, r.last + r.shift < 0x5f ∨ 0x5f < r.first + r.shift := by
    decide +kernel
  simp only [Text.CaseRun.covers, Bool.and_eq_true, decide_eq_true_eq] at hn
  have hbounds := hruns r hr
  omega

/-- No character but the underscore has one in its upper case. -/
theorem not_mem_upper {c : Char} (h : c ≠ '_') : '_' ∉ Text.upper c := by
  have hexpansions : ∀ e ∈ Text.caseExpansions, 0x5f ∉ e.2 := by decide +kernel
  rw [Text.upper]
  split
  · next hsmall =>
    rw [List.mem_singleton]
    intro hc
    have hle : 'a'.toNat ≤ c.toNat ∧ c.toNat ≤ 'z'.toNat := hsmall
    have hn := ofNat_eq_underscore hc.symm
    have hlast : 'z'.toNat = 122 := rfl
    omega
  split
  · exact fun hc => h (List.mem_singleton.mp hc).symm
  split
  · next cs hcs =>
    intro hmem
    obtain ⟨n, hn, hc⟩ := List.mem_map.mp hmem
    rw [ofNat_eq_underscore hc] at hn
    exact hexpansions _ (List.mem_of_lookup_eq_some hcs) hn
  split
  · next r hr =>
    have hcovers := List.find?_some hr
    rw [List.mem_singleton]
    exact fun hc => ne_underscore_of_covers (List.mem_of_find?_eq_some hr) hcovers
      (ofNat_eq_underscore hc.symm)
  · exact fun hc => h (List.mem_singleton.mp hc).symm

theorem not_mem_go (capital : Bool) (s : List Char) : '_' ∉ camelCase.go capital s := by
  induction s generalizing capital with
  | nil => simp [camelCase.go]
  | cons c s ih =>
    by_cases hc : c = '_'
    · rw [hc, camelCase.go_underscore]
      exact ih true
    cases capital with
    | false =>
      rw [camelCase.go_false hc, List.mem_cons, not_or]
      exact ⟨Ne.symm hc, ih false⟩
    | true =>
      rw [camelCase.go_true hc, List.mem_append, not_or]
      exact ⟨not_mem_upper hc, ih false⟩

/-- A text without underscores is its own name. -/
theorem go_of_not_mem {s : List Char} (h : '_' ∉ s) : camelCase.go false s = s := by
  induction s with
  | nil => rfl
  | cons c s ih =>
    rw [List.mem_cons, not_or] at h
    rw [camelCase.go_false (Ne.symm h.1), ih h.2]

/-- **A name is its own name.** -/
theorem camelCase_camelCase (s : String) : camelCase (camelCase s) = camelCase s := by
  rw [camelCase, camelCase, String.toList_ofList, go_of_not_mem (not_mem_go false s.toList)]

end Provision
