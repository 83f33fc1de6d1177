/-!
# Blank characters

The white space of Unicode, and texts with the blanks at their ends taken off.

* `trim_eq_nil`: a text trims to nothing exactly when every character is blank.
* `trim_padded`: what does not begin or end with a blank is what is left between blanks.
-/

set_option autoImplicit false

namespace Provision.Text

/-- The characters with the property `White_Space`. -/
def isBlank (c : Char) : Bool :=
  let n := c.toNat
  (9 ≤ n && n ≤ 13) || n == 0x20 || n == 0x85 || n == 0xa0 || n == 0x1680 ||
    (0x2000 ≤ n && n ≤ 0x200a) || n == 0x2028 || n == 0x2029 || n == 0x202f || n == 0x205f ||
    n == 0x3000

/-- A text without the blanks at its start. -/
def trimStart (s : List Char) : List Char := s.dropWhile isBlank

/-- A text without the blanks at its end. -/
def trimEnd (s : List Char) : List Char := (s.reverse.dropWhile isBlank).reverse

/-- A text without the blanks at either end. -/
def trim (s : List Char) : List Char := trimEnd (trimStart s)

private theorem dropWhile_blank_eq_nil (s : List Char) :
    s.dropWhile isBlank = [] ↔ ∀ c ∈ s, isBlank c = true := by
  induction s with
  | nil => simp
  | cons c r ih => by_cases h : isBlank c <;> simp [h, ih]

theorem trimStart_eq_nil (s : List Char) : trimStart s = [] ↔ ∀ c ∈ s, isBlank c = true :=
  dropWhile_blank_eq_nil s

theorem trim_eq_nil (s : List Char) : trim s = [] ↔ ∀ c ∈ s, isBlank c = true := by
  rw [trim, trimEnd, List.reverse_eq_nil_iff, dropWhile_blank_eq_nil]
  constructor
  · intro h
    rw [← trimStart_eq_nil]
    cases hd : trimStart s with
    | nil => rfl
    | cons c r =>
      have hc : isBlank c = true := h c (by simp [hd])
      have hn := List.head?_dropWhile_not isBlank s
      rw [trimStart] at hd
      simp [hd, hc] at hn
  · intro h c hc
    rw [List.mem_reverse] at hc
    exact h c ((List.dropWhile_sublist isBlank).subset hc)

private theorem dropWhile_blank_append {before s : List Char}
    (hbefore : ∀ c ∈ before, isBlank c = true) (hs : ∀ c ∈ s.head?, isBlank c = false) :
    (before ++ s).dropWhile isBlank = s := by
  rw [List.dropWhile_append_of_pos hbefore]
  cases s with
  | nil => rfl
  | cons c s => exact List.dropWhile_cons_of_neg (by rw [hs c rfl]; exact Bool.false_ne_true)

/-- Blanks at the ends of a text are taken off, and nothing else. -/
theorem trim_padded {before s after : List Char} (hbefore : ∀ c ∈ before, isBlank c = true)
    (hafter : ∀ c ∈ after, isBlank c = true) (hfirst : ∃ c ∈ s.head?, isBlank c = false)
    (hlast : ∀ c ∈ s.getLast?, isBlank c = false) : trim (before ++ s ++ after) = s := by
  obtain ⟨c, hc, hblank⟩ := hfirst
  have hstart : ∀ d ∈ (s ++ after).head?, isBlank d = false := by
    rw [List.head?_append, Option.mem_def.mp hc]
    rintro d ⟨⟩
    exact hblank
  have hend : ∀ d ∈ s.reverse.head?, isBlank d = false := by
    rwa [List.head?_reverse]
  rw [trim, trimStart, List.append_assoc, dropWhile_blank_append hbefore hstart, trimEnd,
    List.reverse_append,
    dropWhile_blank_append (fun d hd => hafter d (List.mem_reverse.mp hd)) hend,
    List.reverse_reverse]

/-- No digit is blank. -/
theorem not_isBlank_of_isDigit {c : Char} (h : c.isDigit = true) : isBlank c = false := by
  have hc : 48 ≤ c.toNat ∧ c.toNat ≤ 57 := by
    simpa [Char.isDigit, UInt32.le_iff_toNat_le] using h
  simp only [isBlank, Bool.or_eq_false_iff, Bool.and_eq_false_iff, decide_eq_false_iff_not,
    beq_eq_false_iff_ne]
  omega

end Provision.Text
