import Provision.Yaml.Tree

/-!
# The quote that closes a scalar

Between quotes, a character may guard the next one: a backslash does so between double quotes, and
the first of two single quotes does so between single quotes. The closing quote is the first quote
that neither is guarded nor guards, wherever runs of quotes and backslashes begin.

* `Inside`: what may stand between quotes; `ClosesAt`: where the closing quote is.
* `closingQuote_eq_some_iff`: it is found there and nowhere else.
* `closingFrom`: the search as a loop over positions, each of which is one of the line.
* `spelled`, `inside_spelled`: every text can be written between quotes.
* `closingQuote_exact`: a scalar that is written so ends where it is measured to end.
-/

set_option autoImplicit false

namespace Provision.Yaml

/-- Whether the character after one is guarded between quotes. -/
def guards (quote c d : Char) : Prop :=
  (c = '\\' ∧ quote = '"') ∨ (c = '\'' ∧ quote = '\'' ∧ d = '\'')

/-! ## Measuring -/

section Measuring

variable {quote c d : Char} {l : List Char}

theorem quotedLength_char (hquote : c ≠ quote) (hslash : c = '\\' → quote ≠ '"')
    (k : List Char) : quotedLength quote (c :: k) = (quotedLength quote k).map (· + 1) := by
  cases k with
  | nil => simp [quotedLength, hquote]
  | cons d k =>
    rw [quotedLength, if_neg, if_neg hquote]
    simp only [Bool.or_eq_true, Bool.and_eq_true, decide_eq_true_eq, not_or]
    exact ⟨fun h => hslash h.1 h.2, fun h => hquote (h.1.1.trans h.1.2.symm)⟩

theorem quotedLength_pair (h : guards quote c d) (k : List Char) :
    quotedLength quote (c :: d :: k) = (quotedLength quote k).map (· + 2) := by
  rw [quotedLength, if_pos]
  simp only [Bool.or_eq_true, Bool.and_eq_true, decide_eq_true_eq]
  exact h.imp id fun h => ⟨⟨h.1, h.2.1⟩, h.2.2⟩

/-- A quote closes unless it is the first of two single quotes. -/
theorem quotedLength_quote {k : List Char} (hk : quote = '\'' → k.head? ≠ some '\'') :
    quotedLength quote (quote :: k) = some 1 := by
  cases k with
  | nil => simp [quotedLength]
  | cons d k =>
    rw [quotedLength, if_neg, if_pos rfl]
    simp only [Bool.or_eq_true, Bool.and_eq_true, decide_eq_true_eq, not_or]
    refine ⟨fun ⟨hslash, hquote⟩ => ?_, fun ⟨⟨hquote, _⟩, hd⟩ => hk hquote (by rw [hd]; rfl)⟩
    rw [hquote] at hslash
    exact absurd hslash (by decide)

/-- What may stand between quotes. -/
inductive Inside (quote : Char) : List Char → Prop
  | nil : Inside quote []
  | char {c : Char} {l : List Char} : c ≠ quote → (c = '\\' → quote ≠ '"') → Inside quote l →
      Inside quote (c :: l)
  | pair {c d : Char} {l : List Char} : guards quote c d → Inside quote l →
      Inside quote (c :: d :: l)

theorem Inside.append {k : List Char} (hl : Inside quote l) (hk : Inside quote k) :
    Inside quote (l ++ k) := by
  induction hl with
  | nil => exact hk
  | char hquote hslash _ ih => exact .char hquote hslash ih
  | pair hguards _ ih => exact .pair hguards ih

/-- What stands between quotes does not close them. -/
theorem Inside.quotedLength_append (h : Inside quote l) (k : List Char) :
    quotedLength quote (l ++ k) = (quotedLength quote k).map (· + l.length) := by
  induction h with
  | nil => simp
  | char hquote hslash _ ih =>
    rw [List.cons_append, quotedLength_char hquote hslash, ih, Option.map_map]
    rfl
  | pair hguards _ ih =>
    rw [List.cons_append, List.cons_append, quotedLength_pair hguards, ih, Option.map_map]
    rfl

/-- What stands between quotes is measured up to the quote that closes it. -/
theorem Inside.quotedLength_close (h : Inside quote l) {k : List Char}
    (hk : quote = '\'' → k.head? ≠ some '\'') :
    quotedLength quote (l ++ quote :: k) = some (l.length + 1) := by
  rw [h.quotedLength_append, quotedLength_quote hk, Option.map_some, Nat.add_comm]

/-- **What is measured stands between quotes, and a quote closes it.** -/
theorem inside_of_quotedLength {n : Nat} (h : quotedLength quote l = some n) :
    ∃ inside rest, l = inside ++ quote :: rest ∧ Inside quote inside ∧ n = inside.length + 1 ∧
      (quote = '\'' → rest.head? ≠ some '\'') := by
  fun_induction quotedLength quote l generalizing n with
  | case1 => cases h
  | case2 => exact ⟨[], [], by simp, .nil, by simpa using h.symm, by simp⟩
  | case3 => cases h
  | case4 c d rest hguards ih =>
    obtain ⟨k, hk, rfl⟩ := Option.map_eq_some_iff.mp h
    obtain ⟨inside, later, rfl, hinside, rfl, hlater⟩ := ih hk
    have hpair : guards quote c d := by
      simpa [guards, and_assoc] using hguards
    exact ⟨c :: d :: inside, later, rfl, .pair hpair hinside, rfl, hlater⟩
  | case5 d rest hguards =>
    refine ⟨[], d :: rest, rfl, .nil, by simpa using h.symm, fun hquote hd => hguards ?_⟩
    simp_all
  | case6 c d rest hguards hquote ih =>
    obtain ⟨k, hk, rfl⟩ := Option.map_eq_some_iff.mp h
    obtain ⟨inside, later, hl, hinside, rfl, hlater⟩ := ih hk
    refine ⟨c :: inside, later, by rw [hl]; rfl, .char hquote ?_ hinside, rfl, hlater⟩
    rintro rfl rfl
    simp at hguards

end Measuring

/-! ## Where the closing quote is -/

/-- The quote at a position closes the scalar that the first character of a line opens. -/
def ClosesAt (quote : Char) (line : List Char) (i : Nat) : Prop :=
  ∃ opening inside rest, line = opening :: inside ++ quote :: rest ∧ Inside quote inside ∧
    i = inside.length + 1 ∧ (quote = '\'' → rest.head? ≠ some '\'')

/-- **The closing quote is found where it is.** -/
theorem closingQuote_eq_some_iff {quote : Char} {line : List Char} {i : Nat} :
    closingQuote quote line = some i ↔ ClosesAt quote line i := by
  constructor
  · intro h
    cases line with
    | nil => cases h
    | cons opening line =>
      obtain ⟨inside, rest, rfl, hinside, hi, hrest⟩ := inside_of_quotedLength h
      exact ⟨opening, inside, rest, rfl, hinside, hi, hrest⟩
  · rintro ⟨opening, inside, rest, rfl, hinside, rfl, hrest⟩
    exact hinside.quotedLength_close hrest

theorem closingQuote_eq_none_iff {quote : Char} {line : List Char} :
    closingQuote quote line = none ↔ ∀ i, ¬ClosesAt quote line i := by
  simp only [Option.eq_none_iff_forall_ne_some, ne_eq, closingQuote_eq_some_iff]

/-! ## The search as a loop

The position moves on by one, or by two where a character is guarded. A character is only looked at
where the line has one, and the position after it may lie behind the end.
-/

/-- The position of the closing quote from a position on. -/
def closingFrom (quote : Char) (chars : List Char) (i : Nat) : Option Nat :=
  if h : i < chars.length then
    if (chars[i] = '\\' ∧ quote = '"') ∨
        (chars[i] = '\'' ∧ quote = '\'' ∧ chars[i + 1]? = some '\'') then
      closingFrom quote chars (i + 2)
    else if chars[i] = quote then some i
    else closingFrom quote chars (i + 1)
  else none
  termination_by chars.length - i

/-- The loop finds what is found by measuring the rest of the line. -/
theorem closingFrom_eq (quote : Char) (chars : List Char) (i : Nat) :
    (closingFrom quote chars i).map (· + 1) = (quotedLength quote (chars.drop i)).map (· + i) := by
  fun_induction closingFrom quote chars i with
  | case1 i h hguards ih =>
    rw [ih, List.drop_eq_getElem_cons h]
    by_cases hnext : i + 1 < chars.length
    · have hpair : guards quote chars[i] chars[i + 1] := by
        simpa [guards, List.getElem?_eq_getElem hnext] using hguards
      rw [List.drop_eq_getElem_cons hnext, quotedLength_pair hpair, Option.map_map]
      exact congrArg (Option.map · _) (funext fun n => by simp; omega)
    · -- a backslash at the end of the line guards nothing
      have hslash : chars[i] = '\\' ∧ quote = '"' := hguards.resolve_right fun h => by
        simp [List.getElem?_eq_none (Nat.le_of_not_lt hnext)] at h
      rw [List.drop_eq_nil_of_le (by omega), List.drop_eq_nil_of_le (by omega), hslash.1, hslash.2]
      rfl
  | case2 i h hguards hquote =>
    have hclose : quote = '\'' → (chars.drop (i + 1)).head? ≠ some '\'' := fun hsingle hnext =>
      hguards (.inr ⟨hquote.trans hsingle, hsingle, by rwa [List.head?_drop] at hnext⟩)
    rw [List.drop_eq_getElem_cons h, hquote, quotedLength_quote hclose]
    simp [Nat.add_comm]
  | case3 i h hguards hquote ih =>
    have hslash : chars[i] = '\\' → quote ≠ '"' := fun hslash hdouble =>
      hguards (.inl ⟨hslash, hdouble⟩)
    rw [ih, List.drop_eq_getElem_cons h, quotedLength_char hquote hslash, Option.map_map]
    exact congrArg (Option.map · _) (funext fun n => by simp; omega)
  | case4 i h =>
    rw [List.drop_eq_nil_of_le (Nat.le_of_not_lt h)]
    rfl

/-- The loop starts behind the first character. -/
theorem closingQuote_eq_closingFrom (quote : Char) (line : List Char) :
    closingQuote quote line = closingFrom quote line 1 := by
  cases line with
  | nil => simp [closingQuote, closingFrom]
  | cons opening line =>
    have hloop := closingFrom_eq quote (opening :: line) 1
    exact Option.map_inj_right (fun _ _ => Nat.succ.inj) |>.mp hloop.symm

/-! ## Writing a text between quotes -/

/-- The characters of a text as they are written between quotes. Single quotes are doubled between
single quotes; a backslash guards each quote and each backslash between double quotes. -/
def spelled (quote : Char) (s : List Char) : List Char :=
  s.flatMap fun c =>
    if quote = '\'' then (if c = '\'' then ['\'', '\''] else [c])
    else if c = quote ∨ c = '\\' then ['\\', c] else [c]

/-- A text as a quoted scalar. -/
def quoted (quote : Char) (s : List Char) : List Char := quote :: (spelled quote s ++ [quote])

/-- **Every text can be written between quotes.** -/
theorem inside_spelled {quote : Char} (hquote : quote = '\'' ∨ quote = '"') (s : List Char) :
    Inside quote (spelled quote s) := by
  induction s with
  | nil => exact .nil
  | cons c s ih =>
    rw [spelled, List.flatMap_cons]
    refine Inside.append ?_ ih
    rcases hquote with rfl | rfl
    · rw [if_pos rfl]
      split
      · exact .pair (.inr ⟨rfl, rfl, rfl⟩) .nil
      · next hc => exact .char hc (fun _ => by decide) .nil
    · rw [if_neg (by decide)]
      split
      · exact .pair (.inl ⟨rfl, rfl⟩) .nil
      · next hc =>
        rw [not_or] at hc
        exact .char hc.1 (fun hslash => absurd hslash hc.2) .nil

/-- A scalar ends where it is measured to end. -/
theorem closingQuote_quoted {quote : Char} (hquote : quote = '\'' ∨ quote = '"') (s : List Char)
    {rest : List Char} (hrest : quote = '\'' → rest.head? ≠ some '\'') :
    closingQuote quote (quoted quote s ++ rest) = some ((quoted quote s).length - 1) := by
  have hclosed := (inside_spelled hquote s).quotedLength_close hrest
  simpa [quoted, closingQuote] using hclosed

/-- **The closing quote is found exactly.** A text between single quotes, and one between double
quotes, ends at the last character of the scalar, whatever follows it. On any line, the quote that
is found is the one that closes what the first character opens; none is found exactly if none is
there; and the loop over the positions of the line finds the same. -/
theorem closingQuote_exact :
    (∀ s rest : List Char, rest.head? ≠ some '\'' →
      closingQuote '\'' (quoted '\'' s ++ rest) = some ((quoted '\'' s).length - 1)) ∧
    (∀ s rest : List Char,
      closingQuote '"' (quoted '"' s ++ rest) = some ((quoted '"' s).length - 1)) ∧
    (∀ (quote : Char) (line : List Char) (i : Nat),
      closingQuote quote line = some i ↔ ClosesAt quote line i) ∧
    (∀ (quote : Char) (line : List Char),
      closingQuote quote line = none ↔ ∀ i, ¬ClosesAt quote line i) ∧
    ∀ (quote : Char) (line : List Char), closingQuote quote line = closingFrom quote line 1 := by
  refine ⟨fun s rest hrest => ?_, fun s rest => ?_, fun quote line i => ?_, fun quote line => ?_,
    closingQuote_eq_closingFrom⟩
  · exact closingQuote_quoted (.inl rfl) s fun _ => hrest
  · exact closingQuote_quoted (.inr rfl) s fun hsingle => absurd hsingle (by decide)
  · exact closingQuote_eq_some_iff
  · exact closingQuote_eq_none_iff

/-- A text that ends with an apostrophe, before a comma. -/
theorem closingQuote_apostrophes :
    [','].head? ≠ some '\'' ∧
      closingQuote '\'' (quoted '\'' ['i', 't', '\'', 's', ' ', '\''] ++ [',']) = some 9 :=
  ⟨by decide, closingQuote_exact.1 ['i', 't', '\'', 's', ' ', '\''] [','] (by decide)⟩

end Provision.Yaml
