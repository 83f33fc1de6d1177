import Provision.Path

/-!
# Paths are read from their text

A path is shown as a dollar sign and a dot before each step. What is read from that text is the
path, unless a key says something else there: a dot in a key divides it, a key of digits is a
position if it fits a word, and a lone empty key is not seen at all.

* `Trail.pieces_eq`: reading a text divides it at its dots.
* `Segment.ofText_eq_key_iff`: the texts that are read as keys.
* `Path.ofText_text_iff`: the paths that are read back.
-/

set_option autoImplicit false

namespace Provision

/-! ## Texts between dots -/

theorem not_mem_of_mem_splitOn {s piece : List Char} {mark : Char} (h : piece ∈ s.splitOn mark) :
    mark ∉ piece := by
  induction s generalizing piece with
  | nil => simp_all
  | cons c s ih =>
    obtain ⟨first, rest, hs⟩ := List.exists_cons_of_ne_nil (List.splitOn_ne_nil mark s)
    rw [hs] at ih
    rw [List.splitOn_cons_eq_if_modifyHead, hs] at h
    by_cases hc : c = mark
    · simp only [hc, beq_self_eq_true, if_true, List.mem_cons] at h
      rcases h with rfl | h
      · simp
      · exact ih (List.mem_cons.mpr h)
    · simp only [beq_iff_eq, hc, if_false, List.modifyHead_cons, List.mem_cons] at h
      rcases h with rfl | h
      · simpa [Ne.symm hc] using ih List.mem_cons_self
      · exact ih (List.mem_cons_of_mem _ h)

namespace Trail

theorem pieces_go_eq (soFar s : List Char) :
    pieces.go soFar s =
      ((s.splitOn '.').modifyHead (soFar.reverse ++ ·)).map String.ofList := by
  induction s generalizing soFar with
  | nil => simp [pieces.go]
  | cons c s ih =>
    obtain ⟨first, rest, hs⟩ := List.exists_cons_of_ne_nil (List.splitOn_ne_nil '.' s)
    by_cases hc : c = '.' <;>
      simp [pieces.go, ih, List.splitOn_cons_eq_if_modifyHead, hs, hc]

/-- Reading a text divides it at its dots. -/
theorem pieces_eq (s : List Char) : pieces s = (s.splitOn '.').map String.ofList := by
  obtain ⟨first, rest, hs⟩ := List.exists_cons_of_ne_nil (List.splitOn_ne_nil '.' s)
  simp [pieces, pieces_go_eq, hs]

end Trail

/-! ## One step -/

namespace Segment

/-- The text of a number that fits a word: digits, and at least one of them. -/
def IsNumber (s : String) : Prop :=
  s.toList ≠ [] ∧ (∀ c ∈ s.toList, c.isDigit = true) ∧ Nat.ofDigitChars 10 s.toList 0 < Word.count

instance (s : String) : Decidable (IsNumber s) :=
  have : Decidable (∀ c ∈ s.toList, c.isDigit = true) := List.decidableBAll _ _
  inferInstanceAs (Decidable (_ ∧ _ ∧ _))

theorem ofText_of_isNumber {s : String} (h : IsNumber s) :
    ofText s = .index (Nat.ofDigitChars 10 s.toList 0) := by
  obtain ⟨hne, hdigits, hvalue⟩ := h
  have hword : s.toList.foldl (fun n d => 10 * n + (d.toNat - 48)) 0 < Word.count := hvalue
  have hempty : s.isEmpty = false := by simpa using hne
  rw [ofText, if_pos (by simpa [hempty] using hdigits)]
  exact if_pos hword

theorem ofText_of_not_isNumber {s : String} (h : ¬IsNumber s) : ofText s = .key s := by
  rw [ofText]
  split
  · next hdigits =>
    simp only [Bool.and_eq_true, Bool.not_eq_true', List.all_eq_true] at hdigits
    exact if_neg fun hvalue => h ⟨by simpa using hdigits.1, hdigits.2, hvalue⟩
  · rfl

/-- A text is read as a key unless it is that of a number. -/
theorem ofText_eq_key_iff (s : String) : ofText s = .key s ↔ ¬IsNumber s := by
  refine ⟨fun h hn => ?_, ofText_of_not_isNumber⟩
  rw [ofText_of_isNumber hn] at h
  cases h

theorem text_index (n : Nat) : (text (.index n)).toList = Nat.toDigits 10 n := by
  rw [text, Nat.toString_eq_repr, Nat.toList_repr]

/-- The digits of a position are read as the position. -/
theorem ofText_index {n : Nat} (h : n < Word.count) : ofText (text (.index n)) = .index n := by
  have hvalue : Nat.ofDigitChars 10 (text (.index n)).toList 0 = n := by
    rw [text_index]
    exact Nat.ofDigitChars_toDigits (by decide) (by decide)
  have hnumber : IsNumber (text (.index n)) := by
    refine ⟨?_, fun c hc => ?_, by rwa [hvalue]⟩
    · rw [text_index]
      exact Nat.toDigits_ne_nil
    · rw [text_index] at hc
      exact Nat.isDigit_of_mem_toDigits (by decide) (by decide) hc
  rw [ofText_of_isNumber hnumber, hvalue]

theorem dot_not_mem_index (n : Nat) : '.' ∉ (text (.index n)).toList := fun h => by
  rw [text_index] at h
  exact absurd (Nat.isDigit_of_mem_toDigits (by decide) (by decide) h) (by decide)

end Segment

/-! ## The text of a trail -/

namespace Trail

/-- The text of a trail after the dollar sign and the first dot. -/
def steps (t : Trail) : List Char := ['.'].intercalate (t.map fun s => s.text.toList)

theorem steps_cons (s : Segment) (t : Trail) :
    steps (s :: t) = s.text.toList ++ t.flatMap fun s => '.' :: s.text.toList := by
  induction t generalizing s with
  | nil => simp [steps]
  | cons r t ih =>
    have htail := ih r
    simp_all [steps, List.intercalate_cons_cons]

theorem toList_text_cons (s : Segment) (t : Trail) :
    (text (s :: t)).toList = '$' :: '.' :: steps (s :: t) := by
  simp [text, steps_cons, List.flatMap_map]

theorem ofText_text_nil : ofText (text []) = [] := by decide

/-- Only a lone empty key has no text. -/
theorem steps_eq_nil_iff (s : Segment) (t : Trail) : steps (s :: t) = [] ↔ s :: t = [.key ""] := by
  have htext : s.text.toList = [] ↔ s = .key "" := by
    cases s with
    | key k => simp [Segment.text]
    | index n => simp [Segment.text_index, Nat.toDigits_ne_nil]
  cases t with
  | nil => simp [steps_cons, htext]
  | cons r t => simp [steps_cons]

theorem ofText_text_lone : ofText (text [.key ""]) = [] := by decide

/-- What is read from the text of a trail are the texts of its steps. -/
theorem ofText_text_cons {s : Segment} {t : Trail} (h : s :: t ≠ [.key ""]) :
    ofText (text (s :: t)) =
      ((steps (s :: t)).splitOn '.').map fun piece => .ofText (String.ofList piece) := by
  have hne : steps (s :: t) ≠ [] := fun he => h ((steps_eq_nil_iff s t).mp he)
  rw [ofText, toList_text_cons]
  simp [pieces_eq, Function.comp_def, hne]

/-- **A trail is read back exactly if each of its steps is**, none has a dot in it, and there is
more to see than a lone empty key. -/
theorem ofText_text_iff_steps (t : Trail) :
    ofText t.text = t ↔
      (∀ s ∈ t, '.' ∉ s.text.toList ∧ Segment.ofText s.text = s) ∧ t ≠ [.key ""] := by
  cases t with
  | nil => simp [ofText_text_nil]
  | cons s t =>
    by_cases hlone : s :: t = [.key ""]
    · simp [hlone, ofText_text_lone]
    · rw [ofText_text_cons hlone, and_iff_left hlone]
      have htexts : steps (s :: t) = ['.'].intercalate ((s :: t).map (·.text.toList)) := rfl
      constructor
      · intro h
        -- no piece has a dot in it, so neither has the text of what a piece is read as
        have hdots : ∀ r ∈ s :: t, '.' ∉ r.text.toList := fun r hr => by
          rw [← h] at hr
          obtain ⟨piece, hpiece, rfl⟩ := List.mem_map.mp hr
          have hdot := not_mem_of_mem_splitOn hpiece
          by_cases hnumber : Segment.IsNumber (String.ofList piece)
          · rw [Segment.ofText_of_isNumber hnumber]
            exact Segment.dot_not_mem_index _
          · rw [Segment.ofText_of_not_isNumber hnumber]
            simpa [Segment.text] using hdot
        refine fun r hr => ⟨hdots r hr, ?_⟩
        rw [htexts, List.splitOn_intercalate '.' (by simpa using hdots) (by simp)] at h
        have hsame : (s :: t).map (fun r => Segment.ofText r.text) = (s :: t).map id := by
          simpa [Function.comp_def] using h
        exact List.map_inj_left.mp hsame r hr
      · intro h
        rw [htexts, List.splitOn_intercalate '.' (by simpa using fun r hr => (h r hr).1) (by simp),
          List.map_map]
        exact (List.map_congr_left fun r hr => by simpa using (h r hr).2).trans (List.map_id _)

end Trail

/-- **The paths that are read back from their text** are those without a dot in a key and without a
key that is the text of a number that fits a word, but for the path of one empty key. -/
theorem Path.ofText_text_iff (p : Path)
    (hfits : ∀ n, Segment.index n ∈ p.trail → n < Word.count) :
    ofText p.schema p.text = p ↔
      (∀ k, Segment.key k ∈ p.trail → '.' ∉ k.toList ∧ ¬Segment.IsNumber k) ∧
        p.trail ≠ [.key ""] := by
  have hpath : ofText p.schema p.text = p ↔ Trail.ofText p.trail.text = p.trail := by
    obtain ⟨schema, trail⟩ := p
    simp [ofText, text]
  rw [hpath, Trail.ofText_text_iff_steps]
  refine and_congr_left fun _ => ⟨fun h k hk => ?_, fun h s hs => ?_⟩
  · obtain ⟨hdot, hread⟩ := h _ hk
    exact ⟨hdot, (Segment.ofText_eq_key_iff k).mp hread⟩
  · cases s with
    | key k =>
      obtain ⟨hdot, hnumber⟩ := h k hs
      exact ⟨hdot, Segment.ofText_of_not_isNumber hnumber⟩
    | index n => exact ⟨Segment.dot_not_mem_index n, Segment.ofText_index (hfits n hs)⟩

/-- A path with an empty key, a key with a dollar sign, one with a sign, a run of digits that is too
long for a word, and the largest position is read back. -/
theorem boundary_read_back :
    (∀ n, Segment.index n ∈ [Segment.key "", .key "$x", .key "-1", .key "18446744073709551616",
        .index 18446744073709551615] → n < Word.count) ∧
      Path.ofText .target (Path.text ⟨.target, [.key "", .key "$x", .key "-1",
        .key "18446744073709551616", .index 18446744073709551615]⟩) =
        ⟨.target, [.key "", .key "$x", .key "-1", .key "18446744073709551616",
          .index 18446744073709551615]⟩ :=
  have hfits : ∀ n, Segment.index n ∈ [Segment.key "", .key "$x", .key "-1",
      .key "18446744073709551616", .index 18446744073709551615] → n < Word.count := by
    simp [Word.count]
  ⟨hfits, (Path.ofText_text_iff ⟨.target, _⟩ hfits).mpr ⟨by
    simp only [List.mem_cons, Segment.key.injEq, reduceCtorEq, List.not_mem_nil, or_false,
      forall_eq_or_imp, forall_eq]
    decide, by simp⟩⟩

end Provision
