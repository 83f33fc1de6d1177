/-!
# Lines of a text

A line ends at a line feed, which a carriage return may precede; neither belongs to the line, and
a final line end opens no further line. The first line goes up to the first line feed, without the
carriage return before it, and the others are the lines of what follows.

* `splitOn_intercalate`: the pieces between two marks, joined by the mark, give the text back.
* `lines_append_feed`: the first line and the others.
* `firstLine_append`: what the first line begins with.
-/

set_option autoImplicit false

namespace Provision.Text

/-- The pieces of a text between the characters `mark`: always one more than there are marks. -/
def splitOn (mark : Char) : List Char → List (List Char)
  | [] => [[]]
  | c :: r =>
    if c = mark then [] :: splitOn mark r
    else match splitOn mark r with
      | [] => [[c]]
      | piece :: pieces => (c :: piece) :: pieces

/-- Texts joined by a text between each two of them. -/
def join (between : String) (pieces : List String) : String := between.intercalate pieces

/-- The lines of a text. -/
def lines (s : List Char) : List (List Char) :=
  let pieces := splitOn '\n' s
  let pieces := match pieces.getLast? with
    | some [] => pieces.dropLast
    | _ => pieces
  let withoutReturn (line : List Char) := match line.getLast? with
    | some '\r' => line.dropLast
    | _ => line
  -- a carriage return counts only where a line feed follows it
  match s.getLast? with
  | some '\n' => pieces.map withoutReturn
  | _ => pieces.dropLast.map withoutReturn ++ (pieces.getLast?).toList

theorem splitOn_ne_nil (mark : Char) (s : List Char) : splitOn mark s ≠ [] := by
  cases s with
  | nil => simp [splitOn]
  | cons c r =>
    simp only [splitOn]
    split
    · simp
    · split <;> simp

/-- Joining the pieces by the mark gives the text back. -/
theorem splitOn_intercalate (mark : Char) (s : List Char) :
    [mark].intercalate (splitOn mark s) = s := by
  induction s with
  | nil => simp [splitOn]
  | cons c r ih =>
    by_cases h : c = mark
    · subst h
      cases hs : splitOn c r with
      | nil => exact absurd hs (splitOn_ne_nil c r)
      | cons p ps =>
        rw [hs] at ih
        simp [splitOn, hs, List.intercalate_cons_cons, ih]
    · cases hs : splitOn mark r with
      | nil => exact absurd hs (splitOn_ne_nil mark r)
      | cons p ps =>
        rw [hs] at ih
        cases ps with
        | nil =>
          rw [List.intercalate_singleton] at ih
          rw [splitOn, if_neg h, hs, ih]
          exact List.intercalate_singleton
        | cons q qs =>
          rw [List.intercalate_cons_cons] at ih
          rw [splitOn, if_neg h, hs]
          simp only [List.intercalate_cons_cons, List.cons_append]
          rw [ih]

/-! ## A text line by line -/

@[simp] theorem lines_nil : lines [] = [] := rfl

theorem splitOn_append_mark {mark : Char} {l : List Char} (h : mark ∉ l) (s : List Char) :
    splitOn mark (l ++ mark :: s) = l :: splitOn mark s := by
  induction l with
  | nil => simp [splitOn]
  | cons c l ih =>
    simp only [List.mem_cons, not_or] at h
    simp [splitOn, Ne.symm h.1, ih h.2]

theorem splitOn_of_not_mem {mark : Char} {l : List Char} (h : mark ∉ l) : splitOn mark l = [l] := by
  induction l with
  | nil => simp [splitOn]
  | cons c l ih =>
    simp only [List.mem_cons, not_or] at h
    simp [splitOn, Ne.symm h.1, ih h.2]

/-- The last piece is empty only where nothing follows the last mark. -/
theorem getLast?_splitOn_eq_nil_iff (mark : Char) (s : List Char) :
    (splitOn mark s).getLast? = some [] ↔ s = [] ∨ s.getLast? = some mark := by
  induction s with
  | nil => simp [splitOn]
  | cons c r ih =>
    obtain ⟨first, rest, hs⟩ := List.exists_cons_of_ne_nil (splitOn_ne_nil mark r)
    have hback := splitOn_intercalate mark r
    rw [hs] at ih hback
    by_cases hc : c = mark
    · cases r <;> simp_all [splitOn]
    · cases rest with
      | nil =>
        have hr : r = first := by simpa using hback.symm
        subst hr
        have hlast : r ≠ [] → (c :: r).getLast? = r.getLast? := by
          cases r <;> simp
        cases hcases : r with
        | nil => simp [splitOn, hc]
        | cons d t => simp_all [splitOn]
      | cons next rest => cases r <;> simp_all [splitOn]

/-- A line without the carriage return at its end. -/
def withoutReturn (line : List Char) : List Char :=
  if line.getLast? = some '\r' then line.dropLast else line

/-- The lines of a text that ends with a line feed, and those of one that does not. -/
theorem lines_eq {s : List Char} (h : s ≠ []) :
    lines s =
      if s.getLast? = some '\n' then (splitOn '\n' s).dropLast.map withoutReturn
      else (splitOn '\n' s).dropLast.map withoutReturn ++ (splitOn '\n' s).getLast?.toList := by
  have hstrip : ∀ pieces : List (List Char), pieces.map (fun line => match line.getLast? with
      | some '\r' => line.dropLast
      | _ => line) = pieces.map withoutReturn := fun pieces =>
    List.map_congr_left fun line _ => by
      rw [withoutReturn]
      split <;> simp_all
  have hlast := getLast?_splitOn_eq_nil_iff '\n' s
  by_cases hfeed : s.getLast? = some '\n'
  · rw [if_pos hfeed]
    simp only [lines, hfeed, hlast.mpr (.inr hfeed)]
    exact hstrip _
  · have hne : (splitOn '\n' s).getLast? ≠ some [] := by simp [hlast, h, hfeed]
    rw [if_neg hfeed]
    simp only [lines]
    exact congrArg (· ++ _) (hstrip _)

/-- A text without a line feed is one line. -/
theorem lines_of_not_mem {l : List Char} (h : '\n' ∉ l) (hne : l ≠ []) : lines l = [l] := by
  have hlast : l.getLast? ≠ some '\n' := fun he => h (List.mem_of_getLast? he)
  simp [lines_eq hne, splitOn_of_not_mem h, hlast]

/-- The line before a line feed, and the lines after it. -/
theorem lines_append_feed {l : List Char} (h : '\n' ∉ l) (s : List Char) :
    lines (l ++ '\n' :: s) = withoutReturn l :: lines s := by
  rw [lines_eq (by simp), splitOn_append_mark h]
  cases hs : s with
  | nil => simp [splitOn]
  | cons c r =>
    have hne : splitOn '\n' (c :: r) ≠ [] := splitOn_ne_nil _ _
    have hlast : (l ++ '\n' :: c :: r).getLast? = (c :: r).getLast? := by
      rw [List.getLast?_append, List.getLast?_cons_cons]
      cases hr : (c :: r).getLast? <;> simp_all
    obtain ⟨first, rest, hsplit⟩ := List.exists_cons_of_ne_nil hne
    rw [lines_eq (by simp), hlast, hsplit]
    split <;> simp

theorem withoutReturn_of_not_mem {l : List Char} (h : '\r' ∉ l) : withoutReturn l = l :=
  if_neg fun he => h (List.mem_of_getLast? he)

theorem withoutReturn_append_return (l : List Char) : withoutReturn (l ++ ['\r']) = l := by
  simp [withoutReturn]

theorem withoutReturn_append {cur : List Char} (h : '\r' ∉ cur) (l : List Char) :
    withoutReturn (cur ++ l) = cur ++ withoutReturn l := by
  rcases List.eq_nil_or_concat l with rfl | ⟨l, c, rfl⟩
  · have hnil : withoutReturn [] = [] := rfl
    simp [withoutReturn_of_not_mem h, hnil]
  · simp only [withoutReturn, List.concat_eq_append, ← List.append_assoc, List.getLast?_concat,
      List.dropLast_concat]
    split <;> simp

/-! ## The rest of a line -/

/-- What a text has on its first line. -/
def firstLine (s : List Char) : List Char := (lines s).headD []

/-- The first line of a text begins with what has no line end in it. -/
theorem head?_lines_append {cur : List Char} (hfeed : '\n' ∉ cur) (hreturn : '\r' ∉ cur)
    {s : List Char} (hne : cur ++ s ≠ []) :
    (lines (cur ++ s)).head? = some (cur ++ firstLine s) := by
  by_cases hs : '\n' ∈ s
  · obtain ⟨l, r, rfl, hl⟩ := List.eq_append_cons_of_mem hs
    rw [← List.append_assoc, lines_append_feed (by simp [hfeed, hl]), firstLine,
      lines_append_feed hl, withoutReturn_append hreturn]
    rfl
  · have hfirst : firstLine s = s := by
      rw [firstLine]
      cases s with
      | nil => rfl
      | cons c r => rw [lines_of_not_mem hs (by simp)]; rfl
    rw [lines_of_not_mem (by simp [hfeed, hs]) hne, hfirst]
    rfl

/-- What has no line end in it and stands at the start of a text is at the start of its first
line. -/
theorem firstLine_append {cur : List Char} (hfeed : '\n' ∉ cur) (hreturn : '\r' ∉ cur)
    (s : List Char) : firstLine (cur ++ s) = cur ++ firstLine s := by
  by_cases hne : cur ++ s = []
  · rw [hne, List.append_eq_nil_iff.mp hne |>.1, List.append_eq_nil_iff.mp hne |>.2]
    rfl
  · rw [firstLine, List.headD_eq_head?_getD, head?_lines_append hfeed hreturn hne]
    rfl

theorem withoutReturn_begins (l : List Char) : withoutReturn l <+: l := by
  rw [withoutReturn]
  split
  · exact List.dropLast_prefix l
  · exact List.prefix_refl l

/-- A text begins with its first line, which has no line feed in it. -/
theorem firstLine_begins (s : List Char) : firstLine s <+: s ∧ '\n' ∉ firstLine s := by
  by_cases hs : '\n' ∈ s
  · obtain ⟨l, r, rfl, hl⟩ := List.eq_append_cons_of_mem hs
    rw [firstLine, lines_append_feed hl, List.headD_cons]
    have hbegins := withoutReturn_begins l
    exact ⟨hbegins.trans (List.prefix_append _ _), fun hmem => hl (hbegins.subset hmem)⟩
  · cases s with
    | nil => simp [firstLine]
    | cons c r =>
      rw [firstLine, lines_of_not_mem hs (by simp), List.headD_cons]
      exact ⟨List.prefix_refl _, hs⟩

theorem mem_head?_of_firstLine {s : List Char} {c : Char} (h : c ∈ (firstLine s).head?) :
    c ∈ s.head? := by
  obtain ⟨rest, hrest⟩ := (firstLine_begins s).1
  obtain ⟨line, hline⟩ := List.head?_eq_some_iff.mp h
  rw [← hrest, hline]
  rfl

end Provision.Text
