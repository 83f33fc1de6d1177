import Provision.Proofs.Yaml.Cursor
import Provision.Yaml.BlockScalar

/-!
# How block scalars are written

The token of a block scalar stands at its first character of text, or at its bar if the document
ends before one. What its value has of the line that the token stands on is all of that line, unless
it has a line feed before, or is empty.

* `BlockValue`: how a value is written.
* `readBlock_written`: a block scalar that is read is written so.
-/

set_option autoImplicit false

namespace Provision.Yaml

open Decode (bind_eq_ok)

/-- How a value is written in the lines that begin with `rest`, of which `size` characters are
read. -/
inductive BlockValue (rest : List Char) (size : Nat) : (value : List Char) → Prop
  | empty : BlockValue rest size []
  | broken {value : List Char} : '\n' ∈ value → BlockValue rest size value
  /-- The value begins with the first line. The break after it is read too. -/
  | line {first later more : List Char} {ch : Char} : OneLine first →
      (∀ ch ∈ first, isEnd ch = false) → rest = first ++ ch :: later → isLineEnd ch = true →
      first.length < size → BlockValue rest size (first ++ more)
  /-- The text ends with the first line. Its value may end with a line feed all the same. -/
  | last {first later more : List Char} : OneLine first → (∀ ch ∈ first, isEnd ch = false) →
      rest = first ++ later → (∀ ch ∈ later.head?, isEnd ch = true) → more = [] ∨ more = ['\n'] →
      BlockValue rest size (first ++ more)

/-- A value of line feeds alone. -/
theorem BlockValue.feeds {rest value : List Char} {size : Nat} (h : ∀ ch ∈ value, ch = '\n') :
    BlockValue rest size value := by
  cases value with
  | nil => exact .empty
  | cons ch value => exact .broken (by simp [h ch])

/-- A value that begins with the line at hand, after the empty lines before it. -/
theorem BlockValue.lines {c next stop : Cursor} {n : Nat} {line value : List Char}
    (hreads : c.Reads line next) (hline : ∀ ch ∈ line, isLineEnd ch = false ∧ isEnd ch = false)
    {more : List Char} (hvalue : value = List.replicate n '\n' ++ line ++ more)
    (hnext : isEnd next.char = true ∧ (more = [] ∨ more = ['\n']) ∨
      isLineEnd next.char = true ∧ next.mark.index < stop.mark.index) :
    BlockValue c.rest (stop.mark.index - c.mark.index) value := by
  subst hvalue
  cases n with
  | succ n => exact .broken (by simp [List.replicate_succ])
  | zero =>
    have hone : OneLine line := fun ch hch => (hline ch hch).1
    have hends : ∀ ch ∈ line, isEnd ch = false := fun ch hch => (hline ch hch).2
    rw [List.replicate_zero, List.nil_append]
    rcases hnext with ⟨hend, hmore⟩ | ⟨hbreak, hindex⟩
    · refine .last hone hends hreads.rest (fun ch hch => ?_) hmore
      obtain ⟨later, hlater⟩ := List.head?_eq_some_iff.mp hch
      rwa [Cursor.char_of_rest hlater] at hend
    · rw [hreads.index] at hindex
      have hrest := hreads.rest
      rw [Cursor.rest_eq_cons (Cursor.isEnd_of_isLineEnd hbreak)] at hrest
      exact .line hone hends hrest hbreak (by omega)

/-- What the sign keeps comes after the text, with or without a break that the last line lacks. -/
theorem BlockText.exists_chomped (b : BlockText) (chomp : Chomping) (unended : Bool) :
    ∃ more, (if unended then { b with last := b.last ++ ['\n'] } else b).chomped chomp =
      b.text ++ more ∧ (b.last = [] → b.further = [] → more = [] ∨ more = ['\n']) := by
  cases unended <;> cases chomp <;>
    simp +contextual [BlockText.chomped, List.append_assoc]

/-! ## The header -/

theorem readIncrement_leads {c c' : Cursor} {n : Nat} (h : readIncrement c = .ok (n, c')) :
    c.Leads c' := by
  rw [readIncrement] at h
  split at h
  · next hdigit =>
    split at h
    · cases h
    · cases h
      refine .one (Bool.eq_false_iff.mpr fun hline => ?_)
      rcases (isLineEnd_iff _).mp hline with hch | hch <;> rw [hch] at hdigit <;>
        exact absurd hdigit (by decide)
  · cases h
    exact .refl _

theorem chomping?_line {ch : Char} {chomp : Chomping} (h : chomping? ch = some chomp) :
    isLineEnd ch = false := by
  refine Bool.eq_false_iff.mpr fun hline => ?_
  rcases (isLineEnd_iff _).mp hline with rfl | rfl <;> exact absurd h (by simp [chomping?])

theorem readHeader_leads {c c' : Cursor} {chomp : Chomping} {n : Nat}
    (h : readHeader c = .ok (chomp, n, c')) : c.Leads c' := by
  rw [readHeader] at h
  split at h
  · next hsign =>
    obtain ⟨⟨increment, after⟩, hincrement, h⟩ := bind_eq_ok h
    cases h
    exact (Cursor.Leads.one (chomping?_line hsign)).trans (readIncrement_leads hincrement)
  · obtain ⟨⟨increment, after⟩, hincrement, h⟩ := bind_eq_ok h
    have hafter := readIncrement_leads hincrement
    dsimp only at h
    split at h
    · next hsign =>
      cases h
      split at hsign
      · cases hsign
      · exact hafter.trans (.one (chomping?_line hsign))
    · cases h
      exact hafter

theorem skipHeaderLine_leads {c c' : Cursor} (h : skipHeaderLine .places c = .ok c') :
    c.Leads c' := by
  rw [skipHeaderLine] at h
  obtain ⟨⟨tab, space, after⟩, hskip, h⟩ := bind_eq_ok h
  dsimp only [pure, Except.pure, bind, Except.bind] at h
  split at h
  · cases h
    exact Cursor.leads_skipToLineEnd hskip
  · cases h

/-! ## Lines -/

theorem skipIndent_leads (indent : Option Nat) (c : Cursor) : c.Leads (skipIndent indent c) := by
  have go : ∀ fuel, ∀ c : Cursor, c.Leads (skipIndent.go indent fuel c) := by
    intro fuel
    induction fuel with
    | zero => exact fun c => .refl c
    | succ fuel ih =>
      intro c
      rw [skipIndent.go]
      split
      · next hspace =>
        simp only [Bool.and_eq_true, decide_eq_true_eq] at hspace
        exact (Cursor.Leads.one (by rw [hspace.1]; decide)).trans (ih _)
      · exact .refl c
  exact go _ c

theorem readBreak_places {c : Cursor} (h : isLineEnd c.char = true) :
    c.readBreak = (['\n'], c.skipBreak) := by
  rw [Cursor.readBreak]
  rcases (isLineEnd_iff _).mp h with hch | hch <;> simp [hch]

/-- Empty lines add nothing but line feeds. -/
theorem readEmptyLines_reads {indent : Option Nat} {fuel deepest deepest' : Nat}
    {breaks breaks' : List Char} {c c' : Cursor}
    (h : readEmptyLines .places indent fuel deepest breaks c = .ok (deepest', breaks', c')) :
    c.Leads c' ∧ ∃ n, breaks' = breaks ++ List.replicate n '\n' := by
  induction fuel generalizing deepest breaks c with
  | zero =>
    cases h
    exact ⟨.refl _, 0, by simp⟩
  | succ fuel ih =>
    rw [readEmptyLines] at h
    have hindent := skipIndent_leads indent c
    dsimp only at h
    split at h
    · cases h
    split at h
    · next hbreak =>
      rw [readBreak_places hbreak] at h
      obtain ⟨hleads, n, hbreaks⟩ := ih h
      refine ⟨(hindent.skipBreak hbreak).trans hleads, n + 1, ?_⟩
      rw [hbreaks]
      simp [List.replicate_succ]
    · cases h
      exact ⟨hindent, 0, by simp⟩

/-- The text only grows. Either no line is read, or the first one is added to the text, and
everything else after it. If the text ends with that line, nothing else is added. -/
theorem readBlockLines_cases {literal : Bool} {indent fuel : Nat} {b b' : BlockText} {c c' : Cursor}
    (h : readBlockLines .places literal indent fuel b c = .ok (b', c')) :
    c.Leads c' ∧ b.text <+: b'.text ∧ ((b' = b ∧ c' = c) ∨ ∃ line after, c.Reads line after ∧
      (∀ ch ∈ line, isLineEnd ch = false ∧ isEnd ch = false) ∧
      (b.last = [] → b.text ++ b.further ++ line <+: b'.text) ∧
      (isEnd after.char = true ∧ (b.last = [] → b'.text = b.text ++ b.further ++ line) ∧
          b'.last = [] ∧ b'.further = [] ∨
        isLineEnd after.char = true ∧ after.mark.index < c'.mark.index)) := by
  induction fuel generalizing b c with
  | zero =>
    cases h
    exact ⟨.refl _, List.prefix_refl _, .inl ⟨rfl, rfl⟩⟩
  | succ fuel ih =>
    rw [readBlockLines] at h
    split at h
    · cases h
      exact ⟨.refl _, List.prefix_refl _, .inl ⟨rfl, rfl⟩⟩
    split at h
    · cases h
      exact ⟨.refl _, List.prefix_refl _, .inl ⟨rfl, rfl⟩⟩
    have hkind : ∀ ch, (!isBreakOrEnd .places ch) = true →
        isLineEnd ch = false ∧ isEnd ch = false :=
      fun ch hch => by simpa [isBreakOrEnd] using hch
    have hreads := Cursor.Reads.skipWhile (fun ch hch => (hkind ch hch).1) c
    have hends := Cursor.char_skipWhile (p := fun ch => !isBreakOrEnd .places ch) (by decide) c
    have hline : ∀ ch ∈ c.rest.takeWhile fun ch => !isBreakOrEnd .places ch,
        isLineEnd ch = false ∧ isEnd ch = false := fun ch hch =>
      hkind ch (List.all_eq_true.mp List.all_takeWhile ch hch)
    dsimp only at h
    generalize (c.skipWhile fun ch => !isBreakOrEnd .places ch) = after at *
    generalize (c.rest.takeWhile fun ch => !isBreakOrEnd .places ch) = line at *
    have htaken : c.rest.take (c.rest.length - after.rest.length) = line := by
      simp [hreads.rest]
    rw [htaken] at h
    -- what stands between the text and the line is nothing where no line was before
    have hparts {between text : List Char} (hext : b.text ++ between ++ b.further ++ line <+: text)
        (hnone : b.last = [] → between = []) :
        b.text <+: text ∧ (b.last = [] → b.text ++ b.further ++ line <+: text) := by
      refine ⟨List.IsPrefix.trans ?_ hext, fun hlast => ?_⟩
      · simp only [List.append_assoc]
        exact List.prefix_append _ _
      · simpa [hnone hlast] using hext
    split at h
    · next hend =>
      have hext := List.prefix_refl b'.text
      rw [← congrArg (·.1.text) (Except.ok.inj h)] at hext
      obtain ⟨htext, hfirst⟩ := hparts hext fun hlast => by simp [hlast]
      cases h
      exact ⟨hreads.leads, htext, .inr ⟨line, _, hreads, hline, hfirst,
        .inl ⟨hend, fun hlast => by simp [hlast], rfl, rfl⟩⟩⟩
    · next hend =>
      have hbreak : isLineEnd after.char = true := by simpa [isBreakOrEnd, hend] using hends
      obtain ⟨passed, hpassed⟩ := Cursor.Reads.lineBreak hbreak
      rw [readBreak_places hbreak] at h
      obtain ⟨⟨deepest, further, next⟩, hempty, h⟩ := bind_eq_ok h
      obtain ⟨hon, hext, -⟩ := ih h
      obtain ⟨rest, hrest⟩ := ((readEmptyLines_reads hempty).1.trans hon).reads
      have hway := hpassed.trans hrest
      have hindex : after.mark.index < c'.mark.index := by
        rw [hway.index]
        simp
      obtain ⟨htext, hfirst⟩ := hparts hext fun hlast => by simp [hlast]
      exact ⟨hreads.leads.trans hway.leads, htext,
        .inr ⟨line, after, hreads, hline, hfirst, .inr ⟨hbreak, hindex⟩⟩⟩

/-- **A block scalar is written where its token stands**: at its first character of text, or at its
bar. -/
theorem readBlock_written {literal : Bool} {indent : Int} {c c' : Cursor} {t : Token}
    (hc : isLineEnd c.char = false) (h : readBlock .places literal indent c = .ok (t, c')) :
    ∃ d value, c.Leads d ∧ d.Leads c' ∧ t.start = d.mark ∧ t.stop = c'.mark ∧
      t.kind = .scalar (if literal then .literal else .folded) (String.ofList value) ∧
      BlockValue d.rest (c'.mark.index - d.mark.index) value := by
  rw [readBlock] at h
  obtain ⟨⟨chomp, increment, afterHeader⟩, hheader, h⟩ := bind_eq_ok h
  obtain ⟨lineEnd, hlineEnd, h⟩ := bind_eq_ok h
  have hhead := ((Cursor.Leads.one hc).trans (readHeader_leads hheader)).trans
    (skipHeaderLine_leads hlineEnd)
  dsimp only at h
  have hbelow : c.Leads (if isBreak .places lineEnd.char then lineEnd.skipBreak else lineEnd) := by
    split
    · next hbreak => exact hhead.skipBreak hbreak
    · exact hhead
  generalize (if isBreak .places lineEnd.char then lineEnd.skipBreak else lineEnd) = below at *
  generalize (if increment = 0 then none else some (increment + indent.toNat)) = fixed at h
  split at h
  · cases h
  obtain ⟨⟨deepest, breaks, d⟩, hempty, h⟩ := bind_eq_ok h
  obtain ⟨hd, n, hbreaks⟩ := readEmptyLines_reads hempty
  have hplace := hbelow.trans hd
  rw [List.nil_append] at hbreaks
  dsimp only at h
  split at h
  · cases h
    refine ⟨c, _, .refl c, hplace, rfl, rfl, rfl, .feeds ?_⟩
    have hfeeds : ∀ ch ∈ breaks, ch = '\n' := by simp [hbreaks]
    split
    · simp
    · split
      · simp
      · exact hfeeds
  split at h
  · cases h
  obtain ⟨⟨b, after⟩, hlines, h⟩ := bind_eq_ok h
  obtain ⟨hon, -, hcases⟩ := readBlockLines_cases hlines
  cases h
  refine ⟨d, _, hplace, hon, rfl, rfl, rfl, ?_⟩
  rcases hcases with ⟨hb, -⟩ | ⟨line, next, hreads, hline, hfirst, hnext⟩
  · -- no line is read, so there are no characters but those that end lines
    refine .feeds ?_
    subst hb
    split <;> cases chomp <;> simp [BlockText.chomped, hbreaks]
  · have hvalue (unended : Bool) : BlockValue d.rest (after.mark.index - d.mark.index)
        ((if unended then { b with last := b.last ++ ['\n'] } else b).chomped chomp) := by
      obtain ⟨more, hmore, hfew⟩ := b.exists_chomped chomp unended
      rw [hmore]
      rcases hnext with ⟨hend, htext, hlast, hfurther⟩ | hbreak
      · have hsplit : b.text ++ more = List.replicate n '\n' ++ line ++ more := by
          simp [htext rfl, hbreaks]
        exact .lines hreads hline hsplit (.inl ⟨hend, hfew hlast hfurther⟩)
      · obtain ⟨others, hothers⟩ := hfirst rfl
        have hsplit : b.text ++ more = List.replicate n '\n' ++ line ++ (others ++ more) := by
          simp [← hothers, hbreaks]
        exact .lines hreads hline hsplit (.inr hbreak)
    exact hvalue _

end Provision.Yaml
