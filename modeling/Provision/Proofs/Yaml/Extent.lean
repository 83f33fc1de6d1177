import Provision.Proofs.Yaml.Grammar
import Provision.Proofs.Yaml.Scanner
import Provision.Proofs.Yaml.Trails

/-!
# How far the markers of scalars reach

A reader of places is told where a scalar starts, and guesses from the line there how far it
reaches. The guess is right for what is quoted. What is not quoted may look like something else: a
value of several lines may be no longer than the line it starts on, and text may begin with a bar.

* `Tree.HasScalar`: the scalars of a tree.
* `Extent`: what the marker of a scalar covers, by how the scalar is written.
* `Tree.placed_of_hasScalar`: that is so for every scalar of every document.
* `Tree.stripped_covered`: a block scalar that is covered.
-/

set_option autoImplicit false

namespace Provision

namespace Marker

/-- The marker ends where it starts. -/
def IsPoint (m : Marker) : Prop := m.stopLine = m.startLine ∧ m.stopColumn = m.startColumn

/-- A text is what lies between the start and the end of the marker, on one line. -/
structure Covers (lines : List (List Char)) (m : Marker) (text : List Char) : Prop where
  line : m.stopLine = m.startLine
  width : m.stopColumn = m.startColumn + text.length
  between : ((lines[m.startLine - 1]?.getD []).drop (m.startColumn - 1)).take text.length = text

theorem Covers.isPoint_iff {lines : List (List Char)} {m : Marker} {text : List Char}
    (h : m.Covers lines text) : m.IsPoint ↔ text = [] := by
  rw [IsPoint, h.width]
  simp [h.line]

end Marker

namespace Yaml

/-- The scalars of a tree: its leaves and its keys. -/
inductive Tree.HasScalar (value : Option String) (m : Marker) : Tree → Prop
  | leaf : HasScalar value m (.leaf value m)
  | item {items : List Tree} {t : Tree} {whole : Marker} :
      t ∈ items → HasScalar value m t → HasScalar value m (.sequence items whole)
  | key {entries : List (String × Marker × Tree)} {k : String} {t : Tree} {whole : Marker} :
      (k, m, t) ∈ entries → value = some k → HasScalar value m (.map entries whole)
  | value {entries : List (String × Marker × Tree)} {k : String} {first : Marker} {t : Tree}
      {whole : Marker} :
      (k, first, t) ∈ entries → HasScalar value m t → HasScalar value m (.map entries whole)

/-- The text between the start and the stop of a token. -/
def Token.written (text : List Char) (t : Token) : List Char :=
  (text.take t.stop.index).drop t.start.index

/-- What stands on the line of a place from there on. -/
def Mark.ahead (lines : List (List Char)) (m : Mark) : List Char :=
  (lines[m.line]?.getD []).drop m.column

/-- A text that begins like a block scalar. -/
def Barred (ahead : List Char) : Prop := ∃ c ∈ ahead.head?, c = '|' ∨ c = '>'

/-- A text that begins like a quoted scalar. -/
def Quoted (ahead : List Char) : Prop := ∃ c ∈ ahead.head?, c = '\'' ∨ c = '"'

instance (ahead : List Char) : Decidable (Barred ahead) :=
  Option.decidableExistsMem ahead.head?

instance (ahead : List Char) : Decidable (Quoted ahead) :=
  Option.decidableExistsMem ahead.head?

/-- What the marker of a scalar covers, by how the scalar is written and what lies ahead of it on
its line. -/
inductive Extent (lines : List (List Char)) (m : Marker) (written ahead : List Char) :
    Style → (value : List Char) → Prop
  /-- What is quoted on one line is covered, with its quotes. -/
  | quotedLine {style : Style} {value : List Char} :
      style = .singleQuoted ∨ style = .doubleQuoted → OneLine written → m.Covers lines written →
      Extent lines m written ahead style value
  /-- What is quoted on several lines is not covered. -/
  | quotedLines {style : Style} {value : List Char} :
      style = .singleQuoted ∨ style = .doubleQuoted → ¬OneLine written → m.IsPoint →
      Extent lines m written ahead style value
  /-- Plain text on one line is covered, as it is, unless it begins like a block scalar. -/
  | plainLine : OneLine written → ¬Barred ahead → m.Covers lines written →
      Extent lines m written ahead .plain written
  | plainBarred : OneLine written → Barred ahead → m.IsPoint →
      Extent lines m written ahead .plain written
  /-- Plain text on several lines is not covered, unless the blanks at the end of the first are
  no fewer than the characters that the others add. -/
  | plainLines {first blanks more : List Char} : ¬OneLine written → ahead = first ++ blanks →
      (∀ b ∈ blanks, isBlank b = true) →
      (m.IsPoint ↔ Barred ahead ∨ '\n' ∈ first ++ more ∨ blanks.length < more.length) →
      Extent lines m written ahead .plain (first ++ more)
  /-- A block scalar is not covered, unless it is the line that it stands on. -/
  | block {style : Style} {value : List Char} : style = .literal ∨ style = .folded → ¬Quoted ahead →
      (m.IsPoint ↔ Barred ahead ∨ value = [] ∨ value ≠ ahead.takeWhile fun c => !isEnd c) →
      Extent lines m written ahead style value
  /-- Where that line begins with a quote, it is not covered unless the quote is closed there. -/
  | blockQuoted {style : Style} {value : List Char} {quote : Char} {rest : List Char} :
      style = .literal ∨ style = .folded → ahead = quote :: rest → quote = '\'' ∨ quote = '"' →
      (m.IsPoint ↔ quotedLength quote rest = none) → Extent lines m written ahead style value

/-! ## Measuring a line -/

theorem quotedLength_le {quote : Char} {l : List Char} {n : Nat}
    (h : quotedLength quote l = some n) : n ≤ l.length := by
  fun_induction quotedLength quote l generalizing n with
  | case1 => cases h
  | case2 => simp_all
  | case3 => cases h
  | case4 c d rest _ ih =>
    obtain ⟨k, hk, rfl⟩ := Option.map_eq_some_iff.mp h
    simpa using ih hk
  | case5 => simp_all
  | case6 c d rest _ _ ih =>
    obtain ⟨k, hk, rfl⟩ := Option.map_eq_some_iff.mp h
    simpa using ih hk

section Measuring

variable {lines : List (List Char)} {m : Mark} {value ahead : List Char}

theorem isPoint_toMarker (m : Mark) : m.toMarker.IsPoint := ⟨rfl, rfl⟩

/-- A marker over some characters of what lies ahead. -/
def Mark.widened (m : Mark) (n : Nat) : Marker :=
  { m.toMarker with stopColumn := m.toMarker.startColumn + n }

theorem covers_widened {n : Nat} (hn : n ≤ (m.ahead lines).length) :
    (m.widened n).Covers lines ((m.ahead lines).take n) where
  line := rfl
  width := by simp [Mark.widened, Nat.min_eq_left hn]
  between := by
    rw [List.length_take, Nat.min_eq_left hn]
    rfl

/-- The marker is set by the line that it starts on. -/
theorem widen_toMarker (lines : List (List Char)) (m : Mark) (value : List Char) :
    widen m.toMarker value lines = match width value (m.ahead lines) with
      | some n => if n > (m.ahead lines).length then m.toMarker else m.widened n
      | none => m.toMarker := by
  rw [widen, if_neg (by simp [Mark.toMarker, Marker.at]),
    if_neg (by simp [Mark.toMarker, Marker.at])]
  have hline : m.toMarker.startLine - 1 = m.line := rfl
  have hcolumn : m.toMarker.startColumn - 1 = m.column := rfl
  rw [hline, hcolumn, Mark.ahead]
  cases lines[m.line]? with
  | none => simp [width]
  | some line => rfl

/-- The start of the marker stays. -/
theorem widen_start (lines : List (List Char)) (m : Mark) (value : List Char) :
    (widen m.toMarker value lines).startLine = m.line + 1 ∧
      (widen m.toMarker value lines).startColumn = m.column + 1 := by
  rw [widen_toMarker]
  split
  · split <;> exact ⟨rfl, rfl⟩
  · exact ⟨rfl, rfl⟩

/-- What is not taken for quoted is measured by its value. -/
theorem widen_unquoted (h : ¬Quoted (m.ahead lines)) :
    ((widen m.toMarker value lines).IsPoint ↔ Barred (m.ahead lines) ∨ value = [] ∨ '\n' ∈ value ∨
        (m.ahead lines).length < value.length) ∧
      ((widen m.toMarker value lines).IsPoint ∨
        (widen m.toMarker value lines).Covers lines ((m.ahead lines).take value.length)) := by
  have hwidth : width value (m.ahead lines) =
      if m.ahead lines = [] ∨ Barred (m.ahead lines) ∨ '\n' ∈ value then none
      else some value.length := by
    cases hahead : m.ahead lines with
    | nil => simp [width]
    | cons c rest =>
      have hc : ¬(c = '\'' ∨ c = '"') := by simpa [Quoted, hahead] using h
      simp [width, hc, Barred, or_assoc]
  have hlength : m.ahead lines = [] → value = [] ∨ (m.ahead lines).length < value.length := by
    rintro hnil
    rw [hnil, List.length_nil, List.length_pos_iff]
    exact Decidable.em _
  rw [widen_toMarker, hwidth]
  by_cases hnone : m.ahead lines = [] ∨ Barred (m.ahead lines) ∨ '\n' ∈ value
  · rw [if_pos hnone]
    refine ⟨iff_of_true (isPoint_toMarker m) ?_, .inl (isPoint_toMarker m)⟩
    rcases hnone with hnil | hbarred | hfeed
    · exact .inr ((hlength hnil).imp id .inr)
    · exact .inl hbarred
    · exact .inr (.inr (.inl hfeed))
  rw [if_neg hnone]
  simp only [not_or] at hnone
  dsimp only
  split
  · next hlong =>
    exact ⟨iff_of_true (isPoint_toMarker m) (by simp [hlong]), .inl (isPoint_toMarker m)⟩
  · next hfits =>
    have hcovers := @covers_widened lines m value.length (by omega)
    refine ⟨hcovers.isPoint_iff.trans ?_, .inr hcovers⟩
    simp [hnone, hfits]

/-- What is taken for quoted is measured up to the closing quote. -/
theorem widen_quoted {quote : Char} {rest : List Char} (h : m.ahead lines = quote :: rest)
    (hquote : quote = '\'' ∨ quote = '"') :
    ((widen m.toMarker value lines).IsPoint ↔ quotedLength quote rest = none) ∧
      ∀ n, quotedLength quote rest = some n →
        (widen m.toMarker value lines).Covers lines ((quote :: rest).take (n + 1)) := by
  have hwidth : width value (m.ahead lines) = (quotedLength quote rest).map (· + 1) := by
    simp [width, h, hquote, closingQuote]
  rw [widen_toMarker, hwidth]
  cases hlength : quotedLength quote rest with
  | none => simp [isPoint_toMarker]
  | some n =>
    have hn : n + 1 ≤ (m.ahead lines).length := by
      rw [h]
      simpa using quotedLength_le hlength
    have hcovers := covers_widened hn
    simp only [Option.map_some, if_neg (Nat.not_lt.mpr hn)]
    rw [h] at hcovers
    refine ⟨by simp [hcovers.isPoint_iff], fun k hk => ?_⟩
    cases hk
    exact hcovers

end Measuring

/-! ## What lies ahead of a scalar -/

section Ahead

variable {text : List Char} {c : Cursor}

/-- The part of a text that is read, and what follows it: nothing, or a NUL and what it hides. -/
theorem head?_tail (text : List Char) :
    ∀ ch ∈ (text.dropWhile fun c => !isEnd c).head?, isEnd ch = true := by
  intro ch hch
  have hhead := List.head?_dropWhile_not (fun c => !isEnd c) text
  rw [Option.mem_def.mp hch] at hhead
  simpa using hhead

/-- What lies ahead of a place that is read is the first line of the rest of the text. -/
theorem ahead_eq (hlead : (Cursor.start (text.takeWhile fun c => !isEnd c)).Leads c)
    (hpaired : PairedReturns c.mark.index text) :
    c.mark.ahead (Text.lines text) =
      Text.firstLine (c.rest ++ text.dropWhile fun c => !isEnd c) := by
  have htail : (text.dropWhile fun c => !isEnd c).head? ≠ some '\n' := fun h =>
    absurd (head?_tail text '\n' (by simp [h])) (by decide)
  have hline := hlead.line htail (by rwa [List.takeWhile_append_dropWhile])
  rwa [List.takeWhile_append_dropWhile] at hline

/-- What is written from a place up to an index. -/
theorem written_eq {t : Token} {written rest : List Char}
    (hlead : (Cursor.start (text.takeWhile fun c => !isEnd c)).Leads c) (hstart : t.start = c.mark)
    (hrest : c.rest = written ++ rest) (hstop : t.stop.index = c.mark.index + written.length) :
    t.written text = written := by
  obtain ⟨before, hbefore, hindex⟩ := hlead.between
  have htext : text = before ++ (written ++ (rest ++ text.dropWhile fun c => !isEnd c)) := by
    rw [← List.append_assoc written, ← hrest, ← List.append_assoc before, ← hbefore]
    exact (List.takeWhile_append_dropWhile).symm
  have hlength : c.mark.index = before.length := by simpa [Cursor.start] using hindex
  rw [Token.written, hstop, hstart, hlength, htext, ← List.append_assoc,
    List.take_left' (by simp), List.drop_left]

/-- What lies ahead goes up to the next line break, if that is read too. -/
theorem ahead_of_break {l later : List Char} {ch : Char} {n : Nat}
    (hlead : (Cursor.start (text.takeWhile fun c => !isEnd c)).Leads c)
    (hpaired : PairedReturns n text) (hrest : c.rest = l ++ ch :: later) (hl : OneLine l)
    (hch : isLineEnd ch = true) (hn : c.mark.index + l.length < n) :
    c.mark.ahead (Text.lines text) = l := by
  rw [ahead_eq hlead (hpaired.mono (by omega)), hrest, List.append_assoc, List.cons_append]
  refine firstLine_append_lineEnd hl hch fun hreturn => ?_
  -- the break is read, so a carriage return in it is paired
  obtain ⟨before, hbefore, hindex⟩ := hlead.between
  subst hreturn
  refine hpaired.head? (before ++ l) _ ?_ (by simp [Cursor.start] at hindex; simp; omega)
  have htext := (List.takeWhile_append_dropWhile (p := fun c => !isEnd c) (l := text)).symm
  rw [show text.takeWhile _ = before ++ c.rest from hbefore, hrest] at htext
  simpa using htext

/-- What lies ahead begins with what is read on the line. -/
theorem ahead_append {l later : List Char}
    (hlead : (Cursor.start (text.takeWhile fun c => !isEnd c)).Leads c)
    (hpaired : PairedReturns c.mark.index text) (hrest : c.rest = l ++ later) (hl : OneLine l) :
    c.mark.ahead (Text.lines text) =
      l ++ Text.firstLine (later ++ text.dropWhile fun c => !isEnd c) := by
  rw [ahead_eq hlead hpaired, hrest, List.append_assoc,
    Text.firstLine_append hl.not_mem.1 hl.not_mem.2]

end Ahead

/-! ## The three kinds of scalars -/

section Kinds

variable {text : List Char} {c : Cursor} {t : Token}

theorem extent_quoted {single : Bool} {inside later value : List Char} {style : Style}
    (hstyle : style = .singleQuoted ∨ style = .doubleQuoted)
    (hlead : (Cursor.start (text.takeWhile fun c => !isEnd c)).Leads c) (hstart : t.start = c.mark)
    (hpaired : PairedReturns t.stop.index text)
    (hrest : c.rest = quoteOf single :: inside ++ quoteOf single :: later)
    (hstop : t.stop.index = c.mark.index + inside.length + 2)
    (hinside : QuotedText (quoteOf single) inside)
    (hlater : quoteOf single = '\'' → later.head? ≠ some '\'') :
    Extent (Text.lines text) (widen c.mark.toMarker value (Text.lines text)) (t.written text)
      (c.mark.ahead (Text.lines text)) style value := by
  have hquote : isLineEnd (quoteOf single) = false := by cases single <;> decide
  have hsplit : c.rest = (quoteOf single :: inside ++ [quoteOf single]) ++ later := by simp [hrest]
  rw [written_eq hlead hstart hsplit (by simp [hstop]; omega)]
  cases hinside with
  | line hline =>
    have hone : OneLine (quoteOf single :: inside ++ [quoteOf single]) := by
      simp [hquote, hline.oneLine]
    have hahead := ahead_append hlead (hpaired.mono (by omega)) hsplit hone
    rw [List.cons_append, List.cons_append, List.append_assoc, List.singleton_append] at hahead
    have hclosed : quotedLength (quoteOf single) (inside ++ quoteOf single ::
        Text.firstLine (later ++ text.dropWhile fun c => !isEnd c)) = some (inside.length + 1) := by
      refine hline.inside.quotedLength_close fun hsingle hhead => ?_
      have hnext := Text.mem_head?_of_firstLine (Option.mem_def.mpr hhead)
      cases later with
      | nil => exact absurd (head?_tail text _ hnext) (by decide)
      | cons _ _ => exact hlater hsingle hnext
    have hcovers := (@widen_quoted _ _ value _ _ hahead (quoteOf_cases single)).2 _ hclosed
    refine .quotedLine hstyle hone ?_
    simpa [List.take_append, List.take_of_length_le] using hcovers
  | @lines first more ch hfirst hnone hch =>
    refine .quotedLines hstyle (fun hone => ?_) ?_
    · simp [hch] at hone
    · have hbroken : c.rest =
          (quoteOf single :: first) ++ ch :: (more ++ quoteOf single :: later) := by
        simp [hrest]
      have hahead := ahead_of_break hlead hpaired hbroken (by simp [hquote, hfirst]) hch
        (by simp at hstop ⊢; omega)
      exact (widen_quoted hahead (quoteOf_cases single)).1.mpr hnone

theorem extent_plain {written value : List Char}
    (hlead : (Cursor.start (text.takeWhile fun c => !isEnd c)).Leads c) (hstart : t.start = c.mark)
    (hpaired : PairedReturns t.stop.index text) (hvalue : value ≠ []) (hrest : written <+: c.rest)
    (hstop : t.stop.index = c.mark.index + written.length) (hplain : PlainText written value)
    (hquote : c.char ≠ '\'' ∧ c.char ≠ '"') :
    Extent (Text.lines text) (widen c.mark.toMarker value (Text.lines text)) (t.written text)
      (c.mark.ahead (Text.lines text)) .plain value := by
  obtain ⟨later, hlater⟩ := hrest
  rw [written_eq hlead hstart hlater.symm hstop]
  have hunquoted : ¬Quoted (c.mark.ahead (Text.lines text)) := by
    rintro ⟨ch, hch, hor⟩
    rw [ahead_eq hlead (hpaired.mono (by omega))] at hch
    have hhead := Text.mem_head?_of_firstLine hch
    cases hrest : c.rest with
    | nil =>
      rw [hrest, List.nil_append] at hhead
      rcases hor with rfl | rfl <;> exact absurd (head?_tail text _ hhead) (by decide)
    | cons first rest =>
      rw [Cursor.char_of_rest hrest] at hquote
      have hfirst : first = ch := by simpa [hrest] using hhead
      exact hor.elim (hfirst ▸ hquote.1) (hfirst ▸ hquote.2)
  obtain ⟨hpoint, hcovers⟩ := @widen_unquoted _ _ value hunquoted
  cases hplain with
  | line hone =>
    have hahead := ahead_append hlead (hpaired.mono (by omega)) hlater.symm hone
    by_cases hbarred : Barred (c.mark.ahead (Text.lines text))
    · exact .plainBarred hone hbarred (hpoint.mpr (.inl hbarred))
    · refine .plainLine hone hbarred ?_
      have hnot : ¬(widen c.mark.toMarker written (Text.lines text)).IsPoint := by
        rw [hpoint]
        simp only [hbarred, hvalue, hone.not_mem.1, false_or]
        simp [hahead]
      have hwritten := hcovers.resolve_left hnot
      rwa [hahead, List.take_left] at hwritten
  | @lines first blanks rest more ch hfirst hblanks hch hmore =>
    have hbroken : c.rest = (first ++ blanks) ++ ch :: (rest ++ later) := by simp [← hlater]
    have hahead := ahead_of_break hlead hpaired hbroken
      (by simp [hfirst, oneLine_of_blanks hblanks]) hch (by simp [hstop])
    refine .plainLines (by simp [hch]) hahead hblanks (hpoint.trans ?_)
    simp only [hvalue, false_or]
    simp [hahead]

/-- A line up to the NUL that ends the text. -/
theorem takeWhile_not_isEnd {first rest : List Char} (hfirst : ∀ ch ∈ first, isEnd ch = false)
    (hrest : ∀ ch ∈ rest.head?, isEnd ch = true) :
    ((first ++ rest).takeWhile fun c => !isEnd c) = first := by
  rw [List.takeWhile_append_of_pos (by simpa using hfirst)]
  cases rest <;> simp_all

/-- A value that begins with what lies ahead is no other value if it is no longer. -/
theorem differs_iff {ahead first more : List Char} (hone : OneLine first)
    (hcut : (ahead.takeWhile fun c => !isEnd c) = first)
    (hmore : more = [] ∨ '\n' ∈ more ∨ ahead = first) :
    ('\n' ∈ first ++ more ∨ ahead.length < (first ++ more).length) ↔
      first ++ more ≠ ahead.takeWhile fun c => !isEnd c := by
  have hlength : first.length ≤ ahead.length := by
    rw [← hcut]
    exact (List.takeWhile_prefix _).length_le
  have hfeed := hone.not_mem.1
  rw [hcut, ne_eq, List.append_right_eq_self]
  rcases hmore with rfl | hmem | rfl
  · simp [hfeed, hlength]
  · have hne : more ≠ [] := List.ne_nil_of_mem hmem
    simp [hmem, hne]
  · cases more <;> simp [hfeed]

theorem extent_block {style : Style} {value : List Char}
    (hstyle : style = .literal ∨ style = .folded)
    (hlead : (Cursor.start (text.takeWhile fun c => !isEnd c)).Leads c)
    (hpaired : PairedReturns t.stop.index text) (hle : c.mark.index ≤ t.stop.index)
    (hblock : BlockValue c.rest (t.stop.index - c.mark.index) value) (written : List Char) :
    Extent (Text.lines text) (widen c.mark.toMarker value (Text.lines text)) written
      (c.mark.ahead (Text.lines text)) style value := by
  by_cases hquoted : Quoted (c.mark.ahead (Text.lines text))
  · obtain ⟨quote, hmem, hquote⟩ := hquoted
    obtain ⟨rest, hahead⟩ := List.head?_eq_some_iff.mp hmem
    exact .blockQuoted hstyle hahead hquote (widen_quoted hahead hquote).1
  refine .block hstyle hquoted ((widen_unquoted hquoted).1.trans (or_congr_right ?_))
  have hahead := ahead_eq hlead (hpaired.mono hle)
  cases hblock with
  | empty => simp
  | broken hfeed =>
    have hline : '\n' ∉ c.mark.ahead (Text.lines text) := by
      rw [hahead]
      exact (Text.firstLine_begins _).2
    refine or_congr_right (iff_of_true (.inl hfeed) fun hsame => hline ?_)
    rw [hsame] at hfeed
    exact (List.takeWhile_subset _) hfeed
  | @line first later more ch hone hends hrest hch hlt =>
    have hfirst := ahead_of_break hlead hpaired hrest hone hch (by omega)
    have hcut : (c.mark.ahead (Text.lines text)).takeWhile (fun c => !isEnd c) = first := by
      simpa [hfirst] using @takeWhile_not_isEnd first [] hends (by simp)
    exact or_congr_right (differs_iff hone hcut (.inr (.inr hfirst)))
  | @last first later more hone hends hrest hlater hmore =>
    have hfirst := ahead_append hlead (hpaired.mono hle) hrest hone
    have hcut : (c.mark.ahead (Text.lines text)).takeWhile (fun c => !isEnd c) = first := by
      rw [hfirst]
      refine takeWhile_not_isEnd hends fun ch hch => ?_
      have hnext := Text.mem_head?_of_firstLine hch
      cases later with
      | nil => exact head?_tail text _ hnext
      | cons _ _ => exact hlater _ hnext
    exact or_congr_right (differs_iff hone hcut (hmore.imp id fun h => .inl (by simp [h])))

theorem extent_written {style : Style} {value : List Char}
    (hlead : (Cursor.start (text.takeWhile fun c => !isEnd c)).Leads c) (hstart : t.start = c.mark)
    (hpaired : PairedReturns t.stop.index text) (hle : c.mark.index ≤ t.stop.index)
    (hwritten : Written c t.stop.index style value) :
    Extent (Text.lines text) (widen c.mark.toMarker value (Text.lines text)) (t.written text)
      (c.mark.ahead (Text.lines text)) style value := by
  generalize hstop : t.stop.index = stop at hwritten
  cases hwritten with
  | plain hvalue hrest hindex hplain hsingle hdouble =>
    exact extent_plain hlead hstart hpaired hvalue hrest (hstop.trans hindex) hplain
      ⟨hsingle, hdouble⟩
  | @quoted single _ _ _ hrest hindex hinside hlater =>
    exact extent_quoted (by cases single <;> simp) hlead hstart hpaired hrest (hstop.trans hindex)
      hinside hlater
  | @block literal _ _ hblock =>
    exact extent_block (by cases literal <;> simp) hlead hpaired hle (hstop ▸ hblock) _

end Kinds

/-! ## From the scalars of a tree to those of its nodes -/

namespace Tree

variable {lines : List (List Char)} {P : Mark → Style → String → Prop}

/-- The texts that mean null. -/
def nulls : List String := ["", "~", "null", "Null", "NULL"]

/-- A scalar of a tree is one of the nodes, and has the marker that its line gives it. -/
def Measured (lines : List (List Char)) (P : Mark → Style → String → Prop) (value : Option String)
    (m : Marker) : Prop :=
  ∃ mark style text, P mark style text ∧ (value = some text ∨ value = none ∧ text ∈ nulls) ∧
    m = widen mark.toMarker text.toList lines

theorem mem_insert {key k : String} {marker m : Marker} {value t : Tree}
    {entries : List (String × Marker × Tree)} (h : (k, m, t) ∈ insert key marker value entries) :
    ((∃ t', (k, m, t') ∈ entries) ∨ k = key ∧ m = marker) ∧
      ((∃ m', (k, m', t) ∈ entries) ∨ t = value) := by
  rw [insert] at h
  split at h
  · next first old hlookup =>
    obtain ⟨before, after, hentries, -⟩ := List.lookup_eq_some_iff.mp hlookup
    rcases List.mem_append.mp h with hmem | hmem
    · have hin := (List.mem_filter.mp hmem).1
      exact ⟨.inl ⟨t, hin⟩, .inl ⟨m, hin⟩⟩
    · simp only [List.mem_singleton, Prod.mk.injEq] at hmem
      obtain ⟨rfl, rfl, rfl⟩ := hmem
      exact ⟨.inl ⟨old, by simp [hentries]⟩, .inr rfl⟩
  · rcases List.mem_append.mp h with hmem | hmem
    · exact ⟨.inl ⟨t, hmem⟩, .inl ⟨m, hmem⟩⟩
    · simp only [List.mem_singleton, Prod.mk.injEq] at hmem
      obtain ⟨rfl, rfl, rfl⟩ := hmem
      exact ⟨.inr ⟨rfl, rfl⟩, .inr rfl⟩

theorem mem_ofItems? {nodes : List Node} {items : List Tree}
    (h : ofItems? lines nodes = some items) :
    ∀ t ∈ items, ∃ n ∈ nodes, ofNode? lines n = some t := by
  induction nodes generalizing items with
  | nil =>
    cases h
    simp
  | cons n nodes ih =>
    rw [ofItems?] at h
    simp only [Option.bind_eq_bind, Option.bind_eq_some_iff] at h
    obtain ⟨item, hitem, others, hothers, heq⟩ := h
    cases heq
    simp only [List.mem_cons, forall_eq_or_imp, exists_eq_or_imp]
    exact ⟨.inl hitem, fun t ht => .inr (ih hothers t ht)⟩

theorem mem_ofEntries? {nodes : List (Node × Node)} {known entries : List (String × Marker × Tree)}
    (h : ofEntries? lines known nodes = some entries) {k : String} {m : Marker} {t : Tree}
    (hmem : (k, m, t) ∈ entries) :
    ((∃ t', (k, m, t') ∈ known) ∨ ∃ e ∈ nodes, ∃ mark p style, e.1 = .scalar mark p style k ∧
        m = widen mark.toMarker k.toList lines) ∧
      ((∃ m', (k, m', t) ∈ known) ∨ ∃ e ∈ nodes, ofNode? lines e.2 = some t) := by
  induction nodes generalizing known with
  | nil =>
    cases h
    exact ⟨.inl ⟨t, hmem⟩, .inl ⟨m, hmem⟩⟩
  | cons e nodes ih =>
    obtain ⟨key, v⟩ := e
    cases key with
    | scalar mark p style key =>
      rw [ofEntries?] at h
      simp only [Option.bind_eq_bind, Option.bind_eq_some_iff] at h
      obtain ⟨value, hvalue, h⟩ := h
      simp only [List.mem_cons, exists_eq_or_imp]
      obtain ⟨hmarker, htree⟩ := ih h
      constructor
      · rcases hmarker with ⟨t', ht'⟩ | hnode
        · rcases (mem_insert ht').1 with hknown | ⟨rfl, rfl⟩
          · exact .inl hknown
          · exact .inr (.inl ⟨mark, p, style, rfl, rfl⟩)
        · exact .inr (.inr hnode)
      · rcases htree with ⟨m', hm'⟩ | hnode
        · rcases (mem_insert hm').2 with hknown | rfl
          · exact .inl hknown
          · exact .inr (.inl hvalue)
        · exact .inr (.inr hnode)
    | _ => simp [ofEntries?] at h

/-- **Every scalar of a tree is measured**, if it is the tree of a node. -/
theorem measured_of_hasScalar {n : Node} (hn : n.Each P) {t : Tree} (ht : ofNode? lines n = some t)
    {value : Option String} {m : Marker} (h : t.HasScalar value m) : Measured lines P value m := by
  induction hn generalizing t with
  | @scalar mark p style text hP =>
    rw [ofNode?] at ht
    cases ht
    cases h
    refine ⟨mark, style, text, hP, ?_, rfl⟩
    split
    · next hnull => exact .inr ⟨rfl, by simpa [nulls, or_assoc] using hnull⟩
    · exact .inl rfl
  | sequence hitems ih =>
    rw [ofNode?] at ht
    obtain ⟨items, hof, rfl⟩ := Option.map_eq_some_iff.mp ht
    cases h with
    | item hmem hscalar =>
      obtain ⟨n, hn, heq⟩ := mem_ofItems? hof _ hmem
      exact ih n hn heq hscalar
  | mapping hkeys hvalues ihkeys ihvalues =>
    rw [ofNode?] at ht
    obtain ⟨entries, hof, rfl⟩ := Option.map_eq_some_iff.mp ht
    cases h with
    | key hmem hvalue =>
      rcases (mem_ofEntries? hof hmem).1 with ⟨_, hknown⟩ | ⟨e, he, mark, p, style, hkey, hm⟩
      · cases hknown
      · have hP := hkeys e he
        rw [hkey] at hP
        cases hP with
        | scalar hP => exact ⟨mark, style, _, hP, .inl hvalue, hm⟩
    | value hmem hscalar =>
      rcases (mem_ofEntries? hof hmem).2 with ⟨_, hknown⟩ | ⟨e, he, heq⟩
      · cases hknown
      · exact ihvalues e he heq hscalar
  | _ => cases ht

/-- The tree of a text is that of its document, unless it has no entries. -/
theorem parse?_cases {text : List Char} {tree : Tree} (h : parse? text = some tree) :
    (∃ m, tree = .map [] m) ∨ ∃ root,
      content? .places (text.takeWhile fun c => !isEnd c) = some (.document root) ∧
        ofNode? (Text.lines text) root = some tree := by
  unfold parse? at h
  -- what is read stays closed, or the scanner would be run on the variable text
  generalize content? .places (text.takeWhile fun c => !isEnd c) = found at *
  cases found with
  | none => cases h
  | some content =>
    cases content with
    | nothing stop => exact .inl ⟨_, (Option.some.inj h).symm⟩
    | document root =>
      refine .inr ⟨root, rfl, ?_⟩
      dsimp only at h
      generalize ofNode? (Text.lines text) root = made at *
      split at h
      · exact h
      · cases h

/-- How a scalar of a text has its marker. It is one of the tokens, and the marker starts where that
token starts; what the marker covers depends on how the scalar is written, as long as no carriage
return stands alone before its end. A scalar that is missing has the marker of a null that would
stand in front of the token. -/
def Placed (text : List Char) (value : Option String) (m : Marker) : Prop :=
  ∃ k ∈ scan .places (text.takeWhile fun c => !isEnd c),
    m.startLine = k.token.start.line + 1 ∧ m.startColumn = k.token.start.column + 1 ∧
    ((∃ style s, k.token.kind = .scalar style s ∧ (value = some s ∨ value = none ∧ s ∈ nulls) ∧
        (PairedReturns k.token.stop.index text →
          Extent (Text.lines text) m (k.token.written text)
            (k.token.start.ahead (Text.lines text)) style s.toList)) ∨
      (value = some "~" ∨ value = none) ∧
        m = widen k.token.start.toMarker "~".toList (Text.lines text))

/-- **Every scalar of every document has its marker so.** -/
theorem placed_of_hasScalar {text : List Char} {tree : Tree} (htree : parse? text = some tree)
    {value : Option String} {m : Marker} (hscalar : tree.HasScalar value m) :
    Placed text value m := by
  rcases parse?_cases htree with ⟨whole, rfl⟩ | ⟨root, hcontent, hroot⟩
  · cases hscalar with
    | key hmem => cases hmem
    | value hmem => cases hmem
  obtain ⟨mark, style, s, ⟨k, hk, hplace, hkind⟩, hvalue, hm⟩ :=
    measured_of_hasScalar (content?_sourced hcontent) hroot hscalar
  subst hm
  subst hplace
  obtain ⟨hline, hcolumn⟩ := widen_start (Text.lines text) k.token.start s.toList
  refine ⟨k, hk, hline, hcolumn, ?_⟩
  rcases hkind with hkind | ⟨-, rfl⟩
  · obtain ⟨c, hlead, hstart, hle, hwritten⟩ := scan_written hk style s hkind
    refine .inl ⟨style, s, hkind, hvalue, fun hpaired => ?_⟩
    rw [hstart]
    exact extent_written hlead hstart hpaired hle hwritten
  · exact .inr ⟨hvalue.imp id And.left, rfl⟩

/-! ### Two documents -/

/-- The scalar of a key of a document. -/
def scalarOf? (key : String) (text : List Char) : Option (Option String × Marker) :=
  match (parse? text).bind (·.step? (.key key)) with
  | some (.leaf value m, _) => some (value, m)
  | _ => none

theorem exists_hasScalar {key : String} {text : List Char} {value : Option String} {m : Marker}
    (h : scalarOf? key text = some (value, m)) :
    ∃ tree, parse? text = some tree ∧ tree.HasScalar value m := by
  unfold scalarOf? at h
  split at h
  · next value' m' first hstep =>
    cases h
    obtain ⟨tree, htree, hstep⟩ := Option.bind_eq_some_iff.mp hstep
    obtain ⟨entries, whole, rfl, hmem⟩ := mem_of_step_key hstep
    exact ⟨_, htree, .value hmem .leaf⟩
  · cases h

/-- A quoted scalar is covered with its quotes. -/
theorem quoted_placed : ∃ tree, parse? "a: 'it''s'\n".toList = some tree ∧
    tree.HasScalar (some "it's") ⟨1, 4, 1, 11⟩ ∧
    Placed "a: 'it''s'\n".toList (some "it's") ⟨1, 4, 1, 11⟩ := by
  obtain ⟨tree, htree, hscalar⟩ := @exists_hasScalar "a" "a: 'it''s'\n".toList _ _
    (by decide +kernel : _ = some (some "it's", ⟨1, 4, 1, 11⟩))
  exact ⟨tree, htree, hscalar, placed_of_hasScalar htree hscalar⟩

/-- A block scalar of one line is covered, if the break after it does not count. -/
theorem stripped_covered : ∃ tree, parse? "a: |-\n  foo\n".toList = some tree ∧
    ∃ m, tree.HasScalar (some "foo") m ∧ ¬m.IsPoint ∧
      ∃ k ∈ scan .places "a: |-\n  foo\n".toList, k.token.kind = .scalar .literal "foo" ∧
        m.startLine = k.token.start.line + 1 ∧ m.startColumn = k.token.start.column + 1 := by
  obtain ⟨tree, htree, hscalar⟩ := @exists_hasScalar "a" "a: |-\n  foo\n".toList _ _
    (by decide +kernel : _ = some (some "foo", ⟨2, 3, 2, 6⟩))
  exact ⟨tree, htree, _, hscalar, by simp [Marker.IsPoint], by decide +kernel⟩

end Tree

end Yaml

end Provision
