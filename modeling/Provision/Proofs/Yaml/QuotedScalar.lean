import Provision.Proofs.Yaml.ClosingQuote
import Provision.Proofs.Yaml.Cursor
import Provision.Yaml.QuotedScalar

/-!
# How quoted scalars are written

The reader finds the closing quote by reading escapes, and whoever measures the scalar on its line
finds it by guarding one character after a backslash. Both come to the same quote: if the scalar is
on one line they end at the same place, and if it goes on below the line has no closing quote.

* `QuotedLine`, `QuotedText`: what may stand between the quotes.
* `QuotedLine.inside`: so what is on one line is measured up to its closing quote.
* `readQuoted_written`: a quoted scalar that is read is written so.
-/

set_option autoImplicit false

namespace Provision.Yaml

open Decode (bind_eq_ok)

/-- What may stand on one line between quotes. -/
inductive QuotedLine (quote : Char) : List Char → Prop
  | nil : QuotedLine quote []
  | char {l : List Char} {c : Char} : QuotedLine quote l → c ≠ quote → (c = '\\' → quote ≠ '"') →
      isLineEnd c = false → QuotedLine quote (l ++ [c])
  | pair {l : List Char} {c d : Char} : QuotedLine quote l → guards quote c d →
      isLineEnd d = false → QuotedLine quote (l ++ [c, d])

/-- What may stand between quotes. A backslash may be the last character of a line. -/
inductive QuotedText (quote : Char) : List Char → Prop
  | line {l : List Char} : QuotedLine quote l → QuotedText quote l
  | lines {first later : List Char} {ch : Char} : OneLine first → quotedLength quote first = none →
      isLineEnd ch = true → QuotedText quote (first ++ ch :: later)

/-! ## Measuring -/

namespace QuotedLine

variable {quote : Char} {l : List Char}

theorem oneLine (h : QuotedLine quote l) : OneLine l := by
  induction h with
  | nil => simp
  | char _ _ _ hline ih => simp [ih, hline]
  | @pair _ c _ _ hguards hline ih =>
    have hfirst : isLineEnd c = false := by
      rcases hguards with ⟨rfl, -⟩ | ⟨rfl, -⟩ <;> decide
    simp [ih, hline, hfirst]

theorem inside (h : QuotedLine quote l) : Inside quote l := by
  induction h with
  | nil => exact .nil
  | char _ hquote hslash _ ih => exact ih.append (.char hquote hslash .nil)
  | pair _ hguards _ ih => exact ih.append (.pair hguards .nil)

theorem quotedLength_eq_none (h : QuotedLine quote l) : quotedLength quote l = none := by
  simpa [quotedLength] using h.inside.quotedLength_append []

end QuotedLine

/-! ## Reading -/

/-- What is known of a quoted scalar whose text began at a place and is read in part. -/
def QuotedSoFar (quote : Char) (start c : Cursor) : Prop :=
  ∃ passed, start.Reads passed c ∧ QuotedText quote passed

namespace QuotedSoFar

variable {quote : Char} {start c c' : Cursor}

theorem begin (quote : Char) (c : Cursor) : QuotedSoFar quote c c := ⟨[], .refl c, .line .nil⟩

/-- What goes on with a line goes on with a text. -/
theorem goesOn {passed : List Char} (h : QuotedSoFar quote start c) (hreads : c.Reads passed c')
    (hline : ∀ l, QuotedLine quote l → QuotedText quote (l ++ passed)) :
    QuotedSoFar quote start c' := by
  obtain ⟨before, hbefore, htext⟩ := h
  refine ⟨before ++ passed, hbefore.trans hreads, ?_⟩
  cases htext with
  | line hl => exact hline _ hl
  | @lines first later ch hfirst hnone hch =>
    rw [List.append_assoc, List.cons_append]
    exact .lines hfirst hnone hch

theorem char (h : QuotedSoFar quote start c) (hquote : c.char ≠ quote)
    (hslash : c.char = '\\' → quote ≠ '"') (hline : isLineEnd c.char = false)
    (hend : isEnd c.char = false) : QuotedSoFar quote start c.skip :=
  h.goesOn (.one hline hend) fun _ hl => .line (hl.char hquote hslash hline)

theorem lineBreak (h : QuotedSoFar quote start c) (hch : isLineEnd c.char = true) :
    QuotedSoFar quote start c.skipBreak := by
  obtain ⟨later, hreads⟩ := Cursor.Reads.lineBreak hch
  exact h.goesOn hreads fun l hl => .lines hl.oneLine hl.quotedLength_eq_none hch

end QuotedSoFar

/-! ### Escapes -/

theorem escaped_char {c ch : Char} (h : escaped c = some ch) :
    isLineEnd c = false ∧ isEnd c = false := by
  constructor <;> refine Bool.eq_false_iff.mpr fun hc => ?_
  · rcases (isLineEnd_iff c).mp hc with rfl | rfl <;> simp [escaped] at h
  · have hnul : escaped (Char.ofNat 0) = none := by decide
    simp [eq_nul_of_isEnd hc, hnul] at h

theorem escapeWidth_char {c : Char} {n : Nat} (h : escapeWidth c = some n) :
    isLineEnd c = false ∧ isEnd c = false := by
  constructor <;> refine Bool.eq_false_iff.mpr fun hc => ?_
  · rcases (isLineEnd_iff c).mp hc with rfl | rfl <;> simp [escapeWidth] at h
  · have hnul : escapeWidth (Char.ofNat 0) = none := by decide
    simp [eq_nul_of_isEnd hc, hnul] at h

/-- A hexadecimal digit is no quote, no backslash, and no end. -/
theorem hexDigit?_char {c : Char} (h : (hexDigit? c).isSome) :
    c ≠ '"' ∧ c ≠ '\\' ∧ isLineEnd c = false ∧ isEnd c = false := by
  refine ⟨?_, ?_, ?_, ?_⟩
  · rintro rfl
    exact absurd h (by decide)
  · rintro rfl
    exact absurd h (by decide)
  · refine Bool.eq_false_iff.mpr fun hc => ?_
    rcases (isLineEnd_iff c).mp hc with rfl | rfl <;> exact absurd h (by decide)
  · refine Bool.eq_false_iff.mpr fun hc => ?_
    rw [eq_nul_of_isEnd hc] at h
    exact absurd h (by decide)

theorem hexNumber?_digits {digits : List Char} {n : Nat} (h : hexNumber? digits = some n) :
    ∀ d ∈ digits, (hexDigit? d).isSome := by
  have go : ∀ (l : List Char) (acc : Option Nat),
      (l.foldl (fun n c => do return (← n) * 16 + (← hexDigit? c)) acc).isSome →
        acc.isSome ∧ ∀ d ∈ l, (hexDigit? d).isSome := by
    intro l
    induction l with
    | nil => simp
    | cons c l ih =>
      intro acc hacc
      obtain ⟨hstep, hrest⟩ := ih _ hacc
      cases acc <;> cases hc : hexDigit? c <;> simp_all
  exact (go digits (some 0) (by rw [← hexNumber?, h]; rfl)).2

theorem QuotedLine.digits {l digits : List Char} (h : QuotedLine '"' l)
    (hdigits : ∀ d ∈ digits, (hexDigit? d).isSome) : QuotedLine '"' (l ++ digits) := by
  induction digits generalizing l with
  | nil => simpa using h
  | cons d digits ih =>
    obtain ⟨hquote, hslash, hline, -⟩ := hexDigit?_char (hdigits d (by simp))
    have hd := h.char hquote (fun he => absurd he hslash) hline
    simpa using ih hd fun d' hd' => hdigits d' (by simp [hd'])

/-- An escape goes on with a line. -/
theorem readEscape_soFar {start c c' : Cursor} {ch : Char} (h : readEscape c = .ok (ch, c'))
    (hc : c.char = '\\') (hsoFar : QuotedSoFar '"' start c) : QuotedSoFar '"' start c' := by
  have hguards (d : Char) : guards '"' c.char d := .inl ⟨hc, rfl⟩
  have hfirst : isLineEnd c.char = false ∧ isEnd c.char = false := by
    rw [hc]
    decide
  simp only [readEscape] at h
  split at h
  · next hletter =>
    cases h
    obtain ⟨hline, hend⟩ := escaped_char hletter
    have hreads := Cursor.Reads.several (c := c) (n := 2) fun i hi => by
      match i, hi with
      | 0, _ => exact hfirst
      | 1, _ => exact ⟨hline, hend⟩
    exact hsoFar.goesOn hreads fun _ hl => .line (hl.pair (hguards _) hline)
  · next width _ hwidth =>
    split at h
    · next n hnumber =>
      split at h
      · cases h
        obtain ⟨hline, hend⟩ := escapeWidth_char hwidth
        have hdigits := hexNumber?_digits hnumber
        have hreads := Cursor.Reads.several (c := c) (n := 2 + width) fun i hi => by
          match i, hi with
          | 0, _ => exact hfirst
          | 1, _ => exact ⟨hline, hend⟩
          | i + 2, hi =>
            have hd := hdigits (c.peek (i + 2)) (by simp; exact ⟨i, by omega, rfl⟩)
            exact (hexDigit?_char hd).2.2
        refine hsoFar.goesOn hreads fun l hl => .line ?_
        have hrange : List.range (2 + width) = 0 :: 1 :: (List.range width).map (· + 2) := by
          rw [Nat.add_comm, List.range_succ_eq_map, List.range_succ_eq_map]
          simp
        simpa [hrange, Function.comp_def] using (hl.pair (hguards (c.peek 1)) hline).digits hdigits
      · cases h
    · cases h
  · cases h

/-! ### Words, gaps and pieces -/

/-- The quote of a scalar. -/
abbrev quoteOf (single : Bool) : Char := if single then '\'' else '"'

theorem quoteOf_cases (single : Bool) : quoteOf single = '\'' ∨ quoteOf single = '"' := by
  cases single <;> simp

theorem readQuotedWord_soFar {single joined : Bool} {fuel : Nat} {start c c' : Cursor}
    {soFar soFar' : List Char}
    (h : readQuotedWord .places single fuel soFar c = .ok (soFar', joined, c'))
    (hsoFar : QuotedSoFar (quoteOf single) start c) : QuotedSoFar (quoteOf single) start c' := by
  induction fuel generalizing soFar c with
  | zero =>
    cases h
    exact hsoFar
  | succ fuel ih =>
    rw [readQuotedWord] at h
    dsimp only at h
    split at h
    · cases h
      exact hsoFar
    · next hspace =>
      obtain ⟨hline, hend⟩ :=
        not_isLineEnd_of_not_isSpaceOrEnd (Bool.eq_false_iff.mpr hspace)
      split at h
      · next hsingle =>
        subst hsingle
        split at h
        · next hquote =>
          split at h
          · next hnext =>
            -- a quote written twice
            have hreads := Cursor.Reads.several (c := c) (n := 2) fun i hi => by
              match i, hi with
              | 0, _ => exact ⟨hline, hend⟩
              | 1, _ => rw [hnext]; decide
            have hpair : guards '\'' c.char (c.peek 1) := .inr ⟨hquote, rfl, hnext⟩
            exact ih h (hsoFar.goesOn hreads fun l hl =>
              .line (hl.pair hpair (by rw [hnext]; decide)))
          · cases h
            exact hsoFar
        · next hquote => exact ih h (hsoFar.char hquote (by simp) hline hend)
      · next hsingle =>
        rw [Bool.not_eq_true] at hsingle
        subst hsingle
        split at h
        · cases h
          exact hsoFar
        next hquote =>
        split at h
        · next hslash =>
          split at h
          · next hbreak =>
            cases h
            have hnext : c.skip.char = c.peek 1 := Cursor.peek_skip c 0
            obtain ⟨later, hbroken⟩ :=
              Cursor.Reads.lineBreak (c := c.skip) (by rw [hnext]; exact hbreak)
            refine hsoFar.goesOn ((Cursor.Reads.one hline hend).trans hbroken) fun l hl => ?_
            replace hl : QuotedLine '"' l := hl
            change QuotedText '"' _
            have hnone : quotedLength '"' (l ++ ['\\']) = none := by
              simp [hl.inside.quotedLength_append, quotedLength]
            have hfirst : OneLine (l ++ ['\\']) := by
              simp [hl.oneLine]
              decide
            have htext : QuotedText '"' (l ++ ['\\'] ++ c.skip.char :: later) :=
              .lines hfirst hnone (by rw [hnext]; exact hbreak)
            simpa [hslash] using htext
          · obtain ⟨⟨ch, after⟩, hescape, h⟩ := bind_eq_ok h
            exact ih h (readEscape_soFar hescape hslash hsoFar)
        · next hslash => exact ih h (hsoFar.char hquote (fun he => absurd he hslash) hline hend)

/-- A word between single quotes ends at a quote only if no other follows it. -/
theorem readQuotedWord_ends {joined : Bool} {fuel : Nat} {c c' : Cursor} {soFar soFar' : List Char}
    (h : readQuotedWord .places true fuel soFar c = .ok (soFar', joined, c'))
    (hfuel : c.rest.length < fuel) (hquote : c'.char = '\'') : c'.peek 1 ≠ '\'' := by
  induction fuel generalizing soFar c with
  | zero => omega
  | succ fuel ih =>
    rw [readQuotedWord] at h
    dsimp only at h
    split at h
    · next hspace =>
      cases h
      rw [hquote] at hspace
      exact absurd hspace (by decide)
    · next hspace =>
      obtain ⟨-, hend⟩ := not_isLineEnd_of_not_isSpaceOrEnd (Bool.eq_false_iff.mpr hspace)
      have hskip : c.skip.rest.length < fuel := by
        have hlen := congrArg List.length (Cursor.rest_eq_cons hend)
        rw [List.length_cons] at hlen
        rw [Cursor.rest_skip]
        omega
      rw [if_pos rfl] at h
      split at h
      · split at h
        · refine ih h ?_
          have htail := c.skip.rest.length_tail
          rw [Cursor.skipN, Cursor.skipN, Cursor.skipN, Cursor.rest_skip]
          omega
        · next hnext =>
          cases h
          exact hnext
      · exact ih h hskip

theorem readQuotedGap_soFar {single : Bool} {indent : Int} {fuel : Nat} {start c c' : Cursor}
    {gap gap' : Gap} (h : readQuotedGap .places indent fuel gap c = .ok (gap', c'))
    (hsoFar : QuotedSoFar (quoteOf single) start c) : QuotedSoFar (quoteOf single) start c' := by
  induction fuel generalizing gap c with
  | zero =>
    cases h
    exact hsoFar
  | succ fuel ih =>
    rw [readQuotedGap] at h
    split at h
    · next hblank =>
      split at h
      · cases h
      · refine ih h (hsoFar.char ?_ ?_ (not_isLineEnd_of_isBlank hblank)
          (not_isEnd_of_isBlank hblank))
        all_goals
          simp only [isBlank, Bool.or_eq_true, decide_eq_true_eq] at hblank
          rcases hblank with hch | hch <;> cases single <;> simp [quoteOf, hch]
    split at h
    · next hbreak => exact ih h (hsoFar.lineBreak hbreak)
    · cases h
      exact hsoFar

/-- The text of a quoted scalar is read up to its closing quote, which is not written twice. -/
theorem readQuotedPieces_soFar {single : Bool} {indent : Int} {fuel : Nat} {start c c' : Cursor}
    {soFar soFar' : List Char}
    (h : readQuotedPieces .places single indent fuel soFar c = .ok (soFar', c'))
    (hsoFar : QuotedSoFar (quoteOf single) start c) :
    QuotedSoFar (quoteOf single) start c' ∧ c'.char = quoteOf single ∧
      (single = true → c'.peek 1 ≠ '\'') := by
  induction fuel generalizing soFar c with
  | zero => cases h
  | succ fuel ih =>
    rw [readQuotedPieces] at h
    split at h
    · cases h
    split at h
    · cases h
    obtain ⟨⟨soFar₁, joined, after⟩, hword, h⟩ := bind_eq_ok h
    have hnow := readQuotedWord_soFar hword hsoFar
    dsimp only at h
    by_cases hquote : after.char = quoteOf single
    · rw [if_pos hquote] at h
      cases h
      refine ⟨hnow, hquote, ?_⟩
      rintro rfl
      exact readQuotedWord_ends hword (by omega) hquote
    · rw [if_neg hquote] at h
      obtain ⟨⟨gap, after'⟩, hgap, h⟩ := bind_eq_ok h
      exact ih h (readQuotedGap_soFar hgap hnow)

/-- **A quoted scalar is written between two quotes**, from its start up to the end of its token,
and no quote follows a single one. -/
theorem readQuoted_written {flow single : Bool} {indent : Int} {c c' : Cursor} {t : Token}
    (h : readQuoted .places flow single indent c = .ok (t, c')) (hc : c.char = quoteOf single) :
    c.Leads c' ∧ t.start = c.mark ∧
      (∃ text, t.kind = .scalar (if single then .singleQuoted else .doubleQuoted) text) ∧
      ∃ inside later, c.rest = quoteOf single :: inside ++ quoteOf single :: later ∧
        t.stop.index = c.mark.index + inside.length + 2 ∧ QuotedText (quoteOf single) inside ∧
        (quoteOf single = '\'' → later.head? ≠ some '\'') := by
  have hquote : ∀ d : Cursor, d.char = quoteOf single →
      isLineEnd d.char = false ∧ isEnd d.char = false :=
    fun d hd => by
      rw [hd]
      rcases quoteOf_cases single with h | h <;> rw [h] <;> decide
  rw [readQuoted] at h
  obtain ⟨⟨reversed, close⟩, hpieces, h⟩ := bind_eq_ok h
  obtain ⟨⟨inside, hinside, htext⟩, hclose, hnext⟩ := readQuotedPieces_soFar hpieces (.begin _ _)
  obtain ⟨⟨tab, space, after⟩, hskip, h⟩ := bind_eq_ok h
  have hopening := Cursor.Reads.one (hquote c hc).1 (hquote c hc).2
  have hclosing := Cursor.Reads.one (hquote close hclose).1 (hquote close hclose).2
  have hall := (hopening.trans hinside).trans hclosing
  dsimp only at h
  split at h
  · cases h
    refine ⟨hall.leads.trans (Cursor.leads_skipToLineEnd hskip), rfl, ⟨_, rfl⟩, inside,
      close.skip.rest, ?_, ?_, htext, ?_⟩
    · simpa [hc, hclose] using hall.rest
    · rw [hall.index]
      simp
      omega
    · intro hsingle hhead
      have hchar : close.peek 1 = '\'' := by
        obtain ⟨rest, hrest⟩ := List.head?_eq_some_iff.mp hhead
        rw [← Cursor.peek_skip]
        exact Cursor.char_of_rest hrest
      refine hnext ?_ hchar
      cases single <;> simp_all [quoteOf]
  · cases h

end Provision.Yaml
