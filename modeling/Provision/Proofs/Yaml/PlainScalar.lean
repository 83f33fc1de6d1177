import Provision.Proofs.Yaml.Cursor
import Provision.Yaml.PlainScalar

/-!
# How plain scalars are written

On one line a plain scalar is its value as it stands. Over several lines its value begins with what
the first line has of it, without the blanks before the line break, and goes on.

* `PlainText`: how a value is written.
* `readPlain_written`: a plain scalar that is read is written so.
-/

set_option autoImplicit false

namespace Provision.Yaml

open Decode (bind_eq_ok)

/-- How a plain scalar with a value is written. -/
inductive PlainText : (written value : List Char) → Prop
  /-- On one line, as it is. -/
  | line {value : List Char} : OneLine value → PlainText value value
  /-- Over several lines. Of the first, the blanks at its end do not count. -/
  | lines {first blanks later more : List Char} {ch : Char} : OneLine first →
      (∀ b ∈ blanks, isBlank b = true) → isLineEnd ch = true → more ≠ [] →
      PlainText (first ++ blanks ++ ch :: later) (first ++ more)

theorem oneLine_of_blanks {l : List Char} (h : ∀ b ∈ l, isBlank b = true) : OneLine l :=
  fun b hb => not_isLineEnd_of_isBlank (h b hb)

/-- Blanks, and then a line end. -/
def BrokenBlanks (l : List Char) : Prop :=
  ∃ blanks ch later, l = blanks ++ ch :: later ∧ (∀ b ∈ blanks, isBlank b = true) ∧
    isLineEnd ch = true

/-! ## Words and gaps -/

theorem continuesPlain_char {flow : Bool} {c : Cursor} (h : c.continuesPlain .places flow = true) :
    isLineEnd c.char = false ∧ isEnd c.char = false := by
  refine not_isLineEnd_of_not_isSpaceOrEnd (Bool.eq_false_iff.mpr fun hspace => ?_)
  simp [Cursor.continuesPlain, hspace] at h

/-- A word is taken as it is. -/
theorem readPlainWord_reads {flow : Bool} {fuel : Nat} {soFar soFar' : List Char} {c c' : Cursor}
    (h : readPlainWord .places flow fuel soFar c = .ok (soFar', c')) :
    ∃ word, soFar' = word.reverse ++ soFar ∧ OneLine word ∧ c.Reads word c' := by
  induction fuel generalizing soFar c with
  | zero =>
    cases h
    exact ⟨[], by simp, by simp, .refl _⟩
  | succ fuel ih =>
    rw [readPlainWord] at h
    split at h
    · next hgoes =>
      rw [if_neg (by simp)] at h
      obtain ⟨hline, hend⟩ := continuesPlain_char hgoes
      obtain ⟨word, rfl, hword, hreads⟩ := ih h
      exact ⟨c.char :: word, by simp, by simp [hline, hword],
        (Cursor.Reads.one hline hend).trans hreads⟩
    · cases h
      exact ⟨[], by simp, by simp, .refl _⟩

/-- A gap only goes on. -/
theorem readPlainGap_leads {indent : Int} {fuel : Nat} {gap gap' : Gap} {c c' : Cursor}
    (h : readPlainGap .places indent fuel gap c = .ok (gap', c')) : c.Leads c' := by
  induction fuel generalizing gap c with
  | zero =>
    cases h
    exact .refl _
  | succ fuel ih =>
    rw [readPlainGap] at h
    split at h
    · next hblank =>
      split at h
      · obtain ⟨⟨tab, space, after⟩, hskip, h⟩ := bind_eq_ok h
        have hto := Cursor.leads_skipToLineEnd hskip
        dsimp only at h
        split at h
        · exact hto.trans (ih h)
        · cases h
      · exact (Cursor.Leads.one (not_isLineEnd_of_isBlank hblank)).trans (ih h)
    split at h
    · next hbreak => exact ((Cursor.Leads.refl c).skipBreak hbreak).trans (ih h)
    · cases h
      exact .refl _

/-- A gap that begins on the line has the blanks up to its end, or up to a line end. -/
theorem readPlainGap_onLine {indent : Int} {fuel : Nat} {gap gap' : Gap} {c c' : Cursor}
    (h : readPlainGap .places indent fuel gap c = .ok (gap', c')) (hgap : gap.broken = false) :
    ∃ passed, c.Reads passed c' ∧
      ((gap'.broken = false ∧ gap'.blanks = gap.blanks ++ passed ∧ ∀ b ∈ passed, isBlank b = true) ∨
        BrokenBlanks passed) := by
  induction fuel generalizing gap c with
  | zero =>
    cases h
    exact ⟨[], .refl _, .inl ⟨hgap, by simp, by simp⟩⟩
  | succ fuel ih =>
    rw [readPlainGap] at h
    split at h
    · next hblank =>
      rw [if_neg (by simp [hgap])] at h
      have hline := not_isLineEnd_of_isBlank hblank
      have hend := not_isEnd_of_isBlank hblank
      obtain ⟨passed, hreads, hpassed⟩ := ih h (by simp [Gap.blank, hgap])
      refine ⟨c.char :: passed, (Cursor.Reads.one hline hend).trans hreads, ?_⟩
      rcases hpassed with ⟨hbroken, hblanks, hall⟩ | ⟨blanks, ch, later, rfl, hall, hch⟩
      · exact .inl ⟨hbroken, by simp [hblanks, Gap.blank, hgap], by simpa [hblank] using hall⟩
      · exact .inr ⟨c.char :: blanks, ch, later, rfl, by simpa [hblank] using hall, hch⟩
    split at h
    · next hbreak =>
      obtain ⟨later, hreads⟩ := Cursor.Reads.lineBreak hbreak
      obtain ⟨passed, hpassed⟩ := (readPlainGap_leads h).reads
      exact ⟨c.char :: later ++ passed, hreads.trans hpassed,
        .inr ⟨[], c.char, _, rfl, by simp, hbreak⟩⟩
    · cases h
      exact ⟨[], .refl _, .inl ⟨hgap, by simp, by simp⟩⟩

/-! ## Pieces -/

/-- What is known of a plain scalar that began at a place and is read in part. -/
inductive PlainSoFar (start : Cursor) : (soFar : List Char) → Gap → (stop : Mark) → Cursor → Prop
  /-- Nothing but its first line is read. -/
  | onLine {soFar : List Char} {gap : Gap} {stop : Mark} {c : Cursor} :
      OneLine soFar → gap.broken = false → (∀ b ∈ gap.blanks, isBlank b = true) →
      start.Reads (soFar.reverse ++ gap.blanks) c →
      stop.index = start.mark.index + soFar.length → PlainSoFar start soFar gap stop c
  /-- The first line is read. The value begins with its text, and has been read up to `stop`. -/
  | below {soFar : List Char} {gap : Gap} {stop : Mark} {c : Cursor}
      {first blanks later more written : List Char} {ch : Char} :
      OneLine first → (∀ b ∈ blanks, isBlank b = true) → isLineEnd ch = true →
      start.Reads (first ++ blanks ++ ch :: later) c → soFar.reverse = first ++ more →
      written <+: first ++ blanks ++ ch :: later →
      stop.index = start.mark.index + written.length → PlainText written soFar.reverse →
      PlainSoFar start soFar gap stop c

namespace PlainSoFar

variable {start c c' : Cursor} {soFar : List Char} {gap : Gap} {stop : Mark}

theorem begin (c : Cursor) : PlainSoFar c [] Gap.none c.mark c :=
  .onLine (by simp) rfl (by simp [Gap.none]) (.refl c) (by simp)

/-- One more word, with the gap before it. -/
theorem word {word : List Char} (h : PlainSoFar start soFar gap stop c) (hne : word ≠ [])
    (hword : OneLine word) (hreads : c.Reads word c') :
    PlainSoFar start (word.reverse ++ (gap.text.reverse ++ soFar)) Gap.none c'.mark c' := by
  cases h with
  | onLine hsoFar hgap hblanks hpassed _ =>
    have htext : gap.text = gap.blanks := by simp [Gap.text, hgap]
    have hall := hpassed.trans hreads
    refine .onLine ?_ rfl (by simp [Gap.none]) ?_ ?_
    · simpa [OneLine, htext, or_imp, forall_and] using ⟨hword, oneLine_of_blanks hblanks, hsoFar⟩
    · simpa [htext, Gap.none] using hall
    · rw [hall.index]
      simp [htext]
      omega
  | @below first blanks later more written ch hfirst hblanks hch hpassed hvalue _ _ _ =>
    have hall := hpassed.trans hreads
    have hvalue' : (word.reverse ++ (gap.text.reverse ++ soFar)).reverse =
        first ++ (more ++ gap.text ++ word) := by simp [hvalue]
    have hway : start.Reads (first ++ blanks ++ ch :: (later ++ word)) c' := by simpa using hall
    refine .below hfirst hblanks hch hway hvalue' (List.prefix_refl _) hway.index ?_
    rw [hvalue']
    exact .lines hfirst hblanks hch (by simp [hne])

/-- No further word. -/
theorem moved (h : PlainSoFar start soFar gap stop c) (hreads : c.Reads [] c') :
    PlainSoFar start soFar gap stop c' := by
  cases h with
  | onLine hsoFar hgap hblanks hpassed hstop =>
    exact .onLine hsoFar hgap hblanks (by simpa using hpassed.trans hreads) hstop
  | below hfirst hblanks hch hpassed hvalue hwritten hstop htext =>
    exact .below hfirst hblanks hch (by simpa using hpassed.trans hreads) hvalue hwritten hstop
      htext

/-- One more word, if there is one. -/
theorem piece {word : List Char} (h : PlainSoFar start soFar gap stop c) (hword : OneLine word)
    (hreads : c.Reads word c') :
    ∃ soFar' gap' stop', (if word.reverse.isEmpty then (soFar, gap, stop)
        else (word.reverse ++ (gap.text.reverse ++ soFar), Gap.none, c'.mark)) =
          (soFar', gap', stop') ∧ PlainSoFar start soFar' gap' stop' c' := by
  by_cases hne : word = []
  · subst hne
    exact ⟨_, _, _, rfl, h.moved hreads⟩
  · exact ⟨_, _, _, if_neg (by simpa using hne), h.word hne hword hreads⟩

/-- More of the gap after the last word. -/
theorem further {indent : Int} {fuel : Nat} {gap' : Gap} (h : PlainSoFar start soFar gap stop c)
    (hgap' : readPlainGap .places indent fuel gap c = .ok (gap', c')) :
    PlainSoFar start soFar gap' stop c' := by
  cases h with
  | onLine hsoFar hgap hblanks hpassed hstop =>
    have hsoFar' : OneLine soFar.reverse := by simpa [OneLine] using hsoFar
    obtain ⟨passed, hreads, hcase⟩ := readPlainGap_onLine hgap' hgap
    have hall := hpassed.trans hreads
    rcases hcase with ⟨hbroken, hblanks', hpassed'⟩ | ⟨blanks, ch, later, rfl, hpassed', hch⟩
    · refine .onLine hsoFar hbroken ?_ (by simpa [hblanks'] using hall) hstop
      simpa [hblanks', or_imp, forall_and] using ⟨hblanks, hpassed'⟩
    · have hway : start.Reads (soFar.reverse ++ (gap.blanks ++ blanks) ++ ch :: later) c' := by
        simpa using hall
      refine .below hsoFar' ?_ hch hway (List.append_nil _).symm ?_ ?_ (.line hsoFar')
      · simpa [or_imp, forall_and] using ⟨hblanks, hpassed'⟩
      · simp
      · simpa using hstop
  | @below first blanks later more written ch hfirst hblanks hch hpassed hvalue hwritten hstop
      htext =>
    obtain ⟨passed, hreads⟩ := (readPlainGap_leads hgap').reads
    have hway : start.Reads (first ++ blanks ++ ch :: (later ++ passed)) c' := by
      simpa using hpassed.trans hreads
    refine .below hfirst hblanks hch hway hvalue ?_ hstop htext
    simpa using hwritten.trans (List.prefix_append _ passed)

/-- The scalar as far as it is read is written up to `stop`. -/
theorem written (h : PlainSoFar start soFar gap stop c) :
    ∃ written, written <+: start.rest ∧ stop.index = start.mark.index + written.length ∧
      PlainText written soFar.reverse := by
  cases h with
  | onLine hsoFar _ _ hpassed hstop =>
    refine ⟨soFar.reverse, ?_, by simpa using hstop, .line (by simpa [OneLine] using hsoFar)⟩
    rw [hpassed.rest, List.append_assoc]
    exact List.prefix_append _ _
  | below _ _ _ hpassed _ hwritten hstop htext =>
    refine ⟨_, ?_, hstop, htext⟩
    rw [hpassed.rest]
    exact hwritten.trans (List.prefix_append _ _)

end PlainSoFar

/-- Reading on keeps what is known. -/
theorem readPlainPieces_soFar {flow : Bool} {indent : Int} {fuel : Nat} {start c c' : Cursor}
    {soFar soFar' : List Char} {gap gap' : Gap} {stop stop' : Mark}
    (h : readPlainPieces .places flow indent fuel soFar gap stop c = .ok (soFar', gap', stop', c'))
    (hsoFar : PlainSoFar start soFar gap stop c) :
    PlainSoFar start soFar' gap' stop' c' ∧ c.Leads c' := by
  induction fuel generalizing soFar gap stop c with
  | zero =>
    cases h
    exact ⟨hsoFar, .refl _⟩
  | succ fuel ih =>
    rw [readPlainPieces] at h
    split at h
    · cases h
      exact ⟨hsoFar, .refl _⟩
    split at h
    · cases h
    obtain ⟨⟨piece, after⟩, hword, h⟩ := bind_eq_ok h
    obtain ⟨word, hpiece, hline, hreads⟩ := readPlainWord_reads hword
    rw [List.append_nil] at hpiece
    subst hpiece
    obtain ⟨soFar₁, gap₁, stop₁, hstate, hnow⟩ := hsoFar.piece hline hreads
    simp only [hstate] at h
    split at h
    · cases h
      exact ⟨hnow, hreads.leads⟩
    obtain ⟨⟨gap₂, after₂⟩, hgap, h⟩ := bind_eq_ok h
    have hnow₂ := hnow.further hgap
    have hleads := hreads.leads.trans (readPlainGap_leads hgap)
    dsimp only at h
    split at h
    · cases h
      exact ⟨hnow₂, hleads⟩
    · obtain ⟨hlast, hon⟩ := ih h hnow₂
      exact ⟨hlast, hleads.trans hon⟩

/-- **A plain scalar is written as its value says**, from its start up to the end of its token. -/
theorem readPlain_written {flow broken : Bool} {indent : Int} {c c' : Cursor} {t : Token}
    (h : readPlain .places flow indent c = .ok (t, broken, c')) :
    c.Leads c' ∧ t.start = c.mark ∧ ∃ written value, t.kind = .scalar .plain (String.ofList value) ∧
      value ≠ [] ∧ written <+: c.rest ∧ t.stop.index = c.mark.index + written.length ∧
      PlainText written value := by
  rw [readPlain] at h
  split at h
  · cases h
  obtain ⟨⟨reversed, gap, stop, after⟩, hpieces, h⟩ := bind_eq_ok h
  obtain ⟨hsoFar, hleads⟩ := readPlainPieces_soFar hpieces (.begin c)
  dsimp only at h
  split at h
  · cases h
  · next hne =>
    cases h
    obtain ⟨written, hbegins, hstop, htext⟩ := hsoFar.written
    exact ⟨hleads, rfl, written, _, rfl, by simpa using hne, hbegins, hstop, htext⟩

end Provision.Yaml
