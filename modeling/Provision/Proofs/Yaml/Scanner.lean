import Mathlib.Logic.Basic
import Provision.Proofs.Yaml.BlockScalar
import Provision.Proofs.Yaml.PlainScalar
import Provision.Proofs.Yaml.QuotedScalar
import Provision.Yaml.Scanner

/-!
# Where the tokens of scalars come from

Whatever the scanner does, it only goes on in the text, and a token of a scalar comes from one of
the three readers of scalars. So each such token says where its scalar is written and what it is.

* `Written`: how a scalar is written at a place.
* `Scan.Goes`: what a step without a scalar does.
* `Scan.Sound.next`: every step keeps the tokens true to the text.
* `scan_written`: so are all tokens of a text.
-/

set_option autoImplicit false

namespace Provision.Yaml

open Decode (bind_eq_ok)

/-- How a scalar of a style and a value is written at a place, up to `stop`. -/
inductive Written (c : Cursor) (stop : Nat) : Style → (value : List Char) → Prop
  | plain {written value : List Char} : value ≠ [] → written <+: c.rest →
      stop = c.mark.index + written.length → PlainText written value →
      c.char ≠ '\'' → c.char ≠ '"' → Written c stop .plain value
  | quoted {single : Bool} {inside later value : List Char} :
      c.rest = quoteOf single :: inside ++ quoteOf single :: later →
      stop = c.mark.index + inside.length + 2 → QuotedText (quoteOf single) inside →
      (quoteOf single = '\'' → later.head? ≠ some '\'') →
      Written c stop (if single then .singleQuoted else .doubleQuoted) value
  | block {literal : Bool} {value : List Char} : c.mark.index ≤ stop →
      BlockValue c.rest (stop - c.mark.index) value →
      Written c stop (if literal then .literal else .folded) value

/-- A token tells no lies about the text: if it is a scalar, it is written where the token
starts. -/
def Token.TrueTo (text : List Char) (t : Token) : Prop :=
  ∀ style value, t.kind = .scalar style value → ∃ c, (Cursor.start text).Leads c ∧
    t.start = c.mark ∧ c.mark.index ≤ t.stop.index ∧ Written c t.stop.index style value.toList

/-- The token is no scalar. -/
def Token.IsMark (t : Token) : Prop := ∀ style value, t.kind ≠ .scalar style value

theorem Token.IsMark.trueTo {t : Token} (h : t.IsMark) (text : List Char) : t.TrueTo text :=
  fun style value hkind => absurd hkind (h style value)

/-! ## Directives, anchors and tags -/

theorem readVersionNumber_leads {c c' : Cursor} {n : Nat}
    (h : Scan.readVersionNumber c = .ok (n, c')) : c.Leads c' := by
  have hdigit : ∀ ch : Char, ch.isDigit = true → isLineEnd ch = false := fun ch hch =>
    Bool.eq_false_iff.mpr fun hline => by
      rcases (isLineEnd_iff ch).mp hline with rfl | rfl <;> exact absurd hch (by decide)
  rw [Scan.readVersionNumber] at h
  split at h
  · cases h
  · cases h
    exact .skipWhile hdigit c

theorem readEscapedByte_leads {c c' : Cursor} {b : UInt8}
    (h : Scan.readEscapedByte c = .ok (b, c')) : c.Leads c' := by
  rw [Scan.readEscapedByte] at h
  split at h
  · next n hnumber =>
    have hdigits := hexNumber?_digits hnumber
    split at h
    · next hpercent =>
      cases h
      refine .skipN fun i hi => ?_
      match i, hi with
      | 0, _ =>
        rw [Cursor.peek_zero, hpercent]
        decide
      | 1, _ => exact (hexDigit?_char (hdigits _ (by simp))).2.2.1
      | 2, _ => exact (hexDigit?_char (hdigits _ (by simp))).2.2.1
    · cases h
  · cases h

theorem readEscapedChar_leads {c c' : Cursor} {ch : Char}
    (h : Scan.readEscapedChar .places c = .ok (ch, c')) : c.Leads c' := by
  have go : ∀ (next : Nat → UInt8 → Nat) (count n : Nat) (c : Cursor) (m : Nat) (c' : Cursor),
      Scan.readEscapedChar.go next count n c = .ok (m, c') → c.Leads c' := by
    intro next count
    induction count with
    | zero =>
      intro n c m c' h
      cases h
      exact .refl _
    | succ count ih =>
      intro n c m c' h
      rw [Scan.readEscapedChar.go] at h
      obtain ⟨⟨b, after⟩, hb, h⟩ := bind_eq_ok h
      dsimp only at h
      split at h
      · exact (readEscapedByte_leads hb).trans (ih _ _ _ _ h)
      · cases h
  rw [Scan.readEscapedChar] at h
  obtain ⟨⟨b, after⟩, hb, h⟩ := bind_eq_ok h
  have hfirst := readEscapedByte_leads hb
  dsimp only at h
  split at h
  · cases h
    exact hfirst
  -- however many bytes follow, they are read in the same way
  have hrest {next : Nat → UInt8 → Nat} {f : Nat × Cursor → Except Malformed (Char × Cursor)}
      (count n : Nat) (hn : Scan.readEscapedChar.go next count n after >>= f = .ok (ch, c'))
      (hf : ∀ m d, f (m, d) =
        if m.isValidChar then .ok (Char.ofNat m, d) else .error ⟨d.mark⟩) : c.Leads c' := by
    obtain ⟨⟨m, after'⟩, hgo, hn⟩ := bind_eq_ok hn
    rw [hf] at hn
    split at hn
    · cases hn
      exact hfirst.trans (go _ _ _ _ _ _ hgo)
    · cases hn
  split at h
  · exact hrest _ _ h fun _ _ => rfl
  split at h
  · exact hrest _ _ h fun _ _ => rfl
  split at h
  · exact hrest _ _ h fun _ _ => rfl
  · cases h

theorem isUriChar_line {whole : Bool} {ch : Char} (h : Scan.isUriChar .places whole ch = true) :
    isLineEnd ch = false :=
  Bool.eq_false_iff.mpr fun hline => by
    rcases (isLineEnd_iff ch).mp hline with rfl | rfl <;> revert h <;> cases whole <;> decide

theorem readUri_leads {whole : Bool} {fuel : Nat} {soFar uri : List Char} {c c' : Cursor}
    (h : Scan.readUri .places whole fuel soFar c = .ok (uri, c')) : c.Leads c' := by
  induction fuel generalizing soFar c with
  | zero =>
    cases h
    exact .refl _
  | succ fuel ih =>
    rw [Scan.readUri] at h
    split at h
    · obtain ⟨⟨ch, after⟩, hch, h⟩ := bind_eq_ok h
      exact (readEscapedChar_leads hch).trans (ih h)
    split at h
    · next huri => exact (Cursor.Leads.one (isUriChar_line huri)).trans (ih h)
    · cases h
      exact .refl _

theorem readHandle_leads {handle : List Char} {c c' : Cursor}
    (h : Scan.readHandle c = .ok (handle, c')) : c.Leads c' := by
  rw [Scan.readHandle] at h
  split at h
  · cases h
  · next hmark =>
    rw [ne_eq, Decidable.not_not] at hmark
    have hfirst : c.Leads (c.skip.skipWhile isWord) :=
      (Cursor.Leads.one (by rw [hmark]; decide)).trans
        (.skipWhile (fun _ => not_isLineEnd_of_isWord) _)
    cases h
    split
    · next hclose => exact hfirst.trans (.one (by rw [hclose]; decide))
    · exact hfirst

theorem readAnchor_leads {isAlias : Bool} {c c' : Cursor} {t : Token}
    (hc : isLineEnd c.char = false) (h : Scan.readAnchor .places isAlias c = .ok (t, c')) :
    c.Leads c' ∧ t.IsMark := by
  have hname : ∀ ch, Scan.isNameChar .places ch = true → isLineEnd ch = false := fun ch hch => by
    simp only [Scan.isNameChar, Bool.not_eq_true', Bool.or_eq_false_iff] at hch
    exact (not_isLineEnd_of_not_isSpaceOrEnd hch.1.1).1
  rw [Scan.readAnchor] at h
  split at h
  · cases h
  · cases h
    refine ⟨(Cursor.Leads.one hc).trans (.skipWhile hname _), fun style value => ?_⟩
    cases isAlias <;> simp [Scan.token]

theorem readTag_leads {flow : Bool} {c c' : Cursor} {t : Token}
    (hc : isLineEnd c.char = false) (h : Scan.readTag .places flow c = .ok (t, c')) :
    c.Leads c' ∧ t.IsMark := by
  have hrest (handle suffix : List Char) (after : Cursor) (hafter : c.Leads after)
      (hend : (if isSpaceOrEnd .places after.char || flow && isFlow after.char then
          .ok (Scan.token (.tag (String.ofList handle) (String.ofList suffix)) c after, after)
        else .error ⟨c.mark⟩) = (.ok (t, c') : Except Malformed (Token × Cursor))) :
      c.Leads c' ∧ t.IsMark := by
    split at hend
    · cases hend
      exact ⟨hafter, by simp [Token.IsMark, Scan.token]⟩
    · cases hend
  rw [Scan.readTag] at h
  split at h
  · next hangle =>
    obtain ⟨⟨uri, d⟩, huri, h⟩ := bind_eq_ok h
    dsimp only at h
    split at h
    · cases h
    · next hclose =>
      have hclosed : d.char = '>' := by
        simp only [Bool.or_eq_true, decide_eq_true_eq, not_or, ne_eq, Decidable.not_not] at hclose
        exact hclose.2
      refine hrest _ _ _ (((Cursor.Leads.skipN fun i hi => ?_).trans (readUri_leads huri)).trans
        (.one (by rw [hclosed]; decide))) h
      match i, hi with
      | 0, _ => exact hc
      | 1, _ =>
        rw [hangle]
        decide
  · obtain ⟨⟨handle, d⟩, hhandle, h⟩ := bind_eq_ok h
    obtain ⟨⟨uri, d'⟩, huri, h⟩ := bind_eq_ok h
    have hd := (readHandle_leads hhandle).trans (readUri_leads huri)
    dsimp only at h
    split at h
    · split at h
      · cases h
      · exact hrest _ _ _ hd h
    · split at h <;> exact hrest _ _ _ hd h

theorem readDirective_leads {c c' : Cursor} {t : Token}
    (hc : isLineEnd c.char = false) (h : Scan.readDirective .places c = .ok (t, c')) :
    c.Leads c' ∧ t.IsMark := by
  have hnamed : c.Leads (c.skip.skipWhile isWord) :=
    (Cursor.Leads.one hc).trans (.skipWhile (fun _ => not_isLineEnd_of_isWord) _)
  have hbody := hnamed.trans (.skipWhile (fun _ => not_isLineEnd_of_isBlank) _)
  -- the end of the line is read in the same way after each of them
  have hrest {f : Bool × Bool × Cursor → Except Malformed (Token × Cursor)} (kind : Token.Kind)
      (after : Cursor) (hafter : c.Leads after) (hkind : (Scan.token kind c after).IsMark)
      (hend : after.skipToLineEnd true >>= f = .ok (t, c'))
      (hf : ∀ tab space d, f (tab, space, d) =
        if !isBreakOrEnd .places d.char then .error ⟨c.mark⟩
        else .ok (Scan.token kind c after, if isBreak .places d.char then d.skipBreak else d)) :
      c.Leads c' ∧ t.IsMark := by
    obtain ⟨⟨tab, space, d⟩, hskip, hend⟩ := bind_eq_ok hend
    have hd := hafter.trans (Cursor.leads_skipToLineEnd hskip)
    rw [hf] at hend
    split at hend
    · cases hend
    · cases hend
      refine ⟨?_, hkind⟩
      split
      · next hbreak => exact hd.skipBreak hbreak
      · exact hd
  rw [Scan.readDirective] at h
  dsimp only at h
  split at h
  · cases h
  split at h
  · obtain ⟨⟨major, d⟩, hmajor, h⟩ := bind_eq_ok h
    dsimp only at h
    split at h
    · cases h
    · next hdot =>
      rw [ne_eq, Decidable.not_not] at hdot
      obtain ⟨⟨minor, d'⟩, hminor, h⟩ := bind_eq_ok h
      exact hrest (.version major minor) _ (((hbody.trans (readVersionNumber_leads hmajor)).trans
        (.one (by rw [hdot]; decide))).trans (readVersionNumber_leads hminor))
        (by simp [Token.IsMark, Scan.token]) h fun _ _ _ => rfl
  split at h
  · obtain ⟨⟨handle, d⟩, hhandle, h⟩ := bind_eq_ok h
    dsimp only at h
    split at h
    · cases h
    · obtain ⟨⟨stem, d'⟩, hstem, h⟩ := bind_eq_ok h
      dsimp only at h
      split at h
      · cases h
      · exact hrest (.tagHandle (String.ofList handle) (String.ofList stem)) _
          (((hbody.trans (readHandle_leads hhandle)).trans
            (.skipWhile (fun _ => not_isLineEnd_of_isBlank) _)).trans (readUri_leads hstem))
          (by simp [Token.IsMark, Scan.token]) h fun _ _ _ => rfl
  · exact hrest .otherDirective _ (hnamed.trans (.skipComment _))
      (by simp [Token.IsMark, Scan.token]) h fun _ _ _ => rfl

namespace Scan

/-! ## Steps without a scalar -/

/-- What a step without a scalar does: it goes on in the text, and what it adds to the tokens are
marks. -/
structure Goes (s s' : Scan) : Prop where
  leads : s.cursor.Leads s'.cursor
  tokens : ∀ t ∈ s'.tokens, t ∈ s.tokens ∨ t.IsMark

/-- A step that stays where it is. -/
structure Stays (s s' : Scan) : Prop where
  cursor : s'.cursor = s.cursor
  tokens : ∀ t ∈ s'.tokens, t ∈ s.tokens ∨ t.IsMark

variable {s s' s'' : Scan}

theorem Goes.trans (h : s.Goes s') (h' : s'.Goes s'') : s.Goes s'' :=
  ⟨h.leads.trans h'.leads, fun t ht => (h'.tokens t ht).elim (h.tokens t) .inr⟩

/-- A step that goes on after a move. -/
theorem Goes.after (h : s'.Goes s'') (hleads : s.cursor.Leads s'.cursor)
    (htokens : s'.tokens = s.tokens) : s.Goes s'' :=
  ⟨hleads.trans h.leads, fun t ht => htokens ▸ h.tokens t ht⟩

theorem Goes.push (h : s.Goes s') {t : Token} (ht : t.IsMark) : s.Goes (s'.push t) := by
  refine ⟨h.leads, fun t' ht' => ?_⟩
  rcases Array.mem_push.mp ht' with hmem | rfl
  · exact h.tokens t' hmem
  · exact .inr ht

theorem Goes.of_tokens_eq (hleads : s.cursor.Leads s'.cursor) (htokens : s'.tokens = s.tokens) :
    s.Goes s' :=
  ⟨hleads, fun _ ht => .inl (htokens ▸ ht)⟩

namespace Stays

theorem of_eq (hcursor : s'.cursor = s.cursor) (htokens : s'.tokens = s.tokens) : s.Stays s' :=
  ⟨hcursor, fun _ ht => .inl (htokens ▸ ht)⟩

theorem refl (s : Scan) : s.Stays s := of_eq rfl rfl

theorem trans (h : s.Stays s') (h' : s'.Stays s'') : s.Stays s'' :=
  ⟨h'.cursor.trans h.cursor, fun t ht => (h'.tokens t ht).elim (h.tokens t) .inr⟩

/-- A step that stays after a change of what is neither the place nor a token. -/
theorem after (h : s'.Stays s'') (hcursor : s'.cursor = s.cursor) (htokens : s'.tokens = s.tokens) :
    s.Stays s'' :=
  ⟨h.cursor.trans hcursor, fun t ht => htokens ▸ h.tokens t ht⟩

theorem goes (h : s.Stays s') : s.Goes s' := ⟨h.cursor ▸ .refl _, h.tokens⟩

/-- A move after a step that stays. -/
theorem moves (h : s.Stays s') (hleads : s.cursor.Leads s''.cursor)
    (htokens : s''.tokens = s'.tokens) : s.Goes s'' :=
  ⟨hleads, fun t ht => h.tokens t (htokens ▸ ht)⟩

/-- A step that goes on after one that stays, and a move between them. -/
theorem goesOn {s₁ s₂ : Scan} (h : s.Stays s₁) (hgoes : s₂.Goes s')
    (hleads : s.cursor.Leads s₂.cursor) (htokens : s₂.tokens = s₁.tokens) : s.Goes s' :=
  (h.moves hleads htokens).trans hgoes

theorem leads_skip (h : s.Stays s') (hc : isLineEnd s.cursor.char = false) :
    s.cursor.Leads s'.cursor.skip := by
  rw [h.cursor]
  exact .one hc

theorem push (h : s.Stays s') {t : Token} (ht : t.IsMark) : s.Stays (s'.push t) := by
  refine ⟨h.cursor, fun t' ht' => ?_⟩
  rcases Array.mem_push.mp ht' with hmem | rfl
  · exact h.tokens t' hmem
  · exact .inr ht

theorem insert (h : s.Stays s') {t : Token} (ht : t.IsMark) (position : Nat) :
    s.Stays { s' with tokens := s'.tokens.insertIdxIfInBounds position t } := by
  refine ⟨h.cursor, fun t' ht' => ?_⟩
  dsimp only at ht'
  rw [Array.insertIdxIfInBounds] at ht'
  split at ht'
  · rcases Array.mem_insertIdx.mp ht' with rfl | hmem
    · exact .inr ht
    · exact h.tokens t' hmem
  · exact h.tokens t' ht'

theorem unroll (s : Scan) (column : Int) : s.Stays (s.unroll column) := by
  have go : ∀ (l : List Indent) (s : Scan), s.Stays (unroll.go column l s) := by
    intro l
    induction l with
    | nil => exact refl
    | cons i l ih =>
      intro s
      rw [unroll.go]
      split
      · exact refl s
      · refine trans ?_ (ih _)
        split
        · exact (of_eq rfl rfl : s.Stays { s with indent := i.column, indents := l }).push
            (by simp [Token.IsMark])
        · exact of_eq rfl rfl
  rw [Scan.unroll]
  split
  · exact refl s
  · exact go _ s

theorem roll (s : Scan) (column position : Nat) {kind : Token.Kind} (mark : Mark)
    (hkind : (⟨kind, mark, mark⟩ : Token).IsMark) :
    s.Stays (s.roll column position kind mark) := by
  have hback : ∀ s₀ : Scan, s.Stays s₀ → s.Stays (if s₀.indent < (column : Int) then
      { s₀ with
        indent := column
        indents := ⟨s₀.indent, true⟩ :: s₀.indents
        tokens := s₀.tokens.insertIdxIfInBounds position ⟨kind, mark, mark⟩ }
      else s₀) := by
    intro s₀ h
    split
    · exact (h.insert hkind position).trans (of_eq rfl rfl)
    · exact h
  rw [Scan.roll]
  split
  · exact refl s
  · refine hback _ ?_
    split
    · split
      · exact of_eq rfl rfl
      · exact refl s
    · exact refl s

theorem rollColumn (r : Reading) (s : Scan) : s.Stays (s.rollColumn r) := by
  rw [Scan.rollColumn]
  split
  · split
    · exact of_eq rfl rfl
    · exact refl s
  · exact refl s

theorem unrollColumns (s : Scan) : s.Stays s.unrollColumns := by
  have go : ∀ (l : List Indent) (s : Scan), s.Stays (unrollColumns.go l s) := by
    intro l
    induction l with
    | nil => exact refl
    | cons i l ih =>
      intro s
      obtain ⟨outer, block⟩ := i
      cases block with
      | false =>
        rw [unrollColumns.go]
        exact (ih _).after rfl rfl
      | true => exact refl s
  exact go _ s

theorem dropKey (h : s.dropKey = .ok s') : s.Stays s' := by
  rw [Scan.dropKey] at h
  split at h
  · split at h
    · cases h
    · cases h
      exact of_eq rfl rfl
  · cases h
    exact refl _

theorem saveKey {r : Reading} (h : s.saveKey r = .ok s') : s.Stays s' := by
  rw [Scan.saveKey] at h
  split at h
  · cases h
    exact refl _
  · obtain ⟨s₁, hdrop, h⟩ := bind_eq_ok h
    cases h
    exact (dropKey hdrop).trans (of_eq rfl rfl)

theorem staleKeys {r : Reading} (h : s.staleKeys r = .ok s') : s.Stays s' := by
  rw [Scan.staleKeys] at h
  dsimp only at h
  split at h
  · cases h
  · cases h
    exact of_eq rfl rfl

theorem endPair (r : Reading) (s : Scan) : s.Stays (s.endPair r) := by
  rw [Scan.endPair]
  split
  · exact ((refl s).push (by simp [Token.IsMark])).trans (of_eq rfl rfl)
  · exact refl s

end Stays

/-! ### Between tokens -/

theorem goes_skipLineEnd (h : s.skipLineEnd .places = .ok s') : s.Goes s' := by
  obtain ⟨⟨tab, space, c⟩, hskip, h⟩ := bind_eq_ok h
  cases h
  exact .of_tokens_eq (Cursor.leads_skipToLineEnd hskip) rfl

theorem goes_skipBetween (h : s.skipBetween .places = .ok s') : s.Goes s' := by
  have go : ∀ (fuel : Nat) (s : Scan), skipBetweenPlaces fuel s = .ok s' → s.Goes s' := by
    intro fuel
    induction fuel with
    | zero =>
      intro s h
      cases h
      exact (Stays.refl _).goes
    | succ fuel ih =>
      intro s h
      rw [skipBetweenPlaces] at h
      dsimp only at h
      split at h
      · obtain ⟨⟨tab, space, c⟩, hskip, h⟩ := bind_eq_ok h
        have hc := Cursor.leads_skipToLineEnd hskip
        dsimp only at h
        split at h
        · exact (ih _ h).after hc rfl
        · cases h
      split at h
      · next hblank =>
        have hc := Cursor.Leads.one (not_isLineEnd_of_isBlank hblank)
        exact (ih _ h).after hc rfl
      split at h
      · next hbreak =>
        have hc := (Cursor.Leads.refl s.cursor).skipBreak hbreak
        exact (ih _ h).after hc rfl
      split at h
      · exact (ih _ h).after (.skipComment _) rfl
      · cases h
        exact (Stays.refl _).goes
  exact go _ s h

theorem goes_skipAfterKey {fuel : Nat} {seen : Bool} (h : skipAfterKey fuel seen s = .ok s') :
    s.Goes s' := by
  induction fuel generalizing seen s with
  | zero =>
    cases h
    exact (Stays.refl _).goes
  | succ fuel ih =>
    rw [skipAfterKey] at h
    split at h
    · next hspace =>
      have hc := Cursor.Leads.one (c := s.cursor) (by rw [hspace]; decide)
      exact (ih h).after hc rfl
    split at h
    · next hbreak =>
      have hc := (Cursor.Leads.refl s.cursor).skipBreak hbreak
      exact (ih h).after hc rfl
    split at h
    · exact (ih h).after (.skipComment _) rfl
    split at h
    · cases h
      exact (Stays.refl _).goes
    · cases h

/-! ### Fetching marks -/

theorem goes_fetchDirective (hc : isLineEnd s.cursor.char = false)
    (h : s.fetchDirective .places = .ok s') : s.Goes s' := by
  obtain ⟨s₁, hdrop, h⟩ := bind_eq_ok h
  obtain ⟨⟨t, c⟩, hread, h⟩ := bind_eq_ok h
  have hstay := (Stays.unroll s (-1)).trans (.dropKey hdrop)
  rw [hstay.cursor] at hread
  obtain ⟨hleads, ht⟩ := readDirective_leads hc hread
  cases h
  exact ⟨hleads, (hstay.push ht).tokens⟩

/-- Three characters of a line that opens or closes a document. -/
theorem leads_documentMark {c : Cursor} (h : c.atDocumentMark .places = true) :
    c.Leads (c.skipN 3) := by
  simp only [Cursor.atDocumentMark, Bool.and_eq_true, Bool.or_eq_true, decide_eq_true_eq] at h
  refine .skipN fun i hi => ?_
  rcases h.2 with ⟨⟨h0, h1⟩, h2⟩ | ⟨⟨h0, h1⟩, h2⟩
  all_goals
    match i, hi with
    | 0, _ =>
      rw [Cursor.peek_zero, h0]
      decide
    | 1, _ =>
      rw [h1]
      decide
    | 2, _ =>
      rw [h2]
      decide

theorem goes_fetchDocumentMark (hmark : s.cursor.atDocumentMark .places = true)
    (h : s.fetchDocumentMark .places = .ok s') : s.Goes s' := by
  obtain ⟨s₁, hdrop, h⟩ := bind_eq_ok h
  have hstay := (Stays.unroll s (-1)).trans (.dropKey hdrop)
  have hleads := leads_documentMark hmark
  rw [← hstay.cursor] at hleads
  have hgoes (kind : Token.Kind) (hkind : (token kind s₁.cursor (s₁.cursor.skipN 3)).IsMark) :
      s.Goes { s₁.push (token kind s₁.cursor (s₁.cursor.skipN 3)) with
        cursor := s₁.cursor.skipN 3, keyAllowed := false } :=
    (hstay.push hkind).moves (hstay.cursor ▸ hleads) rfl
  dsimp only at h
  by_cases hdash : s₁.cursor.char = '-'
  · rw [if_pos hdash] at h
    cases h
    exact hgoes _ (by simp [Token.IsMark, token])
  · rw [if_neg hdash] at h
    obtain ⟨s₂, hskip, h⟩ := bind_eq_ok h
    have hend := (hgoes _ (by simp [Token.IsMark, token])).trans (goes_skipLineEnd hskip)
    split at h
    · cases h
      exact hend
    · cases h

theorem goes_fetchFlowStart (hc : isLineEnd s.cursor.char = false)
    (h : s.fetchFlowStart .places = .ok s') : s.Goes s' := by
  obtain ⟨s₁, hsave, h⟩ := bind_eq_ok h
  have hstay := (Stays.saveKey hsave).trans (.rollColumn .places s₁)
  dsimp only at h
  split at h
  · cases h
  obtain ⟨s₂, hskip, h⟩ := bind_eq_ok h
  have hgoes := hstay.goesOn (goes_skipLineEnd hskip) (hstay.leads_skip hc) rfl
  cases h
  refine hgoes.push ?_
  split <;> simp [Token.IsMark, token]

theorem goes_fetchFlowEnd (hc : isLineEnd s.cursor.char = false)
    (h : s.fetchFlowEnd .places = .ok s') : s.Goes s' := by
  obtain ⟨s₁, hdrop, h⟩ := bind_eq_ok h
  dsimp only at h
  obtain ⟨s₂, hskip, h⟩ := bind_eq_ok h
  have hclosed : s.Stays (if s₁.flow > 0 then
      { s₁ with flow := s₁.flow - 1, keys := s₁.keys.drop 1 }
      else s₁) := by
    split
    · exact (Stays.dropKey hdrop).trans (.of_eq rfl rfl)
    · exact .dropKey hdrop
  have hstay := hclosed.trans (.endPair .places _)
  have hgoes := hstay.goesOn (goes_skipLineEnd hskip) (hstay.leads_skip hc) rfl
  cases h
  split
  all_goals
    refine Goes.push ?_ ?_
    · exact ⟨hgoes.leads, hgoes.tokens⟩
    · split <;> simp [Token.IsMark, token]

theorem goes_fetchFlowEntry (hc : isLineEnd s.cursor.char = false)
    (h : s.fetchFlowEntry .places = .ok s') : s.Goes s' := by
  obtain ⟨s₁, hdrop, h⟩ := bind_eq_ok h
  obtain ⟨s₂, hskip, h⟩ := bind_eq_ok h
  have hstay := (Stays.dropKey hdrop).trans (.endPair .places _)
  have hgoes := hstay.goesOn (goes_skipLineEnd hskip) (hstay.leads_skip hc) rfl
  cases h
  exact hgoes.push (by simp [Token.IsMark, token])

theorem goes_fetchBlockEntry (hc : isLineEnd s.cursor.char = false)
    (h : s.fetchBlockEntry .places = .ok s') : s.Goes s' := by
  rw [fetchBlockEntry] at h
  dsimp only at h
  split at h
  · cases h
  obtain ⟨⟨tab, space, after⟩, hskip, h⟩ := bind_eq_ok h
  dsimp only at h
  split at h
  · cases h
  obtain ⟨s₁, hdrop, h⟩ := bind_eq_ok h
  have hopened : s.Stays
      (s.roll s.cursor.mark.column s.tokens.size .blockSequenceStart s.cursor.mark) :=
    .roll s _ _ _ (by simp [Token.IsMark])
  have hafter := (Cursor.Leads.one hc).trans (Cursor.leads_skipToLineEnd hskip)
  have hdropped := (Stays.dropKey hdrop).goes
  cases h
  have hgoes : s.Goes s₁ := by
    split at hdropped
    · exact hopened.goesOn ((Stays.rollColumn .places _).goes.trans hdropped) hafter rfl
    · exact hopened.goesOn hdropped hafter rfl
  have hpushed := hgoes.push (t := ⟨.blockEntry, s₁.mark, s₁.mark⟩) (by simp [Token.IsMark])
  exact ⟨hpushed.leads, hpushed.tokens⟩

theorem goes_fetchKey (hc : isLineEnd s.cursor.char = false)
    (h : s.fetchKey .places = .ok s') : s.Goes s' := by
  rw [fetchKey] at h
  dsimp only at h
  split at h
  · cases h
  obtain ⟨s₁, hdrop, h⟩ := bind_eq_ok h
  obtain ⟨s₂, hskip, h⟩ := bind_eq_ok h
  have hopened : s.Stays
      (s.roll s.cursor.mark.column s.tokens.size .blockMappingStart s.cursor.mark) :=
    .roll s _ _ _ (by simp [Token.IsMark])
  have hdropped := Stays.dropKey hdrop
  cases h
  refine Goes.push ?_ (by simp [Token.IsMark, token])
  split at hdropped
  · exact (hopened.trans (hdropped.after rfl rfl)).goesOn (goes_skipAfterKey hskip) (.one hc) rfl
  · exact (hopened.trans hdropped).goesOn (goes_skipAfterKey hskip) (.one hc) rfl

/-- Over the colon, and in the reading for places over the blanks after it if the first is a tab. -/
theorem goes_colon {s₀ : Scan} {f : Scan → Except Malformed Scan}
    (hc : isLineEnd s.cursor.char = false)
    (h : (if s.cursor.skip.char = '\t' then do
        let (_, space, after) ← s.cursor.skip.skipToLineEnd true
        if !space && isWord after.char then do
          let s₁ ← .error ⟨after.mark⟩
          f s₁
        else do
          let s₁ ← pure { s₀ with cursor := after }
          f s₁
      else do
        let s₁ ← pure { s₀ with cursor := s.cursor.skip }
        f s₁) = .ok s') (htokens : s₀.tokens = s.tokens) :
    ∃ s₁, s.Goes s₁ ∧ f s₁ = .ok s' := by
  have hmoved {c : Cursor} (hleads : s.cursor.Leads c) : s.Goes { s₀ with cursor := c } :=
    .of_tokens_eq hleads htokens
  split at h
  · obtain ⟨⟨tab, space, after⟩, hskip, h⟩ := bind_eq_ok h
    dsimp only at h
    split at h
    · cases h
    · exact ⟨_, hmoved ((Cursor.Leads.one hc).trans (Cursor.leads_skipToLineEnd hskip)), h⟩
  · exact ⟨_, hmoved (.one hc), h⟩

theorem goes_fetchValue (hc : isLineEnd s.cursor.char = false)
    (h : s.fetchValue .places = .ok s') : s.Goes s' := by
  rw [fetchValue] at h
  obtain ⟨s₁, hgoes, h⟩ := goes_colon hc h rfl
  extract_lets t insertAt keyed opened mark columned known pushed paired rolled columned' pushed'
    at h
  have ht : t.IsMark := by simp [t, Token.IsMark, token]
  split at h
  · -- the key that began is one, so its tokens are put before it
    split at h
    · cases h
    · have hinsert {s₂ : Scan} {kind : Token.Kind} {m : Mark} (hs₂ : s.Goes s₂)
          (hkind : (⟨kind, m, m⟩ : Token).IsMark) : s.Goes (insertAt s₂ kind m) :=
        hs₂.trans ((Stays.refl s₂).insert hkind _).goes
      have hkeyed : s.Goes keyed := hinsert hgoes (by simp [Token.IsMark])
      have hopened : s.Goes opened := by
        simp only [opened]
        split
        · exact hinsert hkeyed (by simp [Token.IsMark])
        · exact hkeyed
      have hcolumned : s.Goes columned := (hopened.trans
        (Stays.roll _ _ _ _ (by simp [Token.IsMark])).goes).trans (Stays.rollColumn _ _).goes
      have hknown : s.Goes known := ⟨hcolumned.leads, hcolumned.tokens⟩
      have hpushed : s.Goes pushed := hknown.push ht
      cases h
      exact ⟨hpushed.leads, hpushed.tokens⟩
  · split at h
    · cases h
    · have hpaired : s.Goes paired := by
        simp only [paired]
        split
        · exact hgoes.push (by simp [Token.IsMark])
        · exact hgoes
      have hcolumned : s.Goes columned' := (hpaired.trans
        (Stays.roll _ _ _ _ (by simp [Token.IsMark])).goes).trans (Stays.rollColumn _ _).goes
      have hpushed : s.Goes pushed' := hcolumned.push ht
      cases h
      exact ⟨hpushed.leads, hpushed.tokens⟩

theorem goes_fetchProperty (hc : isLineEnd s.cursor.char = false)
    (h : s.fetchProperty .places = .ok s') : s.Goes s' := by
  rw [fetchProperty] at h
  obtain ⟨s₁, hsave, h⟩ := bind_eq_ok h
  have hstay := Stays.saveKey hsave
  rw [hstay.cursor] at h
  have hpush {t : Token} {c : Cursor} (hread : s.cursor.Leads c ∧ t.IsMark) :
      s.Goes { s₁.push t with cursor := c, keyAllowed := false } :=
    (hstay.push hread.2).moves hread.1 rfl
  split at h
  · obtain ⟨⟨t, c⟩, hread, h⟩ := bind_eq_ok h
    cases h
    exact hpush (readTag_leads hc hread)
  · obtain ⟨⟨t, c⟩, hread, h⟩ := bind_eq_ok h
    cases h
    exact hpush (readAnchor_leads hc hread)
  · obtain ⟨⟨t, c⟩, hread, h⟩ := bind_eq_ok h
    cases h
    exact hpush (readAnchor_leads hc hread)

/-! ## Steps with a scalar -/

/-- What is known of a scan: it has come from the start of the text, unless it is at its end, and
the tokens so far are true to the text. -/
structure Sound (text : List Char) (s : Scan) : Prop where
  place : s.cursor.rest = [] ∨ (Cursor.start text).Leads s.cursor
  tokens : ∀ t ∈ s.tokens, t.TrueTo text

namespace Sound

variable {text : List Char}

theorem start (text : List Char) : Sound text (.start text) :=
  ⟨.inr (.refl _), by simp [Scan.start]⟩

theorem goes (h : Sound text s) (hgoes : s.Goes s') : Sound text s' := by
  refine ⟨h.place.imp (fun hrest => ?_) (·.trans hgoes.leads), fun t ht => ?_⟩
  · obtain ⟨passed, hpassed, -⟩ := hgoes.leads.between
    exact (List.append_eq_nil_iff.mp (hpassed.symm.trans hrest)).2
  · exact (hgoes.tokens t ht).elim (h.tokens t) (·.trueTo text)

/-- One more token that is true to the text. -/
theorem push (h : Sound text s) {t : Token} (ht : t.TrueTo text) : Sound text (s.push t) := by
  refine ⟨h.place, fun t' ht' => ?_⟩
  rcases Array.mem_push.mp ht' with hmem | rfl
  · exact h.tokens t' hmem
  · exact ht

theorem fetchQuoted (h : Sound text s) (hplace : (Cursor.start text).Leads s.cursor)
    (hquote : s.cursor.char = '\'' ∨ s.cursor.char = '"') (hs : s.fetchQuoted .places = .ok s') :
    Sound text s' := by
  obtain ⟨s₁, hsave, hs⟩ := bind_eq_ok hs
  have hstay := Stays.saveKey hsave
  obtain ⟨⟨t, c⟩, hread, hs⟩ := bind_eq_ok hs
  rw [hstay.cursor] at hread
  have hchar : s.cursor.char = quoteOf (decide (s.cursor.char = '\'')) := by
    rcases hquote with hq | hq <;> simp [quoteOf, hq]
  obtain ⟨hleads, hstart, ⟨value, hkind⟩, inside, later, hrest, hstop, htext, hlater⟩ :=
    readQuoted_written hread hchar
  have ht : t.TrueTo text := by
    intro style value' hkind'
    rw [hkind] at hkind'
    cases hkind'
    exact ⟨s.cursor, hplace, hstart, by omega, .quoted hrest hstop htext hlater⟩
  obtain ⟨s₂, hskip, hs⟩ := bind_eq_ok hs
  have hmoved : s.Goes { s₁ with cursor := c, keyAllowed := false } := hstay.moves hleads rfl
  have hsound := h.goes (hmoved.trans (goes_skipBetween hskip))
  have hadjacent : Sound text { s₂ with adjacent := some s₂.mark.index } :=
    ⟨hsound.place, hsound.tokens⟩
  cases hs
  exact hadjacent.push ht

theorem fetchBlock (h : Sound text s) (hplace : (Cursor.start text).Leads s.cursor)
    (hline : isLineEnd s.cursor.char = false) (hs : s.fetchBlock .places = .ok s') :
    Sound text s' := by
  obtain ⟨s₁, hsave, hs⟩ := bind_eq_ok hs
  have hstay := (Stays.saveKey hsave).trans (.unrollColumns s₁)
  obtain ⟨⟨t, c⟩, hread, hs⟩ := bind_eq_ok hs
  rw [hstay.cursor] at hread
  obtain ⟨d, value, hd, hc, hstart, hstop, hkind, hvalue⟩ := readBlock_written hline hread
  obtain ⟨passed, hpassed⟩ := hc.reads
  have hindex := hpassed.index
  have ht : t.TrueTo text := by
    intro style value' hkind'
    rw [hkind] at hkind'
    cases hkind'
    refine ⟨d, hplace.trans hd, hstart, by rw [hstop]; omega, ?_⟩
    rw [hstop, String.toList_ofList]
    exact .block (by omega) hvalue
  have hgoes : s.Goes { s₁.unrollColumns with cursor := c } := hstay.moves (hd.trans hc) rfl
  have hsound := (h.goes hgoes).push ht
  cases hs
  exact ⟨hsound.place, hsound.tokens⟩

theorem fetchPlain (h : Sound text s) (hplace : (Cursor.start text).Leads s.cursor)
    (hquote : s.cursor.char ≠ '\'' ∧ s.cursor.char ≠ '"') (hs : s.fetchPlain .places = .ok s') :
    Sound text s' := by
  obtain ⟨s₁, hsave, hs⟩ := bind_eq_ok hs
  have hstay := (Stays.saveKey hsave).trans (.unrollColumns s₁)
  obtain ⟨⟨t, broken, c⟩, hread, hs⟩ := bind_eq_ok hs
  rw [hstay.cursor] at hread
  obtain ⟨hleads, hstart, written, value, hkind, hne, hbegins, hstop, htext⟩ :=
    readPlain_written hread
  have ht : t.TrueTo text := by
    intro style value' hkind'
    rw [hkind] at hkind'
    cases hkind'
    refine ⟨s.cursor, hplace, hstart, by omega, ?_⟩
    rw [String.toList_ofList]
    exact .plain hne hbegins hstop htext hquote.1 hquote.2
  have hgoes : s.Goes { s₁.unrollColumns with cursor := c } := hstay.moves hleads rfl
  have hsound := (h.goes hgoes).push ht
  cases hs
  exact ⟨hsound.place, hsound.tokens⟩

/-- At the end of the text the place is moved to the line after it. -/
theorem readEnd (h : Sound text s) (hend : s.cursor.rest = []) (hs : s.readEnd = .ok s') :
    Sound text s' := by
  have hended (s₀ : Scan) (m : Mark) (hrest : s₀.cursor.rest = [])
      (htokens : s₀.tokens = s.tokens) :
      Sound text { (s₀.unroll (-1)).push ⟨.streamEnd, m, m⟩ with ended := true } := by
    have hs₀ : Sound text s₀ := ⟨.inl hrest, htokens ▸ h.tokens⟩
    have hmark : (⟨.streamEnd, m, m⟩ : Token).IsMark := by simp [Token.IsMark]
    have hpushed := hs₀.goes ((Stays.unroll s₀ (-1)).push hmark).goes
    exact ⟨hpushed.place, hpushed.tokens⟩
  simp only [Scan.readEnd] at hs
  split at hs
  · cases hs
  · cases hs
    refine hended _ _ ?_ ?_
    · exact hend
    · rfl

/-- **Every step keeps the tokens true to the text.** -/
theorem next (h : Sound text s) (hs : s.next .places = .ok s') : Sound text s' := by
  obtain ⟨s₁, hskip, hs⟩ := bind_eq_ok hs
  obtain ⟨s₂, hstale, hs⟩ := bind_eq_ok hs
  have hgoes := (goes_skipBetween hskip).trans
    ((Stays.staleKeys hstale).trans (.unroll s₂ s₂.cursor.column)).goes
  extract_lets s₃ c ch spaced inFlow at hs
  have hsound : Sound text s₃ := h.goes hgoes
  clear_value s₃
  rcases ite_eq_iff.mp hs with ⟨hend, hs⟩ | ⟨hend, hs⟩
  · exact hsound.readEnd (List.isEmpty_iff.mp hend) hs
  have hplace : (Cursor.start text).Leads s₃.cursor :=
    hsound.place.resolve_left fun hrest => hend (List.isEmpty_iff.mpr hrest)
  have hline {ch' : Char} (hch : ch = ch') (hch' : isLineEnd ch' = false) :
      isLineEnd s₃.cursor.char = false := by
    rw [← hch', ← hch]
  rcases ite_eq_iff.mp hs with ⟨hch, hs⟩ | ⟨-, hs⟩
  · simp only [Bool.and_eq_true, decide_eq_true_eq] at hch
    exact hsound.goes (goes_fetchDirective (hline hch.2 (by decide)) hs)
  rcases ite_eq_iff.mp hs with ⟨hmark, hs⟩ | ⟨-, hs⟩
  · exact hsound.goes (goes_fetchDocumentMark hmark hs)
  rcases ite_eq_iff.mp hs with ⟨-, hs⟩ | ⟨-, hs⟩
  · cases hs
  rcases ite_eq_iff.mp hs with ⟨hch, hs⟩ | ⟨-, hs⟩
  · simp only [Bool.or_eq_true, decide_eq_true_eq] at hch
    exact hsound.goes
      (goes_fetchFlowStart (hch.elim (hline · (by decide)) (hline · (by decide))) hs)
  rcases ite_eq_iff.mp hs with ⟨hch, hs⟩ | ⟨-, hs⟩
  · simp only [Bool.or_eq_true, decide_eq_true_eq] at hch
    exact hsound.goes (goes_fetchFlowEnd (hch.elim (hline · (by decide)) (hline · (by decide))) hs)
  rcases ite_eq_iff.mp hs with ⟨hch, hs⟩ | ⟨-, hs⟩
  · exact hsound.goes (goes_fetchFlowEntry (hline hch (by decide)) hs)
  rcases ite_eq_iff.mp hs with ⟨hch, hs⟩ | ⟨-, hs⟩
  · simp only [Bool.and_eq_true, decide_eq_true_eq] at hch
    exact hsound.goes (goes_fetchBlockEntry (hline hch.1 (by decide)) hs)
  rcases ite_eq_iff.mp hs with ⟨hch, hs⟩ | ⟨-, hs⟩
  · simp only [Bool.and_eq_true, decide_eq_true_eq] at hch
    exact hsound.goes (goes_fetchKey (hline hch.1 (by decide)) hs)
  rcases ite_eq_iff.mp hs with ⟨hch, hs⟩ | ⟨-, hs⟩
  · simp only [Bool.and_eq_true, decide_eq_true_eq] at hch
    exact hsound.goes (goes_fetchValue (hline hch.1 (by decide)) hs)
  rcases ite_eq_iff.mp hs with ⟨hch, hs⟩ | ⟨-, hs⟩
  · simp only [Bool.or_eq_true, decide_eq_true_eq, or_assoc] at hch
    have hc : isLineEnd s₃.cursor.char = false := by
      rcases hch with hch | hch | hch <;> exact hline hch (by decide)
    exact hsound.goes (goes_fetchProperty hc hs)
  rcases ite_eq_iff.mp hs with ⟨hch, hs⟩ | ⟨-, hs⟩
  · simp only [Bool.and_eq_true, Bool.or_eq_true, decide_eq_true_eq] at hch
    exact hsound.fetchBlock hplace (hch.1.elim (hline · (by decide)) (hline · (by decide))) hs
  rcases ite_eq_iff.mp hs with ⟨hch, hs⟩ | ⟨hch, hs⟩
  · simp only [Bool.or_eq_true, decide_eq_true_eq] at hch
    exact hsound.fetchQuoted hplace hch hs
  · simp only [Bool.or_eq_true, decide_eq_true_eq, not_or] at hch
    rcases ite_eq_iff.mp hs with ⟨-, hs⟩ | ⟨-, hs⟩
    · exact hsound.fetchPlain hplace hch hs
    · cases hs

/-- So does reading on. -/
theorem settle {number fuel : Nat} (h : Sound text s)
    (hs : s.settle .places number fuel = .ok s') : Sound text s' := by
  induction fuel generalizing s with
  | zero =>
    cases hs
    exact h
  | succ fuel ih =>
    rw [Scan.settle] at hs
    split at hs
    · split at hs
      · cases hs
        exact h
      · obtain ⟨s₁, hnext, hs⟩ := bind_eq_ok hs
        exact ih (h.next hnext) hs
    · obtain ⟨s₁, hstale, hs⟩ := bind_eq_ok hs
      have hstale' := h.goes (Stays.staleKeys hstale).goes
      split at hs
      · obtain ⟨s₂, hnext, hs⟩ := bind_eq_ok hs
        exact ih (hstale'.next hnext) hs
      · cases hs
        exact hstale'

end Sound

end Scan

/-- **The tokens of a text are true to it.** -/
theorem scan_written {text : List Char} {k : Token.Known} (hk : k ∈ scan .places text) :
    k.token.TrueTo text := by
  have go : ∀ (fuel : Nat) (known : Array Token.Known) (s : Scan), s.Sound text →
      (∀ k ∈ known, k.token.TrueTo text) →
      ∀ k ∈ scan.go .places fuel known s, k.token.TrueTo text := by
    intro fuel
    induction fuel with
    | zero => exact fun known s _ hknown k hk => hknown k (by simpa [scan.go] using hk)
    | succ fuel ih =>
      intro known s hs hknown k hk
      rw [scan.go] at hk
      split at hk
      · exact hknown k (by simpa using hk)
      next s₁ hsettle =>
      have hs₁ := hs.settle hsettle
      split at hk
      · next t ht =>
        refine ih _ _ hs₁ (fun k' hk' => ?_) k hk
        rcases Array.mem_push.mp hk' with hmem | rfl
        · exact hknown k' hmem
        · exact hs₁.tokens _ (Array.mem_of_getElem? ht)
      · exact hknown k (by simpa using hk)
  exact go _ _ _ (.start text) (by simp) k hk

end Provision.Yaml
