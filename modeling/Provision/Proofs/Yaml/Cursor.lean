import Provision.Proofs.Decode.Invariant
import Provision.Text.Lines
import Provision.Yaml.Cursor

/-!
# Where a cursor stands

The reader of places moves over a text character by character: within a line over what is no line
break, and to the next line over a line break. So its mark tells the line and the column.

* `Cursor.Leads`: the places that a cursor can come to.
* `Cursor.Leads.between`: between two such places lies a part of the text, as long as their marks
  tell.
* `Cursor.Leads.line`: what lies ahead on the line that the mark names.
* `Cursor.Reads`: the text between two such places.
-/

set_option autoImplicit false

namespace Provision.Yaml

/-! ## Kinds of characters -/

/-- A line break in the reading for places. -/
abbrev isLineEnd (c : Char) : Bool := isBreak .places c

theorem isLineEnd_iff (c : Char) : isLineEnd c = true ↔ c = '\n' ∨ c = '\r' := by
  simp [isLineEnd, isBreak]

theorem isLineEnd_eq_false_iff (c : Char) : isLineEnd c = false ↔ c ≠ '\n' ∧ c ≠ '\r' := by
  simp [isLineEnd, isBreak]

theorem not_isLineEnd_of_isBlank {c : Char} (h : isBlank c = true) : isLineEnd c = false := by
  rw [isLineEnd_eq_false_iff]
  simp only [isBlank, Bool.or_eq_true, decide_eq_true_eq] at h
  rcases h with rfl | rfl <;> decide

theorem not_isEnd_of_isBlank {c : Char} (h : isBlank c = true) : isEnd c = false := by
  simp only [isBlank, Bool.or_eq_true, decide_eq_true_eq] at h
  rcases h with rfl | rfl <;> decide

theorem not_isLineEnd_of_isWord {c : Char} (h : isWord c = true) : isLineEnd c = false := by
  rw [isLineEnd_eq_false_iff]
  constructor <;> rintro rfl <;> exact absurd h (by decide)

theorem not_isLineEnd_of_not_isSpaceOrEnd {c : Char} (h : isSpaceOrEnd .places c = false) :
    isLineEnd c = false ∧ isEnd c = false := by
  simp only [isSpaceOrEnd, isBreakOrEnd, Bool.or_eq_false_iff] at h
  exact h.2

theorem eq_nul_of_isEnd {c : Char} (h : isEnd c = true) : c = Char.ofNat 0 := by
  rw [isEnd, decide_eq_true_eq] at h
  rw [← h, Char.ofNat_toNat]

/-- A text without a line end in it. -/
def OneLine (l : List Char) : Prop := ∀ ch ∈ l, isLineEnd ch = false

instance (l : List Char) : Decidable (OneLine l) :=
  List.decidableBAll (fun ch => isLineEnd ch = false) l

@[simp] theorem oneLine_nil : OneLine [] := by simp [OneLine]

@[simp] theorem oneLine_cons {ch : Char} {l : List Char} :
    OneLine (ch :: l) ↔ isLineEnd ch = false ∧ OneLine l := by
  simp [OneLine]

@[simp] theorem oneLine_append {l l' : List Char} :
    OneLine (l ++ l') ↔ OneLine l ∧ OneLine l' := by
  simp [OneLine, or_imp, forall_and]

theorem OneLine.not_mem {l : List Char} (h : OneLine l) : '\n' ∉ l ∧ '\r' ∉ l :=
  ⟨fun hmem => absurd (h _ hmem) (by decide), fun hmem => absurd (h _ hmem) (by decide)⟩

/-- The first `n` characters of a text have no carriage return in them that no line feed follows.
Only then do the two ways to count lines agree so far. -/
def PairedReturns (n : Nat) (text : List Char) : Prop :=
  ∀ i < n, text[i]? = some '\r' → text[i + 1]? = some '\n'

theorem PairedReturns.mono {m n : Nat} {text : List Char} (h : PairedReturns n text) (hm : m ≤ n) :
    PairedReturns m text :=
  fun i hi => h i (by omega)

/-- A paired return is followed by the line feed. -/
theorem PairedReturns.head? {n : Nat} {text : List Char} (h : PairedReturns n text)
    (before after : List Char) (htext : text = before ++ '\r' :: after) (hn : before.length < n) :
    after.head? = some '\n' := by
  have hreturn := h before.length hn
  simpa [htext, List.getElem?_append_right, List.head?_eq_getElem?] using hreturn

/-- A line ends where its end stands. -/
theorem firstLine_append_lineEnd {l after : List Char} {ch : Char} (h : OneLine l)
    (hch : isLineEnd ch = true) (hreturn : ch = '\r' → after.head? = some '\n') :
    Text.firstLine (l ++ ch :: after) = l := by
  obtain ⟨hfeed, hr⟩ := h.not_mem
  rcases (isLineEnd_iff ch).mp hch with rfl | rfl
  · rw [Text.firstLine, Text.lines_append_feed hfeed, Text.withoutReturn_of_not_mem hr,
      List.headD_cons]
  · obtain ⟨rest, rfl⟩ := List.head?_eq_some_iff.mp (hreturn rfl)
    have hsplit : l ++ '\r' :: '\n' :: rest = (l ++ ['\r']) ++ '\n' :: rest := by simp
    rw [Text.firstLine, hsplit, Text.lines_append_feed (by simp [hfeed]),
      Text.withoutReturn_append_return, List.headD_cons]

namespace Cursor

/-! ## Moving -/

@[simp] theorem peek_zero (c : Cursor) : c.peek 0 = c.char := rfl

theorem char_of_rest {c : Cursor} {ch : Char} {rest : List Char} (h : c.rest = ch :: rest) :
    c.char = ch := by
  simp [char, peek, h]

theorem char_of_rest_nil {c : Cursor} (h : c.rest = []) : c.char = Char.ofNat 0 := by
  simp [char, peek, h]

/-- What lies ahead begins with the character at hand, unless the text is read. -/
theorem rest_eq_cons {c : Cursor} (h : isEnd c.char = false) : c.rest = c.char :: c.rest.tail := by
  cases hrest : c.rest with
  | nil =>
    rw [char_of_rest_nil hrest] at h
    exact absurd h (by decide)
  | cons ch rest => rw [char_of_rest hrest, List.tail_cons]

theorem rest_skip (c : Cursor) : c.skip.rest = c.rest.tail := by
  rw [skip]
  cases hrest : c.rest with
  | nil => simp [hrest]
  | cons ch rest => rfl

theorem peek_skip (c : Cursor) (n : Nat) : c.skip.peek n = c.peek (n + 1) := by
  simp [peek, rest_skip]

theorem skip_of_rest_nil {c : Cursor} (h : c.rest = []) : c.skip = c := by
  rw [skip, h]

theorem mark_skip {c : Cursor} (h : c.rest ≠ []) :
    c.skip.mark = ⟨c.mark.index + 1, c.mark.line, c.mark.column + 1⟩ := by
  rw [skip]
  cases hrest : c.rest with
  | nil => exact absurd hrest h
  | cons ch rest => rfl

theorem isEnd_of_isLineEnd {c : Char} (h : isLineEnd c = true) : isEnd c = false := by
  rcases (isLineEnd_iff c).mp h with rfl | rfl <;> decide

/-- A line break is a carriage return with its line feed, or one of the two alone. -/
theorem skipBreak_cases {c : Cursor} (h : isLineEnd c.char = true) :
    (∃ rest, c.rest = '\r' :: '\n' :: rest ∧
      c.skipBreak = ⟨rest, ⟨c.mark.index + 2, c.mark.line + 1, 0⟩, true⟩) ∨
    (∃ rest, c.rest = c.char :: rest ∧ (c.char = '\r' → rest.head? ≠ some '\n') ∧
      c.skipBreak = ⟨rest, ⟨c.mark.index + 1, c.mark.line + 1, 0⟩, true⟩) := by
  have hrest := rest_eq_cons (isEnd_of_isLineEnd h)
  rw [skipBreak]
  split
  · next heq => simp [heq] at hrest
  · next rest heq => exact .inl ⟨rest, heq, rfl⟩
  · next ch rest hne heq =>
    rw [char_of_rest heq]
    refine .inr ⟨rest, heq, ?_, rfl⟩
    rintro rfl hhead
    obtain ⟨after, rfl⟩ := List.head?_eq_some_iff.mp hhead
    exact hne after rfl rfl

theorem rest_skipWhile (p : Char → Bool) (c : Cursor) :
    (c.skipWhile p).rest = c.rest.dropWhile p := by
  have go : ∀ l : List Char, ∀ c : Cursor, c.rest = l →
      (skipWhile.go p l c).rest = l.dropWhile p := by
    intro l
    induction l with
    | nil => exact fun c hc => hc
    | cons ch rest ih =>
      intro c hc
      rw [skipWhile.go, List.dropWhile_cons]
      split
      · exact ih _ (by rw [rest_skip, hc, List.tail_cons])
      · exact hc
  exact go c.rest c rfl

/-- What ends a run of characters is of another kind, or the end of the text. -/
theorem char_skipWhile {p : Char → Bool} (hp : p (Char.ofNat 0) = false) (c : Cursor) :
    p (c.skipWhile p).char = false := by
  cases hrest : (c.skipWhile p).rest with
  | nil => rw [char_of_rest_nil hrest, hp]
  | cons ch rest =>
    rw [rest_skipWhile] at hrest
    rw [char_of_rest (rest_skipWhile p c ▸ hrest)]
    have hhead := List.head?_dropWhile_not p c.rest
    simpa [hrest] using hhead

/-! ## Places that a cursor comes to -/

/-- The places that a cursor can come to. -/
inductive Leads : Cursor → Cursor → Prop
  | refl (c : Cursor) : Leads c c
  | skip {c d : Cursor} : Leads c d → isLineEnd d.char = false → Leads c d.skip
  | skipBreak {c d : Cursor} : Leads c d → isLineEnd d.char = true → Leads c d.skipBreak

namespace Leads

variable {c d e : Cursor}

theorem trans (h : Leads c d) (h' : Leads d e) : Leads c e := by
  induction h' with
  | refl => exact h
  | skip _ hch ih => exact ih.skip hch
  | skipBreak _ hch ih => exact ih.skipBreak hch

theorem one (h : isLineEnd c.char = false) : Leads c c.skip := (refl c).skip h

theorem skipN {n : Nat} (h : ∀ i < n, isLineEnd (c.peek i) = false) : Leads c (c.skipN n) := by
  induction n generalizing c with
  | zero => exact refl c
  | succ n ih =>
    have hrest : ∀ i < n, isLineEnd (c.skip.peek i) = false := fun i hi => by
      rw [peek_skip]
      exact h (i + 1) (by omega)
    exact (one (h 0 (by omega))).trans (ih hrest)

theorem skipWhile {p : Char → Bool} (hp : ∀ ch, p ch = true → isLineEnd ch = false) (c : Cursor) :
    Leads c (c.skipWhile p) := by
  have go : ∀ l : List Char, ∀ c : Cursor, c.rest = l → Leads c (skipWhile.go p l c) := by
    intro l
    induction l with
    | nil => exact fun c _ => refl c
    | cons ch rest ih =>
      intro c hc
      rw [skipWhile.go]
      split
      · next hch =>
        have hline := hp ch hch
        rw [← char_of_rest hc] at hline
        exact (one hline).trans (ih _ (by rw [rest_skip, hc, List.tail_cons]))
      · exact refl c
  exact go c.rest c rfl

theorem skipComment (c : Cursor) : Leads c (c.skipComment .places) :=
  skipWhile (fun ch h => by simp [isBreakOrEnd] at h; exact h.1) c

/-- A cursor only goes on. -/
theorem between (h : Leads c d) :
    ∃ text, c.rest = text ++ d.rest ∧ d.mark.index = c.mark.index + text.length := by
  induction h with
  | refl => exact ⟨[], rfl, rfl⟩
  | @skip d hd hch ih =>
    obtain ⟨text, htext, hindex⟩ := ih
    cases hrest : d.rest with
    | nil =>
      exact ⟨text, by rw [skip_of_rest_nil hrest, htext], by rw [skip_of_rest_nil hrest, hindex]⟩
    | cons ch rest =>
      refine ⟨text ++ [ch], by simp [htext, rest_skip, hrest], ?_⟩
      rw [mark_skip (by simp [hrest])]
      simp [hindex]
      omega
  | @skipBreak d hd hch ih =>
    obtain ⟨text, htext, hindex⟩ := ih
    rcases skipBreak_cases hch with ⟨rest, hrest, hd⟩ | ⟨rest, hrest, -, hd⟩
    · exact ⟨text ++ ['\r', '\n'], by simp [hd, htext, hrest], by simp [hd, hindex, Nat.add_assoc]⟩
    · exact ⟨text ++ [d.char], by simp [hd, htext, ← hrest], by simp [hd, hindex, Nat.add_assoc]⟩

/-- What lies ahead of a place on its line. What follows the text read is not read, but the line
may go on there. -/
theorem line {text tail : List Char} (h : Leads (start text) c) (htail : tail.head? ≠ some '\n')
    (hreturn : PairedReturns c.mark.index (text ++ tail)) :
    ((Text.lines (text ++ tail))[c.mark.line]?.getD []).drop c.mark.column =
      Text.firstLine (c.rest ++ tail) := by
  -- the lines that lie behind, and what lies behind on the line at hand
  have behind : ∃ passed cur done, text = passed ++ (cur ++ c.rest) ∧ OneLine cur ∧
      c.mark = ⟨passed.length + cur.length, done.length, cur.length⟩ ∧
      ∀ s, Text.lines (passed ++ s) = done ++ Text.lines s := by
    induction h with
    | refl => exact ⟨[], [], [], rfl, by simp, rfl, fun _ => rfl⟩
    | @skip d hd hch ih =>
      cases hrest : d.rest with
      | nil => 
        rw [skip_of_rest_nil hrest] at hreturn ⊢
        simpa [hrest] using ih hreturn
      | cons ch rest =>
        have hmark := mark_skip (c := d) (by simp [hrest])
        obtain ⟨passed, cur, done, htext, hcur, hd, hlines⟩ := ih (hreturn.mono (by simp [hmark]))
        rw [char_of_rest hrest] at hch
        refine ⟨passed, cur ++ [ch], done, ?_, by simp [hcur, hch], ?_, hlines⟩
        · simp [htext, hrest, rest_skip]
        · simp [hmark, hd, Nat.add_assoc]
    | @skipBreak d hd hch ih =>
      have hpassed := ((Leads.refl d).skipBreak hch).between
      obtain ⟨text', htext', hindex⟩ := hpassed
      obtain ⟨passed, cur, done, htext, hcur, hd, hlines⟩ := ih (hreturn.mono (by omega))
      obtain ⟨hfeed, hr⟩ := hcur.not_mem
      rcases skipBreak_cases hch with ⟨rest, hrest, hbreak⟩ | ⟨rest, hrest, hpair, hbreak⟩
      · refine ⟨passed ++ cur ++ ['\r', '\n'], [], done ++ [cur], ?_, by simp, ?_, fun s => ?_⟩
        · simp [hbreak, htext, hrest]
        · simp [hbreak, hd, Nat.add_assoc]
        · have hcut := Text.lines_append_feed (l := cur ++ ['\r']) (by simp [hfeed]) s
          simpa [hlines, Text.withoutReturn_append_return] using hcut
      · have hchar : d.char = '\n' := by
          refine ((isLineEnd_iff _).mp hch).resolve_right fun hr => ?_
          -- a return by itself is not paired
          have hnext := hreturn.head? (passed ++ cur) (rest ++ tail)
            (by rw [htext, hrest, hr]; simp) (by simp [hbreak, hd])
          cases rest with
          | nil => exact htail hnext
          | cons _ _ => exact hpair hr hnext
        refine ⟨passed ++ cur ++ ['\n'], [], done ++ [cur], ?_, by simp, ?_, fun s => ?_⟩
        · simp [hbreak, htext, hrest, hchar]
        · simp [hbreak, hd, Nat.add_assoc]
        · have hcut := Text.lines_append_feed hfeed s
          simpa [hlines, Text.withoutReturn_of_not_mem hr] using hcut
  obtain ⟨passed, cur, done, htext, hcur, hmark, hlines⟩ := behind
  obtain ⟨hfeed, hr⟩ := hcur.not_mem
  have hall : text ++ tail = passed ++ (cur ++ (c.rest ++ tail)) := by simp [htext]
  rw [hmark, hall, hlines, List.getElem?_append_right (Nat.le_refl _), Nat.sub_self,
    ← List.head?_eq_getElem?, ← List.headD_eq_head?_getD]
  have hfirst := Text.firstLine_append hfeed hr (c.rest ++ tail)
  rw [Text.firstLine] at hfirst
  rw [hfirst, List.drop_left]

end Leads

/-- The way from one place to another, and the text on it. -/
structure Reads (c : Cursor) (passed : List Char) (d : Cursor) : Prop where
  leads : Leads c d
  rest : c.rest = passed ++ d.rest

theorem Leads.reads {c d : Cursor} (h : Leads c d) : ∃ passed, Reads c passed d :=
  let ⟨passed, hpassed, _⟩ := h.between
  ⟨passed, h, hpassed⟩

namespace Reads

variable {c d e : Cursor} {passed passed' : List Char}

theorem refl (c : Cursor) : Reads c [] c := ⟨.refl c, rfl⟩

theorem trans (h : Reads c passed d) (h' : Reads d passed' e) : Reads c (passed ++ passed') e :=
  ⟨h.leads.trans h'.leads, by simp [h.rest, h'.rest]⟩

theorem index (h : Reads c passed d) : d.mark.index = c.mark.index + passed.length := by
  obtain ⟨text, htext, hindex⟩ := h.leads.between
  have hsame : text = passed := List.append_cancel_right (htext.symm.trans h.rest)
  rw [hindex, hsame]

/-- Over the character at hand. -/
theorem one (hline : isLineEnd c.char = false) (hend : isEnd c.char = false) :
    Reads c [c.char] c.skip :=
  ⟨.one hline, by rw [rest_skip]; exact rest_eq_cons hend⟩

/-- Over the line break at hand. -/
theorem lineBreak (h : isLineEnd c.char = true) :
    ∃ later, Reads c (c.char :: later) c.skipBreak := by
  obtain ⟨passed, hpassed⟩ := ((Leads.refl c).skipBreak h).reads
  rcases skipBreak_cases h with ⟨rest, hrest, hd⟩ | ⟨rest, hrest, -, hd⟩
  · exact ⟨['\n'], hpassed.leads, by simp [hd, hrest, char_of_rest hrest]⟩
  · exact ⟨[], hpassed.leads, by simp [hd, ← hrest]⟩

/-- Over the characters of a kind. -/
theorem skipWhile {p : Char → Bool} (hp : ∀ ch, p ch = true → isLineEnd ch = false) (c : Cursor) :
    Reads c (c.rest.takeWhile p) (c.skipWhile p) :=
  ⟨.skipWhile hp c, by rw [rest_skipWhile, List.takeWhile_append_dropWhile]⟩

/-- Over several characters of the line. -/
theorem several {n : Nat} (h : ∀ i < n, isLineEnd (c.peek i) = false ∧ isEnd (c.peek i) = false) :
    Reads c ((List.range n).map c.peek) (c.skipN n) := by
  induction n generalizing c with
  | zero => exact refl c
  | succ n ih =>
    have hfirst := one (h 0 (by omega)).1 (h 0 (by omega)).2
    have hothers := ih (c := c.skip) fun i hi => by
      rw [peek_skip]
      exact h (i + 1) (by omega)
    have hpeeks : (List.range n).map c.skip.peek = (List.range n).map (c.peek ∘ Nat.succ) :=
      List.map_congr_left fun i _ => peek_skip c i
    rw [hpeeks] at hothers
    simpa [List.range_succ_eq_map, Cursor.skipN] using hfirst.trans hothers

end Reads

/-- Over what stands between a token and the end of its line. -/
theorem leads_skipToLineEnd {tabs tab space : Bool} {c c' : Cursor}
    (h : c.skipToLineEnd tabs = .ok (tab, space, c')) : Leads c c' := by
  have go : ∀ fuel, ∀ t s : Bool, ∀ c : Cursor,
      skipToLineEnd.go tabs fuel t s c = .ok (tab, space, c') → Leads c c' := by
    intro fuel
    induction fuel with
    | zero =>
      intro t s c h
      cases h
      exact .refl _
    | succ fuel ih =>
      intro t s c h
      rw [skipToLineEnd.go] at h
      split at h
      · next hch => exact (Leads.one (by rw [hch]; decide)).trans (ih _ _ _ h)
      split at h
      · next hch =>
        simp only [Bool.and_eq_true, decide_eq_true_eq] at hch
        exact (Leads.one (by rw [hch.1]; decide)).trans (ih _ _ _ h)
      split at h
      · split at h
        · exact (Leads.skipComment c).trans (ih _ _ _ h)
        · cases h
      · cases h
        exact .refl _
  exact go _ _ _ _ h

end Cursor

end Provision.Yaml
