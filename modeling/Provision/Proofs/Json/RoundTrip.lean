import Provision.Proofs.Json.Tokens

/-!
# What is printed is read back

A printed document is read as the value it was printed from, on one line or indented.

* `Readable`: values that are read back, and how many levels of containers they have.
* `ReadsAs`: bytes that are read as a value, whatever stands after them.
* `readsAs_arr`, `readsAs_obj`: containers are read back if their parts are, with any blanks between.
* `parse_compact`, `parse_pretty`: what is printed is read back.
-/

set_option autoImplicit false

namespace Provision.Json

open Text (Bytes)

/-- Values that are read back, with at most a number of levels of containers: no object has a key
twice, and numbers are whole and fit into a word. -/
inductive Readable : Nat → Json → Prop where
  | null {d : Nat} : Readable d .null
  | bool {d : Nat} (b : Bool) : Readable d (.bool b)
  | int {d : Nat} {n : Int} (h : Word.holds n = true) : Readable d (.int n)
  | str {d : Nat} (s : String) : Readable d (.str s)
  | arr {d : Nat} {items : List Json} (h : ∀ x ∈ items, Readable d x) : Readable (d + 1) (.arr items)
  | obj {d : Nat} {members : List (String × Json)} (hn : (members.map Prod.fst).Nodup)
      (h : ∀ e ∈ members, Readable d e.2) : Readable (d + 1) (.obj members)

theorem Readable.mono {d e : Nat} {x : Json} (h : Readable d x) (hle : d ≤ e) : Readable e x := by
  induction h generalizing e with
  | null => exact .null
  | bool b => exact .bool b
  | int h => exact .int h
  | str s => exact .str s
  | arr _ ih =>
    obtain ⟨e, rfl⟩ : ∃ n, e = n + 1 := ⟨e - 1, by omega⟩
    exact .arr fun x hx => ih x hx (Nat.le_of_succ_le_succ hle)
  | obj hn _ ih =>
    obtain ⟨e, rfl⟩ : ∃ n, e = n + 1 := ⟨e - 1, by omega⟩
    exact .obj hn fun x hx => ih x hx (Nat.le_of_succ_le_succ hle)

/-! ## Blanks -/

/-- Whether a byte means nothing between values. -/
def isBlank (b : UInt8) : Bool := b == 0x20 || b == 0x0a || b == 0x09 || b == 0x0d

theorem skipBlanks_eq (bs : Bytes) : skipBlanks bs = bs.dropWhile isBlank := rfl

theorem skipBlanks_append {blanks : Bytes} (h : ∀ b ∈ blanks, isBlank b = true) (bs : Bytes) :
    skipBlanks (blanks ++ bs) = skipBlanks bs := by
  induction blanks with
  | nil => rfl
  | cons b blanks ih =>
    obtain ⟨hb, hblanks⟩ := List.forall_mem_cons.mp h
    rw [List.cons_append, skipBlanks_eq, List.dropWhile_cons_of_pos hb]
    exact ih hblanks

theorem skipBlanks_cons {b : UInt8} (h : isBlank b = false) (bs : Bytes) :
    skipBlanks (b :: bs) = b :: bs := by
  rw [skipBlanks_eq, List.dropWhile_cons_of_neg (Bool.not_eq_true _ ▸ h)]

theorem skipBlanks_append_cons {blanks : Bytes} (h : ∀ b ∈ blanks, isBlank b = true) {b : UInt8}
    (hb : isBlank b = false) (bs : Bytes) : skipBlanks (blanks ++ b :: bs) = b :: bs :=
  (skipBlanks_append h _).trans (skipBlanks_cons hb bs)

/-- A number ends at blanks. -/
theorem stops_append {blanks : Bytes} (h : ∀ b ∈ blanks, isBlank b = true) {bs : Bytes}
    (hbs : Stops bs) : Stops (blanks ++ bs) := by
  cases blanks with
  | nil => exact hbs
  | cons b blanks =>
    have hb := h b List.mem_cons_self
    simp only [isBlank, Bool.or_eq_true, beq_iff_eq] at hb
    refine stops_cons ?_ _
    rcases hb with ((rfl | rfl) | rfl) | rfl <;> decide

/-! ## Values -/

/-- Bytes that are read as a value, whatever stands after them, if it ends a number. They begin
neither with a blank nor with the end of a list. -/
structure ReadsAs (depth : Nat) (bs : Bytes) (x : Json) : Prop where
  starts : ∃ b rest, bs = b :: rest ∧ isBlank b = false ∧ b ≠ 0x5d
  reads : ∀ fuel rest, bs.length ≤ fuel → Stops rest →
    readValue fuel depth (bs ++ rest) = .ok (x, rest)

/-- Blanks before a value are passed over. -/
theorem readValue_append {blanks : Bytes} (h : ∀ b ∈ blanks, isBlank b = true) (fuel depth : Nat)
    (bs : Bytes) : readValue (fuel + 1) depth (blanks ++ bs) = readValue (fuel + 1) depth bs := by
  rw [readValue, readValue, skipBlanks_append h]

/-- Bytes are read as a value if they are with a step at hand. -/
theorem readsAs_of_succ {depth : Nat} {b : UInt8} {bs : Bytes} {x : Json}
    (hb : isBlank b = false) (hne : b ≠ 0x5d)
    (h : ∀ fuel rest, bs.length ≤ fuel → Stops rest →
      readValue (fuel + 1) depth (b :: (bs ++ rest)) = .ok (x, rest)) :
    ReadsAs depth (b :: bs) x where
  starts := ⟨b, bs, rfl, hb, hne⟩
  reads fuel rest hfuel hrest := by
    rw [List.length_cons] at hfuel
    obtain ⟨fuel, rfl⟩ : ∃ n, fuel = n + 1 := ⟨fuel - 1, by omega⟩
    exact h fuel rest (Nat.le_of_succ_le_succ hfuel) hrest

theorem readWord_append (x : Json) (word rest : Bytes) :
    readWord x word (word ++ rest) = .ok (x, rest) := by
  induction word with
  | nil => cases rest <;> rfl
  | cons c word ih =>
    rw [List.cons_append, readWord, if_pos rfl]
    exact ih

theorem readsAs_null (depth : Nat) : ReadsAs depth (utf8 "null") .null := by
  have htext : utf8 "null" = [0x6e, 0x75, 0x6c, 0x6c] := by decide
  rw [htext]
  refine readsAs_of_succ rfl (by decide) fun fuel rest _ _ => ?_
  rw [readValue, skipBlanks_cons rfl]
  exact readWord_append _ _ rest

theorem readsAs_bool (depth : Nat) (b : Bool) :
    ReadsAs depth (utf8 (if b then "true" else "false")) (.bool b) := by
  cases b with
  | true =>
    have htext : utf8 "true" = [0x74, 0x72, 0x75, 0x65] := by decide
    rw [if_pos rfl, htext]
    refine readsAs_of_succ rfl (by decide) fun fuel rest _ _ => ?_
    rw [readValue, skipBlanks_cons rfl]
    exact readWord_append _ _ rest
  | false =>
    have htext : utf8 "false" = [0x66, 0x61, 0x6c, 0x73, 0x65] := by decide
    rw [if_neg Bool.false_ne_true, htext]
    refine readsAs_of_succ rfl (by decide) fun fuel rest _ _ => ?_
    rw [readValue, skipBlanks_cons rfl]
    exact readWord_append _ _ rest

theorem readsAs_str (depth : Nat) (s : String) : ReadsAs depth (utf8 (quote s)) (.str s) := by
  rw [utf8_quote]
  refine readsAs_of_succ rfl (by decide) fun fuel rest _ _ => ?_
  rw [List.append_assoc, readValue, skipBlanks_cons rfl]
  change (readText (escaped s ++ 0x22 :: rest) >>= _) = _
  rw [readText_escaped]
  rfl

/-- The first byte of a number that is not negative is a digit. -/
theorem utf8_repr_cons (n : Nat) : ∃ b rest, utf8 n.repr = b :: rest ∧ isDigit b = true := by
  obtain ⟨c, cs, hcs⟩ : ∃ c cs, Nat.toDigits 10 n = c :: cs := by
    rcases toDigits_cases n with ⟨-, h⟩ | ⟨c, cs, h, -⟩
    · exact ⟨_, _, h⟩
    · exact ⟨c, cs, h⟩
  have hc : c.isDigit = true :=
    Nat.isDigit_of_mem_toDigits (by decide) (by decide) (hcs ▸ List.mem_cons_self)
  exact ⟨digitByte c, cs.map digitByte, by rw [utf8_repr, hcs]; rfl, (digit_spec hc).1⟩

theorem ne_of_isDigit {b c : UInt8} (hb : isDigit b = true) (hc : isDigit c = false) : b ≠ c := by
  rintro rfl
  rw [hb] at hc
  cases hc

theorem isBlank_of_isDigit {b : UInt8} (h : isDigit b = true) : isBlank b = false := by
  simp only [isBlank, Bool.or_eq_false_iff, beq_eq_false_iff_ne]
  exact ⟨⟨⟨ne_of_isDigit h rfl, ne_of_isDigit h rfl⟩, ne_of_isDigit h rfl⟩, ne_of_isDigit h rfl⟩

theorem readsAs_int (depth : Nat) {n : Int} (hn : Word.holds n = true) :
    ReadsAs depth (utf8 (toString n)) (.int n) := by
  have hrange : -(Word.half : Int) ≤ n ∧ n < Word.count := by
    simpa [Word.holds] using hn
  cases n with
  | ofNat n =>
    obtain ⟨b, digits, hb, hdigit⟩ := utf8_repr_cons n
    have hlt : n < Word.count := Int.ofNat_lt.mp hrange.2
    change ReadsAs depth (utf8 n.repr) _
    rw [hb]
    refine readsAs_of_succ (isBlank_of_isDigit hdigit) (ne_of_isDigit hdigit rfl)
      fun fuel rest _ hrest => ?_
    have hread := readNumber_repr hlt hrest false
    rw [hb, List.cons_append] at hread
    rw [readValue, skipBlanks_cons (isBlank_of_isDigit hdigit)]
    dsimp only
    rw [if_neg (ne_of_isDigit hdigit rfl), if_neg (ne_of_isDigit hdigit rfl),
      if_neg (ne_of_isDigit hdigit rfl), if_neg (ne_of_isDigit hdigit rfl), if_pos hdigit, hread]
    rfl
  | negSucc n =>
    have hle : n + 1 ≤ Word.half := by
      have hlow := hrange.1
      omega
    have hlt : n + 1 < Word.count := Nat.lt_of_le_of_lt hle (by decide)
    have htext : utf8 (toString (Int.negSucc n)) = 0x2d :: utf8 (n + 1).repr := by
      change utf8 ("-" ++ (n + 1).repr) = _
      rw [utf8_append]
      rfl
    have hvalue : wholeNumber true (n + 1) = .int (Int.negSucc n) := by
      rw [wholeNumber, if_neg (by decide), if_pos ⟨Nat.succ_ne_zero n, hle⟩]
      rfl
    rw [htext]
    refine readsAs_of_succ rfl (by decide) fun fuel rest _ hrest => ?_
    rw [readValue, skipBlanks_cons rfl, ← hvalue, ← readNumber_repr hlt hrest true]
    rfl

/-! ## Containers -/

/-- The parts of a container after the first one, and its end: a comma and a gap before each part,
and blanks before the end. -/
def tailText (gap close : Bytes) (closing : UInt8) : List Bytes → Bytes
  | [] => close ++ [closing]
  | t :: ts => 0x2c :: (gap ++ (t ++ tailText gap close closing ts))

/-- The parts of a container between its brackets. -/
def listText (gap close : Bytes) (opening closing : UInt8) : List Bytes → Bytes
  | [] => [opening, closing]
  | t :: ts => opening :: (gap ++ (t ++ tailText gap close closing ts))

/-- A member: its key between quotes, a colon, blanks and its value. -/
def memberText (sep : Bytes) (text : Json → Bytes) (e : String × Json) : Bytes :=
  0x22 :: (escaped e.1 ++ (0x22 :: 0x3a :: (sep ++ text e.2)))

theorem insert_append {key : String} {members : List (String × Json)}
    (h : key ∉ members.map Prod.fst) (value : Json) (rest : List (String × Json)) :
    insert key value (members ++ rest) = members ++ insert key value rest := by
  induction members with
  | nil => rfl
  | cons m members ih =>
    have hm : m.1 ≠ key := fun hm => h (hm ▸ List.mem_cons_self)
    have hrest : key ∉ members.map Prod.fst := fun hrest => h (List.mem_cons_of_mem _ hrest)
    rw [List.cons_append, insert, if_neg hm, ih hrest]
    rfl

theorem insert_of_not_mem {key : String} {members : List (String × Json)}
    (h : key ∉ members.map Prod.fst) (value : Json) :
    insert key value members = members ++ [(key, value)] :=
  (congrArg (insert key value) (List.append_nil members).symm).trans (insert_append h value [])

section Containers

variable {gap close sep : Bytes} {text : Json → Bytes} {depth : Nat}

/-- What follows a part of a container ends a number. -/
theorem stops_tailText (gap : Bytes) (hclose : ∀ b ∈ close, isBlank b = true) {closing : UInt8}
    (hc : closing = 0x5d ∨ closing = 0x7d) (ts : List Bytes) (rest : Bytes) :
    Stops (tailText gap close closing ts ++ rest) := by
  cases ts with
  | nil =>
    have hend : Stops (closing :: rest) := by
      refine stops_cons ?_ rest
      rcases hc with rfl | rfl <;> decide
    rw [tailText, List.append_assoc]
    exact stops_append hclose hend
  | cons t ts => exact stops_cons (by decide) _

theorem length_tailText_pos (gap close : Bytes) (closing : UInt8) (ts : List Bytes) :
    0 < (tailText gap close closing ts).length := by
  cases ts with
  | nil =>
    rw [tailText, List.length_append]
    exact Nat.succ_pos _
  | cons t ts => exact Nat.succ_pos _

/-! ### Lists -/

/-- The items after the first one are read. -/
theorem readItems_tailText (hgap : ∀ b ∈ gap, isBlank b = true)
    (hclose : ∀ b ∈ close, isBlank b = true) {items : List Json}
    (h : ∀ x ∈ items, ReadsAs depth (text x) x) :
    ∀ fuel rest, (tailText gap close 0x5d (items.map text)).length ≤ fuel →
      readItems fuel depth false (tailText gap close 0x5d (items.map text) ++ rest) =
        .ok (items, rest) := by
  induction items with
  | nil =>
    intro fuel rest hfuel
    rw [List.map_nil, tailText, List.length_append, List.length_singleton] at hfuel
    obtain ⟨fuel, rfl⟩ : ∃ n, fuel = n + 1 := ⟨fuel - 1, by omega⟩
    rw [List.map_nil, tailText, List.append_assoc, List.singleton_append, readItems,
      skipBlanks_append_cons hclose rfl rest]
    rfl
  | cons x items ih =>
    obtain ⟨hx, hitems⟩ := List.forall_mem_cons.mp h
    obtain ⟨c, t, ht, hc, hne⟩ := hx.starts
    intro fuel rest hfuel
    rw [List.map_cons, tailText, List.length_cons, List.length_append, List.length_append] at hfuel
    obtain ⟨fuel, rfl⟩ : ∃ n, fuel = n + 1 := ⟨fuel - 1, by omega⟩
    have hvalue := hx.reads fuel _ (by omega) (stops_tailText gap hclose (.inl rfl) (items.map text) rest)
    have hrest := ih hitems fuel rest (by omega)
    rw [List.map_cons, tailText, List.cons_append, List.append_assoc, List.append_assoc, readItems,
      skipBlanks_cons rfl]
    rw [ht, List.cons_append] at hvalue ⊢
    dsimp only
    rw [if_neg (by decide), if_neg Bool.false_ne_true, if_pos rfl, skipBlanks_append_cons hgap hc]
    dsimp only
    rw [if_neg hne, hvalue]
    change (readItems fuel depth false _ >>= _) = _
    rw [hrest]
    rfl

/-- **A list is read back if its items are.** -/
theorem readsAs_arr (hgap : ∀ b ∈ gap, isBlank b = true) (hclose : ∀ b ∈ close, isBlank b = true)
    {items : List Json} (h : ∀ x ∈ items, ReadsAs (depth + 1) (text x) x) :
    ReadsAs (depth + 2) (listText gap close 0x5b 0x5d (items.map text)) (.arr items) := by
  cases items with
  | nil =>
    refine readsAs_of_succ rfl (by decide) fun fuel rest hfuel _ => ?_
    obtain ⟨fuel, rfl⟩ : ∃ n, fuel = n + 1 := ⟨fuel - 1, by rw [List.length_singleton] at hfuel; omega⟩
    rw [readValue, skipBlanks_cons rfl]
    change (readItems (fuel + 1) (depth + 1) true (0x5d :: rest) >>= _) = _
    rw [readItems, skipBlanks_cons rfl]
    rfl
  | cons x items =>
    obtain ⟨hx, hitems⟩ := List.forall_mem_cons.mp h
    obtain ⟨c, t, ht, hc, hne⟩ := hx.starts
    refine readsAs_of_succ rfl (by decide) fun fuel rest hfuel _ => ?_
    rw [List.length_append, List.length_append] at hfuel
    have hsize : 0 < (text x).length := by
      rw [ht]
      exact Nat.succ_pos _
    have hend := length_tailText_pos gap close 0x5d (items.map text)
    obtain ⟨fuel, rfl⟩ : ∃ n, fuel = n + 1 := ⟨fuel - 1, by omega⟩
    have hvalue := hx.reads fuel _ (by omega) (stops_tailText gap hclose (.inl rfl) (items.map text) rest)
    have hrest := readItems_tailText hgap hclose hitems fuel rest (by omega)
    rw [List.append_assoc, List.append_assoc, readValue, skipBlanks_cons rfl]
    change (readItems (fuel + 1) (depth + 1) true _ >>= _) = _
    rw [ht, List.cons_append] at hvalue ⊢
    rw [readItems, skipBlanks_append_cons hgap hc]
    dsimp only
    rw [if_neg hne, if_pos rfl, hvalue]
    change ((readItems fuel (depth + 1) false _ >>= _) >>= _) = _
    rw [hrest]
    rfl

/-! ### Objects -/

/-- A member and the members after it are read if the members after it are. -/
theorem readMember_memberText (hsep : ∀ b ∈ sep, isBlank b = true) {e : String × Json}
    (he : ReadsAs depth (text e.2) e.2) {soFar : List (String × Json)}
    (hfresh : e.1 ∉ soFar.map Prod.fst) {fuel : Nat} (hfuel : (text e.2).length ≤ fuel)
    {rest : Bytes} (hrest : Stops rest) :
    ∃ bs, memberText sep text e ++ rest = 0x22 :: bs ∧
      readMember (fuel + 1) depth soFar bs =
        readMembers fuel depth false (soFar ++ [e]) rest := by
  have hsize : 0 < (text e.2).length := by
    obtain ⟨c, t, ht, -⟩ := he.starts
    rw [ht]
    exact Nat.succ_pos _
  obtain ⟨fuel, rfl⟩ : ∃ n, fuel = n + 1 := ⟨fuel - 1, by omega⟩
  refine ⟨escaped e.1 ++ 0x22 :: 0x3a :: (sep ++ (text e.2 ++ rest)), ?_, ?_⟩
  · rw [memberText, List.cons_append, List.append_assoc, List.cons_append, List.cons_append,
      List.append_assoc]
  · rw [readMember, readText_escaped]
    dsimp only [bind, Except.bind]
    rw [skipBlanks_cons rfl]
    dsimp only
    rw [if_pos rfl, readValue_append hsep, he.reads _ _ hfuel hrest,
      ← insert_of_not_mem hfresh]

/-- The members after the first one are read. -/
theorem readMembers_tailText (hgap : ∀ b ∈ gap, isBlank b = true)
    (hclose : ∀ b ∈ close, isBlank b = true) (hsep : ∀ b ∈ sep, isBlank b = true)
    {members : List (String × Json)} (h : ∀ e ∈ members, ReadsAs depth (text e.2) e.2) :
    ∀ fuel soFar rest, ((soFar ++ members).map Prod.fst).Nodup →
      (tailText gap close 0x7d (members.map (memberText sep text))).length ≤ fuel →
      readMembers fuel depth false soFar
          (tailText gap close 0x7d (members.map (memberText sep text)) ++ rest) =
        .ok (soFar ++ members, rest) := by
  induction members with
  | nil =>
    intro fuel soFar rest _ hfuel
    rw [List.map_nil, tailText, List.length_append, List.length_singleton] at hfuel
    obtain ⟨fuel, rfl⟩ : ∃ n, fuel = n + 1 := ⟨fuel - 1, by omega⟩
    rw [List.map_nil, tailText, List.append_assoc, List.singleton_append, readMembers,
      skipBlanks_append_cons hclose rfl rest, List.append_nil]
    rfl
  | cons e members ih =>
    obtain ⟨he, hmembers⟩ := List.forall_mem_cons.mp h
    intro fuel soFar rest hn hfuel
    rw [List.map_cons, tailText, List.length_cons, List.length_append, List.length_append] at hfuel
    have hsize := length_tailText_pos gap close 0x7d (members.map (memberText sep text))
    have hmember : (text e.2).length + 3 ≤ (memberText sep text e).length := by
      simp only [memberText, List.length_cons, List.length_append]
      omega
    obtain ⟨fuel, rfl⟩ : ∃ n, fuel = n + 2 := ⟨fuel - 2, by omega⟩
    have hfresh : e.1 ∉ soFar.map Prod.fst := by
      rw [List.map_append, List.map_cons] at hn
      exact fun hmem => (List.nodup_append.mp hn).2.2 _ hmem _ List.mem_cons_self rfl
    have hsplit : soFar ++ e :: members = soFar ++ [e] ++ members := by
      rw [List.append_assoc, List.singleton_append]
    obtain ⟨bs, hbs, hread⟩ := readMember_memberText hsep he hfresh (by omega : _ ≤ fuel)
      (stops_tailText gap hclose (.inr rfl) (members.map (memberText sep text)) rest)
    have hrest := ih hmembers fuel (soFar ++ [e]) rest (hsplit ▸ hn) (by omega)
    rw [List.map_cons, tailText, List.cons_append, List.append_assoc, List.append_assoc, hbs,
      readMembers, skipBlanks_cons rfl]
    dsimp only
    rw [if_neg (by decide), if_neg Bool.false_ne_true, if_pos rfl, skipBlanks_append_cons hgap rfl]
    dsimp only
    rw [if_pos rfl, hread, hrest, hsplit]

/-- **An object without a key twice is read back if its values are.** -/
theorem readsAs_obj (hgap : ∀ b ∈ gap, isBlank b = true) (hclose : ∀ b ∈ close, isBlank b = true)
    (hsep : ∀ b ∈ sep, isBlank b = true) {members : List (String × Json)}
    (hn : (members.map Prod.fst).Nodup)
    (h : ∀ e ∈ members, ReadsAs (depth + 1) (text e.2) e.2) :
    ReadsAs (depth + 2) (listText gap close 0x7b 0x7d (members.map (memberText sep text)))
      (.obj members) := by
  cases members with
  | nil =>
    refine readsAs_of_succ rfl (by decide) fun fuel rest hfuel _ => ?_
    obtain ⟨fuel, rfl⟩ : ∃ n, fuel = n + 1 := ⟨fuel - 1, by rw [List.length_singleton] at hfuel; omega⟩
    rw [readValue, skipBlanks_cons rfl]
    change (readMembers (fuel + 1) (depth + 1) true [] (0x7d :: rest) >>= _) = _
    rw [readMembers, skipBlanks_cons rfl]
    rfl
  | cons e members =>
    obtain ⟨he, hmembers⟩ := List.forall_mem_cons.mp h
    refine readsAs_of_succ rfl (by decide) fun fuel rest hfuel _ => ?_
    rw [List.length_append, List.length_append] at hfuel
    have hsize := length_tailText_pos gap close 0x7d (members.map (memberText sep text))
    have hmember : (text e.2).length + 3 ≤ (memberText sep text e).length := by
      simp only [memberText, List.length_cons, List.length_append]
      omega
    obtain ⟨fuel, rfl⟩ : ∃ n, fuel = n + 2 := ⟨fuel - 2, by omega⟩
    have hfresh : e.1 ∉ ([] : List (String × Json)).map Prod.fst := List.not_mem_nil
    obtain ⟨bs, hbs, hread⟩ := readMember_memberText hsep he hfresh (by omega : _ ≤ fuel)
      (stops_tailText gap hclose (.inr rfl) (members.map (memberText sep text)) rest)
    have hrest := readMembers_tailText hgap hclose hsep hmembers fuel [e] rest hn (by omega)
    rw [List.append_assoc, List.append_assoc, hbs, readValue, skipBlanks_cons rfl]
    change (readMembers (fuel + 2) (depth + 1) true [] _ >>= _) = _
    rw [readMembers, skipBlanks_append_cons hgap rfl]
    dsimp only
    rw [if_neg (by decide), if_pos rfl, if_pos rfl, hread]
    change (readMembers fuel (depth + 1) false [e] _ >>= _) = _
    rw [hrest]
    rfl

end Containers

/-! ## Documents -/

theorem utf8_intercalate (sep t : String) (ts : List String) :
    utf8 (sep.intercalate (t :: ts)) = utf8 t ++ ts.flatMap fun t => utf8 sep ++ utf8 t := by
  induction ts generalizing t with
  | nil => rw [String.intercalate_singleton, List.flatMap_nil, List.append_nil]
  | cons u ts ih =>
    rw [String.intercalate_cons_cons, utf8_append, utf8_append, ih, List.flatMap_cons,
      List.append_assoc, List.append_assoc]

/-- Parts between commas, with what stands around them. -/
theorem flatMap_tailText (gap close : Bytes) (closing : UInt8) (ts : List Bytes) :
    (ts.flatMap fun t => 0x2c :: (gap ++ t)) ++ (close ++ [closing]) =
      tailText gap close closing ts := by
  induction ts with
  | nil => rfl
  | cons t ts ih =>
    rw [List.flatMap_cons, List.cons_append, List.cons_append, List.append_assoc, List.append_assoc,
      ih, tailText]

theorem compactItems_eq (items : List Json) : compactItems items = items.map compact := by
  induction items with
  | nil => rfl
  | cons x items ih => rw [compactItems, ih, List.map_cons]

theorem compactMembers_eq (members : List (String × Json)) :
    compactMembers members = members.map fun e => quote e.1 ++ ":" ++ compact e.2 := by
  induction members with
  | nil => rfl
  | cons e members ih => rw [compactMembers, ih, List.map_cons]

theorem prettyItems_eq (depth : Nat) (items : List Json) :
    prettyItems depth items = items.map (pretty depth) := by
  induction items with
  | nil => rfl
  | cons x items ih => rw [prettyItems, ih, List.map_cons]

theorem prettyMembers_eq (depth : Nat) (members : List (String × Json)) :
    prettyMembers depth members = members.map fun e => quote e.1 ++ ": " ++ pretty depth e.2 := by
  induction members with
  | nil => rfl
  | cons e members ih => rw [prettyMembers, ih, List.map_cons]

section Brackets

variable {opening closing : String} {o c : UInt8}

theorem utf8_bracketed (ho : utf8 opening = [o]) (hc : utf8 closing = [c]) (depth : Nat)
    (parts : List String) :
    utf8 (bracketed opening closing depth parts) =
      listText (utf8 (newline (depth + 1))) (utf8 (newline depth)) o c (parts.map utf8) := by
  cases parts with
  | nil =>
    rw [bracketed, utf8_append, ho, hc]
    rfl
  | cons p parts =>
    have hcomma : utf8 ("," ++ newline (depth + 1)) = 0x2c :: utf8 (newline (depth + 1)) := by
      rw [utf8_append]
      rfl
    rw [bracketed, utf8_append, utf8_append, utf8_append, utf8_append, utf8_intercalate, hcomma, ho,
      hc, List.map_cons, listText, ← flatMap_tailText, List.flatMap_map]
    · simp only [List.append_assoc, List.cons_append, List.nil_append]
    · exact nofun

theorem utf8_commas (ho : utf8 opening = [o]) (hc : utf8 closing = [c]) (parts : List String) :
    utf8 (opening ++ ",".intercalate parts ++ closing) = listText [] [] o c (parts.map utf8) := by
  cases parts with
  | nil =>
    rw [utf8_append, utf8_append, ho, hc]
    rfl
  | cons p parts =>
    have hcomma : utf8 "," = [0x2c] := rfl
    rw [utf8_append, utf8_append, utf8_intercalate, hcomma, ho, hc, List.map_cons, listText,
      ← flatMap_tailText, List.flatMap_map]
    simp only [List.append_assoc, List.cons_append, List.nil_append]

end Brackets

theorem utf8_member {colon : String} {sep : Bytes} (hcolon : utf8 colon = 0x3a :: sep)
    (text : Json → String) (e : String × Json) :
    utf8 (quote e.1 ++ colon ++ text e.2) = memberText sep (fun x => utf8 (text x)) e := by
  rw [utf8_append, utf8_append, utf8_quote, hcolon, memberText]
  simp only [List.append_assoc, List.cons_append, List.nil_append]

theorem isBlank_newline (depth : Nat) : ∀ b ∈ utf8 (newline depth), isBlank b = true := by
  have hline : utf8 (newline depth) =
      0x0a :: (List.replicate (2 * depth) ' ').flatMap String.utf8EncodeChar := by
    rw [utf8, newline, String.toList_ofList]
    rfl
  rw [hline]
  intro b hb
  rcases List.mem_cons.mp hb with rfl | hb
  · rfl
  · obtain ⟨c, hc, hb⟩ := List.mem_flatMap.mp hb
    rw [List.eq_of_mem_replicate hc] at hb
    cases List.mem_singleton.mp hb
    rfl

/-- **A value on one line is read back.** -/
theorem Readable.readsAs_compact {d : Nat} {x : Json} (h : Readable d x) :
    ∀ depth, d < depth → ReadsAs depth (utf8 x.compact) x := by
  induction h with
  | null => exact fun depth _ => readsAs_null depth
  | bool b => exact fun depth _ => readsAs_bool depth b
  | int h => exact fun depth _ => readsAs_int depth h
  | str s => exact fun depth _ => readsAs_str depth s
  | arr _ ih =>
    intro depth hd
    obtain ⟨depth, rfl⟩ : ∃ n, depth = n + 2 := ⟨depth - 2, by omega⟩
    have hnone : ∀ b ∈ ([] : Bytes), isBlank b = true := List.forall_mem_nil _
    rw [compact, compactItems_eq, utf8_commas (o := 0x5b) (c := 0x5d) rfl rfl, List.map_map]
    exact readsAs_arr hnone hnone fun x hx => ih x hx _ (by omega)
  | @obj d members hn _ ih =>
    intro depth hd
    obtain ⟨depth, rfl⟩ : ∃ n, depth = n + 2 := ⟨depth - 2, by omega⟩
    have hnone : ∀ b ∈ ([] : Bytes), isBlank b = true := List.forall_mem_nil _
    have hcolon : utf8 ":" = 0x3a :: [] := rfl
    have hmember : (utf8 ∘ fun e => quote e.1 ++ ":" ++ compact e.2) =
        memberText [] fun x => utf8 x.compact := by
      funext e
      rw [Function.comp, utf8_member hcolon]
    have hread : ∀ e ∈ members, ReadsAs (depth + 1) (utf8 (compact e.2)) e.2 :=
      fun e he => ih e he (depth + 1) (by omega)
    rw [compact, compactMembers_eq, utf8_commas (o := 0x7b) (c := 0x7d) rfl rfl, List.map_map,
      hmember]
    exact @readsAs_obj [] [] [] (fun x => utf8 x.compact) depth hnone hnone hnone _ hn hread

/-- **An indented value is read back.** -/
theorem Readable.readsAs_pretty {d : Nat} {x : Json} (h : Readable d x) :
    ∀ depth level, d < depth → ReadsAs depth (utf8 (x.pretty level)) x := by
  induction h with
  | null => exact fun depth _ _ => readsAs_null depth
  | bool b => exact fun depth _ _ => readsAs_bool depth b
  | int h => exact fun depth _ _ => readsAs_int depth h
  | str s => exact fun depth _ _ => readsAs_str depth s
  | arr _ ih =>
    intro depth level hd
    obtain ⟨depth, rfl⟩ : ∃ n, depth = n + 2 := ⟨depth - 2, by omega⟩
    rw [pretty, prettyItems_eq, utf8_bracketed (o := 0x5b) (c := 0x5d) rfl rfl, List.map_map]
    exact readsAs_arr (isBlank_newline _) (isBlank_newline _) fun x hx => ih x hx _ _ (by omega)
  | @obj d members hn _ ih =>
    intro depth level hd
    obtain ⟨depth, rfl⟩ : ∃ n, depth = n + 2 := ⟨depth - 2, by omega⟩
    have hblank : ∀ b ∈ ([0x20] : Bytes), isBlank b = true := List.forall_mem_singleton.mpr rfl
    have hcolon : utf8 ": " = 0x3a :: [0x20] := rfl
    have hmember : (utf8 ∘ fun e => quote e.1 ++ ": " ++ pretty (level + 1) e.2) =
        memberText [0x20] fun x => utf8 (x.pretty (level + 1)) := by
      funext e
      rw [Function.comp, utf8_member hcolon]
    have hread : ∀ e ∈ members, ReadsAs (depth + 1) (utf8 (pretty (level + 1) e.2)) e.2 :=
      fun e he => ih e he (depth + 1) (level + 1) (by omega)
    rw [pretty, prettyMembers_eq, utf8_bracketed (o := 0x7b) (c := 0x7d) rfl rfl, List.map_map,
      hmember]
    exact @readsAs_obj _ _ [0x20] (fun x => utf8 (x.pretty (level + 1))) depth
      (isBlank_newline (level + 1)) (isBlank_newline level) hblank _ hn hread

/-- Bytes that are read as a value are one, with blanks after them. -/
theorem parseBytes_of_readsAs {bs blanks : Bytes} {x : Json} (h : ReadsAs 128 bs x)
    (hblanks : ∀ b ∈ blanks, isBlank b = true) : parseBytes (bs ++ blanks) = .ok x := by
  have hlength : bs.length ≤ 2 * (bs ++ blanks).length + 2 := by
    rw [List.length_append]
    omega
  have hstops : Stops blanks := by
    have hnil := stops_append hblanks stops_nil
    rwa [List.append_nil] at hnil
  have hend : skipBlanks blanks = [] := by
    have hnil := skipBlanks_append hblanks []
    rwa [List.append_nil] at hnil
  rw [parseBytes, h.reads _ _ hlength hstops]
  dsimp only [bind, Except.bind]
  rw [hend]

/-- **What is printed on one line is read back.** -/
theorem parse_compact {x : Json} (h : Readable 127 x) : parse x.compact = .ok x := by
  have hread := parseBytes_of_readsAs (h.readsAs_compact 128 (by decide))
    (List.forall_mem_nil _)
  rwa [List.append_nil] at hread

/-- **What is printed with indentation is read back**, also with a line end after it. -/
theorem parse_pretty {x : Json} (h : Readable 127 x) : parse (x.pretty 0 ++ "\n") = .ok x := by
  have hblank : ∀ b ∈ utf8 "\n", isBlank b = true := List.forall_mem_singleton.mpr rfl
  have hread := parseBytes_of_readsAs (h.readsAs_pretty 128 0 (by decide)) hblank
  rwa [← utf8_append] at hread

end Provision.Json
