import Provision.Yaml.Grammar

/-!
# Where the scalars of a document come from

The grammar makes no scalars of its own but those that stand for what is missing. Whatever it makes
of the tokens in the reading for places, each other scalar is the scalar of one of the tokens, and
stands where that token stands.

* `Node.Each`: what holds of every scalar of a node.
* `Parser.Yields`: what holds of whatever a parser reads.
* `content?_sourced`: the scalars of a document come from its tokens.
-/

set_option autoImplicit false

namespace Provision.Yaml

/-- Every scalar of a node has a property: its place, its style and its text. -/
inductive Node.Each (P : Mark → Style → String → Prop) : Node → Prop
  | scalar {m : Mark} {p : Properties} {style : Style} {text : String} :
      P m style text → Node.Each P (.scalar m p style text)
  | sequence {start stop : Mark} {p : Properties} {items : List Node} :
      (∀ n ∈ items, Node.Each P n) → Node.Each P (.sequence start stop p items)
  | mapping {start stop : Mark} {p : Properties} {entries : List (Node × Node)} :
      (∀ e ∈ entries, Node.Each P e.1) → (∀ e ∈ entries, Node.Each P e.2) →
      Node.Each P (.mapping start stop p entries)
  | alias (m : Mark) (n : Nat) : Node.Each P (.alias m n)

/-- A scalar of a place, a style and a text comes from some of the tokens: it is one of them, or it
is missing there and written as a null. -/
def ComesFrom (tokens : List Token.Known) (m : Mark) (style : Style) (text : String) : Prop :=
  ∃ k ∈ tokens, k.token.start = m ∧
    (k.token.kind = .scalar style text ∨ style = .plain ∧ text = "~")

/-- Every scalar of a node comes from some of the tokens. -/
abbrev Node.Sourced (tokens : List Token.Known) (n : Node) : Prop := n.Each (ComesFrom tokens)

namespace Parser

variable {α β : Type} {tokens : List Token.Known}

/-- Whatever is read from some of the tokens has a property, and some of the tokens are left. -/
def Yields (tokens : List Token.Known) (x : Parser α) (Q : α → Prop) : Prop :=
  ∀ p a p', p.tokens ⊆ tokens → x p = some (a, p') → p'.tokens ⊆ tokens ∧ Q a

namespace Yields

variable {x : Parser α} {f : α → Parser β} {Q : α → Prop} {R : β → Prop}

theorem pure {a : α} (h : Q a) : Yields tokens (Pure.pure a) Q := fun p a' p' hp heq => by
  cases heq
  exact ⟨hp, h⟩

theorem failure : Yields tokens (Alternative.failure : Parser α) Q := fun p a p' _ heq => by
  cases heq

theorem bind (hx : Yields tokens x Q) (hf : ∀ a, Q a → Yields tokens (f a) R) :
    Yields tokens (x >>= f) R := by
  intro p b p' hp heq
  cases hrun : x p with
  | none => simp [Bind.bind, StateT.bind, hrun] at heq
  | some r =>
    obtain ⟨a, p₁⟩ := r
    obtain ⟨hp₁, ha⟩ := hx p a p₁ hp hrun
    exact hf a ha p₁ b p' hp₁ (by simpa [Bind.bind, StateT.bind, hrun] using heq)

end Yields

theorem peek_eq (p : Pending) : peek p = match p.tokens with
    | k :: _ => some (k.token, { p with reached := k.reached })
    | [] => none := by
  obtain ⟨tokens, reached, anchors⟩ := p
  cases tokens <;> rfl

/-- The next token is one of the tokens. -/
theorem yields_peek : Yields tokens peek fun t => ∃ k ∈ tokens, k.token = t := by
  intro p t p' hp heq
  rw [peek_eq] at heq
  split at heq
  · next k rest htokens =>
    cases heq
    exact ⟨hp, k, hp (by simp [htokens]), rfl⟩
  · cases heq

theorem yields_skip : Yields tokens skip fun _ => True := by
  intro p u p' hp heq
  cases heq
  exact ⟨fun k hk => hp (List.mem_of_mem_drop hk), trivial⟩

theorem yields_get : Yields tokens (get : Parser Pending) fun _ => True := by
  intro p q p' hp heq
  cases heq
  exact ⟨hp, trivial⟩

namespace Yields

variable {x y : Parser α} {f : α → Parser β} {Q : α → Prop} {R : β → Prop}

theorem ite {c : Prop} [Decidable c] (hx : c → Yields tokens x Q) (hy : ¬c → Yields tokens y Q) :
    Yields tokens (if c then x else y) Q := by
  split
  · next h => exact hx h
  · next h => exact hy h

theorem skip {f : Unit → Parser β} (hf : Yields tokens (f ()) R) :
    Yields tokens (Parser.skip >>= f) R :=
  yields_skip.bind fun _ _ => hf

theorem peek {f : Token → Parser β} (hf : ∀ k ∈ tokens, Yields tokens (f k.token) R) :
    Yields tokens (Parser.peek >>= f) R :=
  yields_peek.bind fun _ ⟨k, hk, he⟩ => he ▸ hf k hk

theorem pure_bind {a : α} (hf : Yields tokens (f a) R) : Yields tokens (Pure.pure a >>= f) R :=
  (Yields.pure (Q := fun b => b = a) rfl).bind fun _ he => he ▸ hf

theorem failure_bind : Yields tokens ((Alternative.failure : Parser α) >>= f) R :=
  (Yields.failure (Q := fun _ => False)).bind fun _ h => h.elim

end Yields

/-! ## The token at hand -/

/-- The same where the next token is known. -/
def YieldsAt (tokens : List Token.Known) (t : Token) (x : Parser α) (Q : α → Prop) : Prop :=
  ∀ p a p' k rest, p.tokens ⊆ tokens → p.tokens = k :: rest → k.token = t → x p = some (a, p') →
    p'.tokens ⊆ tokens ∧ Q a

namespace YieldsAt

variable {x : Parser α} {t : Token} {Q : α → Prop} {R : β → Prop}

theorem of_yields (h : Yields tokens x Q) : YieldsAt tokens t x Q :=
  fun p a p' _ _ hp _ _ heq => h p a p' hp heq

/-- After a look at the next token it is known. -/
theorem peek {f : Token → Parser β} (hf : ∀ k ∈ tokens, YieldsAt tokens k.token (f k.token) R) :
    Yields tokens (Parser.peek >>= f) R := by
  intro p b p' hp heq
  cases htokens : p.tokens with
  | nil => simp [Bind.bind, StateT.bind, peek_eq, htokens] at heq
  | cons k rest =>
    refine hf k (hp (by simp [htokens])) { p with reached := k.reached } b p' k rest hp htokens rfl
      ?_
    simpa [Bind.bind, StateT.bind, peek_eq, htokens] using heq

/-- A second look sees the same token. -/
theorem peek_again {f : Token → Parser β} (hf : YieldsAt tokens t (f t) R) :
    YieldsAt tokens t (Parser.peek >>= f) R := by
  intro p b p' k rest hp htokens ht heq
  refine hf { p with reached := k.reached } b p' k rest hp htokens ht ?_
  simpa [Bind.bind, StateT.bind, peek_eq, htokens, ht] using heq

/-- Where no anchor and no tag stands, none is read. -/
theorem properties {handles : Handles} {f : Properties → Parser β}
    (hanchor : ∀ name, t.kind ≠ .anchor name) (htag : ∀ handle suffix, t.kind ≠ .tag handle suffix)
    (hf : YieldsAt tokens t (f .none) R) :
    YieldsAt tokens t (Parser.properties handles >>= f) R := by
  intro p b p' k rest hp htokens ht heq
  refine hf { p with reached := k.reached } b p' k rest hp htokens ht ?_
  subst ht
  have hno (q : Pending) (hq : q.tokens = k :: rest) :
      Parser.anchor q = some (none, { q with reached := k.reached }) ∧
        Parser.tag handles q = some (none, { q with reached := k.reached }) := by
    simp only [Parser.anchor, Parser.tag, Bind.bind, StateT.bind, peek_eq, hq, Option.bind_some]
    exact ⟨rfl, rfl⟩
  have hnone : Parser.properties handles p = some (.none, { p with reached := k.reached }) := by
    simp only [Parser.properties, Bind.bind, StateT.bind, (hno p htokens).1, Option.bind_some,
      (hno { p with reached := k.reached } htokens).2]
    rfl
  simpa [Bind.bind, StateT.bind, hnone] using heq

end YieldsAt

/-! ## Nodes -/

variable {handles : Handles}

theorem sourced_missing {k : Token.Known} (hk : k ∈ tokens) :
    (missing .places k.token.start).Sourced tokens :=
  .scalar ⟨k, hk, rfl, .inr ⟨rfl, rfl⟩⟩

/-- What holds of items, and of entries. -/
abbrev ItemsSourced (tokens : List Token.Known) (r : List Node × Mark) : Prop :=
  ∀ n ∈ r.1, n.Sourced tokens

abbrev EntriesSourced (tokens : List Token.Known) (r : List (Node × Node) × Mark) : Prop :=
  ∀ e ∈ r.1, e.1.Sourced tokens ∧ e.2.Sourced tokens

theorem sourced_sequence {start stop : Mark} {p : Properties} {r : List Node × Mark}
    (h : ItemsSourced tokens r) : (Node.sequence start stop p r.1).Sourced tokens :=
  .sequence h

theorem sourced_mapping {start stop : Mark} {p : Properties} {r : List (Node × Node) × Mark}
    (h : EntriesSourced tokens r) : (Node.mapping start stop p r.1).Sourced tokens :=
  .mapping (fun e he => (h e he).1) fun e he => (h e he).2

mutual

theorem yields_node : ∀ (fuel : Nat) (block indentless : Bool),
    Yields tokens (node .places handles fuel block indentless) (·.Sourced tokens)
  | 0, _, _ => by
    rw [node]
    exact .failure
  | fuel + 1, block, indentless => by
    rw [node]
    refine YieldsAt.peek fun k hk => ?_
    split
    · next h _ => cases h
    · exact .of_yields .failure
    · exact .of_yields .failure
    · exact .of_yields .failure
    next hvalues halias hanchor htag =>
    refine .properties (fun name hkind => hanchor name rfl hkind)
      (fun handle suffix hkind => htag handle suffix rfl hkind) (.peek_again (.of_yields ?_))
    split
    · next style text _ hkind =>
      exact .skip (.pure (.scalar ⟨k, hk, rfl, .inl hkind⟩))
    · exact .skip ((yields_flowItems fuel true).bind fun r hr => .pure (sourced_sequence hr))
    · exact .skip ((yields_flowEntries fuel true).bind fun r hr => .pure (sourced_mapping hr))
    · exact .skip ((yields_blockItems fuel).bind fun r hr => .pure (sourced_sequence hr))
    · exact .skip ((yields_blockEntries fuel).bind fun r hr => .pure (sourced_mapping hr))
    · exact .ite
        (fun _ => (yields_indentlessItems fuel).bind fun r hr => .pure (sourced_sequence hr))
        fun _ => .failure

theorem yields_blockItems : ∀ fuel : Nat,
    Yields tokens (blockItems .places handles fuel) (ItemsSourced tokens)
  | 0 => by
    rw [blockItems]
    exact .failure
  | fuel + 1 => by
    rw [blockItems]
    refine .peek fun k hk => .skip ?_
    split
    · refine .peek fun k' hk' => ?_
      extract_lets goOn
      have hgoOn : ∀ n : Node, n.Sourced tokens → Yields tokens (goOn n) (ItemsSourced tokens) :=
        fun n hn => (yields_blockItems fuel).bind fun r hr =>
          .pure (List.forall_mem_cons.mpr ⟨hn, hr⟩)
      exact .ite (fun _ => .pure_bind (hgoOn _ (sourced_missing hk')))
        fun _ => (yields_node fuel true false).bind hgoOn
    · exact .pure (by simp [ItemsSourced])
    · exact .failure

theorem yields_indentlessItems : ∀ fuel : Nat,
    Yields tokens (indentlessItems .places handles fuel) (ItemsSourced tokens)
  | 0 => by
    rw [indentlessItems]
    exact .failure
  | fuel + 1 => by
    rw [indentlessItems]
    refine .peek fun k hk => .ite (fun _ => .skip (.peek fun k' hk' => ?_))
      fun _ => .pure (by simp [ItemsSourced])
    extract_lets goOn
    have hgoOn : ∀ n : Node, n.Sourced tokens → Yields tokens (goOn n) (ItemsSourced tokens) :=
      fun n hn => (yields_indentlessItems fuel).bind fun r hr =>
        .pure (List.forall_mem_cons.mpr ⟨hn, hr⟩)
    exact .ite (fun _ => .pure_bind (hgoOn _ (sourced_missing hk')))
      fun _ => (yields_node fuel true false).bind hgoOn

theorem yields_blockEntries : ∀ fuel : Nat,
    Yields tokens (blockEntries .places handles fuel) (EntriesSourced tokens)
  | 0 => by
    rw [blockEntries]
    exact .failure
  | fuel + 1 => by
    rw [blockEntries]
    refine .peek fun k hk => ?_
    split
    · exact .skip (.pure (by simp [EntriesSourced]))
    · extract_lets withKey
      have hwithKey : ∀ key : Node, key.Sourced tokens →
          Yields tokens (withKey key) (EntriesSourced tokens) := by
        intro key hkey
        refine .peek fun colon hcolon => ?_
        extract_lets withValue
        have hwithValue : ∀ value : Node, value.Sourced tokens →
            Yields tokens (withValue value) (EntriesSourced tokens) := fun value hvalue =>
          (yields_blockEntries fuel).bind fun r hr =>
            .pure (List.forall_mem_cons.mpr ⟨⟨hkey, hvalue⟩, hr⟩)
        exact .ite (fun _ => .skip ((yields_blockPart fuel _).bind hwithValue))
          fun _ => .pure_bind (hwithValue _ (sourced_missing hcolon))
      split
      · exact .skip ((yields_blockPart fuel _).bind hwithKey)
      · exact .pure_bind (hwithKey _ (sourced_missing hk))
      · exact .failure_bind

theorem yields_blockPart : ∀ (fuel : Nat) (sign : Token),
    Yields tokens (blockPart .places handles fuel sign) (·.Sourced tokens)
  | 0, _ => by
    rw [blockPart]
    exact .failure
  | fuel + 1, sign => by
    rw [blockPart]
    exact .peek fun k hk => .ite (fun _ => .pure (sourced_missing hk))
      fun _ => yields_node fuel true true

theorem yields_flowItems : ∀ (fuel : Nat) (first : Bool),
    Yields tokens (flowItems .places handles fuel first) (ItemsSourced tokens)
  | 0, _ => by
    rw [flowItems]
    exact .failure
  | fuel + 1, first => by
    rw [flowItems]
    refine .peek fun k hk => .ite (fun _ => .skip (.pure (by simp [ItemsSourced]))) fun _ => ?_
    extract_lets withItem afterComma
    have hwithItem : ∀ item : Node, item.Sourced tokens →
        Yields tokens (withItem item) (ItemsSourced tokens) := fun item hitem =>
      (yields_flowItems fuel false).bind fun r hr => .pure (List.forall_mem_cons.mpr ⟨hitem, hr⟩)
    have hafterComma : ∀ u : Unit, Yields tokens (afterComma u) (ItemsSourced tokens) := fun _ =>
      .peek fun t ht => .ite (fun _ => .skip (.pure (by simp [ItemsSourced]))) fun _ =>
        .ite (fun _ => .skip ((yields_flowPair fuel _).bind hwithItem))
          fun _ => (yields_node fuel false false).bind hwithItem
    exact .ite (fun _ => .ite (fun _ => .skip (hafterComma ())) fun _ => .failure_bind)
      fun _ => hafterComma ()

theorem yields_flowPair : ∀ (fuel : Nat) (start : Mark),
    Yields tokens (flowPair .places handles fuel start) (·.Sourced tokens)
  | 0, _ => by
    rw [flowPair]
    exact .failure
  | fuel + 1, start => by
    rw [flowPair]
    refine .peek fun k hk => ?_
    extract_lets withKey
    have hwithKey : ∀ key : Node, key.Sourced tokens →
        Yields tokens (withKey key) (·.Sourced tokens) := by
      intro key hkey
      refine .peek fun colon hcolon => ?_
      extract_lets withValue
      have hwithValue : ∀ value : Node, value.Sourced tokens →
          Yields tokens (withValue value) (·.Sourced tokens) := fun value hvalue =>
        yields_get.bind fun p _ => .pure (.mapping (by simpa using hkey) (by simpa using hvalue))
      exact .ite
        (fun _ => .skip (.peek fun after hafter => .ite
          (fun _ => .pure_bind (hwithValue _ (sourced_missing hafter)))
          fun _ => (yields_node fuel false false).bind hwithValue))
        fun _ => .pure_bind (hwithValue _ (sourced_missing hcolon))
    exact .ite (fun _ => .skip (.pure_bind (hwithKey _ (sourced_missing hk))))
      fun _ => (yields_node fuel false false).bind hwithKey

theorem yields_flowEntries : ∀ (fuel : Nat) (first : Bool),
    Yields tokens (flowEntries .places handles fuel first) (EntriesSourced tokens)
  | 0, _ => by
    rw [flowEntries]
    exact .failure
  | fuel + 1, first => by
    rw [flowEntries]
    refine .peek fun start hstart => .ite (fun _ => .skip (.pure (by simp [EntriesSourced])))
      fun _ => ?_
    extract_lets withPair withKey afterComma
    have hwithPair : ∀ pair : Node × Bool, pair.1.Sourced tokens →
        Yields tokens (withPair pair) (EntriesSourced tokens) := by
      rintro ⟨key, valued⟩ hkey
      refine .peek fun colon hcolon => ?_
      extract_lets withValue
      have hwithValue : ∀ value : Node, value.Sourced tokens →
          Yields tokens (withValue value) (EntriesSourced tokens) := fun value hvalue =>
        (yields_flowEntries fuel false).bind fun r hr =>
          .pure (List.forall_mem_cons.mpr ⟨⟨hkey, hvalue⟩, hr⟩)
      exact .ite
        (fun _ => .skip (.peek fun after hafter => .ite
          (fun _ => .pure_bind (hwithValue _ (sourced_missing hcolon)))
          fun _ => (yields_node fuel false false).bind hwithValue))
        fun _ => .pure_bind (hwithValue _ (sourced_missing hcolon))
    have hwithKey : ∀ key : Node, key.Sourced tokens →
        Yields tokens (withKey key) (EntriesSourced tokens) := fun key hkey =>
      .pure_bind (hwithPair (key, true) hkey)
    have hafterComma : ∀ u : Unit, Yields tokens (afterComma u) (EntriesSourced tokens) := by
      intro _
      refine .peek fun t ht => ?_
      split
      · exact .skip (.pure (by simp [EntriesSourced]))
      · exact .failure
      · exact .ite
          (fun _ => .skip (.peek fun after hafter => .ite
            (fun _ => .pure_bind (hwithKey _ (sourced_missing hafter)))
            fun _ => (yields_node fuel false false).bind hwithKey))
          fun _ => .ite (fun _ => .pure_bind (hwithPair (_, true) (sourced_missing ht)))
            fun _ => (yields_node fuel false false).bind fun key hkey =>
              .pure_bind (hwithPair (key, false) hkey)
    exact .ite (fun _ => .ite (fun _ => .skip (hafterComma ())) fun _ => .failure_bind)
      fun _ => hafterComma ()

end

/-! ## Documents -/

theorem yields_directives (fuel : Nat) (versioned : Bool) (handles : Handles) :
    Yields tokens (directives .places fuel versioned handles) fun _ => True := by
  induction fuel generalizing versioned handles with
  | zero => exact .failure
  | succ fuel ih =>
    rw [directives]
    refine .peek fun k _ => ?_
    split
    · exact .skip (.ite (fun _ => .failure) fun _ => ih true handles)
    · exact .skip (.ite (fun _ => .failure) fun _ => ih versioned _)
    · exact .skip (ih versioned handles)
    · exact .pure trivial

theorem yields_skipDocumentEnds (fuel : Nat) :
    Yields tokens (skipDocumentEnds fuel) fun _ => True := by
  induction fuel with
  | zero => exact .failure
  | succ fuel ih => exact .peek fun k _ => .ite (fun _ => .skip ih) fun _ => .pure trivial

/-- What holds of what a text holds. -/
def ContentSourced (tokens : List Token.Known) : Content → Prop
  | .nothing _ => True
  | .document root => root.Sourced tokens

theorem yields_content (size : Nat) :
    Yields tokens (content .places size) (ContentSourced tokens) := by
  rw [content]
  refine .ite (fun _ => (yields_skipDocumentEnds size).bind fun _ _ => ?_) fun h => (h rfl).elim
  refine .peek fun first _ => .ite (fun _ => .pure trivial) fun _ => ?_
  extract_lets withRoot
  have hwithRoot : ∀ root : Node, root.Sourced tokens →
      Yields tokens (withRoot root) (ContentSourced tokens) := fun root hroot =>
    .peek fun k _ => .ite (fun _ => .failure) fun _ => .pure hroot
  refine .ite (fun _ => (yields_directives size false []).bind fun handles _ =>
    .peek fun opening _ => .skip (.peek fun body hbody => ?_))
    fun _ => (yields_node size true false).bind hwithRoot
  exact .ite (fun _ => .failure_bind) fun _ =>
    .ite (fun _ => .pure_bind (hwithRoot _ (sourced_missing hbody)))
      fun _ => (yields_node size true false).bind hwithRoot

end Parser

/-- Every scalar of the document of a text is one of its tokens, or stands for what is missing. -/
theorem content?_sourced {text : List Char} {root : Node}
    (h : content? .places text = some (.document root)) : root.Sourced (scan .places text) := by
  simp only [content?, Option.map_eq_some_iff, Prod.exists] at h
  obtain ⟨found, p, hrun, rfl⟩ := h
  exact (Parser.yields_content _ _ _ _ (List.Subset.refl _) hrun).2

end Provision.Yaml
