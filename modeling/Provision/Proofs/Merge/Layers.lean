import Provision.Proofs.Merge.Pairing

/-!
# What a merged node is made of

A node of a merged config is a node of the lower config, a node of the upper config, or a container
of each. Following a trail through the merged config, these layers change with every step, and they
decide what stands at the trail and what became of the nodes of the two configs.

* `Layers.at?`: the layers at a trail.
* `Layers.at?_value`: what stands at a trail is what the layers there are merged to.
* `Layers.mem_kept_iff`, `Layers.mem_moved_iff`: the nodes that are said to be part of the merged
  config are the layers of its nodes.
-/

set_option autoImplicit false

namespace Provision.Merge

/-! ## All nodes -/

theorem mem_itemTrails {position : Nat} {items : List Json} {t : Trail} :
    t ∈ itemTrails position items ↔
      ∃ i x u, items[i]? = some x ∧ u ∈ trails x ∧ t = .index (position + i) :: u := by
  induction items generalizing position with
  | nil => simp [itemTrails]
  | cons x rest ih =>
    rw [itemTrails, List.mem_append, List.mem_map, ih]
    constructor
    · rintro (⟨u, hu, rfl⟩ | ⟨i, y, u, hy, hu, rfl⟩)
      · exact ⟨0, x, u, rfl, hu, rfl⟩
      · exact ⟨i + 1, y, u, hy, hu, by rw [show position + 1 + i = position + (i + 1) by omega]⟩
    · rintro ⟨i, y, u, hy, hu, rfl⟩
      cases i with
      | zero =>
        cases hy
        exact .inl ⟨u, hu, rfl⟩
      | succ i =>
        exact .inr ⟨i, y, u, hy, hu,
          by rw [show position + 1 + i = position + (i + 1) by omega]⟩

theorem mem_memberTrails {members : List (String × Json)} {t : Trail} :
    t ∈ memberTrails members ↔
      ∃ k x u, (k, x) ∈ members ∧ u ∈ trails x ∧ t = .key k :: u := by
  induction members with
  | nil => simp [memberTrails]
  | cons e rest ih =>
    obtain ⟨k, x⟩ := e
    rw [memberTrails, List.mem_append, List.mem_map, ih]
    constructor
    · rintro (⟨u, hu, rfl⟩ | ⟨l, y, u, hy, hu, rfl⟩)
      · exact ⟨k, x, u, List.mem_cons_self, hu, rfl⟩
      · exact ⟨l, y, u, List.mem_cons_of_mem _ hy, hu, rfl⟩
    · rintro ⟨l, y, u, hy, hu, rfl⟩
      rcases List.mem_cons.mp hy with he | hy
      · cases he
        exact .inl ⟨u, hu, rfl⟩
      · exact .inr ⟨l, y, u, hy, hu, rfl⟩

theorem nil_mem_trails (x : Json) : [] ∈ trails x := by
  cases x <;> exact List.mem_cons_self

theorem cons_mem_trails {x : Json} (hx : x.isDistinct = true) {s : Segment} {t : Trail} :
    s :: t ∈ trails x ↔ ∃ y, x.child? s = some y ∧ t ∈ trails y := by
  cases x with
  | arr items =>
    have hm : s :: t ∈ trails (.arr items) ↔ s :: t ∈ itemTrails 0 items := by
      simp [trails]
    rw [hm, mem_itemTrails]
    constructor
    · rintro ⟨i, y, u, hy, hu, he⟩
      cases he
      exact ⟨y, by rw [Nat.zero_add]; exact hy, hu⟩
    · rintro ⟨y, hy, ht⟩
      cases s with
      | key => cases hy
      | index i => exact ⟨i, y, t, hy, ht, by rw [Nat.zero_add]⟩
  | obj members =>
    have hm : s :: t ∈ trails (.obj members) ↔ s :: t ∈ memberTrails members := by
      simp [trails]
    rw [hm, mem_memberTrails]
    constructor
    · rintro ⟨k, y, u, hy, hu, he⟩
      cases he
      exact ⟨y, (Json.lookup_eq_some_iff (Json.isDistinct_obj.mp hx).1).mpr hy, hu⟩
    · rintro ⟨y, hy, ht⟩
      cases s with
      | index => cases hy
      | key k => exact ⟨k, y, t, Json.mem_of_lookup hy, ht, rfl⟩
  | _ => simp [trails]

/-- **The trails of a value are those that lead to a node.** -/
theorem mem_trails_iff {x : Json} (hx : x.isDistinct = true) {t : Trail} :
    t ∈ trails x ↔ (x.at? t).isSome = true := by
  induction t generalizing x with
  | nil => simp [nil_mem_trails]
  | cons s t ih =>
    rw [cons_mem_trails hx, Json.at?_cons]
    constructor
    · rintro ⟨y, hy, ht⟩
      rw [hy, Option.bind_some]
      exact (ih (Json.isDistinct_of_child hx hy)).mp ht
    · intro h
      obtain ⟨z, hz⟩ := Option.isSome_iff_exists.mp h
      obtain ⟨y, hy, hz⟩ := Option.bind_eq_some_iff.mp hz
      exact ⟨y, hy, (ih (Json.isDistinct_of_child hx hy)).mpr (by rw [hz]; rfl)⟩

/-! ## Layers -/

/-- The layers of a merged node: the node of the lower config that it is, the node of the upper
config with the trail that led to it there, or both. -/
inductive Layers where
  | lower (x : Json)
  | upper (there : Trail) (y : Json)
  | both (there : Trail) (x y : Json)

namespace Layers

/-- The layers that are left when a node of the upper config is laid over one of the lower. -/
def laid (there : Trail) (x y : Json) : Layers :=
  if y = .null then .lower x
  else if x.sameContainer y then .both there x y
  else .upper there y

/-- The layers of a part of a container. -/
def ofPart (there : Trail) : Part → Layers
  | .lower x => .lower x
  | .upper o y => .upper (there ++ [o]) y
  | .both o x y => laid (there ++ [o]) x y

/-- The lower layer. -/
def lower? : Layers → Option Json
  | .lower x | .both _ x _ => some x
  | .upper _ _ => none

/-- The upper layer, and where it was in the upper config. -/
def upper? : Layers → Option (Trail × Json)
  | .upper there y | .both there _ y => some (there, y)
  | .lower _ => none

/-- What the layers of a node are merged to. -/
def merged (here : Trail) : Layers → Merged Json
  | .lower x => .lower here x
  | .upper there y => .upper there here y
  | .both there x y => mergeValue there here x y

/-- The layers one step below. -/
def below? (here : Trail) (s : Segment) : Layers → Option Layers
  | .lower x => (x.child? s).map .lower
  | .upper there y => (y.child? s).map (.upper (there ++ [s]))
  | .both there x y => ((parts here x y).lookup s).map (ofPart there)

/-- How large the layers are together. -/
noncomputable def size : Layers → Nat
  | .lower x => sizeOf x
  | .upper _ y => sizeOf y
  | .both _ x y => sizeOf x + sizeOf y

/-- The layers at a trail below a place. -/
def at? (here : Trail) : Trail → Layers → Option Layers
  | [], l => some l
  | s :: t, l => (l.below? here s).bind (at? (here ++ [s]) t)

/-- Layers are well formed if they have distinct keys and two of them are containers of one kind. -/
def Sound : Layers → Prop
  | .lower x => x.isDistinct = true
  | .upper _ y => y.isDistinct = true
  | .both _ x y => x.sameContainer y = true ∧ x.isDistinct = true ∧ y.isDistinct = true

@[simp] theorem at?_nil (here : Trail) (l : Layers) : l.at? here [] = some l := rfl

@[simp] theorem at?_cons (here : Trail) (s : Segment) (t : Trail) (l : Layers) :
    l.at? here (s :: t) = (l.below? here s).bind (at? (here ++ [s]) t) := rfl

theorem laid_null (there : Trail) (x : Json) : laid there x .null = .lower x := if_pos rfl

theorem laid_of_sameContainer {x y : Json} (h : x.sameContainer y = true) (there : Trail) :
    laid there x y = .both there x y := by
  have hy : y ≠ .null := by
    rintro rfl
    cases x <;> cases h
  rw [laid, if_neg hy, if_pos h]

theorem laid_of_not_sameContainer {x y : Json} (hy : y ≠ .null) (h : x.sameContainer y = false)
    (there : Trail) : laid there x y = .upper there y := by
  rw [laid, if_neg hy, h]
  rfl

theorem sound_laid {x y : Json} (hx : x.isDistinct = true) (hy : y.isDistinct = true)
    (there : Trail) : (laid there x y).Sound := by
  rw [laid]
  split
  · exact hx
  · split
    · next h => exact ⟨h, hx, hy⟩
    · exact hy

theorem merged_laid (there here : Trail) (x y : Json) :
    (laid there x y).merged here = mergeValue there here x y := by
  rw [laid]
  split
  · next h =>
    subst h
    cases x <;> rfl
  · next hy =>
    split
    · rfl
    · next h => cases x <;> cases y <;> first | rfl | exact absurd rfl hy | exact absurd rfl h

theorem merged_ofPart (there here : Trail) (s : Segment) (p : Part) :
    (ofPart there p).merged (here ++ [s]) = p.merged there here s := by
  cases p with
  | lower | upper => rfl
  | both o x y => exact merged_laid _ _ x y

/-- Layers stay well formed on the way down. -/
theorem sound_of_below {here : Trail} {s : Segment} {l m : Layers} (hl : l.Sound)
    (h : l.below? here s = some m) : m.Sound := by
  cases l with
  | lower x =>
    obtain ⟨z, hz, rfl⟩ := Option.map_eq_some_iff.mp h
    exact Json.isDistinct_of_child hl hz
  | upper there y =>
    obtain ⟨z, hz, rfl⟩ := Option.map_eq_some_iff.mp h
    exact Json.isDistinct_of_child (x := y) hl hz
  | both there x y =>
    obtain ⟨hs, hx, hy⟩ := hl
    obtain ⟨p, hp, rfl⟩ := Option.map_eq_some_iff.mp h
    cases parts_spec hs hx hy ((lookup_parts_iff hx hy).mp hp) with
    | lower _ hx' => exact Json.isDistinct_of_child hx hx'
    | upper _ _ hy' => exact Json.isDistinct_of_child (x := y) hy hy'
    | both _ hx' hy' =>
      exact sound_laid (Json.isDistinct_of_child hx hx') (Json.isDistinct_of_child hy hy') _

theorem sound_of_at {here t : Trail} {l m : Layers} (hl : l.Sound)
    (h : l.at? here t = some m) : m.Sound := by
  induction t generalizing here l with
  | nil => cases h; exact hl
  | cons s t ih =>
    obtain ⟨n, hn, h⟩ := Option.bind_eq_some_iff.mp h
    exact ih (sound_of_below hl hn) h

theorem at?_lower (here t : Trail) (x : Json) :
    (lower x).at? here t = (x.at? t).map lower := by
  induction t generalizing here x with
  | nil => rfl
  | cons s t ih =>
    rw [at?_cons, below?, Json.at?_cons]
    cases x.child? s with
    | none => rfl
    | some y => exact ih _ y

theorem at?_upper (there here t : Trail) (y : Json) :
    (upper there y).at? here t = (y.at? t).map (upper (there ++ t)) := by
  induction t generalizing there here y with
  | nil => simp
  | cons s t ih =>
    rw [at?_cons, below?, Json.at?_cons]
    cases y.child? s with
    | none => rfl
    | some z => simpa using ih (there ++ [s]) (here ++ [s]) z

/-! ## What stands at a trail -/

theorem child?_merged (here : Trail) (s : Segment) (l : Layers) (hl : l.Sound) :
    (l.merged here).value.child? s =
      (l.below? here s).map fun m => (m.merged (here ++ [s])).value := by
  cases l with
  | lower x =>
    rw [below?, Option.map_map]
    exact Option.map_id'.symm
  | upper there y =>
    rw [below?, Option.map_map]
    exact Option.map_id'.symm
  | both there x y =>
    rw [below?, Option.map_map, merged, child?_mergeValue hl.1]
    congr 1
    funext p
    rw [Function.comp_apply, merged_ofPart]

/-- **What stands at a trail is what the layers there are merged to.** -/
theorem at?_value (here t : Trail) (l : Layers) (hl : l.Sound) :
    (l.merged here).value.at? t =
      (l.at? here t).map fun m => (m.merged (here ++ t)).value := by
  induction t generalizing here l with
  | nil => simp
  | cons s t ih =>
    rw [Json.at?_cons, at?_cons, child?_merged here s l hl]
    cases h : l.below? here s with
    | none => rfl
    | some m => simpa using ih (here ++ [s]) m (sound_of_below hl h)

/-! ## What became of the nodes -/

theorem lt_of_below {here : Trail} {s : Segment} {l m : Layers} (hl : l.Sound)
    (h : l.below? here s = some m) : m.size < l.size := by
  have laid_le : ∀ {there x y}, (laid there x y).size ≤ sizeOf x + sizeOf y := by
    intro there x y
    rw [laid]
    split
    · exact Nat.le_add_right _ _
    · split
      · exact Nat.le_refl _
      · exact Nat.le_add_left _ _
  cases l with
  | lower x =>
    obtain ⟨z, hz, rfl⟩ := Option.map_eq_some_iff.mp h
    exact Json.sizeOf_child_lt hz
  | upper there y =>
    obtain ⟨z, hz, rfl⟩ := Option.map_eq_some_iff.mp h
    exact Json.sizeOf_child_lt (x := y) hz
  | both there x y =>
    obtain ⟨hs, hx, hy⟩ := hl
    obtain ⟨p, hp, rfl⟩ := Option.map_eq_some_iff.mp h
    cases parts_spec hs hx hy ((lookup_parts_iff hx hy).mp hp) with
    | lower _ hx' => exact Nat.lt_of_lt_of_le (Json.sizeOf_child_lt hx') (Nat.le_add_right _ _)
    | upper _ _ hy' => exact Nat.lt_of_lt_of_le (Json.sizeOf_child_lt hy') (Nat.le_add_left _ _)
    | both _ hx' hy' =>
      exact Nat.lt_of_le_of_lt laid_le
        (Nat.add_lt_add (Json.sizeOf_child_lt hx') (Json.sizeOf_child_lt hy'))

/-- Induction on layers: what holds of layers if it holds of all that is one step below them holds
of all layers. -/
@[elab_as_elim]
theorem below_induction {P : (here : Trail) → (l : Layers) → l.Sound → Prop}
    (step : ∀ here l hl,
      (∀ s m (h : l.below? here s = some m), P (here ++ [s]) m (sound_of_below hl h)) →
        P here l hl)
    (here : Trail) (l : Layers) (hl : l.Sound) : P here l hl :=
  step here l hl fun s m h => below_induction step (here ++ [s]) m (sound_of_below hl h)
termination_by l.size
decreasing_by exact lt_of_below ‹_› ‹_›

theorem mem_flatMap_parts {α : Type} (f : Merged Json → List α) {there here : Trail} {x y : Json}
    (hx : x.isDistinct = true) (hy : y.isDistinct = true) {a : α} :
    (a ∈ (parts here x y).flatMap fun p => f (p.merged there here)) ↔
      ∃ s m, (both there x y).below? here s = some m ∧ a ∈ f (m.merged (here ++ [s])) := by
  rw [List.mem_flatMap]
  constructor
  · rintro ⟨⟨s, p⟩, hp, ha⟩
    refine ⟨s, ofPart there p, ?_, by rwa [merged_ofPart]⟩
    rw [below?, (lookup_parts_iff hx hy).mpr hp]
    rfl
  · rintro ⟨s, m, hm, ha⟩
    obtain ⟨p, hp, rfl⟩ := Option.map_eq_some_iff.mp hm
    rw [merged_ofPart] at ha
    exact ⟨(s, p), (lookup_parts_iff hx hy).mp hp, ha⟩

theorem exists_below_lower {P : Layers → Prop} {here : Trail} {s : Segment} {x : Json} :
    (∃ m, (lower x).below? here s = some m ∧ P m) ↔ ∃ y, x.child? s = some y ∧ P (lower y) := by
  constructor
  · rintro ⟨m, hm, h⟩
    obtain ⟨y, hy, rfl⟩ := Option.map_eq_some_iff.mp hm
    exact ⟨y, hy, h⟩
  · rintro ⟨y, hy, h⟩
    exact ⟨lower y, Option.map_eq_some_iff.mpr ⟨y, hy, rfl⟩, h⟩

theorem exists_below_upper {P : Layers → Prop} {there here : Trail} {s : Segment} {y : Json} :
    (∃ m, (upper there y).below? here s = some m ∧ P m) ↔
      ∃ z, y.child? s = some z ∧ P (upper (there ++ [s]) z) := by
  constructor
  · rintro ⟨m, hm, h⟩
    obtain ⟨z, hz, rfl⟩ := Option.map_eq_some_iff.mp hm
    exact ⟨z, hz, h⟩
  · rintro ⟨z, hz, h⟩
    exact ⟨upper (there ++ [s]) z, Option.map_eq_some_iff.mpr ⟨z, hz, rfl⟩, h⟩

/-- What is kept is a lower layer here or one further below. -/
theorem mem_kept_step (here : Trail) (l : Layers) (hl : l.Sound) (q : Trail) :
    q ∈ (l.merged here).kept ↔ (q = here ∧ l.lower?.isSome = true) ∨
      ∃ s m, l.below? here s = some m ∧ q ∈ (m.merged (here ++ [s])).kept := by
  cases l with
  | lower x =>
    have step : q ∈ (trails x).map (here ++ ·) ↔ q = here ∨
        ∃ s y, x.child? s = some y ∧ q ∈ (trails y).map (here ++ [s] ++ ·) := by
      simp only [List.mem_map]
      constructor
      · rintro ⟨t, ht, rfl⟩
        cases t with
        | nil => exact .inl (List.append_nil _)
        | cons s t =>
          obtain ⟨y, hy, ht⟩ := (cons_mem_trails hl).mp ht
          exact .inr ⟨s, y, hy, t, ht, by simp⟩
      · rintro (rfl | ⟨s, y, hy, t, ht, rfl⟩)
        · exact ⟨[], nil_mem_trails x, List.append_nil _⟩
        · exact ⟨s :: t, (cons_mem_trails hl).mpr ⟨y, hy, ht⟩, by simp⟩
    simp only [exists_below_lower, lower?, Option.isSome_some, and_true]
    exact step
  | upper there y =>
    simp [merged, Merged.upper, lower?, below?]
  | both there x y =>
    rw [merged, kept_mergeValue hl.1, List.mem_cons, mem_flatMap_parts (·.kept) hl.2.1 hl.2.2]
    simp [lower?]

/-- What is moved is an upper layer here or one further below. -/
theorem mem_moved_step (here : Trail) (l : Layers) (hl : l.Sound) (u q : Trail) :
    (u, q) ∈ (l.merged here).moved ↔ (q = here ∧ ∃ y, l.upper? = some (u, y)) ∨
      ∃ s m, l.below? here s = some m ∧ (u, q) ∈ (m.merged (here ++ [s])).moved := by
  cases l with
  | lower x => simp [merged, Merged.lower, upper?, below?]
  | upper there y =>
    have step : (u, q) ∈ (trails y).map (fun t => (there ++ t, here ++ t)) ↔
        (q = here ∧ there = u) ∨ ∃ s z, y.child? s = some z ∧
          (u, q) ∈ (trails z).map fun t => (there ++ [s] ++ t, here ++ [s] ++ t) := by
      simp only [List.mem_map, Prod.mk.injEq]
      constructor
      · rintro ⟨t, ht, rfl, rfl⟩
        cases t with
        | nil => exact .inl ⟨List.append_nil _, (List.append_nil _).symm⟩
        | cons s t =>
          obtain ⟨z, hz, ht⟩ := (cons_mem_trails (x := y) hl).mp ht
          exact .inr ⟨s, z, hz, t, ht, by simp, by simp⟩
      · rintro (⟨rfl, rfl⟩ | ⟨s, z, hz, t, ht, rfl, rfl⟩)
        · exact ⟨[], nil_mem_trails y, List.append_nil _, List.append_nil _⟩
        · exact ⟨s :: t, (cons_mem_trails (x := y) hl).mpr ⟨z, hz, ht⟩, by simp, by simp⟩
    simp only [exists_below_upper, upper?, Option.some.injEq, Prod.mk.injEq, exists_and_left,
      exists_eq', and_true]
    exact step
  | both there x y =>
    rw [merged, moved_mergeValue hl.1, List.mem_cons, mem_flatMap_parts (·.moved) hl.2.1 hl.2.2]
    simp [upper?, eq_comm, and_comm]

/-- **What is kept is the lower layers.** -/
theorem mem_kept_iff (here : Trail) (l : Layers) (hl : l.Sound) (q : Trail) :
    q ∈ (l.merged here).kept ↔
      ∃ t m, q = here ++ t ∧ l.at? here t = some m ∧ m.lower?.isSome = true := by
  induction here, l, hl using below_induction with
  | step here l hl ih =>
    rw [mem_kept_step here l hl]
    constructor
    · rintro (⟨rfl, h⟩ | ⟨s, m, hm, h⟩)
      · exact ⟨[], l, (List.append_nil _).symm, rfl, h⟩
      · obtain ⟨t, n, rfl, hn, h⟩ := (ih s m hm).mp h
        exact ⟨s :: t, n, by simp, by rw [at?_cons, hm]; exact hn, h⟩
    · rintro ⟨t, n, rfl, hn, h⟩
      cases t with
      | nil => cases hn; exact .inl ⟨List.append_nil _, h⟩
      | cons s t =>
        obtain ⟨m, hm, hn⟩ := Option.bind_eq_some_iff.mp hn
        exact .inr ⟨s, m, hm, (ih s m hm).mpr ⟨t, n, by simp, hn, h⟩⟩

/-- **What is moved is the upper layers.** -/
theorem mem_moved_iff (here : Trail) (l : Layers) (hl : l.Sound) (u q : Trail) :
    (u, q) ∈ (l.merged here).moved ↔
      ∃ t m y, q = here ++ t ∧ l.at? here t = some m ∧ m.upper? = some (u, y) := by
  induction here, l, hl using below_induction with
  | step here l hl ih =>
    rw [mem_moved_step here l hl]
    constructor
    · rintro (⟨rfl, y, h⟩ | ⟨s, m, hm, h⟩)
      · exact ⟨[], l, y, (List.append_nil _).symm, rfl, h⟩
      · obtain ⟨t, n, y, rfl, hn, h⟩ := (ih s m hm).mp h
        exact ⟨s :: t, n, y, by simp, by rw [at?_cons, hm]; exact hn, h⟩
    · rintro ⟨t, n, y, rfl, hn, h⟩
      cases t with
      | nil => cases hn; exact .inl ⟨List.append_nil _, y, h⟩
      | cons s t =>
        obtain ⟨m, hm, hn⟩ := Option.bind_eq_some_iff.mp hn
        exact .inr ⟨s, m, hm, (ih s m hm).mpr ⟨t, n, y, by simp, hn, h⟩⟩

end Layers

end Provision.Merge
