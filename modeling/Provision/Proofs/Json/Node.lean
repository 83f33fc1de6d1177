import Provision.Provenance

/-!
# Nodes of a value

A trail leads from the root of a value to one of its nodes, step by step. Objects are looked up by
key, so a value is well formed only if no object has two members of one key.

* `Json.at?`: the node at a trail, and how it splits along the trail (`Json.at?_append`).
* `Json.isDistinct`: no object has two members of one key; then a member is what its key leads to
  (`Json.lookup_eq_some_iff`).
* `Provenance.mem_missing_iff`: what is missing are the nodes with content, but the root, that have
  no origin; `Provenance.missing_eq_nil_iff`: when nothing is missing.
-/

set_option autoImplicit false

/-! ## Look-up in lists -/

namespace List

theorem mem_of_lookup_eq_some {α β : Type} [BEq α] [LawfulBEq α] {k : α} {x : β}
    {entries : List (α × β)} (h : entries.lookup k = some x) : (k, x) ∈ entries := by
  obtain ⟨l₁, l₂, rfl, -⟩ := List.lookup_eq_some_iff.mp h
  exact List.mem_append_right _ List.mem_cons_self

theorem lookup_eq_some_iff_mem {α β : Type} [BEq α] [LawfulBEq α] {k : α} {x : β}
    {entries : List (α × β)} (hd : (entries.map Prod.fst).Nodup) :
    entries.lookup k = some x ↔ (k, x) ∈ entries := by
  refine ⟨mem_of_lookup_eq_some, fun h => ?_⟩
  induction entries with
  | nil => cases h
  | cons e rest ih =>
    rw [List.map_cons, List.nodup_cons] at hd
    rcases List.mem_cons.mp h with rfl | h
    · exact List.lookup_cons_self
    · have hne : (k == e.1) = false :=
        beq_eq_false_iff_ne.mpr fun he => hd.1 (List.mem_map.mpr ⟨_, h, he⟩)
      rw [List.lookup_cons, hne]
      exact ih hd.2 h

/-- What is found in a list under names that are all different is found at one place. -/
theorem eq_of_nodup_filterMap {α β γ : Type} {f : α → Option (β × γ)} {entries : List α}
    (hd : ((entries.filterMap f).map Prod.fst).Nodup) {a b : α} (ha : a ∈ entries)
    (hb : b ∈ entries) {k : β} {x y : γ} (hx : f a = some (k, x)) (hy : f b = some (k, y)) :
    a = b := by
  have mem : ∀ {rest : List α} {c : α} {z : γ}, c ∈ rest → f c = some (k, z) →
      k ∈ (rest.filterMap f).map Prod.fst := fun hc hz =>
    List.mem_map.mpr ⟨_, List.mem_filterMap.mpr ⟨_, hc, hz⟩, rfl⟩
  induction entries with
  | nil => cases ha
  | cons e rest ih =>
    rcases List.mem_cons.mp ha with rfl | ha' <;> rcases List.mem_cons.mp hb with rfl | hb'
    · rfl
    · rw [List.filterMap_cons_some hx, List.map_cons, List.nodup_cons] at hd
      exact absurd (mem hb' hy) hd.1
    · rw [List.filterMap_cons_some hy, List.map_cons, List.nodup_cons] at hd
      exact absurd (mem ha' hx) hd.1
    · refine ih ?_ ha' hb'
      cases he : f e with
      | none => rwa [List.filterMap_cons_none he] at hd
      | some z =>
        rw [List.filterMap_cons_some he, List.map_cons, List.nodup_cons] at hd
        exact hd.2

end List

namespace Provision

namespace Json

/-- The node one step below a value. -/
def child? : Segment → Json → Option Json
  | .key k, x => x.get? k
  | .index i, x => x.item? i

/-- The node of a value at a trail. -/
def at? : Trail → Json → Option Json
  | [], x => some x
  | s :: t, x => (x.child? s).bind (at? t)

/-- Whether a value is a text, a number or a truth value. -/
def isScalar : Json → Bool
  | .str _ | .num _ | .bool _ => true
  | _ => false

/-- Whether two values are containers of the same kind. -/
def sameContainer : Json → Json → Bool
  | .obj _, .obj _ | .arr _, .arr _ => true
  | _, _ => false

/-! ## Trails -/

@[simp] theorem at?_nil (x : Json) : x.at? [] = some x := rfl

@[simp] theorem at?_cons (s : Segment) (t : Trail) (x : Json) :
    x.at? (s :: t) = (x.child? s).bind (at? t) := rfl

theorem at?_cons_of_child {s : Segment} {x y : Json} (h : x.child? s = some y) (t : Trail) :
    x.at? (s :: t) = y.at? t := by
  rw [at?_cons, h, Option.bind_some]

/-- A trail of two parts leads to a node of a node. -/
theorem at?_append (t u : Trail) (x : Json) : x.at? (t ++ u) = (x.at? t).bind (at? u) := by
  induction t generalizing x with
  | nil => rfl
  | cons s t ih =>
    rw [List.cons_append, at?_cons, at?_cons]
    cases x.child? s with
    | none => rfl
    | some y => exact ih y

/-- The items of a list that is made item by item. -/
theorem at?_index_map {α : Type} {f : α → Json} {items : List α} {place : Trail} {x : Json}
    (h : x.at? place = some (.arr (items.map f))) (i : Nat) :
    x.at? (place.index i) = items[i]?.map f := by
  rw [Trail.index, at?_append, h, Option.bind_some]
  change (items.map f)[i]?.bind some = _
  rw [List.getElem?_map]
  cases items[i]? <;> rfl

/-- What is in the list of a node that may be missing is at its trail. -/
theorem at?_of_items {x y : Json} {k l : String} {i : Nat}
    (h : ((((x.get? k).bind (·.get? l)).bind items?).getD [])[i]? = some y) :
    x.at? [.key k, .key l, .index i] = some y := by
  cases hk : x.get? k with
  | none =>
    rw [hk] at h
    cases h
  | some z =>
    rw [hk, Option.bind_some] at h
    cases hl : z.get? l with
    | none =>
      rw [hl] at h
      cases h
    | some list =>
      rw [hl, Option.bind_some] at h
      rw [@at?_cons_of_child (.key k) _ _ hk, @at?_cons_of_child (.key l) _ _ hl]
      cases list with
      | arr items => exact @at?_cons_of_child (.index i) (.arr items) y h []
      | _ => cases h

@[simp] theorem child?_key_obj (k : String) (members : List (String × Json)) :
    child? (.key k) (.obj members) = lookup k members := rfl

@[simp] theorem child?_index_arr (i : Nat) (items : List Json) :
    child? (.index i) (.arr items) = items[i]? := rfl

@[simp] theorem child?_key_arr (k : String) (items : List Json) :
    child? (.key k) (.arr items) = none := rfl

@[simp] theorem child?_index_obj (i : Nat) (members : List (String × Json)) :
    child? (.index i) (.obj members) = none := rfl

/-- Only containers have anything below them. -/
theorem child?_of_isScalar {x : Json} (h : x.isScalar = true) (s : Segment) :
    x.child? s = none := by
  cases x <;> cases s <;> first | rfl | simp [isScalar] at h

@[simp] theorem child?_null (s : Segment) : child? s .null = none := by
  cases s <;> rfl

@[simp] theorem child?_str (s : Segment) (text : String) : child? s (.str text) = none :=
  child?_of_isScalar rfl s

@[simp] theorem child?_num (s : Segment) (n : Number) : child? s (.num n) = none :=
  child?_of_isScalar rfl s

@[simp] theorem child?_bool (s : Segment) (b : Bool) : child? s (.bool b) = none :=
  child?_of_isScalar rfl s

/-- Null has no content, so what has content is something. -/
theorem ne_null_of_not_isEmpty {x : Json} (h : x.isEmpty = false) : x ≠ .null := by
  rintro rfl
  cases h

/-- A value with something below it is not empty. -/
theorem not_isEmpty_of_child {s : Segment} {x y : Json} (h : x.child? s = some y) :
    x.isEmpty = false := by
  cases x with
  | arr items =>
    cases items with
    | nil => cases s <;> simp at h
    | cons => rfl
  | obj members =>
    cases members with
    | nil => cases s <;> simp [lookup] at h
    | cons => rfl
  | _ => cases s <;> cases h

/-- What has no content has nothing of content in it. -/
theorem isEmpty_of_at {x y : Json} {t : Trail} (h : x.isEmpty = true) (hy : x.at? t = some y) :
    y.isEmpty = true := by
  cases t with
  | nil =>
    cases hy
    exact h
  | cons s t =>
    obtain ⟨z, hz, -⟩ := Option.bind_eq_some_iff.mp hy
    rw [not_isEmpty_of_child hz] at h
    cases h

theorem mem_of_lookup {k : String} {x : Json} {members : List (String × Json)}
    (h : lookup k members = some x) : (k, x) ∈ members :=
  List.mem_of_lookup_eq_some h

theorem sizeOf_child_lt {s : Segment} {x y : Json} (h : x.child? s = some y) :
    sizeOf y < sizeOf x := by
  cases x with
  | arr items =>
    cases s with
    | key => cases h
    | index i =>
      have := List.sizeOf_lt_of_mem (List.mem_of_getElem? h)
      simp only [arr.sizeOf_spec]
      omega
  | obj members =>
    cases s with
    | index => cases h
    | key k =>
      have := List.sizeOf_lt_of_mem (mem_of_lookup h)
      simp only [obj.sizeOf_spec, Prod.mk.sizeOf_spec] at this ⊢
      omega
  | _ => cases s <;> cases h

/-- Induction on a value: what holds of a value if it holds of all that is one step below it holds
of every value. -/
@[elab_as_elim]
theorem child_induction {P : Json → Prop}
    (step : ∀ x, (∀ s y, x.child? s = some y → P y) → P x) (x : Json) : P x :=
  step x fun _ y _ => child_induction step y
termination_by sizeOf x
decreasing_by exact sizeOf_child_lt ‹_›

/-! ## Members of distinct keys -/

mutual

/-- Whether no object of a value has two members of one key. -/
def isDistinct : Json → Bool
  | .arr items => isDistinctItems items
  | .obj members => isDistinctMembers members
  | _ => true

/-- Whether this holds of every item. -/
def isDistinctItems : List Json → Bool
  | [] => true
  | x :: rest => isDistinct x && isDistinctItems rest

/-- Whether this holds of members and what is in them. -/
def isDistinctMembers : List (String × Json) → Bool
  | [] => true
  | (k, x) :: rest => (lookup k rest).isNone && (isDistinct x && isDistinctMembers rest)

end

theorem lookup_eq_none_iff {k : String} {members : List (String × Json)} :
    lookup k members = none ↔ k ∉ members.map Prod.fst := by
  rw [lookup, List.lookup_eq_none_iff]
  simp only [List.mem_map, not_exists, not_and, bne_iff_ne, ne_eq]
  exact ⟨fun h e he hk => h e he hk.symm, fun h e he hk => h e he hk.symm⟩

/-- Where keys are distinct, a member is what its key leads to. -/
theorem lookup_eq_some_iff {k : String} {x : Json} {members : List (String × Json)}
    (hd : (members.map Prod.fst).Nodup) : lookup k members = some x ↔ (k, x) ∈ members :=
  List.lookup_eq_some_iff_mem hd

theorem isDistinctItems_iff {items : List Json} :
    isDistinctItems items = true ↔ ∀ x ∈ items, x.isDistinct = true := by
  induction items with
  | nil => simp [isDistinctItems]
  | cons x rest ih => simp [isDistinctItems, ih]

theorem isDistinctMembers_iff {members : List (String × Json)} :
    isDistinctMembers members = true ↔
      (members.map Prod.fst).Nodup ∧ ∀ e ∈ members, e.2.isDistinct = true := by
  induction members with
  | nil => simp [isDistinctMembers]
  | cons e rest ih =>
    obtain ⟨k, x⟩ := e
    rw [isDistinctMembers, Bool.and_eq_true, Bool.and_eq_true, Option.isNone_iff_eq_none,
      lookup_eq_none_iff, ih, List.map_cons, List.nodup_cons, List.forall_mem_cons]
    exact ⟨fun ⟨hk, hx, hn, hr⟩ => ⟨⟨hk, hn⟩, hx, hr⟩, fun ⟨⟨hk, hn⟩, hx, hr⟩ => ⟨hk, hx, hn, hr⟩⟩

@[simp] theorem isDistinct_arr {items : List Json} :
    (arr items).isDistinct = true ↔ ∀ x ∈ items, x.isDistinct = true := by
  rw [isDistinct, isDistinctItems_iff]

@[simp] theorem isDistinct_obj {members : List (String × Json)} :
    (obj members).isDistinct = true ↔
      (members.map Prod.fst).Nodup ∧ ∀ e ∈ members, e.2.isDistinct = true := by
  rw [isDistinct, isDistinctMembers_iff]

/-- What lies below a value with distinct keys has distinct keys. -/
theorem isDistinct_of_child {s : Segment} {x y : Json} (hx : x.isDistinct = true)
    (h : x.child? s = some y) : y.isDistinct = true := by
  cases x with
  | arr items =>
    cases s with
    | key => cases h
    | index i => exact isDistinct_arr.mp hx y (List.mem_of_getElem? h)
  | obj members =>
    cases s with
    | index => cases h
    | key k => exact (isDistinct_obj.mp hx).2 _ (mem_of_lookup h)
  | _ => cases s <;> cases h

theorem isDistinct_of_isEmpty {x : Json} (h : x.isEmpty = true) : x.isDistinct = true := by
  cases x with
  | arr items =>
    cases List.isEmpty_iff.mp h
    rfl
  | obj members =>
    cases List.isEmpty_iff.mp h
    rfl
  | _ => rfl

theorem isDistinct_of_at {t : Trail} {x y : Json} (hx : x.isDistinct = true)
    (h : x.at? t = some y) : y.isDistinct = true := by
  induction t generalizing x with
  | nil => cases h; exact hx
  | cons s t ih =>
    rw [at?_cons, Option.bind_eq_some_iff] at h
    obtain ⟨z, hz, h⟩ := h
    exact ih (isDistinct_of_child hx hz) h

end Json

/-! ## Parts without an origin -/

namespace Provenance

theorem unknown_eq_nil_iff (p : Provenance) (t : Trail) :
    p.unknown t = [] ↔ t = [] ∨ (p.find? t).isSome = true := by
  rw [unknown]
  split
  · next h => simpa [List.isEmpty_iff] using h
  · next h => simpa [List.isEmpty_iff] using h

/-- Every node of a value at `here` with content has an origin, unless it is the root. -/
def Covers (p : Provenance) (here : Trail) (x : Json) : Prop :=
  ∀ t y, x.at? t = some y → y.isEmpty = false → here ++ t = [] ∨ (p.find? (here ++ t)).isSome

/-- A node of a value that is covered is covered. -/
theorem Covers.at {p : Provenance} {here t : Trail} {x y : Json} (h : p.Covers here x)
    (hy : x.at? t = some y) : p.Covers (here ++ t) y := by
  intro u z hz hne
  rw [List.append_assoc]
  refine h (t ++ u) z ?_ hne
  rw [Json.at?_append, hy]
  exact hz

theorem covers_of_isEmpty (p : Provenance) (here : Trail) {x : Json} (h : x.isEmpty = true) :
    p.Covers here x := by
  intro t y hy he
  rw [Json.isEmpty_of_at h hy] at he
  cases he

theorem missingItems_eq_nil_iff (p : Provenance) (here : Trail) (position : Nat)
    (items : List Json) :
    p.missingItems here position items = [] ↔
      ∀ i x, items[i]? = some x → p.missingAt (here.index (position + i)) x = [] := by
  induction items generalizing position with
  | nil => simp [missingItems]
  | cons y rest ih =>
    rw [missingItems, List.append_eq_nil_iff, ih]
    constructor
    · rintro ⟨h0, h⟩ i x hx
      cases i with
      | zero => cases hx; exact h0
      | succ i => simpa [Nat.add_assoc, Nat.add_comm 1 i] using h i x hx
    · intro h
      refine ⟨h 0 y rfl, fun i x hx => ?_⟩
      simpa [Nat.add_assoc, Nat.add_comm 1 i] using h (i + 1) x hx

theorem missingMembers_eq_nil_iff (p : Provenance) (here : Trail)
    (members : List (String × Json)) :
    p.missingMembers here members = [] ↔
      ∀ e ∈ members, p.missingAt (here.key e.1) e.2 = [] := by
  induction members with
  | nil => simp [missingMembers]
  | cons e rest ih =>
    obtain ⟨k, x⟩ := e
    rw [missingMembers, List.append_eq_nil_iff, ih, List.forall_mem_cons]

/-- The nodes of a value have origins exactly if it has one itself and what is below it is
covered. -/
theorem covers_iff (p : Provenance) (here : Trail) (x : Json) :
    p.Covers here x ↔
      (x.isEmpty = false → here = [] ∨ (p.find? here).isSome = true) ∧
        ∀ s y, x.child? s = some y → p.Covers (here ++ [s]) y := by
  constructor
  · refine fun h => ⟨fun he => ?_, fun s y hy t z hz he => ?_⟩
    · simpa using h [] x rfl he
    · rw [List.append_assoc]
      exact h (s :: t) z ((Json.at?_cons_of_child hy t).trans hz) he
  · rintro ⟨h0, h⟩ t y hy he
    cases t with
    | nil => cases hy; simpa using h0 he
    | cons s t =>
      rw [Json.at?_cons, Option.bind_eq_some_iff] at hy
      obtain ⟨z, hz, hy⟩ := hy
      simpa using h s z hz t y hy he

theorem mem_unknown_iff (p : Provenance) (here t : Trail) :
    t ∈ p.unknown here ↔ t = here ∧ t ≠ [] ∧ p.find? t = none := by
  rw [unknown]
  split
  · next h =>
    refine ⟨nofun, ?_⟩
    rintro ⟨rfl, hne, hnone⟩
    simp [hne, hnone] at h
  · next h =>
    rw [List.mem_singleton]
    refine ⟨?_, And.left⟩
    rintro rfl
    simpa using h

theorem mem_missingItems_iff (p : Provenance) (here t : Trail) (position : Nat)
    (items : List Json) :
    t ∈ p.missingItems here position items ↔
      ∃ i x, items[i]? = some x ∧ t ∈ p.missingAt (here.index (position + i)) x := by
  induction items generalizing position with
  | nil => simp [missingItems]
  | cons y rest ih =>
    rw [missingItems, List.mem_append, ih]
    constructor
    · rintro (h | ⟨i, x, hx, h⟩)
      · exact ⟨0, y, rfl, h⟩
      · refine ⟨i + 1, x, hx, ?_⟩
        rwa [Nat.add_assoc, Nat.add_comm 1 i] at h
    · rintro ⟨i, x, hx, h⟩
      cases i with
      | zero => cases hx; exact .inl h
      | succ i =>
        refine .inr ⟨i, x, hx, ?_⟩
        rwa [Nat.add_assoc, Nat.add_comm 1 i]

theorem mem_missingMembers_iff (p : Provenance) (here t : Trail)
    (members : List (String × Json)) :
    t ∈ p.missingMembers here members ↔ ∃ e ∈ members, t ∈ p.missingAt (here.key e.1) e.2 := by
  induction members with
  | nil => simp [missingMembers]
  | cons e rest ih =>
    rw [missingMembers, List.mem_append, ih]
    simp

/-- What is missing in a value is its own origin, if it has content, or missing one step below. -/
theorem mem_missingAt_step {p : Provenance} {here t : Trail} {x : Json}
    (hx : x.isDistinct = true) : t ∈ p.missingAt here x ↔
      (x.isEmpty = false ∧ t ∈ p.unknown here) ∨
        ∃ s y, x.child? s = some y ∧ t ∈ p.missingAt (here ++ [s]) y := by
  cases x with
  | arr items =>
    have parts : (∃ s y, (Json.arr items).child? s = some y ∧ t ∈ p.missingAt (here ++ [s]) y) ↔
        t ∈ p.missingItems here 0 items := by
      rw [mem_missingItems_iff]
      constructor
      · rintro ⟨s, y, hy, h⟩
        cases s with
        | key => cases hy
        | index i => exact ⟨i, y, hy, by rwa [Nat.zero_add]⟩
      · rintro ⟨i, y, hy, h⟩
        rw [Nat.zero_add] at h
        exact ⟨.index i, y, hy, h⟩
    rw [parts, missingAt]
    cases items with
    | nil => simp [Json.isEmpty, missingItems]
    | cons => simp [Json.isEmpty]
  | obj members =>
    have parts : (∃ s y, (Json.obj members).child? s = some y ∧ t ∈ p.missingAt (here ++ [s]) y) ↔
        t ∈ p.missingMembers here members := by
      rw [mem_missingMembers_iff]
      constructor
      · rintro ⟨s, y, hy, h⟩
        cases s with
        | index => cases hy
        | key k => exact ⟨_, Json.mem_of_lookup hy, h⟩
      · rintro ⟨⟨k, y⟩, he, h⟩
        exact ⟨.key k, y, (Json.lookup_eq_some_iff (Json.isDistinct_obj.mp hx).1).mpr he, h⟩
    rw [parts, missingAt]
    cases members with
    | nil => simp [Json.isEmpty, missingMembers]
    | cons => simp [Json.isEmpty]
  | str s =>
    rw [missingAt]
    cases hs : s.isEmpty <;> simp [Json.isEmpty, hs]
  | null => simp [missingAt, Json.isEmpty]
  | num n => simp [missingAt, Json.isEmpty]
  | bool b => simp [missingAt, Json.isEmpty]

/-- **What is missing are the nodes with content, but the root, that have no origin.** -/
theorem mem_missingAt_iff (p : Provenance) (here : Trail) (x : Json) (hx : x.isDistinct = true)
    {t : Trail} : t ∈ p.missingAt here x ↔
      ∃ u y, x.at? u = some y ∧ y.isEmpty = false ∧ t = here ++ u ∧ t ≠ [] ∧
        p.find? t = none := by
  induction x using Json.child_induction generalizing here with
  | step x ih =>
    rw [mem_missingAt_step hx, mem_unknown_iff]
    constructor
    · rintro (⟨hne, rfl, h⟩ | ⟨s, y, hy, h⟩)
      · exact ⟨[], x, rfl, hne, (List.append_nil _).symm, h⟩
      · obtain ⟨u, z, hz, hne, rfl, h⟩ :=
          (ih s y hy _ (Json.isDistinct_of_child hx hy)).mp h
        refine ⟨s :: u, z, (Json.at?_cons_of_child hy u).trans hz, hne, ?_, h⟩
        rw [List.append_assoc, List.singleton_append]
    · rintro ⟨u, z, hz, hne, rfl, h⟩
      cases u with
      | nil =>
        cases hz
        exact .inl ⟨hne, List.append_nil _, h⟩
      | cons s u =>
        obtain ⟨y, hy, hz⟩ := Option.bind_eq_some_iff.mp hz
        refine .inr ⟨s, y, hy, (ih s y hy _ (Json.isDistinct_of_child hx hy)).mpr
          ⟨u, z, hz, hne, ?_, h⟩⟩
        rw [List.append_assoc, List.singleton_append]

/-- **Nothing is missing exactly if every node with content but the root has an origin.** -/
theorem missingAt_eq_nil_iff (p : Provenance) (here : Trail) (x : Json)
    (hx : x.isDistinct = true) : p.missingAt here x = [] ↔ p.Covers here x := by
  rw [List.eq_nil_iff_forall_not_mem]
  constructor
  · intro h t y hy hne
    refine Decidable.or_iff_not_imp_left.mpr fun hroot => ?_
    cases hfind : p.find? (here ++ t) with
    | some => rfl
    | none =>
      exact absurd ((mem_missingAt_iff p here x hx).mpr ⟨t, y, hy, hne, rfl, hroot, hfind⟩) (h _)
  · intro h t ht
    obtain ⟨u, y, hy, hne, rfl, hroot, hnone⟩ := (mem_missingAt_iff p here x hx).mp ht
    rcases h u y hy hne with hnil | hsome
    · exact hroot hnil
    · rw [hnone] at hsome
      cases hsome

theorem mem_missing_iff (p : Provenance) {x : Json} (hx : x.isDistinct = true) {t : Trail} :
    t ∈ p.missing x ↔ ∃ y, x.at? t = some y ∧ y.isEmpty = false ∧ t ≠ [] ∧ p.find? t = none := by
  rw [missing, mem_missingAt_iff p [] x hx]
  constructor
  · rintro ⟨u, y, hy, hne, rfl, h⟩
    exact ⟨y, hy, hne, h⟩
  · rintro ⟨y, hy, hne, h⟩
    exact ⟨t, y, hy, hne, rfl, h⟩

theorem missing_eq_nil_iff (p : Provenance) (x : Json) (hx : x.isDistinct = true) :
    p.missing x = [] ↔ p.Covers [] x :=
  missingAt_eq_nil_iff p [] x hx

end Provenance

end Provision
