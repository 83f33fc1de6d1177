import Provision.Proofs.Json.Node

/-!
# Shapes of values

A shape says where a value may have objects, which keys they know, and where it may have lists.

* `Shape.Fits`: a value has nothing that its shape does not know.
* `Shape.Full`: a value has all that its shape knows, as records are written that leave out nothing.
-/

set_option autoImplicit false

namespace Provision

/-- The shape of a value: no container, a list of values of one shape, or an object with some keys,
each for values of a shape of its own. -/
inductive Shape where
  | leaf
  | list (item : Shape)
  | record (fields : List (String × Shape))
  deriving Repr

namespace Shape

/-- The shape one step below. -/
def child? : Segment → Shape → Option Shape
  | .key k, .record fields => fields.lookup k
  | .index _, .list item => some item
  | _, _ => none

/-- The shape at a trail. -/
def at? : Trail → Shape → Option Shape
  | [], s => some s
  | step :: t, s => (s.child? step).bind (at? t)

/-- Whether a value is of the kind that a shape asks for, whatever is in it. -/
def allows : Shape → Json → Bool
  | .list _, .arr _ | .record _, .obj _ => true
  | .leaf, .arr _ | .leaf, .obj _ => false
  | .leaf, _ => true
  | _, _ => false

@[simp] theorem at?_nil (s : Shape) : s.at? [] = some s := rfl

@[simp] theorem at?_cons (step : Segment) (t : Trail) (s : Shape) :
    s.at? (step :: t) = (s.child? step).bind (at? t) := rfl

@[simp] theorem child?_key_record (k : String) (fields : List (String × Shape)) :
    child? (.key k) (.record fields) = fields.lookup k := rfl

@[simp] theorem child?_index_list (i : Nat) (s : Shape) : child? (.index i) (.list s) = some s :=
  rfl

theorem at?_append (t u : Trail) (s : Shape) : s.at? (t ++ u) = (s.at? t).bind (at? u) := by
  induction t generalizing s with
  | nil => rfl
  | cons step t ih =>
    rw [List.cons_append, at?_cons, at?_cons]
    cases s.child? step with
    | none => rfl
    | some s' => exact ih s'

/-! ## Values that fit -/

/-- Every node of a value has a shape, and is of a kind that the shape allows. -/
def Fits (s : Shape) (v : Json) : Prop :=
  ∀ t x, v.at? t = some x → ∃ s', s.at? t = some s' ∧ s'.allows x = true

theorem Fits.allows {s : Shape} {v : Json} (h : s.Fits v) : s.allows v = true := by
  obtain ⟨s', hs, ha⟩ := h [] v rfl
  cases hs
  exact ha

theorem Fits.child {s : Shape} {v x : Json} {step : Segment} (h : s.Fits v)
    (hx : v.child? step = some x) : ∃ s', s.child? step = some s' ∧ s'.Fits x := by
  obtain ⟨s', hs, -⟩ := h [step] x (Json.at?_cons_of_child hx [])
  rw [at?_cons, Option.bind_eq_some_iff] at hs
  obtain ⟨s'', hs'', -⟩ := hs
  refine ⟨s'', hs'', fun t y hy => ?_⟩
  obtain ⟨r, hr, ha⟩ := h (step :: t) y ((Json.at?_cons_of_child hx t).trans hy)
  rw [at?_cons, hs'', Option.bind_some] at hr
  exact ⟨r, hr, ha⟩

theorem Fits.at {s : Shape} {v x : Json} {t : Trail} (h : s.Fits v) (hx : v.at? t = some x) :
    ∃ s', s.at? t = some s' ∧ s'.Fits x := by
  induction t generalizing s v with
  | nil =>
    cases hx
    exact ⟨s, rfl, h⟩
  | cons step t ih =>
    obtain ⟨y, hy, hx⟩ := Option.bind_eq_some_iff.mp hx
    obtain ⟨s', hs', hf⟩ := h.child hy
    obtain ⟨s'', hs'', hf⟩ := ih hf hx
    exact ⟨s'', by rw [at?_cons, hs']; exact hs'', hf⟩

/-- A value fits if it is of a kind that the shape allows and all that is one step below fits. -/
theorem fits_of_child {s : Shape} {v : Json} (ha : s.allows v = true)
    (hc : ∀ step x, v.child? step = some x → ∃ s', s.child? step = some s' ∧ s'.Fits x) :
    s.Fits v := by
  intro t x hx
  cases t with
  | nil =>
    cases hx
    exact ⟨s, rfl, ha⟩
  | cons step t =>
    obtain ⟨y, hy, hx⟩ := Option.bind_eq_some_iff.mp hx
    obtain ⟨s', hs', hf⟩ := hc step y hy
    obtain ⟨s'', hs'', ha⟩ := hf t x hx
    exact ⟨s'', by rw [at?_cons, hs']; exact hs'', ha⟩

/-- What has nothing below it fits where its kind is allowed. -/
theorem fits_of_no_child {s : Shape} {v : Json} (ha : s.allows v = true)
    (hc : ∀ step, v.child? step = none) : s.Fits v :=
  fits_of_child ha fun step x hx => by rw [hc step] at hx; cases hx

theorem fits_leaf {v : Json} (h : v.isScalar = true ∨ v = .null) : leaf.Fits v := by
  rcases h with h | rfl
  · refine fits_of_no_child ?_ fun step => Json.child?_of_isScalar h step
    cases v <;> first | rfl | cases h
  · exact fits_of_no_child rfl fun step => Json.child?_null step

theorem fits_list {s : Shape} {items : List Json} (h : ∀ x ∈ items, s.Fits x) :
    (list s).Fits (.arr items) := by
  refine fits_of_child rfl fun step x hx => ?_
  cases step with
  | key => cases hx
  | index i => exact ⟨s, rfl, h x (List.mem_of_getElem? hx)⟩

theorem fits_record {fields : List (String × Shape)} {members : List (String × Json)}
    (h : ∀ k x, Json.lookup k members = some x → ∃ s, fields.lookup k = some s ∧ s.Fits x) :
    (record fields).Fits (.obj members) := by
  refine fits_of_child rfl fun step x hx => ?_
  cases step with
  | key k => exact h k x hx
  | index => cases hx

theorem fits_obj {fields : List (String × Shape)} {members : List (String × Json)}
    (h : ∀ e ∈ members, ∃ s, fields.lookup e.1 = some s ∧ s.Fits e.2) :
    (record fields).Fits (.obj members) :=
  fits_record fun k x hx => h (k, x) (Json.mem_of_lookup hx)

@[simp] theorem fits_str (text : String) : leaf.Fits (.str text) := fits_leaf (.inl rfl)

@[simp] theorem fits_bool (b : Bool) : leaf.Fits (.bool b) := fits_leaf (.inl rfl)

@[simp] theorem fits_int (n : Int) : leaf.Fits (.int n) := fits_leaf (.inl rfl)

/-- Only what is no container is asked to be a leaf. -/
theorem eq_leaf_of_isScalar {s : Shape} {v : Json} (h : s.Fits v) (hv : v.isScalar = true) :
    s = leaf := by
  have ha := h.allows
  cases s <;> cases v <;> first | rfl | (cases ha; done) | cases hv

theorem Fits.eq_arr {s : Shape} {v : Json} (h : (list s).Fits v) : ∃ items, v = .arr items := by
  have ha := h.allows
  cases v with
  | arr items => exact ⟨items, rfl⟩
  | _ => cases ha

theorem Fits.eq_obj {fields : List (String × Shape)} {v : Json} (h : (record fields).Fits v) :
    ∃ members, v = .obj members := by
  have ha := h.allows
  cases v with
  | obj members => exact ⟨members, rfl⟩
  | _ => cases ha

/-- What is below a value of a known shape has the shape that lies there. -/
theorem Fits.child_of {s s' : Shape} {v x : Json} {step : Segment} (h : s.Fits v)
    (hx : v.child? step = some x) (hs : s.child? step = some s') : s'.Fits x := by
  obtain ⟨s'', hs'', hf⟩ := h.child hx
  cases hs.symm.trans hs''
  exact hf

theorem Fits.at_of {s s' : Shape} {v x : Json} {t : Trail} (h : s.Fits v) (hx : v.at? t = some x)
    (hs : s.at? t = some s') : s'.Fits x := by
  obtain ⟨s'', hs'', hf⟩ := h.at hx
  cases hs.symm.trans hs''
  exact hf

/-! ## Values that are put together -/

/-- A value of a shape in which no object has a key twice. -/
def Takes (s : Shape) (v : Json) : Prop := s.Fits v ∧ v.isDistinct = true

@[simp] theorem takes_str (text : String) : leaf.Takes (.str text) := ⟨fits_str text, rfl⟩

@[simp] theorem takes_bool (b : Bool) : leaf.Takes (.bool b) := ⟨fits_bool b, rfl⟩

@[simp] theorem takes_int (n : Int) : leaf.Takes (.int n) := ⟨fits_int n, rfl⟩

theorem takes_list {s : Shape} {items : List Json} (h : ∀ x ∈ items, s.Takes x) :
    (list s).Takes (.arr items) :=
  ⟨fits_list fun x hx => (h x hx).1, Json.isDistinct_arr.mpr fun x hx => (h x hx).2⟩

theorem takes_obj {fields : List (String × Shape)} {members : List (String × Json)}
    {names : List String} (hsub : (members.map Prod.fst).Sublist names) (hn : names.Nodup)
    (h : ∀ e ∈ members, ∃ s, fields.lookup e.1 = some s ∧ s.Takes e.2) :
    (record fields).Takes (.obj members) := by
  refine ⟨fits_obj fun e he => ?_, Json.isDistinct_obj.mpr ⟨hn.sublist hsub, fun e he => ?_⟩⟩
  · obtain ⟨s, hs, hf, -⟩ := h e he
    exact ⟨s, hs, hf⟩
  · obtain ⟨s, -, -, hd⟩ := h e he
    exact hd

/-- The name of a member that may be missing. -/
theorem names_toList {α : Type} (o : Option α) (k : String) (f : α → Json) :
    ((o.map fun x => (k, f x)).toList.map Prod.fst).Sublist [k] := by
  cases o with
  | none => exact List.nil_sublist _
  | some => exact .refl _

theorem forall_toList {α : Type} {o : Option α} {k : String} {f : α → Json}
    {P : String × Json → Prop} (h : ∀ x, P (k, f x)) :
    ∀ e ∈ (o.map fun x => (k, f x)).toList, P e := by
  cases o with
  | none => exact nofun
  | some x => exact List.forall_mem_singleton.mpr (h x)

/-! ## Values that are written in full -/

/-- The value is of the shape, and has every key that the shape knows, in the order of the
shape. -/
inductive Full : Shape → Json → Prop where
  | leaf {v : Json} (h : v.isScalar = true ∨ v = .null) : Full .leaf v
  | list {s : Shape} {items : List Json} (h : ∀ x ∈ items, Full s x) : Full (.list s) (.arr items)
  | record {fields : List (String × Shape)} {members : List (String × Json)}
      (hk : members.map Prod.fst = fields.map Prod.fst) (hn : (fields.map Prod.fst).Nodup)
      (h : ∀ k s x, fields.lookup k = some s → Json.lookup k members = some x → Full s x) :
      Full (.record fields) (.obj members)

theorem lookup_isSome_iff {α : Type} {k : String} {entries : List (String × α)} :
    (entries.lookup k).isSome = true ↔ k ∈ entries.map Prod.fst := by
  constructor
  · intro h
    obtain ⟨x, hx⟩ := Option.isSome_iff_exists.mp h
    exact List.mem_map_of_mem (List.mem_of_lookup_eq_some hx)
  · intro h
    obtain ⟨e, he, rfl⟩ := List.mem_map.mp h
    cases hl : entries.lookup e.1 with
    | some => rfl
    | none => simpa using List.lookup_eq_none_iff.mp hl e he

theorem Full.child {s : Shape} {v x : Json} {step : Segment} (h : s.Full v)
    (hx : v.child? step = some x) : ∃ s', s.child? step = some s' ∧ s'.Full x := by
  cases h with
  | leaf h =>
    rcases h with h | rfl
    · rw [Json.child?_of_isScalar h] at hx
      cases hx
    · simp at hx
  | list h =>
    cases step with
    | key => cases hx
    | index i => exact ⟨_, rfl, h x (List.mem_of_getElem? hx)⟩
  | @record fields members hk hn h =>
    cases step with
    | index => cases hx
    | key k =>
      have hm : (fields.lookup k).isSome = true := by
        rw [lookup_isSome_iff, ← hk, ← lookup_isSome_iff]
        exact Option.isSome_iff_exists.mpr ⟨x, hx⟩
      obtain ⟨s', hs'⟩ := Option.isSome_iff_exists.mp hm
      exact ⟨s', hs', h k s' x hs' hx⟩

theorem Full.at {s : Shape} {v x : Json} {t : Trail} (h : s.Full v) (hx : v.at? t = some x) :
    ∃ s', s.at? t = some s' ∧ s'.Full x := by
  induction t generalizing s v with
  | nil =>
    cases hx
    exact ⟨s, rfl, h⟩
  | cons step t ih =>
    obtain ⟨y, hy, hx⟩ := Option.bind_eq_some_iff.mp hx
    obtain ⟨s', hs', hf⟩ := h.child hy
    obtain ⟨s'', hs'', hf⟩ := ih hf hx
    exact ⟨s'', by rw [at?_cons, hs']; exact hs'', hf⟩

theorem Full.allows {s : Shape} {v : Json} (h : s.Full v) : s.allows v = true := by
  cases h with
  | leaf h =>
    rcases h with h | rfl
    · cases v <;> first | rfl | cases h
    · rfl
  | list => rfl
  | record => rfl

/-- What is written in full fits. -/
theorem Full.fits {s : Shape} {v : Json} (h : s.Full v) : s.Fits v := by
  intro t x hx
  obtain ⟨s', hs', hf⟩ := h.at hx
  exact ⟨s', hs', hf.allows⟩

theorem Full.isDistinct {s : Shape} {v : Json} (h : s.Full v) : v.isDistinct = true := by
  induction h with
  | leaf h =>
    rcases h with h | rfl
    · rename_i v
      cases v <;> first | rfl | cases h
    · rfl
  | list _ ih => exact Json.isDistinct_arr.mpr ih
  | @record fields members hk hn h ih =>
    refine Json.isDistinct_obj.mpr ⟨hk ▸ hn, fun e he => ?_⟩
    have hx := (Json.lookup_eq_some_iff (hk ▸ hn)).mpr he
    have hm : (fields.lookup e.1).isSome = true := by
      rw [lookup_isSome_iff, ← hk]
      exact List.mem_map_of_mem he
    obtain ⟨s', hs'⟩ := Option.isSome_iff_exists.mp hm
    exact ih e.1 s' e.2 hs' hx

/-- What is written in full has every key that its shape knows. -/
theorem Full.key {fields : List (String × Shape)} {v : Json} (h : Shape.Full (.record fields) v)
    {k : String} (hk : k ∈ fields.map Prod.fst) : ∃ x, v.child? (.key k) = some x := by
  cases h with
  | @record _ members hm hn h =>
    rw [← hm] at hk
    exact Option.isSome_iff_exists.mp (lookup_isSome_iff.mpr hk)

end Shape

end Provision
