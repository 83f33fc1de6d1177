import Provision.Proofs.Merge.Keyed
import Provision.Proofs.Outline
import Provision.Merge

/-!
# Values with origins laid over each other

A value and the origins of its nodes are laid over another one in one go when each node carries its
origin with it. Then nothing has to be said about places: entries that move take their origins
along.

* `Noted.lay`: a value with origins laid over another one.
* `Noted.keepsKeys_lay`: merged entries have the key that both had.
* `Noted.lay_assoc`: of three values of the same kinds it does not matter which two are merged
  first.
-/

set_option autoImplicit false

namespace Provision

/-! ## Kinds of nodes -/

/-- What a node can be besides null. -/
inductive Json.Kind where
  | scalar
  | list
  | object
  deriving DecidableEq, Repr

namespace Json

/-- The kind of a node, unless it is null. -/
def kind? : Json → Option Kind
  | .null => none
  | .bool _ | .num _ | .str _ => some .scalar
  | .arr _ => some .list
  | .obj _ => some .object

/-- The nodes of a value are of given kinds, which depend on their keys alone. Null may be
anywhere. -/
def Respects (kinds : Outline → Kind) (x : Json) : Prop :=
  ∀ t y k, x.at? t = some y → y.kind? = some k → kinds t.outline = k

theorem Respects.child {kinds : Outline → Kind} {x y : Json} {s : Segment} (h : x.Respects kinds)
    (hy : x.child? s = some y) : y.Respects fun o => kinds (s.key? :: o) := by
  intro t z k hz hk
  exact h (s :: t) z k ((at?_cons_of_child hy t).trans hz) hk

end Json

namespace Merge

/-! ## Values with origins -/

/-- A value with an origin at each of its nodes that has one. -/
inductive Noted where
  | null (note : Option Trail)
  | scalar (note : Option Trail) (x : Json) (h : x.isScalar = true)
  | arr (note : Option Trail) (items : List Noted)
  | obj (note : Option Trail) (members : List (String × Noted))

namespace Noted

mutual

/-- The value alone. -/
def bare : Noted → Json
  | .null _ => .null
  | .scalar _ x _ => x
  | .arr _ items => .arr (bareItems items)
  | .obj _ members => .obj (bareMembers members)

/-- The items alone. -/
def bareItems : List Noted → List Json
  | [] => []
  | x :: rest => bare x :: bareItems rest

/-- The members alone. -/
def bareMembers : List (String × Noted) → List (String × Json)
  | [] => []
  | (k, x) :: rest => (k, bare x) :: bareMembers rest

end

/-- The key of an entry of a list of some kind. -/
def key? (kind : Option KeyKind) (x : Noted) : Option String := kind.bind fun kd => keyOf? kd x.bare

mutual

/-- Lays a value over another one. A node of both has the origin that it has in the upper one, if it
has one there. -/
def lay (here : Outline) : (lower upper : Noted) → Noted
  | x, .null _ => x
  | .arr n items, .arr m others =>
    .arr (m.or n) (layItems here (keyKindAt here.trail) items others)
  | .obj n members, .obj m others => .obj (m.or n) (layMembers here members others)
  | _, y => y

/-- Lays items over others. -/
def layItems (here : Outline) (kind : Option KeyKind) : (lower upper : List Noted) → List Noted
  | [], upper => upper
  | x :: rest, upper => match takeSame (key? kind) x upper with
    | some (y, left) => lay (here ++ [none]) x y :: layItems here kind rest left
    | none => x :: layItems here kind rest upper

/-- Lays members over others. -/
def layMembers (here : Outline) : (lower upper : List (String × Noted)) → List (String × Noted)
  | [], upper => upper
  | (k, x) :: rest, upper => match takeSame nameOf (k, x) upper with
    | some (e, left) => (k, lay (here ++ [some k]) x e.2) :: layMembers here rest left
    | none => (k, x) :: layMembers here rest upper

end

/-- Lays a member over another one of its name. -/
def layMember (here : Outline) (e f : String × Noted) : String × Noted :=
  (e.1, lay (here ++ [some e.1]) e.2 f.2)

theorem layItems_eq (here : Outline) (kind : Option KeyKind) (lower upper : List Noted) :
    layItems here kind lower upper = layKeyed (key? kind) (lay (here ++ [none])) lower upper := by
  induction lower generalizing upper with
  | nil => rw [layItems, layKeyed_nil]
  | cons x rest ih =>
    rw [layItems, layKeyed]
    cases takeSame (key? kind) x upper with
    | none => simp only [ih]
    | some found => simp only [ih]

theorem layMembers_eq (here : Outline) (lower upper : List (String × Noted)) :
    layMembers here lower upper = layKeyed nameOf (layMember here) lower upper := by
  induction lower generalizing upper with
  | nil => rw [layMembers, layKeyed_nil]
  | cons e rest ih =>
    obtain ⟨k, x⟩ := e
    rw [layMembers, layKeyed]
    cases takeSame nameOf (k, x) upper with
    | none => simp only [ih]
    | some found => simp only [ih, layMember]

/-- Null changes nothing. -/
@[simp] theorem lay_null (here : Outline) (x : Noted) (m : Option Trail) :
    lay here x (.null m) = x := by
  cases x <;> rw [lay]

/-- A text, a number or a truth value takes the place of whatever it is laid over. -/
@[simp] theorem lay_scalar (here : Outline) (x : Noted) (m : Option Trail) (y : Json)
    (h : y.isScalar = true) : lay here x (.scalar m y h) = .scalar m y h := by
  cases x <;> rw [lay] <;> nofun

@[simp] theorem lay_arr (here : Outline) (n m : Option Trail) (items others : List Noted) :
    lay here (.arr n items) (.arr m others) =
      .arr (m.or n)
        (layKeyed (key? (keyKindAt here.trail)) (lay (here ++ [none])) items others) := by
  rw [lay, layItems_eq]

@[simp] theorem lay_obj (here : Outline) (n m : Option Trail)
    (members others : List (String × Noted)) :
    lay here (.obj n members) (.obj m others) =
      .obj (m.or n) (layKeyed nameOf (layMember here) members others) := by
  rw [lay, layMembers_eq]

/-! ## Keys of merged entries -/

/-- What is read off texts, numbers and truth values alone. -/
def OfScalars {α : Type} (read : Json → Option α) : Prop :=
  ∀ x a, read x = some a → x.isScalar = true

/-- What is read at a member of an entry. -/
def readAt {α : Type} (read : Json → Option α) (name : String) (x : Noted) : Option α :=
  (x.bare.get? name).bind read

section Read

variable {α : Type} {read : Json → Option α}

theorem lay_of_read (h : OfScalars read) {y : Noted} {a : α} (hy : read y.bare = some a)
    (here : Outline) (x : Noted) : lay here x y = y := by
  have hs := h _ _ hy
  cases y with
  | scalar m y hm => exact lay_scalar here x m y hm
  | null | arr | obj => cases hs

/-- Where nothing can be read off either value, nothing can be read off the merged one. -/
theorem read_lay_eq_none (h : OfScalars read) {x y : Noted} (hx : read x.bare = none)
    (hy : read y.bare = none) (here : Outline) : read (lay here x y).bare = none := by
  have container : ∀ {z : Json}, z.isScalar = false → read z = none := by
    intro z hz
    cases hr : read z with
    | none => rfl
    | some a => rw [h z a hr] at hz; cases hz
  cases y with
  | null m => rwa [lay_null]
  | scalar m y hm => rwa [lay_scalar]
  | arr m others =>
    cases x with
    | arr n items => rw [lay_arr]; exact container rfl
    | null | scalar | obj => exact container rfl
  | obj m others =>
    cases x with
    | obj n members => rw [lay_obj]; exact container rfl
    | null | scalar | arr => exact container rfl

theorem lookup_bareMembers (name : String) (members : List (String × Noted)) :
    Json.lookup name (bareMembers members) =
      (takeFirst nameOf name members).map fun e => e.1.2.bare := by
  induction members with
  | nil => rfl
  | cons e rest ih =>
    obtain ⟨k, x⟩ := e
    rw [bareMembers, Json.lookup, List.lookup_cons]
    by_cases hk : name = k
    · subst hk
      have hname : nameOf (name, x) = some name := rfl
      rw [takeFirst_cons_of_eq hname, beq_self_eq_true]
      rfl
    · have hne : nameOf (k, x) ≠ some name := fun h => hk (Option.some.inj h).symm
      rw [takeFirst_cons_of_ne hne, Option.map_map, beq_eq_false_iff_ne.mpr hk]
      exact ih

theorem readAt_obj (name : String) (n : Option Trail) (members : List (String × Noted)) :
    readAt read name (.obj n members) =
      (takeFirst nameOf name members).bind fun e => read e.1.2.bare := by
  rw [readAt, bare, Json.get?, lookup_bareMembers, Option.bind_map]
  rfl

theorem keepsKeys_layMember (here : Outline) : KeepsKeys nameOf (layMember here) :=
  fun _ _ _ h _ => h

/-- What can be read at a member of the upper entry is read there in the merged one. -/
theorem readAt_lay (h : OfScalars read) {name : String} {y : Noted} {a : α}
    (hy : readAt read name y = some a) (here : Outline) (x : Noted) :
    readAt read name (lay here x y) = some a := by
  cases y with
  | null | arr => cases hy
  | scalar m y hm => rwa [lay_scalar]
  | obj m others =>
    cases x with
    | null | scalar | arr => exact hy
    | obj n members =>
      rw [readAt_obj, Option.bind_eq_some_iff] at hy
      obtain ⟨⟨e, left⟩, he, hr⟩ := hy
      rw [lay_obj, readAt_obj, takeFirst_layKeyed (keepsKeys_layMember here), takeBoth, he]
      cases takeFirst nameOf name members with
      | none => exact hr
      | some found =>
        have hl := lay_of_read h hr (here ++ [some found.1.1]) found.1.2
        exact (congrArg (read ·.bare) hl).trans hr

/-- What can be read at a member of neither entry cannot be read there in the merged one. -/
theorem readAt_lay_eq_none (h : OfScalars read) {name : String} {x y : Noted}
    (hx : readAt read name x = none) (hy : readAt read name y = none) (here : Outline) :
    readAt read name (lay here x y) = none := by
  cases y with
  | null m => rwa [lay_null]
  | scalar m y hm => rwa [lay_scalar]
  | arr m others =>
    cases x with
    | arr n items => rw [lay_arr]; rfl
    | null | scalar | obj => exact hy
  | obj m others =>
    cases x with
    | null | scalar | arr => exact hy
    | obj n members =>
      rw [readAt_obj] at hx hy
      rw [lay_obj, readAt_obj, takeFirst_layKeyed (keepsKeys_layMember here), takeBoth]
      cases hf : takeFirst nameOf name members with
      | none =>
        cases hg : takeFirst nameOf name others with
        | none => rfl
        | some e => rw [hg] at hy; exact hy
      | some found =>
        rw [hf] at hx
        cases hg : takeFirst nameOf name others with
        | none => exact hx
        | some e => rw [hg] at hy; exact read_lay_eq_none h hx hy _

end Read

theorem ofScalars_text? : OfScalars Json.text? := by
  intro x a h
  cases x <;> first | rfl | cases h

/-- The number of a partition, unless it is 0. -/
def number? (x : Json) : Option Int := (Json.int64? x).filter (· ≠ 0)

theorem ofScalars_number? : OfScalars number? := by
  intro x a h
  cases x <;> first | rfl | cases h

theorem key?_partition (x : Noted) :
    key? (some .partition) x =
      match readAt Json.text? "label" x with
      | some label => some ("label:" ++ label)
      | none => (readAt number? "number" x).map fun n => "number:" ++ toString n := by
  rw [key?, Option.bind_some, keyOf?]
  change (match readAt Json.text? "label" x with | some _ => _ | none => _) = _
  cases readAt Json.text? "label" x with
  | some label => rfl
  | none =>
    rw [readAt]
    cases x.bare.get? "number" <;> rfl

/-- No partition is recognised by a label and another one of the same key by a number. -/
theorem label_ne_number (label number : String) : "label:" ++ label ≠ "number:" ++ number := by
  intro h
  have := congrArg (fun s => s.toList.head?) h
  simp at this

/-- **Merged entries have the key that both had.** -/
theorem keepsKeys_lay (kind : Option KeyKind) (here : Outline) :
    KeepsKeys (key? kind) (lay here) := by
  intro x y k hx hy
  cases kind with
  | none => cases hx
  | some kind =>
    cases kind with
    | field name => exact readAt_lay ofScalars_text? hy here x
    | scalar =>
      have hs : OfScalars (keyOf? .scalar) := by
        intro z a h
        cases z <;> first | rfl | cases h
      rw [lay_of_read hs hy]
      exact hy
    | partition =>
      rw [key?_partition] at hx hy ⊢
      cases hl : readAt Json.text? "label" y with
      | some label =>
        rw [hl] at hy
        rw [readAt_lay ofScalars_text? hl here x]
        exact hy
      | none =>
        rw [hl] at hy
        obtain ⟨n, hn, rfl⟩ := Option.map_eq_some_iff.mp hy
        cases hlx : readAt Json.text? "label" x with
        | some label =>
          rw [hlx] at hx
          exact absurd (Option.some.inj hx) (label_ne_number label _)
        | none =>
          rw [readAt_lay_eq_none ofScalars_text? hlx hl here,
            readAt_lay ofScalars_number? hn here x]
          rfl

/-! ## Three values -/

/-- The nodes of a value with origins are of given kinds. -/
inductive Agrees : (Outline → Json.Kind) → Noted → Prop where
  | null {kinds : Outline → Json.Kind} {n : Option Trail} : Agrees kinds (.null n)
  | scalar {kinds : Outline → Json.Kind} {n : Option Trail} {x : Json} {h : x.isScalar = true}
      (hk : kinds [] = .scalar) : Agrees kinds (.scalar n x h)
  | arr {kinds : Outline → Json.Kind} {n : Option Trail} {items : List Noted}
      (hk : kinds [] = .list) (hi : ∀ x ∈ items, Agrees (fun o => kinds (none :: o)) x) :
      Agrees kinds (.arr n items)
  | obj {kinds : Outline → Json.Kind} {n : Option Trail} {members : List (String × Noted)}
      (hk : kinds [] = .object)
      (hm : ∀ e ∈ members, Agrees (fun o => kinds (some e.1 :: o)) e.2) :
      Agrees kinds (.obj n members)

/-- Whether the value is null. -/
def isNull : Noted → Bool
  | .null _ => true
  | _ => false

/-- Whatever is not null takes the place of what is no container. -/
theorem lay_leaf {x : Noted} (hx : x.bare.sameContainer x.bare = false) (here : Outline)
    (y : Noted) : lay here x y = if y.isNull then x else y := by
  cases y with
  | null m => rw [lay_null]; rfl
  | scalar m y hm => rw [lay_scalar]; rfl
  | arr | obj =>
    cases x with
    | null | scalar => rfl
    | arr | obj => cases hx

theorem isNull_lay (here : Outline) (x y : Noted) :
    (lay here x y).isNull = (x.isNull && y.isNull) := by
  cases y with
  | null m => rw [lay_null]; exact (Bool.and_true _).symm
  | scalar m y hm => rw [lay_scalar]; exact (Bool.and_false _).symm
  | arr | obj => cases x <;> rfl

/-- Null is overridden by whatever overrides what is below it. -/
theorem lay_lay_null (here : Outline) (x : Noted) (m : Option Trail) (z : Noted) :
    lay here x (lay here (.null m) z) = lay here x z := by
  rw [lay_leaf (x := .null m) rfl]
  cases z with
  | null => exact (lay_null here x m).trans (lay_null here x _).symm
  | scalar | arr | obj => rfl

theorem lay_assoc_of_leaf {x : Noted} (hx : x.bare.sameContainer x.bare = false) (here : Outline)
    (y z : Noted) : lay here (lay here x y) z = lay here x (lay here y z) := by
  cases hy : y.isNull with
  | true =>
    cases y with
    | null m => rw [lay_null, lay_lay_null]
    | scalar | arr | obj => cases hy
  | false =>
    have hyz : (lay here y z).isNull = false := by rw [isNull_lay, hy]; rfl
    rw [lay_leaf hx, lay_leaf hx, hy, hyz]
    rfl

/-- **Of three values of the same kinds it does not matter which two are merged first.** -/
theorem lay_assoc {kinds : Outline → Json.Kind} {x y z : Noted} (hx : x.Agrees kinds)
    (hy : y.Agrees kinds) (hz : z.Agrees kinds) (here : Outline) :
    lay here (lay here x y) z = lay here x (lay here y z) := by
  induction hx generalizing y z here with
  | null => exact lay_assoc_of_leaf rfl here y z
  | @scalar _ _ x h hk =>
    refine lay_assoc_of_leaf ?_ here y z
    cases x <;> first | rfl | cases h
  | arr hk hi ih =>
    cases hy with
    | null => rw [lay_null, lay_lay_null]
    | scalar hk' => cases hk.symm.trans hk'
    | obj hk' => cases hk.symm.trans hk'
    | arr _ hi' =>
      cases hz with
      | null => simp only [lay_null]
      | scalar hk' => cases hk.symm.trans hk'
      | obj hk' => cases hk.symm.trans hk'
      | arr _ hi'' =>
        simp only [lay_arr, Option.or_assoc]
        rw [layKeyed_assoc (keepsKeys_lay _ _) fun a ha b hb c hc _ _ =>
          ih a ha (hi' b hb) (hi'' c hc) _]
  | obj hk hm ih =>
    cases hy with
    | null => rw [lay_null, lay_lay_null]
    | scalar hk' => cases hk.symm.trans hk'
    | arr hk' => cases hk.symm.trans hk'
    | obj _ hm' =>
      cases hz with
      | null => simp only [lay_null]
      | scalar hk' => cases hk.symm.trans hk'
      | arr hk' => cases hk.symm.trans hk'
      | obj _ hm'' =>
        simp only [lay_obj, Option.or_assoc]
        refine congrArg _ (layKeyed_assoc (keepsKeys_layMember here) ?_)
        rintro ⟨k, a⟩ ha ⟨k', b⟩ hb ⟨k'', c⟩ hc he he'
        cases he
        cases he'
        exact congrArg (Prod.mk k) (ih (k, a) ha (hm' (k, b) hb) (hm'' (k, c) hc) _)

end Noted
end Merge
end Provision
