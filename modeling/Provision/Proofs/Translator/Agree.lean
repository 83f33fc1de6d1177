import Provision.Decode.Codec
import Provision.Translator

/-!
# Translators that agree

Two translators with the same names and the same places that are left out differ in their rules alone.
They make the same of two documents if they make the same of the parts at which the rules differ.

* `Translator.Agrees`: two translators make the same of two parts at a place.
* `agrees_same`: they make the same of a part if no rules in it differ.
* `agrees_record`, `agrees_list`: they make the same of records and lists if they make the same of the
  fields and the items.
-/

set_option autoImplicit false

namespace Provision.Translator

open Decode (Codec RecordField)

/-- Two translators make the same of two parts at a place, wherever it is written. -/
def Agrees (t t' : Translator) (origin : Trail) (x x' : Json) : Prop :=
  ∀ place, t.translateAt origin place x = t'.translateAt origin place x'

/-- Two translators give parts the same names and leave out the same places. -/
structure Alike (t t' : Translator) : Prop where
  skips : t.skips = t'.skips
  names : t.names = t'.names

section Agree

variable {t t' : Translator} {origin : Trail}

theorem Alike.isSkipped (h : Alike t t') (trail : Trail) : t.isSkipped trail = t'.isSkipped trail := by
  rw [Translator.isSkipped, Translator.isSkipped, h.skips]

theorem Alike.nameOf (h : Alike t t') (k : String) : t.nameOf k = t'.nameOf k := by
  rw [Translator.nameOf, Translator.nameOf, h.names]

/-! ## Parts that are the same -/

/-- The rules at a place and below it are the same. -/
def SameRules (t t' : Translator) (origin : Trail) : Prop :=
  ∀ u, t.rule? (origin ++ u) = t'.rule? (origin ++ u)

theorem SameRules.index (h : SameRules t t' origin) (i : Nat) :
    SameRules t t' (origin.index i) := fun u => by
  rw [Trail.index, List.append_assoc]
  exact h (.index i :: u)

theorem SameRules.key (h : SameRules t t' origin) (k : String) :
    SameRules t t' (origin.key k) := fun u => by
  rw [Trail.key, List.append_assoc]
  exact h (.key k :: u)

theorem SameRules.here (h : SameRules t t' origin) : t.rule? origin = t'.rule? origin := by
  have hrule := h []
  rwa [List.append_nil] at hrule

mutual

/-- Translators with the same rules make the same of a part. -/
theorem translateAt_same (h : Alike t t') {origin : Trail} (hr : SameRules t t' origin)
    (place : Trail) : (x : Json) → t.translateAt origin place x = t'.translateAt origin place x
  | .arr items => by
    rw [translateAt, translateAt, hr.here, walkItems_same h hr.index place 0 items]
  | .obj members => by
    rw [translateAt, translateAt, hr.here, walkMembers_same h hr.key place members]
  | .null | .bool _ | .num _ | .str _ => by
    rw [translateAt_eq, translateAt_eq, hr.here]
    rfl

theorem walkItems_same (h : Alike t t') {origin : Trail}
    (hr : ∀ i, SameRules t t' (origin.index i)) (place : Trail) :
    (position : Nat) → (items : List Json) →
      t.walkItems origin place position items = t'.walkItems origin place position items
  | _, [] => by rw [walkItems, walkItems]
  | position, x :: rest => by
    rw [walkItems, walkItems, translateAt_same h (hr position) _ x,
      walkItems_same h hr place (position + 1) rest]

theorem walkMembers_same (h : Alike t t') {origin : Trail}
    (hr : ∀ k, SameRules t t' (origin.key k)) (place : Trail) :
    (members : List (String × Json)) → (done : Translated (List (String × Json))) →
      t.walkMembers origin place members done = t'.walkMembers origin place members done
  | [], _ => by rw [walkMembers, walkMembers]
  | (k, x) :: rest, done => by
    rw [walkMembers, walkMembers, h.isSkipped, h.nameOf]
    simp only [translateAt_same h (hr k) _ x, walkMembers_same h hr place rest]

end

theorem agrees_same (h : Alike t t') (hr : SameRules t t' origin) (x : Json) :
    Agrees t t' origin x x :=
  fun place => translateAt_same h hr place x

/-- Without its own rule, the same is made of a part if the rules within it are the same. -/
theorem walk_same (h : Alike t t') (hi : ∀ i, SameRules t t' (origin.index i))
    (hk : ∀ k, SameRules t t' (origin.key k)) (place : Trail) (x : Json) :
    t.walk origin place x = t'.walk origin place x := by
  cases x with
  | arr items => rw [walk, walk, walkItems_same h hi]
  | obj members => rw [walk, walk, walkMembers_same h hk]
  | _ => rfl

/-! ## Records -/

/-- Translators make the same of a field of two records. -/
def AgreesAt {σ : Type} (t t' : Translator) (origin : Trail) (r r' : σ) (f : RecordField σ) : Prop :=
  ∃ x x', f.write r = some x ∧ f.write r' = some x' ∧ Agrees t t' (origin.key f.name) x x'

theorem walkMembers_congr {σ : Type} (h : Alike t t') {r r' : σ} {fields : List (RecordField σ)}
    (hfields : ∀ f ∈ fields, AgreesAt t t' origin r r' f) (place : Trail)
    (done : Translated (List (String × Json))) :
    t.walkMembers origin place (RecordField.members fields r) done =
      t'.walkMembers origin place (RecordField.members fields r') done := by
  induction fields generalizing done with
  | nil =>
    rw [RecordField.members, RecordField.members, List.filterMap_nil, walkMembers,
      List.filterMap_nil, walkMembers]
  | cons f rest ih =>
    obtain ⟨⟨x, x', hx, hx', hagrees⟩, hrest⟩ := List.forall_mem_cons.mp hfields
    have hmembers : ∀ {r : σ} {x : Json}, f.write r = some x →
        RecordField.members (f :: rest) r = (f.name, x) :: RecordField.members rest r := by
      intro r x hx
      rw [RecordField.members, List.filterMap_cons, hx]
      rfl
    rw [hmembers hx, hmembers hx', walkMembers, walkMembers, h.isSkipped, h.nameOf]
    simp only [hagrees _, ih hrest]

/-- **Translators make the same of records** if they do of their fields. -/
theorem agrees_record {σ : Type} (h : Alike t t') {name : String} {empty r r' : σ}
    {fields : List (RecordField σ)} (hr : t.rule? origin = none) (hr' : t'.rule? origin = none)
    (hfields : ∀ f ∈ fields, AgreesAt t t' origin r r' f) :
    Agrees t t' origin ((Codec.record name empty fields).write r)
      ((Codec.record name empty fields).write r') := fun place => by
  rw [translateAt_eq, translateAt_eq, hr, hr']
  exact congrArg (fun m : Translated _ => written origin place (m.map Json.obj))
    (walkMembers_congr h hfields place _)

/-! ## Lists -/

theorem walkItems_congr {α : Type} {f g : α → Json} {items : List α}
    (h : ∀ a ∈ items, vacant (f a) = vacant (g a) ∧
      ∀ i, Agrees t t' (origin.index i) (f a) (g a)) (place : Trail) (position : Nat) :
    t.walkItems origin place position (items.map f) =
      t'.walkItems origin place position (items.map g) := by
  induction items generalizing position with
  | nil => rw [List.map_nil, List.map_nil, walkItems, walkItems]
  | cons a rest ih =>
    obtain ⟨⟨hvacant, ha⟩, hrest⟩ := List.forall_mem_cons.mp h
    rw [List.map_cons, List.map_cons, walkItems, walkItems, ih hrest, ha position, hvacant]

/-- **Translators make the same of lists** if they do of their items. -/
theorem agrees_list {α : Type} {c : Codec α} {items : List α} {f : α → α}
    (hr : t.rule? origin = none) (hr' : t'.rule? origin = none)
    (h : ∀ a ∈ items, vacant (c.write a) = vacant (c.write (f a)) ∧
      ∀ i, Agrees t t' (origin.index i) (c.write a) (c.write (f a))) :
    Agrees t t' origin (c.list.write items) (c.list.write (items.map f)) := fun place => by
  rw [translateAt_eq, translateAt_eq, hr, hr']
  refine congrArg (fun m : Translated _ => written origin place (m.map Json.arr)) ?_
  rw [List.map_map]
  exact walkItems_congr h place 0

end Agree

end Provision.Translator
