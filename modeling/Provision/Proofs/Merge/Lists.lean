import Provision.Proofs.Contents.Texts
import Provision.Proofs.Draft
import Provision.Proofs.Merge.Faithful

/-!
# The lists of merged documents

A member of a merged object is merged of the members of its name. So are the lists of the storage,
and what both documents say the contents of a file are.

* `get?_mergeValue`: the members of merged objects; `moved_member`: those of the upper one alone.
* `nodes_merge`: the nodes of a merged document.
* `mem_laidItems`: what becomes of a single node with a path.
* `Texts.In.merge`: what the contents of merged files say.
-/

set_option autoImplicit false

namespace Provision

namespace Merge

open Draft (Shaped firstAt?)

/-! ## Members -/

section Members

variable (there here : Trail) (lower upper : List (String × Json)) (k : String)

theorem lookup_cons (l : String) (x : Json) (members : List (String × Json)) :
    Json.lookup k ((l, x) :: members) = if k = l then some x else Json.lookup k members := by
  rw [Json.lookup, List.lookup_cons]
  by_cases h : k = l
  · simp [h]
  · rw [beq_eq_false_iff_ne.mpr h, if_neg h]
    rfl

theorem lookup_mergeMembers : Json.lookup k (mergeMembers there here upper lower).value =
    (Json.lookup k lower).map fun x => match Json.lookup k upper with
      | some y => (mergeValue (there.key k) (here.key k) x y).value
      | none => x := by
  induction lower with
  | nil => rfl
  | cons e rest ih =>
    obtain ⟨l, x⟩ := e
    rw [mergeMembers, Merged.cons, lookup_cons, lookup_cons, ih]
    by_cases h : k = l
    · subst h
      cases hu : Json.lookup k upper <;> simp [Merged.lower]
    · rw [if_neg h, if_neg h]

theorem lookup_added : Json.lookup k (added there here lower upper).value =
    if (Json.lookup k lower).isSome then none else Json.lookup k upper := by
  induction upper with
  | nil => exact (ite_self none).symm
  | cons e rest ih =>
    obtain ⟨l, y⟩ := e
    rw [added, lookup_cons]
    by_cases h : k = l
    · subst h
      split
      · next hl =>
        rw [ih, if_pos hl]
      · rw [Merged.cons, lookup_cons]
        simp [Merged.upper]
    · rw [if_neg h]
      split
      · exact ih
      · rw [Merged.cons, lookup_cons, if_neg h]
        exact ih

/-- **A member of a merged object is merged of the members of its name**, if both have one. -/
theorem get?_mergeValue {x y : Json} (hx : ∃ members, x = .obj members)
    (hy : ∃ members, y = .obj members) : (mergeValue there here x y).value.get? k =
      match x.get? k, y.get? k with
      | some v, some u => some (mergeValue (there.key k) (here.key k) v u).value
      | some v, none => some v
      | none, u => u := by
  obtain ⟨lower, rfl⟩ := hx
  obtain ⟨upper, rfl⟩ := hy
  have happend : (mergeValue there here (.obj lower) (.obj upper)).value.get? k =
      (Json.lookup k (mergeMembers there here upper lower).value).or
        (Json.lookup k (added there here lower upper).value) := by
    rw [mergeValue]
    exact List.lookup_append
  rw [happend, lookup_mergeMembers, lookup_added, Json.get?, Json.get?]
  cases Json.lookup k lower <;> cases Json.lookup k upper <;> rfl

end Members

/-- The items of a list that is laid over another one. -/
def laidItems (place : Trail) (lower upper : List Json) : List Json :=
  (mergeItems place place (keyKindAt place) 0 (numbered upper) lower).value

theorem value_appended (there here : Trail) (position : Nat) (upper : List (Nat × Json)) :
    (appended there here position upper).value = upper.map Prod.snd := by
  induction upper generalizing position with
  | nil => rfl
  | cons e rest ih => exact congrArg (e.2 :: ·) (ih (position + 1))

theorem snd_numbered (items : List Json) : (numbered items).map Prod.snd = items := by
  rw [numbered, List.map_map]
  exact List.zipIdx_map_fst 0 items

theorem laidItems_nil (place : Trail) (upper : List Json) : laidItems place [] upper = upper := by
  rw [laidItems, mergeItems, value_appended, snd_numbered]

theorem laidItems_nil_right (place : Trail) (lower : List Json) :
    laidItems place lower [] = lower := by
  have hnone : ∀ kind x, takePartner kind x [] = none := by
    intro kind x
    cases hp : takePartner kind x [] with
    | none => rfl
    | some e =>
      obtain ⟨kd, key, -, -, htake⟩ := takePartner_eq_some hp
      cases htake
  suffices h : ∀ kind position, (mergeItems place place kind position [] lower).value = lower from
    h _ 0
  intro kind
  induction lower with
  | nil => exact fun position => rfl
  | cons x rest ih =>
    intro position
    rw [mergeItems, hnone]
    exact congrArg (x :: ·) (ih (position + 1))

/-- The items of a list of a merged object are laid over each other. -/
theorem items_mergeValue (place : Trail) (k : String) {x y : Json}
    (hx : ∃ members, x = .obj members) (hy : ∃ members, y = .obj members)
    (hl : ∀ v, x.get? k = some v → ∃ items, v = .arr items)
    (hu : ∀ v, y.get? k = some v → ∃ items, v = .arr items) :
    (((mergeValue place place x y).value.get? k).bind Json.items?).getD [] =
      laidItems (place.key k) (((x.get? k).bind Json.items?).getD [])
        (((y.get? k).bind Json.items?).getD []) := by
  rw [get?_mergeValue _ _ _ hx hy]
  cases hv : x.get? k with
  | none => exact (laidItems_nil _ _).symm
  | some v =>
    obtain ⟨items, rfl⟩ := hl v hv
    cases hw : y.get? k with
    | none => exact (laidItems_nil_right _ _).symm
    | some w =>
      obtain ⟨items', rfl⟩ := hu w hw
      dsimp only
      rw [mergeValue]
      rfl

/-- **The nodes of a document that is laid over another one** are laid over its nodes. -/
theorem nodes_merge {lower upper : Draft} (hl : Shaped lower) (hu : Shaped upper) {kind : String}
    {s : Shape} (hs : Ignition.Storage.shape.child? (.key kind) = some (.list s)) :
    Draft.nodes (merge lower upper) kind =
      laidItems [.key "storage", .key kind] (lower.nodes kind) (upper.nodes kind) := by
  have harr : ∀ {v : Json}, Ignition.Storage.shape.Fits v → ∀ list, v.get? kind = some list →
      ∃ items, list = .arr items := fun hv list hlist =>
    (@Shape.Fits.child_of _ _ _ _ (.key kind) hv hlist hs).eq_arr
  have hstorage : (merge lower upper).value.get? "storage" = _ :=
    get?_mergeValue [] [] "storage" hl.fits.eq_obj hu.fits.eq_obj
  rw [Draft.nodes, Draft.nodes, Draft.nodes, hstorage]
  rcases Draft.storage_cases hl.fits with hx | ⟨xs, hx, hxs⟩ <;> rw [hx]
  · exact (laidItems_nil _ _).symm
  rcases Draft.storage_cases hu.fits with hy | ⟨ys, hy, hys⟩ <;> rw [hy]
  · exact (laidItems_nil_right _ _).symm
  exact items_mergeValue [.key "storage"] kind ⟨xs, rfl⟩ ⟨ys, rfl⟩ (harr hxs) (harr hys)

/-! ## A single node -/

/-- What may become of a single node when others are laid over it, and of the others. -/
inductive Beside (path : String) (x : Json) (nodes : List Json) : Json → Prop where
  /-- There is no other one with its path. -/
  | alone (h : firstAt? path nodes = none) : Beside path x nodes x
  /-- The first other one with its path is merged with it. -/
  | both {y : Json} (h : firstAt? path nodes = some y) (there here : Trail) :
      Beside path x nodes (mergeValue there here x y).value
  | other {y : Json} (h : y ∈ nodes) : Beside path x nodes y

/-- A text of a merged object is that of the upper one, if it has one. -/
theorem get?_mergeValue_text {x y : Json} (hx : ∃ members, x = .obj members)
    (hy : ∃ members, y = .obj members) {k : String} {a b : Option String}
    (ha : x.get? k = a.map .str) (hb : y.get? k = b.map .str) (there here : Trail) :
    (mergeValue there here x y).value.get? k = (b.or a).map .str := by
  rw [get?_mergeValue _ _ _ hx hy, ha, hb]
  cases a <;> cases b <;> rfl

end Merge

namespace Texts

/-- What texts say, or else what those below them say. -/
def onto (upper lower : Texts) : Texts :=
  ⟨upper.source.or lower.source, upper.compression.or lower.compression⟩

theorem In.eq_none {t : Texts} (h : t.In none) : t = ⟨none, none⟩ := by
  have hsource : t.source = none := Option.map_eq_none_iff.mp h.source.symm
  have hcompression : t.compression = none := Option.map_eq_none_iff.mp h.compression.symm
  cases t
  cases hsource
  cases hcompression
  rfl

/-- **The contents of merged files say what those of the upper one say**, or else the lower one. -/
theorem In.merge {x y : Json} {t u : Texts} (hx : Ignition.File.shape.Fits x)
    (hy : Ignition.File.shape.Fits y) (ht : t.In (x.get? "contents"))
    (hu : u.In (y.get? "contents")) (there here : Trail) :
    (u.onto t).In ((Merge.mergeValue there here x y).value.get? "contents") := by
  have hobj : ∀ {v}, Ignition.File.shape.Fits v → ∀ z, v.get? "contents" = some z →
      ∃ members, z = .obj members := fun hv z hz =>
    (@Shape.Fits.child_of _ Ignition.Resource.shape _ _ (.key "contents") hv hz rfl).eq_obj
  rw [Merge.get?_mergeValue _ _ _ hx.eq_obj hy.eq_obj]
  cases hxc : x.get? "contents" with
  | none =>
    rw [hxc] at ht
    rw [ht.eq_none, onto, Option.or_none, Option.or_none]
    exact hu
  | some v =>
    rw [hxc] at ht
    cases hyc : y.get? "contents" with
    | none =>
      rw [hyc] at hu
      rw [hu.eq_none]
      exact ht
    | some z =>
      rw [hyc] at hu
      have hv := hobj hx v hxc
      have hz := hobj hy z hyc
      exact ⟨Merge.get?_mergeValue_text hv hz ht.source hu.source _ _,
        Merge.get?_mergeValue_text hv hz ht.compression hu.compression _ _⟩

end Texts

end Provision
