import Provision.Proofs.Provenance
import Provision.Proofs.Translator
import Provision.Proofs.Translator.Steps

/-!
# Origins of parts

What has an origin in what is made of a part has one in what is made of the whole. If all that is
recorded for a part belongs to its place, or to what is below it, then the whole traces a part to
where the part itself is traced, whatever is recorded for the others.

* `Provenance.isSome_merge`: nothing loses its origin when origins are joined.
* `Translator.isSome_member`, `Translator.isSome_item`: a part of an object, and of a list.
* `Provenance.Confined`: all origins are those of a place and of what is below it.
* `Translator.confined_translateAt`: they are, for every part, if rules see to it.
* `Translator.find?_member`, `Translator.find?_item`: the origins of a part of an object, and of a
  list.
-/

set_option autoImplicit false

namespace Provision

theorem Origins.isSome_insertAll {added o : Origins} {place : Trail}
    (h : (find? place o).isSome = true ∨ (find? place added).isSome = true) :
    (find? place (insertAll added o)).isSome = true := by
  induction added generalizing o with
  | nil => exact h.resolve_right (by simp)
  | cons e rest ih =>
    obtain ⟨first, origin⟩ := e
    refine ih (o := o.insert first origin) ?_
    by_cases hp : place = first
    · left
      rw [hp, find?_insert]
      rfl
    · rwa [find?_insert_of_ne hp, ← find?_cons_of_ne hp origin rest]

/-- **What has an origin in one of two provenances has one in both together.** -/
theorem Provenance.isSome_merge (p q : Provenance) {place : Trail}
    (h : (p.find? place).isSome = true ∨ (q.find? place).isSome = true) :
    ((p.merge q).find? place).isSome = true :=
  Origins.isSome_insertAll h

namespace Translator

variable {t : Translator} {origin place q : Trail}

theorem isSome_written {m : Translated Json} (h : (m.provenance.find? q).isSome = true) :
    ((written origin place m).provenance.find? q).isSome = true := by
  rw [written]
  split
  · exact h
  · dsimp only
    split
    · exact h
    · exact (@Provenance.grows_add (fun _ => True) origin trivial m.provenance place).isSome q h

/-! ## Members -/

section Members

variable {members : List (String × Json)} {k : String} {x : Json}

theorem isSome_walkMembers {done : Translated (List (String × Json))}
    (h : (done.provenance.find? q).isSome = true ∨ ∃ e ∈ members,
      t.isSkipped (origin.key e.1) = false ∧
        ((t.translateAt (origin.key e.1) (place.key (t.nameOf e.1)) e.2).provenance.find? q).isSome =
          true) :
    ((t.walkMembers origin place members done).provenance.find? q).isSome = true := by
  induction members generalizing done with
  | nil =>
    rw [walkMembers]
    exact h.resolve_right (by simp)
  | cons e rest ih =>
    obtain ⟨k, x⟩ := e
    cases hs : t.isSkipped (origin.key k) with
    | true =>
      rw [walkMembers, if_pos hs]
      refine ih (h.imp_right ?_)
      rintro ⟨e, he, hskip, hq⟩
      rcases List.mem_cons.mp he with rfl | he
      · cases hs.symm.trans hskip
      · exact ⟨e, he, hskip, hq⟩
    | false =>
      rw [walkMembers_cons hs]
      refine ih ?_
      rcases h with h | ⟨e, he, hskip, hq⟩
      · exact .inl (Provenance.isSome_merge _ _ (.inl h))
      · rcases List.mem_cons.mp he with rfl | he
        · exact .inl (Provenance.isSome_merge _ _ (.inr hq))
        · exact .inr ⟨e, he, hskip, hq⟩

/-- **What has an origin in a member has one in the object.** -/
theorem isSome_member (hk : Json.lookup k members = some x)
    (hs : t.isSkipped (origin.key k) = false)
    (h : ((t.translateAt (origin.key k) (place.key (t.nameOf k)) x).provenance.find? q).isSome =
      true) : ((t.walk origin place (.obj members)).provenance.find? q).isSome = true := by
  rw [walk]
  exact isSome_written (isSome_walkMembers (.inr ⟨(k, x), Json.mem_of_lookup hk, hs, h⟩))

end Members

/-! ## Items -/

section Items

variable {items : List Json} {x : Json}

theorem isSome_walkItems {position i : Nat} (hx : items[i]? = some x)
    (h : ((t.translateAt (origin.index (position + i)) (place.index (position + i))
      x).provenance.find? q).isSome = true) :
    ((t.walkItems origin place position items).provenance.find? q).isSome = true := by
  induction items generalizing position i with
  | nil => cases hx
  | cons y rest ih =>
    rw [walkItems]
    cases i with
    | zero =>
      cases hx
      exact Provenance.isSome_merge _ _ (.inl h)
    | succ i =>
      refine Provenance.isSome_merge _ _ (.inr (ih (i := i) hx ?_))
      rwa [Nat.add_right_comm]

/-- **What has an origin in an item has one in the list.** -/
theorem isSome_item {i : Nat} (hx : items[i]? = some x)
    (h : ((t.translateAt (origin.index i) (place.index i) x).provenance.find? q).isSome = true) :
    ((t.walk origin place (.arr items)).provenance.find? q).isSome = true := by
  rw [walk]
  refine isSome_written (isSome_walkItems hx ?_)
  rwa [Nat.zero_add]

end Items

end Translator

/-! ## Origins that keep to their parts -/

/-- All origins are those of a place and of what is below it. -/
structure Provenance.Confined (p : Provenance) (place : Trail) : Prop where
  sorted : p.origins.Sorted
  below : ∀ e ∈ p.origins, place <+: e.1

theorem Provenance.Confined.find?_eq_none {p : Provenance} {place q : Trail}
    (h : p.Confined place) (hq : ¬place <+: q) : p.find? q = none := by
  cases hf : p.find? q with
  | none => rfl
  | some o => exact absurd (h.below _ (Origins.mem_of_find? hf)) hq

theorem Provenance.confined_empty (place : Trail) : ({} : Provenance).Confined place where
  sorted := List.Pairwise.nil
  below := nofun

/-- Origins that are recorded at a place and below it leave the others there. -/
theorem Provenance.Confined.grows {known places : Trail → Prop} {p p' : Provenance} {place : Trail}
    (h : p.Confined place) (hg : p.Grows known places p') (hplaces : ∀ q, places q → place <+: q) :
    p'.Confined place where
  sorted := hg.sorted h.sorted
  below e he := (hg.mem e he).elim (h.below e) fun hq => hplaces _ hq.1

theorem Provenance.Confined.merge {p p' : Provenance} {place place' : Trail} (h : p.Confined place)
    (h' : p'.Confined place') (hplace : place <+: place') : (p.merge p').Confined place where
  sorted := Origins.sorted_insertAll _ h.sorted
  below e he := (Origins.mem_insertAll he).elim (fun he => hplace.trans (h'.below e he)) (h.below e)

namespace Translator

variable {t : Translator} {origin place q : Trail}

/-! ## Every part -/

/-- Rules record origins for the places of their parts alone, and for what is below them. -/
def Confines (t : Translator) : Prop :=
  ∀ origin rule, t.rule? origin = some rule → ∀ m x place, m.provenance.Confined place →
    (rule m x origin place).provenance.Confined place

theorem confined_rule (h : t.Confines) (x : Json) {m : Translated (Option Json)}
    (hm : m.provenance.Confined place) :
    (((t.rule? origin).map fun rule => rule m x origin place).getD m).provenance.Confined
      place := by
  cases hr : t.rule? origin with
  | none => exact hm
  | some rule => exact h origin rule hr m x place hm

theorem confined_written {m : Translated Json} (h : m.provenance.Confined place) :
    (written origin place m).provenance.Confined place := by
  have hadd := @Provenance.grows_add (fun _ => True) origin trivial m.provenance place
  rw [written]
  split
  · exact h
  · dsimp only
    split
    · exact h
    · exact h.grows hadd fun q hq => hq ▸ List.prefix_refl _

mutual

/-- **The origins of a part keep to it**, if those that rules record do. -/
theorem confined_translateAt (h : t.Confines) (origin place : Trail) :
    (x : Json) → (t.translateAt origin place x).provenance.Confined place
  | .arr items => by
    rw [translateAt]
    refine confined_rule h _ (confined_written ?_)
    rw [Translated.provenance_map]
    exact confined_items h origin place 0 items
  | .obj members => by
    rw [translateAt]
    refine confined_rule h _ (confined_written ?_)
    rw [Translated.provenance_map]
    exact confined_members h origin place members (Provenance.confined_empty place)
  | .null | .bool _ | .num _ | .str _ => by
    rw [translateAt_eq]
    exact confined_rule h _ (confined_written (Provenance.confined_empty place))

theorem confined_items (h : t.Confines) (origin place : Trail) : (position : Nat) →
    (items : List Json) → (t.walkItems origin place position items).provenance.Confined place
  | _, [] => by
    rw [walkItems]
    exact Provenance.confined_empty place
  | position, x :: rest => by
    have hitem := confined_translateAt h (origin.index position) (place.index position) x
    have hitems := confined_items h origin place (position + 1) rest
    rw [walkItems]
    exact ⟨Origins.sorted_insertAll _ hitem.sorted, fun e he => (Origins.mem_insertAll he).elim
      (hitems.below e) fun he => (Provenance.prefix_index _ _).trans (hitem.below e he)⟩

theorem confined_members (h : t.Confines) (origin place : Trail) :
    (members : List (String × Json)) → {done : Translated (List (String × Json))} →
      done.provenance.Confined place →
        (t.walkMembers origin place members done).provenance.Confined place
  | [], _, hdone => by
    rw [walkMembers]
    exact hdone
  | (k, x) :: rest, done, hdone => by
    rw [walkMembers]
    split
    · exact confined_members h origin place rest hdone
    · exact confined_members h origin place rest
        (hdone.merge (confined_translateAt h _ _ x) (Provenance.prefix_key _ _))

end

/-! ## One part -/

theorem not_prefix_key {k l : String} (h : place.key l <+: q) (hkl : l ≠ k) :
    ¬place.key k <+: q :=
  fun ⟨_, hu⟩ => key_ne_of_prefix h hkl hu.symm

theorem not_prefix_index {i j : Nat} (h : place.index j <+: q) (hij : j ≠ i) :
    ¬place.index i <+: q :=
  fun ⟨_, hu⟩ => index_ne_of_prefix h hij hu.symm

/-- Writing a value adds no origin below its place. -/
theorem find?_written {s : Segment} (h : place ++ [s] <+: q) (m : Translated Json) :
    (written origin place m).provenance.find? q = m.provenance.find? q := by
  rw [written]
  split
  · rfl
  · dsimp only
    split
    · rfl
    · refine Provenance.find?_add_of_ne (fun hq => ?_) _ _
      obtain ⟨u, rfl⟩ := h
      simp at hq

/-- A part that is written comes from the part that it is written for. -/
theorem find?_walk_place {x : Json} (hplace : place ≠ [])
    (h : (t.walk origin place x).value.isSome = true) :
    (t.walk origin place x).provenance.find? place = some origin := by
  have hwritten : ∀ m : Translated Json, (written origin place m).value.isSome = true →
      (written origin place m).provenance.find? place = some origin := fun m hm => by
    rw [written] at hm ⊢
    split
    · next he =>
      rw [if_pos he] at hm
      cases hm
    · dsimp only
      rw [if_neg (by simpa using hplace), Provenance.find?_add]
  cases x with
  | arr | obj =>
    rw [walk] at h ⊢
    exact hwritten _ h
  | _ =>
    simp only [walk] at h ⊢
    exact hwritten _ h

section Members

variable {members : List (String × Json)} {done : Translated (List (String × Json))} {k : String}
  {x : Json}

theorem find?_walkMembers_of_ne {n : String} (h : ∀ e ∈ members,
      t.isSkipped (origin.key e.1) = false → t.nameOf e.1 ≠ n ∧
        (t.translateAt (origin.key e.1) (place.key (t.nameOf e.1)) e.2).provenance.Confined
          (place.key (t.nameOf e.1))) (hq : place.key n <+: q) :
    (t.walkMembers origin place members done).provenance.find? q = done.provenance.find? q := by
  induction members generalizing done with
  | nil => rw [walkMembers]
  | cons e rest ih =>
    obtain ⟨l, y⟩ := e
    obtain ⟨hl, hrest⟩ := List.forall_mem_cons.mp h
    cases hs : t.isSkipped (origin.key l) with
    | true =>
      rw [walkMembers, if_pos hs]
      exact ih hrest
    | false =>
      obtain ⟨hne, hconfined⟩ := hl hs
      rw [walkMembers_cons hs, ih hrest]
      dsimp only
      rw [Provenance.find?_merge _ hconfined.sorted,
        hconfined.find?_eq_none (not_prefix_key hq (Ne.symm hne)), Option.none_or]

/-- **Below a member, origins are those of the member**, if origins keep to their parts. -/
theorem find?_walkMembers (hd : (members.map Prod.fst).Nodup)
    (hk : Json.lookup k members = some x) (hs : t.isSkipped (origin.key k) = false)
    (hnames : ∀ l ∈ members.map Prod.fst, t.nameOf l = t.nameOf k → l = k)
    (hconfined : ∀ e ∈ members, t.isSkipped (origin.key e.1) = false →
      (t.translateAt (origin.key e.1) (place.key (t.nameOf e.1)) e.2).provenance.Confined
        (place.key (t.nameOf e.1)))
    (hq : place.key (t.nameOf k) <+: q) (hnew : done.provenance.find? q = none) :
    (t.walkMembers origin place members done).provenance.find? q =
      (t.translateAt (origin.key k) (place.key (t.nameOf k)) x).provenance.find? q := by
  induction members generalizing done with
  | nil => cases hk
  | cons e rest ih =>
    obtain ⟨l, y⟩ := e
    rw [List.map_cons, List.nodup_cons] at hd
    rw [List.map_cons] at hnames
    obtain ⟨hname, hrest⟩ := List.forall_mem_cons.mp hnames
    obtain ⟨hhere, hthere⟩ := List.forall_mem_cons.mp hconfined
    by_cases hl : l = k
    · subst hl
      have hx : y = x := by simpa [Json.lookup] using hk
      subst hx
      -- No member that follows has the name.
      rw [walkMembers_cons hs, find?_walkMembers_of_ne (fun e he hse => ⟨fun heq => ?_,
        hthere e he hse⟩) hq]
      · dsimp only
        rw [Provenance.find?_merge _ (hhere hs).sorted, hnew, Option.or_none]
      · have hmem : e.1 ∈ rest.map Prod.fst := List.mem_map_of_mem he
        exact hd.1 (hrest e.1 hmem heq ▸ hmem)
    · have hk' : Json.lookup k rest = some x := by
        rwa [Json.lookup, List.lookup_cons, beq_eq_false_iff_ne.mpr (Ne.symm hl)] at hk
      have hne : t.nameOf l ≠ t.nameOf k := fun h => hl (hname h)
      cases hsl : t.isSkipped (origin.key l) with
      | true =>
        rw [walkMembers, if_pos hsl]
        exact ih hd.2 hk' hrest hthere hnew
      | false =>
        rw [walkMembers_cons hsl]
        refine ih hd.2 hk' hrest hthere ?_
        dsimp only
        rw [Provenance.find?_merge _ (hhere hsl).sorted, hnew,
          (hhere hsl).find?_eq_none (not_prefix_key hq (Ne.symm hne)), Option.or_none]

/-- **What a member is traced to, the object traces it to**, if origins keep to their parts. -/
theorem find?_member (hd : (members.map Prod.fst).Nodup)
    (hk : Json.lookup k members = some x) (hs : t.isSkipped (origin.key k) = false)
    (hnames : ∀ l ∈ members.map Prod.fst, t.nameOf l = t.nameOf k → l = k)
    (hconfined : ∀ e ∈ members, t.isSkipped (origin.key e.1) = false →
      (t.translateAt (origin.key e.1) (place.key (t.nameOf e.1)) e.2).provenance.Confined
        (place.key (t.nameOf e.1)))
    (hq : place.key (t.nameOf k) <+: q) :
    (t.walk origin place (.obj members)).provenance.find? q =
      (t.translateAt (origin.key k) (place.key (t.nameOf k)) x).provenance.find? q := by
  rw [walk, find?_written hq]
  exact find?_walkMembers hd hk hs hnames hconfined hq rfl

end Members

section Items

variable {items : List Json} {x : Json}

/-- Items from a position on have origins in order, none of them before the position. -/
theorem confined_walkItems {position : Nat} (h : ∀ (i : Nat) y, items[i]? = some y →
      (t.translateAt (origin.index (position + i)) (place.index (position + i))
        y).provenance.Confined (place.index (position + i))) :
    (t.walkItems origin place position items).provenance.origins.Sorted ∧
      ∀ e ∈ (t.walkItems origin place position items).provenance.origins,
        ∃ i, position ≤ i ∧ place.index i <+: e.1 := by
  induction items generalizing position with
  | nil =>
    rw [walkItems]
    exact ⟨List.Pairwise.nil, nofun⟩
  | cons y rest ih =>
    have hy : (t.translateAt (origin.index position) (place.index position)
        y).provenance.Confined (place.index position) := h 0 y rfl
    obtain ⟨hsorted, hbelow⟩ := @ih (position + 1) fun i z hz => by
      rw [Nat.add_right_comm]
      exact h (i + 1) z hz
    rw [walkItems]
    refine ⟨Origins.sorted_insertAll _ hy.sorted, fun e he => ?_⟩
    rcases Origins.mem_insertAll he with he | he
    · obtain ⟨i, hi, hp⟩ := hbelow e he
      exact ⟨i, by omega, hp⟩
    · exact ⟨position, Nat.le_refl _, hy.below e he⟩

theorem find?_walkItems {position i : Nat} (h : ∀ (j : Nat) y, items[j]? = some y →
      (t.translateAt (origin.index (position + j)) (place.index (position + j))
        y).provenance.Confined (place.index (position + j))) (hx : items[i]? = some x)
    (hq : place.index (position + i) <+: q) :
    (t.walkItems origin place position items).provenance.find? q =
      (t.translateAt (origin.index (position + i)) (place.index (position + i))
        x).provenance.find? q := by
  induction items generalizing position i with
  | nil => cases hx
  | cons y rest ih =>
    have hrest : ∀ (j : Nat) z, rest[j]? = some z →
        (t.translateAt (origin.index (position + 1 + j)) (place.index (position + 1 + j))
          z).provenance.Confined (place.index (position + 1 + j)) := fun j z hz => by
      rw [Nat.add_right_comm]
      exact h (j + 1) z hz
    obtain ⟨hsorted, hbelow⟩ := confined_walkItems hrest
    rw [walkItems]
    dsimp only
    rw [Provenance.find?_merge _ hsorted]
    cases i with
    | zero =>
      cases hx
      have hnone : (t.walkItems origin place (position + 1) rest).provenance.find? q = none := by
        cases hf : (t.walkItems origin place (position + 1) rest).provenance.find? q with
        | none => rfl
        | some o =>
          obtain ⟨j, hj, hp⟩ := hbelow _ (Origins.mem_of_find? hf)
          exact absurd hp (not_prefix_index hq (by omega))
      rw [hnone, Option.none_or]
      rfl
    | succ i =>
      have hi : position + (i + 1) = position + 1 + i := by omega
      rw [hi] at hq ⊢
      have hy : (t.translateAt (origin.index position) (place.index position)
          y).provenance.Confined (place.index position) := h 0 y rfl
      rw [ih hrest hx hq, hy.find?_eq_none (not_prefix_index hq (by omega)), Option.or_none]

/-- **What an item is traced to, the list traces it to**, if origins keep to their parts. -/
theorem find?_item {i : Nat} (h : ∀ (j : Nat) y, items[j]? = some y →
      (t.translateAt (origin.index j) (place.index j) y).provenance.Confined (place.index j))
    (hx : items[i]? = some x) (hq : place.index i <+: q) :
    (t.walk origin place (.arr items)).provenance.find? q =
      (t.translateAt (origin.index i) (place.index i) x).provenance.find? q := by
  rw [walk, find?_written hq]
  have hitem := @find?_walkItems t origin place q items x 0 i
  rw [Nat.zero_add] at hitem
  exact hitem (fun j y hy => by rw [Nat.zero_add]; exact h j y hy) hx hq

end Items

end Translator

end Provision
