import Provision.Proofs.Json.Shape

/-!
# Setting a node of a value

A node is set at a trail. Containers that are missing on the way are made, and a position at the end
of a list makes the list longer.

* `Json.at?_put`: at the trail there is what was set.
* `Json.at?_of_put`: every other node was there before, or is on the way.
* `Shape.Fits.put`, `Json.isDistinct_put`: what is set where it fits leaves a value that fits.
-/

set_option autoImplicit false

namespace Provision

namespace Json

/-- The value with another node at a trail. -/
def put (y : Json) : Trail → Json → Json
  | [], _ => y
  | .key k :: t, x => .obj (insert k (put y t ((x.get? k).getD .null)) x.members)
  | .index i :: t, x =>
    let items := x.items?.getD []
    .arr (if i < items.length then items.set i (put y t (items[i]?.getD .null))
      else items ++ [put y t .null])

/-- No position of a trail is beyond the end of its list. -/
def HasRoom : Trail → Json → Prop
  | [], _ => True
  | .key k :: t, x => HasRoom t ((x.get? k).getD .null)
  | .index i :: t, x =>
    i ≤ (x.items?.getD []).length ∧ HasRoom t ((x.item? i).getD .null)

theorem hasRoom_key (k : String) (t : Trail) (x : Json) :
    HasRoom (.key k :: t) x = HasRoom t ((x.get? k).getD .null) := rfl

theorem hasRoom_index (i : Nat) (t : Trail) (x : Json) : HasRoom (.index i :: t) x =
    (i ≤ (x.items?.getD []).length ∧ HasRoom t ((x.item? i).getD .null)) := rfl

/-- There is room where something is. -/
theorem hasRoom_of_at {t : Trail} {x : Json} (h : (x.at? t).isSome = true) : HasRoom t x := by
  induction t generalizing x with
  | nil => trivial
  | cons s t ih =>
    obtain ⟨z, hz⟩ := Option.isSome_iff_exists.mp h
    obtain ⟨y, hy, hyz⟩ := Option.bind_eq_some_iff.mp hz
    have hr : HasRoom t y := ih (by rw [hyz]; rfl)
    cases s with
    | key k =>
      have hy : x.get? k = some y := hy
      rw [hasRoom_key, hy]
      exact hr
    | index i =>
      have hy : x.item? i = some y := hy
      rw [hasRoom_index, hy]
      refine ⟨?_, hr⟩
      cases x with
      | arr items => exact Nat.le_of_lt (List.getElem?_eq_some_iff.mp hy).1
      | _ => cases hy

/-- There is room below a node if the node has room. -/
theorem hasRoom_append {t u : Trail} {x c : Json} (hc : x.at? t = some c) (hu : HasRoom u c) :
    HasRoom (t ++ u) x := by
  induction t generalizing x with
  | nil =>
    cases hc
    exact hu
  | cons s t ih =>
    obtain ⟨z, hz, hzc⟩ := Option.bind_eq_some_iff.mp hc
    have hr := @hasRoom_of_at [s] x (by rw [at?_cons_of_child hz]; rfl)
    cases s with
    | key k =>
      have hz : x.get? k = some z := hz
      rw [List.cons_append, hasRoom_key, hz]
      exact ih hzc
    | index i =>
      have hz : x.item? i = some z := hz
      rw [List.cons_append, hasRoom_index, hz]
      exact ⟨hr.1, ih hzc⟩

/-! ## Members and items -/

theorem lookup_members (k : String) (x : Json) : lookup k x.members = x.get? k := by
  cases x <;> rfl

theorem getElem?_items (i : Nat) (x : Json) : (x.items?.getD [])[i]? = x.item? i := by
  cases x <;> rfl

theorem mem_insert {k : String} {v : Json} {members : List (String × Json)} {e : String × Json}
    (h : e ∈ insert k v members) : e = (k, v) ∨ e ∈ members := by
  induction members with
  | nil => exact .inl (List.mem_singleton.mp h)
  | cons f rest ih =>
    obtain ⟨l, w⟩ := f
    rw [insert] at h
    split at h
    · next hl =>
      subst hl
      exact (List.mem_cons.mp h).imp_right (List.mem_cons_of_mem _)
    · rcases List.mem_cons.mp h with rfl | h
      · exact .inr List.mem_cons_self
      · exact (ih h).imp_right (List.mem_cons_of_mem _)

/-- Setting a member keeps keys distinct. -/
theorem nodup_insert (k : String) (v : Json) {members : List (String × Json)}
    (h : (members.map Prod.fst).Nodup) : ((insert k v members).map Prod.fst).Nodup := by
  induction members with
  | nil => simp [insert]
  | cons f rest ih =>
    obtain ⟨l, w⟩ := f
    rw [List.map_cons, List.nodup_cons] at h
    rw [insert]
    split
    · exact List.nodup_cons.mpr h
    · next hl =>
      refine List.nodup_cons.mpr ⟨fun hm => ?_, ih h.2⟩
      obtain ⟨e, he, hk⟩ := List.mem_map.mp hm
      rcases mem_insert he with rfl | he
      · exact hl hk.symm
      · exact h.1 (List.mem_map.mpr ⟨e, he, hk⟩)

@[simp] theorem isEmpty_insert (k : String) (v : Json) (members : List (String × Json)) :
    isEmpty (.obj (insert k v members)) = false := by
  cases members with
  | nil => rfl
  | cons f rest =>
    rw [insert]
    split <;> rfl

theorem isDistinct_insert {k : String} {v : Json} {members : List (String × Json)}
    (hv : v.isDistinct = true) (h : isDistinct (.obj members) = true) :
    isDistinct (.obj (insert k v members)) = true := by
  obtain ⟨hn, hd⟩ := isDistinct_obj.mp h
  refine isDistinct_obj.mpr ⟨nodup_insert k v hn, fun e he => ?_⟩
  rcases mem_insert he with rfl | he
  · exact hv
  · exact hd e he

theorem isDistinct_members {x : Json} (h : x.isDistinct = true) :
    isDistinct (.obj x.members) = true := by
  cases x with
  | obj => exact h
  | _ => rfl

theorem isDistinct_items {x y : Json} (h : x.isDistinct = true) (hy : y ∈ x.items?.getD []) :
    y.isDistinct = true := by
  cases x with
  | arr items => exact isDistinct_arr.mp h y hy
  | _ => cases hy

/-! ## What is at a trail -/

theorem child?_put_key (y : Json) (k : String) (t : Trail) (x : Json) :
    (put y (.key k :: t) x).child? (.key k) = some (put y t ((x.get? k).getD .null)) :=
  lookup_insert _ _ _

theorem child?_put_index (y : Json) {i : Nat} (t : Trail) {x : Json}
    (h : i ≤ (x.items?.getD []).length) :
    (put y (.index i :: t) x).child? (.index i) = some (put y t ((x.item? i).getD .null)) := by
  rw [put, child?_index_arr, ← getElem?_items]
  split
  · next hi => rw [List.getElem?_set_self hi]
  · next hi =>
    have he : i = (x.items?.getD []).length := by omega
    rw [he, List.getElem?_concat_length, List.getElem?_eq_none (Nat.le_refl _)]
    rfl

/-- Beside the first step of the trail everything is as it was. -/
theorem child?_put_of_ne (y : Json) {s s' : Segment} (t : Trail) {x : Json} (h : s' ≠ s)
    {z : Json} (hz : (put y (s :: t) x).child? s' = some z) (hroom : HasRoom (s :: t) x) :
    x.child? s' = some z := by
  cases s with
  | key k =>
    cases s' with
    | index => cases hz
    | key k' =>
      have hne : k' ≠ k := fun he => h (he ▸ rfl)
      rw [put, child?_key_obj, lookup_insert_of_ne hne, lookup_members] at hz
      exact hz
  | index i =>
    cases s' with
    | key => cases hz
    | index i' =>
      have hne : i ≠ i' := fun he => h (he ▸ rfl)
      rw [put, child?_index_arr] at hz
      rw [child?, ← getElem?_items]
      split at hz
      · rwa [List.getElem?_set_ne hne] at hz
      · have hle := hroom.1
        by_cases hi : i' < (x.items?.getD []).length
        · rwa [List.getElem?_append_left hi] at hz
        · rw [List.getElem?_eq_none (by rw [List.length_append, List.length_singleton]; omega)]
            at hz
          cases hz

/-- What is beside the first step of the trail stays, if the container does. -/
theorem child?_put_of_child (y : Json) {s s' : Segment} (t : Trail) {x z : Json} (h : s' ≠ s)
    (hz : x.child? s' = some z) (hkind : ∀ k i, ¬(s = .key k ∧ s' = .index i) ∧
      ¬(s = .index i ∧ s' = .key k)) : (put y (s :: t) x).child? s' = some z := by
  cases s with
  | key k =>
    cases s' with
    | index i => exact absurd ⟨rfl, rfl⟩ (hkind k i).1
    | key k' =>
      have hne : k' ≠ k := fun he => h (he ▸ rfl)
      rw [put, child?_key_obj, lookup_insert_of_ne hne, lookup_members]
      exact hz
  | index i =>
    cases s' with
    | key k => exact absurd ⟨rfl, rfl⟩ (hkind k i).2
    | index i' =>
      have hne : i ≠ i' := fun he => h (he ▸ rfl)
      rw [child?, ← getElem?_items] at hz
      rw [put, child?_index_arr]
      split
      · rwa [List.getElem?_set_ne hne]
      · rwa [List.getElem?_append_left (List.getElem?_eq_some_iff.mp hz).1]

/-- The value that is below the first step of the trail before it is set there. -/
theorem child?_put (y : Json) {s : Segment} {t : Trail} {x : Json} (hroom : HasRoom (s :: t) x) :
    (put y (s :: t) x).child? s = some (put y t ((x.child? s).getD .null)) ∧
      HasRoom t ((x.child? s).getD .null) := by
  cases s with
  | key k => exact ⟨child?_put_key y k t x, hroom⟩
  | index i => exact ⟨child?_put_index y t hroom.1, hroom.2⟩

/-- **At the trail there is what was set.** -/
theorem at?_put (y : Json) {t : Trail} {x : Json} (hroom : HasRoom t x) (u : Trail) :
    (put y t x).at? (t ++ u) = y.at? u := by
  induction t generalizing x with
  | nil => rfl
  | cons s t ih =>
    obtain ⟨hc, hr⟩ := child?_put y hroom
    rw [List.cons_append, at?_cons_of_child hc]
    exact ih hr

/-- A value that is made on the way is a container with something in it. -/
theorem isEmpty_put_cons (y : Json) (s : Segment) (t : Trail) (x : Json) :
    (put y (s :: t) x).isEmpty = false := by
  cases s with
  | key k => exact isEmpty_insert _ _ _
  | index i =>
    rw [put]
    split
    · next h =>
      rw [isEmpty, List.isEmpty_eq_false_iff]
      exact fun he => by
        have := congrArg List.length he
        rw [List.length_set, List.length_nil] at this
        omega
    · rw [isEmpty, List.isEmpty_eq_false_iff]
      exact List.append_ne_nil_of_right_ne_nil _ (List.cons_ne_nil _ _)

/-- **Every other node was there before, or is on the way.** -/
theorem at?_of_put {y : Json} {t q : Trail} {x z : Json} (hroom : HasRoom t x)
    (h : (put y t x).at? q = some z) (hq : ¬t <+: q) :
    x.at? q = some z ∨ q <+: t := by
  induction t generalizing x q with
  | nil => exact absurd List.nil_prefix hq
  | cons s t ih =>
    cases q with
    | nil => exact .inr List.nil_prefix
    | cons s' q =>
      obtain ⟨w, hw, h⟩ := Option.bind_eq_some_iff.mp h
      by_cases hs : s' = s
      · subst hs
        obtain ⟨hc, hr⟩ := child?_put y hroom
        cases hc.symm.trans hw
        have hq' : ¬t <+: q := fun hp => hq (List.cons_prefix_cons.mpr ⟨rfl, hp⟩)
        rcases ih hr h hq' with h | h
        · cases hx : x.child? s' with
          | some c =>
            rw [hx] at h
            exact .inl ((at?_cons_of_child hx q).trans h)
          | none =>
            rw [hx] at h
            cases q with
            | nil => exact .inr (List.cons_prefix_cons.mpr ⟨rfl, List.nil_prefix⟩)
            | cons s q => simp at h
        · exact .inr (List.cons_prefix_cons.mpr ⟨rfl, h⟩)
      · refine .inl ?_
        rw [at?_cons_of_child (child?_put_of_ne y t hs hw hroom)]
        exact h

/-- Setting a node keeps keys distinct. -/
theorem isDistinct_put {y : Json} (hy : y.isDistinct = true) (t : Trail) {x : Json}
    (hx : x.isDistinct = true) : (put y t x).isDistinct = true := by
  induction t generalizing x with
  | nil => exact hy
  | cons s t ih =>
    cases s with
    | key k =>
      refine isDistinct_insert (ih ?_) (isDistinct_members hx)
      cases hk : x.get? k with
      | none => rfl
      | some c => exact isDistinct_of_child (s := .key k) hx hk
    | index i =>
      refine isDistinct_arr.mpr fun z hz => ?_
      split at hz
      · rcases List.mem_or_eq_of_mem_set hz with hz | rfl
        · exact isDistinct_items hx hz
        · refine ih ?_
          cases hi : (x.items?.getD [])[i]? with
          | none => rfl
          | some c => exact isDistinct_items hx (List.mem_of_getElem? hi)
      · rcases List.mem_append.mp hz with hz | hz
        · exact isDistinct_items hx hz
        · cases List.mem_singleton.mp hz
          exact ih rfl

/-! ## Changing what is there -/

theorem map_eq_insert {k : String} {c : Json} (f : Json → Json) {members : List (String × Json)}
    (hn : (members.map Prod.fst).Nodup) (hc : lookup k members = some c) :
    members.map (fun (l, v) => (l, if l = k then f v else v)) = insert k (f c) members := by
  induction members with
  | nil => cases hc
  | cons e rest ih =>
    obtain ⟨l, v⟩ := e
    rw [List.map_cons, List.nodup_cons] at hn
    by_cases h : l = k
    · subst h
      rw [lookup, List.lookup_cons_self] at hc
      cases hc
      have hrest : rest.map (fun (m, v) => (m, if m = l then f v else v)) = rest.map id :=
        List.map_congr_left fun e he => by
          have hne : e.1 ≠ l := fun h => hn.1 (List.mem_map.mpr ⟨e, he, h⟩)
          simp only [hne, if_false, id]
      simp only [List.map_cons, insert, if_true, hrest, List.map_id]
    · have hkl : (k == l) = false := beq_eq_false_iff_ne.mpr fun h' => h h'.symm
      rw [lookup, List.lookup_cons, hkl] at hc
      simp only [List.map_cons, insert, if_neg h, ih hn.2 hc]

theorem insert_of_lookup {k : String} {v : Json} {members : List (String × Json)}
    (h : lookup k members = some v) : insert k v members = members := by
  induction members with
  | nil => cases h
  | cons e rest ih =>
    obtain ⟨l, w⟩ := e
    rw [lookup, List.lookup_cons] at h
    rw [insert]
    by_cases hl : l = k
    · subst hl
      rw [beq_self_eq_true] at h
      cases h
      rw [if_pos rfl]
    · have hkl : (k == l) = false := beq_eq_false_iff_ne.mpr fun h' => hl h'.symm
      rw [hkl] at h
      rw [if_neg hl, ih h]

theorem get?_modify {x c : Json} {k : String} (hc : x.get? k = some c) (f : Json → Json) :
    (x.modify k f).get? k = some (f c) := by
  cases x with
  | obj members =>
    replace hc : lookup k members = some c := hc
    rw [modify, get?]
    induction members with
    | nil => cases hc
    | cons e rest ih =>
      obtain ⟨l, v⟩ := e
      rw [lookup, List.lookup_cons] at hc
      rw [List.map_cons, lookup, List.lookup_cons]
      by_cases h : k = l
      · subst h
        rw [beq_self_eq_true] at hc ⊢
        cases hc
        rw [if_pos rfl]
      · rw [beq_eq_false_iff_ne.mpr h] at hc ⊢
        dsimp only at hc ⊢
        exact ih hc
  | _ => cases hc

/-- Two changes of a member are one. -/
theorem modify_modify (k : String) (f g : Json → Json) (x : Json) :
    (x.modify k f).modify k g = x.modify k (g ∘ f) := by
  cases x with
  | obj members =>
    simp only [modify, List.map_map, obj.injEq]
    refine List.map_congr_left fun e _ => ?_
    simp only [Function.comp]
    split <;> rfl
  | _ => rfl

theorem modifyItem_modifyItem (x : Json) (i : Nat) (f g : Json → Json) :
    (x.modifyItem i f).modifyItem i g = x.modifyItem i (g ∘ f) := by
  cases x with
  | arr items => simp only [modifyItem, List.modify_modify_eq]
  | _ => rfl

/-- A change that leaves a member as it is changes nothing. -/
theorem modify_of_fixed {x c : Json} {k : String} {f : Json → Json} (hd : x.isDistinct = true)
    (hc : x.get? k = some c) (hf : f c = c) : x.modify k f = x := by
  cases x with
  | obj members =>
    rw [modify]
    congr 1
    conv => rhs; rw [← List.map_id members]
    refine List.map_congr_left fun e he => ?_
    obtain ⟨l, v⟩ := e
    by_cases h : l = k
    · subst h
      have hv := (lookup_eq_some_iff (isDistinct_obj.mp hd).1).mpr he
      cases hv.symm.trans hc
      simp only [if_true, hf, id]
    · simp only [h, if_false, id]
  | _ => cases hc

/-- Changing a member that is there sets it. -/
theorem modify_eq_put {x c : Json} {k : String} (hd : x.isDistinct = true)
    (hc : x.get? k = some c) (f : Json → Json) : x.modify k f = put (f c) [.key k] x := by
  cases x with
  | obj members =>
    rw [modify, map_eq_insert f (isDistinct_obj.mp hd).1 hc]
    rfl
  | _ => cases hc

/-- Changing an item that is there sets it. -/
theorem modifyItem_eq_put {x c : Json} {i : Nat} (hc : x.item? i = some c) (f : Json → Json) :
    x.modifyItem i f = put (f c) [.index i] x := by
  cases x with
  | arr items =>
    have hc : items[i]? = some c := hc
    have hi := (List.getElem?_eq_some_iff.mp hc).1
    rw [modifyItem, put, List.modify_eq_set, hc]
    exact congrArg Json.arr (if_pos hi).symm
  | _ => cases hc

/-- Setting a node of a node that is there sets it further down. -/
theorem put_append {x c : Json} {t : Trail} (hc : x.at? t = some c) (y : Json) (u : Trail) :
    put (put y u c) t x = put y (t ++ u) x := by
  induction t generalizing x with
  | nil =>
    cases hc
    rfl
  | cons s t ih =>
    obtain ⟨z, hz, hzc⟩ := Option.bind_eq_some_iff.mp hc
    cases s with
    | key k =>
      have hz : x.get? k = some z := hz
      rw [List.cons_append, put, put, hz, Option.getD_some, ih hzc]
    | index i =>
      have hz : x.item? i = some z := hz
      rw [← getElem?_items] at hz
      have hi := (List.getElem?_eq_some_iff.mp hz).1
      simp only [List.cons_append, put, if_pos hi, hz, Option.getD_some, ih hzc]

/-- The same for a change of a node that is there. -/
theorem modify_put {x c : Json} {k : String} {t : Trail} {y : Json} {f : Json → Json}
    (hd : x.isDistinct = true) (hc : x.get? k = some c) (hf : f c = put y t c) :
    x.modify k f = put y (.key k :: t) x := by
  rw [modify_eq_put hd hc, hf]
  exact @put_append _ _ [.key k] (@at?_cons_of_child (.key k) x c hc []) y t

theorem modifyItem_put {x c : Json} {i : Nat} {t : Trail} {y : Json} {f : Json → Json}
    (hc : x.item? i = some c) (hf : f c = put y t c) :
    x.modifyItem i f = put y (.index i :: t) x := by
  rw [modifyItem_eq_put hc, hf]
  exact @put_append _ _ [.index i] (@at?_cons_of_child (.index i) x c hc []) y t

end Json

namespace Shape

/-- **What is set where it fits leaves a value that fits.** A value that is missing is null. -/
theorem fits_put {s s' : Shape} {v y : Json} {t : Trail} (hroom : Json.HasRoom t v)
    (hv : s.Fits v ∨ v = .null) (hs : s.at? t = some s') (hy : s'.Fits y) :
    s.Fits (Json.put y t v) := by
  induction t generalizing s v with
  | nil =>
    cases hs
    exact hy
  | cons step t ih =>
    obtain ⟨s₁, hs₁, hst⟩ := Option.bind_eq_some_iff.mp hs
    obtain ⟨hc, hr⟩ := Json.child?_put y hroom
    refine fits_of_child ?_ fun step' x hx => ?_
    · cases step with
      | key k => cases s <;> first | rfl | cases hs₁
      | index i => cases s <;> first | rfl | cases hs₁
    · by_cases he : step' = step
      · subst he
        cases hc.symm.trans hx
        refine ⟨s₁, hs₁, ih hr ?_ hst⟩
        cases hcv : v.child? step' with
        | none => exact .inr rfl
        | some c =>
          rcases hv with hv | rfl
          · exact .inl (hv.child_of hcv hs₁)
          · simp at hcv
      · have hx' := Json.child?_put_of_ne y t he hx hroom
        rcases hv with hv | rfl
        · exact hv.child hx'
        · simp at hx'

/-- Where a value fits, a leaf beside the trail stays what it was. -/
theorem at?_put_of_leaf {s s' : Shape} {v y z : Json} {t q : Trail} (hroom : Json.HasRoom t v)
    (hv : s.Fits v) (hs : s.at? t = some s') (hz : v.at? q = some z) (hleaf : z.isScalar = true)
    (hq : ¬t <+: q) : (Json.put y t v).at? q = some z := by
  induction t generalizing s v q with
  | nil => exact absurd List.nil_prefix hq
  | cons step t ih =>
    obtain ⟨s₁, hs₁, hst⟩ := Option.bind_eq_some_iff.mp hs
    cases q with
    | nil =>
      -- The value itself is a container, since something lies below it.
      cases hz
      rw [eq_leaf_of_isScalar hv hleaf] at hs₁
      cases step <;> cases hs₁
    | cons step' q =>
      obtain ⟨x, hx, hz⟩ := Option.bind_eq_some_iff.mp hz
      by_cases he : step' = step
      · subst he
        obtain ⟨hc, hr⟩ := Json.child?_put y hroom
        rw [hx] at hc hr
        rw [Json.at?_cons_of_child hc]
        exact ih hr (hv.child_of hx hs₁) hst hz fun hp =>
          hq (List.cons_prefix_cons.mpr ⟨rfl, hp⟩)
      · obtain ⟨s₂, hs₂, -⟩ := hv.child hx
        rw [Json.at?_cons_of_child (Json.child?_put_of_child y t he hx fun k i => ?_), hz]
        constructor
        · rintro ⟨rfl, rfl⟩
          cases s <;> first | cases hs₁ | cases hs₂
        · rintro ⟨rfl, rfl⟩
          cases s <;> first | (cases hs₁; done) | cases hs₂

end Shape

end Provision
