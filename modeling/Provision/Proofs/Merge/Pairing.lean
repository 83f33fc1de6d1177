import Provision.Proofs.Merge.Parts

/-!
# Which parts of two containers are paired

The parts of two containers of the same kind, and what every merged container keeps of them: each
part of either side is in one part of the merged container, and the paired ones are together in one.

* `Partner`: which step of the lower container is paired with which of the upper one.
* `parts_spec`: a part is of both sides, or has no partner on the other side.
* `child?_mergeValue`, `kept_mergeValue`, `moved_mergeValue`: a merged container, part by part.
-/

set_option autoImplicit false

namespace Provision.Merge

/-- The parts of two containers of the same kind, the lower one at a trail. -/
def parts (here : Trail) : (lower upper : Json) → List Placed
  | .obj lower, .obj upper => memberParts lower upper
  | .arr lower, .arr upper => itemParts (keyKindAt here) 0 (numbered upper) lower
  | _, _ => []

/-- A step of the lower container is paired with one of the upper container: the same key of two
objects, or the positions of the entries of two lists that have the same key and as many entries
with that key before them. -/
inductive Partner (here : Trail) : (lower upper : Json) → (place origin : Segment) → Prop where
  | member {lower upper : List (String × Json)} {k : String} (hl : (Json.lookup k lower).isSome)
      (hu : (Json.lookup k upper).isSome) :
      Partner here (.obj lower) (.obj upper) (.key k) (.key k)
  | entry {lower upper : List Json} {kind : KeyKind} {key : String} {n i j : Nat}
      (hk : keyKindAt here = some kind) (hl : (positionsOf kind key 0 lower)[n]? = some i)
      (hu : (positionsOf kind key 0 upper)[n]? = some j) :
      Partner here (.arr lower) (.arr upper) (.index i) (.index j)

/-! ## Places -/

theorem memberParts_places (lower upper : List (String × Json)) :
    (memberParts lower upper).map Prod.fst =
      (lower.map Prod.fst ++ (fresh lower upper).map Prod.fst).map .key := by
  simp only [memberParts, List.map_append, List.map_map]
  rfl

theorem partMembers_names (there here : Trail) (lower upper : List (String × Json)) :
    (partMembers there here (memberParts lower upper)).map Prod.fst =
      lower.map Prod.fst ++ (fresh lower upper).map Prod.fst := by
  have h := congrArg (List.map Segment.text) (memberParts_places lower upper)
  simp only [List.map_map] at h
  rw [partMembers, List.map_map]
  exact h.trans (List.map_id _)

theorem nodup_map_key {names : List String} (h : names.Nodup) :
    (names.map Segment.key).Nodup :=
  List.Pairwise.map _ (fun _ _ hne he => hne (Segment.key.inj he)) h

theorem nodup_map_index {positions : List Nat} (h : positions.Nodup) :
    (positions.map Segment.index).Nodup :=
  List.Pairwise.map _ (fun _ _ hne he => hne (Segment.index.inj he)) h

theorem nodup_names {lower upper : List (String × Json)} (hl : (lower.map Prod.fst).Nodup)
    (hu : (upper.map Prod.fst).Nodup) :
    (lower.map Prod.fst ++ (fresh lower upper).map Prod.fst).Nodup := by
  refine List.nodup_append.mpr ⟨hl, hu.sublist (List.filter_sublist.map _), ?_⟩
  rintro k hk k' hk' rfl
  obtain ⟨e, he, rfl⟩ := List.mem_map.mp hk'
  have hn : Json.lookup e.1 lower = none := by
    simpa using (List.mem_filter.mp he).2
  exact Json.lookup_eq_none_iff.mp hn hk

/-- The parts of two containers are at different places. -/
theorem parts_nodup {here : Trail} {x y : Json} (hx : x.isDistinct = true)
    (hy : y.isDistinct = true) : ((parts here x y).map Prod.fst).Nodup := by
  cases x <;> cases y <;> try exact List.nodup_nil
  case obj.obj lower upper =>
    rw [parts, memberParts_places]
    exact nodup_map_key
      (nodup_names (Json.isDistinct_obj.mp hx).1 (Json.isDistinct_obj.mp hy).1)
  case arr.arr lower upper =>
    rw [parts, itemParts_places]
    exact nodup_map_index List.nodup_range'

theorem lookup_parts_iff {here : Trail} {x y : Json} (hx : x.isDistinct = true)
    (hy : y.isDistinct = true) {s : Segment} {p : Part} :
    (parts here x y).lookup s = some p ↔ (s, p) ∈ parts here x y :=
  List.lookup_eq_some_iff_mem (parts_nodup hx hy)

theorem parts_place_unique {here : Trail} {x y : Json} (hx : x.isDistinct = true)
    (hy : y.isDistinct = true) {s : Segment} {p q : Part} (hp : (s, p) ∈ parts here x y)
    (hq : (s, q) ∈ parts here x y) : p = q := by
  rw [← lookup_parts_iff hx hy] at hp hq
  exact Option.some.inj (hp.symm.trans hq)

/-! ## The two sides -/

/-- Every part of the lower container is in the part at its own place. -/
theorem mem_parts_lower {here : Trail} {x y : Json} (hs : x.sameContainer y = true)
    (hx : x.isDistinct = true) {s : Segment} {z : Json} :
    (∃ p, (s, p) ∈ parts here x y ∧ p.lower? = some z) ↔ x.child? s = some z := by
  cases x <;> cases y <;> try cases hs
  case obj.obj lower upper =>
    constructor
    · rintro ⟨p, hp, hz⟩
      rcases mem_memberParts.mp hp with ⟨k, x, hk, he⟩ | ⟨k, y, -, -, -, rfl⟩
      · have hpx : p.lower? = some x := by
          rw [lowerMember] at he
          cases hu : Json.lookup k upper <;> simp only [hu] at he <;> cases he <;> rfl
        cases hz.symm.trans hpx
        cases congrArg Prod.fst he
        exact (Json.lookup_eq_some_iff (Json.isDistinct_obj.mp hx).1).mpr hk
      · cases hz
    · intro h
      cases s with
      | index => cases h
      | key k =>
        refine ⟨(lowerMember upper (k, z)).2,
          mem_memberParts.mpr (.inl ⟨k, z, Json.mem_of_lookup h, rfl⟩), ?_⟩
        rw [lowerMember]
        cases Json.lookup k upper <;> rfl
  case arr.arr lower upper =>
    rw [parts, mem_itemParts_lower]
    constructor
    · rintro ⟨i, rfl, hi⟩
      rw [Nat.zero_add]
      exact hi
    · intro h
      cases s with
      | key => cases h
      | index i => exact ⟨i, by rw [Nat.zero_add], h⟩

theorem mem_itemParts_upper {kind : Option KeyKind} {upper : List Json} {lower : List Json}
    {o : Segment} {z : Json} :
    (∃ s p, (s, p) ∈ itemParts kind 0 (numbered upper) lower ∧ p.upper? = some (o, z)) ↔
      (Json.arr upper).child? o = some z := by
  have hm := (itemParts_perm kind 0 (numbered upper) lower).mem_iff (a := (o, z))
  simp only [List.mem_filterMap, List.mem_map, Prod.exists, Prod.mk.injEq, mem_numbered] at hm
  refine hm.trans ⟨?_, fun h => ?_⟩
  · rintro ⟨j, y, hj, rfl, rfl⟩
    exact hj
  · cases o with
    | key => cases h
    | index j => exact ⟨j, z, h, rfl, rfl⟩

/-- Every part of the upper container is in some part. -/
theorem mem_parts_upper {here : Trail} {x y : Json} (hs : x.sameContainer y = true)
    (hx : x.isDistinct = true) (hy : y.isDistinct = true) {o : Segment} {z : Json} :
    (∃ s p, (s, p) ∈ parts here x y ∧ p.upper? = some (o, z)) ↔ y.child? o = some z := by
  cases x <;> cases y <;> try cases hs
  case obj.obj lower upper =>
    have hu := (Json.isDistinct_obj.mp hy).1
    constructor
    · rintro ⟨s, p, hp, hz⟩
      rcases mem_memberParts.mp hp with ⟨k, x, -, he⟩ | ⟨k, y, hk, -, -, rfl⟩
      · rw [lowerMember] at he
        cases hl : Json.lookup k upper <;> simp only [hl] at he <;> cases he <;> cases hz
        exact hl
      · cases hz
        exact (Json.lookup_eq_some_iff hu).mpr hk
    · intro h
      cases o with
      | index => cases h
      | key k =>
        cases hl : Json.lookup k lower with
        | none =>
          exact ⟨.key k, .upper (.key k) z,
            mem_memberParts.mpr (.inr ⟨k, z, Json.mem_of_lookup h, hl, rfl, rfl⟩), rfl⟩
        | some x =>
          refine ⟨.key k, .both (.key k) x z,
            mem_memberParts.mpr (.inl ⟨k, x, Json.mem_of_lookup hl, ?_⟩), rfl⟩
          have hk : Json.lookup k upper = some z := h
          rw [lowerMember, hk]
  case arr.arr lower upper => exact mem_itemParts_upper

/-- Members stay under their keys. -/
theorem memberParts_origin {lower upper : List (String × Json)} {s o : Segment} {p : Part}
    {z : Json} (hp : (s, p) ∈ memberParts lower upper) (hz : p.upper? = some (o, z)) : s = o := by
  rcases mem_memberParts.mp hp with ⟨k, x, -, he⟩ | ⟨k, y, -, -, rfl, rfl⟩
  · rw [lowerMember] at he
    cases hu : Json.lookup k upper <;> simp only [hu] at he <;> cases he <;> cases hz
    rfl
  · cases hz
    rfl

/-- No part of the upper container is in two parts. -/
theorem parts_origin_unique {here : Trail} {x y : Json} {s s' o : Segment} {p p' : Part}
    {z z' : Json} (hp : (s, p) ∈ parts here x y) (hz : p.upper? = some (o, z))
    (hp' : (s', p') ∈ parts here x y) (hz' : p'.upper? = some (o, z')) : s = s' := by
  cases x <;> cases y <;> try cases hp
  case obj.obj lower upper =>
    rw [memberParts_origin hp hz, memberParts_origin hp' hz']
  case arr.arr lower upper =>
    have hn : (((itemParts (keyKindAt here) 0 (numbered upper) lower).filterMap
        (·.2.upper?)).map Prod.fst).Nodup := by
      rw [((itemParts_perm (keyKindAt here) 0 (numbered upper) lower).map Prod.fst).nodup_iff,
        List.map_map]
      have := nodup_map_index (nodup_numbered upper)
      rwa [List.map_map] at this
    exact congrArg Prod.fst (List.eq_of_nodup_filterMap hn hp hp' hz hz')

/-- A part is of both containers exactly if it is one of two partners. -/
theorem mem_parts_both {here : Trail} {x y : Json} (hx : x.isDistinct = true)
    {s o : Segment} :
    (∃ x' y', (s, .both o x' y') ∈ parts here x y) ↔ Partner here x y s o := by
  constructor
  · rintro ⟨x', y', hp⟩
    cases x <;> cases y <;> try cases hp
    case obj.obj lower upper =>
      rcases mem_memberParts.mp hp with ⟨k, x, hk, he⟩ | ⟨k, y, -, -, -, hp⟩
      · rw [lowerMember] at he
        have hl := (Json.lookup_eq_some_iff (Json.isDistinct_obj.mp hx).1).mpr hk
        cases hu : Json.lookup k upper <;> simp only [hu] at he <;> cases he
        exact .member (by rw [hl]; rfl) (by rw [hu]; rfl)
      · cases hp
    case arr.arr lower upper =>
      obtain ⟨i, rfl, -⟩ := mem_itemParts_lower.mp ⟨_, hp, rfl⟩
      have ho := mem_itemParts_upper.mp ⟨_, _, hp, rfl⟩
      cases o with
      | key => cases ho
      | index j =>
        obtain ⟨kd, key, n, hk, hi, hj⟩ := mem_itemParts_both.mp ⟨_, hp⟩
        refine .entry hk hi ?_
        rw [← withKey_numbered, List.getElem?_map, hj]
        rfl
  · rintro (⟨hl, hu⟩ | ⟨hk, hl, hu⟩)
    · obtain ⟨x', hl⟩ := Option.isSome_iff_exists.mp hl
      obtain ⟨y', hu⟩ := Option.isSome_iff_exists.mp hu
      refine ⟨x', y', mem_memberParts.mpr (.inl ⟨_, x', Json.mem_of_lookup hl, ?_⟩)⟩
      rw [lowerMember, hu]
    · rw [← withKey_numbered, List.getElem?_map, Option.map_eq_some_iff] at hu
      obtain ⟨⟨j, y'⟩, hu, rfl⟩ := hu
      obtain ⟨x', hp⟩ := mem_itemParts_both.mpr ⟨_, _, _, hk, hl, hu⟩
      exact ⟨x', y', hp⟩

/-- What a part of two containers is: either it is of two partners, or of one container and has no
partner in the other one. -/
inductive PartOf (here : Trail) (x y : Json) : Segment → Part → Prop where
  | both {s o : Segment} {x' y' : Json} (h : Partner here x y s o) (hx : x.child? s = some x')
      (hy : y.child? o = some y') : PartOf here x y s (.both o x' y')
  | lower {s : Segment} {x' : Json} (h : ∀ o, ¬Partner here x y s o)
      (hx : x.child? s = some x') : PartOf here x y s (.lower x')
  | upper {s o : Segment} {y' : Json} (h : ∀ s', ¬Partner here x y s' o)
      (hx : x.child? s = none) (hy : y.child? o = some y') : PartOf here x y s (.upper o y')

/-- **Every part of two containers is one of two partners, or has none.** -/
theorem parts_spec {here : Trail} {x y : Json} (hs : x.sameContainer y = true)
    (hx : x.isDistinct = true) (hy : y.isDistinct = true) {s : Segment} {p : Part}
    (hp : (s, p) ∈ parts here x y) : PartOf here x y s p := by
  cases p with
  | both o x' y' =>
    exact .both ((mem_parts_both hx).mp ⟨x', y', hp⟩) ((mem_parts_lower hs hx).mp ⟨_, hp, rfl⟩)
      ((mem_parts_upper hs hx hy).mp ⟨_, _, hp, rfl⟩)
  | lower x' =>
    refine .lower (fun o ho => ?_) ((mem_parts_lower hs hx).mp ⟨_, hp, rfl⟩)
    obtain ⟨x', y', hb⟩ := (mem_parts_both hx).mpr ho
    cases parts_place_unique hx hy hp hb
  | upper o y' =>
    refine .upper (fun s' hs' => ?_) ?_ ((mem_parts_upper hs hx hy).mp ⟨_, _, hp, rfl⟩)
    · obtain ⟨x', y'', hb⟩ := (mem_parts_both hx).mpr hs'
      cases parts_origin_unique hp rfl hb rfl
      cases parts_place_unique hx hy hp hb
    · cases hc : x.child? s with
      | none => rfl
      | some x' =>
        obtain ⟨q, hq, hl⟩ := (@mem_parts_lower here x y hs hx s x').mpr hc
        cases parts_place_unique hx hy hp hq
        cases hl

/-- Partners are in one part. -/
theorem mem_parts_of_partner {here : Trail} {x y x' y' : Json} (hs : x.sameContainer y = true)
    (hx : x.isDistinct = true) (hy : y.isDistinct = true) {s o : Segment}
    (h : Partner here x y s o) (hx' : x.child? s = some x') (hy' : y.child? o = some y') :
    (s, .both o x' y') ∈ parts here x y := by
  obtain ⟨x'', y'', hp⟩ := (mem_parts_both hx).mpr h
  cases parts_spec hs hx hy hp with
  | both _ hx'' hy'' =>
    cases hx'.symm.trans hx''
    cases hy'.symm.trans hy''
    exact hp

/-! ## Merged containers -/

theorem kept_mergeValue {x y : Json} (hs : x.sameContainer y = true) (there here : Trail) :
    (mergeValue there here x y).kept =
      here :: (parts here x y).flatMap fun p => (p.merged there here).kept := by
  cases x <;> cases y <;> try cases hs
  · rw [mergeValue_arr]; rfl
  · rw [mergeValue_obj]; rfl

theorem moved_mergeValue {x y : Json} (hs : x.sameContainer y = true) (there here : Trail) :
    (mergeValue there here x y).moved =
      (there, here) :: (parts here x y).flatMap fun p => (p.merged there here).moved := by
  cases x <;> cases y <;> try cases hs
  · rw [mergeValue_arr]; rfl
  · rw [mergeValue_obj]; rfl

/-- A merged container is of the same kind. -/
theorem sameContainer_mergeValue {x y : Json} (hs : x.sameContainer y = true)
    (there here : Trail) : x.sameContainer (mergeValue there here x y).value = true := by
  cases x <;> cases y <;> try cases hs
  · rw [mergeValue_arr]; rfl
  · rw [mergeValue_obj]; rfl

theorem lookup_partMembers (there here : Trail) {parts : List Placed} {names : List String}
    (h : parts.map Prod.fst = names.map .key) (k : String) :
    Json.lookup k (partMembers there here parts) =
      (parts.lookup (.key k)).map fun p => (p.merged there here (.key k)).value := by
  induction parts generalizing names with
  | nil => rfl
  | cons p rest ih =>
    obtain ⟨s, p⟩ := p
    cases names with
    | nil => cases h
    | cons name names =>
      rw [List.map_cons, List.map_cons, List.cons.injEq] at h
      obtain ⟨rfl, h⟩ := h
      have hb : (Segment.key k == Segment.key name) = (k == name) := by
        rw [Bool.eq_iff_iff, beq_iff_eq, beq_iff_eq, Segment.key.injEq]
      rw [partMembers, List.map_cons, Json.lookup, List.lookup_cons, List.lookup_cons, hb]
      cases hk : k == name with
      | true =>
        cases eq_of_beq hk
        simp [Segment.text, Placed.merged]
      | false =>
        have := ih h
        simp only [partMembers, Json.lookup] at this
        simpa [Segment.text, hk] using this

theorem getElem?_partItems (there here : Trail) {parts : List Placed} {position : Nat}
    (h : parts.map Prod.fst = (List.range' position parts.length).map .index) (i : Nat) :
    (parts.map fun p => (p.merged there here).value)[i]? =
      (parts.lookup (.index (position + i))).map fun p =>
        (p.merged there here (.index (position + i))).value := by
  induction parts generalizing position i with
  | nil => rfl
  | cons p rest ih =>
    obtain ⟨s, p⟩ := p
    rw [List.length_cons, List.range'_succ, List.map_cons, List.map_cons, List.cons.injEq] at h
    obtain ⟨rfl, h⟩ := h
    cases i with
    | zero =>
      rw [Nat.add_zero, List.lookup_cons_self]
      rfl
    | succ i =>
      have hne : (Segment.index (position + (i + 1)) == Segment.index position) = false := by
        simp
      rw [List.lookup_cons, hne, List.map_cons, List.getElem?_cons_succ, ih h i,
        show position + 1 + i = position + (i + 1) by omega]

/-- **What is below a merged container is what its parts are merged to.** -/
theorem child?_mergeValue {x y : Json} (hs : x.sameContainer y = true) (there here : Trail)
    (s : Segment) :
    (mergeValue there here x y).value.child? s =
      ((parts here x y).lookup s).map fun p => (p.merged there here s).value := by
  cases x <;> cases y <;> try cases hs
  case arr.arr lower upper =>
    have hp := itemParts_places (keyKindAt here) 0 (numbered upper) lower
    rw [mergeValue_arr, parts]
    cases s with
    | key k =>
      have hn : (itemParts (keyKindAt here) 0 (numbered upper) lower).lookup (.key k) = none := by
        rw [List.lookup_eq_none_iff]
        intro p hm
        have hk := List.mem_map_of_mem (f := Prod.fst) hm
        rw [hp] at hk
        obtain ⟨i, -, hi⟩ := List.mem_map.mp hk
        rw [← hi]
        rfl
      rw [hn]
      rfl
    | index i =>
      have hi := getElem?_partItems there here hp i
      rwa [Nat.zero_add] at hi
  case obj.obj lower upper =>
    have hp := memberParts_places lower upper
    rw [mergeValue_obj, parts]
    cases s with
    | key k => exact lookup_partMembers there here hp k
    | index i =>
      have hn : (memberParts lower upper).lookup (.index i) = none := by
        rw [List.lookup_eq_none_iff]
        intro p hm
        have hk := List.mem_map_of_mem (f := Prod.fst) hm
        rw [hp] at hk
        obtain ⟨k, -, hk⟩ := List.mem_map.mp hk
        rw [← hk]
        rfl
      rw [hn]
      rfl

end Provision.Merge
