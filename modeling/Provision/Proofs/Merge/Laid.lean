import Provision.Proofs.Merge.Faithful
import Provision.Proofs.Merge.Noted

/-!
# Merging lays values with origins over each other

The merged value and its origins are those of the lower value with the upper one laid over it, when
each node carries its origin with it. What is said of values with origins is thus said of merging.

* `noted`: a value with the origins of its nodes.
* `noted_inj`: it tells the value and the origins of its nodes.
* `noted_merge`: merging is `Noted.lay`.
-/

set_option autoImplicit false

namespace Provision.Merge

/-! ## A value with the origins of its nodes -/

mutual

/-- A value with the origins of its nodes. -/
def noted (f : Trail → Option Trail) : Json → Noted
  | .null => .null (f [])
  | .bool b => .scalar (f []) (.bool b) rfl
  | .num n => .scalar (f []) (.num n) rfl
  | .str s => .scalar (f []) (.str s) rfl
  | .arr items => .arr (f []) (notedItems f 0 items)
  | .obj members => .obj (f []) (notedMembers f members)

/-- Items with the origins of their nodes, from a position on. -/
def notedItems (f : Trail → Option Trail) : (position : Nat) → List Json → List Noted
  | _, [] => []
  | position, x :: rest =>
    noted (fun t => f (.index position :: t)) x :: notedItems f (position + 1) rest

/-- Members with the origins of their nodes. -/
def notedMembers (f : Trail → Option Trail) : List (String × Json) → List (String × Noted)
  | [] => []
  | (k, x) :: rest => (k, noted (fun t => f (.key k :: t)) x) :: notedMembers f rest

end

/-- An entry with the origins of its nodes. -/
def notedItem (f : Trail → Option Trail) (e : Nat × Json) : Noted :=
  noted (fun t => f (.index e.1 :: t)) e.2

/-- A member with the origins of its nodes. -/
def notedMember (f : Trail → Option Trail) (e : String × Json) : String × Noted :=
  (e.1, noted (fun t => f (.key e.1 :: t)) e.2)

theorem notedItems_eq (f : Trail → Option Trail) (items : List Json) :
    notedItems f 0 items = (numbered items).map (notedItem f) := by
  suffices h : ∀ position, notedItems f position items =
      ((items.zipIdx position).map fun e => (e.2, e.1)).map (notedItem f) from h 0
  induction items with
  | nil => intro position; rfl
  | cons x rest ih =>
    intro position
    rw [notedItems, ih (position + 1), List.zipIdx_cons, List.map_cons, List.map_cons]
    rfl

theorem notedMembers_eq (f : Trail → Option Trail) (members : List (String × Json)) :
    notedMembers f members = members.map (notedMember f) := by
  induction members with
  | nil => rfl
  | cons e rest ih => rw [notedMembers, ih]; rfl

mutual

/-- The value is the one that origins were noted in. -/
@[simp] theorem bare_noted (f : Trail → Option Trail) : (x : Json) → (noted f x).bare = x
  | .null | .bool _ | .num _ | .str _ => rfl
  | .arr items => congrArg Json.arr (bareItems_noted f 0 items)
  | .obj members => congrArg Json.obj (bareMembers_noted f members)

theorem bareItems_noted (f : Trail → Option Trail) :
    (position : Nat) → (items : List Json) → Noted.bareItems (notedItems f position items) = items
  | _, [] => rfl
  | position, x :: rest => by
    rw [notedItems, Noted.bareItems, bare_noted _ x, bareItems_noted f (position + 1) rest]

theorem bareMembers_noted (f : Trail → Option Trail) :
    (members : List (String × Json)) → Noted.bareMembers (notedMembers f members) = members
  | [] => rfl
  | (k, x) :: rest => by
    rw [notedMembers, Noted.bareMembers, bare_noted _ x, bareMembers_noted f rest]

end

/-- Two notes of a value agree exactly if they agree at its nodes. -/
theorem noted_eq_iff {x : Json} (hx : x.isDistinct = true) {f g : Trail → Option Trail} :
    noted f x = noted g x ↔ ∀ t, (x.at? t).isSome = true → f t = g t := by
  induction x using Json.child_induction generalizing f g with
  | step x ih =>
    have below : (∀ t, (x.at? t).isSome = true → f t = g t) ↔
        f [] = g [] ∧ ∀ s y, x.child? s = some y →
          noted (fun t => f (s :: t)) y = noted (fun t => g (s :: t)) y := by
      constructor
      · refine fun h => ⟨h [] rfl, fun s y hy => ?_⟩
        refine (ih s y hy (Json.isDistinct_of_child hx hy)).mpr fun t ht => h (s :: t) ?_
        rwa [Json.at?_cons_of_child hy]
      · rintro ⟨h0, h⟩ t ht
        cases t with
        | nil => exact h0
        | cons s t =>
          obtain ⟨z, hz⟩ := Option.isSome_iff_exists.mp ht
          obtain ⟨y, hy, hz⟩ := Option.bind_eq_some_iff.mp hz
          exact (ih s y hy (Json.isDistinct_of_child hx hy)).mp (h s y hy) t (by rw [hz]; rfl)
    rw [below]
    cases x with
    | arr items =>
      rw [noted, noted, Noted.arr.injEq, notedItems_eq, notedItems_eq, List.map_inj_left]
      refine and_congr_right fun _ => ⟨fun h s y hy => ?_, fun h e he => ?_⟩
      · cases s with
        | key => cases hy
        | index i => exact h (i, y) (mem_numbered.mpr hy)
      · exact h (.index e.1) e.2 (mem_numbered.mp he)
    | obj members =>
      rw [noted, noted, Noted.obj.injEq, notedMembers_eq, notedMembers_eq, List.map_inj_left]
      refine and_congr_right fun _ => ⟨fun h s y hy => ?_, fun h e he => ?_⟩
      · cases s with
        | index => cases hy
        | key k => exact (Prod.mk.inj (h (k, y) (Json.mem_of_lookup hy))).2
      · have hl := (Json.lookup_eq_some_iff (Json.isDistinct_obj.mp hx).1).mpr he
        exact congrArg (Prod.mk e.1) (h (.key e.1) e.2 hl)
    | null | bool | num | str =>
      refine ⟨fun h => ⟨?_, fun s y hy => ?_⟩, fun h => ?_⟩
      · rw [noted, noted] at h
        injection h
      · cases s <;> cases hy
      · rw [noted, noted, h.1]

/-- **A value and the origins of its nodes are told by their notes.** -/
theorem noted_inj {x y : Json} (hx : x.isDistinct = true) {f g : Trail → Option Trail}
    (h : noted f x = noted g y) : x = y ∧ ∀ t, (x.at? t).isSome = true → f t = g t := by
  have hxy : x = y := by
    rw [← bare_noted f x, h, bare_noted]
  subst hxy
  exact ⟨rfl, (noted_eq_iff hx).mp h⟩

/-- A value with the origins of its nodes is of the kinds that the value is of. -/
theorem agrees_noted {kinds : Outline → Json.Kind} {x : Json} (hx : x.isDistinct = true)
    (hk : x.Respects kinds) (f : Trail → Option Trail) : (noted f x).Agrees kinds := by
  induction x using Json.child_induction generalizing kinds f with
  | step x ih =>
    have below : ∀ s y, x.child? s = some y →
        (noted (fun t => f (s :: t)) y).Agrees fun o => kinds (s.key? :: o) := fun s y hy =>
      ih s y hy (Json.isDistinct_of_child hx hy) (hk.child hy) _
    cases x with
    | null => exact .null
    | bool | num | str => exact .scalar (hk [] _ .scalar rfl rfl)
    | arr items =>
      refine .arr (hk [] _ .list rfl rfl) fun a ha => ?_
      rw [notedItems_eq] at ha
      obtain ⟨⟨i, y⟩, he, rfl⟩ := List.mem_map.mp ha
      exact below (.index i) y (mem_numbered.mp he)
    | obj members =>
      refine .obj (hk [] _ .object rfl rfl) fun a ha => ?_
      rw [notedMembers_eq] at ha
      obtain ⟨⟨k, y⟩, he, rfl⟩ := List.mem_map.mp ha
      exact below (.key k) y ((Json.lookup_eq_some_iff (Json.isDistinct_obj.mp hx).1).mpr he)

/-! ## The parts of a merged container -/

/-- Lists are recognised by the keys that lead to them. -/
theorem keyKindAt_congr {t u : Trail} (h : t.outline = u.outline) : keyKindAt t = keyKindAt u := by
  have hfits : ∀ p : Pattern, p.fits t = p.fits u := fun p => by
    rw [Bool.eq_iff_iff, Pattern.fits_iff, Pattern.fits_iff, h]
  simp only [keyKindAt, hfits]

theorem takeKeyed_eq (kind : KeyKind) (key : String) (entries : List (Nat × Json)) :
    takeKeyed kind key entries = takeFirst (fun e => keyOf? kind e.2) key entries := by
  induction entries with
  | nil => rfl
  | cons e rest ih => rw [takeKeyed, takeFirst, ih]

/-- The partner of an entry is taken whether or not origins are noted. -/
theorem takeSame_noted (kind : Option KeyKind) (f g : Trail → Option Trail) (x : Json)
    (entries : List (Nat × Json)) :
    takeSame (Noted.key? kind) (noted f x) (entries.map (notedItem g)) =
      (takePartner kind x entries).map fun e => (notedItem g e.1, e.2.map (notedItem g)) := by
  cases kind with
  | none => rfl
  | some kind =>
    have hkey : ∀ e ∈ entries, Noted.key? (some kind) (notedItem g e) = keyOf? kind e.2 :=
      fun e _ => congrArg (keyOf? kind) (bare_noted _ e.2)
    have hx : Noted.key? (some kind) (noted f x) = keyOf? kind x :=
      congrArg (keyOf? kind) (bare_noted f x)
    have hpartner : takePartner (some kind) x entries =
        (keyOf? kind x).bind fun key => takeKeyed kind key entries := rfl
    rw [takeSame, hx, hpartner]
    cases keyOf? kind x with
    | none => rfl
    | some key =>
      exact (takeFirst_map hkey).trans (congrArg _ (takeKeyed_eq kind key entries).symm)

/-- The first member of a name, where names are distinct. -/
theorem takeFirst_members {k : String} {members : List (String × Json)}
    (hd : (members.map Prod.fst).Nodup) :
    takeFirst nameOf k members =
      (Json.lookup k members).map fun y => ((k, y), members.filter fun e => e.1 ≠ k) := by
  induction members with
  | nil => rfl
  | cons e rest ih =>
    obtain ⟨l, y⟩ := e
    rw [List.map_cons, List.nodup_cons] at hd
    rw [Json.lookup, List.lookup_cons]
    by_cases hk : l = k
    · subst hk
      have hrest : ∀ e ∈ rest, decide (e.1 ≠ l) = true := fun e he =>
        decide_eq_true fun h => hd.1 (List.mem_map.mpr ⟨e, he, h⟩)
      have hl : nameOf (l, y) = some l := rfl
      rw [takeFirst_cons_of_eq hl, beq_self_eq_true,
        List.filter_cons_of_neg (by simp), List.filter_eq_self.mpr hrest]
      rfl
    · have hne : nameOf (l, y) ≠ some k := fun h => hk (Option.some.inj h)
      rw [takeFirst_cons_of_ne hne, ih hd.2,
        beq_eq_false_iff_ne.mpr (Ne.symm hk), List.filter_cons_of_pos (by simpa using hk)]
      rw [Option.map_map]
      rfl

/-- The partner of a member is taken whether or not origins are noted. -/
theorem takeSame_notedMembers {k : String} {members : List (String × Json)}
    (hd : (members.map Prod.fst).Nodup) (f : Trail → Option Trail) (x : Noted) :
    takeSame nameOf (k, x) (members.map (notedMember f)) =
      (Json.lookup k members).map fun y =>
        (notedMember f (k, y), (members.filter fun e => e.1 ≠ k).map (notedMember f)) := by
  have hkey : ∀ e ∈ members, nameOf (notedMember f e) = nameOf e := fun _ _ => rfl
  have hk : nameOf (k, x) = some k := rfl
  rw [takeSame_of_key hk, takeFirst_map hkey, takeFirst_members hd, Option.map_map]
  rfl

theorem lookup_filter_ne {k l : String} (h : l ≠ k) (members : List (String × Json)) :
    Json.lookup l (members.filter fun e => e.1 ≠ k) = Json.lookup l members := by
  induction members with
  | nil => rfl
  | cons e rest ih =>
    obtain ⟨m, y⟩ := e
    rw [Json.lookup, Json.lookup] at *
    by_cases hm : m = k
    · subst hm
      rw [List.filter_cons_of_neg (by simp), ih, List.lookup_cons, beq_eq_false_iff_ne.mpr h]
    · rw [List.filter_cons_of_pos (by simpa using hm), List.lookup_cons, List.lookup_cons, ih]

/-- The first member of a lower object takes its partner from the upper one. -/
theorem memberParts_cons {k : String} {x : Json} {rest upper : List (String × Json)}
    (hk : k ∉ rest.map Prod.fst) :
    memberParts ((k, x) :: rest) upper =
      lowerMember upper (k, x) :: memberParts rest (upper.filter fun e => e.1 ≠ k) := by
  have hlower : rest.map (lowerMember upper) =
      rest.map (lowerMember (upper.filter fun e => e.1 ≠ k)) := by
    refine List.map_congr_left fun e he => ?_
    have hne : e.1 ≠ k := fun h => hk (h ▸ List.mem_map_of_mem he)
    rw [lowerMember, lowerMember, lookup_filter_ne hne]
  have hfresh : fresh ((k, x) :: rest) upper = fresh rest (upper.filter fun e => e.1 ≠ k) := by
    rw [fresh, fresh, List.filter_filter]
    refine List.filter_congr fun e _ => ?_
    rw [Json.lookup, List.lookup_cons]
    by_cases he : e.1 = k
    · simp [he]
    · simp [he, Json.lookup, beq_eq_false_iff_ne.mpr he]
  rw [memberParts, memberParts, List.map_cons, List.cons_append, hlower, hfresh]

/-! ## Layers with origins -/

namespace Layers

variable (lower upper : Trail → Option Trail)

/-- The origin of what is at a place: the one that it has in the upper config, or else the one in
the lower config. -/
def origin (here : Trail) (l : Layers) : Option Trail :=
  (l.upper?.bind fun e => upper e.1).or (l.lower?.bind fun _ => lower here)

/-- The origins of what is below a place. -/
def origins (here : Trail) (l : Layers) (t : Trail) : Option Trail :=
  (l.at? here t).bind (origin lower upper (here ++ t))

/-- The layers with their origins. -/
def noted (here : Trail) : Layers → Noted
  | .lower x => Merge.noted (fun t => lower (here ++ t)) x
  | .upper there y => Merge.noted (fun t => upper (there ++ t)) y
  | .both there x y => Noted.lay here.outline (Merge.noted (fun t => lower (here ++ t)) x)
      (Merge.noted (fun t => upper (there ++ t)) y)

theorem noted_laid (there here : Trail) (x y : Json) :
    (laid there x y).noted lower upper here =
      Noted.lay here.outline (Merge.noted (fun t => lower (here ++ t)) x)
        (Merge.noted (fun t => upper (there ++ t)) y) := by
  by_cases hy : y = .null
  · subst hy
    rw [laid_null, Merge.noted, Noted.lay_null]
    rfl
  · cases hs : x.sameContainer y with
    | true => rw [laid_of_sameContainer hs]; rfl
    | false =>
      rw [laid_of_not_sameContainer hy hs]
      cases y with
      | null => exact absurd rfl hy
      | bool | num | str => exact (Noted.lay_scalar _ _ _ _ rfl).symm
      | arr | obj =>
        cases x with
        | null | bool | num | str => rfl
        | arr | obj => first | rfl | cases hs

theorem noted_cons (place : Trail) (s : Segment) (f : Trail → Option Trail) (x : Json) :
    Merge.noted (fun t => f (place ++ [s] ++ t)) x =
      Merge.noted (fun t => f (place ++ (s :: t))) x := by
  simp only [List.append_assoc, List.singleton_append]

/-- **Two lists are laid over each other entry by entry.** -/
theorem map_itemParts (there here : Trail) (kind : Option KeyKind) (position : Nat)
    (others : List (Nat × Json)) (items : List Json) :
    ((itemParts kind position others items).map fun p =>
        (ofPart there p.2).noted lower upper (here ++ [p.1])) =
      layKeyed (Noted.key? kind) (Noted.lay (here.outline ++ [none]))
        (notedItems (fun t => lower (here ++ t)) position items)
        (others.map (notedItem fun t => upper (there ++ t))) := by
  induction items generalizing position others with
  | nil =>
    rw [itemParts, notedItems, layKeyed_nil]
    induction others generalizing position with
    | nil => rfl
    | cons e rest ih =>
      rw [newParts, List.map_cons, List.map_cons, ih]
      exact congrArg (· :: _) (noted_cons there (.index e.1) upper e.2)
  | cons x rest ih =>
    have hpartner := takeSame_noted kind (fun t => lower (here ++ (.index position :: t)))
      (fun t => upper (there ++ t)) x others
    rw [itemParts, notedItems]
    cases ht : takePartner kind x others with
    | none =>
      rw [ht] at hpartner
      rw [layKeyed_cons_of_none hpartner, ← ih]
      exact congrArg (· :: _) (noted_cons here (.index position) lower x)
    | some found =>
      obtain ⟨⟨j, y⟩, left⟩ := found
      rw [ht] at hpartner
      rw [layKeyed_cons_of_some hpartner, ← ih, List.map_cons]
      refine congrArg (· :: _) ?_
      rw [ofPart, noted_laid, noted_cons, noted_cons, Trail.outline_append]
      rfl

/-- **Two objects are laid over each other member by member.** -/
theorem map_memberParts (there here : Trail) {members others : List (String × Json)}
    (hx : (members.map Prod.fst).Nodup) (hy : (others.map Prod.fst).Nodup) :
    ((memberParts members others).map fun p =>
        (p.1.text, (ofPart there p.2).noted lower upper (here ++ [p.1]))) =
      layKeyed nameOf (Noted.layMember here.outline)
        (notedMembers (fun t => lower (here ++ t)) members)
        (notedMembers (fun t => upper (there ++ t)) others) := by
  simp only [notedMembers_eq]
  induction members generalizing others with
  | nil =>
    have hall : fresh [] others = others := List.filter_eq_self.mpr fun _ _ => rfl
    rw [memberParts, hall, List.map_nil, List.nil_append, List.map_map, List.map_nil, layKeyed_nil]
    refine List.map_congr_left fun e _ => ?_
    exact congrArg (Prod.mk e.1) (noted_cons there (.key e.1) upper e.2)
  | cons e rest ih =>
    obtain ⟨k, x⟩ := e
    rw [List.map_cons, List.nodup_cons] at hx
    have hpartner := takeSame_notedMembers (k := k) hy
      (fun t => upper (there ++ t)) (Merge.noted (fun t => lower (here ++ (.key k :: t))) x)
    have hleft : ((others.filter fun e => e.1 ≠ k).map Prod.fst).Nodup :=
      hy.sublist (List.filter_sublist.map _)
    rw [memberParts_cons hx.1, List.map_cons, List.map_cons, ih hx.2 hleft, lowerMember]
    cases hl : Json.lookup k others with
    | none =>
      rw [hl] at hpartner
      have hall : (others.filter fun e => e.1 ≠ k) = others := by
        refine List.filter_eq_self.mpr fun e he => decide_eq_true fun h => ?_
        exact Json.lookup_eq_none_iff.mp hl (List.mem_map.mpr ⟨e, he, h⟩)
      rw [notedMember, layKeyed_cons_of_none hpartner, hall]
      exact congrArg (fun n => (k, n) :: _) (noted_cons here (.key k) lower x)
    | some y =>
      rw [hl] at hpartner
      rw [notedMember, layKeyed_cons_of_some hpartner]
      refine congrArg (fun n => (k, n) :: _) ?_
      rw [ofPart, noted_laid, noted_cons, noted_cons, Trail.outline_append]
      rfl

theorem notedItems_map {f : Trail → Option Trail} {position : Nat} {parts : List Placed}
    (h : parts.map Prod.fst = (List.range' position parts.length).map .index)
    (value : Placed → Json) :
    notedItems f position (parts.map value) =
      parts.map fun p => Merge.noted (fun t => f (p.1 :: t)) (value p) := by
  induction parts generalizing position with
  | nil => rfl
  | cons p rest ih =>
    rw [List.length_cons, List.range'_succ, List.map_cons, List.map_cons, List.cons.injEq] at h
    rw [List.map_cons, notedItems, ih h.2, List.map_cons, h.1]

theorem notedMembers_map {f : Trail → Option Trail} {names : List String} {parts : List Placed}
    (h : parts.map Prod.fst = names.map .key) (value : Placed → Json) :
    notedMembers f (parts.map fun p => (p.1.text, value p)) =
      parts.map fun p => (p.1.text, Merge.noted (fun t => f (p.1 :: t)) (value p)) := by
  induction parts generalizing names with
  | nil => rfl
  | cons p rest ih =>
    cases names with
    | nil => cases h
    | cons name names =>
      rw [List.map_cons, List.map_cons, List.cons.injEq] at h
      rw [List.map_cons, notedMembers, ih h.2, List.map_cons, h.1]
      rfl

theorem origins_cons {here : Trail} {s : Segment} {l m : Layers} (h : l.below? here s = some m)
    (t : Trail) :
    l.origins lower upper here (s :: t) = m.origins lower upper (here ++ [s]) t := by
  rw [origins, origins, at?_cons, h, Option.bind_some, List.append_assoc]
  rfl

/-- **What layers are merged to has the origins that the layers have.** -/
theorem noted_merged (here : Trail) (l : Layers) (hl : l.Sound) :
    Merge.noted (l.origins lower upper here) (l.merged here).value = l.noted lower upper here := by
  induction here, l, hl using below_induction with
  | step here l hl ih =>
    cases l with
    | lower x =>
      refine (noted_eq_iff (x := x) hl).mpr fun t ht => ?_
      obtain ⟨z, hz⟩ := Option.isSome_iff_exists.mp ht
      rw [origins, at?_lower, hz]
      rfl
    | upper there y =>
      refine (noted_eq_iff (x := y) hl).mpr fun t ht => ?_
      obtain ⟨z, hz⟩ := Option.isSome_iff_exists.mp ht
      rw [origins, at?_upper, hz]
      exact Option.or_none
    | both there x y =>
      obtain ⟨hs, hx, hy⟩ := hl
      have hroot : (both there x y).origins lower upper here [] = (upper there).or (lower here) := by
        rw [origins, List.append_nil]
        rfl
      have below : ∀ p ∈ parts here x y,
          Merge.noted (fun t => (both there x y).origins lower upper here (p.1 :: t))
            (p.merged there here).value = (ofPart there p.2).noted lower upper (here ++ [p.1]) := by
        intro p hp
        have hm : (both there x y).below? here p.1 = some (ofPart there p.2) := by
          rw [below?, (lookup_parts_iff hx hy).mpr hp]
          rfl
        simp only [origins_cons lower upper hm]
        rw [← ih p.1 _ hm, merged_ofPart]
        rfl
      cases x <;> cases y <;> try exact absurd hs Bool.false_ne_true
      case arr.arr items others =>
        have hkind : keyKindAt here.outline.trail = keyKindAt here :=
          keyKindAt_congr (Outline.outline_trail _)
        have hplaces := itemParts_places (keyKindAt here) 0 (numbered others) items
        rw [merged, mergeValue_arr, Merged.container, Merge.noted, hroot, notedItems_map hplaces,
          List.map_congr_left (show ∀ p ∈ itemParts _ 0 _ _, _ from below), map_itemParts, noted,
          Merge.noted, Merge.noted, Noted.lay_arr, hkind, List.append_nil, List.append_nil,
          notedItems_eq (fun t => upper (there ++ t))]
      case obj.obj members others =>
        have hplaces := memberParts_places members others
        have hnamed : ∀ p ∈ memberParts members others,
            (p.1.text, Merge.noted (fun t => origins lower upper here
              (both there (.obj members) (.obj others)) (p.1 :: t)) (p.merged there here).value) =
            (p.1.text, (ofPart there p.2).noted lower upper (here ++ [p.1])) := fun p hp =>
          congrArg (Prod.mk p.1.text) (below p hp)
        rw [merged, mergeValue_obj, Merged.container, Merge.noted, hroot, partMembers,
          notedMembers_map hplaces, List.map_congr_left hnamed,
          map_memberParts lower upper there here (Json.isDistinct_obj.mp hx).1
            (Json.isDistinct_obj.mp hy).1, noted,
          Merge.noted, Merge.noted, Noted.lay_obj, List.append_nil, List.append_nil]

end Layers

/-! ## Merging -/

section Configs

variable {lower upper : Translated Json} (hx : lower.value.isDistinct = true)
  (hy : upper.value.isDistinct = true)

include hx hy

/-- The origins of a merged config are those of its layers. -/
theorem find?_merge_eq (hn : (upper.provenance.origins.map Prod.fst).Nodup) (q : Trail) :
    (merge lower upper).provenance.find? q =
      (Layers.laid [] lower.value upper.value).origins lower.provenance.find?
        upper.provenance.find? [] q := by
  have moved := fun u => moved_iff hx hy (u := u) (q := q)
  have stayed := stayed_iff hx hy (q := q)
  rw [Layers.origins]
  rcases find?_merge hx hy hn q with ⟨u, o, hmoved, ho, hq⟩ | ⟨hnone, hlow⟩
  · obtain ⟨m, c, hm, hc⟩ := (moved u).mp hmoved
    rw [hq, hm, Option.bind_some, Layers.origin, hc, Option.bind_some, ho]
    rfl
  · cases hm : (Layers.laid [] lower.value upper.value).at? [] q with
    | none =>
      rcases hlow with ⟨hst, -⟩ | ⟨-, hq⟩
      · obtain ⟨m, hm', -⟩ := stayed.mp hst
        rw [hm] at hm'
        cases hm'
      · exact hq
    | some m =>
      have hup : (m.upper?.bind fun e => upper.provenance.find? e.1) = none := by
        cases hc : m.upper? with
        | none => rfl
        | some e => exact hnone e.1 ((moved e.1).mpr ⟨m, e.2, hm, hc⟩)
      rw [Option.bind_some, Layers.origin, hup, Option.none_or, List.nil_append]
      rcases hlow with ⟨hst, hq⟩ | ⟨hst, hq⟩
      · obtain ⟨m', hm', hlow⟩ := stayed.mp hst
        cases hm.symm.trans hm'
        obtain ⟨a, ha⟩ := Option.isSome_iff_exists.mp hlow
        rw [hq, ha]
        rfl
      · cases ha : m.lower? with
        | none => exact hq
        | some a => exact absurd (stayed.mpr ⟨m, hm, by rw [ha]; rfl⟩) hst

/-- **Merging lays the values with their origins over each other.** -/
theorem noted_merge (hn : (upper.provenance.origins.map Prod.fst).Nodup) :
    noted (merge lower upper).provenance.find? (merge lower upper).value =
      Noted.lay [] (noted lower.provenance.find? lower.value)
        (noted upper.provenance.find? upper.value) := by
  have hmerged := Layers.noted_merged lower.provenance.find? upper.provenance.find? []
    (Layers.laid [] lower.value upper.value) (Layers.sound_laid hx hy [])
  have horigins : (merge lower upper).provenance.find? = _ := funext (find?_merge_eq hx hy hn)
  rw [Layers.noted_laid, Layers.merged_laid] at hmerged
  rw [horigins]
  exact hmerged

end Configs

end Provision.Merge
