import Provision.Proofs.Merge.Layers
import Provision.Proofs.Outline

/-!
# The nodes of two configs in the merged one

Where the nodes of two configs are when one is laid over the other. A node of the lower config stays
where it is, unless something of another kind is laid over it or over what it is in. A node of the
upper config is there unless it is null; its keys stay the same, only positions in lists change.

* `Layers.at?_nodes`: the layers of a merged node are nodes of the two configs.
* `Layers.lower?_isSome_iff`: a node of the lower config stays exactly if it is not overridden.
* `Layers.exists_upper`, `Layers.upper_unique`: every node of the upper config that is not null is
  at exactly one place.
* `isDistinct_merged`: the merged config has distinct keys.
-/

set_option autoImplicit false

namespace Provision

namespace Merge

/-- A node of the lower config, at a trail, is opposite to a node of the upper one if all steps to
the one are paired with the steps to the other. -/
inductive Opposite : (here : Trail) → (lower upper : Json) → (place origin : Trail) → Prop where
  | root {here : Trail} {x y : Json} : Opposite here x y [] []
  | step {here : Trail} {x y x' y' : Json} {s o : Segment} {t u : Trail}
      (h : Partner here x y s o) (hx : x.child? s = some x') (hy : y.child? o = some y')
      (rest : Opposite (here ++ [s]) x' y' t u) : Opposite here x y (s :: t) (o :: u)

/-- A node of the lower config is overridden if something is laid over it, or over a node that it is
in, that is neither null nor a container of the same kind. -/
def Overridden (here : Trail) (lower upper : Json) (t : Trail) : Prop :=
  ∃ t₁ t₂ u x y, t = t₁ ++ t₂ ∧ Opposite here lower upper t₁ u ∧ lower.at? t₁ = some x ∧
    upper.at? u = some y ∧ y ≠ .null ∧ x.sameContainer y = false

theorem Partner.sameContainer {here : Trail} {x y : Json} {s o : Segment}
    (h : Partner here x y s o) : x.sameContainer y = true := by
  cases h <;> rfl

theorem Partner.outline_eq {here : Trail} {x y : Json} {s o : Segment} (h : Partner here x y s o) :
    Trail.outline [o] = Trail.outline [s] := by
  cases h <;> rfl

/-- A step has at most one partner. -/
theorem Partner.unique {here : Trail} {x y : Json} (hx : x.isDistinct = true)
    (hy : y.isDistinct = true) {s o o' : Segment} (h : Partner here x y s o)
    (h' : Partner here x y s o') : o = o' := by
  obtain ⟨_, _, hp⟩ := (mem_parts_both hx).mpr h
  obtain ⟨_, _, hp'⟩ := (mem_parts_both hx).mpr h'
  cases parts_place_unique hx hy hp hp'
  rfl

theorem partOf_outline {here : Trail} {x y : Json} (hs : x.sameContainer y = true)
    (hx : x.isDistinct = true) (hy : y.isDistinct = true) {s o : Segment} {p : Part} {z : Json}
    (hp : (s, p) ∈ parts here x y) (hz : p.upper? = some (o, z)) :
    Trail.outline [o] = Trail.outline [s] := by
  cases x <;> cases y <;> try cases hs
  case obj.obj => rw [memberParts_origin hp hz]
  case arr.arr lower upper =>
    have hk := List.mem_map_of_mem (f := Prod.fst) hp
    rw [parts, itemParts_places] at hk
    obtain ⟨i, -, rfl⟩ := List.mem_map.mp hk
    have ho := mem_itemParts_upper.mp ⟨_, _, hp, hz⟩
    cases o with
    | key => cases ho
    | index => rfl

namespace Layers

/-! ## Layers are nodes -/

theorem lower?_laid {there : Trail} {x y a : Json} (h : (laid there x y).lower? = some a) :
    a = x := by
  rw [laid] at h
  split at h <;> try split at h
  all_goals cases h <;> rfl

theorem upper?_laid {there : Trail} {x y : Json} {e : Trail × Json}
    (h : (laid there x y).upper? = some e) : e = (there, y) := by
  rw [laid] at h
  split at h <;> try split at h
  all_goals cases h <;> rfl

theorem upper?_laid_of_ne_null {there : Trail} {x y : Json} (hy : y ≠ .null) :
    (laid there x y).upper? = some (there, y) := by
  rw [laid, if_neg hy]
  split <;> rfl

theorem below?_nodes {here : Trail} {s : Segment} {l m : Layers} (hl : l.Sound)
    (h : l.below? here s = some m) :
    (∀ a, m.lower? = some a → ∃ x, l.lower? = some x ∧ x.child? s = some a) ∧
      ∀ u c, m.upper? = some (u, c) → ∃ there y o, l.upper? = some (there, y) ∧
        u = there ++ [o] ∧ y.child? o = some c ∧ Trail.outline [o] = Trail.outline [s] := by
  cases l with
  | lower x =>
    obtain ⟨z, hz, rfl⟩ := Option.map_eq_some_iff.mp h
    exact ⟨fun a ha => ⟨x, rfl, hz.trans ha⟩, fun u c hu => by cases hu⟩
  | upper there y =>
    obtain ⟨z, hz, rfl⟩ := Option.map_eq_some_iff.mp h
    refine ⟨fun a ha => (by cases ha), fun u c hu => ?_⟩
    cases hu
    exact ⟨there, y, s, rfl, rfl, hz, rfl⟩
  | both there x y =>
    obtain ⟨hs, hx, hy⟩ := hl
    obtain ⟨p, hp, rfl⟩ := Option.map_eq_some_iff.mp h
    have hm := (lookup_parts_iff hx hy).mp hp
    cases parts_spec hs hx hy hm with
    | lower _ hx' => exact ⟨fun a ha => ⟨x, rfl, hx'.trans ha⟩, fun u c hu => by cases hu⟩
    | upper _ _ hy' =>
      refine ⟨fun a ha => (by cases ha), fun u c hu => ?_⟩
      cases hu
      exact ⟨there, y, _, rfl, rfl, hy', partOf_outline hs hx hy hm rfl⟩
    | @both o x' y' hpair hx' hy' =>
      refine ⟨fun a ha => ?_, fun u c hu => ?_⟩
      · cases lower?_laid ha
        exact ⟨x, rfl, hx'⟩
      · cases upper?_laid hu
        exact ⟨there, y, o, rfl, rfl, hy', hpair.outline_eq⟩

/-- **The layers of a merged node are nodes of the two configs.** The lower one is at the same
place, and the upper one is at a place with the same keys. -/
theorem at?_nodes {here t : Trail} {l m : Layers} (hl : l.Sound) (h : l.at? here t = some m) :
    (∀ a, m.lower? = some a → ∃ x, l.lower? = some x ∧ x.at? t = some a) ∧
      ∀ u c, m.upper? = some (u, c) → ∃ there y v, l.upper? = some (there, y) ∧
        u = there ++ v ∧ y.at? v = some c ∧ Trail.outline v = Trail.outline t := by
  induction t generalizing here l with
  | nil =>
    cases h
    exact ⟨fun a ha => ⟨a, ha, rfl⟩, fun u c hu => ⟨u, c, [], hu, (List.append_nil u).symm, rfl, rfl⟩⟩
  | cons s t ih =>
    obtain ⟨n, hn, h⟩ := Option.bind_eq_some_iff.mp h
    obtain ⟨hlow, hup⟩ := below?_nodes hl hn
    obtain ⟨ihl, ihu⟩ := ih (sound_of_below hl hn) h
    refine ⟨fun a ha => ?_, fun u c hu => ?_⟩
    · obtain ⟨z, hz, ha⟩ := ihl a ha
      obtain ⟨x, hx, hc⟩ := hlow z hz
      exact ⟨x, hx, (Json.at?_cons_of_child hc t).trans ha⟩
    · obtain ⟨there', z, v, hz, rfl, hv, hov⟩ := ihu u c hu
      obtain ⟨there, y, o, hy, rfl, hc, ho⟩ := hup there' z hz
      refine ⟨there, y, o :: v, hy, by simp, (Json.at?_cons_of_child hc v).trans hv, ?_⟩
      simp only [Trail.outline, List.map_cons, List.map_nil, List.cons.injEq] at ho hov ⊢
      exact ⟨ho.1, hov⟩

/-! ## Nodes of the upper config -/

theorem exists_below_of_upper {here there : Trail} {o : Segment} {l : Layers} (hl : l.Sound)
    {y c : Json} (hu : l.upper? = some (there, y)) (hc : y.child? o = some c) (hn : c ≠ .null) :
    ∃ s m, l.below? here s = some m ∧ m.upper? = some (there ++ [o], c) := by
  cases l with
  | lower => cases hu
  | upper there' y' =>
    cases hu
    exact ⟨o, upper (there ++ [o]) c, by rw [below?, hc]; rfl, rfl⟩
  | both there' x y' =>
    cases hu
    obtain ⟨hs, hx, hy⟩ := hl
    obtain ⟨s, p, hp, hz⟩ := (@mem_parts_upper here x y hs hx hy o c).mpr hc
    refine ⟨s, ofPart there p, by rw [below?, (lookup_parts_iff hx hy).mpr hp]; rfl, ?_⟩
    cases p with
    | lower => cases hz
    | upper => cases hz; rfl
    | both => cases hz; exact upper?_laid_of_ne_null hn

theorem ne_null_of_at {x c : Json} {t : Trail} (h : x.at? t = some c) (hn : c ≠ .null) :
    x ≠ .null := by
  rintro rfl
  cases t with
  | nil => cases h; exact hn rfl
  | cons s t => simp at h

/-- **Every node of the upper config that is not null is in the merged one.** -/
theorem exists_upper {here there v : Trail} {l : Layers} (hl : l.Sound) {y c : Json}
    (hu : l.upper? = some (there, y)) (hc : y.at? v = some c) (hn : c ≠ .null) :
    ∃ t m, l.at? here t = some m ∧ m.upper? = some (there ++ v, c) := by
  induction v generalizing here there l y with
  | nil =>
    cases hc
    exact ⟨[], l, rfl, by rw [hu, List.append_nil]⟩
  | cons o v ih =>
    obtain ⟨z, hz, hc⟩ := Option.bind_eq_some_iff.mp hc
    obtain ⟨s, m, hm, hmu⟩ :=
      @exists_below_of_upper here there o l hl y z hu hz (ne_null_of_at hc hn)
    obtain ⟨t, n, ht, hnu⟩ : ∃ t n, m.at? (here ++ [s]) t = some n ∧
        n.upper? = some (there ++ [o] ++ v, c) := ih (sound_of_below hl hm) hmu hc
    exact ⟨s :: t, n, by rw [at?_cons, hm]; exact ht, by rw [hnu]; simp⟩

/-- A part of the upper container is below one step only. -/
theorem below_unique {here there : Trail} {s s' o : Segment} {l m m' : Layers} (hl : l.Sound)
    {c c' : Json} (h : l.below? here s = some m) (hu : m.upper? = some (there ++ [o], c))
    (h' : l.below? here s' = some m') (hu' : m'.upper? = some (there ++ [o], c')) : s = s' := by
  cases l with
  | lower x =>
    obtain ⟨z, -, rfl⟩ := Option.map_eq_some_iff.mp h
    cases hu
  | upper start y =>
    obtain ⟨z, -, rfl⟩ := Option.map_eq_some_iff.mp h
    obtain ⟨z', -, rfl⟩ := Option.map_eq_some_iff.mp h'
    simp only [upper?, Option.some.injEq, Prod.mk.injEq] at hu hu'
    exact (List.cons.inj (List.append_inj_right' (hu.1.trans hu'.1.symm) rfl)).1
  | both start x y =>
    obtain ⟨hs, hx, hy⟩ := hl
    obtain ⟨p, hp, rfl⟩ := Option.map_eq_some_iff.mp h
    obtain ⟨p', hp', rfl⟩ := Option.map_eq_some_iff.mp h'
    have origin : ∀ {p : Part} {d}, (ofPart start p).upper? = some (there ++ [o], d) →
        ∃ z, p.upper? = some (o, z) := by
      intro p d hd
      cases p with
      | lower => cases hd
      | upper o' y' =>
        simp only [ofPart, upper?, Option.some.injEq, Prod.mk.injEq] at hd
        cases (List.cons.inj (List.append_inj_right' hd.1 rfl)).1
        exact ⟨y', rfl⟩
      | both o' x' y' =>
        have he := congrArg Prod.fst (upper?_laid hd)
        cases (List.cons.inj (List.append_inj_right' he rfl)).1
        exact ⟨y', rfl⟩
    obtain ⟨z, hz⟩ := origin hu
    obtain ⟨z', hz'⟩ := origin hu'
    exact parts_origin_unique ((lookup_parts_iff hx hy).mp hp) hz
      ((lookup_parts_iff hx hy).mp hp') hz'

/-- **A node of the upper config is at one place only.** -/
theorem upper_unique {here t t' u : Trail} {l m m' : Layers} (hl : l.Sound) {c c' : Json}
    (h : l.at? here t = some m) (hu : m.upper? = some (u, c)) (h' : l.at? here t' = some m')
    (hu' : m'.upper? = some (u, c')) : t = t' := by
  induction t generalizing here l t' with
  | nil =>
    cases h
    obtain ⟨-, hn⟩ := at?_nodes hl h'
    obtain ⟨there, y, v, hy, he, -, hv⟩ := hn u c' hu'
    cases hu.symm.trans hy
    cases List.append_right_eq_self.mp he.symm
    cases t' with
    | nil => rfl
    | cons => cases hv
  | cons s t ih =>
    obtain ⟨n, hn, h⟩ := Option.bind_eq_some_iff.mp h
    have hns := sound_of_below hl hn
    obtain ⟨there, y, v, hy, rfl, -, -⟩ := (at?_nodes hns h).2 u c hu
    obtain ⟨start, z, o, hz, rfl, -, -⟩ := (below?_nodes hl hn).2 there y hy
    cases t' with
    | nil =>
      cases h'
      have he := congrArg Prod.fst (Option.some.inj (hz.symm.trans hu'))
      simp at he
    | cons s' t' =>
      obtain ⟨n', hn', h'⟩ := Option.bind_eq_some_iff.mp h'
      have hns' := sound_of_below hl hn'
      obtain ⟨there', y', v', hy', he, -, -⟩ := (at?_nodes hns' h').2 _ c' hu'
      obtain ⟨start', z', o', hz', rfl, -, -⟩ := (below?_nodes hl hn').2 there' y' hy'
      cases hz.symm.trans hz'
      simp only [List.append_assoc, List.singleton_append, List.append_cancel_left_eq,
        List.cons.injEq] at he
      obtain ⟨rfl, rfl⟩ := he
      cases below_unique hl hn hy hn' hy'
      cases hn.symm.trans hn'
      rw [ih hns h h']

/-- **A node of the upper config is where the node that it is opposite to was**, unless it is
null. -/
theorem upper?_of_opposite {here there t u : Trail} {x y c : Json} (hx : x.isDistinct = true)
    (hy : y.isDistinct = true) (h : Opposite here x y t u) (hc : y.at? u = some c)
    (hn : c ≠ .null) :
    ∃ m, (laid there x y).at? here t = some m ∧ m.upper? = some (there ++ u, c) := by
  induction h generalizing there with
  | root =>
    cases hc
    exact ⟨_, rfl, by rw [upper?_laid_of_ne_null hn, List.append_nil]⟩
  | @step here x y x' y' s o t u h hx' hy' _ ih =>
    have hs := h.sameContainer
    rw [Json.at?_cons_of_child hy'] at hc
    obtain ⟨m, hm, hu⟩ : ∃ m, (laid (there ++ [o]) x' y').at? (here ++ [s]) t = some m ∧
        m.upper? = some (there ++ [o] ++ u, c) :=
      ih (Json.isDistinct_of_child hx hx') (Json.isDistinct_of_child hy hy') hc
    refine ⟨m, ?_, by rw [hu]; simp⟩
    rw [laid_of_sameContainer hs, at?_cons, below?,
      (lookup_parts_iff hx hy).mpr (mem_parts_of_partner hs hx hy h hx' hy')]
    exact hm

/-! ## Nodes of the lower config -/

theorem overridden_cons {here t : Trail} {x y x' y' : Json} {s o : Segment}
    (h : Partner here x y s o) (hx : x.child? s = some x') (hy : y.child? o = some y')
    (ht : Overridden (here ++ [s]) x' y' t) : Overridden here x y (s :: t) := by
  obtain ⟨t₁, t₂, u, a, c, rfl, hop, ha, hc, hn, hs⟩ := ht
  exact ⟨s :: t₁, t₂, o :: u, a, c, rfl, .step h hx hy hop,
    (Json.at?_cons_of_child hx t₁).trans ha, (Json.at?_cons_of_child hy u).trans hc, hn, hs⟩

/-- What is below two containers of the same kind is overridden from what it is paired with. -/
theorem overridden_of_cons {here t : Trail} {x y : Json} {s : Segment}
    (hs : x.sameContainer y = true) (h : Overridden here x y (s :: t)) :
    ∃ o x' y', Partner here x y s o ∧ x.child? s = some x' ∧ y.child? o = some y' ∧
      Overridden (here ++ [s]) x' y' t := by
  obtain ⟨t₁, t₂, u, a, c, he, hop, ha, hc, hn, hd⟩ := h
  cases hop with
  | root =>
    cases ha
    cases hc
    rw [hs] at hd
    cases hd
  | @step _ _ _ x' y' s' o t₁ u hp hx' hy' rest =>
    cases he
    rw [Json.at?_cons_of_child hx'] at ha
    rw [Json.at?_cons_of_child hy'] at hc
    exact ⟨o, x', y', hp, hx', hy', t₁, t₂, u, a, c, rfl, rest, ha, hc, hn, hd⟩

/-- **A node of the lower config stays exactly if it is not overridden.** -/
theorem lower?_isSome_iff {here there t : Trail} {x y : Json} (hx : x.isDistinct = true)
    (hy : y.isDistinct = true) :
    (∃ m, (laid there x y).at? here t = some m ∧ m.lower?.isSome = true) ↔
      (x.at? t).isSome = true ∧ ¬Overridden here x y t := by
  induction t generalizing here there x y with
  | nil =>
    by_cases hn : y = .null
    · subst hn
      rw [laid_null]
      refine ⟨fun _ => ⟨rfl, ?_⟩, fun _ => ⟨_, rfl, rfl⟩⟩
      rintro ⟨t₁, t₂, u, a, c, he, hop, -, hc, hn, -⟩
      exact absurd rfl (ne_null_of_at hc hn)
    · cases hs : x.sameContainer y with
      | true =>
        rw [laid_of_sameContainer hs]
        refine ⟨fun _ => ⟨rfl, ?_⟩, fun _ => ⟨_, rfl, rfl⟩⟩
        rintro ⟨t₁, t₂, u, a, c, he, hop, ha, hc, -, hd⟩
        cases hop with
        | root =>
          cases ha
          cases hc
          rw [hs] at hd
          cases hd
        | step => cases he
      | false =>
        rw [laid_of_not_sameContainer hn hs]
        refine ⟨fun ⟨m, hm, h⟩ => (by cases hm; cases h), fun ⟨_, h⟩ => absurd ?_ h⟩
        exact ⟨[], [], [], x, y, rfl, .root, rfl, rfl, hn, hs⟩
  | cons s t ih =>
    by_cases hn : y = .null
    · subst hn
      rw [laid_null]
      simp only [at?_lower, Option.map_eq_some_iff]
      refine ⟨fun ⟨m, ⟨z, hz, _⟩, _⟩ => ⟨by rw [hz]; rfl, ?_⟩, fun ⟨h, _⟩ => ?_⟩
      · rintro ⟨t₁, t₂, u, a, c, he, hop, -, hc, hn, -⟩
        exact absurd rfl (ne_null_of_at hc hn)
      · obtain ⟨z, hz⟩ := Option.isSome_iff_exists.mp h
        exact ⟨lower z, ⟨z, hz, rfl⟩, rfl⟩
    · cases hs : x.sameContainer y with
      | false =>
        rw [laid_of_not_sameContainer hn hs]
        simp only [at?_upper, Option.map_eq_some_iff]
        refine ⟨fun ⟨m, ⟨z, _, hz⟩, h⟩ => (by subst hz; cases h), fun ⟨_, h⟩ => absurd ?_ h⟩
        exact ⟨[], s :: t, [], x, y, rfl, .root, rfl, rfl, hn, hs⟩
      | true =>
        rw [laid_of_sameContainer hs]
        constructor
        · rintro ⟨m, hm, h⟩
          rw [at?_cons, below?] at hm
          obtain ⟨n, hn, hm⟩ := Option.bind_eq_some_iff.mp hm
          obtain ⟨p, hp, rfl⟩ := Option.map_eq_some_iff.mp hn
          cases parts_spec hs hx hy ((lookup_parts_iff hx hy).mp hp) with
          | @lower x' hno hx' =>
            rw [ofPart, at?_lower] at hm
            obtain ⟨z, hz, rfl⟩ := Option.map_eq_some_iff.mp hm
            refine ⟨by rw [Json.at?_cons_of_child hx', hz]; rfl, fun ho => ?_⟩
            obtain ⟨o, _, _, ho, -⟩ := overridden_of_cons hs ho
            exact hno o ho
          | upper _ _ hy' =>
            rw [ofPart, at?_upper] at hm
            obtain ⟨z, hz, rfl⟩ := Option.map_eq_some_iff.mp hm
            cases h
          | @both o x' y' hpair hx' hy' =>
            obtain ⟨hsome, hno⟩ := (ih (Json.isDistinct_of_child hx hx')
              (Json.isDistinct_of_child hy hy')).mp ⟨m, hm, h⟩
            refine ⟨by rw [Json.at?_cons_of_child hx']; exact hsome, fun ho => hno ?_⟩
            obtain ⟨o', x'', y'', ho', hx'', hy'', ho⟩ := overridden_of_cons hs ho
            cases hpair.unique hx hy ho'
            cases hx'.symm.trans hx''
            cases hy'.symm.trans hy''
            exact ho
        · rintro ⟨hsome, hno⟩
          obtain ⟨z, hz⟩ := Option.isSome_iff_exists.mp hsome
          obtain ⟨x', hx', hz⟩ := Option.bind_eq_some_iff.mp hz
          obtain ⟨p, hp, hpx⟩ := (@mem_parts_lower here x y hs hx s x').mpr hx'
          rw [at?_cons, below?, (lookup_parts_iff hx hy).mpr hp, Option.map_some,
            Option.bind_some]
          cases parts_spec hs hx hy hp with
          | lower _ _ =>
            cases hpx
            exact ⟨lower z, by rw [ofPart, at?_lower, hz]; rfl, rfl⟩
          | upper => cases hpx
          | both hpair _ hy' =>
            cases hpx
            exact (ih (Json.isDistinct_of_child hx hx') (Json.isDistinct_of_child hy hy')).mpr
              ⟨by rw [hz]; rfl, fun ho => hno (overridden_cons hpair hx' hy' ho)⟩

/-! ## Distinct keys -/

theorem isDistinct_of_children {x : Json}
    (hk : ∀ members, x = .obj members → (members.map Prod.fst).Nodup)
    (hc : ∀ s y, x.child? s = some y → y.isDistinct = true) : x.isDistinct = true := by
  cases x with
  | arr items =>
    refine Json.isDistinct_arr.mpr fun y hy => ?_
    obtain ⟨i, hi⟩ := List.mem_iff_getElem?.mp hy
    exact hc (.index i) y hi
  | obj members =>
    have hn := hk members rfl
    refine Json.isDistinct_obj.mpr ⟨hn, fun e he => ?_⟩
    exact hc (.key e.1) e.2 ((Json.lookup_eq_some_iff hn).mpr he)
  | _ => rfl

/-- **What layers with distinct keys are merged to has distinct keys.** -/
theorem isDistinct_merged (here : Trail) (l : Layers) (hl : l.Sound) :
    (l.merged here).value.isDistinct = true := by
  induction here, l, hl using below_induction with
  | step here l hl ih =>
    refine isDistinct_of_children (fun members hm => ?_) fun s y hy => ?_
    · cases l with
      | lower x => exact (Json.isDistinct_obj.mp (hm ▸ hl : (Json.obj members).isDistinct = true)).1
      | upper there x =>
        exact (Json.isDistinct_obj.mp (hm ▸ hl : (Json.obj members).isDistinct = true)).1
      | both there x y =>
        obtain ⟨hs, hx, hy⟩ := hl
        cases x <;> cases y <;> try cases hs
        · rw [merged, mergeValue_arr] at hm
          cases hm
        · rw [merged, mergeValue_obj] at hm
          cases hm
          rw [partMembers_names]
          exact nodup_names (Json.isDistinct_obj.mp hx).1 (Json.isDistinct_obj.mp hy).1
    · rw [child?_merged here s l hl] at hy
      obtain ⟨m, hm, rfl⟩ := Option.map_eq_some_iff.mp hy
      exact ih s m hm

end Layers

end Merge

end Provision
