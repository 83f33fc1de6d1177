import Provision.Filter
import Provision.Proofs.Outline

/-!
# What filters find

A document is a list of nodes, each before what is in it and in the order in which it was written.
Filters look at each of them, one filter after the other.

* `Json.nodes`: the nodes of a document with their trails.
* `Json.mem_nodes_iff`, `Json.nodup_nodes`: every node is among them once.
* `Filter.applyAll_eq`: what filters find in a document is what they find at its nodes.
* `Filter.mem_applyAll_iff`: which findings these are.
-/

set_option autoImplicit false

namespace Provision

namespace Json

/-! ## The nodes of a document -/

mutual

/-- The nodes of a value with their trails, each before what is in it. -/
def nodes : Json → List (Trail × Json)
  | .arr items => ([], .arr items) :: itemNodes 0 items
  | .obj members => ([], .obj members) :: memberNodes members
  | x => [([], x)]

/-- The nodes of items. -/
def itemNodes : (position : Nat) → List Json → List (Trail × Json)
  | _, [] => []
  | position, x :: rest =>
    (nodes x).map (fun n => (.index position :: n.1, n.2)) ++ itemNodes (position + 1) rest

/-- The nodes of members. -/
def memberNodes : List (String × Json) → List (Trail × Json)
  | [] => []
  | (k, x) :: rest => (nodes x).map (fun n => (.key k :: n.1, n.2)) ++ memberNodes rest

end

theorem mem_itemNodes {position : Nat} {items : List Json} {n : Trail × Json} :
    n ∈ itemNodes position items ↔
      ∃ i x t, items[i]? = some x ∧ (t, n.2) ∈ nodes x ∧ n.1 = .index (position + i) :: t := by
  induction items generalizing position with
  | nil => simp [itemNodes]
  | cons x rest ih =>
    rw [itemNodes, List.mem_append, List.mem_map, ih]
    constructor
    · rintro (⟨m, hm, rfl⟩ | ⟨i, y, t, hy, ht, he⟩)
      · exact ⟨0, x, m.1, rfl, hm, rfl⟩
      · exact ⟨i + 1, y, t, hy, ht, by rw [he, Nat.add_right_comm, Nat.add_assoc]⟩
    · rintro ⟨i, y, t, hy, ht, he⟩
      cases i with
      | zero =>
        cases hy
        exact .inl ⟨(t, n.2), ht, Prod.ext he.symm rfl⟩
      | succ i => exact .inr ⟨i, y, t, hy, ht, by rw [he, Nat.add_right_comm, Nat.add_assoc]⟩

theorem mem_memberNodes {members : List (String × Json)} {n : Trail × Json} :
    n ∈ memberNodes members ↔
      ∃ k x t, (k, x) ∈ members ∧ (t, n.2) ∈ nodes x ∧ n.1 = .key k :: t := by
  induction members with
  | nil => simp [memberNodes]
  | cons e rest ih =>
    obtain ⟨k, x⟩ := e
    rw [memberNodes, List.mem_append, List.mem_map, ih]
    constructor
    · rintro (⟨m, hm, rfl⟩ | ⟨l, y, t, hy, ht, he⟩)
      · exact ⟨k, x, m.1, List.mem_cons_self, hm, rfl⟩
      · exact ⟨l, y, t, List.mem_cons_of_mem _ hy, ht, he⟩
    · rintro ⟨l, y, t, hy, ht, he⟩
      rcases List.mem_cons.mp hy with h | hy
      · cases h
        exact .inl ⟨(t, n.2), ht, Prod.ext he.symm rfl⟩
      · exact .inr ⟨l, y, t, hy, ht, he⟩

theorem root_mem_nodes (x : Json) : ([], x) ∈ nodes x := by
  cases x <;> exact List.mem_cons_self

theorem nil_mem_nodes {x y : Json} : ([], y) ∈ nodes x ↔ y = x := by
  refine ⟨fun h => ?_, fun h => h ▸ root_mem_nodes x⟩
  cases x with
  | arr items =>
    rcases List.mem_cons.mp h with h | h
    · exact congrArg Prod.snd h
    · obtain ⟨_, _, _, _, _, he⟩ := mem_itemNodes.mp h
      cases he
  | obj members =>
    rcases List.mem_cons.mp h with h | h
    · exact congrArg Prod.snd h
    · obtain ⟨_, _, _, _, _, he⟩ := mem_memberNodes.mp h
      cases he
  | _ => exact congrArg Prod.snd (List.mem_singleton.mp h)

theorem cons_mem_nodes {x y : Json} (hx : x.isDistinct = true) {s : Segment} {t : Trail} :
    (s :: t, y) ∈ nodes x ↔ ∃ z, x.child? s = some z ∧ (t, y) ∈ nodes z := by
  cases x with
  | arr items =>
    have hm : (s :: t, y) ∈ nodes (.arr items) ↔ (s :: t, y) ∈ itemNodes 0 items := by
      simp [nodes]
    rw [hm, mem_itemNodes]
    constructor
    · rintro ⟨i, z, u, hz, hu, he⟩
      cases he
      exact ⟨z, by rw [Nat.zero_add]; exact hz, hu⟩
    · rintro ⟨z, hz, ht⟩
      cases s with
      | key => cases hz
      | index i => exact ⟨i, z, t, hz, ht, by rw [Nat.zero_add]⟩
  | obj members =>
    have hm : (s :: t, y) ∈ nodes (.obj members) ↔ (s :: t, y) ∈ memberNodes members := by
      simp [nodes]
    rw [hm, mem_memberNodes]
    constructor
    · rintro ⟨k, z, u, hz, hu, he⟩
      cases he
      exact ⟨z, (lookup_eq_some_iff (isDistinct_obj.mp hx).1).mpr hz, hu⟩
    · rintro ⟨z, hz, ht⟩
      cases s with
      | index => cases hz
      | key k => exact ⟨k, z, t, mem_of_lookup hz, ht, rfl⟩
  | _ => simp [nodes]

/-- **The nodes of a value are what its trails lead to.** -/
theorem mem_nodes_iff {x y : Json} (hx : x.isDistinct = true) {t : Trail} :
    (t, y) ∈ nodes x ↔ x.at? t = some y := by
  induction t generalizing x with
  | nil => rw [nil_mem_nodes, at?_nil, Option.some.injEq, eq_comm]
  | cons s t ih =>
    rw [cons_mem_nodes hx, at?_cons, Option.bind_eq_some_iff]
    exact exists_congr fun z => and_congr_right fun hz => ih (isDistinct_of_child hx hz)

/-- The nodes of two parts of a container have different trails. -/
theorem disjoint_nodes {s : Segment} {x : Json} {rest : List (Trail × Json)}
    (h : ∀ n ∈ rest, ∀ t, n.1 ≠ s :: t) :
    ∀ t ∈ ((nodes x).map fun n => (s :: n.1, n.2)).map Prod.fst, ∀ u ∈ rest.map Prod.fst,
      t ≠ u := by
  intro t ht u hu he
  obtain ⟨n, hn, rfl⟩ := List.mem_map.mp ht
  obtain ⟨m, -, rfl⟩ := List.mem_map.mp hn
  obtain ⟨n, hn, rfl⟩ := List.mem_map.mp hu
  exact h n hn _ he.symm

theorem nodup_cons_nodes {s : Segment} {x : Json} (h : ((nodes x).map Prod.fst).Nodup) :
    (((nodes x).map fun n => (s :: n.1, n.2)).map Prod.fst).Nodup := by
  have hmap : ((nodes x).map fun n => (s :: n.1, n.2)).map Prod.fst =
      ((nodes x).map Prod.fst).map (s :: ·) := by
    rw [List.map_map, List.map_map]
    rfl
  rw [hmap]
  exact List.pairwise_map.mpr (h.imp fun hne he => hne (List.cons.inj he).2)

mutual

/-- **No trail leads to two nodes.** -/
theorem nodup_nodes : (x : Json) → x.isDistinct = true → ((nodes x).map Prod.fst).Nodup
  | .arr items, h => by
    refine List.nodup_cons.mpr ⟨fun hm => ?_, nodup_itemNodes 0 items h⟩
    obtain ⟨n, hn, he⟩ := List.mem_map.mp hm
    obtain ⟨_, _, _, _, _, hn⟩ := mem_itemNodes.mp hn
    cases he.symm.trans hn
  | .obj members, h => by
    refine List.nodup_cons.mpr ⟨fun hm => ?_, nodup_memberNodes members h⟩
    obtain ⟨n, hn, he⟩ := List.mem_map.mp hm
    obtain ⟨_, _, _, _, _, hn⟩ := mem_memberNodes.mp hn
    cases he.symm.trans hn
  | .null, _ | .bool _, _ | .num _, _ | .str _, _ =>
    List.pairwise_singleton _ _

theorem nodup_itemNodes : (position : Nat) → (items : List Json) → isDistinctItems items = true →
    ((itemNodes position items).map Prod.fst).Nodup
  | _, [], _ => List.nodup_nil
  | position, x :: rest, h => by
    obtain ⟨hx, hrest⟩ := Bool.and_eq_true_iff.mp h
    rw [itemNodes, List.map_append, List.nodup_append]
    refine ⟨nodup_cons_nodes (nodup_nodes x hx), nodup_itemNodes (position + 1) rest hrest,
      disjoint_nodes fun n hn t he => ?_⟩
    obtain ⟨i, _, _, _, _, hi⟩ := mem_itemNodes.mp hn
    have := Segment.index.inj (List.cons.inj (hi.symm.trans he)).1
    omega

theorem nodup_memberNodes : (members : List (String × Json)) → isDistinctMembers members = true →
    ((memberNodes members).map Prod.fst).Nodup
  | [], _ => List.nodup_nil
  | (k, x) :: rest, h => by
    obtain ⟨hk, hx, hrest⟩ : Json.lookup k rest = none ∧ x.isDistinct = true ∧
        isDistinctMembers rest = true := by
      simpa [isDistinctMembers] using h
    rw [memberNodes, List.map_append, List.nodup_append]
    refine ⟨nodup_cons_nodes (nodup_nodes x hx), nodup_memberNodes rest hrest,
      disjoint_nodes fun n hn t he => lookup_eq_none_iff.mp hk ?_⟩
    obtain ⟨l, y, _, hy, _, hl⟩ := mem_memberNodes.mp hn
    obtain rfl := Segment.key.inj (List.cons.inj (hl.symm.trans he)).1
    exact List.mem_map_of_mem hy

end

end Json

/-! ## Findings -/

namespace Filter

/-- What a filter finds at a trail of a document that lies at `root` in a larger one. -/
def finding (f : Filter) (root : Path) (here : Trail) : Entry :=
  ⟨f.severity, ⟨root.schema, root.trail ++ here⟩, f.problem, none⟩

/-- Filters find values with content at the places of their patterns. -/
theorem applies_iff {f : Filter} {here : Trail} {x : Json} :
    f.applies here x = true ↔
      f.pattern.outline = here.outline ∧ x.isEmpty = false ∧ f.catches x = true := by
  rw [applies, Bool.and_eq_true, Bool.and_eq_true, Pattern.fits_iff, Bool.not_eq_true', and_assoc]

variable {filters : List Filter} {root : Path} {document : Json}

mutual

theorem applyAt_eq (here : Trail) : (x : Json) → applyAt filters root here x =
    x.nodes.flatMap fun n => findHere filters root (here ++ n.1) n.2
  | .arr items => by
    rw [applyAt, Json.nodes, List.flatMap_cons, List.append_nil, applyItems_eq here 0 items]
  | .obj members => by
    rw [applyAt, Json.nodes, List.flatMap_cons, List.append_nil, applyMembers_eq here members]
  | .null | .bool _ | .num _ | .str _ => by
    simp [applyAt, Json.nodes]

theorem applyItems_eq (here : Trail) : (position : Nat) → (items : List Json) →
    applyItems filters root here position items =
      (Json.itemNodes position items).flatMap fun n => findHere filters root (here ++ n.1) n.2
  | _, [] => rfl
  | position, x :: rest => by
    rw [applyItems, Json.itemNodes, List.flatMap_append, List.flatMap_map, applyAt_eq _ x,
      applyItems_eq here (position + 1) rest]
    simp [Trail.index]

theorem applyMembers_eq (here : Trail) : (members : List (String × Json)) →
    applyMembers filters root here members =
      (Json.memberNodes members).flatMap fun n => findHere filters root (here ++ n.1) n.2
  | [] => rfl
  | (k, x) :: rest => by
    rw [applyMembers, Json.memberNodes, List.flatMap_append, List.flatMap_map, applyAt_eq _ x,
      applyMembers_eq here rest]
    simp [Trail.key]

end

/-- **Filters find in a document what they find at its nodes**, in the order of the nodes. -/
theorem applyAll_eq (filters : List Filter) (root : Path) (document : Json) :
    applyAll filters root document = document.nodes.flatMap fun n =>
      (filters.filter fun f => f.applies n.1 n.2).map fun f => f.finding root n.1 :=
  applyAt_eq [] document

/-- **Each finding is one of a filter at a node that it applies to**, and there are no others. -/
theorem mem_applyAll_iff (hd : document.isDistinct = true) {e : Entry} :
    e ∈ applyAll filters root document ↔ ∃ f ∈ filters, ∃ t x,
      document.at? t = some x ∧ f.applies t x = true ∧ e = f.finding root t := by
  rw [applyAll_eq, List.mem_flatMap]
  constructor
  · rintro ⟨⟨t, x⟩, hn, he⟩
    obtain ⟨f, hf, rfl⟩ := List.mem_map.mp he
    obtain ⟨hf, happlies⟩ := List.mem_filter.mp hf
    exact ⟨f, hf, t, x, (Json.mem_nodes_iff hd).mp hn, happlies, rfl⟩
  · rintro ⟨f, hf, t, x, hx, happlies, rfl⟩
    exact ⟨(t, x), (Json.mem_nodes_iff hd).mpr hx,
      List.mem_map_of_mem (List.mem_filter.mpr ⟨hf, happlies⟩)⟩

/-- A filter for errors applies to nothing where no error is found. -/
theorem not_applies_of_not_isFatal (hd : document.isDistinct = true)
    (h : (applyAll filters root document).isFatal = false) {f : Filter} (hf : f ∈ filters)
    (herror : f.severity = .error) {t : Trail} {x : Json} (hx : document.at? t = some x) :
    f.applies t x = false := by
  rw [← Bool.not_eq_true]
  intro happlies
  have hmem := (@mem_applyAll_iff _ root _ hd _).mpr ⟨f, hf, t, x, hx, happlies, rfl⟩
  have hnone := List.any_eq_false.mp h _ hmem
  simp [Entry.isError, finding, herror] at hnone

end Filter

end Provision
