import Provision.Proofs.Draft
import Provision.Proofs.Merge.Nodes
import Provision.Proofs.Origins

/-!
# Merging is faithful

When a config is laid over another one, nothing of the upper config is lost, of the lower one only
what is overridden, and every part of the merged config keeps the origin it had. A sound document
that is laid over another one makes a sound document.

* `Stayed`, `Moved`: what became of the nodes of the two configs.
* `find?_merge`: where a part of the merged config comes from.
* `Faithful`: all that merging promises.
* `merge_faithful`: it keeps its promises.
* `fits_merge`: the merged document has the shape that both had.
* `sound_merge`, `holds_merge`: it is sound, and holds what the upper one held.
-/

set_option autoImplicit false

namespace Provision

/-- Where every name has one entry, look-up finds what is there. -/
theorem List.lookup_eq_some_iff_of_unique {α β : Type} [BEq α] [LawfulBEq α] {k : α} {x : β}
    {entries : List (α × β)}
    (hu : ∀ a b b', (a, b) ∈ entries → (a, b') ∈ entries → b = b') :
    entries.lookup k = some x ↔ (k, x) ∈ entries := by
  refine ⟨List.mem_of_lookup_eq_some, fun h => ?_⟩
  cases hl : entries.lookup k with
  | none => exact absurd h fun h => by simpa using List.lookup_eq_none_iff.mp hl _ h
  | some y => rw [hu k y x (List.mem_of_lookup_eq_some hl) h]

namespace Merge

/-- A node of the lower config is part of the merged one. -/
def Stayed (lower upper : Json) (t : Trail) : Prop := t ∈ (mergeValue [] [] lower upper).kept

/-- A node of the upper config is part of the merged one: where it was, and where it is. -/
def Moved (lower upper : Json) (u q : Trail) : Prop :=
  (u, q) ∈ (mergeValue [] [] lower upper).moved

section Nodes

variable {x y : Json} (hx : x.isDistinct = true) (hy : y.isDistinct = true)

include hx hy

theorem stayed_iff {q : Trail} :
    Stayed x y q ↔
      ∃ m, (Layers.laid [] x y).at? [] q = some m ∧ m.lower?.isSome = true := by
  rw [Stayed, ← Layers.merged_laid,
    Layers.mem_kept_iff [] _ (Layers.sound_laid hx hy []) q]
  exact ⟨fun ⟨t, m, ht, h⟩ => ⟨m, ht ▸ h⟩, fun ⟨m, h⟩ => ⟨q, m, rfl, h⟩⟩

theorem moved_iff {u q : Trail} :
    Moved x y u q ↔
      ∃ m c, (Layers.laid [] x y).at? [] q = some m ∧ m.upper? = some (u, c) := by
  rw [Moved, ← Layers.merged_laid,
    Layers.mem_moved_iff [] _ (Layers.sound_laid hx hy []) u q]
  exact ⟨fun ⟨t, m, c, ht, h⟩ => ⟨m, c, ht ▸ h⟩, fun ⟨m, c, h⟩ => ⟨q, m, c, rfl, h⟩⟩

theorem at?_mergeValue (q : Trail) :
    (mergeValue [] [] x y).value.at? q =
      ((Layers.laid [] x y).at? [] q).map fun m => (m.merged q).value := by
  rw [← Layers.merged_laid, Layers.at?_value [] q _ (Layers.sound_laid hx hy [])]
  rfl

/-- A node of the upper config has one place. -/
theorem Moved.place_unique {u q q' : Trail} (h : Moved x y u q) (h' : Moved x y u q') :
    q = q' := by
  obtain ⟨m, c, hm, hc⟩ := (moved_iff hx hy).mp h
  obtain ⟨m', c', hm', hc'⟩ := (moved_iff hx hy).mp h'
  exact Layers.upper_unique (Layers.sound_laid hx hy []) hm hc hm' hc'

/-- A place has one node of the upper config. -/
theorem Moved.node_unique {u u' q : Trail} (h : Moved x y u q) (h' : Moved x y u' q) :
    u = u' := by
  obtain ⟨m, c, hm, hc⟩ := (moved_iff hx hy).mp h
  obtain ⟨m', c', hm', hc'⟩ := (moved_iff hx hy).mp h'
  cases hm.symm.trans hm'
  cases hc.symm.trans hc'
  rfl

/-- What is moved is a node of the upper config, and keeps its keys. -/
theorem Moved.node {u q : Trail} (h : Moved x y u q) :
    ∃ c, y.at? u = some c ∧ Trail.outline u = Trail.outline q := by
  obtain ⟨m, c, hm, hc⟩ := (moved_iff hx hy).mp h
  obtain ⟨there, z, v, hz, rfl, hv, ho⟩ :=
    (Layers.at?_nodes (Layers.sound_laid hx hy []) hm).2 u c hc
  cases Layers.upper?_laid hz
  exact ⟨c, hv, ho⟩

theorem isSome_at_of_stayed {q : Trail} (h : Stayed x y q) :
    ((mergeValue [] [] x y).value.at? q).isSome = true := by
  obtain ⟨m, hm, -⟩ := (stayed_iff hx hy).mp h
  rw [at?_mergeValue hx hy, hm]
  rfl

theorem isSome_at_of_moved {u q : Trail} (h : Moved x y u q) :
    ((mergeValue [] [] x y).value.at? q).isSome = true := by
  obtain ⟨m, c, hm, -⟩ := (moved_iff hx hy).mp h
  rw [at?_mergeValue hx hy, hm]
  rfl

/-- A leaf of the merged value is a leaf of one of the two configs. -/
theorem leaf_layers {q : Trail} {v : Json} (h : (mergeValue [] [] x y).value.at? q = some v)
    (hv : v.isScalar = true) :
    (Layers.laid [] x y).at? [] q = some (.lower v) ∨
      ∃ u, (Layers.laid [] x y).at? [] q = some (.upper u v) := by
  rw [at?_mergeValue hx hy, Option.map_eq_some_iff] at h
  obtain ⟨m, hm, rfl⟩ := h
  cases m with
  | lower a => exact .inl hm
  | upper u c => exact .inr ⟨u, hm⟩
  | both u a c =>
    have hs := (Layers.sound_of_at (Layers.sound_laid hx hy []) hm).1
    have hc := sameContainer_mergeValue hs u q
    rw [Layers.merged] at hv
    cases hz : (mergeValue u q a c).value <;> rw [hz] at hv hc <;> cases a <;>
      first | cases hc; done | cases hv

end Nodes

/-! ## Origins -/

section Origins

variable {lower upper : Translated Json}

/-- The origins of the upper config, where its nodes have moved to. -/
def movedOrigins (lower upper : Translated Json) : Origins :=
  upper.provenance.origins.filterMap fun e =>
    ((mergeValue [] [] lower.value upper.value).moved.lookup e.1).map (·, e.2)

/-- The origins of the lower config that stay. -/
def keptOrigins (lower upper : Translated Json) : Origins :=
  lower.provenance.origins.filter fun e =>
    (mergeValue [] [] lower.value upper.value).kept.contains e.1

theorem merge_origins (lower upper : Translated Json) :
    (merge lower upper).provenance.origins =
      Origins.insertAll (movedOrigins lower upper) (keptOrigins lower upper) := rfl

variable (hx : lower.value.isDistinct = true) (hy : upper.value.isDistinct = true)

include hx hy

theorem mem_movedOrigins {q origin : Trail} :
    (q, origin) ∈ movedOrigins lower upper ↔
      ∃ u, (u, origin) ∈ upper.provenance.origins ∧ Moved lower.value upper.value u q := by
  simp only [movedOrigins, List.mem_filterMap, Prod.exists, Option.map_eq_some_iff,
    Prod.mk.injEq]
  constructor
  · rintro ⟨u, o, hm, q', hq, rfl, rfl⟩
    exact ⟨u, hm, List.mem_of_lookup_eq_some hq⟩
  · rintro ⟨u, hm, hq⟩
    exact ⟨u, origin, hm, q, (List.lookup_eq_some_iff_of_unique fun _ _ _ h h' =>
      Moved.place_unique hx hy h h').mpr hq, rfl, rfl⟩

theorem nodup_movedOrigins (hn : (upper.provenance.origins.map Prod.fst).Nodup) :
    ((movedOrigins lower upper).map Prod.fst).Nodup := by
  refine List.Pairwise.map _ (R := fun a b => a.1 ≠ b.1) (fun _ _ h => h) ?_
  refine List.Pairwise.filterMap _ ?_ (List.pairwise_map.mp hn)
  intro a b hab c hc d hd he
  obtain ⟨q, hq, rfl⟩ := Option.map_eq_some_iff.mp hc
  obtain ⟨q', hq', rfl⟩ := Option.map_eq_some_iff.mp hd
  cases he
  exact hab (Moved.node_unique hx hy (List.mem_of_lookup_eq_some hq)
    (List.mem_of_lookup_eq_some hq'))

/-- **A part of the merged config comes from where the node of the upper config did that it is, or
else from where the node of the lower config did.** -/
theorem find?_merge (hn : (upper.provenance.origins.map Prod.fst).Nodup) (q : Trail) :
    ((∃ u o, Moved lower.value upper.value u q ∧ upper.provenance.find? u = some o ∧
        (merge lower upper).provenance.find? q = some o) ∨
      (∀ u, Moved lower.value upper.value u q → upper.provenance.find? u = none) ∧
        ((Stayed lower.value upper.value q ∧
            (merge lower upper).provenance.find? q = lower.provenance.find? q) ∨
          (¬Stayed lower.value upper.value q ∧
            (merge lower upper).provenance.find? q = none))) := by
  have hd := nodup_movedOrigins hx hy hn
  have hf : (merge lower upper).provenance.find? q =
      ((movedOrigins lower upper).find? q).or ((keptOrigins lower upper).find? q) := by
    rw [Provenance.find?, merge_origins, Origins.find?_insertAll hd]
  cases hm : (movedOrigins lower upper).find? q with
  | some o =>
    obtain ⟨u, hu, hq⟩ := (mem_movedOrigins hx hy).mp (Origins.mem_of_find? hm)
    refine .inl ⟨u, o, hq, (Origins.find?_eq_some_iff hn).mpr hu, ?_⟩
    rw [hf, hm]
    rfl
  | none =>
    refine .inr ⟨fun u hq => ?_, ?_⟩
    · cases hu : upper.provenance.find? u with
      | none => rfl
      | some o =>
        have := (Origins.find?_eq_some_iff hd).mpr
          ((mem_movedOrigins hx hy).mpr ⟨u, Origins.mem_of_find? hu, hq⟩)
        rw [hm] at this
        cases this
    · rw [hf, hm, Option.none_or, keptOrigins, Origins.find?_filter]
      by_cases hs : Stayed lower.value upper.value q
      · exact .inl ⟨hs, if_pos (List.contains_iff_mem.mpr hs)⟩
      · exact .inr ⟨hs, if_neg fun h => hs (List.contains_iff_mem.mp h)⟩

/-- The origin of a node of the upper config goes with it. -/
theorem find?_merge_of_moved (hn : (upper.provenance.origins.map Prod.fst).Nodup) {u q o : Trail}
    (h : Moved lower.value upper.value u q) (ho : upper.provenance.find? u = some o) :
    (merge lower upper).provenance.find? q = some o := by
  rcases find?_merge hx hy hn q with ⟨u', o', h', ho', hq⟩ | ⟨hnone, -⟩
  · cases Moved.node_unique hx hy h h'
    cases ho.symm.trans ho'
    exact hq
  · rw [hnone u h] at ho
    cases ho

/-- A node of the lower config that had an origin and stays has one, whichever it is. -/
theorem isSome_merge_of_stayed (hn : (upper.provenance.origins.map Prod.fst).Nodup) {q : Trail}
    (h : Stayed lower.value upper.value q) (ho : (lower.provenance.find? q).isSome = true) :
    ((merge lower upper).provenance.find? q).isSome = true := by
  rcases find?_merge hx hy hn q with ⟨-, o, -, -, hq⟩ | ⟨-, ⟨-, hq⟩ | ⟨hst, -⟩⟩
  · rw [hq]
    rfl
  · rwa [hq]
  · exact absurd h hst

end Origins

/-! ## What merging promises -/

/-- What merging promises about the nodes of two configs and their origins. -/
structure Faithful (lower upper : Translated Json) : Prop where
  /-- Nothing appears from nowhere: a leaf of the merged config is one leaf of one of the two
  configs, with the same value. -/
  leaf : ∀ q v, (merge lower upper).value.at? q = some v → v.isScalar = true →
    (Stayed lower.value upper.value q ∧ lower.value.at? q = some v ∧
        ∀ u, ¬Moved lower.value upper.value u q) ∨
      (¬Stayed lower.value upper.value q ∧ ∃ u, upper.value.at? u = some v ∧
        ∀ u', Moved lower.value upper.value u' q ↔ u' = u)
  /-- Every leaf of the upper config is at one place of the merged one, under the same keys. -/
  upper_leaf : ∀ u v, upper.value.at? u = some v → v.isScalar = true →
    ∃ q, (∀ q', Moved lower.value upper.value u q' ↔ q' = q) ∧
      Trail.outline u = Trail.outline q ∧ (merge lower upper).value.at? q = some v
  /-- A leaf of the lower config stays exactly if it is not overridden. -/
  lower_leaf : ∀ t v, lower.value.at? t = some v → v.isScalar = true →
    (Stayed lower.value upper.value t ↔ ¬Overridden [] lower.value upper.value t) ∧
      (Stayed lower.value upper.value t → (merge lower upper).value.at? t = some v)
  /-- What is opposite to a node of the lower config takes its place, unless it is null. -/
  opposite : ∀ t u v, Opposite [] lower.value upper.value t u → upper.value.at? u = some v →
    v ≠ .null → Moved lower.value upper.value u t
  /-- The origin that a node of the upper config had goes with it. -/
  upper_origin : ∀ u q path, Moved lower.value upper.value u q →
    upper.provenance.findPath? (.target u) = some path →
      (merge lower upper).provenance.findPath? (.target q) = some path
  /-- Else the origin that a node of the lower config had stays with it. -/
  lower_origin : ∀ q, Stayed lower.value upper.value q →
    (∀ u, Moved lower.value upper.value u q →
      upper.provenance.findPath? (.target u) = none) →
    (merge lower upper).provenance.findPath? (.target q) =
      lower.provenance.findPath? (.target q)
  /-- Else there is none. -/
  no_origin : ∀ q, ¬Stayed lower.value upper.value q →
    (∀ u, Moved lower.value upper.value u q →
      upper.provenance.findPath? (.target u) = none) →
    (merge lower upper).provenance.findPath? (.target q) = none
  /-- Every origin belongs to a node of the merged config. -/
  node : ∀ e ∈ (merge lower upper).provenance.origins,
    ((merge lower upper).value.at? e.1).isSome = true
  /-- If no origins are missing in the two configs, none are missing in the merged one. -/
  missing : lower.provenance.missing lower.value = [] →
    upper.provenance.missing upper.value = [] →
      (merge lower upper).provenance.missing (merge lower upper).value = []

theorem isDistinct_merge {lower upper : Translated Json} (hx : lower.value.isDistinct = true)
    (hy : upper.value.isDistinct = true) : (merge lower upper).value.isDistinct = true := by
  have h := Layers.isDistinct_merged [] _ (Layers.sound_laid hx hy [])
  rw [Layers.merged_laid] at h
  exact h

theorem merge_target (lower upper : Translated Json) :
    (merge lower upper).provenance.target = lower.provenance.target := rfl

theorem findPath?_target {p : Provenance} (h : p.target = .target) (t : Trail) :
    p.findPath? (.target t) = (p.find? t).map (⟨p.source, ·⟩) :=
  if_pos h.symm

/-- A merged container with content has content in one of the two containers. -/
theorem not_isEmpty_of_mergeValue {there here : Trail} {x y : Json}
    (hs : x.sameContainer y = true) (hv : (mergeValue there here x y).value.isEmpty = false)
    (hx : x.isEmpty = true) : y.isEmpty = false := by
  cases x <;> cases y <;> try cases hs
  case arr.arr lower upper =>
    cases List.isEmpty_iff.mp hx
    cases upper with
    | nil => cases hv
    | cons => rfl
  case obj.obj lower upper =>
    cases List.isEmpty_iff.mp hx
    cases upper with
    | nil => cases hv
    | cons => rfl

/-- A node of the merged config with content has content in one of the two configs. -/
theorem content_of_merge {x y : Json} (hx : x.isDistinct = true) (hy : y.isDistinct = true)
    {q : Trail} {v : Json} (h : (mergeValue [] [] x y).value.at? q = some v)
    (hv : v.isEmpty = false) :
    (∃ a, Stayed x y q ∧ x.at? q = some a ∧ a.isEmpty = false) ∨
      ∃ u c, Moved x y u q ∧ y.at? u = some c ∧ c.isEmpty = false := by
  rw [at?_mergeValue hx hy, Option.map_eq_some_iff] at h
  obtain ⟨m, hm, rfl⟩ := h
  have hnodes := Layers.at?_nodes (Layers.sound_laid hx hy []) hm
  have stays : ∀ a, m.lower? = some a → Stayed x y q ∧ x.at? q = some a := by
    intro a ha
    obtain ⟨z, hz, hza⟩ := hnodes.1 a ha
    cases Layers.lower?_laid hz
    exact ⟨(stayed_iff hx hy).mpr ⟨m, hm, by rw [ha]; rfl⟩, hza⟩
  have moves : ∀ u c, m.upper? = some (u, c) → Moved x y u q ∧ y.at? u = some c := by
    intro u c hc
    obtain ⟨there, z, w, hz, rfl, hzc, -⟩ := hnodes.2 u c hc
    cases Layers.upper?_laid hz
    exact ⟨(moved_iff hx hy).mpr ⟨m, c, hm, hc⟩, hzc⟩
  cases m with
  | lower a => exact .inl ⟨a, (stays a rfl).1, (stays a rfl).2, hv⟩
  | upper u c => exact .inr ⟨u, c, (moves u c rfl).1, (moves u c rfl).2, hv⟩
  | both u a c =>
    cases ha : a.isEmpty with
    | false => exact .inl ⟨a, (stays a rfl).1, (stays a rfl).2, ha⟩
    | true =>
      refine .inr ⟨u, c, (moves u c rfl).1, (moves u c rfl).2, ?_⟩
      have hs := (Layers.sound_of_at (Layers.sound_laid hx hy []) hm).1
      rw [Layers.merged] at hv
      exact not_isEmpty_of_mergeValue hs hv ha

/-- **If the origins of two configs are complete, so are those of the merged one.** -/
theorem covers_merge {lower upper : Translated Json} (hx : lower.value.isDistinct = true)
    (hy : upper.value.isDistinct = true) (hn : (upper.provenance.origins.map Prod.fst).Nodup)
    (hl : lower.provenance.Covers [] lower.value) (hu : upper.provenance.Covers [] upper.value) :
    (merge lower upper).provenance.Covers [] (merge lower upper).value := by
  intro q v hq hv
  rw [List.nil_append]
  by_cases hroot : q = []
  · exact .inl hroot
  right
  have known : ∀ {p : Provenance} {t : Trail}, t ≠ [] → [] ++ t = [] ∨ (p.find? ([] ++ t)).isSome →
      ∃ o, p.find? t = some o := fun ht h =>
    Option.isSome_iff_exists.mp (h.resolve_left ht)
  rcases content_of_merge hx hy hq hv with ⟨a, hst, ha, hae⟩ | ⟨u, c, hmoved, hc, hce⟩
  · obtain ⟨o, hlo⟩ := known hroot (hl q a ha hae)
    exact isSome_merge_of_stayed hx hy hn hst (by rw [hlo]; rfl)
  · have hne : u ≠ [] := by
      rintro rfl
      obtain ⟨-, -, ho⟩ := Moved.node hx hy hmoved
      cases q with
      | nil => exact hroot rfl
      | cons => cases ho
    obtain ⟨o, huo⟩ := known hne (hu u c hc hce)
    rw [find?_merge_of_moved hx hy hn hmoved huo]
    rfl

theorem not_isScalar_of_sameContainer {x y : Json} (h : x.sameContainer y = true) :
    ¬y.isScalar = true := by
  cases x <;> cases y <;> first | exact Bool.false_ne_true | cases h

theorem not_isScalar_of_sameContainer_left {x y : Json} (h : x.sameContainer y = true) :
    ¬x.isScalar = true := by
  cases x <;> cases y <;> first | exact Bool.false_ne_true | cases h

/-- A leaf of the upper config is somewhere in the merged one, under the same keys. -/
theorem moved_leaf {x y : Json} (hx : x.isDistinct = true) (hy : y.isDistinct = true) {u : Trail}
    {v : Json} (h : y.at? u = some v) (hv : v.isScalar = true) :
    ∃ q, Moved x y u q ∧ Trail.outline u = Trail.outline q ∧
      (mergeValue [] [] x y).value.at? q = some v := by
  have hne : v ≠ .null := by
    rintro rfl
    cases hv
  have hroot : (Layers.laid [] x y).upper? = some ([], y) :=
    Layers.upper?_laid_of_ne_null (Layers.ne_null_of_at h hne)
  obtain ⟨q, m, hm, hc⟩ :=
    @Layers.exists_upper [] [] u _ (Layers.sound_laid hx hy []) _ v hroot h hne
  have hmoved : Moved x y u q := (moved_iff hx hy).mpr ⟨m, v, hm, hc⟩
  obtain ⟨c, -, ho⟩ := Moved.node hx hy hmoved
  refine ⟨q, hmoved, ho, (at?_mergeValue hx hy q).trans ?_⟩
  rw [hm, Option.map_some]
  cases m with
  | lower => cases hc
  | upper => cases hc; rfl
  | both w a c =>
    cases hc
    exact absurd hv (not_isScalar_of_sameContainer
      (Layers.sound_of_at (Layers.sound_laid hx hy []) hm).1)

/-- **Merging keeps its promises.** -/
theorem merge_faithful {lower upper : Translated Json} (hx : lower.value.isDistinct = true)
    (hy : upper.value.isDistinct = true)
    (hs : upper.provenance.source = lower.provenance.source)
    (hl : lower.provenance.target = .target) (hu : upper.provenance.target = .target)
    (hn : (upper.provenance.origins.map Prod.fst).Nodup) : Faithful lower upper where
  leaf q v h hv := by
    rcases leaf_layers hx hy h hv with hm | ⟨u, hm⟩
    · obtain ⟨hlow, -⟩ := Layers.at?_nodes (Layers.sound_laid hx hy []) hm
      obtain ⟨a, ha, hva⟩ := hlow v rfl
      cases Layers.lower?_laid ha
      refine .inl ⟨(stayed_iff hx hy).mpr ⟨_, hm, rfl⟩, hva, fun u hmoved => ?_⟩
      obtain ⟨m, c, hm', hc⟩ := (moved_iff hx hy).mp hmoved
      cases hm.symm.trans hm'
      cases hc
    · obtain ⟨-, hup⟩ := Layers.at?_nodes (Layers.sound_laid hx hy []) hm
      obtain ⟨there, c, w, hc, rfl, hvc, -⟩ := hup u v rfl
      cases Layers.upper?_laid hc
      have hmoved : Moved lower.value upper.value w q := (moved_iff hx hy).mpr ⟨_, v, hm, rfl⟩
      refine .inr ⟨fun hst => ?_, w, hvc, fun u' => ⟨fun h' => ?_, fun h' => h' ▸ hmoved⟩⟩
      · obtain ⟨m, hm', hlow⟩ := (stayed_iff hx hy).mp hst
        cases hm.symm.trans hm'
        cases hlow
      · exact Moved.node_unique hx hy h' hmoved
  upper_leaf u v h hv := by
    obtain ⟨q, hmoved, ho, hq⟩ := moved_leaf hx hy h hv
    exact ⟨q, fun q' => ⟨fun h' => Moved.place_unique hx hy h' hmoved, fun h' => h' ▸ hmoved⟩,
      ho, hq⟩
  lower_leaf t v h hv := by
    have hstayed := (stayed_iff hx hy (q := t)).trans (Layers.lower?_isSome_iff hx hy)
    rw [h] at hstayed
    refine ⟨hstayed.trans (by simp), fun hst => (at?_mergeValue hx hy t).trans ?_⟩
    obtain ⟨m, hm, hlow⟩ := (stayed_iff hx hy).mp hst
    obtain ⟨a, ha⟩ := Option.isSome_iff_exists.mp hlow
    obtain ⟨z, hz, hza⟩ := (Layers.at?_nodes (Layers.sound_laid hx hy []) hm).1 a ha
    cases Layers.lower?_laid hz
    cases h.symm.trans hza
    rw [hm, Option.map_some]
    cases m with
    | lower => cases ha; rfl
    | upper => cases ha
    | both w a c =>
      cases ha
      exact absurd hv (not_isScalar_of_sameContainer_left
        (Layers.sound_of_at (Layers.sound_laid hx hy []) hm).1)
  opposite t u v h hv hne := by
    obtain ⟨m, hm, hc⟩ := @Layers.upper?_of_opposite [] [] t u _ _ v hx hy h hv hne
    exact (moved_iff hx hy).mpr ⟨m, v, hm, hc⟩
  upper_origin u q path h hp := by
    rw [findPath?_target hu, Option.map_eq_some_iff] at hp
    obtain ⟨o, ho, rfl⟩ := hp
    rw [findPath?_target ((merge_target lower upper).trans hl)]
    rw [find?_merge_of_moved hx hy hn h ho, Option.map_some, hs]
    rfl
  lower_origin q h hp := by
    rw [findPath?_target ((merge_target lower upper).trans hl), findPath?_target hl]
    rcases find?_merge hx hy hn q with ⟨u, o, hmoved, ho, -⟩ | ⟨-, ⟨-, hq⟩ | ⟨hst, -⟩⟩
    · have := hp u hmoved
      rw [findPath?_target hu, ho] at this
      cases this
    · rw [hq]
      rfl
    · exact absurd h hst
  no_origin q h hp := by
    rw [findPath?_target ((merge_target lower upper).trans hl)]
    rcases find?_merge hx hy hn q with ⟨u, o, hmoved, ho, -⟩ | ⟨-, ⟨hst, -⟩ | ⟨-, hq⟩⟩
    · have := hp u hmoved
      rw [findPath?_target hu, ho] at this
      cases this
    · exact absurd hst h
    · rw [hq]
      rfl
  node e he := by
    rcases Origins.mem_insertAll he with he | he
    · obtain ⟨u, -, hmoved⟩ := (mem_movedOrigins hx hy).mp he
      exact isSome_at_of_moved hx hy hmoved
    · exact isSome_at_of_stayed hx hy (List.contains_iff_mem.mp (List.mem_filter.mp he).2)
  missing hl hu := by
    rw [Provenance.missing_eq_nil_iff _ _ (isDistinct_merge hx hy)]
    rw [Provenance.missing_eq_nil_iff _ _ hx] at hl
    rw [Provenance.missing_eq_nil_iff _ _ hy] at hu
    exact covers_merge hx hy hn hl hu

/-- A unit that is made for a user. -/
def madeUnit : Translated Json where
  value := .obj [("systemd", .obj [("units", .arr
    [.obj [("name", .str "b"), ("enabled", .bool true), ("contents", .str "made")]])])]
  provenance := { origins := [([.key "systemd"], [.key "storage"])] }

/-- Two units of a user, the second of which has the name of the one that is made. -/
def usersUnits : Translated Json where
  value := .obj [("systemd", .obj [("units", .arr
    [.obj [("name", .str "a")], .obj [("name", .str "b"), ("contents", .str "own")]])])]
  provenance := { origins :=
    [([.key "systemd"], [.key "systemd"]),
      ([.key "systemd", .key "units", .index 1, .key "contents"],
        [.key "systemd", .key "units", .index 1, .key "contents"])] }

theorem madeUnit_usersUnits_faithful :
    Faithful madeUnit usersUnits ∧
      (merge madeUnit usersUnits).value = .obj [("systemd", .obj [("units", .arr
        [.obj [("name", .str "b"), ("enabled", .bool true), ("contents", .str "own")],
          .obj [("name", .str "a")]])])] ∧
      (merge madeUnit usersUnits).provenance.find?
          [.key "systemd", .key "units", .index 0, .key "contents"] =
        some [.key "systemd", .key "units", .index 1, .key "contents"] :=
  ⟨merge_faithful (by decide) (by decide) rfl rfl rfl (by decide), by decide,
    by decide⟩

/-! ## Sound documents -/

open Draft (Shaped Sound Holds)

section Sound

variable {known : Trail → Prop} {lower upper : Draft}

/-- A node of the merged document is there because of a node of one of the two, which has the same
shape, and is null only if the merged one is. -/
theorem nodes_of_merge {x y : Json} (hx : x.isDistinct = true) (hy : y.isDistinct = true)
    {q : Trail} {v : Json} (h : (mergeValue [] [] x y).value.at? q = some v) :
    (∃ a, Stayed x y q ∧ x.at? q = some a ∧ (a = .null → v = .null) ∧
      ∀ s : Shape, s.allows a = true → s.allows v = true) ∨
      ∃ u, Moved x y u q ∧ u.outline = q.outline ∧ y.at? u = some v := by
  rw [at?_mergeValue hx hy, Option.map_eq_some_iff] at h
  obtain ⟨m, hm, rfl⟩ := h
  have hnodes := Layers.at?_nodes (Layers.sound_laid hx hy []) hm
  have stays : ∀ a, m.lower? = some a → Stayed x y q ∧ x.at? q = some a := by
    intro a ha
    obtain ⟨z, hz, hza⟩ := hnodes.1 a ha
    cases Layers.lower?_laid hz
    exact ⟨(stayed_iff hx hy).mpr ⟨m, hm, by rw [ha]; rfl⟩, hza⟩
  cases m with
  | lower a => exact .inl ⟨a, (stays a rfl).1, (stays a rfl).2, id, fun _ h => h⟩
  | upper u c =>
    obtain ⟨there, z, w, hz, rfl, hzc, ho⟩ := hnodes.2 u c rfl
    cases Layers.upper?_laid hz
    exact .inr ⟨w, (moved_iff hx hy).mpr ⟨_, c, hm, rfl⟩, ho, hzc⟩
  | both u a c =>
    have hs := (Layers.sound_of_at (Layers.sound_laid hx hy []) hm).1
    refine .inl ⟨a, (stays a rfl).1, (stays a rfl).2, fun hnull => ?_, fun s ha => ?_⟩
    · rw [hnull] at hs
      cases hs
    have hc := sameContainer_mergeValue hs u q
    rw [Layers.merged]
    cases a <;> cases hv : (mergeValue u q _ c).value <;> rw [hv] at hc <;>
      first | (cases hc; done) | (cases s <;> first | rfl | cases ha)

/-- **A merged document has the shape that both had.** -/
theorem fits_merge {s : Shape} {x y : Json} (hx : x.isDistinct = true) (hy : y.isDistinct = true)
    (hl : s.Fits x) (hu : s.Fits y) : s.Fits (mergeValue [] [] x y).value := by
  intro q v hq
  rcases nodes_of_merge hx hy hq with ⟨a, -, ha, -, hallows⟩ | ⟨u, -, ho, hu'⟩
  · obtain ⟨s', hs, hal⟩ := hl q a ha
    exact ⟨s', hs, hallows s' hal⟩
  · obtain ⟨s', hs, hal⟩ := hu u v hu'
    exact ⟨s', (Shape.at?_congr ho s).symm.trans hs, hal⟩

/-- A merged document has the right shape if both had. -/
theorem shaped_merge (hl : Shaped lower) (hu : Shaped upper) : Shaped (merge lower upper) where
  distinct := isDistinct_merge hl.distinct hu.distinct
  fits := fits_merge hl.distinct hu.distinct hl.fits hu.fits
  sorted := by
    rw [merge_origins]
    exact Origins.sorted_insertAll _ (hl.sorted.filter _)

/-- **A sound document laid over a sound one makes a sound one.** -/
theorem sound_merge (hl : Sound known lower) (hu : Sound known upper) :
    Sound known (merge lower upper) where
  toShaped := shaped_merge hl.toShaped hu.toShaped
  known e he := by
    rw [merge_origins] at he
    rcases Origins.mem_insertAll he with he | he
    · obtain ⟨u, hm, -⟩ := (mem_movedOrigins hl.distinct hu.distinct).mp he
      exact hu.known (u, e.2) hm
    · exact hl.known e (List.mem_filter.mp he).1
  covers := covers_merge hl.distinct hu.distinct hu.sorted.nodup hl.covers hu.covers
  volumes q hq hv := by
    obtain ⟨v, hv⟩ := Option.isSome_iff_exists.mp hv
    rcases nodes_of_merge hl.distinct hu.distinct hv with ⟨a, hst, ha, -, -⟩ | ⟨u, hmoved, ho, hu'⟩
    · exact isSome_merge_of_stayed hl.distinct hu.distinct hu.sorted.nodup hst
        (hl.volumes q hq (by rw [ha]; rfl))
    · obtain ⟨o, huo⟩ := Option.isSome_iff_exists.mp
        (hu.volumes u (ho.trans hq) (by rw [hu']; rfl))
      rw [find?_merge_of_moved hl.distinct hu.distinct hu.sorted.nodup hmoved huo]
      rfl

/-- **What the upper document held is held by the merged one.** -/
theorem holds_merge (hl : Shaped lower) (hu : Shaped upper) {source : Trail}
    {o : Outline} {x : Json} (hx : x.isScalar = true) (h : Holds upper source o x) :
    Holds (merge lower upper) source o x := by
  obtain ⟨u, huo, hux, hfind⟩ := h
  obtain ⟨q, hmoved, ho, hq⟩ := moved_leaf hl.distinct hu.distinct hux hx
  exact ⟨q, ho.symm.trans huo, hq,
    find?_merge_of_moved hl.distinct hu.distinct hu.sorted.nodup hmoved hfind⟩

end Sound

end Merge

end Provision
