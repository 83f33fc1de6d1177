import Provision.Proofs.Merge.Laid

/-!
# Merging is a monoid

Of three configs it does not matter which two are merged first, if nodes under the same keys are of
the same kind; and an empty config changes nothing but that origins of nothing are dropped.

* `Mergeable`: configs that can be merged, and `Mergeable.merge`: so can what they are merged to.
* `respects_merge`: merging keeps the kinds of nodes.
* `merge_monoid`: merging is associative, and the empty config is neutral.
-/

set_option autoImplicit false

namespace Provision

/-- Origins in order are told by look-up. -/
theorem Origins.eq_of_find? {o o' : Origins} (h : o.Sorted) (h' : o'.Sorted)
    (hf : ∀ place, find? place o = find? place o') : o = o' := by
  have hmem : ∀ e, e ∈ o ↔ e ∈ o' := fun e => by
    rw [← find?_eq_some_iff h.nodup, ← find?_eq_some_iff h'.nodup, hf e.1]
  have hnodup : ∀ {o : Origins}, o.Sorted → o.Nodup := fun h =>
    h.imp fun hlt he => Trail.ne_of_compare_lt hlt (congrArg Prod.fst he)
  have hperm : o.Perm o' := (List.perm_ext_iff_of_nodup (hnodup h) (hnodup h')).mpr hmem
  refine List.Perm.eq_of_pairwise (fun a b _ _ hab hba => ?_) h h' hperm
  exact absurd rfl (Trail.ne_of_compare_lt (Trail.compare_lt_trans hab hba))

namespace Merge

/-- A config that can be merged: its keys are distinct, and its origins stand in order and lead from
what is made to a given document. -/
structure Mergeable (origin : Schema) (a : Translated Json) : Prop where
  distinct : a.value.isDistinct = true
  sorted : a.provenance.origins.Sorted
  origin_eq : a.provenance.source = origin
  target_eq : a.provenance.target = .target

/-- The config without the origins of what is no part of it. -/
def onNodes (a : Translated Json) : Translated Json :=
  { a with provenance := { a.provenance with
      origins := a.provenance.origins.filter fun e => (a.value.at? e.1).isSome } }

/-- A config without content. -/
def emptyConfig (origin : Schema) : Translated Json := ⟨.obj [], ⟨origin, .target, []⟩, []⟩

/-- Every origin belongs to a node. -/
def OnNodes (a : Translated Json) : Prop :=
  ∀ e ∈ a.provenance.origins, (a.value.at? e.1).isSome = true

section Laws

variable {origin : Schema} {kinds : Outline → Json.Kind} {a b c : Translated Json}

/-- Configs with the same notes and findings are the same. -/
theorem eq_of_noted (ha : Mergeable origin a) (hb : Mergeable origin b) (hna : OnNodes a)
    (hnb : OnNodes b)
    (h : noted a.provenance.find? a.value = noted b.provenance.find? b.value)
    (hr : a.report = b.report) : a = b := by
  obtain ⟨hv, hf⟩ := noted_inj ha.distinct h
  have horigins : a.provenance.origins = b.provenance.origins := by
    refine Origins.eq_of_find? ha.sorted hb.sorted fun place => ?_
    cases hp : a.value.at? place with
    | some x => exact hf place (by rw [hp]; rfl)
    | none =>
      have outside : ∀ {x : Translated Json}, OnNodes x → x.value.at? place = none →
          x.provenance.origins.find? place = none := by
        intro x hx hn
        cases ho : x.provenance.origins.find? place with
        | none => rfl
        | some o =>
          have := hx _ (Origins.mem_of_find? ho)
          rw [hn] at this
          cases this
      exact (outside hna hp).trans (outside hnb (hv ▸ hp)).symm
  have hs := ha.origin_eq.trans hb.origin_eq.symm
  have ht := ha.target_eq.trans hb.target_eq.symm
  obtain ⟨_, ⟨_, _, _⟩, _⟩ := a
  obtain ⟨_, ⟨_, _, _⟩, _⟩ := b
  simp_all

/-- What is merged can be merged again. -/
theorem Mergeable.merge (ha : Mergeable origin a) (hb : Mergeable origin b) :
    Mergeable origin (merge a b) where
  distinct := isDistinct_merge ha.distinct hb.distinct
  sorted := by
    rw [merge_origins]
    exact Origins.sorted_insertAll _ (ha.sorted.sublist List.filter_sublist)
  origin_eq := ha.origin_eq
  target_eq := ha.target_eq

/-- Every origin of a merged config belongs to a node. -/
theorem onNodes_merge (ha : Mergeable origin a) (hb : Mergeable origin b) :
    OnNodes (Merge.merge a b) := by
  intro e he
  rw [merge_origins] at he
  rcases Origins.mem_insertAll he with he | he
  · obtain ⟨u, -, hmoved⟩ := (mem_movedOrigins ha.distinct hb.distinct).mp he
    exact isSome_at_of_moved ha.distinct hb.distinct hmoved
  · exact isSome_at_of_stayed ha.distinct hb.distinct
      (List.contains_iff_mem.mp (List.mem_filter.mp he).2)

/-- Merging keeps the kinds of nodes. -/
theorem respects_merge (ha : Mergeable origin a) (hb : Mergeable origin b)
    (hka : a.value.Respects kinds) (hkb : b.value.Respects kinds) :
    (Merge.merge a b).value.Respects kinds := by
  intro q v k hv hk
  have hl := Layers.sound_laid ha.distinct hb.distinct []
  rw [Merge.merge, at?_mergeValue ha.distinct hb.distinct, Option.map_eq_some_iff] at hv
  obtain ⟨m, hm, rfl⟩ := hv
  obtain ⟨hlow, hup⟩ := Layers.at?_nodes hl hm
  have stayed : ∀ x, m.lower? = some x → x.kind? = some k → kinds q.outline = k := by
    intro x hx hxk
    obtain ⟨z, hz, hzx⟩ := hlow x hx
    cases Layers.lower?_laid hz
    exact hka q x k hzx hxk
  cases m with
  | lower x => exact stayed x rfl hk
  | upper u x =>
    obtain ⟨there, z, w, hz, -, hzx, ho⟩ := hup u x rfl
    cases Layers.upper?_laid hz
    exact ho ▸ hkb w x k hzx hk
  | both u x y =>
    refine stayed x rfl (Eq.trans ?_ hk)
    have hsame := sameContainer_mergeValue (Layers.sound_of_at hl hm).1 u q
    rw [Layers.merged]
    cases x <;> cases hz : (mergeValue u q _ y).value <;> rw [hz] at hsame <;>
      first | rfl | exact absurd hsame Bool.false_ne_true

/-- Of three configs it does not matter which two are merged first. -/
theorem merge_regroup (ha : Mergeable origin a) (hb : Mergeable origin b)
    (hc : Mergeable origin c) (hka : a.value.Respects kinds) (hkb : b.value.Respects kinds)
    (hkc : c.value.Respects kinds) :
    Merge.merge (Merge.merge a b) c = Merge.merge a (Merge.merge b c) := by
  have hab := ha.merge hb
  have hbc := hb.merge hc
  refine eq_of_noted (hab.merge hc) (ha.merge hbc) (onNodes_merge hab hc) (onNodes_merge ha hbc) ?_
    (List.append_assoc _ _ _)
  rw [noted_merge hab.distinct hc.distinct hc.sorted.nodup,
    noted_merge ha.distinct hb.distinct hb.sorted.nodup,
    noted_merge ha.distinct hbc.distinct hbc.sorted.nodup,
    noted_merge hb.distinct hc.distinct hc.sorted.nodup]
  exact Noted.lay_assoc (agrees_noted ha.distinct hka _) (agrees_noted hb.distinct hkb _)
    (agrees_noted hc.distinct hkc _) []

/-! ## The empty config -/

theorem mergeable_emptyConfig (origin : Schema) : Mergeable origin (emptyConfig origin) :=
  ⟨rfl, List.Pairwise.nil, rfl, rfl⟩

theorem Mergeable.onNodes (ha : Mergeable origin a) : Mergeable origin (onNodes a) :=
  { ha with sorted := ha.sorted.sublist List.filter_sublist }

theorem onNodes_onNodes (a : Translated Json) : OnNodes (onNodes a) := fun _ he =>
  (List.mem_filter.mp he).2

theorem noted_onNodes (ha : Mergeable origin a) :
    noted (onNodes a).provenance.find? a.value = noted a.provenance.find? a.value := by
  refine (noted_eq_iff ha.distinct).mpr fun t ht => ?_
  exact (Origins.find?_filter (fun t => (a.value.at? t).isSome) _ t).trans (if_pos ht)

theorem noted_emptyConfig (origin : Schema) :
    noted (emptyConfig origin).provenance.find? (emptyConfig origin).value = .obj none [] := rfl

/-- Laying an empty config over another one drops the origins of nothing. -/
theorem merge_emptyConfig (ha : Mergeable origin a) (ho : a.value.isObject = true) :
    Merge.merge a (emptyConfig origin) = onNodes a := by
  have he := mergeable_emptyConfig origin
  refine eq_of_noted (ha.merge he) ha.onNodes (onNodes_merge ha he) (onNodes_onNodes a) ?_
    (List.append_nil _)
  rw [noted_merge ha.distinct he.distinct he.sorted.nodup, noted_emptyConfig]
  refine Eq.trans ?_ (noted_onNodes ha).symm
  cases hv : a.value with
  | obj members => rw [noted, Noted.lay_obj, layKeyed_nil_right, Option.none_or]
  | null | bool | num | str | arr => rw [hv] at ho; cases ho

/-- So does laying it under another one. -/
theorem emptyConfig_merge (ha : Mergeable origin a) (ho : a.value.isObject = true) :
    Merge.merge (emptyConfig origin) a = onNodes a := by
  have he := mergeable_emptyConfig origin
  refine eq_of_noted (he.merge ha) ha.onNodes (onNodes_merge he ha) (onNodes_onNodes a) ?_ rfl
  rw [noted_merge he.distinct ha.distinct ha.sorted.nodup, noted_emptyConfig]
  refine Eq.trans ?_ (noted_onNodes ha).symm
  cases hv : a.value with
  | obj members => rw [noted, Noted.lay_obj, layKeyed_nil, Option.or_none]
  | null | bool | num | str | arr => rw [hv] at ho; cases ho

end Laws

/-- Whether nodes are of given kinds can be checked node by node. -/
theorem respects_iff {kinds : Outline → Json.Kind} {x : Json} (hx : x.isDistinct = true) :
    x.Respects kinds ↔
      ∀ t ∈ trails x, ∀ k ∈ (x.at? t).bind Json.kind?, kinds t.outline = k := by
  constructor
  · intro h t _ k hk
    obtain ⟨y, hy, hk⟩ := Option.bind_eq_some_iff.mp hk
    exact h t y k hy hk
  · intro h t y k hy hk
    refine h t ((mem_trails_iff hx).mpr (by rw [hy]; rfl)) k ?_
    rw [hy]
    exact hk

/-- **Merging is associative on configs of the same kinds, and an empty config is neutral but for
origins of nothing.** -/
theorem merge_monoid (origin : Schema) :
    (∀ (kinds : Outline → Json.Kind) (a b c : Translated Json), Mergeable origin a →
        Mergeable origin b → Mergeable origin c → a.value.Respects kinds →
        b.value.Respects kinds → c.value.Respects kinds →
          merge (merge a b) c = merge a (merge b c)) ∧
      ∀ a : Translated Json, Mergeable origin a → a.value.isObject = true →
        merge a (emptyConfig origin) = onNodes a ∧ merge (emptyConfig origin) a = onNodes a :=
  ⟨fun _ _ _ _ ha hb hc hka hkb hkc => merge_regroup ha hb hc hka hkb hkc,
    fun _ ha ho => ⟨merge_emptyConfig ha ho, emptyConfig_merge ha ho⟩⟩

/-! ## Units -/

/-- The kinds of nodes of configs that are made of units. -/
def unitKinds : Outline → Json.Kind
  | [_, _] => .list
  | [_, _, _, _] => .scalar
  | _ => .object

/-- Two units, the first of which says nothing new. -/
def laterUnits : Translated Json where
  value := .obj [("systemd", .obj [("units", .arr
    [.obj [("name", .str "b"), ("enabled", .null)],
      .obj [("name", .str "a"), ("contents", .str "late")]])])]
  provenance := { origins :=
    [([.key "passwd"], [.key "passwd"]),
      ([.key "systemd", .key "units", .index 1], [.key "systemd", .key "units", .index 7])] }

theorem units_regroup :
    merge (merge madeUnit usersUnits) laterUnits = merge madeUnit (merge usersUnits laterUnits) ∧
      merge laterUnits (emptyConfig .source) = onNodes laterUnits ∧
      merge (emptyConfig .source) laterUnits = onNodes laterUnits ∧
      (merge (merge madeUnit usersUnits) laterUnits).value = .obj [("systemd", .obj [("units", .arr
        [.obj [("name", .str "b"), ("enabled", .bool true), ("contents", .str "own")],
          .obj [("name", .str "a"), ("contents", .str "late")]])])] ∧
      (onNodes laterUnits).provenance.origins =
        [([.key "systemd", .key "units", .index 1], [.key "systemd", .key "units", .index 7])] := by
  have made : Mergeable .source madeUnit := ⟨by decide, by decide, rfl, rfl⟩
  have users : Mergeable .source usersUnits := ⟨by decide, by decide, rfl, rfl⟩
  have later : Mergeable .source laterUnits := ⟨by decide, by decide, rfl, rfl⟩
  obtain ⟨assoc, neutral⟩ := merge_monoid .source
  refine ⟨assoc unitKinds _ _ _ made users later ?_ ?_ ?_, neutral _ later rfl |>.1,
    neutral _ later rfl |>.2, by decide, by decide⟩
  · exact (respects_iff made.distinct).mpr (by decide)
  · exact (respects_iff users.distinct).mpr (by decide)
  · exact (respects_iff later.distinct).mpr (by decide)

end Merge

end Provision
