import Provision.Proofs.Merge.Faithful
import Provision.Proofs.MountUnit
import Provision.Proofs.Source.Walk
import Provision.Proofs.Trees
import Provision.Source.Validate

/-!
# What is made of the shared sections is sound

The sections are walked, trees are written into the result, and units for filesystems are laid below
it. Whatever the local files are, the document is sound, and holds what the sections say. What a
checked config says in a leaf is found there, unless it is a place that machines do not know or
contents that are embedded.

* `shaped_translate`: the document has the shape that machines know.
* `sound_translate`: it is sound, if all volumes have names.
* `holds_translate`: it has the leaves of the sections, under their new names.
* `contents_of_unit`: a unit that is checked has no contents of its own beside those from a file.
* `number_place`: numbers are those of partitions.
* `holds_leaf`: the document has the leaves of a checked config.
-/

set_option autoImplicit false

namespace Provision.Source

open Draft (Shaped Sound Holds)
open Translator (Traced)
open Draft (Holds)

section Walked

variable {known : Trail → Prop} {w : Workspace} {c : Config}

/-- The document for the sections before trees and units. -/
def walked (w : Workspace) (c : Config) : Draft :=
  ((translator w).translate (Config.codec.write c)).map (·.getD (.obj []))

/-- Trees are written into the document, and units laid below it. -/
theorem translate_eq (w : Workspace) (c : Config) : translate w c =
    let expanded := Trees.expand w c.storage.trees [] (walked w c)
    let units := MountUnit.units c.storage.filesystems []
    if (units.value.get? "systemd").isSome then Merge.merge units expanded else expanded :=
  rfl

/-- The document stands for the sections, also if nothing is made of them. -/
theorem value_walked (w : Workspace) (c : Config) : (walked w c).value =
    Translator.made (Config.codec.write c) ((translator w).translate (Config.codec.write c)) := by
  obtain ⟨members, hmembers⟩ := (Config.writes c).fits.eq_obj
  rw [walked, Translated.value_map, Translator.made, hmembers]
  rfl

theorem provenance_walked (w : Workspace) (c : Config) : (walked w c).provenance =
    ((translator w).translate (Config.codec.write c)).provenance :=
  Translated.provenance_map _ _

/-! ## Volumes -/

/-- The outline of the names of volumes. -/
def volumeNamePlace : Outline := [some "storage", some "luks", none, some "name"]

theorem length_rename (t : Translator) (u : Trail) : (t.rename u).length = u.length :=
  List.length_map _

/-- Places that have rules are at least three steps away. -/
theorem three_le_of_rule {u : Trail} (h : ((translator w).rule? u).isSome = true) :
    3 ≤ u.length := by
  obtain ⟨rule, hrule⟩ := Option.isSome_iff_exists.mp h
  have hlength : u.outline.length = u.length := List.length_map _
  have hall : ∀ p ∈ resourcePlaces ++ unitPlaces ++ [userPlace], 3 ≤ p.length := by decide
  rw [← hlength]
  rcases rule?_cases hrule with ⟨hp, -⟩ | ⟨hp, -⟩ | ⟨hp, -⟩
  · exact hall _ (List.mem_append_left _ (List.mem_append_left _ hp))
  · exact hall _ (List.mem_append_left _ (List.mem_append_right _ hp))
  · exact hall _ (List.mem_append_right _ (List.mem_singleton.mpr hp))

/-- **A volume of the document is made of a volume of the sections.** -/
theorem volume_returns {plain : Trail → Prop} {m : Translated (Option Json)}
    (h : Traced (translator w) known plain Ignition.Config.shape [] [] (Config.codec.write c) m)
    {q : Trail} (hq : q.outline = Draft.volumePlace)
    (hv : ((Translator.made (Config.codec.write c) m).at? q).isSome = true) :
    ∃ u : Trail, u.outline = Draft.volumePlace ∧ (translator w).rename u = q ∧
      ((Config.codec.write c).at? u).isSome = true := by
  obtain ⟨u, hu, hr⟩ := h.returns q hv
  have hlength : q.length = 3 := by
    have := congrArg List.length hq
    rwa [Trail.outline, List.length_map] at this
  have hrename : (translator w).rename u = q := by
    rcases hr with hr | ⟨hp, hr⟩
    · exact hr
    · refine hp.eq_of_length_le ?_
      rw [length_rename, hlength]
      exact three_le_of_rule hr
  obtain ⟨y, hy⟩ := Option.isSome_iff_exists.mp hu
  obtain ⟨s, hs, -⟩ := (Config.writes c).at hy
  have hnamed := isNamed_of_at hs
  refine ⟨u, eq_of_renamed hnamed (by decide) ?_, hrename, hu⟩
  rw [← outline_rename w hnamed, hrename, hq]
  decide

/-- A trail of the outline of volumes leads to a volume. -/
theorem eq_of_volumePlace {u : Trail} (h : u.outline = Draft.volumePlace) :
    ∃ i, u = [.key "storage", .key "luks", .index i] := by
  obtain ⟨u₁, rfl, h₁⟩ := Trail.outline_eq_key.mp h
  obtain ⟨u₂, rfl, h₂⟩ := Trail.outline_eq_key.mp h₁
  obtain ⟨i, u₃, rfl, h₃⟩ := Trail.outline_eq_index.mp h₂
  cases Trail.outline_eq_nil.mp h₃
  exact ⟨i, rfl⟩

/-- A volume that the sections have is found by its position, and so is its name. -/
theorem name_of_volume {i : Nat}
    (h : ((Config.codec.write c).at? [.key "storage", .key "luks", .index i]).isSome = true) :
    ∃ volume ∈ c.storage.luks, (Config.codec.write c).at?
      ([Segment.key "storage", .key "luks", .index i] ++ [.key "name"]) = some (.str volume.name) := by
  have hlist : (Config.codec.write c).at? [.key "storage", .key "luks"] =
      some (.arr (c.storage.luks.map Luks.codec.write)) := rfl
  obtain ⟨y, hy⟩ := Option.isSome_iff_exists.mp h
  obtain ⟨volume, hvolume, rfl⟩ :=
    Option.map_eq_some_iff.mp ((Json.at?_index_map hlist i).symm.trans hy)
  refine ⟨volume, List.mem_of_getElem? hvolume, ?_⟩
  rw [Json.at?_append, hy]
  rfl

/-- **A volume of the document has an origin**, as its name has one. -/
theorem isSome_find?_volume {m : Translated (Option Json)}
    (h : Traced (translator w) known (fun t => t.outline = volumeNamePlace) Ignition.Config.shape
      [] [] (Config.codec.write c) m)
    (hvolumes : ∀ volume ∈ c.storage.luks, volume.name ≠ "") {q : Trail}
    (hq : q.outline = Draft.volumePlace)
    (hv : ((Translator.made (Config.codec.write c) m).at? q).isSome = true) :
    (m.provenance.find? q).isSome = true := by
  obtain ⟨u, hu, hrename, hsome⟩ := volume_returns h hq hv
  obtain ⟨i, rfl⟩ := eq_of_volumePlace hu
  obtain ⟨volume, hmem, hname⟩ := name_of_volume hsome
  have hne : (Json.str volume.name).isEmpty = false := by
    rw [Json.isEmpty, ← Bool.not_eq_true, String.isEmpty_iff]
    exact hvolumes volume hmem
  obtain ⟨hmade, -⟩ := h.carries _ _ hname rfl hne rfl
  rw [rename_append, hrename, Json.at?_append] at hmade
  obtain ⟨v, hv', hchild⟩ := Option.bind_eq_some_iff.mp hmade
  obtain ⟨n, hn, -⟩ := Option.bind_eq_some_iff.mp hchild
  have hcovered := h.covers q v hv' (Json.not_isEmpty_of_child hn)
  rw [List.nil_append] at hcovered
  refine hcovered.resolve_left fun hnil => ?_
  rw [hnil] at hq
  cases hq

/-! ## Before trees and units -/

theorem shaped_of_traced {plain : Trail → Prop}
    (h : Traced (translator w) known plain Ignition.Config.shape [] [] (Config.codec.write c)
      ((translator w).translate (Config.codec.write c))) : Shaped (walked w c) := by
  refine ⟨?_, ?_, ?_⟩
  · rw [value_walked]
    exact h.distinct
  · rw [value_walked]
    exact h.fits
  · rw [provenance_walked]
    exact h.sorted

/-- The document before trees and units has the shape that machines know. -/
theorem shaped_walked (w : Workspace) (c : Config) : Shaped (walked w c) :=
  shaped_of_traced (@traced_translate (fun _ => True) (fun _ => False) w c
    (fun _ _ _ => trivial) (fun _ h => h.elim) fun _ _ _ _ h => h)

/-- **The document before trees and units is sound**, if all volumes have names. -/
theorem sound_walked (w : Workspace) (c : Config)
    (hknown : ∀ o x, (Config.codec.write c).at? o = some x → known o)
    (hvolumes : ∀ volume ∈ c.storage.luks, volume.name ≠ "") : Sound known (walked w c) := by
  have h := @traced_translate known (fun t => t.outline = volumeNamePlace) w c hknown
    (fun t ht p hp hpre => ?_) fun o path ho _ hplain => ?_
  · refine ⟨shaped_walked w c, fun e he => ?_, ?_, fun q hq hv => ?_⟩
    · rw [provenance_walked] at he
      exact (h.origins e he).2
    · rw [value_walked, provenance_walked]
      exact h.covers
    · rw [value_walked] at hv
      rw [provenance_walked]
      exact isSome_find?_volume h hvolumes hq hv
  · rw [ht] at hpre
    revert hpre
    revert p
    decide
  · have := congrArg List.getLast? hplain
    rw [Trail.outline_key, List.getLast?_concat] at this
    exact absurd this (by decide)

/-! ## Trees and units -/

/-- The document grows when the trees of the sections are written into it. -/
theorem grown_expanded (w : Workspace) (c : Config)
    (hknown : ∀ o x, (Config.codec.write c).at? o = some x → known o) :
    Draft.Grown known (walked w c) (Trees.expand w c.storage.trees [] (walked w c)) := by
  refine Trees.grown_expand w (shaped_walked w c) c.storage.trees [] fun i hi => ?_
  have hlist : (Config.codec.write c).at? [.key "storage", .key "trees"] =
      some (.arr (c.storage.trees.map Tree.codec.write)) := rfl
  refine hknown _ (Tree.codec.write c.storage.trees[i]) ((Json.at?_index_map hlist i).trans ?_)
  rw [List.getElem?_eq_getElem hi]
  rfl

/-- The units for filesystems of the sections are sound. -/
theorem sound_units (c : Config)
    (hknown : ∀ o x, (Config.codec.write c).at? o = some x → known o) :
    Sound known (MountUnit.units c.storage.filesystems []) := by
  have hplace : Trail.dotted [] "storage.filesystems" =
      [.key "storage", .key "filesystems"] := by decide
  refine MountUnit.sound_units fun i hi => ?_
  rw [hplace]
  have hlist : (Config.codec.write c).at? [.key "storage", .key "filesystems"] =
      some (.arr (c.storage.filesystems.map Filesystem.codec.write)) := rfl
  refine hknown _ (((c.storage.filesystems[i]).withMountUnit.map Json.bool).getD .null) ?_
  rw [Trail.key, Json.at?_append, Json.at?_index_map hlist, List.getElem?_eq_getElem hi]
  rfl

theorem shaped_units (c : Config) : Shaped (MountUnit.units c.storage.filesystems []) :=
  (@sound_units (fun _ => True) c fun _ _ _ => trivial).toShaped

/-! ## The document -/

/-- What is made of the shared sections has the shape that machines know. -/
theorem shaped_translate (w : Workspace) (c : Config) : Shaped (translate w c) := by
  have hexpanded := (@grown_expanded (fun _ => True) w c fun _ _ _ => trivial).shaped
    (shaped_walked w c)
  rw [translate_eq]
  dsimp only
  split
  · exact Merge.shaped_merge (shaped_units c) hexpanded
  · exact hexpanded

/-- **What is made of the shared sections is sound**, if all volumes have names. -/
theorem sound_translate (w : Workspace) (c : Config)
    (hknown : ∀ o x, (Config.codec.write c).at? o = some x → known o)
    (hvolumes : ∀ volume ∈ c.storage.luks, volume.name ≠ "") : Sound known (translate w c) := by
  have hexpanded := (grown_expanded w c hknown).sound (sound_walked w c hknown hvolumes)
  rw [translate_eq]
  dsimp only
  split
  · exact Merge.sound_merge (sound_units c hknown) hexpanded
  · exact hexpanded

/-- **What is made of the shared sections holds their leaves**, under their new names, if nothing else
becomes of them: they are neither left out nor in contents that are embedded, and not overridden by
contents from a file. -/
theorem holds_translate (w : Workspace) (c : Config) {plain : Trail → Prop}
    (hplain : ∀ t, plain t → ∀ p ∈ skippedPlaces ++ resourcePlaces, ¬p <+: t.outline)
    (hcontents : ∀ (o : Trail) path, o.outline ∈ unitPlaces →
      (Config.codec.write c).at? (o.key "contents_local") = some (.str path) →
        ¬plain (o.key "contents"))
    {t : Trail} {x : Json} (ht : (Config.codec.write c).at? t = some x) (hx : x.isScalar = true)
    (hne : x.isEmpty = false) (hp : plain t) : Holds (translate w c) t (renamed t.outline) x := by
  have h := @traced_translate (fun _ => True) plain w c (fun _ _ _ => trivial) hplain hcontents
  obtain ⟨hv, ho⟩ := h.carries t x ht hx hne hp
  obtain ⟨s, hs, -⟩ := (Config.writes c).at ht
  have hnamed := isNamed_of_at hs
  have hwalked : Holds (walked w c) t (renamed t.outline) x := by
    refine ⟨(translator w).rename t, outline_rename w hnamed, ?_, ?_⟩
    · rw [value_walked]
      exact hv
    · rw [provenance_walked]
      exact ho
  have hgrown := @grown_expanded (fun _ => True) w c fun _ _ _ => trivial
  have hexpanded := hgrown.holds (shaped_walked w c) hx (fun hpre => ?_) hwalked
  · rw [translate_eq]
    dsimp only
    split
    · exact Merge.holds_merge (shaped_units c) (hgrown.shaped (shaped_walked w c)) hx hexpanded
    · exact hexpanded
  · -- Contents of files are resources, and what is below them is not carried.
    have hrenamed : renamed Draft.contentsPlace = Draft.contentsPlace := by decide
    rw [← hrenamed] at hpre
    exact hplain t hp _ (by decide) (prefix_of_renamed (by decide) hnamed hpre)

end Walked

/-! ## What is checked -/

theorem isFatal_item {α : Type} {trail : Trail} {check : Trail → α → Report} {items : List α}
    (h : (checkItems trail check items).isFatal = false) {i : Nat} {x : α}
    (hx : items[i]? = some x) : (check (trail.index i) x).isFatal = false := by
  rw [checkItems, Report.isFatal, List.any_flatMap, List.any_eq_false] at h
  exact Bool.not_eq_true _ ▸ h (x, i) (List.mk_mem_zipIdx_iff_getElem?.mpr hx)

/-- Contents that are checked are not given twice. -/
theorem eq_none_of_checkContents {trail : Trail} {contents contentsLocal : Option String}
    (h : (checkContents trail contents contentsLocal).isFatal = false)
    (hl : contentsLocal.isSome = true) : contents = none := by
  cases contents with
  | none => rfl
  | some =>
    rw [checkContents, hl] at h
    cases h

section Units

variable {start : Trail} {c : Config}

theorem units_of_validate (h : (validate start c).isFatal = false) :
    (checkItems (start.dotted "systemd.units") checkUnit c.systemd.units).isFatal = false := by
  simp only [validate, Report.isFatal_append, Bool.or_eq_false_iff] at h
  exact h.2

/-- What is at a place of units is one of the units. -/
theorem unit_of_place {o : Trail} {z : Json} (ho : o.outline = [some "systemd", some "units", none])
    (hz : (Config.codec.write c).at? o = some z) :
    ∃ (i : Nat) (u : Unit), c.systemd.units[i]? = some u ∧ z = Unit.codec.write u := by
  obtain ⟨u₁, rfl, h₁⟩ := Trail.outline_eq_key.mp ho
  obtain ⟨u₂, rfl, h₂⟩ := Trail.outline_eq_key.mp h₁
  obtain ⟨i, u₃, rfl, h₃⟩ := Trail.outline_eq_index.mp h₂
  cases Trail.outline_eq_nil.mp h₃
  have hunits : (Config.codec.write c).at? [.key "systemd", .key "units"] =
      some (.arr (c.systemd.units.map Unit.codec.write)) := rfl
  obtain ⟨u, hu, rfl⟩ := Option.map_eq_some_iff.mp ((Json.at?_index_map hunits i).symm.trans hz)
  exact ⟨i, u, hu, rfl⟩

/-- What is at a place of units or drop-ins has contents that were checked. -/
theorem checked_of_place (h : (validate start c).isFatal = false) {o : Trail} {z : Json}
    (ho : o.outline ∈ unitPlaces) (hz : (Config.codec.write c).at? o = some z) :
    ∃ trail contents contentsLocal, (checkContents trail contents contentsLocal).isFatal = false ∧
      z.at? [.key "contents"] = some ((contents.map Json.str).getD .null) ∧
      z.at? [.key "contents_local"] = some ((contentsLocal.map Json.str).getD .null) := by
  simp only [unitPlaces, List.mem_cons, List.not_mem_nil, or_false] at ho
  have checked : ∀ {i : Nat} {u : Unit}, c.systemd.units[i]? = some u → ∃ trail,
      (checkUnit trail u).isFatal = false := fun hu => ⟨_, isFatal_item (units_of_validate h) hu⟩
  simp only [checkUnit, Report.isFatal_append, Bool.or_eq_false_iff] at checked
  rcases ho with ho | ho
  · obtain ⟨i, u, hu, rfl⟩ := unit_of_place ho hz
    obtain ⟨trail, hcontents, -⟩ := checked hu
    exact ⟨trail, _, _, hcontents, rfl, rfl⟩
  · -- A drop-in is that of a unit.
    obtain ⟨i, j, rfl⟩ : ∃ i j, o = [.key "systemd", .key "units", .index i] ++
        [.key "dropins", .index j] := by
      obtain ⟨u₁, rfl, h₁⟩ := Trail.outline_eq_key.mp ho
      obtain ⟨u₂, rfl, h₂⟩ := Trail.outline_eq_key.mp h₁
      obtain ⟨i, u₃, rfl, h₃⟩ := Trail.outline_eq_index.mp h₂
      obtain ⟨u₄, rfl, h₄⟩ := Trail.outline_eq_key.mp h₃
      obtain ⟨j, u₅, rfl, h₅⟩ := Trail.outline_eq_index.mp h₄
      cases Trail.outline_eq_nil.mp h₅
      exact ⟨i, j, rfl⟩
    rw [Json.at?_append, Option.bind_eq_some_iff] at hz
    obtain ⟨y, hy, hyz⟩ := hz
    obtain ⟨i', u, hu, rfl⟩ := unit_of_place rfl hy
    have hdropins : (Unit.codec.write u).at? [.key "dropins"] =
        some (.arr (u.dropins.map Dropin.codec.write)) := rfl
    obtain ⟨d, hd, rfl⟩ :=
      Option.map_eq_some_iff.mp ((Json.at?_index_map hdropins j).symm.trans hyz)
    obtain ⟨trail, -, hitems⟩ := checked hu
    exact ⟨_, _, _, isFatal_item hitems hd, rfl, rfl⟩

/-- **A unit or drop-in that is checked has no contents of its own** beside those from a file. -/
theorem contents_of_unit (h : (validate start c).isFatal = false) {o : Trail} {path : String}
    {y : Json} (ho : o.outline ∈ unitPlaces)
    (hl : (Config.codec.write c).at? (o.key "contents_local") = some (.str path))
    (hc : (Config.codec.write c).at? (o.key "contents") = some y) : y = .null := by
  rw [Trail.key, Json.at?_append, Option.bind_eq_some_iff] at hl hc
  obtain ⟨z, hz, hzl⟩ := hl
  obtain ⟨z', hz', hzc⟩ := hc
  cases hz.symm.trans hz'
  obtain ⟨trail, contents, contentsLocal, hchecked, hcontents, hlocal⟩ := checked_of_place h ho hz
  rw [hzl] at hlocal
  rw [hzc] at hcontents
  cases contentsLocal with
  | none => cases hlocal
  | some =>
    rw [eq_none_of_checkContents hchecked rfl] at hcontents
    exact Option.some.inj hcontents

end Units

/-! ## Leaves -/

/-- The outline of the numbers of partitions. -/
def numberPlace : Outline :=
  [some "storage", some "disks", none, some "partitions", none, some "number"]

set_option maxRecDepth 8000 in
/-- Only partitions have what machines know as numbers. -/
theorem number_place {t : Trail} {s : Shape} (h : Config.shape.at? t = some s)
    (hlast : (renamed t.outline).getLast? = some (some "number")) : t.outline = numberPlace := by
  have hplaces : (Config.shape.places.filter fun o =>
      (renamed o).getLast? == some (some "number")) = [numberPlace] := by cbv
  exact List.mem_singleton.mp (hplaces ▸ List.mem_filter.mpr
    ⟨Shape.outline_mem_places h, beq_iff_eq.mpr hlast⟩)

/-- **The document has the leaves of a config that was checked**, but for places that machines do not
know and contents that are embedded. -/
theorem holds_leaf (w : Workspace) {c : Config} {start : Trail}
    (h : (validate start c).isFatal = false) {t : Trail} {x : Json}
    (ht : (Config.codec.write c).at? t = some x) (hx : x.isScalar = true)
    (hne : x.isEmpty = false) (hplaces : ∀ p ∈ skippedPlaces ++ resourcePlaces, ¬p <+: t.outline) :
    Holds (translate w c) t (renamed t.outline) x := by
  refine @holds_translate w c (fun t =>
    (∀ p ∈ skippedPlaces ++ resourcePlaces, ¬p <+: t.outline) ∧
      ∃ y, (Config.codec.write c).at? t = some y ∧ y ≠ .null)
    (fun _ ht => ht.1) (fun o path ho hl hplain => ?_) t x ht hx hne
    ⟨hplaces, x, ht, Json.ne_null_of_not_isEmpty hne⟩
  obtain ⟨-, y, hy, hnull⟩ := hplain
  exact hnull (contents_of_unit h ho hl hy)

end Provision.Source
