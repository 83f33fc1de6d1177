import Provision.Proofs.Draft.Anchored
import Provision.Proofs.Ignition.Files
import Provision.Proofs.Source.Units
import Provision.Proofs.Variant.Draft

/-!
# What findings are about has an origin in every variant

Whatever a config says, what filters and checks find something about comes from a place of the
config. Only an operator who asks for approved ciphers can get volumes without an origin, and they
have no name.

* `Source.anchored_translate`: the document for the shared sections.
* `Config.anchored_draft`: the documents of all variants.
* `anchored_stamp`: the configs that are read from them.
-/

set_option autoImplicit false

namespace Provision

open Draft (Anchored Shaped Sound volumePlace unitContentsPlace)

/-! ## Documents of single parts -/

theorem Draft.anchored_empty : Anchored (fun _ => False) .empty where
  toShaped := (sound_empty fun _ => True).toShaped
  aligned := ⟨rfl, rfl⟩
  covers _ _ hx hne hq _ := (sound_empty fun _ => True).isSome_find? hx hne hq
  contents q x hq hx _ := by
    obtain ⟨u, rfl, -⟩ := Trail.outline_eq_key.mp hq
    cases hx

/-- The plan for the boot device is anchored. -/
theorem BootDevice.anchored_plan (b : BootDevice) (start : Trail) :
    Anchored (fun _ => False) (b.plan start) := by
  have hgrown : Draft.Grown (fun _ => True) .empty (b.plan start) :=
    Draft.grown_foldl (fun e he d _ => by
      obtain ⟨s, hs, ⟨hf, hd⟩, hne⟩ := isNode_of_mem he
      exact Draft.Grown.refl.push trivial hs hf hd hne) Draft.anchored_empty.toShaped
  exact hgrown.anchored Draft.anchored_empty

/-- The document with the file that names extensions is anchored. -/
theorem Extensions.anchored_fileFor (w : Workspace) (names : List String) :
    Anchored (fun _ => False) (fileFor w names) := by
  have hsound := @sound_fileFor (fun _ => True) trivial w names
  refine .of_complete hsound.toShaped ?_ hsound.covers (fun q x hq hx _ => ?_) _
  · exact (@Provenance.grows_addValue (fun _ => True) _ trivial {} _ _).aligned ⟨rfl, rfl⟩
  · obtain ⟨u, rfl, -⟩ := Trail.outline_eq_key.mp hq
    cases hx

/-! ## Units -/

/-- A trail of the outline of contents of units leads to the contents of a unit. -/
theorem Source.eq_of_unitContentsPlace {q : Trail} (h : q.outline = unitContentsPlace) :
    ∃ i, q = (unitTrail i).key "contents" := by
  obtain ⟨q₁, rfl, h₁⟩ := Trail.outline_eq_key.mp h
  obtain ⟨q₂, rfl, h₂⟩ := Trail.outline_eq_key.mp h₁
  obtain ⟨i, q₃, rfl, h₃⟩ := Trail.outline_eq_index.mp h₂
  obtain ⟨q₄, rfl, h₄⟩ := Trail.outline_eq_key.mp h₃
  cases Trail.outline_eq_nil.mp h₄
  exact ⟨i, rfl⟩

namespace MountUnit

/-- The unit that is made of a name and contents. -/
def unit (name contents : String) : Json :=
  .obj [("name", .str name), ("enabled", .bool true), ("contents", .str contents)]

/-- The contents of a unit have an origin once the unit is recorded. -/
theorem isSome_record (p : Provenance) (origin : Trail) (i : Nat) (name contents : String) :
    ((record p ((origin, unit name contents), i)).find?
      ((Source.unitTrail i).key "contents")).isSome = true := by
  rw [record, Provenance.find?_add_of_ne (by simp [Source.unitTrail, Trail.key]),
    Provenance.find?_add_of_ne (by simp [Source.unitTrail, Trail.key])]
  simp only [unit, Provenance.addValue, Provenance.addMembers]
  exact congrArg Option.isSome (Provenance.find?_add _ origin _)

/-- A document of units is anchored. -/
theorem anchored_of_units {wanted : List (Trail × Json)}
    (h : ∀ e ∈ wanted, ∃ name contents, e.2 = unit name contents) (hne : wanted ≠ [])
    (report : Report) : Anchored (fun _ => False)
      ⟨.obj [("systemd", .obj [("units", .arr (wanted.map (·.2)))])],
        wanted.zipIdx.foldl record {}, report⟩ := by
  have hunit : ∀ e ∈ wanted, IsUnit (fun _ => True) e := fun e he => by
    obtain ⟨name, contents, heq⟩ := h e he
    exact ⟨trivial, heq ▸ fits_unit name contents, by rw [heq]; rfl⟩
  have hsound := sound_of_units hunit hne report
  have hstep : ∀ e ∈ wanted.zipIdx, ∀ p : Provenance,
      p.Grows (fun _ => True) (fun _ => True) (record p e) :=
    fun e _ p => @grows_record (fun _ => True) e trivial p
  refine .of_complete hsound.toShaped ?_ hsound.covers (fun q x hq hx _ => ?_) _
  · exact (Provenance.grows_foldl hstep {}).aligned ⟨rfl, rfl⟩
  · obtain ⟨i, rfl⟩ := Source.eq_of_unitContentsPlace hq
    obtain ⟨unit, hunit, -⟩ : ∃ unit, (wanted.map (·.2))[i]? = some unit ∧
        unit.at? [.key "contents"] = some x := Option.bind_eq_some_iff.mp hx
    obtain ⟨⟨origin, unit⟩, he, rfl⟩ := Option.map_eq_some_iff.mp (List.getElem?_map .. ▸ hunit)
    obtain ⟨name, contents, rfl⟩ := h _ (List.mem_of_getElem? he)
    exact Provenance.isSome_foldl hstep (List.mk_mem_zipIdx_iff_getElem?.mpr he)
      (fun p => isSome_record p origin i name contents) _

/-- **The document with the units for filesystems is anchored.** -/
theorem anchored_units (filesystems : List Source.Filesystem) (start : Trail) :
    Anchored (fun _ => False) (units filesystems start) := by
  rw [units]
  dsimp only
  split
  · exact Draft.anchored_empty
  · next hne =>
    refine anchored_of_units (fun e he => ?_) (by simpa using hne) []
    obtain ⟨⟨fs, i⟩, -, hunit⟩ := List.mem_filterMap.mp he
    obtain ⟨unit, -, rfl⟩ := Option.map_eq_some_iff.mp hunit
    exact ⟨_, _, rfl⟩

end MountUnit

/-! ## The shared sections -/

namespace Source

open Translator (Traced)

theorem aligned_walkMembers (t : Translator) (origin place : Trail)
    (members : List (String × Json)) {done : Translated (List (String × Json))}
    (h : done.provenance.Aligned) :
    (t.walkMembers origin place members done).provenance.Aligned := by
  induction members generalizing done with
  | nil =>
    rw [Translator.walkMembers]
    exact h
  | cons e rest ih =>
    obtain ⟨k, x⟩ := e
    rw [Translator.walkMembers]
    split
    · exact ih h
    · exact ih ⟨h.source, h.target⟩

/-- What is made of a whole object is about the source and the document. -/
theorem aligned_walk (t : Translator) (members : List (String × Json)) :
    (t.walk [] [] (.obj members)).provenance.Aligned := by
  have hmembers := @aligned_walkMembers t [] [] members ⟨[], {}, []⟩ ⟨rfl, rfl⟩
  rw [Translator.walk, Translator.written]
  split
  · exact hmembers
  · exact hmembers

/-- The document before trees and units is anchored. -/
theorem anchored_walked (w : Workspace) (c : Config) :
    Anchored (fun _ => False) (walked w c) := by
  have h := @traced_translate (fun _ => True) (fun _ => False) w c (fun _ _ _ => trivial)
    (fun _ h => h.elim) fun _ _ _ _ h => h
  refine .of_complete (shaped_walked w c) ?_ ?_ (fun q x hq hx _ => ?_) _
  · rw [walked_eq_walk, Translated.provenance_map]
    exact aligned_walk _ _
  · rw [value_walked, provenance_walked]
    exact h.covers
  · obtain ⟨i, rfl⟩ := eq_of_unitContentsPlace hq
    exact isSome_contents w c hx

/-- **What is made of the shared sections is anchored.** -/
theorem anchored_translate (w : Workspace) (c : Config) :
    Anchored (fun _ => False) (translate w c) := by
  have hexpanded := (@grown_expanded (fun _ => True) w c fun _ _ _ => trivial).anchored
    (anchored_walked w c)
  rw [translate_eq]
  dsimp only
  split
  · exact Merge.anchored_merge (MountUnit.anchored_units _ _) hexpanded
  · exact hexpanded

end Source

/-! ## The variants -/

namespace Config

/-- The places where parts of a draft can be without an origin. -/
def Excused : Config → Outline → Prop
  | .openshift _, o => o = volumePlace
  | _, _ => False

theorem anchored_lower (w : Workspace) (c : Fcos.Config) :
    Anchored (fun _ => False) (c.lower w) := by
  rw [Fcos.Config.lower]
  split
  · exact c.bootDevice.anchored_plan []
  · exact Merge.anchored_merge (c.bootDevice.anchored_plan []) (Extensions.anchored_fileFor w _)

theorem anchored_withCiphers (c : Openshift.Config) {d : Draft}
    (h : Anchored (fun _ => False) d) : Anchored (· = volumePlace) (c.withCiphers d) := by
  have hd : Anchored (· = volumePlace) d := h.mono fun _ => False.elim
  rw [Openshift.Config.withCiphers]
  split
  · exact Fips.anchored_choose hd _
  · exact hd

/-- **What findings about a draft are about has an origin.** -/
theorem anchored_draft (spec : Spec) (w : Workspace) (config : Config) :
    Anchored config.Excused (config.draft spec w) := by
  cases config with
  | fcos c =>
    exact Merge.anchored_merge (anchored_lower w c) (Source.anchored_translate w c.base)
  | flatcar c => exact (Source.anchored_translate w c.base).withReport _
  | openshift c =>
    exact (anchored_withCiphers c (Merge.anchored_merge (c.bootDevice.anchored_plan [])
      (Source.anchored_translate _ c.base))).withReport _
  | fiot c => exact (Source.anchored_translate w c.base).withReport _

end Config

/-! ## Versions -/

section Stamp

variable {excused : Outline → Prop} {d : Draft}

/-- The document with a version is anchored. -/
theorem anchored_withVersion (h : Anchored excused d) (version : String) :
    Anchored excused ⟨withVersion version d.value, stampOrigins d.provenance, d.report⟩ := by
  rw [withVersion_eq h.fits]
  have hmissing := @Provenance.grows_addMissing (fun _ => True) versionTrail trivial
    (d.provenance.add versionTrail stampPlace) [.key "ignition"]
  have hplace : ((stampOrigins d.provenance).find? stampPlace).isSome = true := by
    refine hmissing.isSome _ ?_
    rw [Provenance.find?_add]
    rfl
  refine h.put (hasRoom_stampPlace _) (s := .leaf) rfl (Shape.fits_str _) rfl
    (@grows_stamp (fun _ => True) trivial d.provenance) ?_ (fun u hu hnil ht _ => ?_)
    (fun u x hu _ _ => ?_) _
  · refine (Provenance.covers_iff _ _ _).mpr ⟨fun _ => .inr hplace, fun step y hy => ?_⟩
    simp at hy
  · match u with
    | [] => exact absurd rfl hnil
    | [a] =>
      cases (List.cons_prefix_cons.mp hu).1
      exact Provenance.isSome_addMissing _ _ _
    | a :: b :: u => exact absurd (hu.eq_of_length_le (by simp [stampPlace])) ht
  · exact absurd (List.cons.inj hu).1 (by decide)

/-- **What findings about a config that is read are about has an origin.** -/
theorem anchored_stamp (h : Anchored excused d) {spec : Spec} {config : Ignition.Config}
    (hc : (stamp spec d).value = some config) :
    (∀ t x, (Ignition.Config.codec.write config).at? t = some x → x.isEmpty = false → t ≠ [] →
      ¬excused t.outline → ((stamp spec d).provenance.find? t).isSome = true) ∧
    ∀ (i : Nat) (u : Ignition.Unit) text, config.systemd.units[i]? = some u →
      u.contents = some text →
        ((stamp spec d).provenance.find? ((Source.unitTrail i).key "contents")).isSome = true := by
  have hs := anchored_withVersion h spec.target.text
  rw [stamp_provenance]
  refine ⟨fun t x hx hne ht ho => ?_, fun i u text hu htext => ?_⟩
  · obtain ⟨z, hz, hzne⟩ := (kept_of_stamp h.toShaped hc).backed t x hx hne
    exact hs.covers t z hz hzne ht ho
  · rw [stamp] at hc
    split at hc
    · next hread =>
      cases hc
      have hat := Ignition.Config.contents_read ⟨hs.fits, hs.distinct⟩ hread hu htext
      exact hs.contents _ _ rfl hat fun h => by cases h
    · cases hc

/-- Versions are recorded for the same documents. -/
theorem aligned_stamp (h : d.provenance.Aligned) (spec : Spec) :
    (stamp spec d).provenance.Aligned := by
  rw [stamp_provenance]
  exact (@grows_stamp (fun _ => True) trivial d.provenance).aligned h

end Stamp

end Provision
