import Provision.Proofs.Decode.Sections
import Provision.Proofs.Source.Heeds
import Provision.Variant.Config

/-!
# What a document must say

A config heeds its document: whatever part of the document is written again with the config, another
value there would have made the document no config.

* `Config.heeds`: a config of any variant heeds its document.
* `Config.IsRead`: it matters for a config what the document has at a trail.
* `Config.isRead_iff`: a key of the document is read if and only if it is written again.
-/

set_option autoImplicit false

namespace Provision

open Decode Decode.Codec Decode.RecordField
open Yaml (Datum)

namespace Fcos

theorem Extension.heeds : Extension.codec.Heeds :=
  heeds_record ⟨trivial, trivial⟩ (by decide) (by decide) ⟨heeds_plain heeds_text rfl, trivial⟩

theorem ownFields_independent : Independent ownFields := by
  simp only [ownFields, Independent, Apart, and_true]
  and_intros <;> refine leaves_of_read (fun _ _ _ _ => rfl) ?_ <;> exact fun _ _ => rfl

theorem independent : Independent (ownFields ++ sections) := by
  refine independent_sections ownFields_independent ?_ Source.Config.independent
  simp only [ownFields, List.forall_mem_cons]
  exact ⟨beside_plain, beside_plain, beside_plain, beside_plain, nofun⟩

theorem heedAll : HeedAll (ownFields ++ sections) :=
  heedAll_append
    ⟨heeds_plain heeds_text rfl, heeds_plain heeds_text rfl, heeds_plain BootDevice.heeds rfl,
      heeds_plain (heeds_list Extension.heeds) rfl, trivial⟩
    (heedAll_lift Source.Config.heeds rfl)

theorem isSome_write : ∀ f ∈ ownFields ++ sections, ∀ r, (f.write r).isSome := by
  simp [ownFields, sections, Source.Config.fields, plain, lift]

end Fcos

namespace Plain

theorem ownFields_independent : Independent ownFields := by
  simp only [ownFields, Independent, Apart, and_true]
  and_intros <;> refine leaves_of_read (fun _ _ _ _ => rfl) ?_ <;> exact fun _ _ => rfl

theorem independent : Independent (ownFields ++ sections) := by
  refine independent_sections ownFields_independent ?_ Source.Config.independent
  simp only [ownFields, List.forall_mem_cons]
  exact ⟨beside_plain, beside_plain, nofun⟩

theorem heedAll : HeedAll (ownFields ++ sections) :=
  heedAll_append ⟨heeds_plain heeds_text rfl, heeds_plain heeds_text rfl, trivial⟩
    (heedAll_lift Source.Config.heeds rfl)

theorem isSome_write : ∀ f ∈ ownFields ++ sections, ∀ r, (f.write r).isSome := by
  simp [ownFields, sections, Source.Config.fields, plain, lift]

end Plain

namespace Openshift

theorem Metadata.independent : Independent Metadata.fields := by
  simp only [Metadata.fields, Independent, Apart, and_true]
  and_intros <;> refine leaves_of_read (fun _ _ _ _ => rfl) ?_ <;> exact fun _ _ => rfl

theorem Metadata.heeds : Metadata.codec.Heeds :=
  heeds_record Metadata.independent (by decide) (by decide)
    ⟨heeds_plain heeds_text rfl, heeds_plain heeds_texts rfl, trivial⟩

theorem Settings.independent : Independent Settings.fields := by
  simp only [Settings.fields, Independent, Apart, and_true]
  and_intros <;> refine leaves_of_read (fun _ _ _ _ => rfl) ?_ <;> exact fun _ _ => rfl

theorem Settings.heeds : Settings.codec.Heeds :=
  heeds_record Settings.independent (by decide) (by decide)
    ⟨heeds_plain (heeds_list heeds_text) rfl, heeds_plain (heeds_list heeds_text) rfl,
      heeds_plain (heeds_option readsScalars_bool) rfl,
      heeds_plain (heeds_option readsScalars_text) rfl, trivial⟩

theorem ownFields_independent : Independent ownFields := by
  simp only [ownFields, Independent, Apart, and_true]
  and_intros <;> refine leaves_of_read (fun _ _ _ _ => rfl) ?_ <;> exact fun _ _ => rfl

theorem independent : Independent (ownFields ++ sections) := by
  refine independent_sections ownFields_independent ?_ Source.Config.independent
  simp only [ownFields, List.forall_mem_cons]
  exact ⟨beside_plain, beside_plain, beside_plain, beside_plain, beside_plain, nofun⟩

theorem heedAll : HeedAll (ownFields ++ sections) :=
  heedAll_append
    ⟨heeds_plain heeds_text rfl, heeds_plain heeds_text rfl, heeds_plain Metadata.heeds rfl,
      heeds_plain BootDevice.heeds rfl, heeds_plain Settings.heeds rfl, trivial⟩
    (heedAll_lift Source.Config.heeds rfl)

theorem isSome_write : ∀ f ∈ ownFields ++ sections, ∀ r, (f.write r).isSome := by
  simp [ownFields, sections, Source.Config.fields, plain, lift]

end Openshift

namespace Config

variable {variant : Variant} {document : Datum} {config : Config}

/-- **A config heeds its document**: a part that is written again was read, and another value there
would have been refused. -/
theorem heeds {t : Trail} {z : Datum} {y : Json} (h : ofDatum variant document = .ok config)
    (hz : document.at? t = some z) (hy : config.json.at? t = some y) :
    Corresponds z y ∧ ∃ bad, findCase bad = none ∧
      ∀ c, ofDatum variant (document.replace t bad) ≠ .ok c := by
  cases variant with
  | fcos =>
    obtain ⟨c, rfl, hall⟩ := map_readDocument_heeds Fcos.independent (by decide) Fcos.heedAll h
    exact hall t z y hz hy
  | flatcar =>
    obtain ⟨c, rfl, hall⟩ := map_readDocument_heeds Plain.independent (by decide) Plain.heedAll h
    exact hall t z y hz hy
  | openshift =>
    obtain ⟨c, rfl, hall⟩ :=
      map_readDocument_heeds Openshift.independent (by decide) Openshift.heedAll h
    exact hall t z y hz hy
  | fiot =>
    obtain ⟨c, rfl, hall⟩ := map_readDocument_heeds Plain.independent (by decide) Plain.heedAll h
    exact hall t z y hz hy

/-- A key that is not written again can have any other value that is no case. -/
theorem ofDatum_unread {k : String} {z y : Datum} (h : ofDatum variant document = .ok config)
    (hz : document.child? (.key k) = some z) (hk : config.json.get? k = none)
    (hy : findCase y = none) : ofDatum variant (document.replace [.key k] y) = .ok config := by
  cases variant with
  | fcos =>
    obtain ⟨c, rfl, hall⟩ := map_readDocument_unread (by decide) Fcos.isSome_write h hz
    exact hall hk y hy
  | flatcar =>
    obtain ⟨c, rfl, hall⟩ := map_readDocument_unread (by decide) Plain.isSome_write h hz
    exact hall hk y hy
  | openshift =>
    obtain ⟨c, rfl, hall⟩ := map_readDocument_unread (by decide) Openshift.isSome_write h hz
    exact hall hk y hy
  | fiot =>
    obtain ⟨c, rfl, hall⟩ := map_readDocument_unread (by decide) Plain.isSome_write h hz
    exact hall hk y hy

/-- It matters for a config what a document has at a trail, even if that is no case. -/
def IsRead (variant : Variant) (document : Datum) (t : Trail) : Prop :=
  ∃ y, findCase y = none ∧ ofDatum variant (document.replace t y) ≠ ofDatum variant document

/-- What is written again was read. -/
theorem isRead_of_at {t : Trail} (h : ofDatum variant document = .ok config)
    (ht : (document.at? t).isSome) (hw : (config.json.at? t).isSome) :
    IsRead variant document t := by
  obtain ⟨z, hz⟩ := Option.isSome_iff_exists.mp ht
  obtain ⟨y, hy⟩ := Option.isSome_iff_exists.mp hw
  obtain ⟨-, bad, hbad, hrefuses⟩ := heeds h hz hy
  exact ⟨bad, hbad, h ▸ hrefuses config⟩

/-- **A key of a document is read if and only if it is written again.** -/
theorem isRead_iff {k : String} {z : Datum} (h : ofDatum variant document = .ok config)
    (hz : document.child? (.key k) = some z) :
    IsRead variant document [.key k] ↔ (config.json.get? k).isSome := by
  constructor
  · rintro ⟨y, hy, hne⟩
    cases hk : config.json.get? k with
    | some x => rfl
    | none => exact absurd ((ofDatum_unread h hz hk hy).trans h.symm) hne
  · intro hk
    obtain ⟨x, hx⟩ := Option.isSome_iff_exists.mp hk
    refine isRead_of_at h (by simp [hz]) ?_
    exact Option.isSome_iff_exists.mpr ⟨x, by simp [Json.child?, hx]⟩

end Config

end Provision
