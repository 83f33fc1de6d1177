import Provision.Proofs.Ignition.Readable
import Provision.Proofs.Variant.Leaves
import Provision.Transpile

/-!
# A document that was made can be read again

The text of a document is the text of one JSON value, which has the version of the spec where its
config has it.

* `Config.readable_translate`: a document that is made of a config that was read is readable.
* `parse_render`: the text of a readable document is read as the document.
* `Config.translate_version`: a document has the version that its spec asks for.
-/

set_option autoImplicit false

namespace Provision

open Decode (Codec RecordField readDocument_induct)
open Json (Readable)
open Yaml (Datum)

/-! ## Labels -/

namespace Openshift

/-- The names of the labels of a config are in order. -/
def Config.HasOrderedLabels (c : Config) : Prop := Codec.Ordered c.metadata.labels

variable {ν : Type} {v : Decode.View ν}

theorem Metadata.yields_ordered : Metadata.codec.Yields v fun m => Codec.Ordered m.labels := by
  have hname : (RecordField.plain "name" Codec.text Metadata.name
      fun x r => { r with name := x }).Preserves v fun m => Codec.Ordered m.labels :=
    RecordField.preserves_plain fun _ _ _ _ hr => hr
  have hlabels : (RecordField.plain "labels" Codec.texts Metadata.labels
      fun x r => { r with labels := x }).Preserves v fun m => Codec.Ordered m.labels :=
    RecordField.preserves_plain fun x a _ ha _ => Codec.yields_texts v x a ha
  exact Codec.yields_record List.Pairwise.nil
    (List.forall_mem_cons.mpr ⟨hname, List.forall_mem_singleton.mpr hlabels⟩)

theorem preserves_ownFields : ∀ f ∈ ownFields, f.Preserves v Config.HasOrderedLabels := by
  have hother : ∀ {α : Type} {name : String} {c : Codec α} {get : Config → α}
      {set : α → Config → Config}, (∀ a r, (set a r).metadata = r.metadata) →
      (RecordField.plain name c get set).Preserves v Config.HasOrderedLabels := by
    intro α name c get set h
    refine RecordField.preserves_plain fun x a r _ hr => ?_
    rw [Config.HasOrderedLabels, h]
    exact hr
  exact List.forall_mem_cons.mpr ⟨hother fun _ _ => rfl,
    List.forall_mem_cons.mpr ⟨hother fun _ _ => rfl,
    List.forall_mem_cons.mpr
      ⟨RecordField.preserves_plain fun x a _ ha _ => Metadata.yields_ordered x a ha,
    List.forall_mem_cons.mpr ⟨hother fun _ _ => rfl,
    List.forall_mem_singleton.mpr (hother fun _ _ => rfl)⟩⟩⟩⟩

theorem preserves_sections : ∀ f ∈ sections, f.Preserves v Config.HasOrderedLabels := by
  intro f hf
  obtain ⟨g, -, rfl⟩ := List.mem_map.mp hf
  exact RecordField.preserves_lift fun _ _ hr => hr

end Openshift

namespace Config

/-- **The labels of a config that was read are in order.** -/
theorem ordered_labels {variant : Variant} {document : Datum} {c : Openshift.Config}
    (h : Config.ofDatum variant document = .ok (.openshift c)) : c.HasOrderedLabels := by
  cases variant with
  | openshift =>
    obtain ⟨c', hread, hc⟩ := Decode.map_eq_ok h
    cases hc
    have hempty : Openshift.Config.HasOrderedLabels {} := List.Pairwise.nil
    exact readDocument_induct hempty Openshift.preserves_ownFields Openshift.preserves_sections hread
  | fcos =>
    obtain ⟨c', -, hc⟩ := Decode.map_eq_ok h
    cases hc
  | flatcar =>
    obtain ⟨c', -, hc⟩ := Decode.map_eq_ok h
    cases hc
  | fiot =>
    obtain ⟨c', -, hc⟩ := Decode.map_eq_ok h
    cases hc

/-! ## Documents -/

theorem readable_stamp {spec : Spec} {d : Draft} {made : Ignition.Config}
    (h : (stamp spec d).value = some made) : Readable 8 (Ignition.Config.codec.write made) := by
  rw [stamp] at h
  split at h
  · next hread =>
    cases h
    exact Ignition.Config.reads _ _ hread
  · cases h

/-- **A document that is made of a config that was read can be read again.** -/
theorem readable_translate {variant : Variant} {source : Datum} {config : Config}
    (hread : Config.ofDatum variant source = .ok config) {spec : Spec} {w : Workspace} {raw : Bool}
    {document : Document} (h : (config.translate spec w raw).value = some document) :
    Readable 10 document.json := by
  obtain ⟨made, hmade, hcases⟩ := translate_cases h
  have hconfig := readable_stamp hmade
  rcases hcases with ⟨rfl, -⟩ | ⟨c, rfl, ⟨rfl, -⟩ | ⟨rfl, -⟩⟩
  · exact hconfig.mono (by decide)
  · exact MachineConfig.readable (ordered_labels hread).nodup hconfig
  · exact hconfig.mono (by decide)

/-! ## Versions -/

/-- Where a document of a variant has its config. -/
def configPlace (variant : Variant) (raw : Bool) : Trail :=
  if variant = .openshift ∧ raw = false then Openshift.configTrail else []

/-- The variant that a config is for. -/
def variant : Config → Variant
  | .fcos _ => .fcos
  | .flatcar _ => .flatcar
  | .openshift _ => .openshift
  | .fiot _ => .fiot

theorem variant_ofDatum {variant : Variant} {document : Datum} {config : Config}
    (h : Config.ofDatum variant document = .ok config) : config.variant = variant := by
  cases variant with
  | fcos | flatcar | openshift | fiot =>
    obtain ⟨c, -, rfl⟩ := Decode.map_eq_ok h
    rfl

theorem isEmpty_version (v : Version) : v.text.isEmpty = false := by
  simp [Version.text]

/-- The config that is read from a draft has the version of the spec. -/
theorem at?_stamp {spec : Spec} {d : Draft} (hd : Draft.Shaped d) {made : Ignition.Config}
    (h : (stamp spec d).value = some made) :
    (Ignition.Config.codec.write made).at? stampPlace = some (.str spec.target.text) := by
  have hversion := Json.at?_put (.str spec.target.text) (hasRoom_stampPlace d.value) []
  rw [List.append_nil, ← withVersion_eq hd.fits] at hversion
  refine (kept_of_stamp hd h).leaf _ _ hversion rfl (isEmpty_version _) ?_
  rintro ⟨hlast, -⟩
  exact absurd hlast (by decide)

/-- A config is found at its place in the document. -/
theorem at?_document (document : Document) (t : Trail) :
    document.json.at? (document.configTrail ++ t) =
      (Ignition.Config.codec.write document.config).at? t := by
  cases document with
  | ignition c => rfl
  | machineConfig m => exact at?_configTrail m t

theorem configTrail_translate {spec : Spec} {w : Workspace} {raw : Bool} {config : Config}
    {document : Document} (h : (config.translate spec w raw).value = some document) :
    document.configTrail = configPlace config.variant raw := by
  have hplain : ∀ {made : Option Ignition.Config}, made.map Document.ignition = some document →
      document.configTrail = [] := by
    intro made hmade
    obtain ⟨config, -, rfl⟩ := Option.map_eq_some_iff.mp hmade
    rfl
  cases config with
  | fcos c => exact hplain h
  | flatcar c => exact hplain h
  | fiot c => exact hplain h
  | openshift c =>
    rw [translate, Openshift.Config.translate] at h
    dsimp only at h
    split at h
    · cases h
    · cases raw with
      | false =>
        cases h
        rfl
      | true =>
        cases h
        rfl

/-- **A document has the version of its spec** where its config has it. -/
theorem translate_version {spec : Spec} {w : Workspace} {raw : Bool} {config : Config}
    {document : Document} (h : (config.translate spec w raw).value = some document) :
    document.json.at? (configPlace config.variant raw ++ stampPlace) =
      some (.str spec.target.text) := by
  rw [← configTrail_translate h, at?_document]
  exact at?_stamp (shaped_draft spec w config) (value_stamp h)

end Config

/-- **The text of a readable document is read as the document.** -/
theorem parse_render {document : Document} (h : Readable 10 document.json) (pretty : Bool) :
    Json.parse (render pretty document) = .ok document.json := by
  have hdeep : Readable 127 document.json := h.mono (by decide)
  rw [render]
  cases pretty with
  | true => exact Json.parse_pretty hdeep
  | false => exact Json.parse_compact hdeep

end Provision
