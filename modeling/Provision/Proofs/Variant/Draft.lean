import Provision.Proofs.BootDevice
import Provision.Proofs.Fips
import Provision.Proofs.Source.Sound
import Provision.Proofs.Variant.Document
import Provision.Variant.Config

/-!
# The drafts of all variants

What a variant makes of a config before it gets its version: the document for the shared sections,
over what follows from the other fields. It is sound, and all of it comes from the config.

* `Config.json_section`: a config as JSON has its shared sections.
* `Config.sound_draft`: the document is sound, if all volumes have names.
* `Config.holds_draft`: it has the leaves of the document for the sections.
-/

set_option autoImplicit false

namespace Provision

open Draft (Shaped Sound Holds)
open Decode (RecordField)

/-! ## Fields of records that have sections -/

namespace Decode.RecordField

variable {σ τ : Type}

theorem members_append (fields fields' : List (RecordField σ)) (r : σ) :
    members (fields ++ fields') r = members fields r ++ members fields' r :=
  List.filterMap_append

/-- The members for the fields of a part are those of the part. -/
theorem members_lift (get : τ → σ) (set : σ → τ → τ) (fields : List (RecordField σ)) (r : τ) :
    members (fields.map (.lift get set)) r = members fields (get r) := by
  rw [members, List.filterMap_map]
  rfl

/-- What is below the name of a field of a part is the same in the whole and in the part. -/
theorem at?_lift (own : List (RecordField τ)) (get : τ → σ) (set : σ → τ → τ)
    (fields : List (RecordField σ)) (r : τ) {k : String} (hk : k ∉ own.map (·.name)) (u : Trail) :
    (Json.obj (members (own ++ fields.map (.lift get set)) r)).at? (.key k :: u) =
      (Json.obj (members fields (get r))).at? (.key k :: u) := by
  have hnone : Json.lookup k (members own r) = none :=
    Json.lookup_eq_none_iff.mpr fun h => hk ((names_members own r).subset h)
  have hlookup : Json.lookup k (members own r ++ members fields (get r)) =
      Json.lookup k (members fields (get r)) := by
    rw [Json.lookup, List.lookup_append]
    rw [Json.lookup] at hnone
    rw [hnone, Option.none_or, Json.lookup]
  rw [members_append, members_lift, Json.at?_cons, Json.at?_cons, Json.child?_key_obj, hlookup,
    Json.child?_key_obj]

end Decode.RecordField

namespace Config

/-- The shared sections of a config. -/
def base : Config → Source.Config
  | .fcos c => c.base
  | .flatcar c | .fiot c => c.base
  | .openshift c => c.base

/-- The names of the shared sections. -/
def sectionNames : List String := ["ignition", "kernel_arguments", "passwd", "storage", "systemd"]

/-- Whether a trail leads to a node of a config. -/
def Resolves (config : Config) (o : Trail) : Prop := (config.json.at? o).isSome = true

/-- **A config as JSON has its shared sections.** -/
theorem json_section (config : Config) {k : String} (hk : k ∈ sectionNames) (u : Trail) :
    config.json.at? (.key k :: u) =
      (Source.Config.codec.write config.base).at? (.key k :: u) := by
  have hfcos : ∀ k ∈ sectionNames, k ∉ Fcos.ownFields.map (·.name) := by decide
  have hplain : ∀ k ∈ sectionNames, k ∉ Plain.ownFields.map (·.name) := by decide
  have hopenshift : ∀ k ∈ sectionNames, k ∉ Openshift.ownFields.map (·.name) := by decide
  cases config with
  | fcos c => exact RecordField.at?_lift _ _ _ Source.Config.fields c (hfcos k hk) u
  | flatcar c => exact RecordField.at?_lift _ _ _ Source.Config.fields c (hplain k hk) u
  | openshift c => exact RecordField.at?_lift _ _ _ Source.Config.fields c (hopenshift k hk) u
  | fiot c => exact RecordField.at?_lift _ _ _ Source.Config.fields c (hplain k hk) u

/-- The nodes of the sections are nodes of the config. -/
theorem resolves_of_section (config : Config) {o : Trail} {x : Json}
    (h : (Source.Config.codec.write config.base).at? o = some x) : config.Resolves o := by
  cases o with
  | nil => rfl
  | cons step u =>
    obtain ⟨y, hy, -⟩ := Option.bind_eq_some_iff.mp h
    cases step with
    | index => cases hy
    | key k =>
      have hk : k ∈ sectionNames :=
        (RecordField.names_members Source.Config.fields config.base).subset
          (List.mem_map_of_mem (Json.mem_of_lookup hy))
      rw [Resolves, json_section config hk, h]
      rfl

theorem resolves_version (config : Config) : config.Resolves versionTrail := by
  cases config <;> rfl

end Config

/-! ## Extensions -/

/-- **The document with the file that names extensions is sound.** -/
theorem Extensions.sound_fileFor {known : Trail → Prop} (h : known [.key "extensions"])
    (w : Workspace) (names : List String) : Sound known (fileFor w names) := by
  have hcontents : Ignition.Resource.shape.Takes
      (DataUrl.embed w.options.compress (Text.encodeUtf8 (contents names).toList)).json :=
    Trees.fits_embedded _
  have hstorage : Ignition.Storage.shape.Takes (.obj [("files", .arr [.obj [("path", .str path),
      ("mode", Json.int 0o644), ("contents",
        (DataUrl.embed w.options.compress (Text.encodeUtf8 (contents names).toList)).json)]])]) := by
    refine Shape.takes_obj (.refl _) (by decide : ["files"].Nodup)
      (List.forall_mem_singleton.mpr ⟨.list Ignition.File.shape, rfl, ?_⟩)
    refine Shape.takes_list (List.forall_mem_singleton.mpr ?_)
    refine Shape.takes_obj (.refl _) (by decide : ["path", "mode", "contents"].Nodup) ?_
    simp only [List.forall_mem_cons, List.not_mem_nil, false_implies, implies_true, and_true]
    exact ⟨⟨.leaf, rfl, Shape.takes_str _⟩, ⟨.leaf, rfl, Shape.takes_int _⟩,
      ⟨Ignition.Resource.shape, rfl, hcontents⟩⟩
  refine (Draft.sound_empty known).put (t := [.key "storage"]) (s := Ignition.Storage.shape)
    trivial rfl hstorage.1 hstorage.2 (Provenance.grows_addValue h _ _ _)
    (Provenance.covers_addValue _ _ _ _) (fun u hu hnil ht => ?_) (fun u hu hv => ?_) []
  · cases u with
    | nil => exact absurd rfl hnil
    | cons a u => exact absurd (hu.eq_of_length_le (by simp)) ht
  · -- There are files alone, and no volumes.
    have htail : u.outline = [some "luks", none] := (List.cons.inj hu).2
    cases u with
    | nil => cases htail
    | cons step u =>
      cases step with
      | index => cases hv
      | key k =>
        cases (List.cons.inj htail).1
        cases hv

/-! ## Drafts -/

/-- A draft with what filters find in it. -/
def Draft.checked (filters : List Filter) (d : Draft) : Draft :=
  { d with report := d.report ++ Filter.applyAll filters (.target []) d.value }

/-- A workspace without files. -/
def Workspace.bare : Workspace where
  files := ⟨.directory [], []⟩

/-- The workspace for a spec of the operator: contents are not compressed where they could not be
decompressed. -/
def Openshift.workspace (spec : Spec) (w : Workspace) : Workspace :=
  if isCapable spec then w else { w with options := { w.options with compress := false } }

namespace Config

/-- The document for a config before it gets its version. -/
def draft (spec : Spec) (w : Workspace) : Config → Draft
  | .fcos c => Merge.merge (c.lower w) (Source.translate w c.base)
  | .flatcar c => (Source.translate w c.base).checked Plain.flatcarFilters
  | .openshift c => (c.withCiphers (Merge.merge (c.bootDevice.plan [])
      (Source.translate (Openshift.workspace spec w) c.base))).checked (Openshift.filters spec)
  | .fiot c => (Source.translate w c.base).checked Plain.fiotFilters

section Draft

variable {known : Trail → Prop} {w : Workspace}

/-! ### What lies below the sections -/

theorem sound_lower (w : Workspace) (c : Fcos.Config)
    (hplan : ∀ cause : BootDevice.Cause, known (cause.trail [])) (h : known [.key "extensions"]) :
    Sound known (c.lower w) := by
  have hlower : Sound known (c.bootDevice.plan []) := BootDevice.sound_plan _ hplan
  rw [Fcos.Config.lower]
  split
  · exact hlower
  · exact Merge.sound_merge hlower (Extensions.sound_fileFor h w _)

theorem shaped_lower (w : Workspace) (c : Fcos.Config) : Shaped (c.lower w) :=
  (@sound_lower (fun _ => True) w c (fun _ => trivial) trivial).toShaped

/-! ### Ciphers -/

theorem shaped_withCiphers (c : Openshift.Config) {d : Draft} (h : Shaped d) :
    Shaped (c.withCiphers d) := by
  rw [Openshift.Config.withCiphers]
  split
  · exact Fips.shaped_choose h _
  · exact h

theorem sound_withCiphers (c : Openshift.Config) {d : Draft} (h : Sound known d)
    (ho : known [.key "openshift", .key "fips"]) : Sound known (c.withCiphers d) := by
  rw [Openshift.Config.withCiphers]
  split
  · exact Fips.sound_choose h ho
  · exact h

theorem holds_withCiphers (c : Openshift.Config) {d : Draft} (h : Shaped d) {source : Trail}
    {o : Outline} {x : Json} (hx : x.isScalar = true) (hh : Holds d source o x) :
    Holds (c.withCiphers d) source o x := by
  rw [Openshift.Config.withCiphers]
  split
  · exact Fips.holds_choose h hx hh _
  · exact hh

/-! ### The whole -/

theorem shaped_draft (spec : Spec) (w : Workspace) (config : Config) :
    Shaped (config.draft spec w) := by
  cases config with
  | fcos c =>
    exact Merge.shaped_merge (shaped_lower w c) (Source.shaped_translate w c.base)
  | flatcar c => exact (Source.shaped_translate w c.base).withReport _
  | openshift c =>
    exact (shaped_withCiphers c (Merge.shaped_merge (c.bootDevice.shaped_plan [])
      (Source.shaped_translate _ c.base))).withReport _
  | fiot c => exact (Source.shaped_translate w c.base).withReport _

/-- **The document is sound**, if all volumes have names: all that is in it has an origin in the
config. -/
theorem sound_draft (spec : Spec) (w : Workspace) (config : Config)
    (hvolumes : ∀ volume ∈ config.base.storage.luks, volume.name ≠ "") :
    Sound config.Resolves (config.draft spec w) := by
  have hsections : ∀ w, Sound config.Resolves (Source.translate w config.base) := fun w =>
    Source.sound_translate w config.base (fun _ _ h => config.resolves_of_section h) hvolumes
  cases config with
  | fcos c =>
    refine Merge.sound_merge (sound_lower w c (fun cause => ?_) rfl) (hsections w)
    cases cause <;> rfl
  | flatcar c => exact (hsections w).withReport _
  | openshift c =>
    refine (sound_withCiphers c (Merge.sound_merge (BootDevice.sound_plan c.bootDevice ?_)
      (hsections _)) rfl).withReport _
    intro cause
    cases cause <;> rfl
  | fiot c => exact (hsections w).withReport _

/-- **The document has the leaves of the document for the sections.** -/
theorem holds_draft (spec : Spec) (w : Workspace) (config : Config) {source : Trail} {o : Outline}
    {x : Json} (hx : x.isScalar = true)
    (h : ∀ w, Holds (Source.translate w config.base) source o x) :
    Holds (config.draft spec w) source o x := by
  cases config with
  | fcos c =>
    exact Merge.holds_merge (shaped_lower w c) (Source.shaped_translate w c.base) hx (h w)
  | flatcar c => exact (h w).withReport _
  | openshift c =>
    have hplan := c.bootDevice.shaped_plan []
    have hsections := Source.shaped_translate (Openshift.workspace spec w) c.base
    exact (holds_withCiphers c (Merge.shaped_merge hplan hsections) hx
      (Merge.holds_merge hplan hsections hx (h _))).withReport _
  | fiot c => exact (h w).withReport _

end Draft

end Config

end Provision
