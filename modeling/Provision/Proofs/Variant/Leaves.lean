import Provision.Proofs.Source.Sound
import Provision.Proofs.Variant.Wrapper

/-!
# No setting is lost

A config may say something in about a hundred fields. Whatever a leaf of the shared sections says is
in the document that is made of it, as it is, and is known to come from there. Only fields that
machines do not know, contents that are embedded, and partition numbers that are zero become
something else.

* `Config.translate_leaf`: a leaf of a checked config is in the document.
-/

set_option autoImplicit false

namespace Provision

open Decode (RecordField)

namespace Config

/-- A config that is checked has sections that are checked. -/
theorem isFatal_base {config : Config} (h : config.validate.isFatal = false) :
    (Source.validate [] config.base).isFatal = false := by
  cases config with
  | fcos c =>
    simp only [validate, Fcos.Config.validate, Report.isFatal_append, Bool.or_eq_false_iff] at h
    exact h.1.1.1
  | flatcar c => exact h
  | openshift c =>
    simp only [validate, Openshift.Config.validate, Report.isFatal_append,
      Bool.or_eq_false_iff] at h
    exact h.1.1.1.1.1
  | fiot c => exact h

/-- The config and the settings in a wrapper are found below its spec. -/
theorem at?_spec (m : MachineConfig) (q : Trail) :
    (MachineConfig.codec.write m).at? (.key "spec" :: q) =
      (MachineConfig.Spec.codec.write m.spec).at? q := by
  have hspec : (MachineConfig.codec.write m).child? (.key "spec") =
      some (MachineConfig.Spec.codec.write m.spec) := by
    have hnames : (MachineConfig.fields.map (·.name)).Nodup := by decide
    refine (RecordField.lookup_members hnames).mpr
      ⟨.plain "spec" MachineConfig.Spec.codec (·.spec) fun x r => { r with spec := x }, ?_,
        rfl, rfl⟩
    exact .tail _ (.tail _ (.tail _ (.head _)))
  exact Json.at?_cons_of_child hspec q

/-- The config in a wrapper is found at its place. -/
theorem at?_configTrail (m : MachineConfig) (q : Trail) :
    (MachineConfig.codec.write m).at? (Openshift.configTrail ++ q) =
      (Ignition.Config.codec.write m.spec.config).at? q := by
  have hconfig : (MachineConfig.Spec.codec.write m.spec).child? (.key "config") =
      some (Ignition.Config.codec.write m.spec.config) := rfl
  rw [Openshift.configTrail, List.cons_append, at?_spec, List.cons_append,
    Json.at?_cons_of_child hconfig, List.nil_append]

/-- **Whatever a leaf of the shared sections says is in the document, and comes from there**, if the
config was checked. Left out are fields that machines do not know, contents that are embedded, and
partition numbers that are zero. -/
theorem translate_leaf (spec : Spec) (w : Workspace) (raw : Bool) (config : Config)
    {document : Document} (hvalid : config.validate.isFatal = false)
    (h : (config.translate spec w raw).value = some document) {t : Trail} {x : Json}
    (hsection : ∃ k ∈ sectionNames, t.head? = some (.key k)) (ht : config.json.at? t = some x)
    (hx : x.isScalar = true) (hne : x.isEmpty = false)
    (hfields : ∀ field ∈ Source.sourceOnlyFields ++ Source.resourceFields,
      (Pattern.ofText field).fitsStart t = false)
    (hnumber : (Pattern.ofText "storage.disks.*.partitions.*.number").fits t = true →
      x ≠ .int 0) :
    ∃ q, (config.translate spec w raw).provenance.find? q = some t ∧
      document.json.at? q = some x := by
  obtain ⟨k, hk, hhead⟩ := hsection
  obtain ⟨u, rfl⟩ : ∃ u, t = .key k :: u := by
    cases t with
    | nil => cases hhead
    | cons => cases hhead; exact ⟨_, rfl⟩
  rw [json_section config hk] at ht
  obtain ⟨s, hs, -⟩ := (Source.Config.writes config.base).at ht
  -- The leaf is in the document before it gets its version.
  have hplaces : ∀ p ∈ Source.skippedPlaces ++ Source.resourcePlaces,
      ¬p <+: Trail.outline (.key k :: u) := by
    intro p hp
    rw [← Source.skippedPlaces_eq, ← Source.resourcePlaces_eq, ← List.map_append,
      List.mem_map] at hp
    obtain ⟨field, hfield, rfl⟩ := hp
    rw [← Pattern.fitsStart_iff, hfields field hfield]
    exact Bool.false_ne_true
  have hdraft := holds_draft spec w config hx fun w =>
    Source.holds_leaf w (isFatal_base hvalid) ht hx hne hplaces
  -- It keeps its place and value when the document is read.
  obtain ⟨made, hmade, hcases⟩ := translate_cases h
  have hversion : ∀ o ∈ Source.Config.shape.places, ¬stampPlace.outline <+: Source.renamed o := by
    decide +kernel
  have hnumberPlace : (Pattern.ofText "storage.disks.*.partitions.*.number").outline =
      Source.numberPlace := by decide
  obtain ⟨q, hq, hqx, hfind⟩ := holds_stamp (shaped_draft spec w config) hmade hx hne
    (hversion _ (Shape.outline_mem_places hs))
    (fun hlast => hnumber ((Pattern.fits_iff _ _).mpr
      (hnumberPlace.trans (Source.number_place hs hlast).symm))) hdraft
  have hnil : q ≠ [] := by
    rintro rfl
    cases hq
  rcases hcases with ⟨rfl, hp⟩ | ⟨c, rfl, ⟨rfl, hp⟩ | ⟨rfl, hp⟩⟩
  · exact ⟨q, by rw [hp]; exact hfind, hqx⟩
  · refine ⟨Openshift.configTrail ++ q, ?_, (at?_configTrail _ q).trans hqx⟩
    rw [hp]
    exact (Openshift.Config.find?_wrapped hnil).trans hfind
  · refine ⟨q, ?_, hqx⟩
    rw [hp, Provenance.find?_below _ (Openshift.Config.target_wrapped c _).symm]
    exact (Openshift.Config.find?_wrapped hnil).trans hfind

/-- A filesystem that is mounted by a unit. -/
def mountedFilesystem : Source.Filesystem where
  device := "/dev/vdb"
  format := some "ext4"
  path := some "/var"
  withMountUnit := some true

/-- A config with such a filesystem, and a unit of its own. -/
def mounted : Config := .fcos
  { variant := "fcos", version := "1.5.0"
    base := { storage := { filesystems := [mountedFilesystem] }
              systemd := { units := [{ name := "app.service", enabled := some true }] } } }

theorem mounted_leaf :
    ∃ document, (mounted.translate (.of .fcos 1 5 3 4) .bare false).value = some document ∧
      ∃ q, (mounted.translate (.of .fcos 1 5 3 4) .bare false).provenance.find? q =
          some [.key "systemd", .key "units", .index 0, .key "name"] ∧
        document.json.at? q = some (.str "app.service") := by
  obtain ⟨document, h⟩ := Option.isSome_iff_exists.mp (by decide :
    (mounted.translate (.of .fcos 1 5 3 4) .bare false).value.isSome = true)
  exact ⟨document, h, translate_leaf _ _ _ _ (by decide) h
    ⟨"systemd", by decide, rfl⟩ rfl rfl rfl (by decide) fun hfits =>
      absurd hfits (by decide)⟩

end Config

end Provision
