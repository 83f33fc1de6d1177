import Provision.Proofs.BootDevice
import Provision.Proofs.Fips.Settled
import Provision.Proofs.Ignition.Files
import Provision.Proofs.Merge.Entries
import Provision.Proofs.Variant.Wrapper

/-!
# Every volume for an operator with approved ciphers chooses one

Where a config asks for approved ciphers, they are chosen when the plan for the boot device and the
sections of the config are already merged. So each volume of the document chooses a cipher, wherever
it comes from, and the volume that is planned is one of them.

* `Config.ciphers_draft`: each volume of the draft chooses a cipher.
* `Config.root_draft`: the planned volume is one of them.
* `Config.translate_ciphers`: so it is in what is made of a config, and choosing ciphers does no
  more than that.
-/

set_option autoImplicit false

namespace Provision

open Draft (Shaped)

/-! ## Volumes of merged documents -/

namespace Merge

theorem laidItems_eq_joinedItems {place : Trail} {kind : KeyKind} (hk : keyKindAt place = some kind)
    (lower upper : List Json) :
    laidItems place lower upper = joinedItems place place kind lower upper := by
  rw [laidItems, hk, mergeItems_eq]
  rfl

/-- **An entry of the lower list has an entry with its key** in the merged one. -/
theorem exists_keyed_laidItems {place : Trail} {kind : KeyKind} {key : String} {x : Json}
    {lower upper : List Json} (hk : keyKindAt place = some kind)
    (hl : (Json.arr lower).isDistinct = true) (hu : (Json.arr upper).isDistinct = true)
    (hx : x ∈ lower) (hkey : keyOf? kind x = some key) :
    ∃ y ∈ laidItems place lower upper, keyOf? kind y = some key := by
  have hkeys := keys_joinedItems place place kind hl hu
  have hmem : some key ∈ (laidItems place lower upper).map (keyOf? kind) := by
    rw [laidItems_eq_joinedItems hk, hkeys]
    exact List.mem_append_left _ (List.mem_map.mpr ⟨x, hx, hkey⟩)
  exact List.mem_map.mp hmem

end Merge

namespace Draft

/-- The nodes of a draft have distinct keys. -/
theorem isDistinct_nodes {d : Draft} (h : Shaped d) (kind : String) :
    (Json.arr (d.nodes kind)).isDistinct = true := by
  refine Json.isDistinct_arr.mpr fun x hx => ?_
  obtain ⟨i, hi⟩ := List.mem_iff_getElem?.mp hx
  exact Json.isDistinct_of_at h.distinct (Json.at?_of_items hi)

end Draft

namespace Openshift

/-- With ciphers, the volumes of a draft are what has become of its volumes. -/
theorem volumes_withCiphers {c : Config} (hc : c.openshift.fips = some true) (d : Draft) :
    (c.withCiphers d).nodes "luks" = (d.nodes "luks").map Fips.settle := by
  rw [Config.withCiphers, if_pos hc]
  dsimp only
  rw [Draft.nodes, Draft.nodes]
  dsimp only
  by_cases h : ∃ volumes, d.value.at? Fips.volumesPlace = some (.arr volumes)
  · obtain ⟨volumes, h⟩ := h
    have hset := Fips.at?_volumesPlace (Fips.hasVolumes_of_at h) (volumes.map Fips.settle)
    rw [Fips.choose_of_volumes h, Fips.volumes_eq_some_iff.mpr h, Fips.volumes_eq_some_iff.mpr hset]
    rfl
  · have hnone := not_exists.mp h
    rw [Fips.choose_of_no_volumes hnone]
    dsimp only
    cases hv : ((d.value.get? "storage").bind (·.get? "luks")).bind Json.items? with
    | none => rfl
    | some volumes => exact absurd (Fips.volumes_eq_some_iff.mp hv) (hnone volumes)

section Draft

variable {c : Config}

/-- What the volumes of a config are made of before ciphers are chosen. -/
def Config.merged (spec : Spec) (w : Workspace) (c : Config) : Draft :=
  Merge.merge (c.bootDevice.plan []) (Source.translate (workspace spec w) c.base)

theorem shaped_merged (spec : Spec) (w : Workspace) (c : Config) : Shaped (c.merged spec w) :=
  Merge.shaped_merge (c.bootDevice.shaped_plan []) (Source.shaped_translate _ c.base)

theorem volumes_draft (hc : c.openshift.fips = some true) (spec : Spec) (w : Workspace) :
    ((Provision.Config.openshift c).draft spec w).nodes "luks" =
      ((c.merged spec w).nodes "luks").map Fips.settle :=
  volumes_withCiphers hc (c.merged spec w)

/-- **Each volume of the draft chooses a cipher.** -/
theorem ciphers_draft (hc : c.openshift.fips = some true) (spec : Spec) (w : Workspace) :
    ∀ node ∈ ((Provision.Config.openshift c).draft spec w).nodes "luks", Fips.Chooses node := by
  intro node hnode
  rw [volumes_draft hc, List.mem_map] at hnode
  obtain ⟨volume, hvolume, rfl⟩ := hnode
  obtain ⟨i, hi⟩ := List.mem_iff_getElem?.mp hvolume
  have hfits : Ignition.Luks.shape.Fits volume := (shaped_merged spec w c).fits.at_of
    (Json.at?_of_items hi) (Draft.shape_of_kind (s := Ignition.Luks.shape) rfl _)
  obtain ⟨given, hgiven⟩ : ∃ given, Fips.Given volume given := by
    cases ho : volume.get? "options" with
    | none => exact ⟨[], .inr ⟨ho, rfl⟩⟩
    | some options =>
      have hlist : (Shape.list .leaf).Fits options :=
        @Shape.Fits.child_of _ _ _ _ (.key "options") hfits ho rfl
      obtain ⟨given, rfl⟩ := hlist.eq_arr
      exact ⟨given, .inl ho⟩
  obtain ⟨members, rfl⟩ := hfits.eq_obj
  exact (Fips.decided_settle _).chooses rfl hgiven

/-- **The volume that is planned for the boot device is one of them.** -/
theorem root_draft (hc : c.openshift.fips = some true) (hroot : c.bootDevice.wantsLuks = true)
    (spec : Spec) (w : Workspace) :
    ∃ node ∈ ((Provision.Config.openshift c).draft spec w).nodes "luks",
      Merge.textAt "name" node = some "root" := by
  have hplan := c.bootDevice.shaped_plan []
  have hsections := Source.shaped_translate (workspace spec w) c.base
  have hplanned : BootDevice.volume c.bootDevice.luks c.bootDevice.encryptedDevice ∈
      (c.bootDevice.plan []).nodes "luks" := by
    rw [BootDevice.volumes_plan, BootDevice.volumes, if_pos hroot]
    exact List.mem_singleton_self _
  have hkind : Merge.keyKindAt [.key "storage", .key "luks"] = some (.field "name") := rfl
  obtain ⟨volume, hvolume, hname⟩ := Merge.exists_keyed_laidItems hkind
    (Draft.isDistinct_nodes hplan "luks") (Draft.isDistinct_nodes hsections "luks") hplanned rfl
  rw [← Merge.nodes_merge hplan hsections (s := Ignition.Luks.shape) rfl] at hvolume
  refine ⟨Fips.settle volume, ?_, ?_⟩
  · rw [volumes_draft hc]
    exact List.mem_map_of_mem hvolume
  · rw [Merge.textAt, (Fips.decided_settle volume).get?_of_ne (by decide)]
    exact hname

end Draft

/-! ## What is made of a config -/

/-- The volumes of what is made of a config are as many as the nodes of the draft, and each has what
the node at its position says. -/
theorem volumes_translate {c : Config} {spec : Spec} {w : Workspace} {raw : Bool}
    {document : Document} (h : (c.translate spec w raw).value = some document) :
    let nodes := ((Provision.Config.openshift c).draft spec w).nodes "luks"
    document.config.storage.luks.length = nodes.length ∧
      ∀ (i : Nat) (volume : Ignition.Luks), document.config.storage.luks[i]? = some volume →
        ∃ node, nodes[i]? = some node ∧ volume.ReadFrom node := by
  have hshaped := Provision.Config.shaped_draft spec w (.openshift c)
  have hversion := shaped_withVersion hshaped spec.target.text
  have hstamp := @Provision.Config.value_stamp spec w raw (.openshift c) document h
  have hread : Ignition.Config.codec.ofJson (withVersion spec.target.text
      ((Provision.Config.openshift c).draft spec w).value) = .ok document.config := by
    rw [stamp] at hstamp
    split at hstamp
    · next hread =>
      cases hstamp
      exact hread
    · cases hstamp
  have hvolumes := Ignition.Config.volumes_read ⟨hversion.fits, hversion.distinct⟩ hread
  rwa [get?_withVersion hshaped.fits] at hvolumes

/-- **Choosing ciphers is complete and minimal, and choosing them again changes nothing.** So where
a config asks for approved ciphers, each volume of what is made of it chooses a cipher, and if the
boot device is encrypted, the volume for the root filesystem is one of them. -/
theorem Config.translate_ciphers :
    (∀ (document : Json) (origin start : Trail) (p : Provenance), document.isDistinct = true →
      Fips.Rewrites document (Fips.choose origin start document p).1 ∧
        Fips.choose origin start (Fips.choose origin start document p).1
          (Fips.choose origin start document p).2 = Fips.choose origin start document p) ∧
    ∀ (spec : Spec) (w : Workspace) (raw : Bool) (c : Config) (document : Document),
      c.openshift.fips = some true → (c.translate spec w raw).value = some document →
        (∀ volume ∈ document.config.storage.luks,
          ∃ option ∈ volume.options, Fips.isChoice (.str option) = true) ∧
        (c.bootDevice.wantsLuks = true →
          ∃ volume ∈ document.config.storage.luks, volume.name = "root") := by
  refine ⟨fun document origin start p hd =>
    ⟨Fips.rewrites_choose hd origin start p, Fips.choose_choose origin start document p⟩, ?_⟩
  intro spec w raw c document hc hvalue
  obtain ⟨hlength, hread⟩ := volumes_translate hvalue
  constructor
  · intro volume hvolume
    obtain ⟨i, hi⟩ := List.mem_iff_getElem?.mp hvolume
    obtain ⟨node, hnode, hfrom⟩ := hread i volume hi
    obtain ⟨given, hgiven, hchosen⟩ := ciphers_draft hc spec w node (List.mem_of_getElem? hnode)
    rw [hfrom.options given hgiven, List.any_map, List.any_eq_true] at hchosen
    exact hchosen
  · intro hroot
    obtain ⟨node, hnode, hname⟩ := root_draft hc hroot spec w
    obtain ⟨i, hi⟩ := List.mem_iff_getElem?.mp hnode
    have hlt : i < document.config.storage.luks.length :=
      hlength ▸ (List.getElem?_eq_some_iff.mp hi).1
    have hvolume := List.getElem?_eq_getElem hlt
    obtain ⟨node', hnode', hfrom⟩ := hread i _ hvolume
    cases hi.symm.trans hnode'
    refine ⟨_, List.mem_of_getElem? hvolume, ?_⟩
    rw [hfrom.name, hname, Option.getD_some]

/-- A config that asks for approved ciphers and encrypts the boot device. One of its volumes chooses
a cipher, and another one has options that choose none. -/
def approved : Config where
  variant := "openshift"
  version := "4.14.0"
  metadata := ⟨"ciphers", [(MachineConfig.roleLabel, "worker")]⟩
  openshift := { fips := some true }
  bootDevice := { luks := { tpm2 := some true } }
  base := { storage := { luks :=
    [{ name := "data", device := some "/dev/vdb", options := ["-c", "aes-xts-plain64"] },
      { name := "scratch", device := some "/dev/vdc", options := ["--type", "luks2"] }] } }

/-- A document with a volume that chooses a cipher, and one without options. -/
def approvedVolumes : Json :=
  .obj [("storage", .obj [("luks", .arr [.obj [("name", .str "data"),
    ("options", .arr [.str "-c", .str "aes-xts-plain64"])], .obj [("name", .str "root")]])])]

theorem approved_ciphers :
    approvedVolumes.isDistinct = true ∧
    (Fips.Rewrites approvedVolumes (Fips.choose [] [] approvedVolumes {}).1 ∧
      Fips.choose [] [] (Fips.choose [] [] approvedVolumes {}).1
        (Fips.choose [] [] approvedVolumes {}).2 = Fips.choose [] [] approvedVolumes {}) ∧
    approved.openshift.fips = some true ∧
    ∃ document, (approved.translate (.of .openshift 4 14 3 4) .bare false).value = some document ∧
      (∀ volume ∈ document.config.storage.luks,
        ∃ option ∈ volume.options, Fips.isChoice (.str option) = true) ∧
      (∃ volume ∈ document.config.storage.luks, volume.name = "root") ∧
      document.config.storage.luks.map (·.options) =
        [["--cipher", Fips.cipher], ["-c", "aes-xts-plain64"],
          ["--type", "luks2", "--cipher", Fips.cipher]] := by
  have hd : approvedVolumes.isDistinct = true := by decide
  have hmade : ((approved.translate (.of .openshift 4 14 3 4) .bare false).value.map fun document =>
      document.config.storage.luks.map (·.options)) =
        some [["--cipher", Fips.cipher], ["-c", "aes-xts-plain64"],
          ["--type", "luks2", "--cipher", Fips.cipher]] := by
    decide +kernel
  obtain ⟨document, hdocument, hoptions⟩ := Option.map_eq_some_iff.mp hmade
  obtain ⟨hrewrites, htranslate⟩ := Config.translate_ciphers
  obtain ⟨hall, hroot⟩ := htranslate _ _ _ _ document (by rfl) hdocument
  exact ⟨hd, hrewrites _ _ _ _ hd, rfl, document, hdocument, hall, hroot rfl, hoptions⟩

end Openshift

end Provision
