import Provision.MachineConfig
import Provision.Proofs.Decode.Reads
import Provision.Proofs.Ignition.Shape

/-!
# Configs can be printed and read again

Every form of the schema of machines writes readably what it read, and so does the wrapper if no
label is there twice.

* `Config.reads`: a config that was read can be printed and read again.
* `MachineConfig.readable`: so can one in its wrapper.
-/

set_option autoImplicit false

namespace Provision

namespace Ignition

open Decode Decode.Codec Decode.RecordField

theorem Header.reads : Header.codec.Reads 1 :=
  reads_record Header.independent (by decide)
    ⟨reads_sparse reads_text rfl rfl rfl, reads_optional reads_text rfl rfl rfl, trivial⟩

theorem Verification.reads : Verification.codec.Reads 1 :=
  reads_record ⟨trivial, trivial⟩ (by decide)
    ⟨reads_optional reads_text rfl rfl rfl, trivial⟩

theorem Resource.reads : Resource.codec.Reads 3 :=
  reads_record Resource.independent (by decide)
    ⟨reads_optional reads_text rfl rfl rfl, reads_sparse (reads_list Header.reads) rfl rfl rfl,
      reads_optional reads_text rfl rfl rfl, reads_sparse Verification.reads rfl rfl rfl, trivial⟩

theorem References.reads : References.codec.Reads 5 :=
  reads_record References.independent (by decide)
    ⟨reads_sparse (reads_list Resource.reads) rfl rfl rfl, reads_sparse Resource.reads rfl rfl rfl,
      trivial⟩

theorem Proxy.reads : Proxy.codec.Reads 2 :=
  reads_record Proxy.independent (by decide)
    ⟨reads_optional reads_text rfl rfl rfl, reads_optional reads_text rfl rfl rfl,
      reads_sparse (reads_list reads_text) rfl rfl rfl, trivial⟩

theorem Tls.reads : Tls.codec.Reads 5 :=
  reads_record ⟨trivial, trivial⟩ (by decide)
    ⟨reads_sparse (reads_list Resource.reads) rfl rfl rfl, trivial⟩

theorem Security.reads : Security.codec.Reads 6 :=
  reads_record ⟨trivial, trivial⟩ (by decide)
    ⟨reads_sparse Tls.reads rfl rfl rfl, trivial⟩

theorem Timeouts.reads : Timeouts.codec.Reads 1 :=
  reads_record Timeouts.independent (by decide)
    ⟨reads_optional reads_int rfl rfl rfl, reads_optional reads_int rfl rfl rfl, trivial⟩

theorem Settings.reads : Settings.codec.Reads 7 :=
  reads_record Settings.independent (by decide)
    ⟨reads_plain reads_text (.str "") rfl rfl, reads_sparse References.reads rfl rfl rfl,
      reads_sparse Proxy.reads rfl rfl rfl, reads_sparse Security.reads rfl rfl rfl,
      reads_sparse Timeouts.reads rfl rfl rfl, trivial⟩

theorem KernelArguments.reads : KernelArguments.codec.Reads 2 :=
  reads_record KernelArguments.independent (by decide)
    ⟨reads_sparse (reads_list reads_text) rfl rfl rfl,
      reads_sparse (reads_list reads_text) rfl rfl rfl, trivial⟩

theorem User.reads : User.codec.Reads 2 :=
  reads_record User.independent (by decide)
    ⟨reads_sparse reads_text rfl rfl rfl, reads_optional reads_text rfl rfl rfl,
      reads_sparse (reads_list reads_text) rfl rfl rfl, reads_optional reads_int rfl rfl rfl,
      reads_optional reads_text rfl rfl rfl, reads_optional reads_text rfl rfl rfl,
      reads_optional reads_bool rfl rfl rfl, reads_optional reads_text rfl rfl rfl,
      reads_sparse (reads_list reads_text) rfl rfl rfl, reads_optional reads_bool rfl rfl rfl,
      reads_optional reads_bool rfl rfl rfl, reads_optional reads_text rfl rfl rfl,
      reads_optional reads_bool rfl rfl rfl, reads_optional reads_bool rfl rfl rfl, trivial⟩

theorem Group.reads : Group.codec.Reads 1 :=
  reads_record Group.independent (by decide)
    ⟨reads_sparse reads_text rfl rfl rfl, reads_optional reads_int rfl rfl rfl,
      reads_optional reads_text rfl rfl rfl, reads_optional reads_bool rfl rfl rfl,
      reads_optional reads_bool rfl rfl rfl, trivial⟩

theorem Passwd.reads : Passwd.codec.Reads 4 :=
  reads_record Passwd.independent (by decide)
    ⟨reads_sparse (reads_list User.reads) rfl rfl rfl,
      reads_sparse (reads_list Group.reads) rfl rfl rfl, trivial⟩

theorem Partition.reads : Partition.codec.Reads 1 :=
  reads_record Partition.independent (by decide)
    ⟨reads_optional reads_text rfl rfl rfl, reads_sparse reads_int rfl rfl rfl,
      reads_optional reads_int rfl rfl rfl, reads_optional reads_int rfl rfl rfl,
      reads_optional reads_text rfl rfl rfl, reads_optional reads_text rfl rfl rfl,
      reads_optional reads_bool rfl rfl rfl, reads_optional reads_bool rfl rfl rfl,
      reads_optional reads_bool rfl rfl rfl, trivial⟩

theorem Disk.reads : Disk.codec.Reads 3 :=
  reads_record Disk.independent (by decide)
    ⟨reads_sparse reads_text rfl rfl rfl, reads_optional reads_bool rfl rfl rfl,
      reads_sparse (reads_list Partition.reads) rfl rfl rfl, trivial⟩

theorem Raid.reads : Raid.codec.Reads 2 :=
  reads_record Raid.independent (by decide)
    ⟨reads_sparse reads_text rfl rfl rfl, reads_optional reads_text rfl rfl rfl,
      reads_sparse (reads_list reads_text) rfl rfl rfl, reads_optional reads_int rfl rfl rfl,
      reads_sparse (reads_list reads_text) rfl rfl rfl, trivial⟩

theorem Filesystem.reads : Filesystem.codec.Reads 2 :=
  reads_record Filesystem.independent (by decide)
    ⟨reads_sparse reads_text rfl rfl rfl, reads_optional reads_text rfl rfl rfl,
      reads_optional reads_text rfl rfl rfl, reads_optional reads_bool rfl rfl rfl,
      reads_optional reads_text rfl rfl rfl, reads_optional reads_text rfl rfl rfl,
      reads_sparse (reads_list reads_text) rfl rfl rfl,
      reads_sparse (reads_list reads_text) rfl rfl rfl, trivial⟩

theorem ClevisCustom.reads : ClevisCustom.codec.Reads 1 :=
  reads_record ClevisCustom.independent (by decide)
    ⟨reads_optional reads_text rfl rfl rfl, reads_optional reads_bool rfl rfl rfl,
      reads_optional reads_text rfl rfl rfl, trivial⟩

theorem Tang.reads : Tang.codec.Reads 1 :=
  reads_record Tang.independent (by decide)
    ⟨reads_sparse reads_text rfl rfl rfl, reads_optional reads_text rfl rfl rfl,
      reads_optional reads_text rfl rfl rfl, trivial⟩

theorem Clevis.reads : Clevis.codec.Reads 3 :=
  reads_record Clevis.independent (by decide)
    ⟨reads_sparse ClevisCustom.reads rfl rfl rfl, reads_sparse (reads_list Tang.reads) rfl rfl rfl,
      reads_optional reads_int rfl rfl rfl, reads_optional reads_bool rfl rfl rfl, trivial⟩

theorem Luks.reads : Luks.codec.Reads 4 :=
  reads_record Luks.independent (by decide)
    ⟨reads_sparse reads_text rfl rfl rfl, reads_optional reads_text rfl rfl rfl,
      reads_sparse Resource.reads rfl rfl rfl, reads_optional reads_text rfl rfl rfl,
      reads_optional reads_text rfl rfl rfl, reads_sparse (reads_list reads_text) rfl rfl rfl,
      reads_optional reads_bool rfl rfl rfl, reads_sparse Clevis.reads rfl rfl rfl,
      reads_optional reads_bool rfl rfl rfl, reads_sparse (reads_list reads_text) rfl rfl rfl,
      trivial⟩

theorem NodeUser.reads : NodeUser.codec.Reads 1 :=
  reads_record NodeUser.independent (by decide)
    ⟨reads_optional reads_int rfl rfl rfl, reads_optional reads_text rfl rfl rfl, trivial⟩

theorem NodeGroup.reads : NodeGroup.codec.Reads 1 :=
  reads_record NodeGroup.independent (by decide)
    ⟨reads_optional reads_int rfl rfl rfl, reads_optional reads_text rfl rfl rfl, trivial⟩

theorem File.reads : File.codec.Reads 5 :=
  reads_record File.independent (by decide)
    ⟨reads_sparse reads_text rfl rfl rfl, reads_optional reads_bool rfl rfl rfl,
      reads_sparse NodeUser.reads rfl rfl rfl, reads_sparse NodeGroup.reads rfl rfl rfl,
      reads_sparse Resource.reads rfl rfl rfl, reads_sparse (reads_list Resource.reads) rfl rfl rfl,
      reads_optional reads_int rfl rfl rfl, trivial⟩

theorem Directory.reads : Directory.codec.Reads 2 :=
  reads_record Directory.independent (by decide)
    ⟨reads_sparse reads_text rfl rfl rfl, reads_optional reads_bool rfl rfl rfl,
      reads_sparse NodeUser.reads rfl rfl rfl, reads_sparse NodeGroup.reads rfl rfl rfl,
      reads_optional reads_int rfl rfl rfl, trivial⟩

theorem Link.reads : Link.codec.Reads 2 :=
  reads_record Link.independent (by decide)
    ⟨reads_sparse reads_text rfl rfl rfl, reads_optional reads_bool rfl rfl rfl,
      reads_sparse NodeUser.reads rfl rfl rfl, reads_sparse NodeGroup.reads rfl rfl rfl,
      reads_optional reads_text rfl rfl rfl, reads_optional reads_bool rfl rfl rfl, trivial⟩

theorem Storage.reads : Storage.codec.Reads 7 :=
  reads_record Storage.independent (by decide)
    ⟨reads_sparse (reads_list Disk.reads) rfl rfl rfl,
      reads_sparse (reads_list Raid.reads) rfl rfl rfl,
      reads_sparse (reads_list Filesystem.reads) rfl rfl rfl,
      reads_sparse (reads_list Luks.reads) rfl rfl rfl,
      reads_sparse (reads_list File.reads) rfl rfl rfl,
      reads_sparse (reads_list Directory.reads) rfl rfl rfl,
      reads_sparse (reads_list Link.reads) rfl rfl rfl, trivial⟩

theorem Dropin.reads : Dropin.codec.Reads 1 :=
  reads_record Dropin.independent (by decide)
    ⟨reads_sparse reads_text rfl rfl rfl, reads_optional reads_text rfl rfl rfl, trivial⟩

theorem Unit.reads : Unit.codec.Reads 3 :=
  reads_record Unit.independent (by decide)
    ⟨reads_sparse reads_text rfl rfl rfl, reads_optional reads_bool rfl rfl rfl,
      reads_optional reads_bool rfl rfl rfl, reads_optional reads_text rfl rfl rfl,
      reads_sparse (reads_list Dropin.reads) rfl rfl rfl, trivial⟩

theorem Systemd.reads : Systemd.codec.Reads 5 :=
  reads_record ⟨trivial, trivial⟩ (by decide)
    ⟨reads_sparse (reads_list Unit.reads) rfl rfl rfl, trivial⟩

theorem Settings.readable_unread : Json.Readable 7 (Settings.codec.write {}) :=
  .obj (by decide) fun e he => by
    cases List.mem_singleton.mp he
    exact .str ""

/-- **A config that was read is written readably**, with at most eight levels. -/
theorem Config.reads : Config.codec.Reads 8 :=
  reads_record Config.independent (by decide)
    ⟨reads_plain Settings.reads Settings.readable_unread rfl rfl,
      reads_sparse KernelArguments.reads rfl rfl rfl, reads_sparse Passwd.reads rfl rfl rfl,
      reads_sparse Storage.reads rfl rfl rfl, reads_sparse Systemd.reads rfl rfl rfl, trivial⟩

end Ignition

/-! ## The wrapper -/

namespace MachineConfig

open Decode Decode.RecordField
open Json (Readable)

theorem readable_texts {entries : List (String × String)} (hn : (entries.map Prod.fst).Nodup) :
    Readable 1 (Codec.texts.write entries) := by
  refine .obj ?_ fun e he => ?_
  · rw [List.map_map]
    exact hn
  · obtain ⟨entry, -, rfl⟩ := List.mem_map.mp he
    exact .str entry.2

theorem readable_textList (texts : List String) : Readable 1 ((Codec.list .text).write texts) := by
  refine .arr fun x hx => ?_
  obtain ⟨s, -, rfl⟩ := List.mem_map.mp hx
  exact .str s

theorem readable_metadata {m : Metadata} (hn : (m.labels.map Prod.fst).Nodup) :
    Readable 2 (Metadata.codec.write m) :=
  readable_record (by decide) (List.forall_mem_cons.mpr ⟨readable_sparse (.str m.name),
    List.forall_mem_singleton.mpr (readable_sparse (readable_texts hn))⟩)

theorem readable_spec {s : Spec} {depth : Nat}
    (h : Readable (depth + 1) (Ignition.Config.codec.write s.config)) :
    Readable (depth + 2) (Spec.codec.write s) := by
  have htexts : ∀ texts, Readable (depth + 1) ((Codec.list .text).write texts) := fun texts =>
    (readable_textList texts).mono (Nat.le_add_left 1 depth)
  exact readable_record (by decide) (List.forall_mem_cons.mpr ⟨readable_plain h,
    List.forall_mem_cons.mpr ⟨readable_sparse (htexts s.kernelArguments),
    List.forall_mem_cons.mpr ⟨readable_sparse (htexts s.extensions),
    List.forall_mem_cons.mpr ⟨readable_optional Readable.bool,
    List.forall_mem_singleton.mpr (readable_optional Readable.str)⟩⟩⟩⟩)

/-- **A wrapped config is written readably** if the config in it is and no label is there twice. -/
theorem readable {m : MachineConfig} (hn : (m.metadata.labels.map Prod.fst).Nodup)
    (h : Readable 8 (Ignition.Config.codec.write m.spec.config)) :
    Readable 10 (MachineConfig.codec.write m) := by
  have hmetadata : Readable 9 (Metadata.codec.write m.metadata) :=
    (readable_metadata hn).mono (by decide)
  exact readable_record (by decide) (List.forall_mem_cons.mpr ⟨readable_needed (.str m.apiVersion),
    List.forall_mem_cons.mpr ⟨readable_needed (.str m.kind),
    List.forall_mem_cons.mpr ⟨readable_sparse hmetadata,
    List.forall_mem_singleton.mpr (readable_plain (readable_spec h))⟩⟩⟩)

end MachineConfig

end Provision
