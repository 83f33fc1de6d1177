import Provision.BootDevice
import Provision.Proofs.Decode.Heeds

/-!
# What the shared sections heed

Every field of the schema is written again, whatever it holds, so the forms of the schema heed all
that they know.

* `Config.heeds`: the shared sections heed every part of them that is written again.
* `BootDevice.heeds`: so does the boot device.
-/

set_option autoImplicit false

namespace Provision

open Decode Decode.Codec Decode.RecordField

namespace Source

theorem Header.independent : Independent Header.fields := by
  simp only [Header.fields, Independent, Apart, and_true]
  and_intros <;> refine leaves_of_read (fun _ _ _ _ => rfl) ?_ <;> exact fun _ _ => rfl

theorem Header.heeds : Header.codec.Heeds :=
  heeds_record Header.independent (by decide) (by decide)
    ⟨heeds_plain heeds_text rfl, heeds_plain (heeds_option readsScalars_text) rfl, trivial⟩

theorem Verification.heeds : Verification.codec.Heeds :=
  heeds_record ⟨trivial, trivial⟩ (by decide) (by decide)
    ⟨heeds_plain (heeds_option readsScalars_text) rfl, trivial⟩

theorem Resource.independent : Independent Resource.fields := by
  simp only [Resource.fields, Independent, Apart, and_true]
  and_intros <;> refine leaves_of_read (fun _ _ _ _ => rfl) ?_ <;> exact fun _ _ => rfl

theorem Resource.heeds : Resource.codec.Heeds :=
  heeds_record Resource.independent (by decide) (by decide)
    ⟨heeds_plain (heeds_option readsScalars_text) rfl, heeds_plain (heeds_list Header.heeds) rfl,
      heeds_plain (heeds_option readsScalars_text) rfl,
      heeds_plain (heeds_option readsScalars_text) rfl,
      heeds_plain (heeds_option readsScalars_text) rfl, heeds_plain Verification.heeds rfl, trivial⟩

theorem References.independent : Independent References.fields := by
  simp only [References.fields, Independent, Apart, and_true]
  and_intros <;> refine leaves_of_read (fun _ _ _ _ => rfl) ?_ <;> exact fun _ _ => rfl

theorem References.heeds : References.codec.Heeds :=
  heeds_record References.independent (by decide) (by decide)
    ⟨heeds_plain (heeds_list Resource.heeds) rfl, heeds_plain Resource.heeds rfl, trivial⟩

theorem Proxy.independent : Independent Proxy.fields := by
  simp only [Proxy.fields, Independent, Apart, and_true]
  and_intros <;> refine leaves_of_read (fun _ _ _ _ => rfl) ?_ <;> exact fun _ _ => rfl

theorem Proxy.heeds : Proxy.codec.Heeds :=
  heeds_record Proxy.independent (by decide) (by decide)
    ⟨heeds_plain (heeds_option readsScalars_text) rfl,
      heeds_plain (heeds_option readsScalars_text) rfl, heeds_plain (heeds_list heeds_text) rfl,
      trivial⟩

theorem Tls.heeds : Tls.codec.Heeds :=
  heeds_record ⟨trivial, trivial⟩ (by decide) (by decide)
    ⟨heeds_plain (heeds_list Resource.heeds) rfl, trivial⟩

theorem Security.heeds : Security.codec.Heeds :=
  heeds_record ⟨trivial, trivial⟩ (by decide) (by decide)
    ⟨heeds_plain Tls.heeds rfl, trivial⟩

theorem Timeouts.independent : Independent Timeouts.fields := by
  simp only [Timeouts.fields, Independent, Apart, and_true]
  and_intros <;> refine leaves_of_read (fun _ _ _ _ => rfl) ?_ <;> exact fun _ _ => rfl

theorem Timeouts.heeds : Timeouts.codec.Heeds :=
  heeds_record Timeouts.independent (by decide) (by decide)
    ⟨heeds_plain (heeds_option readsScalars_int) rfl,
      heeds_plain (heeds_option readsScalars_int) rfl, trivial⟩

theorem Settings.independent : Independent Settings.fields := by
  simp only [Settings.fields, Independent, Apart, and_true]
  and_intros <;> refine leaves_of_read (fun _ _ _ _ => rfl) ?_ <;> exact fun _ _ => rfl

theorem Settings.heeds : Settings.codec.Heeds :=
  heeds_record Settings.independent (by decide) (by decide)
    ⟨heeds_plain References.heeds rfl, heeds_plain Proxy.heeds rfl, heeds_plain Security.heeds rfl,
      heeds_plain Timeouts.heeds rfl, trivial⟩

theorem KernelArguments.independent : Independent KernelArguments.fields := by
  simp only [KernelArguments.fields, Independent, Apart, and_true]
  and_intros <;> refine leaves_of_read (fun _ _ _ _ => rfl) ?_ <;> exact fun _ _ => rfl

theorem KernelArguments.heeds : KernelArguments.codec.Heeds :=
  heeds_record KernelArguments.independent (by decide) (by decide)
    ⟨heeds_plain (heeds_list heeds_text) rfl, heeds_plain (heeds_list heeds_text) rfl, trivial⟩

theorem User.independent : Independent User.fields := by
  simp only [User.fields, Independent, Apart, and_true]
  and_intros <;> refine leaves_of_read (fun _ _ _ _ => rfl) ?_ <;> exact fun _ _ => rfl

theorem User.heeds : User.codec.Heeds :=
  heeds_record User.independent (by decide) (by decide)
    ⟨heeds_plain heeds_text rfl, heeds_plain (heeds_option readsScalars_text) rfl,
      heeds_plain (heeds_list heeds_text) rfl, heeds_plain (heeds_list heeds_text) rfl,
      heeds_plain (heeds_option readsScalars_int) rfl,
      heeds_plain (heeds_option readsScalars_text) rfl,
      heeds_plain (heeds_option readsScalars_text) rfl,
      heeds_plain (heeds_option readsScalars_bool) rfl,
      heeds_plain (heeds_option readsScalars_text) rfl, heeds_plain (heeds_list heeds_text) rfl,
      heeds_plain (heeds_option readsScalars_bool) rfl,
      heeds_plain (heeds_option readsScalars_bool) rfl,
      heeds_plain (heeds_option readsScalars_text) rfl,
      heeds_plain (heeds_option readsScalars_bool) rfl,
      heeds_plain (heeds_option readsScalars_bool) rfl, trivial⟩

theorem Group.independent : Independent Group.fields := by
  simp only [Group.fields, Independent, Apart, and_true]
  and_intros <;> refine leaves_of_read (fun _ _ _ _ => rfl) ?_ <;> exact fun _ _ => rfl

theorem Group.heeds : Group.codec.Heeds :=
  heeds_record Group.independent (by decide) (by decide)
    ⟨heeds_plain heeds_text rfl, heeds_plain (heeds_option readsScalars_int) rfl,
      heeds_plain (heeds_option readsScalars_text) rfl,
      heeds_plain (heeds_option readsScalars_bool) rfl,
      heeds_plain (heeds_option readsScalars_bool) rfl, trivial⟩

theorem Passwd.independent : Independent Passwd.fields := by
  simp only [Passwd.fields, Independent, Apart, and_true]
  and_intros <;> refine leaves_of_read (fun _ _ _ _ => rfl) ?_ <;> exact fun _ _ => rfl

theorem Passwd.heeds : Passwd.codec.Heeds :=
  heeds_record Passwd.independent (by decide) (by decide)
    ⟨heeds_plain (heeds_list User.heeds) rfl, heeds_plain (heeds_list Group.heeds) rfl, trivial⟩

theorem Partition.independent : Independent Partition.fields := by
  simp only [Partition.fields, Independent, Apart, and_true]
  and_intros <;> refine leaves_of_read (fun _ _ _ _ => rfl) ?_ <;> exact fun _ _ => rfl

theorem Partition.heeds : Partition.codec.Heeds :=
  heeds_record Partition.independent (by decide) (by decide)
    ⟨heeds_plain (heeds_option readsScalars_text) rfl,
      heeds_plain (heeds_option readsScalars_int) rfl,
      heeds_plain (heeds_option readsScalars_int) rfl,
      heeds_plain (heeds_option readsScalars_int) rfl,
      heeds_plain (heeds_option readsScalars_text) rfl,
      heeds_plain (heeds_option readsScalars_text) rfl,
      heeds_plain (heeds_option readsScalars_bool) rfl,
      heeds_plain (heeds_option readsScalars_bool) rfl,
      heeds_plain (heeds_option readsScalars_bool) rfl, trivial⟩

theorem Disk.independent : Independent Disk.fields := by
  simp only [Disk.fields, Independent, Apart, and_true]
  and_intros <;> refine leaves_of_read (fun _ _ _ _ => rfl) ?_ <;> exact fun _ _ => rfl

theorem Disk.heeds : Disk.codec.Heeds :=
  heeds_record Disk.independent (by decide) (by decide)
    ⟨heeds_plain heeds_text rfl, heeds_plain (heeds_option readsScalars_bool) rfl,
      heeds_plain (heeds_list Partition.heeds) rfl, trivial⟩

theorem Raid.independent : Independent Raid.fields := by
  simp only [Raid.fields, Independent, Apart, and_true]
  and_intros <;> refine leaves_of_read (fun _ _ _ _ => rfl) ?_ <;> exact fun _ _ => rfl

theorem Raid.heeds : Raid.codec.Heeds :=
  heeds_record Raid.independent (by decide) (by decide)
    ⟨heeds_plain heeds_text rfl, heeds_plain (heeds_option readsScalars_text) rfl,
      heeds_plain (heeds_list heeds_text) rfl, heeds_plain (heeds_option readsScalars_int) rfl,
      heeds_plain (heeds_list heeds_text) rfl, trivial⟩

theorem Filesystem.independent : Independent Filesystem.fields := by
  simp only [Filesystem.fields, Independent, Apart, and_true]
  and_intros <;> refine leaves_of_read (fun _ _ _ _ => rfl) ?_ <;> exact fun _ _ => rfl

theorem Filesystem.heeds : Filesystem.codec.Heeds :=
  heeds_record Filesystem.independent (by decide) (by decide)
    ⟨heeds_plain heeds_text rfl, heeds_plain (heeds_option readsScalars_text) rfl,
      heeds_plain (heeds_option readsScalars_text) rfl,
      heeds_plain (heeds_option readsScalars_bool) rfl,
      heeds_plain (heeds_option readsScalars_text) rfl,
      heeds_plain (heeds_option readsScalars_text) rfl, heeds_plain (heeds_list heeds_text) rfl,
      heeds_plain (heeds_list heeds_text) rfl, heeds_plain (heeds_option readsScalars_bool) rfl,
      trivial⟩

theorem ClevisCustom.independent : Independent ClevisCustom.fields := by
  simp only [ClevisCustom.fields, Independent, Apart, and_true]
  and_intros <;> refine leaves_of_read (fun _ _ _ _ => rfl) ?_ <;> exact fun _ _ => rfl

theorem ClevisCustom.heeds : ClevisCustom.codec.Heeds :=
  heeds_record ClevisCustom.independent (by decide) (by decide)
    ⟨heeds_plain (heeds_option readsScalars_text) rfl,
      heeds_plain (heeds_option readsScalars_bool) rfl,
      heeds_plain (heeds_option readsScalars_text) rfl, trivial⟩

theorem Tang.independent : Independent Tang.fields := by
  simp only [Tang.fields, Independent, Apart, and_true]
  and_intros <;> refine leaves_of_read (fun _ _ _ _ => rfl) ?_ <;> exact fun _ _ => rfl

theorem Tang.heeds : Tang.codec.Heeds :=
  heeds_record Tang.independent (by decide) (by decide)
    ⟨heeds_plain heeds_text rfl, heeds_plain (heeds_option readsScalars_text) rfl,
      heeds_plain (heeds_option readsScalars_text) rfl, trivial⟩

theorem Clevis.independent : Independent Clevis.fields := by
  simp only [Clevis.fields, Independent, Apart, and_true]
  and_intros <;> refine leaves_of_read (fun _ _ _ _ => rfl) ?_ <;> exact fun _ _ => rfl

theorem Clevis.heeds : Clevis.codec.Heeds :=
  heeds_record Clevis.independent (by decide) (by decide)
    ⟨heeds_plain ClevisCustom.heeds rfl, heeds_plain (heeds_list Tang.heeds) rfl,
      heeds_plain (heeds_option readsScalars_int) rfl,
      heeds_plain (heeds_option readsScalars_bool) rfl, trivial⟩

theorem Luks.independent : Independent Luks.fields := by
  simp only [Luks.fields, Independent, Apart, and_true]
  and_intros <;> refine leaves_of_read (fun _ _ _ _ => rfl) ?_ <;> exact fun _ _ => rfl

theorem Luks.heeds : Luks.codec.Heeds :=
  heeds_record Luks.independent (by decide) (by decide)
    ⟨heeds_plain heeds_text rfl, heeds_plain (heeds_option readsScalars_text) rfl,
      heeds_plain Resource.heeds rfl, heeds_plain (heeds_option readsScalars_text) rfl,
      heeds_plain (heeds_option readsScalars_text) rfl, heeds_plain (heeds_list heeds_text) rfl,
      heeds_plain (heeds_option readsScalars_bool) rfl, heeds_plain Clevis.heeds rfl,
      heeds_plain (heeds_option readsScalars_bool) rfl, heeds_plain (heeds_list heeds_text) rfl,
      trivial⟩

theorem NodeUser.independent : Independent NodeUser.fields := by
  simp only [NodeUser.fields, Independent, Apart, and_true]
  and_intros <;> refine leaves_of_read (fun _ _ _ _ => rfl) ?_ <;> exact fun _ _ => rfl

theorem NodeUser.heeds : NodeUser.codec.Heeds :=
  heeds_record NodeUser.independent (by decide) (by decide)
    ⟨heeds_plain (heeds_option readsScalars_int) rfl,
      heeds_plain (heeds_option readsScalars_text) rfl, trivial⟩

theorem NodeGroup.independent : Independent NodeGroup.fields := by
  simp only [NodeGroup.fields, Independent, Apart, and_true]
  and_intros <;> refine leaves_of_read (fun _ _ _ _ => rfl) ?_ <;> exact fun _ _ => rfl

theorem NodeGroup.heeds : NodeGroup.codec.Heeds :=
  heeds_record NodeGroup.independent (by decide) (by decide)
    ⟨heeds_plain (heeds_option readsScalars_int) rfl,
      heeds_plain (heeds_option readsScalars_text) rfl, trivial⟩

theorem File.independent : Independent File.fields := by
  simp only [File.fields, Independent, Apart, and_true]
  and_intros <;> refine leaves_of_read (fun _ _ _ _ => rfl) ?_ <;> exact fun _ _ => rfl

theorem File.heeds : File.codec.Heeds :=
  heeds_record File.independent (by decide) (by decide)
    ⟨heeds_plain heeds_text rfl, heeds_plain (heeds_option readsScalars_bool) rfl,
      heeds_plain NodeUser.heeds rfl, heeds_plain NodeGroup.heeds rfl,
      heeds_plain Resource.heeds rfl, heeds_plain (heeds_list Resource.heeds) rfl,
      heeds_plain heeds_mode rfl, trivial⟩

theorem Directory.independent : Independent Directory.fields := by
  simp only [Directory.fields, Independent, Apart, and_true]
  and_intros <;> refine leaves_of_read (fun _ _ _ _ => rfl) ?_ <;> exact fun _ _ => rfl

theorem Directory.heeds : Directory.codec.Heeds :=
  heeds_record Directory.independent (by decide) (by decide)
    ⟨heeds_plain heeds_text rfl, heeds_plain (heeds_option readsScalars_bool) rfl,
      heeds_plain NodeUser.heeds rfl, heeds_plain NodeGroup.heeds rfl, heeds_plain heeds_mode rfl,
      trivial⟩

theorem Link.independent : Independent Link.fields := by
  simp only [Link.fields, Independent, Apart, and_true]
  and_intros <;> refine leaves_of_read (fun _ _ _ _ => rfl) ?_ <;> exact fun _ _ => rfl

theorem Link.heeds : Link.codec.Heeds :=
  heeds_record Link.independent (by decide) (by decide)
    ⟨heeds_plain heeds_text rfl, heeds_plain (heeds_option readsScalars_bool) rfl,
      heeds_plain NodeUser.heeds rfl, heeds_plain NodeGroup.heeds rfl,
      heeds_plain (heeds_option readsScalars_text) rfl,
      heeds_plain (heeds_option readsScalars_bool) rfl, trivial⟩

theorem Tree.independent : Independent Tree.fields := by
  simp only [Tree.fields, Independent, Apart, and_true]
  and_intros <;> refine leaves_of_read (fun _ _ _ _ => rfl) ?_ <;> exact fun _ _ => rfl

theorem Tree.heeds : Tree.codec.Heeds :=
  heeds_record Tree.independent (by decide) (by decide)
    ⟨heeds_plain heeds_text rfl, heeds_plain (heeds_option readsScalars_text) rfl, trivial⟩

theorem Storage.independent : Independent Storage.fields := by
  simp only [Storage.fields, Independent, Apart, and_true]
  and_intros <;> refine leaves_of_read (fun _ _ _ _ => rfl) ?_ <;> exact fun _ _ => rfl

theorem Storage.heeds : Storage.codec.Heeds :=
  heeds_record Storage.independent (by decide) (by decide)
    ⟨heeds_plain (heeds_list Disk.heeds) rfl, heeds_plain (heeds_list Raid.heeds) rfl,
      heeds_plain (heeds_list Filesystem.heeds) rfl, heeds_plain (heeds_list Luks.heeds) rfl,
      heeds_plain (heeds_list File.heeds) rfl, heeds_plain (heeds_list Directory.heeds) rfl,
      heeds_plain (heeds_list Link.heeds) rfl, heeds_plain (heeds_list Tree.heeds) rfl, trivial⟩

theorem Dropin.independent : Independent Dropin.fields := by
  simp only [Dropin.fields, Independent, Apart, and_true]
  and_intros <;> refine leaves_of_read (fun _ _ _ _ => rfl) ?_ <;> exact fun _ _ => rfl

theorem Dropin.heeds : Dropin.codec.Heeds :=
  heeds_record Dropin.independent (by decide) (by decide)
    ⟨heeds_plain heeds_text rfl, heeds_plain (heeds_option readsScalars_text) rfl,
      heeds_plain (heeds_option readsScalars_text) rfl, trivial⟩

theorem Unit.independent : Independent Unit.fields := by
  simp only [Unit.fields, Independent, Apart, and_true]
  and_intros <;> refine leaves_of_read (fun _ _ _ _ => rfl) ?_ <;> exact fun _ _ => rfl

theorem Unit.heeds : Unit.codec.Heeds :=
  heeds_record Unit.independent (by decide) (by decide)
    ⟨heeds_plain heeds_text rfl, heeds_plain (heeds_option readsScalars_bool) rfl,
      heeds_plain (heeds_option readsScalars_bool) rfl,
      heeds_plain (heeds_option readsScalars_text) rfl,
      heeds_plain (heeds_option readsScalars_text) rfl, heeds_plain (heeds_list Dropin.heeds) rfl,
      trivial⟩

theorem Systemd.heeds : Systemd.codec.Heeds :=
  heeds_record ⟨trivial, trivial⟩ (by decide) (by decide)
    ⟨heeds_plain (heeds_list Unit.heeds) rfl, trivial⟩

theorem Config.independent : Independent Config.fields := by
  simp only [Config.fields, Independent, Apart, and_true]
  and_intros <;> refine leaves_of_read (fun _ _ _ _ => rfl) ?_ <;> exact fun _ _ => rfl

/-- **The shared sections heed every part of them that is written again.** -/
theorem Config.heeds : HeedAll Config.fields :=
  ⟨heeds_plain Settings.heeds rfl, heeds_plain KernelArguments.heeds rfl,
    heeds_plain Passwd.heeds rfl, heeds_plain Storage.heeds rfl, heeds_plain Systemd.heeds rfl,
    trivial⟩

end Source

namespace BootDevice

theorem Encryption.independent : Independent Encryption.fields := by
  simp only [Encryption.fields, Independent, Apart, and_true]
  and_intros <;> refine leaves_of_read (fun _ _ _ _ => rfl) ?_ <;> exact fun _ _ => rfl

theorem Encryption.heeds : Encryption.codec.Heeds :=
  heeds_record Encryption.independent (by decide) (by decide)
    ⟨heeds_plain (heeds_option readsScalars_text) rfl,
      heeds_plain (heeds_option readsScalars_bool) rfl,
      heeds_plain (heeds_list Source.Tang.heeds) rfl,
      heeds_plain (heeds_option readsScalars_int) rfl,
      heeds_plain (heeds_option readsScalars_bool) rfl, trivial⟩

theorem Mirror.heeds : Mirror.codec.Heeds :=
  heeds_record ⟨trivial, trivial⟩ (by decide) (by decide)
    ⟨heeds_plain (heeds_list heeds_text) rfl, trivial⟩

theorem independent : Independent fields := by
  simp only [fields, Independent, Apart, and_true]
  and_intros <;> refine leaves_of_read (fun _ _ _ _ => rfl) ?_ <;> exact fun _ _ => rfl

/-- The boot device heeds every part of it that is written again. -/
theorem heeds : codec.Heeds :=
  heeds_record independent (by decide) (by decide)
    ⟨heeds_plain (heeds_option readsScalars_text) rfl, heeds_plain Encryption.heeds rfl,
      heeds_plain Mirror.heeds rfl, trivial⟩

end BootDevice

end Provision
