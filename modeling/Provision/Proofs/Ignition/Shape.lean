import Provision.Ignition.Schema
import Provision.Proofs.Decode.Keeps

/-!
# Shapes of the configs that machines read

Each form of the schema keeps values of its shape. A config and its settings write their first field
always, so these keep only values that have it.

* `Config.keepsAt`: a draft that has a version is kept by reading it as a config.
-/

set_option autoImplicit false

namespace Provision.Ignition

open Decode Decode.Codec Decode.RecordField

/-! ## Shapes -/

/-- The shape of `Header`. -/
def Header.shape : Shape := .record [("name", .leaf), ("value", .leaf)]

/-- The shape of `Verification`. -/
def Verification.shape : Shape := .record [("hash", .leaf)]

/-- The shape of `Resource`. -/
def Resource.shape : Shape := .record
  [ ("compression", .leaf), ("httpHeaders", .list Header.shape), ("source", .leaf),
    ("verification", Verification.shape) ]

/-- The shape of `References`. -/
def References.shape : Shape := .record
  [ ("merge", .list Resource.shape), ("replace", Resource.shape) ]

/-- The shape of `Proxy`. -/
def Proxy.shape : Shape := .record
  [ ("httpProxy", .leaf), ("httpsProxy", .leaf), ("noProxy", .list .leaf) ]

/-- The shape of `Tls`. -/
def Tls.shape : Shape := .record [("certificateAuthorities", .list Resource.shape)]

/-- The shape of `Security`. -/
def Security.shape : Shape := .record [("tls", Tls.shape)]

/-- The shape of `Timeouts`. -/
def Timeouts.shape : Shape := .record [("httpResponseHeaders", .leaf), ("httpTotal", .leaf)]

/-- The shape of `Settings`. -/
def Settings.shape : Shape := .record
  [ ("version", .leaf), ("config", References.shape), ("proxy", Proxy.shape),
    ("security", Security.shape), ("timeouts", Timeouts.shape) ]

/-- The shape of `KernelArguments`. -/
def KernelArguments.shape : Shape := .record
  [ ("shouldExist", .list .leaf), ("shouldNotExist", .list .leaf) ]

/-- The shape of `User`. -/
def User.shape : Shape := .record
  [ ("name", .leaf), ("passwordHash", .leaf), ("sshAuthorizedKeys", .list .leaf), ("uid", .leaf),
    ("gecos", .leaf), ("homeDir", .leaf), ("noCreateHome", .leaf), ("primaryGroup", .leaf),
    ("groups", .list .leaf), ("noUserGroup", .leaf), ("noLogInit", .leaf), ("shell", .leaf),
    ("shouldExist", .leaf), ("system", .leaf) ]

/-- The shape of `Group`. -/
def Group.shape : Shape := .record
  [ ("name", .leaf), ("gid", .leaf), ("passwordHash", .leaf), ("shouldExist", .leaf),
    ("system", .leaf) ]

/-- The shape of `Passwd`. -/
def Passwd.shape : Shape := .record [("users", .list User.shape), ("groups", .list Group.shape)]

/-- The shape of `Partition`. -/
def Partition.shape : Shape := .record
  [ ("label", .leaf), ("number", .leaf), ("sizeMiB", .leaf), ("startMiB", .leaf),
    ("typeGuid", .leaf), ("guid", .leaf), ("wipePartitionEntry", .leaf), ("shouldExist", .leaf),
    ("resize", .leaf) ]

/-- The shape of `Disk`. -/
def Disk.shape : Shape := .record
  [ ("device", .leaf), ("wipeTable", .leaf), ("partitions", .list Partition.shape) ]

/-- The shape of `Raid`. -/
def Raid.shape : Shape := .record
  [ ("name", .leaf), ("level", .leaf), ("devices", .list .leaf), ("spares", .leaf),
    ("options", .list .leaf) ]

/-- The shape of `Filesystem`. -/
def Filesystem.shape : Shape := .record
  [ ("device", .leaf), ("format", .leaf), ("path", .leaf), ("wipeFilesystem", .leaf),
    ("label", .leaf), ("uuid", .leaf), ("options", .list .leaf), ("mountOptions", .list .leaf) ]

/-- The shape of `ClevisCustom`. -/
def ClevisCustom.shape : Shape := .record
  [ ("config", .leaf), ("needsNetwork", .leaf), ("pin", .leaf) ]

/-- The shape of `Tang`. -/
def Tang.shape : Shape := .record [("url", .leaf), ("thumbprint", .leaf), ("advertisement", .leaf)]

/-- The shape of `Clevis`. -/
def Clevis.shape : Shape := .record
  [ ("custom", ClevisCustom.shape), ("tang", .list Tang.shape), ("threshold", .leaf),
    ("tpm2", .leaf) ]

/-- The shape of `Luks`. -/
def Luks.shape : Shape := .record
  [ ("name", .leaf), ("device", .leaf), ("keyFile", Resource.shape), ("label", .leaf),
    ("uuid", .leaf), ("options", .list .leaf), ("wipeVolume", .leaf), ("clevis", Clevis.shape),
    ("discard", .leaf), ("openOptions", .list .leaf) ]

/-- The shape of `NodeUser`. -/
def NodeUser.shape : Shape := .record [("id", .leaf), ("name", .leaf)]

/-- The shape of `NodeGroup`. -/
def NodeGroup.shape : Shape := .record [("id", .leaf), ("name", .leaf)]

/-- The shape of `File`. -/
def File.shape : Shape := .record
  [ ("path", .leaf), ("overwrite", .leaf), ("user", NodeUser.shape), ("group", NodeGroup.shape),
    ("contents", Resource.shape), ("append", .list Resource.shape), ("mode", .leaf) ]

/-- The shape of `Directory`. -/
def Directory.shape : Shape := .record
  [ ("path", .leaf), ("overwrite", .leaf), ("user", NodeUser.shape), ("group", NodeGroup.shape),
    ("mode", .leaf) ]

/-- The shape of `Link`. -/
def Link.shape : Shape := .record
  [ ("path", .leaf), ("overwrite", .leaf), ("user", NodeUser.shape), ("group", NodeGroup.shape),
    ("target", .leaf), ("hard", .leaf) ]

/-- The shape of `Storage`. -/
def Storage.shape : Shape := .record
  [ ("disks", .list Disk.shape), ("raid", .list Raid.shape),
    ("filesystems", .list Filesystem.shape), ("luks", .list Luks.shape),
    ("files", .list File.shape), ("directories", .list Directory.shape),
    ("links", .list Link.shape) ]

/-- The shape of `Dropin`. -/
def Dropin.shape : Shape := .record [("name", .leaf), ("contents", .leaf)]

/-- The shape of `Unit`. -/
def Unit.shape : Shape := .record
  [ ("name", .leaf), ("enabled", .leaf), ("mask", .leaf), ("contents", .leaf),
    ("dropins", .list Dropin.shape) ]

/-- The shape of `Systemd`. -/
def Systemd.shape : Shape := .record [("units", .list Unit.shape)]

/-- The shape of `Config`. -/
def Config.shape : Shape := .record
  [ ("ignition", Settings.shape), ("kernelArguments", KernelArguments.shape),
    ("passwd", Passwd.shape), ("storage", Storage.shape), ("systemd", Systemd.shape) ]

/-! ## What is kept -/

theorem Header.independent : Independent Header.fields := by
  simp only [Header.fields, Independent, Apart, and_true]
  and_intros <;> refine leaves_of_read (fun _ _ _ _ => rfl) ?_ <;> exact fun _ _ => rfl

theorem Header.keeps : Header.codec.Keeps Header.shape :=
  keeps_record Header.independent (by decide)
    ⟨matches_sparse keeps_text rfl rfl (.inl rfl), matches_optional keeps_text rfl rfl, trivial⟩

theorem Verification.keeps : Verification.codec.Keeps Verification.shape :=
  keeps_record ⟨trivial, trivial⟩ (by decide) ⟨matches_optional keeps_text rfl rfl, trivial⟩

theorem Resource.independent : Independent Resource.fields := by
  simp only [Resource.fields, Independent, Apart, and_true]
  and_intros <;> refine leaves_of_read (fun _ _ _ _ => rfl) ?_ <;> exact fun _ _ => rfl

theorem Resource.keeps : Resource.codec.Keeps Resource.shape :=
  keeps_record Resource.independent (by decide)
    ⟨matches_optional keeps_text rfl rfl,
      matches_sparse (keeps_list Header.keeps) rfl rfl (.inl rfl),
      matches_optional keeps_text rfl rfl, matches_sparse Verification.keeps rfl rfl (.inl rfl),
      trivial⟩

theorem References.independent : Independent References.fields := by
  simp only [References.fields, Independent, Apart, and_true]
  and_intros <;> refine leaves_of_read (fun _ _ _ _ => rfl) ?_ <;> exact fun _ _ => rfl

theorem References.keeps : References.codec.Keeps References.shape :=
  keeps_record References.independent (by decide)
    ⟨matches_sparse (keeps_list Resource.keeps) rfl rfl (.inl rfl),
      matches_sparse Resource.keeps rfl rfl (.inl rfl), trivial⟩

theorem Proxy.independent : Independent Proxy.fields := by
  simp only [Proxy.fields, Independent, Apart, and_true]
  and_intros <;> refine leaves_of_read (fun _ _ _ _ => rfl) ?_ <;> exact fun _ _ => rfl

theorem Proxy.keeps : Proxy.codec.Keeps Proxy.shape :=
  keeps_record Proxy.independent (by decide)
    ⟨matches_optional keeps_text rfl rfl, matches_optional keeps_text rfl rfl,
      matches_sparse (keeps_list keeps_text) rfl rfl (.inl rfl), trivial⟩

theorem Tls.keeps : Tls.codec.Keeps Tls.shape :=
  keeps_record ⟨trivial, trivial⟩ (by decide)
    ⟨matches_sparse (keeps_list Resource.keeps) rfl rfl (.inl rfl), trivial⟩

theorem Security.keeps : Security.codec.Keeps Security.shape :=
  keeps_record ⟨trivial, trivial⟩ (by decide) ⟨matches_sparse Tls.keeps rfl rfl (.inl rfl), trivial⟩

theorem Timeouts.independent : Independent Timeouts.fields := by
  simp only [Timeouts.fields, Independent, Apart, and_true]
  and_intros <;> refine leaves_of_read (fun _ _ _ _ => rfl) ?_ <;> exact fun _ _ => rfl

theorem Timeouts.keeps : Timeouts.codec.Keeps Timeouts.shape :=
  keeps_record Timeouts.independent (by decide)
    ⟨matches_optional keeps_int rfl rfl, matches_optional keeps_int rfl rfl, trivial⟩

theorem Settings.independent : Independent Settings.fields := by
  simp only [Settings.fields, Independent, Apart, and_true]
  and_intros <;> refine leaves_of_read (fun _ _ _ _ => rfl) ?_ <;> exact fun _ _ => rfl

/-- Settings that have a version are kept. -/
theorem Settings.keepsAt {v z : Json} (hd : v.isDistinct = true) (hf : Settings.shape.Fits v)
    (hz : v.child? (.key "version") = some z) : Settings.codec.KeepsAt v := by
  obtain ⟨s, hs, hfz⟩ := hf.child hz
  cases hs
  have hversion := keeps_text z (Json.isDistinct_of_child hd hz) hfz
  exact keepsAt_record_first hd hf hz (keepsAt_plain (fun _ _ => rfl) hversion)
    Settings.independent (by decide)
    ⟨matches_sparse References.keeps rfl rfl (.inl rfl),
      matches_sparse Proxy.keeps rfl rfl (.inl rfl),
      matches_sparse Security.keeps rfl rfl (.inl rfl),
      matches_sparse Timeouts.keeps rfl rfl (.inl rfl), trivial⟩

theorem KernelArguments.independent : Independent KernelArguments.fields := by
  simp only [KernelArguments.fields, Independent, Apart, and_true]
  and_intros <;> refine leaves_of_read (fun _ _ _ _ => rfl) ?_ <;> exact fun _ _ => rfl

theorem KernelArguments.keeps : KernelArguments.codec.Keeps KernelArguments.shape :=
  keeps_record KernelArguments.independent (by decide)
    ⟨matches_sparse (keeps_list keeps_text) rfl rfl (.inl rfl),
      matches_sparse (keeps_list keeps_text) rfl rfl (.inl rfl), trivial⟩

theorem User.independent : Independent User.fields := by
  simp only [User.fields, Independent, Apart, and_true]
  and_intros <;> refine leaves_of_read (fun _ _ _ _ => rfl) ?_ <;> exact fun _ _ => rfl

theorem User.keeps : User.codec.Keeps User.shape :=
  keeps_record User.independent (by decide)
    ⟨matches_sparse keeps_text rfl rfl (.inl rfl), matches_optional keeps_text rfl rfl,
      matches_sparse (keeps_list keeps_text) rfl rfl (.inl rfl), matches_optional keeps_int rfl rfl,
      matches_optional keeps_text rfl rfl, matches_optional keeps_text rfl rfl,
      matches_optional keeps_bool rfl rfl, matches_optional keeps_text rfl rfl,
      matches_sparse (keeps_list keeps_text) rfl rfl (.inl rfl),
      matches_optional keeps_bool rfl rfl, matches_optional keeps_bool rfl rfl,
      matches_optional keeps_text rfl rfl, matches_optional keeps_bool rfl rfl,
      matches_optional keeps_bool rfl rfl, trivial⟩

theorem Group.independent : Independent Group.fields := by
  simp only [Group.fields, Independent, Apart, and_true]
  and_intros <;> refine leaves_of_read (fun _ _ _ _ => rfl) ?_ <;> exact fun _ _ => rfl

theorem Group.keeps : Group.codec.Keeps Group.shape :=
  keeps_record Group.independent (by decide)
    ⟨matches_sparse keeps_text rfl rfl (.inl rfl), matches_optional keeps_int rfl rfl,
      matches_optional keeps_text rfl rfl, matches_optional keeps_bool rfl rfl,
      matches_optional keeps_bool rfl rfl, trivial⟩

theorem Passwd.independent : Independent Passwd.fields := by
  simp only [Passwd.fields, Independent, Apart, and_true]
  and_intros <;> refine leaves_of_read (fun _ _ _ _ => rfl) ?_ <;> exact fun _ _ => rfl

theorem Passwd.keeps : Passwd.codec.Keeps Passwd.shape :=
  keeps_record Passwd.independent (by decide)
    ⟨matches_sparse (keeps_list User.keeps) rfl rfl (.inl rfl),
      matches_sparse (keeps_list Group.keeps) rfl rfl (.inl rfl), trivial⟩

theorem Partition.independent : Independent Partition.fields := by
  simp only [Partition.fields, Independent, Apart, and_true]
  and_intros <;> refine leaves_of_read (fun _ _ _ _ => rfl) ?_ <;> exact fun _ _ => rfl

theorem Partition.keeps : Partition.codec.Keeps Partition.shape :=
  keeps_record Partition.independent (by decide)
    ⟨matches_optional keeps_text rfl rfl, matches_sparse keeps_int rfl rfl (.inr ⟨rfl, rfl⟩),
      matches_optional keeps_int rfl rfl, matches_optional keeps_int rfl rfl,
      matches_optional keeps_text rfl rfl, matches_optional keeps_text rfl rfl,
      matches_optional keeps_bool rfl rfl, matches_optional keeps_bool rfl rfl,
      matches_optional keeps_bool rfl rfl, trivial⟩

theorem Disk.independent : Independent Disk.fields := by
  simp only [Disk.fields, Independent, Apart, and_true]
  and_intros <;> refine leaves_of_read (fun _ _ _ _ => rfl) ?_ <;> exact fun _ _ => rfl

theorem Disk.keeps : Disk.codec.Keeps Disk.shape :=
  keeps_record Disk.independent (by decide)
    ⟨matches_sparse keeps_text rfl rfl (.inl rfl), matches_optional keeps_bool rfl rfl,
      matches_sparse (keeps_list Partition.keeps) rfl rfl (.inl rfl), trivial⟩

theorem Raid.independent : Independent Raid.fields := by
  simp only [Raid.fields, Independent, Apart, and_true]
  and_intros <;> refine leaves_of_read (fun _ _ _ _ => rfl) ?_ <;> exact fun _ _ => rfl

theorem Raid.keeps : Raid.codec.Keeps Raid.shape :=
  keeps_record Raid.independent (by decide)
    ⟨matches_sparse keeps_text rfl rfl (.inl rfl), matches_optional keeps_text rfl rfl,
      matches_sparse (keeps_list keeps_text) rfl rfl (.inl rfl), matches_optional keeps_int rfl rfl,
      matches_sparse (keeps_list keeps_text) rfl rfl (.inl rfl), trivial⟩

theorem Filesystem.independent : Independent Filesystem.fields := by
  simp only [Filesystem.fields, Independent, Apart, and_true]
  and_intros <;> refine leaves_of_read (fun _ _ _ _ => rfl) ?_ <;> exact fun _ _ => rfl

theorem Filesystem.keeps : Filesystem.codec.Keeps Filesystem.shape :=
  keeps_record Filesystem.independent (by decide)
    ⟨matches_sparse keeps_text rfl rfl (.inl rfl), matches_optional keeps_text rfl rfl,
      matches_optional keeps_text rfl rfl, matches_optional keeps_bool rfl rfl,
      matches_optional keeps_text rfl rfl, matches_optional keeps_text rfl rfl,
      matches_sparse (keeps_list keeps_text) rfl rfl (.inl rfl),
      matches_sparse (keeps_list keeps_text) rfl rfl (.inl rfl), trivial⟩

theorem ClevisCustom.independent : Independent ClevisCustom.fields := by
  simp only [ClevisCustom.fields, Independent, Apart, and_true]
  and_intros <;> refine leaves_of_read (fun _ _ _ _ => rfl) ?_ <;> exact fun _ _ => rfl

theorem ClevisCustom.keeps : ClevisCustom.codec.Keeps ClevisCustom.shape :=
  keeps_record ClevisCustom.independent (by decide)
    ⟨matches_optional keeps_text rfl rfl, matches_optional keeps_bool rfl rfl,
      matches_optional keeps_text rfl rfl, trivial⟩

theorem Tang.independent : Independent Tang.fields := by
  simp only [Tang.fields, Independent, Apart, and_true]
  and_intros <;> refine leaves_of_read (fun _ _ _ _ => rfl) ?_ <;> exact fun _ _ => rfl

theorem Tang.keeps : Tang.codec.Keeps Tang.shape :=
  keeps_record Tang.independent (by decide)
    ⟨matches_sparse keeps_text rfl rfl (.inl rfl), matches_optional keeps_text rfl rfl,
      matches_optional keeps_text rfl rfl, trivial⟩

theorem Clevis.independent : Independent Clevis.fields := by
  simp only [Clevis.fields, Independent, Apart, and_true]
  and_intros <;> refine leaves_of_read (fun _ _ _ _ => rfl) ?_ <;> exact fun _ _ => rfl

theorem Clevis.keeps : Clevis.codec.Keeps Clevis.shape :=
  keeps_record Clevis.independent (by decide)
    ⟨matches_sparse ClevisCustom.keeps rfl rfl (.inl rfl),
      matches_sparse (keeps_list Tang.keeps) rfl rfl (.inl rfl), matches_optional keeps_int rfl rfl,
      matches_optional keeps_bool rfl rfl, trivial⟩

theorem Luks.independent : Independent Luks.fields := by
  simp only [Luks.fields, Independent, Apart, and_true]
  and_intros <;> refine leaves_of_read (fun _ _ _ _ => rfl) ?_ <;> exact fun _ _ => rfl

theorem Luks.keeps : Luks.codec.Keeps Luks.shape :=
  keeps_record Luks.independent (by decide)
    ⟨matches_sparse keeps_text rfl rfl (.inl rfl), matches_optional keeps_text rfl rfl,
      matches_sparse Resource.keeps rfl rfl (.inl rfl), matches_optional keeps_text rfl rfl,
      matches_optional keeps_text rfl rfl,
      matches_sparse (keeps_list keeps_text) rfl rfl (.inl rfl),
      matches_optional keeps_bool rfl rfl, matches_sparse Clevis.keeps rfl rfl (.inl rfl),
      matches_optional keeps_bool rfl rfl,
      matches_sparse (keeps_list keeps_text) rfl rfl (.inl rfl), trivial⟩

theorem NodeUser.independent : Independent NodeUser.fields := by
  simp only [NodeUser.fields, Independent, Apart, and_true]
  and_intros <;> refine leaves_of_read (fun _ _ _ _ => rfl) ?_ <;> exact fun _ _ => rfl

theorem NodeUser.keeps : NodeUser.codec.Keeps NodeUser.shape :=
  keeps_record NodeUser.independent (by decide)
    ⟨matches_optional keeps_int rfl rfl, matches_optional keeps_text rfl rfl, trivial⟩

theorem NodeGroup.independent : Independent NodeGroup.fields := by
  simp only [NodeGroup.fields, Independent, Apart, and_true]
  and_intros <;> refine leaves_of_read (fun _ _ _ _ => rfl) ?_ <;> exact fun _ _ => rfl

theorem NodeGroup.keeps : NodeGroup.codec.Keeps NodeGroup.shape :=
  keeps_record NodeGroup.independent (by decide)
    ⟨matches_optional keeps_int rfl rfl, matches_optional keeps_text rfl rfl, trivial⟩

theorem File.independent : Independent File.fields := by
  simp only [File.fields, Independent, Apart, and_true]
  and_intros <;> refine leaves_of_read (fun _ _ _ _ => rfl) ?_ <;> exact fun _ _ => rfl

theorem File.keeps : File.codec.Keeps File.shape :=
  keeps_record File.independent (by decide)
    ⟨matches_sparse keeps_text rfl rfl (.inl rfl), matches_optional keeps_bool rfl rfl,
      matches_sparse NodeUser.keeps rfl rfl (.inl rfl),
      matches_sparse NodeGroup.keeps rfl rfl (.inl rfl),
      matches_sparse Resource.keeps rfl rfl (.inl rfl),
      matches_sparse (keeps_list Resource.keeps) rfl rfl (.inl rfl),
      matches_optional keeps_int rfl rfl, trivial⟩

theorem Directory.independent : Independent Directory.fields := by
  simp only [Directory.fields, Independent, Apart, and_true]
  and_intros <;> refine leaves_of_read (fun _ _ _ _ => rfl) ?_ <;> exact fun _ _ => rfl

theorem Directory.keeps : Directory.codec.Keeps Directory.shape :=
  keeps_record Directory.independent (by decide)
    ⟨matches_sparse keeps_text rfl rfl (.inl rfl), matches_optional keeps_bool rfl rfl,
      matches_sparse NodeUser.keeps rfl rfl (.inl rfl),
      matches_sparse NodeGroup.keeps rfl rfl (.inl rfl), matches_optional keeps_int rfl rfl,
      trivial⟩

theorem Link.independent : Independent Link.fields := by
  simp only [Link.fields, Independent, Apart, and_true]
  and_intros <;> refine leaves_of_read (fun _ _ _ _ => rfl) ?_ <;> exact fun _ _ => rfl

theorem Link.keeps : Link.codec.Keeps Link.shape :=
  keeps_record Link.independent (by decide)
    ⟨matches_sparse keeps_text rfl rfl (.inl rfl), matches_optional keeps_bool rfl rfl,
      matches_sparse NodeUser.keeps rfl rfl (.inl rfl),
      matches_sparse NodeGroup.keeps rfl rfl (.inl rfl), matches_optional keeps_text rfl rfl,
      matches_optional keeps_bool rfl rfl, trivial⟩

theorem Storage.independent : Independent Storage.fields := by
  simp only [Storage.fields, Independent, Apart, and_true]
  and_intros <;> refine leaves_of_read (fun _ _ _ _ => rfl) ?_ <;> exact fun _ _ => rfl

theorem Storage.keeps : Storage.codec.Keeps Storage.shape :=
  keeps_record Storage.independent (by decide)
    ⟨matches_sparse (keeps_list Disk.keeps) rfl rfl (.inl rfl),
      matches_sparse (keeps_list Raid.keeps) rfl rfl (.inl rfl),
      matches_sparse (keeps_list Filesystem.keeps) rfl rfl (.inl rfl),
      matches_sparse (keeps_list Luks.keeps) rfl rfl (.inl rfl),
      matches_sparse (keeps_list File.keeps) rfl rfl (.inl rfl),
      matches_sparse (keeps_list Directory.keeps) rfl rfl (.inl rfl),
      matches_sparse (keeps_list Link.keeps) rfl rfl (.inl rfl), trivial⟩

theorem Dropin.independent : Independent Dropin.fields := by
  simp only [Dropin.fields, Independent, Apart, and_true]
  and_intros <;> refine leaves_of_read (fun _ _ _ _ => rfl) ?_ <;> exact fun _ _ => rfl

theorem Dropin.keeps : Dropin.codec.Keeps Dropin.shape :=
  keeps_record Dropin.independent (by decide)
    ⟨matches_sparse keeps_text rfl rfl (.inl rfl), matches_optional keeps_text rfl rfl, trivial⟩

theorem Unit.independent : Independent Unit.fields := by
  simp only [Unit.fields, Independent, Apart, and_true]
  and_intros <;> refine leaves_of_read (fun _ _ _ _ => rfl) ?_ <;> exact fun _ _ => rfl

theorem Unit.keeps : Unit.codec.Keeps Unit.shape :=
  keeps_record Unit.independent (by decide)
    ⟨matches_sparse keeps_text rfl rfl (.inl rfl), matches_optional keeps_bool rfl rfl,
      matches_optional keeps_bool rfl rfl, matches_optional keeps_text rfl rfl,
      matches_sparse (keeps_list Dropin.keeps) rfl rfl (.inl rfl), trivial⟩

theorem Systemd.independent : Independent Systemd.fields := ⟨trivial, trivial⟩

theorem Systemd.keeps : Systemd.codec.Keeps Systemd.shape :=
  keeps_record Systemd.independent (by decide)
    ⟨matches_sparse (keeps_list Unit.keeps) rfl rfl (.inl rfl), trivial⟩

theorem Config.independent : Independent Config.fields := by
  simp only [Config.fields, Independent, Apart, and_true]
  and_intros <;> refine leaves_of_read (fun _ _ _ _ => rfl) ?_ <;> exact fun _ _ => rfl

/-- **A config with a version is kept.** -/
theorem Config.keepsAt {v z x : Json} (hd : v.isDistinct = true) (hf : Config.shape.Fits v)
    (hz : v.child? (.key "ignition") = some z) (hx : z.child? (.key "version") = some x) :
    Config.codec.KeepsAt v := by
  obtain ⟨s, hs, hfz⟩ := hf.child hz
  cases hs
  have hsettings := Settings.keepsAt (Json.isDistinct_of_child hd hz) hfz hx
  exact keepsAt_record_first hd hf hz (keepsAt_plain (fun _ _ => rfl) hsettings)
    Config.independent (by decide)
    ⟨matches_sparse KernelArguments.keeps rfl rfl (.inl rfl),
      matches_sparse Passwd.keeps rfl rfl (.inl rfl),
      matches_sparse Storage.keeps rfl rfl (.inl rfl),
      matches_sparse Systemd.keeps rfl rfl (.inl rfl), trivial⟩

end Provision.Ignition
