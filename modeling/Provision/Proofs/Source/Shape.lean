import Provision.Proofs.Decode.Record
import Provision.Source.Schema

/-!
# Shapes of the configs that people write

The forms of the schema that people write leave out nothing. Every field is written, also one that was
left out, so a config is written in full.

* `Decode.Codec.Writes`: what a form writes is of a shape, in full.
* `Decode.Codec.writes_list`, `Decode.Codec.writes_record`: lists and records whose parts are written
  in full.
* `Config.writes`: what is written of the shared sections is of their shape, in full.
-/

set_option autoImplicit false

namespace Provision.Decode

/-- Whatever a form writes is of a shape, in full. -/
def Codec.Writes {α : Type} (c : Codec α) (s : Shape) : Prop := ∀ x, s.Full (c.write x)

namespace Codec

theorem writes_text : text.Writes .leaf := fun _ => .leaf (.inl rfl)

theorem writes_bool : bool.Writes .leaf := fun _ => .leaf (.inl rfl)

theorem writes_int : int.Writes .leaf := fun _ => .leaf (.inl rfl)

theorem writes_mode : mode.Writes .leaf := by
  intro m
  cases m with
  | none => exact .leaf (.inr rfl)
  | some n => exact .leaf (.inl rfl)

section Parts

variable {α : Type} {c : Codec α}

theorem writes_option (hc : c.Writes .leaf) : (option c).Writes .leaf := by
  intro x
  cases x with
  | none => exact .leaf (.inr rfl)
  | some a => exact hc a

theorem writes_list {s : Shape} (hc : c.Writes s) : (list c).Writes (.list s) := by
  intro xs
  refine .list fun y hy => ?_
  obtain ⟨x, -, rfl⟩ := List.mem_map.mp hy
  exact hc x

end Parts

end Codec

/-! ## Records -/

section Records

variable {σ α : Type}

namespace RecordField

/-- A field has the name of an entry of a shape, and is always written in full. -/
structure WritesAs (f : RecordField σ) (e : String × Shape) : Prop where
  name : f.name = e.1
  write : ∀ r, ∃ y, f.write r = some y ∧ e.2.Full y

/-- Fields are written as the entries of a shape one by one. -/
def WriteAll : List (RecordField σ) → List (String × Shape) → Prop
  | [], [] => True
  | f :: fields, e :: entries => f.WritesAs e ∧ WriteAll fields entries
  | _, _ => False

theorem writes_plain {name : String} {c : Codec α} {s : Shape} {get : σ → α} {set : α → σ → σ}
    (hc : c.Writes s) : (plain name c get set).WritesAs (name, s) :=
  ⟨rfl, fun r => ⟨_, rfl, hc (get r)⟩⟩

variable {fields : List (RecordField σ)} {entries : List (String × Shape)}

theorem WriteAll.members (h : WriteAll fields entries) (r : σ) :
    (members fields r).map Prod.fst = entries.map Prod.fst ∧
      ∀ k y, (k, y) ∈ members fields r → ∃ s, (k, s) ∈ entries ∧ s.Full y := by
  induction fields generalizing entries with
  | nil =>
    cases entries with
    | nil => exact ⟨rfl, nofun⟩
    | cons => cases h
  | cons f fields ih =>
    cases entries with
    | nil => cases h
    | cons e entries =>
      obtain ⟨hf, hr⟩ := h
      obtain ⟨y, hy, hfull⟩ := hf.write r
      obtain ⟨hk, hm⟩ := ih hr
      have hcons : RecordField.members (f :: fields) r = (e.1, y) :: RecordField.members fields r := by
        rw [RecordField.members, List.filterMap_cons, hy, hf.name]
        rfl
      rw [hcons]
      refine ⟨by rw [List.map_cons, List.map_cons, hk], fun k z hz => ?_⟩
      rcases List.mem_cons.mp hz with hz | hz
      · cases hz
        exact ⟨e.2, List.mem_cons_self, hfull⟩
      · obtain ⟨s, hs, hfz⟩ := hm k z hz
        exact ⟨s, List.mem_cons_of_mem _ hs, hfz⟩

/-- What is written for fields that are written as the entries of a shape is of the shape. -/
theorem WriteAll.full (h : WriteAll fields entries) (hn : (entries.map Prod.fst).Nodup) (r : σ) :
    (Shape.record entries).Full (.obj (RecordField.members fields r)) := by
  obtain ⟨hk, hm⟩ := h.members r
  refine .record hk hn fun k s y hs hy => ?_
  obtain ⟨s', hs', hfull⟩ := hm k y (Json.mem_of_lookup hy)
  cases hs.symm.trans ((List.lookup_eq_some_iff_mem hn).mpr hs')
  exact hfull

end RecordField

/-- **A record whose fields are all written in full is written in full.** -/
theorem Codec.writes_record {name : String} {empty : σ} {fields : List (RecordField σ)}
    {entries : List (String × Shape)} (hn : (entries.map Prod.fst).Nodup)
    (h : RecordField.WriteAll fields entries) :
    (Codec.record name empty fields).Writes (.record entries) :=
  h.full hn

end Records

end Provision.Decode

namespace Provision.Source

open Decode Decode.Codec Decode.RecordField

/-! ## Shapes -/

/-- The shape of `Header`. -/
def Header.shape : Shape := .record [("name", .leaf), ("value", .leaf)]

/-- The shape of `Verification`. -/
def Verification.shape : Shape := .record [("hash", .leaf)]

/-- The shape of `Resource`. -/
def Resource.shape : Shape := .record
  [ ("compression", .leaf), ("http_headers", .list Header.shape), ("source", .leaf),
    ("inline", .leaf), ("local", .leaf), ("verification", Verification.shape) ]

/-- The shape of `References`. -/
def References.shape : Shape := .record
  [ ("merge", .list Resource.shape), ("replace", Resource.shape) ]

/-- The shape of `Proxy`. -/
def Proxy.shape : Shape := .record
  [ ("http_proxy", .leaf), ("https_proxy", .leaf), ("no_proxy", .list .leaf) ]

/-- The shape of `Tls`. -/
def Tls.shape : Shape := .record [("certificate_authorities", .list Resource.shape)]

/-- The shape of `Security`. -/
def Security.shape : Shape := .record [("tls", Tls.shape)]

/-- The shape of `Timeouts`. -/
def Timeouts.shape : Shape := .record [("http_response_headers", .leaf), ("http_total", .leaf)]

/-- The shape of `Settings`. -/
def Settings.shape : Shape := .record
  [ ("config", References.shape), ("proxy", Proxy.shape), ("security", Security.shape),
    ("timeouts", Timeouts.shape) ]

/-- The shape of `KernelArguments`. -/
def KernelArguments.shape : Shape := .record
  [ ("should_exist", .list .leaf), ("should_not_exist", .list .leaf) ]

/-- The shape of `User`. -/
def User.shape : Shape := .record
  [ ("name", .leaf), ("password_hash", .leaf), ("ssh_authorized_keys", .list .leaf),
    ("ssh_authorized_keys_local", .list .leaf), ("uid", .leaf), ("gecos", .leaf),
    ("home_dir", .leaf), ("no_create_home", .leaf), ("primary_group", .leaf),
    ("groups", .list .leaf), ("no_user_group", .leaf), ("no_log_init", .leaf), ("shell", .leaf),
    ("should_exist", .leaf), ("system", .leaf) ]

/-- The shape of `Group`. -/
def Group.shape : Shape := .record
  [ ("name", .leaf), ("gid", .leaf), ("password_hash", .leaf), ("should_exist", .leaf),
    ("system", .leaf) ]

/-- The shape of `Passwd`. -/
def Passwd.shape : Shape := .record [("users", .list User.shape), ("groups", .list Group.shape)]

/-- The shape of `Partition`. -/
def Partition.shape : Shape := .record
  [ ("label", .leaf), ("number", .leaf), ("size_mib", .leaf), ("start_mib", .leaf),
    ("type_guid", .leaf), ("guid", .leaf), ("wipe_partition_entry", .leaf), ("should_exist", .leaf),
    ("resize", .leaf) ]

/-- The shape of `Disk`. -/
def Disk.shape : Shape := .record
  [ ("device", .leaf), ("wipe_table", .leaf), ("partitions", .list Partition.shape) ]

/-- The shape of `Raid`. -/
def Raid.shape : Shape := .record
  [ ("name", .leaf), ("level", .leaf), ("devices", .list .leaf), ("spares", .leaf),
    ("options", .list .leaf) ]

/-- The shape of `Filesystem`. -/
def Filesystem.shape : Shape := .record
  [ ("device", .leaf), ("format", .leaf), ("path", .leaf), ("wipe_filesystem", .leaf),
    ("label", .leaf), ("uuid", .leaf), ("options", .list .leaf), ("mount_options", .list .leaf),
    ("with_mount_unit", .leaf) ]

/-- The shape of `ClevisCustom`. -/
def ClevisCustom.shape : Shape := .record
  [ ("config", .leaf), ("needs_network", .leaf), ("pin", .leaf) ]

/-- The shape of `Tang`. -/
def Tang.shape : Shape := .record [("url", .leaf), ("thumbprint", .leaf), ("advertisement", .leaf)]

/-- The shape of `Clevis`. -/
def Clevis.shape : Shape := .record
  [ ("custom", ClevisCustom.shape), ("tang", .list Tang.shape), ("threshold", .leaf),
    ("tpm2", .leaf) ]

/-- The shape of `Luks`. -/
def Luks.shape : Shape := .record
  [ ("name", .leaf), ("device", .leaf), ("key_file", Resource.shape), ("label", .leaf),
    ("uuid", .leaf), ("options", .list .leaf), ("wipe_volume", .leaf), ("clevis", Clevis.shape),
    ("discard", .leaf), ("open_options", .list .leaf) ]

/-- The shape of `NodeUser`. -/
def NodeUser.shape : Shape := .record [("id", .leaf), ("name", .leaf)]

/-- The shape of `NodeGroup`. -/
def NodeGroup.shape : Shape := .record [("id", .leaf), ("name", .leaf)]

/-- The shape of `File`. -/
def File.shape : Shape := .record
  [ ("path", .leaf), ("overwrite", .leaf), ("user", NodeUser.shape), ("group", NodeGroup.shape),
    ("contents", Resource.shape), ("append", .list Resource.shape), ("mode", .leaf) ]

/-- The shape of `Directory`. -/
def Directory.shape : Shape := .record
  [ ("path", .leaf), ("overwrite", .leaf), ("user", NodeUser.shape), ("group", NodeGroup.shape),
    ("mode", .leaf) ]

/-- The shape of `Link`. -/
def Link.shape : Shape := .record
  [ ("path", .leaf), ("overwrite", .leaf), ("user", NodeUser.shape), ("group", NodeGroup.shape),
    ("target", .leaf), ("hard", .leaf) ]

/-- The shape of `Tree`. -/
def Tree.shape : Shape := .record [("local", .leaf), ("path", .leaf)]

/-- The shape of `Storage`. -/
def Storage.shape : Shape := .record
  [ ("disks", .list Disk.shape), ("raid", .list Raid.shape),
    ("filesystems", .list Filesystem.shape), ("luks", .list Luks.shape),
    ("files", .list File.shape), ("directories", .list Directory.shape),
    ("links", .list Link.shape), ("trees", .list Tree.shape) ]

/-- The shape of `Dropin`. -/
def Dropin.shape : Shape := .record
  [ ("name", .leaf), ("contents", .leaf), ("contents_local", .leaf) ]

/-- The shape of `Unit`. -/
def Unit.shape : Shape := .record
  [ ("name", .leaf), ("enabled", .leaf), ("mask", .leaf), ("contents", .leaf),
    ("contents_local", .leaf), ("dropins", .list Dropin.shape) ]

/-- The shape of `Systemd`. -/
def Systemd.shape : Shape := .record [("units", .list Unit.shape)]

/-- The shape of `Config`. -/
def Config.shape : Shape := .record
  [ ("ignition", Settings.shape), ("kernel_arguments", KernelArguments.shape),
    ("passwd", Passwd.shape), ("storage", Storage.shape), ("systemd", Systemd.shape) ]

/-! ## What is written -/

theorem Header.writes : Header.codec.Writes Header.shape :=
  writes_record (by decide)
    ⟨writes_plain writes_text, writes_plain (writes_option writes_text), trivial⟩

theorem Verification.writes : Verification.codec.Writes Verification.shape :=
  writes_record (by decide) ⟨writes_plain (writes_option writes_text), trivial⟩

theorem Resource.writes : Resource.codec.Writes Resource.shape :=
  writes_record (by decide)
    ⟨writes_plain (writes_option writes_text), writes_plain (writes_list Header.writes),
      writes_plain (writes_option writes_text), writes_plain (writes_option writes_text),
      writes_plain (writes_option writes_text), writes_plain Verification.writes, trivial⟩

theorem References.writes : References.codec.Writes References.shape :=
  writes_record (by decide)
    ⟨writes_plain (writes_list Resource.writes), writes_plain Resource.writes, trivial⟩

theorem Proxy.writes : Proxy.codec.Writes Proxy.shape :=
  writes_record (by decide)
    ⟨writes_plain (writes_option writes_text), writes_plain (writes_option writes_text),
      writes_plain (writes_list writes_text), trivial⟩

theorem Tls.writes : Tls.codec.Writes Tls.shape :=
  writes_record (by decide) ⟨writes_plain (writes_list Resource.writes), trivial⟩

theorem Security.writes : Security.codec.Writes Security.shape :=
  writes_record (by decide) ⟨writes_plain Tls.writes, trivial⟩

theorem Timeouts.writes : Timeouts.codec.Writes Timeouts.shape :=
  writes_record (by decide)
    ⟨writes_plain (writes_option writes_int), writes_plain (writes_option writes_int), trivial⟩

theorem Settings.writes : Settings.codec.Writes Settings.shape :=
  writes_record (by decide)
    ⟨writes_plain References.writes, writes_plain Proxy.writes, writes_plain Security.writes,
      writes_plain Timeouts.writes, trivial⟩

theorem KernelArguments.writes : KernelArguments.codec.Writes KernelArguments.shape :=
  writes_record (by decide)
    ⟨writes_plain (writes_list writes_text), writes_plain (writes_list writes_text), trivial⟩

theorem User.writes : User.codec.Writes User.shape :=
  writes_record (by decide)
    ⟨writes_plain writes_text, writes_plain (writes_option writes_text),
      writes_plain (writes_list writes_text), writes_plain (writes_list writes_text),
      writes_plain (writes_option writes_int), writes_plain (writes_option writes_text),
      writes_plain (writes_option writes_text), writes_plain (writes_option writes_bool),
      writes_plain (writes_option writes_text), writes_plain (writes_list writes_text),
      writes_plain (writes_option writes_bool), writes_plain (writes_option writes_bool),
      writes_plain (writes_option writes_text), writes_plain (writes_option writes_bool),
      writes_plain (writes_option writes_bool), trivial⟩

theorem Group.writes : Group.codec.Writes Group.shape :=
  writes_record (by decide)
    ⟨writes_plain writes_text, writes_plain (writes_option writes_int),
      writes_plain (writes_option writes_text), writes_plain (writes_option writes_bool),
      writes_plain (writes_option writes_bool), trivial⟩

theorem Passwd.writes : Passwd.codec.Writes Passwd.shape :=
  writes_record (by decide)
    ⟨writes_plain (writes_list User.writes), writes_plain (writes_list Group.writes), trivial⟩

theorem Partition.writes : Partition.codec.Writes Partition.shape :=
  writes_record (by decide)
    ⟨writes_plain (writes_option writes_text), writes_plain (writes_option writes_int),
      writes_plain (writes_option writes_int), writes_plain (writes_option writes_int),
      writes_plain (writes_option writes_text), writes_plain (writes_option writes_text),
      writes_plain (writes_option writes_bool), writes_plain (writes_option writes_bool),
      writes_plain (writes_option writes_bool), trivial⟩

theorem Disk.writes : Disk.codec.Writes Disk.shape :=
  writes_record (by decide)
    ⟨writes_plain writes_text, writes_plain (writes_option writes_bool),
      writes_plain (writes_list Partition.writes), trivial⟩

theorem Raid.writes : Raid.codec.Writes Raid.shape :=
  writes_record (by decide)
    ⟨writes_plain writes_text, writes_plain (writes_option writes_text),
      writes_plain (writes_list writes_text), writes_plain (writes_option writes_int),
      writes_plain (writes_list writes_text), trivial⟩

theorem Filesystem.writes : Filesystem.codec.Writes Filesystem.shape :=
  writes_record (by decide)
    ⟨writes_plain writes_text, writes_plain (writes_option writes_text),
      writes_plain (writes_option writes_text), writes_plain (writes_option writes_bool),
      writes_plain (writes_option writes_text), writes_plain (writes_option writes_text),
      writes_plain (writes_list writes_text), writes_plain (writes_list writes_text),
      writes_plain (writes_option writes_bool), trivial⟩

theorem ClevisCustom.writes : ClevisCustom.codec.Writes ClevisCustom.shape :=
  writes_record (by decide)
    ⟨writes_plain (writes_option writes_text), writes_plain (writes_option writes_bool),
      writes_plain (writes_option writes_text), trivial⟩

theorem Tang.writes : Tang.codec.Writes Tang.shape :=
  writes_record (by decide)
    ⟨writes_plain writes_text, writes_plain (writes_option writes_text),
      writes_plain (writes_option writes_text), trivial⟩

theorem Clevis.writes : Clevis.codec.Writes Clevis.shape :=
  writes_record (by decide)
    ⟨writes_plain ClevisCustom.writes, writes_plain (writes_list Tang.writes),
      writes_plain (writes_option writes_int), writes_plain (writes_option writes_bool), trivial⟩

theorem Luks.writes : Luks.codec.Writes Luks.shape :=
  writes_record (by decide)
    ⟨writes_plain writes_text, writes_plain (writes_option writes_text),
      writes_plain Resource.writes, writes_plain (writes_option writes_text),
      writes_plain (writes_option writes_text), writes_plain (writes_list writes_text),
      writes_plain (writes_option writes_bool), writes_plain Clevis.writes,
      writes_plain (writes_option writes_bool), writes_plain (writes_list writes_text), trivial⟩

theorem NodeUser.writes : NodeUser.codec.Writes NodeUser.shape :=
  writes_record (by decide)
    ⟨writes_plain (writes_option writes_int), writes_plain (writes_option writes_text), trivial⟩

theorem NodeGroup.writes : NodeGroup.codec.Writes NodeGroup.shape :=
  writes_record (by decide)
    ⟨writes_plain (writes_option writes_int), writes_plain (writes_option writes_text), trivial⟩

theorem File.writes : File.codec.Writes File.shape :=
  writes_record (by decide)
    ⟨writes_plain writes_text, writes_plain (writes_option writes_bool),
      writes_plain NodeUser.writes, writes_plain NodeGroup.writes, writes_plain Resource.writes,
      writes_plain (writes_list Resource.writes), writes_plain writes_mode, trivial⟩

theorem Directory.writes : Directory.codec.Writes Directory.shape :=
  writes_record (by decide)
    ⟨writes_plain writes_text, writes_plain (writes_option writes_bool),
      writes_plain NodeUser.writes, writes_plain NodeGroup.writes, writes_plain writes_mode,
      trivial⟩

theorem Link.writes : Link.codec.Writes Link.shape :=
  writes_record (by decide)
    ⟨writes_plain writes_text, writes_plain (writes_option writes_bool),
      writes_plain NodeUser.writes, writes_plain NodeGroup.writes,
      writes_plain (writes_option writes_text), writes_plain (writes_option writes_bool), trivial⟩

theorem Tree.writes : Tree.codec.Writes Tree.shape :=
  writes_record (by decide)
    ⟨writes_plain writes_text, writes_plain (writes_option writes_text), trivial⟩

theorem Storage.writes : Storage.codec.Writes Storage.shape :=
  writes_record (by decide)
    ⟨writes_plain (writes_list Disk.writes), writes_plain (writes_list Raid.writes),
      writes_plain (writes_list Filesystem.writes), writes_plain (writes_list Luks.writes),
      writes_plain (writes_list File.writes), writes_plain (writes_list Directory.writes),
      writes_plain (writes_list Link.writes), writes_plain (writes_list Tree.writes), trivial⟩

theorem Dropin.writes : Dropin.codec.Writes Dropin.shape :=
  writes_record (by decide)
    ⟨writes_plain writes_text, writes_plain (writes_option writes_text),
      writes_plain (writes_option writes_text), trivial⟩

theorem Unit.writes : Unit.codec.Writes Unit.shape :=
  writes_record (by decide)
    ⟨writes_plain writes_text, writes_plain (writes_option writes_bool),
      writes_plain (writes_option writes_bool), writes_plain (writes_option writes_text),
      writes_plain (writes_option writes_text), writes_plain (writes_list Dropin.writes), trivial⟩

theorem Systemd.writes : Systemd.codec.Writes Systemd.shape :=
  writes_record (by decide) ⟨writes_plain (writes_list Unit.writes), trivial⟩

theorem Config.writes : Config.codec.Writes Config.shape :=
  writes_record (by decide)
    ⟨writes_plain Settings.writes, writes_plain KernelArguments.writes, writes_plain Passwd.writes,
      writes_plain Storage.writes, writes_plain Systemd.writes, trivial⟩

end Provision.Source
