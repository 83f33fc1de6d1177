import Provision.Draft
import Provision.Source.Schema

/-!
# The boot device

How the root filesystem is laid out, in a few words: mirrored over several devices, encrypted, or
both. From that the disks, arrays, volumes and filesystems follow.

* `validate`: what is wrong with a description.
* `plan`: the config that follows from a description.
-/

set_option autoImplicit false

namespace Provision

open Decode (Codec RecordField)

/-- How the root filesystem is encrypted. -/
structure BootDevice.Encryption where
  /-- The device that is encrypted if it is not mirrored. -/
  device : Option String := none
  discard : Option Bool := none
  tang : List Source.Tang := []
  threshold : Option Int := none
  tpm2 : Option Bool := none
  deriving DecidableEq, Repr, Inhabited

/-- The devices that the boot device is mirrored over. -/
structure BootDevice.Mirror where
  devices : List String := []
  deriving DecidableEq, Repr, Inhabited

/-- A description of the boot device. -/
structure BootDevice where
  layout : Option String := none
  luks : BootDevice.Encryption := {}
  mirror : BootDevice.Mirror := {}
  deriving DecidableEq, Repr, Inhabited

namespace BootDevice

/-- The fields of `Encryption`. -/
def Encryption.fields : List (RecordField Encryption) :=
  [ .plain "device" (.option .text) (·.device) (fun x r => { r with device := x }),
    .plain "discard" (.option .bool) (·.discard) (fun x r => { r with discard := x }),
    .plain "tang" (.list Source.Tang.codec) (·.tang) (fun x r => { r with tang := x }),
    .plain "threshold" (.option .int) (·.threshold) (fun x r => { r with threshold := x }),
    .plain "tpm2" (.option .bool) (·.tpm2) (fun x r => { r with tpm2 := x }) ]

/-- The form of `Encryption`. -/
def Encryption.codec : Codec Encryption := .record "BootDeviceLuks" {} Encryption.fields

/-- The fields of `Mirror`. -/
def Mirror.fields : List (RecordField Mirror) :=
  [ .plain "devices" (.list .text) (·.devices) (fun x r => { r with devices := x }) ]

/-- The form of `Mirror`. -/
def Mirror.codec : Codec Mirror := .record "BootDeviceMirror" {} Mirror.fields

/-- The fields of a description. -/
def fields : List (RecordField BootDevice) :=
  [ .plain "layout" (.option .text) (·.layout) (fun x r => { r with layout := x }),
    .plain "luks" Encryption.codec (·.luks) (fun x r => { r with luks := x }),
    .plain "mirror" Mirror.codec (·.mirror) (fun x r => { r with mirror := x }) ]

/-- The form of a description. -/
def codec : Codec BootDevice := .record "BootDevice" {} fields

/-- Whether the root filesystem is encrypted. -/
def wantsLuks (b : BootDevice) : Bool := b.luks.tpm2 = some true || !b.luks.tang.isEmpty

/-- Whether the boot device is mirrored. -/
def wantsMirror (b : BootDevice) : Bool := !b.mirror.devices.isEmpty

/-- The layouts that are known. -/
def layouts : List String := ["aarch64", "ppc64le", "x86_64"]

/-- What is wrong with a description in the config at a place of the source. -/
def validate (b : BootDevice) (start : Trail) : Report :=
  let here := start.key "boot_device"
  (if b.layout.any (!layouts.contains ·) then
    Report.sourceError (here.key "layout") .unknownLayout else []) ++
  (if b.mirror.devices.length = 1 then
    Report.sourceError ((here.key "mirror").key "devices") .tooFewMirrorDevices else [])

/-! ## What follows from a description -/

/-- A partition on the device with a number, with its size and kind if these are fixed. -/
def partition (role : String) (n : Nat) (size : Option Int) (guid : Option String) : Json :=
  .obj (("label", .str (role ++ "-" ++ toString n)) ::
    ((size.map fun mib => ("sizeMiB", Json.int mib)).toList ++
      (guid.map fun x => ("typeGuid", Json.str x)).toList))

/-- The partition of a boot loader that runs on a BIOS. -/
def biosPartition (n : Nat) : Json :=
  partition "bios" n (some 1) (some "21686148-6449-6E6F-744E-656564454649")

/-- The partition of boot loaders that firmware looks for. -/
def espPartition (n : Nat) : Json :=
  partition "esp" n (some 127) (some "C12A7328-F81F-11D2-BA4B-00A0C93EC93B")

/-- The partition of a boot loader that is started directly. -/
def prepPartition (n : Nat) : Json :=
  partition "prep" n (some 4) (some "9E1A2D38-C612-4316-AA26-8B49521E5A8B")

/-- The partition that is kept free. -/
def reservedPartition (n : Nat) : Json :=
  partition "reserved" n (some 1) (some "8DA63339-0007-60C0-C436-083AC8230908")

/-- The partitions that the firmware of a layout needs. -/
def firmwarePartitions (layout : String) (n : Nat) : List Json :=
  if layout = "aarch64" then [reservedPartition n, espPartition n]
  else if layout = "ppc64le" then [prepPartition n, reservedPartition n]
  else [biosPartition n, espPartition n]

/-- The device with a number in a mirror. -/
def mirrorDisk (layout device : String) (n : Nat) : Json :=
  .obj [("device", .str device),
    ("partitions", .arr (firmwarePartitions layout n ++
      [partition "boot" n (some 384) none, partition "root" n none none])),
    ("wipeTable", .bool true)]

/-- The array of the partitions with a role, one from each of some devices. -/
def mirrorArray (role : String) (count : Nat) (options : List String) : Json :=
  .obj ([("name", .str ("md-" ++ role)), ("level", .str "raid1"),
    ("devices", .arr ((List.range' 1 count).map fun n =>
      .str ("/dev/disk/by-partlabel/" ++ role ++ "-" ++ toString n)))] ++
    (if options.isEmpty then [] else [("options", .arr (options.map .str))]))

/-- A filesystem that is made anew. -/
def filesystem (device format label : String) : Json :=
  .obj [("device", .str device), ("format", .str format), ("label", .str label),
    ("wipeFilesystem", .bool true)]

/-- A server that helps unlocking. -/
def tangServer (t : Source.Tang) : Json :=
  .obj (("url", .str t.url) ::
    ((t.thumbprint.map fun x => ("thumbprint", Json.str x)).toList ++
      (t.advertisement.map fun x => ("advertisement", Json.str x)).toList))

/-- The ways to unlock the volume. -/
def unlocking (e : Encryption) : Json :=
  .obj ((if e.tang.isEmpty then [] else [("tang", .arr (e.tang.map tangServer))]) ++
    (e.threshold.map fun n => ("threshold", Json.int n)).toList ++
    (e.tpm2.map fun b => ("tpm2", Json.bool b)).toList)

/-- The encrypted volume on a device. -/
def volume (e : Encryption) (device : String) : Json :=
  .obj ([("name", .str "root"), ("label", .str "luks-root"), ("device", .str device),
    ("clevis", unlocking e), ("wipeVolume", .bool true)] ++
    (e.discard.map fun b => ("discard", Json.bool b)).toList)

/-- The device that is encrypted. -/
def encryptedDevice (b : BootDevice) : String :=
  if b.wantsMirror then "/dev/md/md-root" else b.luks.device.getD "/dev/disk/by-partlabel/root"

/-- Where a part of the plan comes from. -/
inductive Cause where
  | mirror
  | luks
  deriving DecidableEq, Repr

/-- The nodes of the plan with their kinds, and what each comes from. -/
def nodes (b : BootDevice) : List (Cause × String × Json) :=
  let layout := b.layout.getD "x86_64"
  let count := b.mirror.devices.length
  let mirror := b.wantsMirror
  let esp := layout ≠ "ppc64le"
  let metadata := ["--metadata=1.0"]
  if !mirror && !b.wantsLuks then []
  else
    b.mirror.devices.zipIdx.map (fun (device, i) =>
      (.mirror, "disks", mirrorDisk layout device (i + 1))) ++
    (if mirror && esp then [(.mirror, "raid", mirrorArray "esp" count metadata)] else []) ++
    (if mirror then
      [(.mirror, "raid", mirrorArray "boot" count metadata),
        (.mirror, "raid", mirrorArray "root" count [])]
      else []) ++
    (if b.wantsLuks then [(.luks, "luks", volume b.luks b.encryptedDevice)] else []) ++
    (if mirror && esp then
      [(.mirror, "filesystems", filesystem "/dev/md/md-esp" "vfat" "EFI-SYSTEM")] else []) ++
    (if mirror then [(.mirror, "filesystems", filesystem "/dev/md/md-boot" "ext4" "boot")]
      else []) ++
    (if b.wantsLuks then [(.luks, "filesystems", filesystem "/dev/mapper/root" "xfs" "root")]
      else [(.mirror, "filesystems", filesystem "/dev/md/md-root" "xfs" "root")])

/-- The place of a cause in the config at a place of the source. -/
def Cause.trail (start : Trail) : Cause → Trail
  | .mirror => (start.key "boot_device").key "mirror"
  | .luks => (start.key "boot_device").key "luks"

/-- The config that follows from a description in the config at a place of the source. Where nothing
is wanted it is empty. -/
def plan (b : BootDevice) (start : Trail) : Draft :=
  b.nodes.foldl (fun d (cause, kind, node) => d.push (cause.trail start) kind node) .empty

end BootDevice

end Provision
