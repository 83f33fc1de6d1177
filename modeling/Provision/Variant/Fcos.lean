import Provision.BootDevice
import Provision.DataUrl
import Provision.Draft
import Provision.Source.Translate
import Provision.Source.Validate
import Provision.Variant.Document
import Provision.Workspace
import Provision.Yaml.Printer

/-!
# Fedora CoreOS

Beside the shared sections a config describes the boot device and names extensions. What follows
from these lies below what the config itself says.

* `Extensions.fileFor`: the config with the file that names the extensions.
-/

set_option autoImplicit false

namespace Provision.Extensions

/-!
## Extensions of the system

Packages beyond those of the system are asked for in a file with their names.
-/

/-- Where the file is. -/
def path : String := "/etc/rpm-ostree/origin.d/extensions-ignis.yaml"

/-- The contents of the file for some names. -/
def contents (names : List String) : String :=
  "# Generated by Ignis\n\npackages:\n" ++ Yaml.Printer.printItems names

/-- The config with the file for some names, all of which comes from the list of extensions. -/
def fileFor (w : Workspace) (names : List String) : Draft :=
  let embedded := DataUrl.embed w.options.compress (Text.encodeUtf8 (contents names).toList)
  let file := Json.obj [("path", .str path), ("mode", Json.int 0o644), ("contents", embedded.json)]
  let storage := Json.obj [("files", .arr [file])]
  ⟨.obj [("storage", storage)],
    ({} : Provenance).addValue [.key "extensions"] [.key "storage"] storage, []⟩

end Provision.Extensions

namespace Provision.Fcos

open Decode (Codec RecordField)

/-- An extension of the system. -/
structure Extension where
  name : String := ""
  deriving DecidableEq, Repr, Inhabited

/-- A config. -/
structure Config where
  variant : String := ""
  version : String := ""
  base : Source.Config := {}
  bootDevice : BootDevice := {}
  extensions : List Extension := []
  deriving DecidableEq, Repr, Inhabited

/-- The fields of an extension. -/
def Extension.fields : List (RecordField Extension) :=
  [ .plain "name" .text (·.name) (fun x r => { r with name := x }) ]

/-- The form of an extension. -/
def Extension.codec : Codec Extension := .record "Extension" {} Extension.fields

/-- The fields that are not shared. -/
def ownFields : List (RecordField Config) :=
  [ .plain "variant" .text (·.variant) (fun x r => { r with variant := x }),
    .plain "version" .text (·.version) (fun x r => { r with version := x }),
    .plain "boot_device" BootDevice.codec (·.bootDevice) (fun x r => { r with bootDevice := x }),
    .plain "extensions" (.list Extension.codec)
      (·.extensions) (fun x r => { r with extensions := x }) ]

/-- The shared sections. -/
def sections : List (RecordField Config) :=
  Source.Config.fields.map (.lift (·.base) fun x r => { r with base := x })

/-- A config as JSON. -/
def Config.json (c : Config) : Json := .obj (RecordField.members (ownFields ++ sections) c)

/-- The disk that the system is started from. -/
def bootDisk : String := "/dev/disk/by-id/coreos-boot-disk"

/-- A partition for the root filesystem on the disk that the system is started from has number 4:
any other is made beside it. -/
def checkPartition (trail : Trail) (p : Source.Partition) : Report :=
  if p.label = some "root" && p.number.any (fun n => n ≠ 0 && n ≠ 4) then
    .sourceWarning (trail.key "number") .wrongPartitionNumber
  else []

/-- Warnings about partitions for the root filesystem. -/
def checkRootPartitions (c : Source.Config) : Report :=
  Source.checkItems [.key "storage", .key "disks"] (fun trail disk =>
    if disk.device = bootDisk then
      Source.checkItems (trail.key "partitions") checkPartition disk.partitions
    else []) c.storage.disks

/-- What is wrong with a config. -/
def Config.validate (c : Config) : Report :=
  Source.validate [] c.base ++ c.bootDevice.validate [] ++
    Source.checkItems [.key "extensions"] (fun trail e =>
      if e.name.isEmpty then Report.sourceError (trail.key "name") .unnamedExtension else [])
      c.extensions ++
    checkRootPartitions c.base

/-- What follows from the boot device and the extensions. -/
def Config.lower (w : Workspace) (c : Config) : Draft :=
  let plan := c.bootDevice.plan []
  if c.extensions.isEmpty then plan
  else Merge.merge plan (Extensions.fileFor w (c.extensions.map (·.name)))

/-- The document for a config. -/
def Config.translate (spec : Spec) (w : Workspace) (c : Config) : Translated (Option Document) :=
  (stamp spec (Merge.merge (c.lower w) (Source.translate w c.base))).map (·.map .ignition)

end Provision.Fcos
