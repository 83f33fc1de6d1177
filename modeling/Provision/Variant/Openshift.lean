import Provision.Filter
import Provision.Fips
import Provision.Variant.Fcos

/-!
# OpenShift

An operator takes the config in a wrapper, with settings of the kernel beside it. It applies only
part of what a config can say. On request the config is given without its wrapper, and the settings
are lost.
-/

set_option autoImplicit false

namespace Provision.Openshift

open Decode (Codec RecordField)

/-- The name and the labels of a config. -/
structure Metadata where
  name : String := ""
  /-- Labels with their values, sorted by label. -/
  labels : List (String × String) := []
  deriving DecidableEq, Repr, Inhabited

/-- The settings beside a config. -/
structure Settings where
  kernelArguments : List String := []
  extensions : List String := []
  fips : Option Bool := none
  kernelType : Option String := none
  deriving DecidableEq, Repr, Inhabited

/-- A config. -/
structure Config where
  variant : String := ""
  version : String := ""
  metadata : Metadata := {}
  base : Source.Config := {}
  bootDevice : BootDevice := {}
  openshift : Settings := {}
  deriving DecidableEq, Repr, Inhabited

/-- The fields of `Metadata`. -/
def Metadata.fields : List (RecordField Metadata) :=
  [ .plain "name" .text (·.name) (fun x r => { r with name := x }),
    .plain "labels" .texts (·.labels) (fun x r => { r with labels := x }) ]

/-- The form of `Metadata`. -/
def Metadata.codec : Codec Metadata := .record "Metadata" {} Metadata.fields

/-- The fields of `Settings`. -/
def Settings.fields : List (RecordField Settings) :=
  [ .plain "kernel_arguments" (.list .text)
      (·.kernelArguments) (fun x r => { r with kernelArguments := x }),
    .plain "extensions" (.list .text) (·.extensions) (fun x r => { r with extensions := x }),
    .plain "fips" (.option .bool) (·.fips) (fun x r => { r with fips := x }),
    .plain "kernel_type" (.option .text) (·.kernelType) (fun x r => { r with kernelType := x }) ]

/-- The form of `Settings`. -/
def Settings.codec : Codec Settings := .record "Openshift" {} Settings.fields

/-- The fields that are not shared. -/
def ownFields : List (RecordField Config) :=
  [ .plain "variant" .text (·.variant) (fun x r => { r with variant := x }),
    .plain "version" .text (·.version) (fun x r => { r with version := x }),
    .plain "metadata" Metadata.codec (·.metadata) (fun x r => { r with metadata := x }),
    .plain "boot_device" BootDevice.codec (·.bootDevice) (fun x r => { r with bootDevice := x }),
    .plain "openshift" Settings.codec (·.openshift) (fun x r => { r with openshift := x }) ]

/-- The shared sections. -/
def sections : List (RecordField Config) :=
  Source.Config.fields.map (.lift (·.base) fun x r => { r with base := x })

/-- A config as JSON. -/
def Config.json (c : Config) : Json := .obj (RecordField.members (ownFields ++ sections) c)

/-! ## Checks -/

/-- The names for kinds of kernels. -/
def kernelTypes : List String := ["", "default", "realtime"]

/-- What is wrong with a config. -/
def Config.validate (c : Config) : Report :=
  let metadata : Trail := [.key "metadata"]
  Source.validate [] c.base ++
    (if c.metadata.name.isEmpty then Report.sourceError (metadata.key "name") .unnamedConfig
      else []) ++
    (if (c.metadata.labels.lookup MachineConfig.roleLabel).isNone then
      Report.sourceError (metadata.key "labels") .noRole else []) ++
    (if c.openshift.kernelType.any (!kernelTypes.contains ·) then
      Report.sourceError [.key "openshift", .key "kernel_type"] .unknownKernelType else []) ++
    c.bootDevice.validate [] ++ Fcos.checkRootPartitions c.base

/-- The fields of users that the operator ignores, with their names in the source. -/
def userFields : List (String × String) :=
  [ ("gecos", "gecos"), ("groups", "groups"), ("homeDir", "home_dir"),
    ("noCreateHome", "no_create_home"), ("noLogInit", "no_log_init"),
    ("noUserGroup", "no_user_group"), ("primaryGroup", "primary_group"), ("shell", "shell"),
    ("shouldExist", "should_exist"), ("system", "system"), ("uid", "uid") ]

/-- Whether a value is a URL that does not hold its contents itself. -/
def isRemote (x : Json) : Bool := x.text?.any (!·.startsWith "data:")

/-- Whether the operator can decompress contents and set passwords. -/
def isCapable (spec : Spec) : Bool := spec.atLeast 4 13 0

/-- What the operator does not support. -/
def filters (spec : Spec) : List Filter :=
  [ .forbidIf "storage.filesystems.*.format" (· = .str "btrfs") .unsupportedBtrfs,
    .forbidIf "storage.filesystems.*.format" (· = .str "none") .unsupportedNoFilesystem,
    .forbid "storage.directories.*" .unsupportedDirectory,
    .forbid "storage.files.*.append" .unsupportedAppend,
    .forbid "storage.files.*.contents.httpHeaders" .unsupportedHeaders,
    .forbidIf "storage.files.*.contents.source" isRemote .unsupportedFileScheme,
    .forbid "passwd.groups.*" .unsupportedGroup,
    .forbid "storage.links.*" .unsupportedLink,
    .forbidIf "passwd.users.*.name" (· ≠ .str "core") .unsupportedUser,
    .forbid "kernelArguments.shouldExist" .misplacedKernelArguments,
    .forbid "kernelArguments.shouldNotExist" .misplacedKernelArguments ] ++
  (if isCapable spec then []
    else
      [ .forbid "storage.files.*.contents.compression" .unsupportedCompression,
        .forbid "passwd.users.*.passwordHash" (.unsupportedUserField "password_hash") ]) ++
  userFields.map fun (target, source) =>
    .forbid ("passwd.users.*." ++ target) (.unsupportedUserField source)

/-- The settings that are lost without the wrapper. -/
def wrapperFilters : List Filter :=
  ["spec.kernelArguments", "spec.extensions", "spec.fips", "spec.kernelType"].map
    (.warn · .elided)

/-! ## The wrapper -/

/-- Where the config is in its wrapper. -/
def configTrail : Trail := [.key "spec", .key "config"]

/-- A config in its wrapper. -/
def Config.wrap (c : Config) (config : Ignition.Config) : MachineConfig :=
  let bare := MachineConfig.wrap config
  { bare with
    metadata := ⟨c.metadata.name, c.metadata.labels⟩
    spec := { bare.spec with
      kernelArguments := c.openshift.kernelArguments
      extensions := c.openshift.extensions
      fips := c.openshift.fips
      kernelType := c.openshift.kernelType.filter (!·.isEmpty) } }

/-- The origins of a list of texts and its items. -/
def listOrigins (origin place : Trail) (count : Nat) : List (Trail × Trail) :=
  if count = 0 then []
  else (origin, place) :: (List.range count).map fun i => (origin.index i, place.index i)

/-- Where the parts of the wrapper come from: pairs of a trail in the source and one in the
wrapper. -/
def Config.wrapperOrigins (c : Config) : List (Trail × Trail) :=
  let metadata : Trail := [.key "metadata"]
  let labels := metadata.key "labels"
  let settings : Trail := [.key "openshift"]
  let spec : Trail := [.key "spec"]
  let named := !c.metadata.name.isEmpty
  let labelled := !c.metadata.labels.isEmpty
  [ (versionTrail, [.key "apiVersion"]), (versionTrail, [.key "kind"]), (versionTrail, spec),
    (versionTrail, configTrail) ] ++
  (if named || labelled then [(metadata, metadata)] else []) ++
  (if named then [(metadata.key "name", metadata.key "name")] else []) ++
  (if labelled then [(labels, labels)] else []) ++
  c.metadata.labels.map (fun (label, _) => (labels.key label, labels.key label)) ++
  listOrigins (settings.key "kernel_arguments") (spec.key "kernelArguments")
    c.openshift.kernelArguments.length ++
  listOrigins (settings.key "extensions") (spec.key "extensions")
    c.openshift.extensions.length ++
  (if c.openshift.fips.isSome then [(settings.key "fips", spec.key "fips")] else []) ++
  (if c.openshift.kernelType.any (!·.isEmpty) then
    [(settings.key "kernel_type", spec.key "kernelType")] else [])

/-! ## Translation -/

/-- A draft in which volumes have approved ciphers if that is asked for. -/
def Config.withCiphers (c : Config) (d : Draft) : Draft :=
  if c.openshift.fips = some true then
    let (value, provenance) :=
      Fips.choose [.key "openshift", .key "fips"] [] d.value d.provenance
    ⟨value, provenance, d.report⟩
  else d

/-- The config for the operator, before it is wrapped. Contents are not compressed where they could
not be decompressed. -/
def Config.inner (spec : Spec) (w : Workspace) (c : Config) :
    Translated (Option Ignition.Config) :=
  let w := if isCapable spec then w else { w with options := { w.options with compress := false } }
  let merged := Merge.merge (c.bootDevice.plan []) (Source.translate w c.base)
  let d := c.withCiphers merged
  let found := Filter.applyAll (filters spec) (.target []) d.value
  stamp spec { d with report := d.report ++ found }

/-- The document for a config: wrapped, or on request `raw`. -/
def Config.translate (spec : Spec) (w : Workspace) (raw : Bool) (c : Config) :
    Translated (Option Document) :=
  let inner := c.inner spec w
  let report := inner.report.under (.target configTrail)
  let moved := inner.provenance.under (.source []) (.target configTrail)
  match inner.value with
  | none => ⟨none, moved, report⟩
  | some config =>
    let wrapper := c.wrap config
    let p := c.wrapperOrigins.foldl (fun p (origin, place) => p.add origin place) moved
    if raw then
      let lost := Filter.applyAll wrapperFilters (.target []) (MachineConfig.codec.write wrapper)
      ⟨some (.ignition config), p.below (.target configTrail), (report ++ lost).traced p⟩
    else ⟨some (.machineConfig wrapper), p, report⟩

end Provision.Openshift
