import Provision.Decode.FromYaml
import Provision.Filter
import Provision.Source.Translate
import Provision.Source.Validate
import Provision.Variant.Document
import Provision.Variant.Openshift

/-!
# Configs of all variants

What the variants have in common: their configs are read, checked and translated. Flatcar and Fedora
IoT have no fields of their own: they know the shared sections alone, and not all of them.
-/

set_option autoImplicit false

namespace Provision.Plain

open Decode (Codec RecordField)

/-- A config of such a variant. -/
structure Config where
  variant : String := ""
  version : String := ""
  base : Source.Config := {}
  deriving DecidableEq, Repr, Inhabited

/-- The fields that are not shared. -/
def ownFields : List (RecordField Config) :=
  [ .plain "variant" .text (·.variant) (fun x r => { r with variant := x }),
    .plain "version" .text (·.version) (fun x r => { r with version := x }) ]

/-- The shared sections. -/
def sections : List (RecordField Config) :=
  Source.Config.fields.map (.lift (·.base) fun x r => { r with base := x })

/-- A config as JSON. -/
def Config.json (c : Config) : Json := .obj (RecordField.members (ownFields ++ sections) c)

/-- What is wrong with a config. -/
def Config.validate (c : Config) : Report := Source.validate [] c.base

/-- What Flatcar does not support. -/
def flatcarFilters : List Filter := [.forbid "storage.luks.*.clevis" .unsupportedClevis]

/-- What Fedora IoT does not support, which lays out its own storage. -/
def fiotFilters : List Filter :=
  [ .forbid "storage.disks.*" .unsupportedDisk,
    .forbid "storage.filesystems.*" .unsupportedFilesystem,
    .forbid "storage.luks.*" .unsupportedLuks,
    .forbid "storage.raid.*" .unsupportedRaid ]

/-- The document for a config of a variant with the given filters. -/
def Config.translate (filters : List Filter) (spec : Spec) (w : Workspace) (c : Config) :
    Translated (Option Document) :=
  let d := Source.translate w c.base
  let found := Filter.applyAll filters (.target []) d.value
  (stamp spec { d with report := d.report ++ found }).map (·.map .ignition)

end Provision.Plain

namespace Provision

open Yaml (Datum)

/-- A config of one of the variants. -/
inductive Config where
  | fcos (c : Fcos.Config)
  | flatcar (c : Plain.Config)
  | openshift (c : Openshift.Config)
  | fiot (c : Plain.Config)
  deriving Repr, Inhabited

namespace Config

/-- The config of a variant that a document is. -/
def ofDatum (variant : Variant) (document : Datum) : Except Decode.Failure Config :=
  match variant with
  | .fcos => (Decode.readDocument Fcos.ownFields Fcos.sections {} document).map .fcos
  | .flatcar => (Decode.readDocument Plain.ownFields Plain.sections {} document).map .flatcar
  | .openshift =>
    (Decode.readDocument Openshift.ownFields Openshift.sections {} document).map .openshift
  | .fiot => (Decode.readDocument Plain.ownFields Plain.sections {} document).map .fiot

/-- A config as JSON, with every field it has. -/
def json : Config → Json
  | .fcos c => c.json
  | .flatcar c | .fiot c => c.json
  | .openshift c => c.json

/-- What is wrong with a config. -/
def validate : Config → Report
  | .fcos c => c.validate
  | .flatcar c | .fiot c => c.validate
  | .openshift c => c.validate

/-- The document for a config, without a wrapper on request. -/
def translate (spec : Spec) (w : Workspace) (raw : Bool) : Config → Translated (Option Document)
  | .fcos c => c.translate spec w
  | .flatcar c => c.translate Plain.flatcarFilters spec w
  | .openshift c => c.translate spec w raw
  | .fiot c => c.translate Plain.fiotFilters spec w

end Config

end Provision
