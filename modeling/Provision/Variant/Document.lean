import Provision.Decode.FromJson
import Provision.Draft
import Provision.Ignition.Validate
import Provision.MachineConfig
import Provision.Problem
import Provision.Semver

/-!
# The variants and what is made of their configs

A config is written for a variant of the system and for one version of the rules for that variant.
From these two follows the version of the config that is made, which is either a config as it is, or
one in the wrapper for an operator.

* `Spec.lookup`: what is known of a variant and a version.
* `Document.validate`: what is wrong with a document that was made.
* `stamp`: the config of a draft, with its version.
-/

set_option autoImplicit false

namespace Provision

/-! ## Variants and their versions -/

/-- The kinds of systems that configs are written for. -/
inductive Variant where
  | fcos
  | flatcar
  | openshift
  | fiot
  deriving DecidableEq, Repr, Inhabited

/-- The name of a variant. -/
def Variant.name : Variant → String
  | .fcos => "fcos"
  | .flatcar => "flatcar"
  | .openshift => "openshift"
  | .fiot => "fiot"

/-- A variant, the version of its rules, and the version of the configs made by them. -/
structure Spec where
  variant : Variant
  version : Version
  target : Version
  deriving DecidableEq, Repr, Inhabited

namespace Spec

/-- The spec of releases without patches. -/
def of (variant : Variant) (major minor : Nat) (targetMajor targetMinor : Nat) : Spec :=
  ⟨variant, .release major minor 0, .release targetMajor targetMinor 0⟩

/-- All specs, by the names of their variants and then by version. -/
def catalog : List Spec :=
  [ .of .fcos 1 3 3 2, .of .fcos 1 4 3 3, .of .fcos 1 5 3 4, .of .fcos 1 6 3 5,
    .of .fiot 1 0 3 4,
    .of .flatcar 1 0 3 3, .of .flatcar 1 1 3 4,
    .of .openshift 4 12 3 2, .of .openshift 4 13 3 2, .of .openshift 4 14 3 4,
    .of .openshift 4 15 3 4 ]

/-- The spec for the name of a variant and a version. -/
def lookup (variant : String) (version : Version) : Except Problem Spec :=
  match catalog.find? fun s => s.variant.name = variant && s.version = version with
  | some s => .ok s
  | none => .error (.unknownVersion variant version.text)

/-- Whether the version of the rules is at least a release. -/
def atLeast (s : Spec) (major minor patch : Nat) : Bool :=
  s.version.major > major || (s.version.major = major &&
    (s.version.minor > minor || (s.version.minor = minor && s.version.patch ≥ patch)))

end Spec

/-! ## Documents -/

/-- A document that was made. -/
inductive Document where
  | ignition (config : Ignition.Config)
  | machineConfig (wrapper : MachineConfig)
  deriving DecidableEq, Repr, Inhabited

namespace Document

/-- The config in a document. -/
def config : Document → Ignition.Config
  | .ignition c => c
  | .machineConfig m => m.spec.config

/-- Where the config is in the document. -/
def configTrail : Document → Trail
  | .ignition _ => []
  | .machineConfig _ => [.key "spec", .key "config"]

/-- A document as JSON. -/
def json : Document → Json
  | .ignition c => Ignition.Config.codec.write c
  | .machineConfig m => MachineConfig.codec.write m

/-- What is wrong with the config in a document, at the places of the document. -/
def validate (d : Document) : Report :=
  (Ignition.validate d.config).map fun f =>
    ⟨f.severity, .target (d.configTrail ++ f.trail), .flaw f.flaw, none⟩

end Document

/-- The trail of the version in a source. -/
def versionTrail : Trail := [.key "version"]

/-- A document with a version set in its settings. -/
def withVersion (version : String) (document : Json) : Json :=
  let root := document.members
  match (Json.lookup "ignition" root).getD (.obj []) with
  | .obj settings =>
    .obj (Json.insert "ignition" (.obj (Json.insert "version" (.str version) settings)) root)
  | _ => .obj root

/-- The config of a draft, with the version of a spec. -/
def stamp (spec : Spec) (d : Draft) : Translated (Option Ignition.Config) :=
  let settings : Trail := [.key "ignition"]
  let p := Draft.addMissing versionTrail settings
    (d.provenance.add versionTrail (settings.key "version"))
  match Ignition.Config.codec.ofJson (withVersion spec.target.text d.value) with
  | .ok config => ⟨some config, p, d.report⟩
  | .error failure => ⟨none, p, d.report ++ .sourceError [] (.undecodable failure)⟩

end Provision
