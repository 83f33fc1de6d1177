import Provision.Ignition.Schema

/-!
# Configs for an operator

An operator that manages machines takes a config in a wrapper of its own, together with settings
that are not part of the config.
-/

set_option autoImplicit false

namespace Provision

open Decode (Codec RecordField)

/-- The name and the labels of a wrapped config. -/
structure MachineConfig.Metadata where
  name : String := ""
  /-- Labels with their values, sorted by label. -/
  labels : List (String × String) := []
  deriving DecidableEq, Repr, Inhabited

/-- A config and the settings beside it. -/
structure MachineConfig.Spec where
  config : Ignition.Config := {}
  kernelArguments : List String := []
  extensions : List String := []
  fips : Option Bool := none
  kernelType : Option String := none
  deriving DecidableEq, Repr, Inhabited

/-- A wrapped config. -/
structure MachineConfig where
  apiVersion : String := ""
  kind : String := ""
  metadata : MachineConfig.Metadata := {}
  spec : MachineConfig.Spec := {}
  deriving DecidableEq, Repr, Inhabited

namespace MachineConfig

/-- The label that says which machines a config is for. -/
def roleLabel : String := "machineconfiguration.openshift.io/role"

/-- A config in a wrapper without anything else. -/
def wrap (config : Ignition.Config) : MachineConfig :=
  { apiVersion := "machineconfiguration.openshift.io/v1", kind := "MachineConfig",
    spec := { config } }

/-- The fields of `Metadata`. -/
def Metadata.fields : List (RecordField Metadata) :=
  [ .sparse "" "name" .text (·.name) (fun x r => { r with name := x }),
    .sparse [] "labels" .texts (·.labels) (fun x r => { r with labels := x }) ]

/-- The form of `Metadata`. -/
def Metadata.codec : Codec Metadata := .record "Metadata" {} Metadata.fields

/-- The fields of `Spec`. -/
def Spec.fields : List (RecordField Spec) :=
  [ .plain "config" Ignition.Config.codec (·.config) (fun x r => { r with config := x }),
    .sparse [] "kernelArguments" (.list .text)
      (·.kernelArguments) (fun x r => { r with kernelArguments := x }),
    .sparse [] "extensions" (.list .text) (·.extensions) (fun x r => { r with extensions := x }),
    .optional "fips" .bool (·.fips) (fun x r => { r with fips := x }),
    .optional "kernelType" .text (·.kernelType) (fun x r => { r with kernelType := x }) ]

/-- The form of `Spec`. -/
def Spec.codec : Codec Spec := .record "MachineConfigSpec" {} Spec.fields

/-- The fields of a wrapped config. -/
def fields : List (RecordField MachineConfig) :=
  [ .needed "apiVersion" .text (·.apiVersion) (fun x r => { r with apiVersion := x }),
    .needed "kind" .text (·.kind) (fun x r => { r with kind := x }),
    .sparse {} "metadata" Metadata.codec (·.metadata) (fun x r => { r with metadata := x }),
    .plain "spec" Spec.codec (·.spec) (fun x r => { r with spec := x }) ]

/-- The form of a wrapped config. -/
def codec : Codec MachineConfig := .record "MachineConfig" {} fields

end MachineConfig

end Provision
