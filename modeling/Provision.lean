import Provision.Base64
import Provision.Binary64
import Provision.BootDevice
import Provision.CommandLine.Arguments
import Provision.CommandLine.Failure
import Provision.CommandLine.Logging
import Provision.CommandLine.Run
import Provision.Contents
import Provision.DataUrl
import Provision.Decode.Codec
import Provision.Decode.Failure
import Provision.Decode.FromJson
import Provision.Decode.FromYaml
import Provision.Decode.Mode
import Provision.Draft
import Provision.Files.Tree
import Provision.Filter
import Provision.Fips
import Provision.Gzip.Code
import Provision.Gzip.Stream
import Provision.Header
import Provision.Hostname.Mapping
import Provision.Hostname.Name
import Provision.Hostname.Punycode
import Provision.Ignition.Flaw
import Provision.Ignition.Schema
import Provision.Ignition.Url
import Provision.Ignition.Validate
import Provision.Json.Basic
import Provision.Json.Parser
import Provision.Json.Printer
import Provision.MachineConfig
import Provision.Main
import Provision.Marker
import Provision.Merge
import Provision.MountUnit
import Provision.Path
import Provision.Pattern
import Provision.Problem
import Provision.Proofs.BootDevice
import Provision.Proofs.BootDevice.Closed
import Provision.Proofs.BootDevice.Reading
import Provision.Proofs.BootDevice.Valid
import Provision.Proofs.CommandLine.Run
import Provision.Proofs.Contents
import Provision.Proofs.Contents.Outcome
import Provision.Proofs.Contents.Texts
import Provision.Proofs.DataUrl
import Provision.Proofs.Decode.Gives
import Provision.Proofs.Decode.Heeds
import Provision.Proofs.Decode.Invariant
import Provision.Proofs.Decode.Keeps
import Provision.Proofs.Decode.Mode
import Provision.Proofs.Decode.Reads
import Provision.Proofs.Decode.Record
import Provision.Proofs.Decode.Restores
import Provision.Proofs.Decode.Sections
import Provision.Proofs.Diagnostics
import Provision.Proofs.Draft
import Provision.Proofs.Draft.Anchored
import Provision.Proofs.Files.Containment
import Provision.Proofs.Files.Follow
import Provision.Proofs.Files.Mapped
import Provision.Proofs.Files.Resolved
import Provision.Proofs.Filter
import Provision.Proofs.Fips
import Provision.Proofs.Fips.Coverage
import Provision.Proofs.Fips.Settled
import Provision.Proofs.Ignition.Duplicates
import Provision.Proofs.Ignition.Files
import Provision.Proofs.Ignition.Findings
import Provision.Proofs.Ignition.Lossless
import Provision.Proofs.Ignition.Readable
import Provision.Proofs.Ignition.Series
import Provision.Proofs.Ignition.Shape
import Provision.Proofs.Ignition.Versions
import Provision.Proofs.Json.Node
import Provision.Proofs.Json.Put
import Provision.Proofs.Json.RoundTrip
import Provision.Proofs.Json.Shape
import Provision.Proofs.Json.Tokens
import Provision.Proofs.Merge.Entries
import Provision.Proofs.Merge.Faithful
import Provision.Proofs.Merge.Keyed
import Provision.Proofs.Merge.Laid
import Provision.Proofs.Merge.Layers
import Provision.Proofs.Merge.Lists
import Provision.Proofs.Merge.Monoid
import Provision.Proofs.Merge.Nodes
import Provision.Proofs.Merge.Noted
import Provision.Proofs.Merge.Pairing
import Provision.Proofs.Merge.Parts
import Provision.Proofs.MountUnit
import Provision.Proofs.MountUnit.Escape
import Provision.Proofs.MountUnit.Wanted
import Provision.Proofs.Origins
import Provision.Proofs.Outline
import Provision.Proofs.Path
import Provision.Proofs.Provenance
import Provision.Proofs.Provenance.History
import Provision.Proofs.Rendering
import Provision.Proofs.Source.Embedded
import Provision.Proofs.Source.Exclusive
import Provision.Proofs.Source.Failures
import Provision.Proofs.Source.FileMode
import Provision.Proofs.Source.Files
import Provision.Proofs.Source.Found
import Provision.Proofs.Source.Heeds
import Provision.Proofs.Source.Keys
import Provision.Proofs.Source.Names
import Provision.Proofs.Source.Places
import Provision.Proofs.Source.Rendering
import Provision.Proofs.Source.Report
import Provision.Proofs.Source.Rules
import Provision.Proofs.Source.Shape
import Provision.Proofs.Source.Sound
import Provision.Proofs.Source.Units
import Provision.Proofs.Source.Users
import Provision.Proofs.Source.Walk
import Provision.Proofs.Text.Utf8
import Provision.Proofs.Translator
import Provision.Proofs.Translator.Agree
import Provision.Proofs.Translator.CamelCase
import Provision.Proofs.Translator.Origins
import Provision.Proofs.Translator.Reached
import Provision.Proofs.Translator.Rules
import Provision.Proofs.Translator.Skips
import Provision.Proofs.Translator.Steps
import Provision.Proofs.Translator.Walk
import Provision.Proofs.Transpile
import Provision.Proofs.Transpile.Presentation
import Provision.Proofs.Transpile.Raw
import Provision.Proofs.Transpile.Stages
import Provision.Proofs.Trees
import Provision.Proofs.Trees.Files
import Provision.Proofs.Trees.Frame
import Provision.Proofs.Trees.Visits
import Provision.Proofs.Unused
import Provision.Proofs.Variant.Anchored
import Provision.Proofs.Variant.Checked
import Provision.Proofs.Variant.Ciphers
import Provision.Proofs.Variant.Document
import Provision.Proofs.Variant.Draft
import Provision.Proofs.Variant.FileContents
import Provision.Proofs.Variant.Filters
import Provision.Proofs.Variant.Heeds
import Provision.Proofs.Variant.Leaves
import Provision.Proofs.Variant.Lost
import Provision.Proofs.Variant.Printed
import Provision.Proofs.Variant.Supported
import Provision.Proofs.Variant.Traced
import Provision.Proofs.Variant.Wrapper
import Provision.Proofs.Yaml.BlockScalar
import Provision.Proofs.Yaml.ClosingQuote
import Provision.Proofs.Yaml.Cursor
import Provision.Proofs.Yaml.Extent
import Provision.Proofs.Yaml.Grammar
import Provision.Proofs.Yaml.PlainScalar
import Provision.Proofs.Yaml.QuotedScalar
import Provision.Proofs.Yaml.Scanner
import Provision.Proofs.Yaml.Trails
import Provision.Provenance
import Provision.Report
import Provision.Semver
import Provision.Source.Schema
import Provision.Source.Translate
import Provision.Source.Validate
import Provision.Text.Blank
import Provision.Text.Combining
import Provision.Text.Composition
import Provision.Text.Direction
import Provision.Text.Joining
import Provision.Text.Lines
import Provision.Text.Quoted
import Provision.Text.Table
import Provision.Text.Uppercase
import Provision.Text.Utf8
import Provision.Translator
import Provision.Transpile
import Provision.Trees
import Provision.Variant.Config
import Provision.Variant.Document
import Provision.Variant.Fcos
import Provision.Variant.Openshift
import Provision.Word
import Provision.Workspace
import Provision.Yaml.BlockScalar
import Provision.Yaml.Cursor
import Provision.Yaml.Datum
import Provision.Yaml.Folding
import Provision.Yaml.Grammar
import Provision.Yaml.PlainScalar
import Provision.Yaml.Printer
import Provision.Yaml.QuotedScalar
import Provision.Yaml.ScalarValue
import Provision.Yaml.Scanner
import Provision.Yaml.Token
import Provision.Yaml.Tree
