import Provision.Path
import Provision.Semver

/-!
# What is wrong with a config

The flaws that a check of a config can find, with their words and how much they matter.
-/

set_option autoImplicit false

namespace Provision

/-- How much a diagnostic matters. Only an error makes a config unusable. -/
inductive Severity where
  | error
  | warning
  deriving DecidableEq, Repr, Inhabited

/-- The word for a severity. -/
def Severity.text : Severity → String
  | .error => "error"
  | .warning => "warning"

namespace Ignition

/-- A flaw of a config. -/
inductive Flaw where
  | unsupportedVersion (version : String)
  | invalidVersion
  /-- A field that the declared version does not have yet. -/
  | tooEarly (declared : Version) (major minor : Nat)
  | negativeTimeout
  | unparsableUrl
  | unknownScheme
  | unknownCompression
  | unknownHash
  | wrongHashLength
  | unnamedHeader
  | headersWithoutSource
  | duplicate
  | contradictoryArgument
  | unnamed
  | diskWithoutDevice
  | notAbsolute
  | longLabel
  | labelWithColon
  | negativePartitionNumber
  | negativePartitionSize
  | unnamedRaid
  | unknownRaidLevel
  | raidWithoutLevel
  | raidWithoutDevices
  | filesystemWithoutDevice
  | unknownFormat
  | pathWithoutFormat
  | unnamedLuks
  | luksWithoutDevice
  | tangWithoutUrl
  | lowThreshold
  | clevisWithoutPin
  | customClevisNotAlone
  | nodeWithoutPath
  | ownerTwice
  | illegalMode
  | linkWithoutTarget
  | unnamedUnit
  | unknownUnitKind
  | maskedContents
  | unnamedDropin
  | unknownDropinKind
  deriving DecidableEq, Repr, Inhabited

/-- The words for a flaw. -/
def Flaw.message : Flaw → String
  | .unsupportedVersion version => "unsupported config version " ++ version
  | .invalidVersion => "invalid config version"
  | .tooEarly declared major minor =>
    "field not supported in Ignition spec version " ++ declared.text ++ "; requires " ++
      toString major ++ "." ++ toString minor ++ ".0 or later"
  | .negativeTimeout => "timeout must be non-negative"
  | .unparsableUrl => "unable to parse url"
  | .unknownScheme => "invalid url scheme"
  | .unknownCompression => "invalid compression method"
  | .unknownHash => "unrecognized hash function"
  | .wrongHashLength => "incorrect size for hash sum"
  | .unnamedHeader => "header name is required"
  | .headersWithoutSource => "cannot use httpHeaders without a source"
  | .duplicate => "duplicate entry defined"
  | .contradictoryArgument => "argument is both required and forbidden"
  | .unnamed => "name is required"
  | .diskWithoutDevice => "disk device is required"
  | .notAbsolute => "path not absolute"
  | .longLabel => "partition labels may not exceed 36 characters"
  | .labelWithColon => "partition labels may not contain colons"
  | .negativePartitionNumber => "partition number must not be negative"
  | .negativePartitionSize => "partition dimensions must not be negative"
  | .unnamedRaid => "raid name is required"
  | .unknownRaidLevel => "unrecognized raid level"
  | .raidWithoutLevel => "raid level is required"
  | .raidWithoutDevices => "raid devices are required"
  | .filesystemWithoutDevice => "filesystem device is required"
  | .unknownFormat => "invalid filesystem format"
  | .pathWithoutFormat => "filesystem format is required when a path is set"
  | .unnamedLuks => "luks name is required"
  | .luksWithoutDevice => "luks device is required"
  | .tangWithoutUrl => "tang url is required"
  | .lowThreshold => "clevis threshold must be at least 1"
  | .clevisWithoutPin => "clevis pin is required"
  | .customClevisNotAlone => "cannot use custom clevis config with tpm2 or tang"
  | .nodeWithoutPath => "path is required"
  | .ownerTwice => "cannot set both id and name"
  | .illegalMode => "illegal file mode"
  | .linkWithoutTarget => "link target is required"
  | .unnamedUnit => "unit name is required"
  | .unknownUnitKind => "invalid systemd unit extension"
  | .maskedContents => "unit is masked; contents will be ignored"
  | .unnamedDropin => "drop-in name is required"
  | .unknownDropinKind => "invalid systemd drop-in extension"

/-- Only contents that a mask hides do no harm. -/
def Flaw.severity : Flaw → Severity
  | .maskedContents => .warning
  | _ => .error

/-- A flaw and the field that has it. -/
structure Finding where
  trail : Trail
  flaw : Flaw
  deriving DecidableEq, Repr, Inhabited

namespace Finding

/-- How much the finding matters. -/
def severity (f : Finding) : Severity := f.flaw.severity

/-- Whether the config is unusable for it. -/
def isError (f : Finding) : Bool := f.severity = .error

/-- The finding on one line. -/
def text (f : Finding) : String :=
  f.severity.text ++ " at " ++ f.trail.text ++ ": " ++ f.flaw.message

end Finding

/-- Findings as a numbered list. -/
def findingsText (findings : List Finding) : String :=
  "Validation produced " ++ toString findings.length ++ " finding(s):" ++
    String.join (findings.zipIdx.map fun (f, i) => "\n" ++ toString (i + 1) ++ ". " ++ f.text)

end Ignition

end Provision
