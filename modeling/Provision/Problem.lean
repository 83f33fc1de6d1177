import Provision.Decode.Failure
import Provision.Files.Tree
import Provision.Ignition.Flaw

/-!
# Problems of a config

Everything that a diagnostic can be about, from a document that cannot be read to a config that
machines would not take.

* `Problem.message`: the words for a problem.
-/

set_option autoImplicit false

namespace Provision

/-- A problem of a config. -/
inductive Problem where
  -- reading
  | noVariant
  | invalidVersion
  | unknownVersion (variant version : String)
  /-- The text is no document. -/
  | malformed
  | undecodable (failure : Decode.Failure)
  | unusedKey (key : String)
  -- what the config says
  | severalContents
  | treeWithoutLocal
  | decimalMode
  | mountUnitWithoutPath
  | mountUnitWithoutFormat
  | unknownLayout
  | tooFewMirrorDevices
  | severalUnitContents
  | unnamedExtension
  | unnamedConfig
  | noRole
  | unknownKernelType
  -- local files
  | noFilesDirectory
  | outsideFilesDirectory
  | specialFile
  | treeNotDirectory
  | unreadable (path : String) (fault : Files.Fault)
  | rendering (name detail : String)
  -- what is made of it
  | nodeExists
  | unsupportedDirectory
  | unsupportedLink
  | unsupportedGroup
  | unsupportedUser
  | unsupportedUserField (field : String)
  | unsupportedBtrfs
  | unsupportedNoFilesystem
  | unsupportedAppend
  | unsupportedCompression
  | unsupportedHeaders
  | unsupportedFileScheme
  | misplacedKernelArguments
  | unsupportedDisk
  | unsupportedFilesystem
  | unsupportedLuks
  | unsupportedRaid
  | unsupportedClevis
  | wrongPartitionNumber
  | elided
  | flaw (flaw : Ignition.Flaw)
  /-- A remark in words of its own. -/
  | note (text : String)
  deriving DecidableEq, Repr, Inhabited

namespace Problem

/-- The end of many messages. -/
def unsupported (what : String) : String := what ++ " not supported in this spec version"

/-- The words for a problem. -/
def message : Problem → String
  | .noVariant => "error parsing variant; must be specified"
  | .invalidVersion => "error parsing version; must be a valid semver"
  | .unknownVersion variant version =>
    "No translator exists for variant " ++ variant ++ " with version " ++ version
  | .malformed => "<yaml>"
  | .undecodable f => f.message
  | .unusedKey key => "Unused key " ++ key
  | .severalContents => "only one of the following can be set: inline, local, source"
  | .treeWithoutLocal => "local is required"
  | .decimalMode => "unreasonable mode would be reasonable if specified in octal; " ++
      "remember to add a leading zero"
  | .mountUnitWithoutPath => "path is required if with_mount_unit is true"
  | .mountUnitWithoutFormat => "format is required if with_mount_unit is true"
  | .unknownLayout => "layout must be one of: aarch64, ppc64le, x86_64"
  | .tooFewMirrorDevices => "mirroring requires at least two devices"
  | .severalUnitContents => "only one of the following can be set: contents, contents_local"
  | .unnamedExtension => "field \"name\" is required"
  | .unnamedConfig => "metadata.name is required"
  | .noRole => "machineconfiguration.openshift.io/role label is required"
  | .unknownKernelType => "must be empty, \"default\", or \"realtime\""
  | .noFilesDirectory => "local file paths are relative to a files directory that must be " ++
      "specified with -d/--files-dir"
  | .outsideFilesDirectory => "local file path traverses outside the files directory"
  | .specialFile => "trees may only contain files, directories, and symlinks"
  | .treeNotDirectory => "root of tree must be a directory"
  | .unreadable path fault => "open " ++ path ++ ": " ++ fault.message
  | .rendering name detail => "rendering " ++ name ++ ": " ++ detail
  | .nodeExists => "matching filesystem node has existing contents or different type"
  | .unsupportedDirectory => unsupported "directories are"
  | .unsupportedLink => unsupported "links are"
  | .unsupportedGroup => unsupported "groups are"
  | .unsupportedUser => unsupported "users other than \"core\" are"
  | .unsupportedUserField field => unsupported ("user field \"" ++ field ++ "\" is")
  | .unsupportedBtrfs => unsupported "btrfs is"
  | .unsupportedNoFilesystem => unsupported "format \"none\" is"
  | .unsupportedAppend => unsupported "appending to files is"
  | .unsupportedCompression => unsupported "compression is"
  | .unsupportedHeaders => unsupported "file HTTP headers are"
  | .unsupportedFileScheme => "file contents source must be data URL in this spec version"
  | .misplacedKernelArguments => "this field cannot be used for kernel arguments in this spec " ++
      "version; use openshift.kernel_arguments instead"
  | .unsupportedDisk => unsupported "disk customization is"
  | .unsupportedFilesystem => unsupported "filesystem customization is"
  | .unsupportedLuks => unsupported "luks is"
  | .unsupportedRaid => unsupported "raid is"
  | .unsupportedClevis => unsupported "clevis is"
  | .wrongPartitionNumber => "incorrect partition number; a new partition will be created using " ++
      "reserved label"
  | .elided => "field ignored in raw mode"
  | .flaw f => f.message
  | .note words => words

end Problem

end Provision
