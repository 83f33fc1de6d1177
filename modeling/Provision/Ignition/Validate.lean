import Provision.Ignition.Flaw
import Provision.Ignition.Schema
import Provision.Ignition.Url

/-!
# Checking a config

Every part of a config is checked on its own, and lists are checked for entries that repeat an
earlier one. Nothing stops the check: all flaws are found, in the order of the document.

* `validateAs`: the flaws of a config as if it declared a given version.
* `validate`: the flaws of a config for the version it declares.
-/

set_option autoImplicit false

namespace Provision.Ignition

/-! ## Ways to check -/

/-- A finding at a trail if a condition holds. -/
def flawIf (bad : Bool) (trail : Trail) (flaw : Flaw) : List Finding :=
  if bad then [⟨trail, flaw⟩] else []

/-- The findings for each item of a list. -/
def each {α : Type} (trail : Trail) (check : Trail → α → List Finding) (items : List α) :
    List Finding :=
  items.zipIdx.flatMap fun (x, i) => check (trail.index i) x

/-- For each key of a list whether it repeats an earlier one. No key is never a repetition. -/
def repeats {α : Type} [DecidableEq α] (seen : List α) : List (Option α) → List Bool
  | [] => []
  | none :: rest => false :: repeats seen rest
  | some k :: rest => decide (k ∈ seen) :: repeats (k :: seen) rest

/-- The items of a list, each with whether its key repeats an earlier one. -/
def withRepeats {α κ : Type} [DecidableEq κ] (key : α → Option κ) (items : List α) :
    List (α × Bool) :=
  items.zip (repeats [] (items.map key))

/-- Findings for the keys that repeat an earlier one. -/
def duplicates {α κ : Type} [DecidableEq κ] (trail : Trail) (field : String) (key : α → Option κ)
    (items : List α) : List Finding :=
  each trail (fun t (x : α × Bool) => flawIf x.2 (t.key field) .duplicate) (withRepeats key items)

/-- A text unless it is empty. -/
def nonEmpty (s : String) : Option String := if s.isEmpty then none else some s

/-- An absolute path is required. -/
def checkAbsolute (path : String) (trail : Trail) : List Finding :=
  flawIf (!path.startsWith "/") trail .notAbsolute

/-- A field that came with a version. -/
def checkSince (declared : Version) (given : Bool) (major minor : Nat) (trail : Trail) :
    List Finding :=
  flawIf (given && !declared.hasReached major minor) trail (.tooEarly declared major minor)

/-! ## Resources -/

/-- The schemes that contents can be fetched by. -/
def schemes : List String := ["http", "https", "tftp", "s3", "gs", "arn", "data"]

/-- A URL must be one, of a known scheme. -/
def checkUrl (url : String) (trail : Trail) : List Finding :=
  match Url.scheme? url with
  | some scheme => flawIf (!schemes.contains scheme) trail .unknownScheme
  | none => [⟨trail, .unparsableUrl⟩]

/-- A hash names its function and has its length. -/
def checkHash (hash : String) (trail : Trail) : List Finding :=
  let isHex (c : Char) : Bool := c.isDigit || ('a' ≤ c && c ≤ 'f') || ('A' ≤ c && c ≤ 'F')
  match hash.toList with
  | 's' :: 'h' :: 'a' :: a :: b :: c :: '-' :: sum =>
    let long := a = '5' && b = '1' && c = '2'
    let short := a = '2' && b = '5' && c = '6'
    if (long || short) && sum.all isHex then
      flawIf (sum.length ≠ if long then 128 else 64) trail .wrongHashLength
    else [⟨trail, .unknownHash⟩]
  | _ => [⟨trail, .unknownHash⟩]

/-- The flaws of a resource. -/
def checkResource (trail : Trail) (r : Resource) : List Finding :=
  let headers := trail.key "httpHeaders"
  (match r.source with
    | some url => checkUrl url (trail.key "source")
    | none => []) ++
  (match r.compression with
    | some c => flawIf (!c.isEmpty && c ≠ "gzip") (trail.key "compression") .unknownCompression
    | none => []) ++
  (match r.verification.hash with
    | some hash => checkHash hash (trail.dotted "verification.hash")
    | none => []) ++
  each headers (fun t h => flawIf h.name.isEmpty (t.key "name") .unnamedHeader) r.httpHeaders ++
  duplicates headers "name" (fun h => nonEmpty h.name) r.httpHeaders ++
  flawIf (!r.httpHeaders.isEmpty && r.source.isNone) headers .headersWithoutSource

/-- The flaws of a resource that is given. -/
def checkGiven (trail : Trail) (r : Resource) : List Finding :=
  if r = {} then [] else checkResource trail r

/-! ## Sections -/

/-- The flaws of the settings. -/
def checkSettings (trail : Trail) (s : Settings) : List Finding :=
  let timeout (name : String) (value : Option Int) : List Finding :=
    flawIf (value.any (· < 0)) ((trail.key "timeouts").key name) .negativeTimeout
  each (trail.dotted "config.merge") checkResource s.config.merge ++
  checkGiven (trail.dotted "config.replace") s.config.replace ++
  each (trail.dotted "security.tls.certificateAuthorities") checkResource
    s.security.tls.certificateAuthorities ++
  timeout "httpResponseHeaders" s.timeouts.httpResponseHeaders ++
  timeout "httpTotal" s.timeouts.httpTotal

/-- The flaws of kernel arguments. -/
def checkKernelArguments (trail : Trail) (k : KernelArguments) : List Finding :=
  each (trail.key "shouldNotExist")
    (fun t a => flawIf (k.shouldExist.contains a) t .contradictoryArgument) k.shouldNotExist

/-- Entries with names that are required and differ. -/
def checkNames {α : Type} (trail : Trail) (name : α → String) (items : List α) : List Finding :=
  each trail (fun t (x : α × Bool) =>
      flawIf (name x.1).isEmpty (t.key "name") .unnamed ++ flawIf x.2 (t.key "name") .duplicate)
    (withRepeats (fun x => nonEmpty (name x)) items)

/-- The flaws of users and groups. -/
def checkPasswd (trail : Trail) (p : Passwd) : List Finding :=
  checkNames (trail.key "users") User.name p.users ++
  checkNames (trail.key "groups") Group.name p.groups

/-- The flaws of a partition. -/
def checkPartition (trail : Trail) (p : Partition) : List Finding :=
  let size (name : String) (value : Option Int) : List Finding :=
    flawIf (value.any (· < 0)) (trail.key name) .negativePartitionSize
  (match p.label with
    | some label =>
      flawIf (label.length > 36) (trail.key "label") .longLabel ++
      flawIf (label.contains ':') (trail.key "label") .labelWithColon
    | none => []) ++
  flawIf (p.number < 0) (trail.key "number") .negativePartitionNumber ++
  size "sizeMiB" p.sizeMib ++ size "startMiB" p.startMib

/-- The flaws of a disk. Labels and numbers of partitions differ within it. -/
def checkDisk (trail : Trail) (d : Disk) : List Finding :=
  let partitions := trail.key "partitions"
  let labels := repeats [] (d.partitions.map (·.label))
  let numbers := repeats [] (d.partitions.map fun p => if p.number = 0 then none else some p.number)
  (if d.device.isEmpty then [⟨trail.key "device", .diskWithoutDevice⟩]
    else checkAbsolute d.device (trail.key "device")) ++
  each partitions checkPartition d.partitions ++
  each partitions (fun t (x : Bool × Bool) =>
    flawIf x.1 (t.key "label") .duplicate ++ flawIf x.2 (t.key "number") .duplicate)
    (labels.zip numbers)

/-- The names for the levels of an array. -/
def raidLevels : List String :=
  ["linear", "raid0", "0", "stripe", "raid1", "1", "mirror", "raid4", "4", "raid5", "5", "raid6",
    "6", "raid10", "10"]

/-- The flaws of an array. -/
def checkRaid (trail : Trail) (r : Raid) : List Finding :=
  flawIf r.name.isEmpty (trail.key "name") .unnamedRaid ++
  (match r.level with
    | some level => flawIf (!raidLevels.contains level) (trail.key "level") .unknownRaidLevel
    | none => [⟨trail.key "level", .raidWithoutLevel⟩]) ++
  flawIf r.devices.isEmpty (trail.key "devices") .raidWithoutDevices

/-- The formats of filesystems. -/
def formats : List String := ["ext4", "btrfs", "xfs", "vfat", "swap", "none"]

/-- The flaws of a filesystem. -/
def checkFilesystem (trail : Trail) (f : Filesystem) : List Finding :=
  let format := trail.key "format"
  (if f.device.isEmpty then [⟨trail.key "device", .filesystemWithoutDevice⟩]
    else checkAbsolute f.device (trail.key "device")) ++
  (match f.format with
    | some name => flawIf (!name.isEmpty && !formats.contains name) format .unknownFormat
    | none => []) ++
  (match f.path with
    | some path =>
      checkAbsolute path (trail.key "path") ++
      flawIf (f.format.getD "").isEmpty format .pathWithoutFormat
    | none => [])

/-- The flaws of a server that helps unlocking. -/
def checkTang (declared : Version) (trail : Trail) (t : Tang) : List Finding :=
  (if t.url.isEmpty then [⟨trail.key "url", .tangWithoutUrl⟩]
    else checkUrl t.url (trail.key "url")) ++
  checkSince declared t.advertisement.isSome 3 4 (trail.key "advertisement")

/-- The flaws of the ways to unlock a volume. -/
def checkClevis (declared : Version) (trail : Trail) (c : Clevis) : List Finding :=
  let custom := trail.key "custom"
  each (trail.key "tang") (checkTang declared) c.tang ++
  flawIf (c.threshold.any (· < 1)) (trail.key "threshold") .lowThreshold ++
  (if c.custom = {} then []
    else
      flawIf (c.custom.pin.getD "").isEmpty (custom.key "pin") .clevisWithoutPin ++
      flawIf (!c.tang.isEmpty || c.tpm2 = some true) custom .customClevisNotAlone)

/-- The flaws of an encrypted volume. -/
def checkLuks (declared : Version) (trail : Trail) (l : Luks) : List Finding :=
  flawIf l.name.isEmpty (trail.key "name") .unnamedLuks ++
  (match l.device with
    | some device => checkAbsolute device (trail.key "device")
    | none => [⟨trail.key "device", .luksWithoutDevice⟩]) ++
  checkGiven (trail.key "keyFile") l.keyFile ++
  checkSince declared l.discard.isSome 3 4 (trail.key "discard") ++
  checkSince declared (!l.openOptions.isEmpty) 3 4 (trail.key "openOptions") ++
  checkClevis declared (trail.key "clevis") l.clevis

/-- The flaws that files, directories and links can have alike. -/
def checkNode (trail : Trail) (path : String) (user : NodeUser) (group : NodeGroup) :
    List Finding :=
  (if path.isEmpty then [⟨trail.key "path", .nodeWithoutPath⟩]
    else checkAbsolute path (trail.key "path")) ++
  flawIf (user.id.isSome && user.name.isSome) (trail.key "user") .ownerTwice ++
  flawIf (group.id.isSome && group.name.isSome) (trail.key "group") .ownerTwice

/-- A mode has twelve bits. -/
def checkMode (trail : Trail) (mode : Option Int) : List Finding :=
  flawIf (mode.any fun m => m < 0 || m > 0o7777) (trail.key "mode") .illegalMode

/-- The flaws of a file. -/
def checkFile (trail : Trail) (f : File) : List Finding :=
  checkNode trail f.path f.user f.group ++ checkMode trail f.mode ++
  checkGiven (trail.key "contents") f.contents ++
  each (trail.key "append") checkResource f.append

/-- The flaws of a directory. -/
def checkDirectory (trail : Trail) (d : Directory) : List Finding :=
  checkNode trail d.path d.user d.group ++ checkMode trail d.mode

/-- The flaws of a link. -/
def checkLink (trail : Trail) (l : Link) : List Finding :=
  checkNode trail l.path l.user l.group ++
  flawIf (l.target.getD "").isEmpty (trail.key "target") .linkWithoutTarget

/-- Files, directories and links together have one path each. -/
def checkPaths (trail : Trail) (s : Storage) : List Finding :=
  let nodes : List (String × Nat × String) :=
    s.files.zipIdx.map (fun (f, i) => ("files", i, f.path)) ++
    s.directories.zipIdx.map (fun (d, i) => ("directories", i, d.path)) ++
    s.links.zipIdx.map (fun (l, i) => ("links", i, l.path))
  (withRepeats (fun n => nonEmpty n.2.2) nodes).flatMap fun ((kind, i, _), again) =>
    flawIf again (((trail.key kind).index i).key "path") .duplicate

/-- The flaws of what is on disks. -/
def checkStorage (declared : Version) (trail : Trail) (s : Storage) : List Finding :=
  each (trail.key "disks") checkDisk s.disks ++
  each (trail.key "raid") checkRaid s.raid ++
  each (trail.key "filesystems") checkFilesystem s.filesystems ++
  each (trail.key "luks") (checkLuks declared) s.luks ++
  each (trail.key "files") checkFile s.files ++
  each (trail.key "directories") checkDirectory s.directories ++
  each (trail.key "links") checkLink s.links ++
  checkPaths trail s ++
  duplicates (trail.key "disks") "device" (fun d => nonEmpty d.device) s.disks

/-- The kinds of units. -/
def unitKinds : List String :=
  ["service", "socket", "device", "mount", "automount", "swap", "target", "path", "timer",
    "snapshot", "slice", "scope"]

/-- Whether a text is the name of a unit: no slash, and after the last dot a kind. -/
def isUnitName (name : String) : Bool :=
  let cs := name.toList
  let kind := (cs.reverse.takeWhile (· ≠ '.')).reverse
  let stem := cs.take (cs.length - kind.length - 1)
  cs.contains '.' && !stem.isEmpty && !stem.contains '/' && unitKinds.contains (String.ofList kind)

/-- Whether a text is the name of a drop-in. -/
def isDropinName (name : String) : Bool := name.endsWith ".conf"

/-- The flaws of a drop-in, and whether it repeats an earlier one. -/
def checkDropin (trail : Trail) (x : Dropin × Bool) : List Finding :=
  let name := trail.key "name"
  if x.1.name.isEmpty then [⟨name, .unnamedDropin⟩]
  else if !isDropinName x.1.name then [⟨name, .unknownDropinKind⟩]
  else flawIf x.2 name .duplicate

/-- The flaws of a unit. -/
def checkUnit (trail : Trail) (u : Unit) : List Finding :=
  (if u.name.isEmpty then [⟨trail.key "name", .unnamedUnit⟩]
    else flawIf (!isUnitName u.name) (trail.key "name") .unknownUnitKind) ++
  flawIf (u.mask = some true && u.contents.isSome) (trail.key "contents") .maskedContents ++
  each (trail.key "dropins") checkDropin
    (withRepeats (fun d => if isDropinName d.name then some d.name else none) u.dropins)

/-- The flaws of services. -/
def checkSystemd (trail : Trail) (s : Systemd) : List Finding :=
  each (trail.key "units") checkUnit s.units ++
  duplicates (trail.key "units") "name" (fun u => nonEmpty u.name) s.units

/-! ## Configs -/

/-- The flaws of a config as if it declared the given version. -/
def validateAs (declared : Version) (c : Config) : List Finding :=
  checkSettings [.key "ignition"] c.ignition ++
  checkSince declared (c.kernelArguments ≠ {}) 3 3 [.key "kernelArguments"] ++
  checkKernelArguments [.key "kernelArguments"] c.kernelArguments ++
  checkPasswd [.key "passwd"] c.passwd ++
  checkStorage declared [.key "storage"] c.storage ++
  checkSystemd [.key "systemd"] c.systemd

/-- The versions of the specification that can be checked. -/
def supportedVersions : List Version :=
  [.release 3 2 0, .release 3 3 0, .release 3 4 0, .release 3 5 0]

/-- The flaws of a config for the version it declares. A version that is none, or that is not
supported, is the only flaw that is found. -/
def validate (c : Config) : List Finding :=
  let trail : Trail := [.key "ignition", .key "version"]
  match Version.ofText? c.ignition.version with
  | none => [⟨trail, .invalidVersion⟩]
  | some version =>
    if version ∈ supportedVersions then validateAs version c
    else [⟨trail, .unsupportedVersion c.ignition.version⟩]

end Provision.Ignition
