import Provision.Decode.Codec

/-!
# Configs as machines read them

One structure for all versions of the specification. Unset and empty fields are not written, so
that a config has exactly the paths that were given.
-/

set_option autoImplicit false

namespace Provision.Ignition

open Decode (Codec RecordField)

/-- A header sent when fetching. -/
structure Header where
  name : String := ""
  value : Option String := none
  deriving DecidableEq, Repr, Inhabited

/-- What fetched contents must hash to. -/
structure Verification where
  hash : Option String := none
  deriving DecidableEq, Repr, Inhabited

/-- Contents that are fetched from a URL. -/
structure Resource where
  compression : Option String := none
  httpHeaders : List Header := []
  source : Option String := none
  verification : Verification := {}
  deriving DecidableEq, Repr, Inhabited

/-- Other configs that are merged into this one, and one that replaces it. -/
structure References where
  merge : List Resource := []
  replace : Resource := {}
  deriving DecidableEq, Repr, Inhabited

/-- Proxies for fetching. -/
structure Proxy where
  httpProxy : Option String := none
  httpsProxy : Option String := none
  noProxy : List String := []
  deriving DecidableEq, Repr, Inhabited

/-- Certificate authorities beyond those of the system. -/
structure Tls where
  certificateAuthorities : List Resource := []
  deriving DecidableEq, Repr, Inhabited

/-- What to trust when fetching. -/
structure Security where
  tls : Tls := {}
  deriving DecidableEq, Repr, Inhabited

/-- How long fetching may take, in seconds. -/
structure Timeouts where
  httpResponseHeaders : Option Int := none
  httpTotal : Option Int := none
  deriving DecidableEq, Repr, Inhabited

/-- Settings of the provisioning itself. -/
structure Settings where
  /-- The version of the specification. -/
  version : String := ""
  config : References := {}
  proxy : Proxy := {}
  security : Security := {}
  timeouts : Timeouts := {}
  deriving DecidableEq, Repr, Inhabited

/-- Kernel arguments that must be there or must not. -/
structure KernelArguments where
  shouldExist : List String := []
  shouldNotExist : List String := []
  deriving DecidableEq, Repr, Inhabited

/-- A user. -/
structure User where
  name : String := ""
  passwordHash : Option String := none
  sshAuthorizedKeys : List String := []
  uid : Option Int := none
  gecos : Option String := none
  homeDir : Option String := none
  noCreateHome : Option Bool := none
  primaryGroup : Option String := none
  groups : List String := []
  noUserGroup : Option Bool := none
  noLogInit : Option Bool := none
  shell : Option String := none
  shouldExist : Option Bool := none
  system : Option Bool := none
  deriving DecidableEq, Repr, Inhabited

/-- A group of users. -/
structure Group where
  name : String := ""
  gid : Option Int := none
  passwordHash : Option String := none
  shouldExist : Option Bool := none
  system : Option Bool := none
  deriving DecidableEq, Repr, Inhabited

/-- Users and groups. -/
structure Passwd where
  users : List User := []
  groups : List Group := []
  deriving DecidableEq, Repr, Inhabited

/-- A partition of a disk. -/
structure Partition where
  label : Option String := none
  number : Int := 0
  sizeMib : Option Int := none
  startMib : Option Int := none
  typeGuid : Option String := none
  guid : Option String := none
  wipePartitionEntry : Option Bool := none
  shouldExist : Option Bool := none
  resize : Option Bool := none
  deriving DecidableEq, Repr, Inhabited

/-- A disk and its partitions. -/
structure Disk where
  device : String := ""
  wipeTable : Option Bool := none
  partitions : List Partition := []
  deriving DecidableEq, Repr, Inhabited

/-- An array of several devices. -/
structure Raid where
  name : String := ""
  level : Option String := none
  devices : List String := []
  spares : Option Int := none
  options : List String := []
  deriving DecidableEq, Repr, Inhabited

/-- A filesystem on a device. -/
structure Filesystem where
  device : String := ""
  format : Option String := none
  path : Option String := none
  wipeFilesystem : Option Bool := none
  label : Option String := none
  uuid : Option String := none
  options : List String := []
  mountOptions : List String := []
  deriving DecidableEq, Repr, Inhabited

/-- A method of unlocking with a configuration of its own. -/
structure ClevisCustom where
  config : Option String := none
  needsNetwork : Option Bool := none
  pin : Option String := none
  deriving DecidableEq, Repr, Inhabited

/-- A server that helps unlocking. -/
structure Tang where
  url : String := ""
  thumbprint : Option String := none
  advertisement : Option String := none
  deriving DecidableEq, Repr, Inhabited

/-- How an encrypted volume is unlocked without a passphrase. -/
structure Clevis where
  custom : ClevisCustom := {}
  tang : List Tang := []
  threshold : Option Int := none
  tpm2 : Option Bool := none
  deriving DecidableEq, Repr, Inhabited

/-- An encrypted volume. -/
structure Luks where
  name : String := ""
  device : Option String := none
  keyFile : Resource := {}
  label : Option String := none
  uuid : Option String := none
  options : List String := []
  wipeVolume : Option Bool := none
  clevis : Clevis := {}
  discard : Option Bool := none
  openOptions : List String := []
  deriving DecidableEq, Repr, Inhabited

/-- The owner of a node of the file tree. -/
structure NodeUser where
  id : Option Int := none
  name : Option String := none
  deriving DecidableEq, Repr, Inhabited

/-- The group of a node of the file tree. -/
structure NodeGroup where
  id : Option Int := none
  name : Option String := none
  deriving DecidableEq, Repr, Inhabited

/-- A file. -/
structure File where
  path : String := ""
  overwrite : Option Bool := none
  user : NodeUser := {}
  group : NodeGroup := {}
  contents : Resource := {}
  append : List Resource := []
  mode : Option Int := none
  deriving DecidableEq, Repr, Inhabited

/-- A directory. -/
structure Directory where
  path : String := ""
  overwrite : Option Bool := none
  user : NodeUser := {}
  group : NodeGroup := {}
  mode : Option Int := none
  deriving DecidableEq, Repr, Inhabited

/-- A symbolic or hard link. -/
structure Link where
  path : String := ""
  overwrite : Option Bool := none
  user : NodeUser := {}
  group : NodeGroup := {}
  target : Option String := none
  hard : Option Bool := none
  deriving DecidableEq, Repr, Inhabited

/-- Disks and what is on them. -/
structure Storage where
  disks : List Disk := []
  raid : List Raid := []
  filesystems : List Filesystem := []
  luks : List Luks := []
  files : List File := []
  directories : List Directory := []
  links : List Link := []
  deriving DecidableEq, Repr, Inhabited

/-- A fragment that changes a unit. -/
structure Dropin where
  name : String := ""
  contents : Option String := none
  deriving DecidableEq, Repr, Inhabited

/-- A unit of the service manager. -/
structure Unit where
  name : String := ""
  enabled : Option Bool := none
  mask : Option Bool := none
  contents : Option String := none
  dropins : List Dropin := []
  deriving DecidableEq, Repr, Inhabited

/-- System services. -/
structure Systemd where
  units : List Unit := []
  deriving DecidableEq, Repr, Inhabited

/-- A config. The version it declares decides which fields it may have. -/
structure Config where
  ignition : Settings := {}
  kernelArguments : KernelArguments := {}
  passwd : Passwd := {}
  storage : Storage := {}
  systemd : Systemd := {}
  deriving DecidableEq, Repr, Inhabited

/-! ## Forms -/

/-- The fields of `Header`. -/
def Header.fields : List (RecordField Header) :=
  [ .sparse "" "name" .text (·.name) (fun x r => { r with name := x }),
    .optional "value" .text (·.value) (fun x r => { r with value := x }) ]

/-- The form of `Header`. -/
def Header.codec : Codec Header := .record "HttpHeader" {} Header.fields

/-- The fields of `Verification`. -/
def Verification.fields : List (RecordField Verification) :=
  [ .optional "hash" .text (·.hash) (fun x r => { r with hash := x }) ]

/-- The form of `Verification`. -/
def Verification.codec : Codec Verification := .record "Verification" {} Verification.fields

/-- The fields of `Resource`. -/
def Resource.fields : List (RecordField Resource) :=
  [ .optional "compression" .text (·.compression) (fun x r => { r with compression := x }),
    .sparse [] "httpHeaders" (.list Header.codec)
      (·.httpHeaders) (fun x r => { r with httpHeaders := x }),
    .optional "source" .text (·.source) (fun x r => { r with source := x }),
    .sparse {} "verification" Verification.codec
      (·.verification) (fun x r => { r with verification := x }) ]

/-- The form of `Resource`. -/
def Resource.codec : Codec Resource := .record "Resource" {} Resource.fields

/-- The fields of `References`. -/
def References.fields : List (RecordField References) :=
  [ .sparse [] "merge" (.list Resource.codec) (·.merge) (fun x r => { r with merge := x }),
    .sparse {} "replace" Resource.codec (·.replace) (fun x r => { r with replace := x }) ]

/-- The form of `References`. -/
def References.codec : Codec References := .record "IgnitionConfig" {} References.fields

/-- The fields of `Proxy`. -/
def Proxy.fields : List (RecordField Proxy) :=
  [ .optional "httpProxy" .text (·.httpProxy) (fun x r => { r with httpProxy := x }),
    .optional "httpsProxy" .text (·.httpsProxy) (fun x r => { r with httpsProxy := x }),
    .sparse [] "noProxy" (.list .text) (·.noProxy) (fun x r => { r with noProxy := x }) ]

/-- The form of `Proxy`. -/
def Proxy.codec : Codec Proxy := .record "Proxy" {} Proxy.fields

/-- The fields of `Tls`. -/
def Tls.fields : List (RecordField Tls) :=
  [ .sparse [] "certificateAuthorities" (.list Resource.codec)
      (·.certificateAuthorities) (fun x r => { r with certificateAuthorities := x }) ]

/-- The form of `Tls`. -/
def Tls.codec : Codec Tls := .record "Tls" {} Tls.fields

/-- The fields of `Security`. -/
def Security.fields : List (RecordField Security) :=
  [ .sparse {} "tls" Tls.codec (·.tls) (fun x r => { r with tls := x }) ]

/-- The form of `Security`. -/
def Security.codec : Codec Security := .record "Security" {} Security.fields

/-- The fields of `Timeouts`. -/
def Timeouts.fields : List (RecordField Timeouts) :=
  [ .optional "httpResponseHeaders" .int
      (·.httpResponseHeaders) (fun x r => { r with httpResponseHeaders := x }),
    .optional "httpTotal" .int (·.httpTotal) (fun x r => { r with httpTotal := x }) ]

/-- The form of `Timeouts`. -/
def Timeouts.codec : Codec Timeouts := .record "Timeouts" {} Timeouts.fields

/-- The fields of `Settings`. -/
def Settings.fields : List (RecordField Settings) :=
  [ .plain "version" .text (·.version) (fun x r => { r with version := x }),
    .sparse {} "config" References.codec (·.config) (fun x r => { r with config := x }),
    .sparse {} "proxy" Proxy.codec (·.proxy) (fun x r => { r with proxy := x }),
    .sparse {} "security" Security.codec (·.security) (fun x r => { r with security := x }),
    .sparse {} "timeouts" Timeouts.codec (·.timeouts) (fun x r => { r with timeouts := x }) ]

/-- The form of `Settings`. -/
def Settings.codec : Codec Settings := .record "Ignition" {} Settings.fields

/-- The fields of `KernelArguments`. -/
def KernelArguments.fields : List (RecordField KernelArguments) :=
  [ .sparse [] "shouldExist" (.list .text) (·.shouldExist) (fun x r => { r with shouldExist := x }),
    .sparse [] "shouldNotExist" (.list .text)
      (·.shouldNotExist) (fun x r => { r with shouldNotExist := x }) ]

/-- The form of `KernelArguments`. -/
def KernelArguments.codec : Codec KernelArguments :=
  .record "KernelArguments" {} KernelArguments.fields

/-- The fields of `User`. -/
def User.fields : List (RecordField User) :=
  [ .sparse "" "name" .text (·.name) (fun x r => { r with name := x }),
    .optional "passwordHash" .text (·.passwordHash) (fun x r => { r with passwordHash := x }),
    .sparse [] "sshAuthorizedKeys" (.list .text)
      (·.sshAuthorizedKeys) (fun x r => { r with sshAuthorizedKeys := x }),
    .optional "uid" .int (·.uid) (fun x r => { r with uid := x }),
    .optional "gecos" .text (·.gecos) (fun x r => { r with gecos := x }),
    .optional "homeDir" .text (·.homeDir) (fun x r => { r with homeDir := x }),
    .optional "noCreateHome" .bool (·.noCreateHome) (fun x r => { r with noCreateHome := x }),
    .optional "primaryGroup" .text (·.primaryGroup) (fun x r => { r with primaryGroup := x }),
    .sparse [] "groups" (.list .text) (·.groups) (fun x r => { r with groups := x }),
    .optional "noUserGroup" .bool (·.noUserGroup) (fun x r => { r with noUserGroup := x }),
    .optional "noLogInit" .bool (·.noLogInit) (fun x r => { r with noLogInit := x }),
    .optional "shell" .text (·.shell) (fun x r => { r with shell := x }),
    .optional "shouldExist" .bool (·.shouldExist) (fun x r => { r with shouldExist := x }),
    .optional "system" .bool (·.system) (fun x r => { r with system := x }) ]

/-- The form of `User`. -/
def User.codec : Codec User := .record "User" {} User.fields

/-- The fields of `Group`. -/
def Group.fields : List (RecordField Group) :=
  [ .sparse "" "name" .text (·.name) (fun x r => { r with name := x }),
    .optional "gid" .int (·.gid) (fun x r => { r with gid := x }),
    .optional "passwordHash" .text (·.passwordHash) (fun x r => { r with passwordHash := x }),
    .optional "shouldExist" .bool (·.shouldExist) (fun x r => { r with shouldExist := x }),
    .optional "system" .bool (·.system) (fun x r => { r with system := x }) ]

/-- The form of `Group`. -/
def Group.codec : Codec Group := .record "Group" {} Group.fields

/-- The fields of `Passwd`. -/
def Passwd.fields : List (RecordField Passwd) :=
  [ .sparse [] "users" (.list User.codec) (·.users) (fun x r => { r with users := x }),
    .sparse [] "groups" (.list Group.codec) (·.groups) (fun x r => { r with groups := x }) ]

/-- The form of `Passwd`. -/
def Passwd.codec : Codec Passwd := .record "Passwd" {} Passwd.fields

/-- The fields of `Partition`. -/
def Partition.fields : List (RecordField Partition) :=
  [ .optional "label" .text (·.label) (fun x r => { r with label := x }),
    .sparse 0 "number" .int (·.number) (fun x r => { r with number := x }),
    .optional "sizeMiB" .int (·.sizeMib) (fun x r => { r with sizeMib := x }),
    .optional "startMiB" .int (·.startMib) (fun x r => { r with startMib := x }),
    .optional "typeGuid" .text (·.typeGuid) (fun x r => { r with typeGuid := x }),
    .optional "guid" .text (·.guid) (fun x r => { r with guid := x }),
    .optional "wipePartitionEntry" .bool
      (·.wipePartitionEntry) (fun x r => { r with wipePartitionEntry := x }),
    .optional "shouldExist" .bool (·.shouldExist) (fun x r => { r with shouldExist := x }),
    .optional "resize" .bool (·.resize) (fun x r => { r with resize := x }) ]

/-- The form of `Partition`. -/
def Partition.codec : Codec Partition := .record "Partition" {} Partition.fields

/-- The fields of `Disk`. -/
def Disk.fields : List (RecordField Disk) :=
  [ .sparse "" "device" .text (·.device) (fun x r => { r with device := x }),
    .optional "wipeTable" .bool (·.wipeTable) (fun x r => { r with wipeTable := x }),
    .sparse [] "partitions" (.list Partition.codec)
      (·.partitions) (fun x r => { r with partitions := x }) ]

/-- The form of `Disk`. -/
def Disk.codec : Codec Disk := .record "Disk" {} Disk.fields

/-- The fields of `Raid`. -/
def Raid.fields : List (RecordField Raid) :=
  [ .sparse "" "name" .text (·.name) (fun x r => { r with name := x }),
    .optional "level" .text (·.level) (fun x r => { r with level := x }),
    .sparse [] "devices" (.list .text) (·.devices) (fun x r => { r with devices := x }),
    .optional "spares" .int (·.spares) (fun x r => { r with spares := x }),
    .sparse [] "options" (.list .text) (·.options) (fun x r => { r with options := x }) ]

/-- The form of `Raid`. -/
def Raid.codec : Codec Raid := .record "Raid" {} Raid.fields

/-- The fields of `Filesystem`. -/
def Filesystem.fields : List (RecordField Filesystem) :=
  [ .sparse "" "device" .text (·.device) (fun x r => { r with device := x }),
    .optional "format" .text (·.format) (fun x r => { r with format := x }),
    .optional "path" .text (·.path) (fun x r => { r with path := x }),
    .optional "wipeFilesystem" .bool (·.wipeFilesystem) (fun x r => { r with wipeFilesystem := x }),
    .optional "label" .text (·.label) (fun x r => { r with label := x }),
    .optional "uuid" .text (·.uuid) (fun x r => { r with uuid := x }),
    .sparse [] "options" (.list .text) (·.options) (fun x r => { r with options := x }),
    .sparse [] "mountOptions" (.list .text)
      (·.mountOptions) (fun x r => { r with mountOptions := x }) ]

/-- The form of `Filesystem`. -/
def Filesystem.codec : Codec Filesystem := .record "Filesystem" {} Filesystem.fields

/-- The fields of `ClevisCustom`. -/
def ClevisCustom.fields : List (RecordField ClevisCustom) :=
  [ .optional "config" .text (·.config) (fun x r => { r with config := x }),
    .optional "needsNetwork" .bool (·.needsNetwork) (fun x r => { r with needsNetwork := x }),
    .optional "pin" .text (·.pin) (fun x r => { r with pin := x }) ]

/-- The form of `ClevisCustom`. -/
def ClevisCustom.codec : Codec ClevisCustom := .record "ClevisCustom" {} ClevisCustom.fields

/-- The fields of `Tang`. -/
def Tang.fields : List (RecordField Tang) :=
  [ .sparse "" "url" .text (·.url) (fun x r => { r with url := x }),
    .optional "thumbprint" .text (·.thumbprint) (fun x r => { r with thumbprint := x }),
    .optional "advertisement" .text (·.advertisement) (fun x r => { r with advertisement := x }) ]

/-- The form of `Tang`. -/
def Tang.codec : Codec Tang := .record "Tang" {} Tang.fields

/-- The fields of `Clevis`. -/
def Clevis.fields : List (RecordField Clevis) :=
  [ .sparse {} "custom" ClevisCustom.codec (·.custom) (fun x r => { r with custom := x }),
    .sparse [] "tang" (.list Tang.codec) (·.tang) (fun x r => { r with tang := x }),
    .optional "threshold" .int (·.threshold) (fun x r => { r with threshold := x }),
    .optional "tpm2" .bool (·.tpm2) (fun x r => { r with tpm2 := x }) ]

/-- The form of `Clevis`. -/
def Clevis.codec : Codec Clevis := .record "Clevis" {} Clevis.fields

/-- The fields of `Luks`. -/
def Luks.fields : List (RecordField Luks) :=
  [ .sparse "" "name" .text (·.name) (fun x r => { r with name := x }),
    .optional "device" .text (·.device) (fun x r => { r with device := x }),
    .sparse {} "keyFile" Resource.codec (·.keyFile) (fun x r => { r with keyFile := x }),
    .optional "label" .text (·.label) (fun x r => { r with label := x }),
    .optional "uuid" .text (·.uuid) (fun x r => { r with uuid := x }),
    .sparse [] "options" (.list .text) (·.options) (fun x r => { r with options := x }),
    .optional "wipeVolume" .bool (·.wipeVolume) (fun x r => { r with wipeVolume := x }),
    .sparse {} "clevis" Clevis.codec (·.clevis) (fun x r => { r with clevis := x }),
    .optional "discard" .bool (·.discard) (fun x r => { r with discard := x }),
    .sparse [] "openOptions" (.list .text) (·.openOptions)
      (fun x r => { r with openOptions := x }) ]

/-- The form of `Luks`. -/
def Luks.codec : Codec Luks := .record "Luks" {} Luks.fields

/-- The fields of `NodeUser`. -/
def NodeUser.fields : List (RecordField NodeUser) :=
  [ .optional "id" .int (·.id) (fun x r => { r with id := x }),
    .optional "name" .text (·.name) (fun x r => { r with name := x }) ]

/-- The form of `NodeUser`. -/
def NodeUser.codec : Codec NodeUser := .record "NodeUser" {} NodeUser.fields

/-- The fields of `NodeGroup`. -/
def NodeGroup.fields : List (RecordField NodeGroup) :=
  [ .optional "id" .int (·.id) (fun x r => { r with id := x }),
    .optional "name" .text (·.name) (fun x r => { r with name := x }) ]

/-- The form of `NodeGroup`. -/
def NodeGroup.codec : Codec NodeGroup := .record "NodeGroup" {} NodeGroup.fields

/-- The fields of `File`. -/
def File.fields : List (RecordField File) :=
  [ .sparse "" "path" .text (·.path) (fun x r => { r with path := x }),
    .optional "overwrite" .bool (·.overwrite) (fun x r => { r with overwrite := x }),
    .sparse {} "user" NodeUser.codec (·.user) (fun x r => { r with user := x }),
    .sparse {} "group" NodeGroup.codec (·.group) (fun x r => { r with group := x }),
    .sparse {} "contents" Resource.codec (·.contents) (fun x r => { r with contents := x }),
    .sparse [] "append" (.list Resource.codec) (·.append) (fun x r => { r with append := x }),
    .optional "mode" .int (·.mode) (fun x r => { r with mode := x }) ]

/-- The form of `File`. -/
def File.codec : Codec File := .record "File" {} File.fields

/-- The fields of `Directory`. -/
def Directory.fields : List (RecordField Directory) :=
  [ .sparse "" "path" .text (·.path) (fun x r => { r with path := x }),
    .optional "overwrite" .bool (·.overwrite) (fun x r => { r with overwrite := x }),
    .sparse {} "user" NodeUser.codec (·.user) (fun x r => { r with user := x }),
    .sparse {} "group" NodeGroup.codec (·.group) (fun x r => { r with group := x }),
    .optional "mode" .int (·.mode) (fun x r => { r with mode := x }) ]

/-- The form of `Directory`. -/
def Directory.codec : Codec Directory := .record "Directory" {} Directory.fields

/-- The fields of `Link`. -/
def Link.fields : List (RecordField Link) :=
  [ .sparse "" "path" .text (·.path) (fun x r => { r with path := x }),
    .optional "overwrite" .bool (·.overwrite) (fun x r => { r with overwrite := x }),
    .sparse {} "user" NodeUser.codec (·.user) (fun x r => { r with user := x }),
    .sparse {} "group" NodeGroup.codec (·.group) (fun x r => { r with group := x }),
    .optional "target" .text (·.target) (fun x r => { r with target := x }),
    .optional "hard" .bool (·.hard) (fun x r => { r with hard := x }) ]

/-- The form of `Link`. -/
def Link.codec : Codec Link := .record "Link" {} Link.fields

/-- The fields of `Storage`. -/
def Storage.fields : List (RecordField Storage) :=
  [ .sparse [] "disks" (.list Disk.codec) (·.disks) (fun x r => { r with disks := x }),
    .sparse [] "raid" (.list Raid.codec) (·.raid) (fun x r => { r with raid := x }),
    .sparse [] "filesystems" (.list Filesystem.codec)
      (·.filesystems) (fun x r => { r with filesystems := x }),
    .sparse [] "luks" (.list Luks.codec) (·.luks) (fun x r => { r with luks := x }),
    .sparse [] "files" (.list File.codec) (·.files) (fun x r => { r with files := x }),
    .sparse [] "directories" (.list Directory.codec)
      (·.directories) (fun x r => { r with directories := x }),
    .sparse [] "links" (.list Link.codec) (·.links) (fun x r => { r with links := x }) ]

/-- The form of `Storage`. -/
def Storage.codec : Codec Storage := .record "Storage" {} Storage.fields

/-- The fields of `Dropin`. -/
def Dropin.fields : List (RecordField Dropin) :=
  [ .sparse "" "name" .text (·.name) (fun x r => { r with name := x }),
    .optional "contents" .text (·.contents) (fun x r => { r with contents := x }) ]

/-- The form of `Dropin`. -/
def Dropin.codec : Codec Dropin := .record "Dropin" {} Dropin.fields

/-- The fields of `Unit`. -/
def Unit.fields : List (RecordField Unit) :=
  [ .sparse "" "name" .text (·.name) (fun x r => { r with name := x }),
    .optional "enabled" .bool (·.enabled) (fun x r => { r with enabled := x }),
    .optional "mask" .bool (·.mask) (fun x r => { r with mask := x }),
    .optional "contents" .text (·.contents) (fun x r => { r with contents := x }),
    .sparse [] "dropins" (.list Dropin.codec) (·.dropins) (fun x r => { r with dropins := x }) ]

/-- The form of `Unit`. -/
def Unit.codec : Codec Unit := .record "Unit" {} Unit.fields

/-- The fields of `Systemd`. -/
def Systemd.fields : List (RecordField Systemd) :=
  [ .sparse [] "units" (.list Unit.codec) (·.units) (fun x r => { r with units := x }) ]

/-- The form of `Systemd`. -/
def Systemd.codec : Codec Systemd := .record "Systemd" {} Systemd.fields

/-- The fields of `Config`. -/
def Config.fields : List (RecordField Config) :=
  [ .plain "ignition" Settings.codec (·.ignition) (fun x r => { r with ignition := x }),
    .sparse {} "kernelArguments" KernelArguments.codec
      (·.kernelArguments) (fun x r => { r with kernelArguments := x }),
    .sparse {} "passwd" Passwd.codec (·.passwd) (fun x r => { r with passwd := x }),
    .sparse {} "storage" Storage.codec (·.storage) (fun x r => { r with storage := x }),
    .sparse {} "systemd" Systemd.codec (·.systemd) (fun x r => { r with systemd := x }) ]

/-- The form of `Config`. -/
def Config.codec : Codec Config := .record "Config" {} Config.fields

end Provision.Ignition
