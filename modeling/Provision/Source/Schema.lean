import Provision.Decode.Codec

/-!
# Configs as people write them

The sections that all variants share. Every field may be left out, and every field is written, also
one that was left out: what a document has beyond that was never read.
-/

set_option autoImplicit false

namespace Provision.Source

open Decode (Codec RecordField)

/-- A header sent when fetching. -/
structure Header where
  name : String := ""
  value : Option String := none
  deriving DecidableEq, Repr, Inhabited

/-- What fetched contents must hash to. -/
structure Verification where
  hash : Option String := none
  deriving DecidableEq, Repr, Inhabited

/-- Contents that are written in place, read from a local file, or fetched from a URL. At most
one of the three may be given. -/
structure Resource where
  compression : Option String := none
  httpHeaders : List Header := []
  source : Option String := none
  inline : Option String := none
  localPath : Option String := none
  verification : Verification := {}
  deriving DecidableEq, Repr, Inhabited

/-- Other configs that are merged into this one, and one that replaces it. -/
structure References where
  merge : List Resource := []
  replace : Resource := {}
  deriving DecidableEq, Repr, Inhabited

/-- Proxies for fetching. -/
structure Proxy where
  httpProxy : Option String := none
  httpsProxy : Option String := none
  noProxy : List String := []
  deriving DecidableEq, Repr, Inhabited

/-- Certificate authorities beyond those of the system. -/
structure Tls where
  certificateAuthorities : List Resource := []
  deriving DecidableEq, Repr, Inhabited

/-- What to trust when fetching. -/
structure Security where
  tls : Tls := {}
  deriving DecidableEq, Repr, Inhabited

/-- How long fetching may take, in seconds. -/
structure Timeouts where
  httpResponseHeaders : Option Int := none
  httpTotal : Option Int := none
  deriving DecidableEq, Repr, Inhabited

/-- Settings of the provisioning itself. -/
structure Settings where
  config : References := {}
  proxy : Proxy := {}
  security : Security := {}
  timeouts : Timeouts := {}
  deriving DecidableEq, Repr, Inhabited

/-- Kernel arguments that must be there or must not. -/
structure KernelArguments where
  shouldExist : List String := []
  shouldNotExist : List String := []
  deriving DecidableEq, Repr, Inhabited

/-- A user. -/
structure User where
  name : String := ""
  passwordHash : Option String := none
  sshAuthorizedKeys : List String := []
  /-- Local files with a key on each line. -/
  sshAuthorizedKeysLocal : List String := []
  uid : Option Int := none
  gecos : Option String := none
  homeDir : Option String := none
  noCreateHome : Option Bool := none
  primaryGroup : Option String := none
  groups : List String := []
  noUserGroup : Option Bool := none
  noLogInit : Option Bool := none
  shell : Option String := none
  shouldExist : Option Bool := none
  system : Option Bool := none
  deriving DecidableEq, Repr, Inhabited

/-- A group of users. -/
structure Group where
  name : String := ""
  gid : Option Int := none
  passwordHash : Option String := none
  shouldExist : Option Bool := none
  system : Option Bool := none
  deriving DecidableEq, Repr, Inhabited

/-- Users and groups. -/
structure Passwd where
  users : List User := []
  groups : List Group := []
  deriving DecidableEq, Repr, Inhabited

/-- A partition of a disk. -/
structure Partition where
  label : Option String := none
  number : Option Int := none
  sizeMib : Option Int := none
  startMib : Option Int := none
  typeGuid : Option String := none
  guid : Option String := none
  wipePartitionEntry : Option Bool := none
  shouldExist : Option Bool := none
  resize : Option Bool := none
  deriving DecidableEq, Repr, Inhabited

/-- A disk and its partitions. -/
structure Disk where
  device : String := ""
  wipeTable : Option Bool := none
  partitions : List Partition := []
  deriving DecidableEq, Repr, Inhabited

/-- An array of several devices. -/
structure Raid where
  name : String := ""
  level : Option String := none
  devices : List String := []
  spares : Option Int := none
  options : List String := []
  deriving DecidableEq, Repr, Inhabited

/-- A filesystem on a device. -/
structure Filesystem where
  device : String := ""
  format : Option String := none
  path : Option String := none
  wipeFilesystem : Option Bool := none
  label : Option String := none
  uuid : Option String := none
  options : List String := []
  mountOptions : List String := []
  /-- Whether a unit is made that mounts the filesystem. -/
  withMountUnit : Option Bool := none
  deriving DecidableEq, Repr, Inhabited

/-- A method of unlocking with a configuration of its own. -/
structure ClevisCustom where
  config : Option String := none
  needsNetwork : Option Bool := none
  pin : Option String := none
  deriving DecidableEq, Repr, Inhabited

/-- A server that helps unlocking. -/
structure Tang where
  url : String := ""
  thumbprint : Option String := none
  advertisement : Option String := none
  deriving DecidableEq, Repr, Inhabited

/-- How an encrypted volume is unlocked without a passphrase. -/
structure Clevis where
  custom : ClevisCustom := {}
  tang : List Tang := []
  threshold : Option Int := none
  tpm2 : Option Bool := none
  deriving DecidableEq, Repr, Inhabited

/-- An encrypted volume. -/
structure Luks where
  name : String := ""
  device : Option String := none
  keyFile : Resource := {}
  label : Option String := none
  uuid : Option String := none
  options : List String := []
  wipeVolume : Option Bool := none
  clevis : Clevis := {}
  discard : Option Bool := none
  openOptions : List String := []
  deriving DecidableEq, Repr, Inhabited

/-- The owner of a node of the file tree. -/
structure NodeUser where
  id : Option Int := none
  name : Option String := none
  deriving DecidableEq, Repr, Inhabited

/-- The group of a node of the file tree. -/
structure NodeGroup where
  id : Option Int := none
  name : Option String := none
  deriving DecidableEq, Repr, Inhabited

/-- A file. -/
structure File where
  path : String := ""
  overwrite : Option Bool := none
  user : NodeUser := {}
  group : NodeGroup := {}
  contents : Resource := {}
  append : List Resource := []
  mode : Option Int := none
  deriving DecidableEq, Repr, Inhabited

/-- A directory. -/
structure Directory where
  path : String := ""
  overwrite : Option Bool := none
  user : NodeUser := {}
  group : NodeGroup := {}
  mode : Option Int := none
  deriving DecidableEq, Repr, Inhabited

/-- A symbolic or hard link. -/
structure Link where
  path : String := ""
  overwrite : Option Bool := none
  user : NodeUser := {}
  group : NodeGroup := {}
  target : Option String := none
  hard : Option Bool := none
  deriving DecidableEq, Repr, Inhabited

/-- A local directory whose files and links are all written. -/
structure Tree where
  localPath : String := ""
  /-- Where they are written; the root if it is not given. -/
  path : Option String := none
  deriving DecidableEq, Repr, Inhabited

/-- Disks and what is on them. -/
structure Storage where
  disks : List Disk := []
  raid : List Raid := []
  filesystems : List Filesystem := []
  luks : List Luks := []
  files : List File := []
  directories : List Directory := []
  links : List Link := []
  trees : List Tree := []
  deriving DecidableEq, Repr, Inhabited

/-- A fragment that changes a unit. -/
structure Dropin where
  name : String := ""
  contents : Option String := none
  /-- A local file with the contents. -/
  contentsLocal : Option String := none
  deriving DecidableEq, Repr, Inhabited

/-- A unit of the service manager. -/
structure Unit where
  name : String := ""
  enabled : Option Bool := none
  mask : Option Bool := none
  contents : Option String := none
  /-- A local file with the contents. -/
  contentsLocal : Option String := none
  dropins : List Dropin := []
  deriving DecidableEq, Repr, Inhabited

/-- System services. -/
structure Systemd where
  units : List Unit := []
  deriving DecidableEq, Repr, Inhabited

/-- The sections that every variant of a config shares. -/
structure Config where
  ignition : Settings := {}
  kernelArguments : KernelArguments := {}
  passwd : Passwd := {}
  storage : Storage := {}
  systemd : Systemd := {}
  deriving DecidableEq, Repr, Inhabited

/-! ## Forms -/

/-- The fields of `Header`. -/
def Header.fields : List (RecordField Header) :=
  [ .plain "name" .text (·.name) (fun x r => { r with name := x }),
    .plain "value" (.option .text) (·.value) (fun x r => { r with value := x }) ]

/-- The form of `Header`. -/
def Header.codec : Codec Header := .record "HttpHeader" {} Header.fields

/-- The fields of `Verification`. -/
def Verification.fields : List (RecordField Verification) :=
  [ .plain "hash" (.option .text) (·.hash) (fun x r => { r with hash := x }) ]

/-- The form of `Verification`. -/
def Verification.codec : Codec Verification := .record "Verification" {} Verification.fields

/-- The fields of `Resource`. -/
def Resource.fields : List (RecordField Resource) :=
  [ .plain "compression" (.option .text) (·.compression) (fun x r => { r with compression := x }),
    .plain "http_headers" (.list Header.codec)
      (·.httpHeaders) (fun x r => { r with httpHeaders := x }),
    .plain "source" (.option .text) (·.source) (fun x r => { r with source := x }),
    .plain "inline" (.option .text) (·.inline) (fun x r => { r with inline := x }),
    .plain "local" (.option .text) (·.localPath) (fun x r => { r with localPath := x }),
    .plain "verification" Verification.codec
      (·.verification) (fun x r => { r with verification := x }) ]

/-- The form of `Resource`. -/
def Resource.codec : Codec Resource := .record "Resource" {} Resource.fields

/-- The fields of `References`. -/
def References.fields : List (RecordField References) :=
  [ .plain "merge" (.list Resource.codec) (·.merge) (fun x r => { r with merge := x }),
    .plain "replace" Resource.codec (·.replace) (fun x r => { r with replace := x }) ]

/-- The form of `References`. -/
def References.codec : Codec References := .record "IgnitionConfig" {} References.fields

/-- The fields of `Proxy`. -/
def Proxy.fields : List (RecordField Proxy) :=
  [ .plain "http_proxy" (.option .text) (·.httpProxy) (fun x r => { r with httpProxy := x }),
    .plain "https_proxy" (.option .text) (·.httpsProxy) (fun x r => { r with httpsProxy := x }),
    .plain "no_proxy" (.list .text) (·.noProxy) (fun x r => { r with noProxy := x }) ]

/-- The form of `Proxy`. -/
def Proxy.codec : Codec Proxy := .record "Proxy" {} Proxy.fields

/-- The fields of `Tls`. -/
def Tls.fields : List (RecordField Tls) :=
  [ .plain "certificate_authorities" (.list Resource.codec)
      (·.certificateAuthorities) (fun x r => { r with certificateAuthorities := x }) ]

/-- The form of `Tls`. -/
def Tls.codec : Codec Tls := .record "Tls" {} Tls.fields

/-- The fields of `Security`. -/
def Security.fields : List (RecordField Security) :=
  [ .plain "tls" Tls.codec (·.tls) (fun x r => { r with tls := x }) ]

/-- The form of `Security`. -/
def Security.codec : Codec Security := .record "Security" {} Security.fields

/-- The fields of `Timeouts`. -/
def Timeouts.fields : List (RecordField Timeouts) :=
  [ .plain "http_response_headers" (.option .int)
      (·.httpResponseHeaders) (fun x r => { r with httpResponseHeaders := x }),
    .plain "http_total" (.option .int) (·.httpTotal) (fun x r => { r with httpTotal := x }) ]

/-- The form of `Timeouts`. -/
def Timeouts.codec : Codec Timeouts := .record "Timeouts" {} Timeouts.fields

/-- The fields of `Settings`. -/
def Settings.fields : List (RecordField Settings) :=
  [ .plain "config" References.codec (·.config) (fun x r => { r with config := x }),
    .plain "proxy" Proxy.codec (·.proxy) (fun x r => { r with proxy := x }),
    .plain "security" Security.codec (·.security) (fun x r => { r with security := x }),
    .plain "timeouts" Timeouts.codec (·.timeouts) (fun x r => { r with timeouts := x }) ]

/-- The form of `Settings`. -/
def Settings.codec : Codec Settings := .record "Ignition" {} Settings.fields

/-- The fields of `KernelArguments`. -/
def KernelArguments.fields : List (RecordField KernelArguments) :=
  [ .plain "should_exist" (.list .text) (·.shouldExist) (fun x r => { r with shouldExist := x }),
    .plain "should_not_exist" (.list .text)
      (·.shouldNotExist) (fun x r => { r with shouldNotExist := x }) ]

/-- The form of `KernelArguments`. -/
def KernelArguments.codec : Codec KernelArguments :=
  .record "KernelArguments" {} KernelArguments.fields

/-- The fields of `User`. -/
def User.fields : List (RecordField User) :=
  [ .plain "name" .text (·.name) (fun x r => { r with name := x }),
    .plain "password_hash" (.option .text)
      (·.passwordHash) (fun x r => { r with passwordHash := x }),
    .plain "ssh_authorized_keys" (.list .text)
      (·.sshAuthorizedKeys) (fun x r => { r with sshAuthorizedKeys := x }),
    .plain "ssh_authorized_keys_local" (.list .text)
      (·.sshAuthorizedKeysLocal) (fun x r => { r with sshAuthorizedKeysLocal := x }),
    .plain "uid" (.option .int) (·.uid) (fun x r => { r with uid := x }),
    .plain "gecos" (.option .text) (·.gecos) (fun x r => { r with gecos := x }),
    .plain "home_dir" (.option .text) (·.homeDir) (fun x r => { r with homeDir := x }),
    .plain "no_create_home" (.option .bool)
      (·.noCreateHome) (fun x r => { r with noCreateHome := x }),
    .plain "primary_group" (.option .text)
      (·.primaryGroup) (fun x r => { r with primaryGroup := x }),
    .plain "groups" (.list .text) (·.groups) (fun x r => { r with groups := x }),
    .plain "no_user_group" (.option .bool) (·.noUserGroup) (fun x r => { r with noUserGroup := x }),
    .plain "no_log_init" (.option .bool) (·.noLogInit) (fun x r => { r with noLogInit := x }),
    .plain "shell" (.option .text) (·.shell) (fun x r => { r with shell := x }),
    .plain "should_exist" (.option .bool) (·.shouldExist) (fun x r => { r with shouldExist := x }),
    .plain "system" (.option .bool) (·.system) (fun x r => { r with system := x }) ]

/-- The form of `User`. -/
def User.codec : Codec User := .record "User" {} User.fields

/-- The fields of `Group`. -/
def Group.fields : List (RecordField Group) :=
  [ .plain "name" .text (·.name) (fun x r => { r with name := x }),
    .plain "gid" (.option .int) (·.gid) (fun x r => { r with gid := x }),
    .plain "password_hash" (.option .text)
      (·.passwordHash) (fun x r => { r with passwordHash := x }),
    .plain "should_exist" (.option .bool) (·.shouldExist) (fun x r => { r with shouldExist := x }),
    .plain "system" (.option .bool) (·.system) (fun x r => { r with system := x }) ]

/-- The form of `Group`. -/
def Group.codec : Codec Group := .record "Group" {} Group.fields

/-- The fields of `Passwd`. -/
def Passwd.fields : List (RecordField Passwd) :=
  [ .plain "users" (.list User.codec) (·.users) (fun x r => { r with users := x }),
    .plain "groups" (.list Group.codec) (·.groups) (fun x r => { r with groups := x }) ]

/-- The form of `Passwd`. -/
def Passwd.codec : Codec Passwd := .record "Passwd" {} Passwd.fields

/-- The fields of `Partition`. -/
def Partition.fields : List (RecordField Partition) :=
  [ .plain "label" (.option .text) (·.label) (fun x r => { r with label := x }),
    .plain "number" (.option .int) (·.number) (fun x r => { r with number := x }),
    .plain "size_mib" (.option .int) (·.sizeMib) (fun x r => { r with sizeMib := x }),
    .plain "start_mib" (.option .int) (·.startMib) (fun x r => { r with startMib := x }),
    .plain "type_guid" (.option .text) (·.typeGuid) (fun x r => { r with typeGuid := x }),
    .plain "guid" (.option .text) (·.guid) (fun x r => { r with guid := x }),
    .plain "wipe_partition_entry" (.option .bool)
      (·.wipePartitionEntry) (fun x r => { r with wipePartitionEntry := x }),
    .plain "should_exist" (.option .bool) (·.shouldExist) (fun x r => { r with shouldExist := x }),
    .plain "resize" (.option .bool) (·.resize) (fun x r => { r with resize := x }) ]

/-- The form of `Partition`. -/
def Partition.codec : Codec Partition := .record "Partition" {} Partition.fields

/-- The fields of `Disk`. -/
def Disk.fields : List (RecordField Disk) :=
  [ .plain "device" .text (·.device) (fun x r => { r with device := x }),
    .plain "wipe_table" (.option .bool) (·.wipeTable) (fun x r => { r with wipeTable := x }),
    .plain "partitions" (.list Partition.codec)
      (·.partitions) (fun x r => { r with partitions := x }) ]

/-- The form of `Disk`. -/
def Disk.codec : Codec Disk := .record "Disk" {} Disk.fields

/-- The fields of `Raid`. -/
def Raid.fields : List (RecordField Raid) :=
  [ .plain "name" .text (·.name) (fun x r => { r with name := x }),
    .plain "level" (.option .text) (·.level) (fun x r => { r with level := x }),
    .plain "devices" (.list .text) (·.devices) (fun x r => { r with devices := x }),
    .plain "spares" (.option .int) (·.spares) (fun x r => { r with spares := x }),
    .plain "options" (.list .text) (·.options) (fun x r => { r with options := x }) ]

/-- The form of `Raid`. -/
def Raid.codec : Codec Raid := .record "Raid" {} Raid.fields

/-- The fields of `Filesystem`. -/
def Filesystem.fields : List (RecordField Filesystem) :=
  [ .plain "device" .text (·.device) (fun x r => { r with device := x }),
    .plain "format" (.option .text) (·.format) (fun x r => { r with format := x }),
    .plain "path" (.option .text) (·.path) (fun x r => { r with path := x }),
    .plain "wipe_filesystem" (.option .bool)
      (·.wipeFilesystem) (fun x r => { r with wipeFilesystem := x }),
    .plain "label" (.option .text) (·.label) (fun x r => { r with label := x }),
    .plain "uuid" (.option .text) (·.uuid) (fun x r => { r with uuid := x }),
    .plain "options" (.list .text) (·.options) (fun x r => { r with options := x }),
    .plain "mount_options" (.list .text) (·.mountOptions) (fun x r => { r with mountOptions := x }),
    .plain "with_mount_unit" (.option .bool)
      (·.withMountUnit) (fun x r => { r with withMountUnit := x }) ]

/-- The form of `Filesystem`. -/
def Filesystem.codec : Codec Filesystem := .record "Filesystem" {} Filesystem.fields

/-- The fields of `ClevisCustom`. -/
def ClevisCustom.fields : List (RecordField ClevisCustom) :=
  [ .plain "config" (.option .text) (·.config) (fun x r => { r with config := x }),
    .plain "needs_network" (.option .bool)
      (·.needsNetwork) (fun x r => { r with needsNetwork := x }),
    .plain "pin" (.option .text) (·.pin) (fun x r => { r with pin := x }) ]

/-- The form of `ClevisCustom`. -/
def ClevisCustom.codec : Codec ClevisCustom := .record "ClevisCustom" {} ClevisCustom.fields

/-- The fields of `Tang`. -/
def Tang.fields : List (RecordField Tang) :=
  [ .plain "url" .text (·.url) (fun x r => { r with url := x }),
    .plain "thumbprint" (.option .text) (·.thumbprint) (fun x r => { r with thumbprint := x }),
    .plain "advertisement" (.option .text)
      (·.advertisement) (fun x r => { r with advertisement := x }) ]

/-- The form of `Tang`. -/
def Tang.codec : Codec Tang := .record "Tang" {} Tang.fields

/-- The fields of `Clevis`. -/
def Clevis.fields : List (RecordField Clevis) :=
  [ .plain "custom" ClevisCustom.codec (·.custom) (fun x r => { r with custom := x }),
    .plain "tang" (.list Tang.codec) (·.tang) (fun x r => { r with tang := x }),
    .plain "threshold" (.option .int) (·.threshold) (fun x r => { r with threshold := x }),
    .plain "tpm2" (.option .bool) (·.tpm2) (fun x r => { r with tpm2 := x }) ]

/-- The form of `Clevis`. -/
def Clevis.codec : Codec Clevis := .record "Clevis" {} Clevis.fields

/-- The fields of `Luks`. -/
def Luks.fields : List (RecordField Luks) :=
  [ .plain "name" .text (·.name) (fun x r => { r with name := x }),
    .plain "device" (.option .text) (·.device) (fun x r => { r with device := x }),
    .plain "key_file" Resource.codec (·.keyFile) (fun x r => { r with keyFile := x }),
    .plain "label" (.option .text) (·.label) (fun x r => { r with label := x }),
    .plain "uuid" (.option .text) (·.uuid) (fun x r => { r with uuid := x }),
    .plain "options" (.list .text) (·.options) (fun x r => { r with options := x }),
    .plain "wipe_volume" (.option .bool) (·.wipeVolume) (fun x r => { r with wipeVolume := x }),
    .plain "clevis" Clevis.codec (·.clevis) (fun x r => { r with clevis := x }),
    .plain "discard" (.option .bool) (·.discard) (fun x r => { r with discard := x }),
    .plain "open_options" (.list .text) (·.openOptions) (fun x r => { r with openOptions := x }) ]

/-- The form of `Luks`. -/
def Luks.codec : Codec Luks := .record "Luks" {} Luks.fields

/-- The fields of `NodeUser`. -/
def NodeUser.fields : List (RecordField NodeUser) :=
  [ .plain "id" (.option .int) (·.id) (fun x r => { r with id := x }),
    .plain "name" (.option .text) (·.name) (fun x r => { r with name := x }) ]

/-- The form of `NodeUser`. -/
def NodeUser.codec : Codec NodeUser := .record "NodeUser" {} NodeUser.fields

/-- The fields of `NodeGroup`. -/
def NodeGroup.fields : List (RecordField NodeGroup) :=
  [ .plain "id" (.option .int) (·.id) (fun x r => { r with id := x }),
    .plain "name" (.option .text) (·.name) (fun x r => { r with name := x }) ]

/-- The form of `NodeGroup`. -/
def NodeGroup.codec : Codec NodeGroup := .record "NodeGroup" {} NodeGroup.fields

/-- The fields of `File`. -/
def File.fields : List (RecordField File) :=
  [ .plain "path" .text (·.path) (fun x r => { r with path := x }),
    .plain "overwrite" (.option .bool) (·.overwrite) (fun x r => { r with overwrite := x }),
    .plain "user" NodeUser.codec (·.user) (fun x r => { r with user := x }),
    .plain "group" NodeGroup.codec (·.group) (fun x r => { r with group := x }),
    .plain "contents" Resource.codec (·.contents) (fun x r => { r with contents := x }),
    .plain "append" (.list Resource.codec) (·.append) (fun x r => { r with append := x }),
    .plain "mode" .mode (·.mode) (fun x r => { r with mode := x }) ]

/-- The form of `File`. -/
def File.codec : Codec File := .record "File" {} File.fields

/-- The fields of `Directory`. -/
def Directory.fields : List (RecordField Directory) :=
  [ .plain "path" .text (·.path) (fun x r => { r with path := x }),
    .plain "overwrite" (.option .bool) (·.overwrite) (fun x r => { r with overwrite := x }),
    .plain "user" NodeUser.codec (·.user) (fun x r => { r with user := x }),
    .plain "group" NodeGroup.codec (·.group) (fun x r => { r with group := x }),
    .plain "mode" .mode (·.mode) (fun x r => { r with mode := x }) ]

/-- The form of `Directory`. -/
def Directory.codec : Codec Directory := .record "Directory" {} Directory.fields

/-- The fields of `Link`. -/
def Link.fields : List (RecordField Link) :=
  [ .plain "path" .text (·.path) (fun x r => { r with path := x }),
    .plain "overwrite" (.option .bool) (·.overwrite) (fun x r => { r with overwrite := x }),
    .plain "user" NodeUser.codec (·.user) (fun x r => { r with user := x }),
    .plain "group" NodeGroup.codec (·.group) (fun x r => { r with group := x }),
    .plain "target" (.option .text) (·.target) (fun x r => { r with target := x }),
    .plain "hard" (.option .bool) (·.hard) (fun x r => { r with hard := x }) ]

/-- The form of `Link`. -/
def Link.codec : Codec Link := .record "Link" {} Link.fields

/-- The fields of `Tree`. -/
def Tree.fields : List (RecordField Tree) :=
  [ .plain "local" .text (·.localPath) (fun x r => { r with localPath := x }),
    .plain "path" (.option .text) (·.path) (fun x r => { r with path := x }) ]

/-- The form of `Tree`. -/
def Tree.codec : Codec Tree := .record "Tree" {} Tree.fields

/-- The fields of `Storage`. -/
def Storage.fields : List (RecordField Storage) :=
  [ .plain "disks" (.list Disk.codec) (·.disks) (fun x r => { r with disks := x }),
    .plain "raid" (.list Raid.codec) (·.raid) (fun x r => { r with raid := x }),
    .plain "filesystems" (.list Filesystem.codec)
      (·.filesystems) (fun x r => { r with filesystems := x }),
    .plain "luks" (.list Luks.codec) (·.luks) (fun x r => { r with luks := x }),
    .plain "files" (.list File.codec) (·.files) (fun x r => { r with files := x }),
    .plain "directories" (.list Directory.codec)
      (·.directories) (fun x r => { r with directories := x }),
    .plain "links" (.list Link.codec) (·.links) (fun x r => { r with links := x }),
    .plain "trees" (.list Tree.codec) (·.trees) (fun x r => { r with trees := x }) ]

/-- The form of `Storage`. -/
def Storage.codec : Codec Storage := .record "Storage" {} Storage.fields

/-- The fields of `Dropin`. -/
def Dropin.fields : List (RecordField Dropin) :=
  [ .plain "name" .text (·.name) (fun x r => { r with name := x }),
    .plain "contents" (.option .text) (·.contents) (fun x r => { r with contents := x }),
    .plain "contents_local" (.option .text)
      (·.contentsLocal) (fun x r => { r with contentsLocal := x }) ]

/-- The form of `Dropin`. -/
def Dropin.codec : Codec Dropin := .record "Dropin" {} Dropin.fields

/-- The fields of `Unit`. -/
def Unit.fields : List (RecordField Unit) :=
  [ .plain "name" .text (·.name) (fun x r => { r with name := x }),
    .plain "enabled" (.option .bool) (·.enabled) (fun x r => { r with enabled := x }),
    .plain "mask" (.option .bool) (·.mask) (fun x r => { r with mask := x }),
    .plain "contents" (.option .text) (·.contents) (fun x r => { r with contents := x }),
    .plain "contents_local" (.option .text)
      (·.contentsLocal) (fun x r => { r with contentsLocal := x }),
    .plain "dropins" (.list Dropin.codec) (·.dropins) (fun x r => { r with dropins := x }) ]

/-- The form of `Unit`. -/
def Unit.codec : Codec Unit := .record "Unit" {} Unit.fields

/-- The fields of `Systemd`. -/
def Systemd.fields : List (RecordField Systemd) :=
  [ .plain "units" (.list Unit.codec) (·.units) (fun x r => { r with units := x }) ]

/-- The form of `Systemd`. -/
def Systemd.codec : Codec Systemd := .record "Systemd" {} Systemd.fields

/-- The fields of `Config`. -/
def Config.fields : List (RecordField Config) :=
  [ .plain "ignition" Settings.codec (·.ignition) (fun x r => { r with ignition := x }),
    .plain "kernel_arguments" KernelArguments.codec
      (·.kernelArguments) (fun x r => { r with kernelArguments := x }),
    .plain "passwd" Passwd.codec (·.passwd) (fun x r => { r with passwd := x }),
    .plain "storage" Storage.codec (·.storage) (fun x r => { r with storage := x }),
    .plain "systemd" Systemd.codec (·.systemd) (fun x r => { r with systemd := x }) ]

/-- The form of `Config`. -/
def Config.codec : Codec Config := .record "Config" {} Config.fields

end Provision.Source
