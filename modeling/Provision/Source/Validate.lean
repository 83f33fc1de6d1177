import Provision.Report
import Provision.Source.Schema

/-!
# Checking what a config says

A few things can be wrong with a config before anything is made of it: contents given in more than
one way, trees without a directory, units to mount filesystems without what they need. A file mode
that looks as if it were in the wrong base is only warned of.

* `FileMode.looksDecimal`: whether a mode was probably meant in octal.
* `validate`: what is wrong with a config.
-/

set_option autoImplicit false

namespace Provision.FileMode

/-!
## File modes in the wrong base

A mode is usually given in octal. Its octal digits, read as decimal ones, make another mode, which
is hardly ever meant.
-/

/-- The modes that are common for files. -/
def fileModes : List Int :=
  [0o400, 0o440, 0o444, 0o500, 0o550, 0o555, 0o600, 0o640, 0o644, 0o660, 0o664, 0o666, 0o700,
    0o750, 0o755, 0o770, 0o775, 0o777, 0o1777, 0o2750, 0o2755, 0o2775, 0o4750, 0o4755, 0o6755]

/-- The modes that are common for directories. -/
def directoryModes : List Int :=
  [0o500, 0o550, 0o555, 0o700, 0o750, 0o755, 0o770, 0o775, 0o777, 0o1755, 0o1777, 0o2750, 0o2755,
    0o2770, 0o2775, 0o3777]

/-- The number whose octal digits are the decimal digits of a number, if all of them are below
eight. -/
def octalReading : Nat → Option Nat
  | 0 => some 0
  | n + 1 =>
    if (n + 1) % 10 < 8 then
      (octalReading ((n + 1) / 10)).map fun high => high * 8 + (n + 1) % 10
    else none
  decreasing_by omega

/-- Whether a mode is common. -/
def isReasonable (isDirectory : Bool) (mode : Int) : Bool :=
  (if isDirectory then directoryModes else fileModes).contains mode

/-- Whether a mode would be common if its digits were octal. Below eight the base does not
matter. -/
def looksDecimal (isDirectory : Bool) (mode : Int) : Bool :=
  mode ≥ 8 && (octalReading mode.toNat).any fun m => isReasonable isDirectory m

end Provision.FileMode

namespace Provision.Source

/-- The fields of a resource that say what its contents are, as far as they are given. -/
def Resource.sources (r : Resource) : List String :=
  (r.source.map fun _ => "source").toList ++ (r.inline.map fun _ => "inline").toList ++
    (r.localPath.map fun _ => "local").toList

/-- Contents are given in one way only; a second way is wrong. -/
def checkResource (trail : Trail) (r : Resource) : Report :=
  match r.sources with
  | _ :: second :: _ => .sourceError (trail.key second) .severalContents
  | _ => []

/-- What is wrong with the items of a list. -/
def checkItems {α : Type} (trail : Trail) (check : Trail → α → Report) (items : List α) : Report :=
  items.zipIdx.flatMap fun (x, i) => check (trail.index i) x

/-- A mode that was probably meant in octal. -/
def checkMode (trail : Trail) (isDirectory : Bool) (mode : Option Int) : Report :=
  if mode.any (FileMode.looksDecimal isDirectory) then .sourceWarning trail .decimalMode else []

/-- What is wrong with a file. -/
def checkFile (trail : Trail) (f : File) : Report :=
  checkResource (trail.key "contents") f.contents ++
    checkItems (trail.key "append") checkResource f.append ++
    checkMode (trail.key "mode") false f.mode

/-- A tree needs a directory. -/
def checkTree (trail : Trail) (t : Tree) : Report :=
  if t.localPath.isEmpty then .sourceError (trail.key "local") .treeWithoutLocal else []

/-- A unit for a filesystem needs its format, and its path unless it is swap. -/
def checkFilesystem (trail : Trail) (fs : Filesystem) : Report :=
  if fs.withMountUnit ≠ some true then []
  else
    (if (fs.path.getD "").isEmpty && fs.format ≠ some "swap" then
      Report.sourceError (trail.key "path") .mountUnitWithoutPath else []) ++
    (if (fs.format.getD "").isEmpty then
      Report.sourceError (trail.key "format") .mountUnitWithoutFormat else [])

/-- Contents of a unit are in place or in a file, not both. -/
def checkContents (trail : Trail) (contents contentsLocal : Option String) : Report :=
  if contents.isSome && contentsLocal.isSome then
    .sourceError (trail.key "contents_local") .severalUnitContents
  else []

/-- What is wrong with a unit. -/
def checkUnit (trail : Trail) (u : Unit) : Report :=
  checkContents trail u.contents u.contentsLocal ++
    checkItems (trail.key "dropins") (fun t d => checkContents t d.contents d.contentsLocal)
      u.dropins

/-- What is wrong with a config whose sections are at a place of the source. -/
def validate (start : Trail) (c : Config) : Report :=
  let ignition := start.key "ignition"
  let storage := start.key "storage"
  checkItems (ignition.dotted "config.merge") checkResource c.ignition.config.merge ++
  checkResource (ignition.dotted "config.replace") c.ignition.config.replace ++
  checkItems (ignition.dotted "security.tls.certificate_authorities") checkResource
    c.ignition.security.tls.certificateAuthorities ++
  checkItems (storage.key "files") checkFile c.storage.files ++
  checkItems (storage.key "directories") (fun t d => checkMode (t.key "mode") true d.mode)
    c.storage.directories ++
  checkItems (storage.key "luks") (fun t l => checkResource (t.key "key_file") l.keyFile)
    c.storage.luks ++
  checkItems (storage.key "trees") checkTree c.storage.trees ++
  checkItems (storage.key "filesystems") checkFilesystem c.storage.filesystems ++
  checkItems (start.dotted "systemd.units") checkUnit c.systemd.units

end Provision.Source
