import Provision.Provenance
import Provision.Source.Schema
import Provision.Text.Lines
import Provision.Text.Utf8

/-!
# Units that mount filesystems

A filesystem may ask for a unit that mounts it, or one that swaps to it. The name of such a unit is
made of the path or the device.

* `escapePath`: a path as part of a unit's name.
* `units`: the config with the units for some filesystems.
-/

set_option autoImplicit false

namespace Provision.MountUnit

open Provision.Text (Bytes)

/-- Two lower-case digits in base 16. -/
def hexPair (n : Nat) : List Char := [Nat.digitChar (n / 16), Nat.digitChar (n % 16)]

/-- Whether a byte stands for itself in the name of a unit. -/
def isPlain (b : UInt8) : Bool :=
  let c := Char.ofNat b.toNat
  b < 0x80 && (c.isAlphanum || c = ':' || c = '_' || c = '.')

/-- A byte of a path. A slash becomes a dash, so dashes are escaped. -/
def escapeByte (b : UInt8) : List Char :=
  if b = 0x2f then ['-']
  else if isPlain b then [Char.ofNat b.toNat]
  else '\\' :: 'x' :: hexPair b.toNat

/-- The first byte of a path, which must not be a dot. -/
def escapeFirst (b : UInt8) : List Char :=
  if b = 0x2e then ['\\', 'x', '2', 'e'] else escapeByte b

/-- The bytes of a path without slashes at its ends and without repeated ones. -/
def pathBytes (path : String) : Bytes :=
  let names := (Text.splitOn '/' path.toList).filter (!·.isEmpty)
  Text.encodeUtf8 (['/'].intercalate names)

/-- A path as part of a unit's name. The root is a dash. -/
def escapePath (path : String) : String :=
  match pathBytes path with
  | [] => "-"
  | b :: rest => String.ofList (escapeFirst b ++ rest.flatMap escapeByte)

/-- A line with options, if there are any. -/
def optionsLine (options : List String) : String :=
  if options.isEmpty then "" else "Options=" ++ ",".intercalate options ++ "\n"

/-- The contents of a unit that mounts a filesystem. -/
def mountContents (fs : Source.Filesystem) (path format : String) : String :=
  let check := "systemd-fsck@" ++ escapePath fs.device ++ ".service\n"
  "# Generated by Ignis\n[Unit]\nRequires=" ++ check ++ "After=" ++ check ++
    "\n[Mount]\nWhere=" ++ path ++ "\nWhat=" ++ fs.device ++ "\nType=" ++ format ++ "\n" ++
    optionsLine fs.mountOptions ++ "\n[Install]\nRequiredBy=local-fs.target\n"

/-- The contents of a unit that swaps to a device. -/
def swapContents (fs : Source.Filesystem) : String :=
  "# Generated by Ignis\n[Swap]\nWhat=" ++ fs.device ++ "\n" ++
    optionsLine fs.mountOptions ++ "\n[Install]\nRequiredBy=swap.target\n"

/-- The name and the contents of the unit for a filesystem, if it asks for one and says what is
needed for it. -/
def unitFor? (fs : Source.Filesystem) : Option (String × String) := do
  if fs.withMountUnit ≠ some true then none
  let format ← fs.format.filter (!·.isEmpty)
  if format = "swap" then some (escapePath fs.device ++ ".swap", swapContents fs)
  else
    let path ← fs.path.filter (!·.isEmpty)
    some (escapePath path ++ ".mount", mountContents fs path format)

/-- The config with the units for some filesystems, which are part of the config at a place of the
source. -/
def units (filesystems : List Source.Filesystem) (start : Trail) : Translated Json :=
  let wanted := filesystems.zipIdx.filterMap fun (fs, i) => (unitFor? fs).map fun unit =>
    (((start.dotted "storage.filesystems").index i).key "with_mount_unit",
      Json.obj [("name", .str unit.1), ("enabled", .bool true), ("contents", .str unit.2)])
  let systemd : Trail := [.key "systemd"]
  let list := systemd.key "units"
  let provenance := wanted.zipIdx.foldl (fun (p : Provenance) ((origin, unit), i) =>
    ((p.addValue origin (list.index i) unit).add origin list).add origin systemd) {}
  if wanted.isEmpty then ⟨.obj [], {}, []⟩
  else ⟨.obj [("systemd", .obj [("units", .arr (wanted.map (·.2)))])], provenance, []⟩

end Provision.MountUnit
