import Provision.CommandLine.Run

/-!
# The command

The command looks at the files that its arguments name, leaves everything else to
`CommandLine.run`, and carries out what that says.

Files are looked at through an interface that knows neither the mode of a file nor the text of a
link: here a file has the usual mode, a link holds the path that it leads to in the end, and one
that leads nowhere is left out.
-/

set_option autoImplicit false

namespace Provision.CommandLine

open Provision.Text (Bytes)
open Files (FileSystem Node)

/-- The node of an entry, with everything below it. -/
partial def nodeOf? (e : IO.FS.DirEntry) : IO (Option Node) := do
  match (← e.path.symlinkMetadata).type with
  | .dir =>
    let entries ← (← e.path.readDir).toList.filterMapM fun child => do
      return (← nodeOf? child).map (child.fileName, ·)
    return some (.directory entries)
  | .symlink =>
    try return some (.link (← IO.FS.realPath e.path).toString)
    catch _ => return none
  | .file => return some (.file (← IO.FS.readBinFile e.path).toList 0o644)
  | .other => return some .special

/-- What a path leads to in the end; with `deep`, also everything below it. -/
def lookAt (path : String) (deep : Bool) : IO (Option Node) := do
  try
    let real ← IO.FS.realPath path
    if !deep && (← real.isDir) then return some (.directory [])
    nodeOf? ⟨"/", real.toString⟩
  catch _ => return none

/-- Adds what a path leads to. -/
def add (path : String) (deep : Bool) (fs : FileSystem) : IO FileSystem := do
  match ← lookAt path deep with
  | some n => return { fs with root := fs.root.put (Files.normalize fs.current path) n }
  | none => return fs

/-- The files that the arguments name: the place of the output, the files directory, the input. -/
def filesFor (a : Arguments) : IO FileSystem := do
  let current := Files.steps (← IO.currentDir).toString
  let mut fs : FileSystem := ⟨.put (.directory []) current (.directory []), current⟩
  if let some path := a.output then
    fs ← add (Files.absolute (Files.normalize current path).dropLast) false fs
    fs ← add path false fs
  if let some path := a.filesDirectory then fs ← add path true fs
  if let some path := a.inputPath then fs ← add path false fs
  return fs

/-- What is left of a stream. -/
partial def readAll (s : IO.FS.Stream) (before : ByteArray) : IO ByteArray := do
  let more ← s.read 65536
  if more.isEmpty then return before else readAll s (before ++ more)

/-- The input, if the arguments ask for it. -/
def inputFor (a : Arguments) : IO Bytes := do
  if a.listVariants || a.inputPath.isSome then return []
  return (← readAll (← IO.getStdin) .empty).toList

/-- Writes the lines and the file of a run. -/
def carryOut (colour : Bool) (o : Outcome) : IO UInt32 := do
  IO.print o.output
  IO.eprint o.diagnostics
  if let some (path, text) := o.written then
    try IO.FS.writeFile path text
    catch e =>
      let failure := Failure.file path (toString e)
      IO.eprintln (failure.text colour)
      return failure.exitCode.toUInt32
  return o.exitCode.toUInt32

end Provision.CommandLine

open Provision.CommandLine in
/-- Runs the command on the words after its name. -/
def main (words : List String) : IO UInt32 := do
  let colour ← (← IO.getStderr).isTty
  let (files, input) ← match Arguments.parse words with
    | .ok a => pure (← filesFor a, ← inputFor a)
    | .error _ => pure (⟨.directory [], []⟩, [])
  carryOut colour (run words colour files input)
