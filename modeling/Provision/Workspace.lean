import Provision.Files.Tree
import Provision.Problem

/-!
# What a config is made with

Besides the config itself there are files at hand, and options that say which of them may be used
and how contents are embedded.

* `Workspace.resolveLocal`: the path of a local file, unless it leads out of the files directory as
  it is written, or once links are followed.
* `Workspace.readLocal`: the contents of a local file.
-/

set_option autoImplicit false

namespace Provision

open Provision.Text (Bytes)
open Files (FileSystem)

/-- A function that is applied to every text before it is embedded. It is also given the name of
the text, and may fail with words of its own. -/
abbrev Renderer := (name body : String) → Except String String

/-- How a config is made. -/
structure Options where
  /-- The directory of the local files. -/
  filesDirectory : Option String := none
  /-- Whether contents may be compressed where that is not asked for. -/
  compress : Bool := true
  /-- Whether the parts without an origin are looked for. -/
  debug : Bool := false
  renderer : Option Renderer := none

/-- The files at hand and the options. -/
structure Workspace where
  files : FileSystem
  options : Options := {}

namespace Workspace

/-- Whether the path of the first steps leads to a directory strictly above that of the second. -/
def isAbove (directory steps : List String) : Bool :=
  directory.isPrefixOf steps && directory.length < steps.length

/-- Whether a path lies strictly within a directory: with the dots taken out as they are written,
and with links followed from there if both exist. -/
def isWithin (fs : FileSystem) (directory path : String) : Bool :=
  let base := Files.normalize fs.current directory
  let target := Files.normalize fs.current path
  isAbove base target &&
    match fs.realSteps true (Files.absolute base), fs.realSteps true (Files.absolute target) with
    | .ok base, .ok target => isAbove base target
    | _, _ => true

/-- The path of a local file. -/
def resolveLocal (w : Workspace) (path : String) : Except Problem String :=
  match w.options.filesDirectory with
  | none => .error .noFilesDirectory
  | some directory =>
    let joined := Files.join directory path
    if isWithin w.files directory joined then .ok joined else .error .outsideFilesDirectory

/-- Reads a file whose path is known. -/
def read (w : Workspace) (path : String) : Except Problem Bytes :=
  (w.files.read path).mapError (.unreadable path)

/-- The contents of a local file. -/
def readLocal (w : Workspace) (path : String) : Except Problem Bytes :=
  w.resolveLocal path >>= w.read

/-- Contents as they are embedded: the renderer is applied to them if they are a text. -/
def render (w : Workspace) (name : String) (contents : Bytes) : Except Problem Bytes :=
  match w.options.renderer, Text.decodeUtf8? contents with
  | some renderer, some text => match renderer name (String.ofList text) with
    | .ok rendered => .ok (Text.encodeUtf8 rendered.toList)
    | .error detail => .error (.rendering name detail)
  | _, _ => .ok contents

end Workspace

end Provision
