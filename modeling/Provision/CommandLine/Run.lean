import Provision.CommandLine.Arguments
import Provision.CommandLine.Failure

/-!
# One run of the command

What the command writes to its output, to the terminal and to files, given its arguments, the files
at hand and its input.

* `run`: the outcome of the command.
-/

set_option autoImplicit false

namespace Provision.CommandLine

open Provision.Text (Bytes)
open Files (FileSystem)

/-- What is left of a run of the command. -/
structure Outcome where
  exitCode : Nat := 0
  output : String := ""
  diagnostics : String := ""
  /-- The file that was written, if any, and its contents. -/
  written : Option (String × String) := none
  /-- The files afterwards. -/
  files : FileSystem

/-- The lines that list the variants. -/
def variantLines : String :=
  String.join (Spec.catalog.map fun s =>
    s.variant.name ++ " " ++ s.version.text ++ " (Ignition " ++ s.target.text ++ ")\n")

/-- The lines for what was found in a config that was not refused. -/
def warningLines (colour quiet : Bool) (r : Report) : String :=
  if quiet || r.isEmpty then "" else reportText colour r ++ "\n"

/-- The files at hand and the options that arguments ask for. -/
def workspace (a : Arguments) (files : FileSystem) : Workspace :=
  { files
    options :=
      { filesDirectory := a.filesDirectory, compress := !a.noCompress,
        debug := a.debugTranslations } }

/-- What arguments ask for the document. -/
def request (a : Arguments) : Request := { pretty := a.pretty, strict := a.strict, raw := a.raw }

/-- The document to translate. -/
def source (a : Arguments) (files : FileSystem) (input : Bytes) : Except Failure Bytes :=
  match a.inputPath with
  | some path => (files.read path).mapError (Failure.ofFault path)
  | none => .ok input

/-- A run that fails after some lines of diagnostics. -/
def failed (colour : Bool) (files : FileSystem) (before : String) (f : Failure) : Outcome :=
  { exitCode := f.exitCode, diagnostics := before ++ f.text colour ++ "\n", files }

/-- The outcome of the command for arguments that mean something. -/
def runWith (a : Arguments) (colour : Bool) (files : FileSystem) (input : Bytes) : Outcome :=
  let colour := colour && !a.noColor
  if a.listVariants then { output := variantLines, files }
  else
    let made := do
      let bytes ← source a files input
      (transpile (workspace a files) (request a) bytes).mapError Failure.refused
    match made with
    | .error f => failed colour files "" f
    | .ok t =>
      let diagnostics := warningLines colour a.quiet t.report
      match a.output with
      | none => { output := t.output, diagnostics, files }
      | some path => match files.write path (Text.encodeUtf8 t.output.toList) with
        | .error fault => failed colour files diagnostics (.ofFault path fault)
        | .ok files => { diagnostics, written := some (path, t.output), files }

/-- How the command is used. -/
def usage : String :=
  "Usage: ignis [OPTIONS] [INPUT]\n\nOptions:\n" ++
  "  -d, --files-dir <DIR>  Directory that local file references are resolved against\n" ++
  "  -p, --pretty           Pretty-print the output\n" ++
  "  -s, --strict           Fail on warnings as well as errors\n" ++
  "  -r, --raw              Emit a bare Ignition config instead of a variant wrapper\n" ++
  "  -o, --output <FILE>    Write the output to a file instead of standard output\n" ++
  "      --no-compress      Do not gzip embedded file contents automatically\n" ++
  "      --list-variants    List the supported variants and versions, then exit\n" ++
  "  -v, --verbose...       Enable verbose output\n" ++
  "  -q, --quiet            Suppress warnings\n" ++
  "      --no-color         Disable colored output\n" ++
  "  -h, --help             Print help\n" ++
  "  -V, --version          Print version\n"

/-- The outcome of the command. Diagnostics are in colour if the terminal can show it. -/
def run (words : List String) (colour : Bool) (files : FileSystem) (input : Bytes) : Outcome :=
  match Arguments.parse words with
  | .ok a => runWith a colour files input
  | .error .usage =>
    { exitCode := 2, diagnostics := "error: invalid arguments\n\n" ++ usage, files }
  | .error .help => { output := usage, files }
  | .error .version => { output := "ignis 0.1.0\n", files }

end Provision.CommandLine
