import Provision.Json.Parser
import Provision.Transpile

/-!
# How the command fails

What went wrong, in words for a terminal. What was found in a config comes first, a line for each
entry; a last line says what that means.

* `Failure.text`: the lines for a failure.
* `Failure.exitCode`: 1 for a config that was refused, 2 for everything else.
-/

set_option autoImplicit false

namespace Provision.CommandLine

/-- Why the command fails. -/
inductive Failure where
  | refused (refusal : Refusal)
  | fileNotFound (path : String)
  | file (path detail : String)
  /-- Input or output without a name. -/
  | stream (detail : String)
  | json (error : Json.ParseError)
  | internal (detail : String)
  | other (detail : String)

namespace Failure

/-- The failure to read or write a file. -/
def ofFault (path : String) : Files.Fault → Failure
  | .notFound => .fileNotFound path
  | fault => .file path fault.message

/-- The words for a failure. -/
def message : Failure → String
  | .refused r => r.message
  | .fileNotFound path => "File not found: " ++ path
  | .file path detail => path ++ ": " ++ detail
  | .stream detail => "IO error: " ++ detail
  | .json e => "JSON error: " ++ e.message
  | .internal detail => "Internal error: " ++ detail
  | .other detail => detail

/-- What was found in the config. -/
def report : Failure → Report
  | .refused r => r.report
  | _ => []

/-- What the command ends with. -/
def exitCode : Failure → Nat
  | .refused _ => 1
  | _ => 2

end Failure

/-- A word in bold letters of a colour. -/
def bold (colour : Nat) (word : String) : String :=
  "\x1b[1;" ++ toString colour ++ "m" ++ word ++ "\x1b[0m"

/-- The colour of a severity: red or yellow. -/
def colourOf : Severity → Nat
  | .error => 31
  | .warning => 33

/-- An entry on one line, with its severity in colour if that is wanted. -/
def entryText (colour : Bool) (e : Entry) : String :=
  if colour then
    bold (colourOf e.severity) e.severity.text ++
      String.ofList (e.text.toList.drop e.severity.text.length)
  else e.text

/-- A report, a line for each entry. -/
def reportText (colour : Bool) (r : Report) : String := "\n".intercalate (r.map (entryText colour))

/-- The lines for a failure. -/
def Failure.text (colour : Bool) (f : Failure) : String :=
  let word := "Error:"
  let headline := (if colour then bold 31 word else word) ++ " " ++ f.message
  if f.report.isEmpty then headline else reportText colour f.report ++ "\n" ++ headline

end Provision.CommandLine
