/-!
# Arguments of the command

What the words after the name of the command ask for. A flag may be given once only, but for the one
that makes the command more talkative.

* `Arguments.parse`: the meaning of some words.
-/

set_option autoImplicit false

namespace Provision.CommandLine

/-- What is asked for. -/
structure Arguments where
  input : Option String := none
  filesDirectory : Option String := none
  output : Option String := none
  pretty : Bool := false
  strict : Bool := false
  raw : Bool := false
  noCompress : Bool := false
  debugTranslations : Bool := false
  listVariants : Bool := false
  verbose : Nat := 0
  quiet : Bool := false
  noColor : Bool := false
  deriving DecidableEq, Repr, Inhabited

/-- Why the command does nothing else. -/
inductive Stop where
  /-- The words mean nothing. -/
  | usage
  | help
  | version
  deriving DecidableEq, Repr

/-- A flag without a value. -/
inductive Flag where
  | pretty
  | strict
  | raw
  | noCompress
  | debugTranslations
  | listVariants
  | verbose
  | quiet
  | noColor
  | help
  | version
  deriving DecidableEq, Repr

/-- A flag with a value. -/
inductive Setting where
  | filesDirectory
  | output
  deriving DecidableEq, Repr

/-- Anything that starts with a dash. -/
inductive Name where
  | flag (f : Flag)
  | setting (s : Setting)
  deriving DecidableEq, Repr

/-- The name after two dashes. -/
def Name.ofLong? : String → Option Name
  | "pretty" => some (.flag .pretty)
  | "strict" => some (.flag .strict)
  | "raw" => some (.flag .raw)
  | "no-compress" => some (.flag .noCompress)
  | "debug-translations" => some (.flag .debugTranslations)
  | "list-variants" => some (.flag .listVariants)
  | "verbose" => some (.flag .verbose)
  | "quiet" => some (.flag .quiet)
  | "no-color" => some (.flag .noColor)
  | "help" => some (.flag .help)
  | "version" => some (.flag .version)
  | "files-dir" => some (.setting .filesDirectory)
  | "output" => some (.setting .output)
  | _ => none

/-- The name that is one letter. -/
def Name.ofShort? : Char → Option Name
  | 'p' => some (.flag .pretty)
  | 's' => some (.flag .strict)
  | 'r' => some (.flag .raw)
  | 'v' => some (.flag .verbose)
  | 'q' => some (.flag .quiet)
  | 'h' => some (.flag .help)
  | 'V' => some (.flag .version)
  | 'd' => some (.setting .filesDirectory)
  | 'o' => some (.setting .output)
  | _ => none

namespace Arguments

/-- Fails if a condition holds. -/
def refuseIf (bad : Bool) (a : Arguments) : Except Stop Arguments :=
  if bad then .error .usage else .ok a

/-- Sets a flag. -/
def setFlag (a : Arguments) : Flag → Except Stop Arguments
  | .pretty => refuseIf a.pretty { a with pretty := true }
  | .strict => refuseIf a.strict { a with strict := true }
  | .raw => refuseIf a.raw { a with raw := true }
  | .noCompress => refuseIf a.noCompress { a with noCompress := true }
  | .debugTranslations => refuseIf a.debugTranslations { a with debugTranslations := true }
  | .listVariants => refuseIf a.listVariants { a with listVariants := true }
  | .verbose => .ok { a with verbose := min 255 (a.verbose + 1) }
  | .quiet => refuseIf a.quiet { a with quiet := true }
  | .noColor => refuseIf a.noColor { a with noColor := true }
  | .help => .error .help
  | .version => .error .version

/-- Sets a value, which must not be empty. -/
def setValue (a : Arguments) (value : String) : Setting → Except Stop Arguments
  | .filesDirectory =>
    refuseIf (value.isEmpty || a.filesDirectory.isSome) { a with filesDirectory := some value }
  | .output => refuseIf (value.isEmpty || a.output.isSome) { a with output := some value }

/-- Sets the input, which must not be empty. -/
def setInput (a : Arguments) (value : String) : Except Stop Arguments :=
  refuseIf (value.isEmpty || a.input.isSome) { a with input := some value }

/-- Whether a word starts with a dash and is more than that. -/
def isName (word : String) : Bool := word.startsWith "-" && word ≠ "-"

/-- The parts of a text before and after the first equals sign. -/
def splitValue (s : List Char) : String × Option String :=
  let name := String.ofList (s.takeWhile (· ≠ '='))
  match s.dropWhile (· ≠ '=') with
  | _ :: value => (name, some (String.ofList value))
  | [] => (name, none)

/-- Reads letters after one dash: the arguments, and the setting that still needs a value. -/
def readLetters (a : Arguments) : List Char → Except Stop (Arguments × Option Setting)
  | [] => .ok (a, none)
  | c :: rest => match Name.ofShort? c with
    | none => .error .usage
    | some (.flag f) => do readLetters (← a.setFlag f) rest
    | some (.setting s) => match rest with
      | [] => .ok (a, some s)
      | '=' :: value => do .ok (← a.setValue (String.ofList value) s, none)
      | value => do .ok (← a.setValue (String.ofList value) s, none)

/-- Reads a word that starts with a dash: the arguments, and the setting that still needs a
value. -/
def readName (a : Arguments) (word : String) : Except Stop (Arguments × Option Setting) :=
  match word.toList with
  | '-' :: '-' :: rest =>
    let (name, value) := splitValue rest
    match Name.ofLong? name, value with
    | none, _ => .error .usage
    | some (.flag f), none => do .ok (← a.setFlag f, none)
    | some (.flag _), some _ => .error .usage
    | some (.setting s), some value => do .ok (← a.setValue value s, none)
    | some (.setting s), none => .ok (a, some s)
  | letters => readLetters a letters.tail

/-- Reads words; `pending` is the setting that the next one is the value of. -/
def readWords : (pending : Option Setting) → Arguments → List String → Except Stop Arguments
  | some _, _, [] => .error .usage
  | none, a, [] => .ok a
  | some s, a, word :: rest =>
    if isName word then .error .usage else do readWords none (← a.setValue word s) rest
  | none, a, word :: rest =>
    if word = "--" then rest.foldlM setInput a
    else if isName word then do
      let (a, pending) ← a.readName word
      readWords pending a rest
    else do readWords none (← a.setInput word) rest

/-- The meaning of the words after the name of the command. Being quiet and being talkative exclude
each other. -/
def parse (words : List String) : Except Stop Arguments := do
  let a ← readWords none {} words
  refuseIf (a.quiet && a.verbose > 0) a

/-- The file to read; a dash stands for the standard input. -/
def inputPath (a : Arguments) : Option String := a.input.filter (· ≠ "-")

/-- How much is logged. -/
def verbosity (a : Arguments) : Nat := if a.quiet then 0 else a.verbose

end Arguments

end Provision.CommandLine
