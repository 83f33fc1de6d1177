/-!
# What is logged

The more talkative the command is asked to be, the more it logs. The environment may set the level
and the form.
-/

set_option autoImplicit false

namespace Provision.CommandLine

/-- The form of log lines. -/
inductive LogForm where
  | compact
  | full
  deriving DecidableEq, Repr, Inhabited

/-- The name of a form. -/
def LogForm.name : LogForm → String
  | .compact => "Compact"
  | .full => "Full"

/-- What is logged. -/
structure Logging where
  level : String := "warn"
  form : LogForm := .compact
  threads : Bool := false
  places : Bool := false
  spans : Bool := false
  deriving DecidableEq, Repr, Inhabited

namespace Logging

/-- What is logged at a verbosity. -/
def ofVerbosity : Nat → Logging
  | 0 => {}
  | 1 => { level := "info" }
  | 2 => { level := "debug", places := true }
  | _ => { level := "trace", form := .full, threads := true, places := true, spans := true }

/-- The form that a word names, in capital or small letters. -/
def formOf? (word : String) : Option LogForm :=
  let word := word.map Char.toLower
  if word = "compact" then some .compact
  else if word = "full" then some .full
  else none

/-- What is logged if the environment says something about the level or the form. A word that names
no form changes nothing. -/
def withEnvironment (l : Logging) (level form : Option String) : Logging :=
  { l with level := level.getD l.level, form := (form.bind formOf?).getD l.form }

end Logging

end Provision.CommandLine
