import Provision.Word

/-!
# Semantic versions

Three numbers, and after them what names a version before a release and what names a build.

* `Version.ofText?`: the version that a text denotes.
-/

set_option autoImplicit false

namespace Provision

/-- A semantic version. -/
structure Version where
  major : Nat
  minor : Nat
  patch : Nat
  /-- The names of a version before a release. -/
  pre : List String
  /-- The names of a build. -/
  build : List String
  deriving DecidableEq, Repr, Inhabited

namespace Version

/-- A release. -/
def release (major minor patch : Nat) : Version := ⟨major, minor, patch, [], []⟩

/-- Names between dots after a sign. -/
def namesText (sign : String) (names : List String) : String :=
  if names.isEmpty then "" else sign ++ ".".intercalate names

/-- The text of a version. -/
def text (v : Version) : String :=
  toString v.major ++ "." ++ toString v.minor ++ "." ++ toString v.patch ++
    namesText "-" v.pre ++ namesText "+" v.build

/-- A number of 64 bits without needless zeros, and what follows it. -/
def readNumber (s : List Char) : Option (Nat × List Char) :=
  let digits := s.takeWhile (·.isDigit)
  let n := digits.foldl (fun n d => 10 * n + (d.toNat - 48)) 0
  if digits.isEmpty || (digits.length > 1 && digits.head? = some '0') || n ≥ Word.count then none
  else some (n, s.drop digits.length)

/-- Whether a character may stand in a name. -/
def isNameChar (c : Char) : Bool := c.isAlphanum || c = '-'

/-- The pieces of a text between dots. -/
def splitDots (s : List Char) : List (List Char) :=
  s.foldr (fun c pieces => match pieces with
    | piece :: rest => if c = '.' then [] :: piece :: rest else (c :: piece) :: rest
    | [] => [[c]]) [[]]

/-- Names between dots, none of them empty. Where numbers are numbers they have no needless
zeros. -/
def readNames (numbers : Bool) (s : List Char) : Option (List String) :=
  let names := splitDots s
  let good (name : List Char) : Bool :=
    !name.isEmpty && name.all isNameChar &&
      !(numbers && name.length > 1 && name.head? = some '0' && name.all (·.isDigit))
  if names.all good then some (names.map String.ofList) else none

/-- The version that a text denotes. -/
def ofText? (s : String) : Option Version := do
  let (major, s) ← readNumber s.toList
  let s ← match s with
    | '.' :: s => some s
    | _ => none
  let (minor, s) ← readNumber s
  let s ← match s with
    | '.' :: s => some s
    | _ => none
  let (patch, s) ← readNumber s
  let (pre, s) ← match s with
    | '-' :: s => (readNames true (s.takeWhile (· ≠ '+'))).map fun names =>
      (names, s.dropWhile (· ≠ '+'))
    | _ => some ([], s)
  match s with
  | [] => some ⟨major, minor, patch, pre, []⟩
  | '+' :: s => (readNames false s).map fun names => ⟨major, minor, patch, pre, names⟩
  | _ => none

/-- Whether a version is at least a release with the given first two numbers. -/
def hasReached (v : Version) (major minor : Nat) : Bool :=
  v.major > major || (v.major = major && v.minor ≥ minor)

end Version

end Provision
