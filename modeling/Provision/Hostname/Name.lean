import Provision.Text.Composition
import Provision.Text.Direction
import Provision.Text.Joining
import Provision.Text.Lines
import Provision.Hostname.Mapping
import Provision.Hostname.Punycode

/-!
# Names of hosts

A name of a host is a text of labels between dots. It is read by replacing each character by what
stands for it and composing the result, after which labels that are written in ASCII are turned
into the letters they stand for. What is left is a name if each label is one, and if labels of
both directions of writing do not get mixed up.

* `ofText?`: the name that a text stands for, `none` if it is none.
-/

set_option autoImplicit false

namespace Provision.Hostname

open Provision.Text (compose isMark joinersCount keepsOrder splitOn turnsDirection)

/-- Whether a character is of ASCII. -/
def isAscii (c : Char) : Bool := c.toNat < 0x80

/-- The ASCII characters that no name has: they end the host in a URL, or cannot be seen. -/
def isForbidden (c : Char) : Bool :=
  c.toNat ≤ 0x20 || c.toNat = 0x7f || "%#/:<>?@[\\]^|".toList.contains c

/-- The labels of a name. -/
def labels (name : List Char) : List (List Char) := splitOn '.' name

/-- The most characters of a label that is written in ASCII, after its mark. -/
def mostWritten : Nat := 2000

/-- The most characters of a label that is to be written in ASCII. -/
def mostUnwritten : Nat := 1000

/-- Whether a label could be the result of reading one: its characters stand for themselves, and
it is composed. -/
def isSettled (label : List Char) : Bool :=
  label.all (fun c => mapChar? c = some [c]) && compose label = label

/-- The label that a label stands for: itself, unless it is marked as written in ASCII. -/
def readLabel? (label : List Char) : Option (List Char) :=
  match label with
  | 'x' :: 'n' :: '-' :: '-' :: s =>
    if s.getLast? = some '-' || s.isEmpty || mostWritten < s.length then none
    else (Punycode.decode? s).filter isSettled
  | _ => some label

/-- Whether a label may stand in a name: it does not begin with a mark, has joiners only where
they count, and is short enough to be written in ASCII. -/
def isLabel (label : List Char) : Bool :=
  !label.head?.any isMark && joinersCount [] label &&
    (label.all isAscii || label.length ≤ mostUnwritten)

/-- The name that a text stands for. Labels in ASCII stay as they are written. -/
def ofText? (s : List Char) : Option (List Char) := do
  let mapped ← s.mapM mapChar?
  let name := compose mapped.flatten
  let read ← (labels name).mapM readLabel?
  let good := !name.any isForbidden && read.all isLabel && !read.flatten.any isForbidden &&
    (!read.flatten.any turnsDirection || read.all keepsOrder)
  if good then some name else none

end Provision.Hostname
