import Provision.Text.Blank
import Provision.Word

/-!
# File modes as texts

A mode is written as a number, or as a text that shows its base: a zero in front, or `0o`, stands
for octal digits.

* `modeOfText?`: the mode that a text denotes.
-/

set_option autoImplicit false

namespace Provision.Decode

/-- A whole number of 64 bits written in a base up to ten, with an optional sign. -/
def signed? (base : Nat) (s : List Char) : Option Int :=
  let (negative, digits) := match s with
    | '-' :: r => (true, r)
    | '+' :: r => (false, r)
    | _ => (false, s)
  if digits.isEmpty || !digits.all (fun c => c.isDigit && c.toNat - 48 < base) then none
  else
    let size : Int := (digits.foldl (fun n c => n * base + (c.toNat - 48)) 0 : Nat)
    let n := if negative then -size else size
    if Word.holdsSigned n then some n else none

/-- The mode that a text denotes. -/
def modeOfText? (s : String) : Option Int :=
  match Text.trim s.toList with
  | '0' :: 'o' :: octal => signed? 8 octal
  | '0' :: c :: rest => signed? 8 (c :: rest)
  | decimal => signed? 10 decimal

end Provision.Decode
