/-!
# Words of 64 bits

Whole numbers that are kept in words of 64 bits, and how large they may be.
-/

set_option autoImplicit false

namespace Provision.Word

/-- How many numbers a word can hold. -/
def count : Nat := 0x10000000000000000

/-- Half of the numbers: those below zero, where a word has a sign. -/
def half : Nat := 0x8000000000000000

/-- Whether a word with a sign holds a number. -/
def holdsSigned (n : Int) : Bool := -half ≤ n && n < half

/-- Whether a word holds a number, with a sign or without one. -/
def holds (n : Int) : Bool := -half ≤ n && n < count

end Provision.Word
