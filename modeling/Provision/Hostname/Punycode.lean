/-!
# Letters written in ASCII

A label of a host name may hold any letters; where only ASCII is taken it is written with its ASCII
characters first and then, after the last hyphen, a row of numbers that say which other characters
to insert, and where. Characters go in by rising code point. A number is a count of places passed
since the last insertion, where each code point has as many places as the label has gaps, and is
written in digits whose weights adapt to the numbers before.

* `readNumber_length`: reading a number leaves a shorter text, so that `insertAll` ends.
* `decode?`: the label that a text stands for.
-/

set_option autoImplicit false

namespace Provision.Hostname.Punycode

/-- The value of a digit: letters first, then the ten digits. -/
def digit? (c : Char) : Option Nat :=
  if 'a' ≤ c ∧ c ≤ 'z' then some (c.toNat - 97)
  else if 'A' ≤ c ∧ c ≤ 'Z' then some (c.toNat - 65)
  else if '0' ≤ c ∧ c ≤ '9' then some (c.toNat - 22)
  else none

/-- Numbers have 32 bits. -/
def wordSize : Nat := 4294967296

/-- The digit below which the digit at place `k` is the last one of its number. -/
def threshold (k bias : Nat) : Nat :=
  if k ≤ bias then 1 else if bias + 26 ≤ k then 26 else k - bias

/-- Reads a number at the start of a text and adds it to `sum`. The digit at place `k` has the
given weight. -/
def readNumber? (bias : Nat) : List Char → Nat → Nat → Nat → Option (Nat × List Char)
  | [], _, _, _ => none
  | c :: s, k, weight, sum => do
    let d ← digit? c
    let sum := sum + d * weight
    let t := threshold k bias
    if wordSize ≤ sum then none
    else if d < t then some (sum, s)
    else if wordSize ≤ weight * (36 - t) then none
    else readNumber? bias s (k + 36) (weight * (36 - t)) sum

/-- Reading a number leaves a shorter text. -/
theorem readNumber_length {bias : Nat} {s : List Char} {k weight sum : Nat} {r : Nat × List Char}
    (h : readNumber? bias s k weight sum = some r) : r.2.length < s.length := by
  induction s generalizing k weight sum with
  | nil => simp [readNumber?] at h
  | cons c s ih =>
    rw [readNumber?] at h
    cases hd : digit? c with
    | none => simp [hd] at h
    | some d =>
      simp only [hd, Option.bind_eq_bind, Option.bind_some] at h
      split at h
      · simp at h
      · split at h
        · obtain rfl := Option.some.inj h
          simp
        · split at h
          · simp at h
          · have := ih h
            rw [List.length_cons]
            omega

/-- Divides a number by 35 until it is small; the second part counts 36 for each division. -/
def shrink (n k : Nat) : Nat × Nat :=
  if h : 455 < n then
    have : n / 35 < n := Nat.div_lt_self (by omega) (by omega)
    shrink (n / 35) (k + 36)
  else (n, k)
  termination_by n

/-- The bias after a number that inserted the last one of `count` characters. -/
def adapt (number count : Nat) (isFirst : Bool) : Nat :=
  let n := if isFirst then number / 700 else number / 2
  let (n, k) := shrink (n + n / count) 0
  k + 36 * n / (n + 38)

/-- Inserts the characters that a text of numbers says, from code point `n` and place `i` on. -/
def insertAll? (bias n i : Nat) (label : List Char) : List Char → Option (List Char)
  | [] => some label
  | c :: s =>
    match _read : readNumber? bias (c :: s) 36 1 i with
    | none => none
    | some (sum, rest) =>
      let count := label.length + 1
      let n := n + sum / count
      if n.isValidChar then
        insertAll? (adapt (sum - i) count (i == 0)) n (sum % count + 1)
          (label.insertIdx (sum % count) (Char.ofNat n)) rest
      else none
  termination_by s => s.length
  decreasing_by exact readNumber_length _read

/-- The label that a text stands for. Without a hyphen all of it is numbers, and so it is if the
only hyphen is at its start, which then is no digit. -/
def decode? (s : List Char) : Option (List Char) :=
  let numbers := (s.reverse.takeWhile (· ≠ '-')).reverse
  let ascii := s.take (s.length - numbers.length - 1)
  if ascii.any (128 ≤ ·.toNat) then none
  else insertAll? 72 128 0 ascii (if ascii.isEmpty then s else numbers)

end Provision.Hostname.Punycode
