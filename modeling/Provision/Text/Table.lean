/-!
# Tables of code points

A table is kept as a text: rows divided by blanks, the numbers of a row in hexadecimal digits and
divided by commas. Most tables are of runs, rows with the first and the last code point of each.

* `rows`, `runs`: the rows of a table, and its runs if it is one of runs.
* `covers`: whether a character is in one of the runs.
-/

set_option autoImplicit false

namespace Provision.Text.Table

/-- What is read of a table so far, latest first: the rows that are complete, the numbers of the
row being read, and the number being read if one has begun. -/
structure Reading where
  rows : List (List Nat) := []
  row : List Nat := []
  number : Option Nat := none

/-- The value of a hexadecimal digit. -/
def digit? (c : Char) : Option Nat :=
  if '0' ≤ c ∧ c ≤ '9' then some (c.toNat - 48)
  else if 'a' ≤ c ∧ c ≤ 'f' then some (c.toNat - 87)
  else none

/-- Ends the number being read. -/
def Reading.endNumber (r : Reading) : Reading :=
  match r.number with
  | none => r
  | some n => ⟨r.rows, n :: r.row, none⟩

/-- Ends the row being read. -/
def Reading.endRow (r : Reading) : Reading :=
  match r.endNumber with
  | ⟨rows, [], _⟩ => ⟨rows, [], none⟩
  | ⟨rows, row, _⟩ => ⟨row.reverse :: rows, [], none⟩

/-- Reads one more character. -/
def Reading.push (r : Reading) (c : Char) : Reading :=
  match digit? c with
  | some d => { r with number := some (16 * r.number.getD 0 + d) }
  | none => if c = ',' then r.endNumber else r.endRow

/-- The rows of a table. -/
def rows (table : String) : List (List Nat) :=
  (table.toList.foldl Reading.push {}).endRow.rows.reverse

/-- The runs of a table, first and last code point of each. -/
def runs (table : String) : List (Nat × Nat) :=
  (rows table).filterMap fun
    | [first, last] => some (first, last)
    | _ => none

/-- Whether a character is in one of the runs. -/
def covers (table : List (Nat × Nat)) (c : Char) : Bool :=
  table.any fun (first, last) => first ≤ c.toNat && c.toNat ≤ last

end Provision.Text.Table
