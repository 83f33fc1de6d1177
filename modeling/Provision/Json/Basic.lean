import Provision.Binary64
import Provision.Word

/-!
# JSON documents

Values whose objects keep the order of their members, with look-up and update by key.

* `lookup_insert`, `lookup_insert_of_ne`: what inserting a member does to look-ups.
-/

set_option autoImplicit false

namespace Provision

/-- A number of a document: whole numbers are kept exactly, others in binary. -/
inductive Json.Number where
  | int (n : Int)
  | float (x : Binary64)
  deriving DecidableEq, Repr, Inhabited

/-- A JSON value. -/
inductive Json where
  | null
  | bool (b : Bool)
  | num (n : Json.Number)
  | str (s : String)
  | arr (items : List Json)
  | obj (members : List (String × Json))
  deriving Repr, Inhabited

namespace Json

/-- A whole number as a value. -/
def int (n : Int) : Json := .num (.int n)

/-! ## Equality -/

mutual

/-- Decides equality of two values. -/
def decEq : (a b : Json) → Decidable (a = b)
  | .null, .null => isTrue rfl
  | .bool a, .bool b => decidable_of_iff (a = b) (by simp)
  | .num a, .num b => decidable_of_iff (a = b) (by simp)
  | .str a, .str b => decidable_of_iff (a = b) (by simp)
  | .arr a, .arr b => match decEqItems a b with
    | isTrue h => isTrue (by rw [h])
    | isFalse h => isFalse (by simpa using h)
  | .obj a, .obj b => match decEqMembers a b with
    | isTrue h => isTrue (by rw [h])
    | isFalse h => isFalse (by simpa using h)
  | .null, .bool _ | .null, .num _ | .null, .str _ | .null, .arr _ | .null, .obj _
  | .bool _, .null | .bool _, .num _ | .bool _, .str _ | .bool _, .arr _ | .bool _, .obj _
  | .num _, .null | .num _, .bool _ | .num _, .str _ | .num _, .arr _ | .num _, .obj _
  | .str _, .null | .str _, .bool _ | .str _, .num _ | .str _, .arr _ | .str _, .obj _
  | .arr _, .null | .arr _, .bool _ | .arr _, .num _ | .arr _, .str _ | .arr _, .obj _
  | .obj _, .null | .obj _, .bool _ | .obj _, .num _ | .obj _, .str _ | .obj _, .arr _ =>
    isFalse (by simp)

/-- Decides equality of two lists of values. -/
def decEqItems : (a b : List Json) → Decidable (a = b)
  | [], [] => isTrue rfl
  | [], _ :: _ | _ :: _, [] => isFalse (by simp)
  | a :: as, b :: bs => match decEq a b, decEqItems as bs with
    | isTrue h, isTrue h' => isTrue (by rw [h, h'])
    | isFalse h, _ => isFalse (by simp [h])
    | _, isFalse h => isFalse (by simp [h])

/-- Decides equality of two lists of members. -/
def decEqMembers : (a b : List (String × Json)) → Decidable (a = b)
  | [], [] => isTrue rfl
  | [], _ :: _ | _ :: _, [] => isFalse (by simp)
  | (k, a) :: as, (l, b) :: bs => match decEq a b, decEqMembers as bs with
    | isTrue h, isTrue h' => decidable_of_iff (k = l) (by simp [h, h'])
    | isFalse h, _ => isFalse (by simp [h])
    | _, isFalse h => isFalse (by simp [h])

end

instance : DecidableEq Json := decEq

/-! ## Members -/

/-- The value of a key among members. -/
def lookup (key : String) (members : List (String × Json)) : Option Json := members.lookup key

/-- Sets a member: in its place if the key is there, else at the end. -/
def insert (key : String) (value : Json) : List (String × Json) → List (String × Json)
  | [] => [(key, value)]
  | (k, v) :: rest => if k = key then (k, value) :: rest else (k, v) :: insert key value rest

@[simp] theorem lookup_insert (key : String) (value : Json) (members : List (String × Json)) :
    lookup key (insert key value members) = some value := by
  induction members with
  | nil => simp [insert, lookup]
  | cons m rest ih =>
    obtain ⟨k, v⟩ := m
    by_cases h : k = key
    · simp [insert, lookup, h]
    · have hne : (key == k) = false := by simpa using fun h' => h h'.symm
      simpa [insert, lookup, h, List.lookup_cons, hne] using ih

theorem lookup_insert_of_ne {key other : String} (h : other ≠ key) (value : Json)
    (members : List (String × Json)) :
    lookup other (insert key value members) = lookup other members := by
  have hne : (other == key) = false := by simpa using h
  induction members with
  | nil => simp [insert, lookup, List.lookup_cons, hne]
  | cons m rest ih =>
    obtain ⟨k, v⟩ := m
    by_cases hk : k = key
    · subst hk
      simp [insert, lookup, List.lookup_cons, hne]
    · simp only [insert, hk, if_false, lookup, List.lookup_cons]
      simp only [lookup] at ih
      rw [ih]

/-- The value of a key of an object. -/
def get? (key : String) : Json → Option Json
  | .obj members => lookup key members
  | _ => none

/-- The item at a position of an array. -/
def item? (index : Nat) : Json → Option Json
  | .arr items => items[index]?
  | _ => none

/-- The text, if the value is one. -/
def text? : Json → Option String
  | .str s => some s
  | _ => none

/-- The items, if the value is an array. -/
def items? : Json → Option (List Json)
  | .arr items => some items
  | _ => none

/-- The whole number, if the value is one that 64 bits with a sign hold. -/
def int64? : Json → Option Int
  | .num (.int n) => if Word.holdsSigned n then some n else none
  | _ => none

/-- Whether the value is an object. -/
def isObject : Json → Bool
  | .obj _ => true
  | _ => false

/-- The members, none if the value is no object. -/
def members : Json → List (String × Json)
  | .obj members => members
  | _ => []

/-- Changes the value of a key of an object, if it is there. -/
def modify (key : String) (f : Json → Json) : Json → Json
  | .obj members => .obj (members.map fun (k, v) => (k, if k = key then f v else v))
  | x => x

/-- Changes an item of an array, if it is there. -/
def modifyItem (position : Nat) (f : Json → Json) : Json → Json
  | .arr items => .arr (items.modify position f)
  | x => x

/-- Sets members of an object one after the other. -/
def setMembers (added : List (String × Json)) : Json → Json
  | .obj members => .obj (added.foldl (fun m e => insert e.1 e.2 m) members)
  | x => x

/-- Null, the empty text and empty containers carry no content. -/
def isEmpty : Json → Bool
  | .null => true
  | .str s => s.isEmpty
  | .arr items => items.isEmpty
  | .obj members => members.isEmpty
  | _ => false

end Json

end Provision
