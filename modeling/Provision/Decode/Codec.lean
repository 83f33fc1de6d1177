import Provision.Decode.Failure
import Provision.Json.Basic

/-!
# Forms of values

A form says how the values of a type are written as JSON and how they are read, from JSON or from
another kind of document. Each kind of document has a view, which says what counts as a text, a
number, a list or a record there; a form is read through any view.

* `Codec.record`: records, whose fields are written in their order and read in any order.
* `RecordField.plain`, `RecordField.sparse`: fields that are always written, and fields left out
  when empty.
-/

set_option autoImplicit false

namespace Provision.Decode

/-- What names a field: its name, or its position where the document has a number as a key. -/
inductive Key where
  | name (s : String)
  | number (n : Nat)
  deriving DecidableEq, Repr

/-- The parts of a value that is read as a record. -/
inductive Parts (ν : Type) where
  | named (entries : List (ν × ν))
  | listed (items : List ν)

/-- How the values `ν` of a kind of document are looked at. -/
structure View (ν : Type) where
  /-- A failure at a value. -/
  fail : ν → Mismatch → Failure
  text : ν → Except Failure String
  bool : ν → Except Failure Bool
  int : ν → Except Failure Int
  /-- A file mode: a number, or a text that denotes one. -/
  mode : ν → Except Failure (Option Int)
  /-- The value itself unless it means that there is none. -/
  present : ν → Option ν
  items : ν → Except Failure (List ν)
  /-- The parts of a record of the given name. -/
  parts : String → ν → Except Failure (Parts ν)
  /-- The entries of a value that is read as a mapping. -/
  entries : ν → Except Failure (List (ν × ν))
  /-- A key that names a field. -/
  key : ν → Except Failure Key
  /-- The step to the value of a key. -/
  step : ν → Segment
  /-- The words for what a list of a length above the number of fields should have been. -/
  surplus : (fields : Nat) → String

/-- The form of the values of a type. -/
structure Codec (α : Type) where
  write : α → Json
  read : {ν : Type} → View ν → ν → Except Failure α

/-- One field of the records `σ`. -/
structure RecordField (σ : Type) where
  name : String
  /-- Whether the field must be given. -/
  required : Bool
  /-- What is written for a record, if anything. -/
  write : σ → Option Json
  /-- Reads the field into a record. -/
  read : {ν : Type} → View ν → ν → σ → Except Failure σ

namespace Codec

/-- A text. -/
def text : Codec String := ⟨.str, fun v x => v.text x⟩

/-- A truth value. -/
def bool : Codec Bool := ⟨.bool, fun v x => v.bool x⟩

/-- A whole number of 64 bits. -/
def int : Codec Int := ⟨.int, fun v x => v.int x⟩

/-- A file mode that may be left out. -/
def mode : Codec (Option Int) :=
  ⟨fun m => (m.map Json.int).getD .null, fun v x => v.mode x⟩

/-- A value that may be missing. -/
def option {α : Type} (c : Codec α) : Codec (Option α) where
  write x := (x.map c.write).getD .null
  read v x := match v.present x with
    | none => .ok none
    | some x => (c.read v x).map some

/-- Reads items one after the other. -/
def readItems {α ν : Type} (read : ν → Except Failure α) :
    (position : Nat) → List ν → Except Failure (List α)
  | _, [] => .ok []
  | position, x :: rest => do
    let item ← below (.index position) (read x)
    let items ← readItems read (position + 1) rest
    .ok (item :: items)

/-- A list. -/
def list {α : Type} (c : Codec α) : Codec (List α) where
  write items := .arr (items.map c.write)
  read v x := do readItems (c.read v) 0 (← v.items x)

/-- Sets the text of a name among texts that are sorted by name. -/
def insertText (name value : String) : List (String × String) → List (String × String)
  | [] => [(name, value)]
  | (k, v) :: rest =>
    if name < k then (name, value) :: (k, v) :: rest
    else if name = k then (name, value) :: rest
    else (k, v) :: insertText name value rest

/-- Texts with names, sorted by name. -/
def texts : Codec (List (String × String)) where
  write entries := .obj (entries.map fun (k, v) => (k, .str v))
  read v x := do
    let read (known : List (String × String)) (entry : _ × _) :
        Except Failure (List (String × String)) := do
      let name ← v.text entry.1
      let value ← below (v.step entry.1) (v.text entry.2)
      .ok (insertText name value known)
    (← v.entries x).foldlM read []

end Codec

namespace RecordField

variable {σ τ α : Type}

/-- A field that is always written. -/
def plain (name : String) (c : Codec α) (get : σ → α) (set : α → σ → σ) : RecordField σ where
  name
  required := false
  write r := some (c.write (get r))
  read v x r := (c.read v x).map fun a => set a r

/-- A field that must be given. -/
def needed (name : String) (c : Codec α) (get : σ → α) (set : α → σ → σ) : RecordField σ :=
  { plain name c get set with required := true }

/-- A field that is not written if it has the value `empty`. -/
def sparse [DecidableEq α] (empty : α) (name : String) (c : Codec α) (get : σ → α)
    (set : α → σ → σ) : RecordField σ :=
  { plain name c get set with
    write := fun r => if get r = empty then none else some (c.write (get r)) }

/-- A field that is not written if it is missing. -/
def optional (name : String) (c : Codec α) (get : σ → Option α) (set : Option α → σ → σ) :
    RecordField σ :=
  { plain name c.option get set with write := fun r => (get r).map c.write }

/-- A field of a part of a larger record. -/
def lift (get : τ → σ) (set : σ → τ → τ) (f : RecordField σ) : RecordField τ where
  name := f.name
  required := f.required
  write r := f.write (get r)
  read v x r := (f.read v x (get r)).map fun a => set a r

/-- The members written for a record. -/
def members (fields : List (RecordField σ)) (r : σ) : List (String × Json) :=
  fields.filterMap fun f => (f.write r).map (f.name, ·)

/-- The field that a key names. -/
def find? (fields : List (RecordField σ)) : Key → Option (RecordField σ)
  | .name s => fields.find? (·.name = s)
  | .number n => fields[n]?

variable {ν : Type}

/-- Reads one entry with a known key into a record; the state also has the names of the fields read
before, none of which may be given again. A key that names no field is passed over. -/
def readKeyed (v : View ν) (fields : List (RecordField σ)) (whole : ν) (state : σ × List String)
    (key : Key) (entry : ν × ν) : Except Failure (σ × List String) :=
  match find? fields key with
  | none => .ok state
  | some f =>
    if f.name ∈ state.2 then .error (v.fail whole (.duplicate f.name))
    else do
      let r ← below (v.step entry.1) (f.read v entry.2 state.1)
      .ok (r, f.name :: state.2)

/-- Reads one entry into a record. -/
def readEntry (v : View ν) (fields : List (RecordField σ)) (whole : ν) (state : σ × List String)
    (entry : ν × ν) : Except Failure (σ × List String) := do
  let key ← v.key entry.1
  readKeyed v fields whole state key entry

/-- Reads entries into a record. -/
def readNamed (v : View ν) (fields : List (RecordField σ)) (empty : σ) (whole : ν)
    (entries : List (ν × ν)) : Except Failure σ := do
  let (r, seen) ← entries.foldlM (readEntry v fields whole) (empty, [])
  match fields.find? fun f => f.required && !seen.contains f.name with
  | some f => .error (v.fail whole (.missing f.name))
  | none => .ok r

/-- Reads items into the fields of a record in their order. -/
def readListed (v : View ν) (record : String) (count : Nat) (whole : ν) :
    List (RecordField σ) → (position : Nat) → List ν → σ → Except Failure σ
  | [], _, [], r => .ok r
  | [], position, rest, _ =>
    .error (v.fail whole (.surplus (position + rest.length) (v.surplus count)))
  | f :: fields, position, [], r =>
    if f.required then .error (v.fail whole (.shortage position record count))
    else readListed v record count whole fields position [] r
  | f :: fields, position, x :: rest, r => do
    let r ← below (.index position) (f.read v x r)
    readListed v record count whole fields (position + 1) rest r

end RecordField

/-- A record with the given fields. What is not given is as in `empty`. -/
def Codec.record {σ : Type} (name : String) (empty : σ) (fields : List (RecordField σ)) :
    Codec σ where
  write r := .obj (RecordField.members fields r)
  read v x := do
    match ← v.parts name x with
    | .named entries => RecordField.readNamed v fields empty x entries
    | .listed items => RecordField.readListed v name fields.length x fields 0 items empty

end Provision.Decode
