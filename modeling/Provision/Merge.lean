import Provision.Json.Printer
import Provision.Pattern
import Provision.Provenance

/-!
# Merging two configs

A config is laid over another one. Objects are merged member by member, and so are entries of lists
that have the same key, such as two units of one name; other entries are appended. Everything else
of the upper config replaces what is below it, unless it is null. Nothing of the lower config
changes its place.

* `merge`: the merged config, with the origins that its parts had before.
-/

set_option autoImplicit false

namespace Provision.Merge

/-! ## Keys of entries -/

/-- What the entries of a list are recognised by. -/
inductive KeyKind where
  | field (name : String)
  /-- Partitions: the label, or else the number. -/
  | partition
  /-- The entry itself. -/
  | scalar
  deriving DecidableEq, Repr

/-- The lists whose entries have keys. -/
def keyedLists : List (Pattern × KeyKind) :=
  [ (.ofText "storage.disks", .field "device"),
    (.ofText "storage.disks.*.partitions", .partition),
    (.ofText "storage.raid", .field "name"),
    (.ofText "storage.filesystems", .field "device"),
    (.ofText "storage.luks", .field "name"),
    (.ofText "storage.files", .field "path"),
    (.ofText "storage.directories", .field "path"),
    (.ofText "storage.links", .field "path"),
    (.ofText "systemd.units", .field "name"),
    (.ofText "systemd.units.*.dropins", .field "name"),
    (.ofText "passwd.users", .field "name"),
    (.ofText "passwd.groups", .field "name"),
    (.ofText "kernelArguments.shouldExist", .scalar),
    (.ofText "kernelArguments.shouldNotExist", .scalar) ]

/-- What the entries of the list at a trail are recognised by. -/
def keyKindAt (trail : Trail) : Option KeyKind :=
  (keyedLists.find? (·.1.fits trail)).map (·.2)

/-- The text of a member, if it has one. -/
def textAt (name : String) (entry : Json) : Option String := (entry.get? name).bind Json.text?

/-- The key of an entry. -/
def keyOf? (kind : KeyKind) (entry : Json) : Option String :=
  match kind with
  | .field name => textAt name entry
  | .partition => match textAt "label" entry with
    | some label => some ("label:" ++ label)
    | none => (((entry.get? "number").bind Json.int64?).filter (· ≠ 0)).map fun n =>
      "number:" ++ toString n
  | .scalar => match entry with
    | .str s => some s
    | .bool b => some (Json.bool b).compact
    | .num n => some (Json.num n).compact
    | _ => none

/-! ## Nodes -/

mutual

/-- The trails of all nodes of a value. -/
def trails : Json → List Trail
  | .arr items => [] :: itemTrails 0 items
  | .obj members => [] :: memberTrails members
  | _ => [[]]

/-- The trails of all nodes of items. -/
def itemTrails : (position : Nat) → List Json → List Trail
  | _, [] => []
  | position, x :: rest =>
    (trails x).map (.index position :: ·) ++ itemTrails (position + 1) rest

/-- The trails of all nodes of members. -/
def memberTrails : List (String × Json) → List Trail
  | [] => []
  | (k, x) :: rest => (trails x).map (.key k :: ·) ++ memberTrails rest

end

/-- A merged value, and what became of the nodes of the two values. -/
structure Merged (α : Type) where
  value : α
  /-- The nodes of the lower config that are part of it, where they always were. -/
  kept : List Trail
  /-- The nodes of the upper config that are part of it: where they were and where they are. -/
  moved : List (Trail × Trail)

namespace Merged

/-- A value of the lower config. -/
def lower (here : Trail) (x : Json) : Merged Json := ⟨x, (trails x).map (here ++ ·), []⟩

/-- A value of the upper config. -/
def upper (there here : Trail) (x : Json) : Merged Json :=
  ⟨x, [], (trails x).map fun t => (there ++ t, here ++ t)⟩

/-- A merged part at the front of the merged parts that follow it. -/
def cons {α β : Type} (f : α → β) (x : Merged α) (rest : Merged (List β)) : Merged (List β) :=
  ⟨f x.value :: rest.value, x.kept ++ rest.kept, x.moved ++ rest.moved⟩

/-- A container whose parts are merged is itself part of both configs. -/
def container {α : Type} (there here : Trail) (f : α → Json) (x : Merged α) : Merged Json :=
  ⟨f x.value, here :: x.kept, (there, here) :: x.moved⟩

end Merged

/-- Takes the first entry with a key out of a list. -/
def takeKeyed (kind : KeyKind) (key : String) :
    List (Nat × Json) → Option ((Nat × Json) × List (Nat × Json))
  | [] => none
  | e :: rest =>
    if keyOf? kind e.2 = some key then some (e, rest)
    else (takeKeyed kind key rest).map fun (found, left) => (found, e :: left)

/-- Takes the partner of an entry of a lower list out of the entries of the upper one. -/
def takePartner (kind : Option KeyKind) (entry : Json) (entries : List (Nat × Json)) :
    Option ((Nat × Json) × List (Nat × Json)) := do
  let kind ← kind
  let key ← keyOf? kind entry
  takeKeyed kind key entries

/-- The entries of an upper list that have no partner, from a position on. -/
def appended (there here : Trail) : (position : Nat) → List (Nat × Json) → Merged (List Json)
  | _, [] => ⟨[], [], []⟩
  | position, (j, x) :: rest =>
    .cons id (.upper (there.index j) (here.index position) x)
      (appended there here (position + 1) rest)

/-- The members of an upper object that the lower one does not have. -/
def added (there here : Trail) (lower : List (String × Json)) :
    List (String × Json) → Merged (List (String × Json))
  | [] => ⟨[], [], []⟩
  | (k, x) :: rest =>
    if (Json.lookup k lower).isSome then added there here lower rest
    else .cons (k, ·) (.upper (there.key k) (here.key k) x) (added there here lower rest)

mutual

/-- Merges a value at `there` of the upper config over one at `here` of the lower one. -/
def mergeValue (there here : Trail) : (lower upper : Json) → Merged Json
  | .obj lower, upper => match upper with
    | .null => .lower here (.obj lower)
    | .obj members =>
      let both := mergeMembers there here members lower
      let rest := added there here lower members
      .container there here .obj
        ⟨both.value ++ rest.value, both.kept ++ rest.kept, both.moved ++ rest.moved⟩
    | x => .upper there here x
  | .arr lower, upper => match upper with
    | .null => .lower here (.arr lower)
    | .arr items =>
      .container there here .arr
        (mergeItems there here (keyKindAt here) 0 (items.zipIdx.map fun (x, j) => (j, x)) lower)
    | x => .upper there here x
  | lower, upper => if upper = .null then .lower here lower else .upper there here upper

/-- Merges the members of a lower object with their partners among those of an upper one. -/
def mergeMembers (there here : Trail) (upper : List (String × Json)) :
    List (String × Json) → Merged (List (String × Json))
  | [] => ⟨[], [], []⟩
  | (k, x) :: rest =>
    let merged := match Json.lookup k upper with
      | some y => mergeValue (there.key k) (here.key k) x y
      | none => .lower (here.key k) x
    .cons (k, ·) merged (mergeMembers there here upper rest)

/-- Merges the entries of a lower list with their partners, and appends what is left. -/
def mergeItems (there here : Trail) (kind : Option KeyKind) :
    (position : Nat) → (upper : List (Nat × Json)) → List Json → Merged (List Json)
  | position, upper, [] => appended there here position upper
  | position, upper, x :: rest =>
    match takePartner kind x upper with
    | some ((j, y), left) =>
      .cons id (mergeValue (there.index j) (here.index position) x y)
        (mergeItems there here kind (position + 1) left rest)
    | none =>
      .cons id (.lower (here.index position) x)
        (mergeItems there here kind (position + 1) upper rest)

end

/-! ## Configs -/

/-- Lays a config over another one. A part that both configs have has the origin it had in the upper
one, if it had one there. -/
def merge (lower upper : Translated Json) : Translated Json :=
  let merged := mergeValue [] [] lower.value upper.value
  let kept := lower.provenance.origins.filter fun (place, _) => merged.kept.contains place
  let moved := upper.provenance.origins.filterMap fun (place, origin) =>
    (merged.moved.lookup place).map (·, origin)
  ⟨merged.value,
    { lower.provenance with
      origins := moved.foldl (fun o (place, origin) => o.insert place origin) kept },
    lower.report ++ upper.report⟩

end Provision.Merge
