import Provision.Provenance

/-!
# Configs on the way

A document that is being made, with where its parts come from and what was found, and the nodes of
its storage: disks, files and whatever else is listed there.

* `Draft.push`: appends a node to a list of the storage.
-/

set_option autoImplicit false

namespace Provision

/-- A document on the way. -/
abbrev Draft := Translated Json

namespace Draft

/-- The draft of a document without anything. -/
def empty : Draft := ⟨.obj [], {}, []⟩

/-- The draft with an error at a place of the source. -/
def error (d : Draft) (trail : Trail) (problem : Problem) : Draft :=
  { d with report := d.report ++ Report.sourceError trail problem }

/-- The nodes of a kind. -/
def nodes (d : Draft) (kind : String) : List Json :=
  (((d.value.get? "storage").bind (·.get? kind)).bind Json.items?).getD []

/-- The position of the first node of a kind with a path. -/
def position? (d : Draft) (kind path : String) : Option Nat :=
  (d.nodes kind).findIdx? fun n => (n.get? "path").bind Json.text? = some path

/-- Changes a node of a kind. -/
def modifyNode (d : Draft) (kind : String) (position : Nat) (f : Json → Json) : Draft :=
  { d with value := d.value.modify "storage" (Json.modify kind (Json.modifyItem position f)) }

/-- Records an origin for a part that has none. -/
def addMissing (origin place : Trail) (p : Provenance) : Provenance :=
  if (p.find? place).isSome then p else p.add origin place

/-- Appends a node of a kind, all of which comes from one place. The storage and the list are made
if they are missing. -/
def push (d : Draft) (origin : Trail) (kind : String) (node : Json) : Draft :=
  let storage : Trail := [.key "storage"]
  let list := storage.key kind
  let p := addMissing origin list (addMissing origin storage d.provenance)
  let root := d.value.members
  match (Json.lookup "storage" root).getD (.obj []) with
  | .obj members => match (Json.lookup kind members).getD (.arr []) with
    | .arr items =>
      ⟨.obj (Json.insert "storage" (.obj (Json.insert kind (.arr (items ++ [node])) members)) root),
        p.addValue origin (list.index items.length) node, d.report⟩
    | _ => ⟨.obj root, p, d.report⟩
  | _ => ⟨.obj root, p, d.report⟩

end Draft

end Provision
