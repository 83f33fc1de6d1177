import Provision.Text.Utf8
import Provision.Word
import Provision.Yaml.Grammar
import Provision.Yaml.ScalarValue

/-!
# The values of a document

A document read for its values has no aliases: each stands for a copy of what its anchor is at. To
keep that finite, nesting is limited, and so is the number of copies in relation to the size of the
document. A document is refused as a whole if a scalar does not fit its tag or if a mapping has two
equal keys, wherever that is.

* `Datum.ofBytes?`: the values of a document, unless it is refused.
-/

set_option autoImplicit false

namespace Provision.Yaml

open Provision.Text (Bytes)

/-- A value of a document, with the place where it was written. -/
inductive Datum where
  /-- A scalar knows whether an alias stands for it. -/
  | scalar (mark : Mark) (tag : Option String) (style : Style) (text : String) (copied : Bool)
  | sequence (mark : Mark) (tag : Option String) (items : List Datum)
  | mapping (mark : Mark) (tag : Option String) (entries : List (Datum × Datum))
  deriving Repr, Inhabited

/-! ## Aliases -/

namespace Node

mutual

/-- The nodes with an anchor, in the order of the document. -/
def anchored : Node → List (Nat × Node)
  | .scalar m p style text =>
    match p.anchor with
    | some a => [(a, .scalar m p style text)]
    | none => []
  | .sequence start stop p items =>
    (match p.anchor with
      | some a => [(a, .sequence start stop p items)]
      | none => []) ++ anchoredItems items
  | .mapping start stop p entries =>
    (match p.anchor with
      | some a => [(a, .mapping start stop p entries)]
      | none => []) ++ anchoredEntries entries
  | .alias _ _ => []

/-- The nodes with an anchor among items. -/
def anchoredItems : List Node → List (Nat × Node)
  | [] => []
  | n :: rest => anchored n ++ anchoredItems rest

/-- The nodes with an anchor among entries. -/
def anchoredEntries : List (Node × Node) → List (Nat × Node)
  | [] => []
  | (k, v) :: rest => anchored k ++ anchored v ++ anchoredEntries rest

end

mutual

/-- The size of a node: collections count for their start and their end. -/
def size : Node → Nat
  | .scalar _ _ _ _ | .alias _ _ => 1
  | .sequence _ _ _ items => 2 + sizeItems items
  | .mapping _ _ _ entries => 2 + sizeEntries entries

/-- The size of items. -/
def sizeItems : List Node → Nat
  | [] => 0
  | n :: rest => size n + sizeItems rest

/-- The size of entries. -/
def sizeEntries : List (Node × Node) → Nat
  | [] => 0
  | (k, v) :: rest => size k + size v + sizeEntries rest

end

/-- How deep collections may be nested. -/
def deepest : Nat := 128

/-- How many aliases may be followed for each part of a document. -/
def aliasesPerPart : Nat := 100

/-- Replaces aliases by what they stand for, collections nested at most `depth` deep; the state
counts the aliases that may still be followed. -/
def expand (table : List (Nat × Node)) : (depth : Nat) → Node → StateT Nat Option Datum
  | depth, node => do
    let (node, copied) ← match node with
      | .alias _ number => do
        let left ← get
        if left = 0 then failure
        set (left - 1)
        match table.lookup number with
        | some target => pure (target, true)
        | none => failure
      | n => pure (n, false)
    match node, depth with
    | .scalar m p style text, _ => pure (.scalar m p.tag style text copied)
    | .sequence m _ p items, depth + 1 =>
      pure (.sequence m p.tag (← items.mapM (expand table depth)))
    | .mapping m _ p entries, depth + 1 =>
      let entries ← entries.mapM fun (k, v) => do
        let k ← expand table depth k
        let v ← expand table depth v
        pure (k, v)
      pure (.mapping m p.tag entries)
    | _, _ => failure

end Node

/-! ## Equal keys -/

namespace Datum

/-- Where the value was written. -/
def mark : Datum → Mark
  | .scalar m _ _ _ _ | .sequence m _ _ | .mapping m _ _ => m

/-- The name of a tag of the document's own, with which a value stands for a case of that name.
Tags of a schema name no case. -/
def caseName (tag : Option String) : Option String := do
  let t ← tag
  if t = "!" then some t
  else match t.toList with
    | '!' :: rest => some (String.ofList rest)
    | _ => none

mutual

/-- Whether two values are equal as keys: marks do not count, nor does the order of entries. -/
def same : Datum → Datum → Bool
  | .scalar _ t style s _, .scalar _ t' style' s' _ =>
    caseName t = caseName t' &&
      match ScalarValue.ofScalar? t style s, ScalarValue.ofScalar? t' style' s' with
      | some v, some v' => v.same v'
      | _, _ => false
  | .sequence _ t items, .sequence _ t' items' =>
    caseName t = caseName t' && sameItems items items'
  | .mapping _ t entries, .mapping _ t' entries' =>
    caseName t = caseName t' && entries.length = entries'.length && sameEntries entries entries'
  | _, _ => false

/-- Whether two lists of values are equal. -/
def sameItems : List Datum → List Datum → Bool
  | [], [] => true
  | a :: as, b :: bs => same a b && sameItems as bs
  | _, _ => false

/-- Whether each entry of the first list is in the second. -/
def sameEntries : List (Datum × Datum) → List (Datum × Datum) → Bool
  | [], _ => true
  | (k, v) :: rest, entries =>
    entries.any (fun e => same k e.1 && same v e.2) && sameEntries rest entries

end

/-- Whether no two keys are equal. -/
def distinctKeys : List Datum → Bool
  | [] => true
  | k :: rest => !rest.any (same k) && distinctKeys rest

mutual

/-- Whether every scalar fits its tag and 64 bits, and no mapping has equal keys. -/
def sound : Datum → Bool
  | .scalar _ tag style s _ =>
    match ScalarValue.ofScalar? tag style s with
    | some (.int n) => Word.holds n
    | some _ => true
    | none => false
  | .sequence _ _ items => soundItems items
  | .mapping _ _ entries => soundEntries entries && distinctKeys (entries.map (·.1))

/-- Whether all items are sound. -/
def soundItems : List Datum → Bool
  | [] => true
  | d :: rest => sound d && soundItems rest

/-- Whether all keys and values are sound. -/
def soundEntries : List (Datum × Datum) → Bool
  | [] => true
  | (k, v) :: rest => sound k && sound v && soundEntries rest

end

/-- The value of a document that holds none. -/
def absent : Datum := .scalar ⟨0, 0, 0⟩ none .plain "" false

/-- The values of a document, unless it is refused. -/
def ofBytes? (bytes : Bytes) : Option Datum := do
  let text ← Text.decodeUtf8? bytes
  if !text.all isAllowed then none
  else match ← content? .values text with
    | .nothing _ => some absent
    | .document root =>
      let (datum, _) ← root.expand root.anchored.reverse Node.deepest
        |>.run (Node.aliasesPerPart * root.size)
      if datum.sound then some datum else none

/-- The value of a key that is a text. -/
def get? (key : String) : Datum → Option Datum
  | .mapping _ _ entries => (entries.find? fun e => match e.1 with
    | .scalar _ tag style s _ =>
      caseName tag = none && ScalarValue.ofScalar? tag style s = some (.text key)
    | _ => false).map (·.2)
  | _ => none

/-- The text of a scalar that is nothing but a text. -/
def text? : Datum → Option String
  | .scalar _ tag style s _ =>
    match caseName tag, ScalarValue.ofScalar? tag style s with
    | none, some (.text s) => some s
    | _, _ => none
  | _ => none

end Datum

end Provision.Yaml
