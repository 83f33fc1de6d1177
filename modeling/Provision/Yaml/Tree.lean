import Provision.Marker
import Provision.Path
import Provision.Text.Lines
import Provision.Text.Utf8
import Provision.Yaml.Grammar

/-!
# The places of a document

The same document read once more, for where its parts are. Only plain mappings, sequences and
scalars have a place: a document with an anchor, an alias, a tag or a collection as a key has no
tree. The reader knows where a scalar starts; where it ends is measured on the line it stands on.

* `closingQuote`: where a quoted scalar ends on its line.
* `widen`: the marker of a scalar from its start.
* `Tree.parse?`: the tree of a text.
* `Tree.markerFor`: the place that a diagnostic about a part is given.
-/

set_option autoImplicit false

namespace Provision.Yaml

open Provision.Text (Bytes)

/-- A document whose parts know their places. The text of a scalar that means null is left out. -/
inductive Tree where
  | leaf (value : Option String) (marker : Marker)
  /-- Keys with their places and their values. -/
  | map (entries : List (String × Marker × Tree)) (marker : Marker)
  | sequence (items : List Tree) (marker : Marker)
  deriving Repr, Inhabited

/-! ## The extent of a scalar -/

/-- How many characters a quoted text takes from inside its quotes up to and with the closing one.
A backslash guards the next character of a double-quoted text; a single quote is written twice. -/
def quotedLength (quote : Char) : List Char → Option Nat
  | [] => none
  | [c] => if c = quote then some 1 else none
  | c :: d :: rest =>
    if (c = '\\' && quote = '"') || (c = '\'' && quote = '\'' && d = '\'') then
      (quotedLength quote rest).map (· + 2)
    else if c = quote then some 1
    else (quotedLength quote (d :: rest)).map (· + 1)

/-- The position of the quote that closes the scalar opened by the first character. -/
def closingQuote (quote : Char) : List Char → Option Nat
  | [] => none
  | _ :: rest => quotedLength quote rest

/-- How many characters of its line a scalar takes, if it is written on one line. -/
def width (text : List Char) (line : List Char) : Option Nat :=
  match line with
  | [] => none
  | c :: _ =>
    if c = '\'' ∨ c = '"' then (closingQuote c line).map (· + 1)
    else if c = '|' ∨ c = '>' ∨ '\n' ∈ text then none
    else some text.length

/-- Widens the marker of a scalar that has no extent yet over its text, if that is on one line. -/
def widen (marker : Marker) (text : List Char) (lines : List (List Char)) : Marker :=
  if marker.stopLine ≠ marker.startLine ∨ marker.stopColumn ≠ marker.startColumn then marker
  else if marker.startLine = 0 then marker
  else match lines[marker.startLine - 1]? with
    | none => marker
    | some line =>
      let rest := line.drop (marker.startColumn - 1)
      match width text rest with
      | some n =>
        if n > rest.length then marker else { marker with stopColumn := marker.startColumn + n }
      | none => marker

/-! ## From nodes to trees -/

/-- A place as a reader counts it. -/
def Mark.toMarker (m : Mark) : Marker := .at (m.line + 1) (m.column + 1)

/-- The stretch between two places. -/
def stretch (start stop : Mark) : Marker :=
  ⟨start.line + 1, start.column + 1, stop.line + 1, stop.column + 1⟩

namespace Tree

/-- The place of the part. -/
def marker : Tree → Marker
  | .leaf _ m | .map _ m | .sequence _ m => m

/-- The document without parts. -/
def empty : Tree := .map [] (.at 1 1)

/-- Sets an entry, which becomes the last one. A key that is there keeps its marker. -/
def insert (key : String) (marker : Marker) (value : Tree)
    (entries : List (String × Marker × Tree)) : List (String × Marker × Tree) :=
  match entries.lookup key with
  | some (first, _) => entries.filter (·.1 ≠ key) ++ [(key, first, value)]
  | none => entries ++ [(key, marker, value)]

mutual

/-- The tree of a node of a document with the given lines. -/
def ofNode? (lines : List (List Char)) : Node → Option Tree
  | .scalar m _ _ text =>
    let null := text = "" || text = "~" || text = "null" || text = "Null" || text = "NULL"
    some (.leaf (if null then none else some text) (widen m.toMarker text.toList lines))
  | .sequence start stop _ items =>
    (ofItems? lines items).map fun items => .sequence items (stretch start stop)
  | .mapping start stop _ entries =>
    (ofEntries? lines [] entries).map fun entries => .map entries (stretch start stop)
  | .alias _ _ => none

/-- The trees of items. -/
def ofItems? (lines : List (List Char)) : List Node → Option (List Tree)
  | [] => some []
  | n :: rest => do
    let item ← ofNode? lines n
    let items ← ofItems? lines rest
    some (item :: items)

/-- The trees of entries after those that are known. -/
def ofEntries? (lines : List (List Char)) (known : List (String × Marker × Tree)) :
    List (Node × Node) → Option (List (String × Marker × Tree))
  | [] => some known
  | (.scalar m _ _ key, v) :: rest => do
    let value ← ofNode? lines v
    ofEntries? lines (insert key (widen m.toMarker key.toList lines) value known) rest
  | _ :: _ => none

end

/-- The tree of a text. The text ends at a NUL, and the outermost part must be a mapping; a text
without a document counts as a mapping without entries at its end. -/
def parse? (text : List Char) : Option Tree :=
  match content? .places (text.takeWhile fun c => !isEnd c) with
  | none => none
  | some (.nothing stop) => some (.map [] stop.toMarker)
  | some (.document root) =>
    match ofNode? (Text.lines text) root with
    | some (.map entries m) => some (.map entries m)
    | _ => none

/-- The tree of a document, the empty one if it has none. -/
def ofBytes (bytes : Bytes) : Tree := ((Text.decodeUtf8? bytes).bind parse?).getD empty

/-- The part one step further, with the place that stands for it: that of the key that holds it, or
its own in a sequence. -/
def step? : Segment → Tree → Option (Tree × Marker)
  | .key name, .map entries _ => (entries.lookup name).map fun (m, t) => (t, m)
  | .index i, .sequence items _ => items[i]?.map fun t => (t, t.marker)
  | _, _ => none

/-- The place for a diagnostic at a trail from a part that `holder` stands for. -/
def markerFrom : Trail → Marker → Tree → Marker
  | [], _, .leaf (some _) m => m
  | [], holder, _ => holder
  | s :: rest, holder, t => match t.step? s with
    | some (child, m) => markerFrom rest m child
    | none => match t with
      | .leaf (some _) m => m
      | _ => holder

/-- The place for a diagnostic at a trail: that of a scalar itself, and that of the key of anything
else. A trail that leads nowhere counts as far as it leads. -/
def markerFor (t : Tree) (trail : Trail) : Marker := markerFrom trail t.marker t

end Tree

end Provision.Yaml
