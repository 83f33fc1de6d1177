import Provision.Yaml.Cursor

/-!
# The tokens and the nodes of a document

Indentation and punctuation become tokens, so that the grammar after them needs no layout. Nodes are
what the grammar makes of the tokens. Aliases still stand for themselves, and scalars are text:
which of them are numbers or truth values is decided later, and only in the reading for values.
-/

set_option autoImplicit false

namespace Provision.Yaml

/-! ## Tokens -/

/-- How a scalar is written. -/
inductive Style where
  | plain | singleQuoted | doubleQuoted | literal | folded
  deriving DecidableEq, Repr, Inhabited

/-- What a token is. -/
inductive Token.Kind where
  | streamEnd
  | version (major minor : Nat)
  | tagHandle (handle stem : String)
  | otherDirective
  | documentStart | documentEnd
  | blockSequenceStart | blockMappingStart | blockEnd
  | flowSequenceStart | flowSequenceEnd | flowMappingStart | flowMappingEnd
  | blockEntry | flowEntry | key | value
  | alias (name : String)
  | anchor (name : String)
  | tag (handle suffix : String)
  | scalar (style : Style) (text : String)
  deriving DecidableEq, Repr, Inhabited

/-- A token with its place. -/
structure Token where
  kind : Token.Kind
  start : Mark
  stop : Mark
  deriving DecidableEq, Repr, Inhabited

/-- A token as it becomes known. What may be the start of a key is known only when the colon after
it is found or ruled out. -/
structure Token.Known where
  token : Token
  /-- How far the text is read by then. -/
  reached : Mark
  deriving DecidableEq, Repr, Inhabited

/-! ## Nodes -/

/-- What may stand before a node: an anchor, by its number, and a tag, written out. -/
structure Properties where
  anchor : Option Nat
  tag : Option String
  deriving DecidableEq, Repr, Inhabited

/-- A node without anchor and tag. -/
def Properties.none : Properties := ⟨.none, .none⟩

/-- A part of a document. Collections know where they end, scalars only where they start. -/
inductive Node where
  | scalar (mark : Mark) (properties : Properties) (style : Style) (text : String)
  | sequence (start stop : Mark) (properties : Properties) (items : List Node)
  | mapping (start stop : Mark) (properties : Properties) (entries : List (Node × Node))
  /-- The node that bears an anchor's number. -/
  | alias (mark : Mark) (anchor : Nat)
  deriving Repr, Inhabited

/-- What a text holds: a document, or nothing up to where it ends. -/
inductive Content where
  | nothing (stop : Mark)
  | document (root : Node)
  deriving Repr, Inhabited

end Provision.Yaml
