import Provision.Yaml.Scanner
import Provision.Yaml.Token

/-!
# From tokens to nodes

The grammar reads tokens from left to right and looks one token ahead. Where a node is missing it
puts an empty scalar; the two readings differ in where that stands, and the reading for places also
lets a key be missing. Tokens that end before the end of the text are an error only for what needs
the next one.

* `content?`: what a text holds up to the end of its first document.
-/

set_option autoImplicit false

namespace Provision.Yaml

/-- What the grammar has yet to read, and the anchors it has seen. -/
structure Pending where
  tokens : List Token.Known
  /-- How far the text is read for the tokens that were looked at. -/
  reached : Mark
  /-- The number of each name. -/
  anchors : List (String × Nat)

/-- Reading tokens, unless they are no document. -/
abbrev Parser := StateT Pending Option

namespace Parser

/-- The next token. -/
def peek : Parser Token := do
  let p ← get
  match p.tokens with
  | t :: _ =>
    set { p with reached := t.reached }
    pure t.token
  | [] => failure

/-- On to the token after it. -/
def skip : Parser Unit := modify fun p => { p with tokens := p.tokens.drop 1 }

/-- Gives a name a number: as many names as there are. A name given twice gets a new one. -/
def register (name : String) : Parser Nat := do
  let p ← get
  let number := p.anchors.length
  set { p with anchors := (name, number) :: p.anchors.filter (·.1 ≠ name) }
  pure number

/-- The number of a name. -/
def number (name : String) : Parser Nat := do
  match (← get).anchors.lookup name with
  | some n => pure n
  | none => failure

/-- What the handles of tags stand for. -/
abbrev Handles := List (String × String)

/-- A tag written out. -/
def resolveTag (handles : Handles) (handle suffix : String) : Parser String :=
  if handle.isEmpty then pure suffix
  else match handles.lookup handle with
    | some stem => pure (stem ++ suffix)
    | none => failure

/-- The anchor before a node, if there is one. -/
def anchor : Parser (Option Nat) := do
  match (← peek).kind with
  | .anchor name =>
    skip
    some <$> register name
  | _ => pure none

/-- The tag before a node, if there is one. -/
def tag (handles : Handles) : Parser (Option String) := do
  match (← peek).kind with
  | .tag handle suffix =>
    skip
    some <$> resolveTag handles handle suffix
  | _ => pure none

/-- The anchor and the tag before a node, in either order. -/
def properties (handles : Handles) : Parser Properties := do
  match ← anchor with
  | some a => pure ⟨some a, ← tag handles⟩
  | none =>
    let t ← tag handles
    if t.isSome then pure ⟨← anchor, t⟩ else pure ⟨none, none⟩

/-- An empty scalar. The reading for places writes it as a null. -/
def missing (r : Reading) (mark : Mark) : Node :=
  .scalar mark .none .plain (match r with | .values => "" | .places => "~")

/-- The node missing between two tokens of a block: the reading for values puts it behind the first,
that for places before the second. -/
def missingBetween (r : Reading) (before after : Token) : Node :=
  missing r (match r with | .values => before.stop | .places => after.start)

/-- The tokens that end an entry of a block mapping. -/
def endsBlockEntry (k : Token.Kind) : Bool := k = .key || k = .value || k = .blockEnd

mutual

/-- A node. Only where `block` is true may a block collection begin, and only where `indentless` is
true a sequence without an indentation of its own. -/
def node (r : Reading) (handles : Handles) : Nat → (block indentless : Bool) → Parser Node
  | 0, _, _ => failure
  | fuel + 1, block, indentless => do
    let first ← peek
    match r, first.kind with
    | .values, .alias name =>
      skip
      pure (.alias first.start (← number name))
    | .places, .alias _ | .places, .anchor _ | .places, .tag _ _ => failure
    | _, _ =>
      let p ← properties handles
      let t ← peek
      match t.kind, block with
      | .scalar style text, _ =>
        skip
        pure (.scalar first.start p style text)
      | .flowSequenceStart, _ =>
        skip
        let (items, stop) ← flowItems r handles fuel true
        pure (.sequence first.start stop p items)
      | .flowMappingStart, _ =>
        skip
        let (entries, stop) ← flowEntries r handles fuel true
        pure (.mapping first.start stop p entries)
      | .blockSequenceStart, true =>
        skip
        let (items, stop) ← blockItems r handles fuel
        pure (.sequence first.start stop p items)
      | .blockMappingStart, true =>
        skip
        let (entries, stop) ← blockEntries r handles fuel
        pure (.mapping first.start stop p entries)
      | kind, _ =>
        if indentless && kind = .blockEntry then do
          let (items, stop) ← indentlessItems r handles fuel
          pure (.sequence first.start stop p items)
        else if p.anchor.isSome || p.tag.isSome then
          pure (.scalar first.start p .plain "")
        else failure

/-- The items of a block sequence, and where it ends. -/
def blockItems (r : Reading) (handles : Handles) : Nat → Parser (List Node × Mark)
  | 0 => failure
  | fuel + 1 => do
    let t ← peek
    skip
    match t.kind with
    | .blockEntry =>
      let after ← peek
      let item ←
        if after.kind = .blockEntry || after.kind = .blockEnd then
          pure (missingBetween r t after)
        else node r handles fuel true false
      let (items, stop) ← blockItems r handles fuel
      pure (item :: items, stop)
    | .blockEnd => pure ([], t.start)
    | _ => failure

/-- The items of a sequence that stands at the indentation of its key, and where it ends. -/
def indentlessItems (r : Reading) (handles : Handles) : Nat → Parser (List Node × Mark)
  | 0 => failure
  | fuel + 1 => do
    let t ← peek
    if t.kind = .blockEntry then do
      skip
      let after ← peek
      let item ←
        if after.kind = .blockEntry || endsBlockEntry after.kind then
          pure (missingBetween r t after)
        else node r handles fuel true false
      let (items, stop) ← indentlessItems r handles fuel
      pure (item :: items, stop)
    else pure ([], t.start)

/-- The entries of a block mapping, and where it ends. -/
def blockEntries (r : Reading) (handles : Handles) : Nat → Parser (List (Node × Node) × Mark)
  | 0 => failure
  | fuel + 1 => do
    let t ← peek
    match t.kind with
    | .blockEnd =>
      skip
      pure ([], t.start)
    | kind =>
      let key ← match r, kind with
        | _, .key => do
          skip
          blockPart r handles fuel t
        | .places, .value => pure (missing r t.start)
        | _, _ => failure
      let colon ← peek
      let value ←
        if colon.kind = .value then do
          skip
          blockPart r handles fuel colon
        else pure (missing r colon.start)
      let (entries, stop) ← blockEntries r handles fuel
      pure ((key, value) :: entries, stop)

/-- The key or the value after its sign in a block mapping. -/
def blockPart (r : Reading) (handles : Handles) : Nat → Token → Parser Node
  | 0, _ => failure
  | fuel + 1, sign => do
    let after ← peek
    if endsBlockEntry after.kind then pure (missingBetween r sign after)
    else node r handles fuel true true

/-- The items of a flow sequence after its bracket or an item, and where it ends. -/
def flowItems (r : Reading) (handles : Handles) : Nat → (first : Bool) → Parser (List Node × Mark)
  | 0, _ => failure
  | fuel + 1, first => do
    let t ← peek
    if t.kind = .flowSequenceEnd then do
      skip
      pure ([], t.start)
    else
      if !first then
        if t.kind = .flowEntry then skip else failure
      let t ← peek
      if t.kind = .flowSequenceEnd then do
        skip
        pure ([], t.start)
      else
        let item ←
          if t.kind = .key then do
            skip
            flowPair r handles fuel t.start
          else node r handles fuel false false
        let (items, stop) ← flowItems r handles fuel false
        pure (item :: items, stop)

/-- A pair without braces in a flow sequence, after its question mark. No token ends it, so it ends
where the text is read to. -/
def flowPair (r : Reading) (handles : Handles) : Nat → Mark → Parser Node
  | 0, _ => failure
  | fuel + 1, start => do
    let t ← peek
    let key ←
      if t.kind = .value || t.kind = .flowEntry || t.kind = .flowSequenceEnd then do
        skip
        pure (missingBetween r t t)
      else node r handles fuel false false
    let colon ← peek
    let value ←
      if colon.kind = .value then do
        skip
        let after ← peek
        if after.kind = .flowEntry || after.kind = .flowSequenceEnd then
          pure (missing r after.start)
        else node r handles fuel false false
      else pure (missing r colon.start)
    pure (.mapping start (← get).reached .none [(key, value)])

/-- The entries of a flow mapping after its brace or an entry, and where it ends. A comma before
the brace counts as the end in the reading for places. -/
def flowEntries (r : Reading) (handles : Handles) :
    Nat → (first : Bool) → Parser (List (Node × Node) × Mark)
  | 0, _ => failure
  | fuel + 1, first => do
    let start ← peek
    if start.kind = .flowMappingEnd then do
      skip
      pure ([], start.start)
    else
      if !first then
        if start.kind = .flowEntry then skip else failure
      let t ← peek
      match r, t.kind with
      | _, .flowMappingEnd =>
        skip
        pure ([], start.start)
      | .values, .value => failure
      | _, kind =>
        let (key, valued) ←
          if kind = .key then do
            skip
            let after ← peek
            let key ←
              if after.kind = .value || after.kind = .flowEntry || after.kind = .flowMappingEnd then
                pure (missing r after.start)
              else node r handles fuel false false
            pure (key, true)
          else if kind = .value then pure (missing r t.start, true)
          else do
            let key ← node r handles fuel false false
            pure (key, false)
        let colon ← peek
        let value ←
          if valued && colon.kind = .value then do
            skip
            let after ← peek
            if after.kind = .flowEntry || after.kind = .flowMappingEnd then
              pure (missing r (match r with | .values => after.start | .places => colon.start))
            else node r handles fuel false false
          else pure (missing r colon.start)
        let (entries, stop) ← flowEntries r handles fuel false
        pure ((key, value) :: entries, stop)

end

/-! ## Documents -/

/-- The token of a directive. -/
def isDirective : Token.Kind → Bool
  | .version _ _ | .tagHandle _ _ | .otherDirective => true
  | _ => false

/-- The handles that need no directive. -/
def standardHandles : Handles := [("!", "!"), ("!!", "tag:yaml.org,2002:")]

/-- The directives before a document. There is at most one version, and each handle is given once;
the reading for values knows the versions 1.1 and 1.2 only. -/
def directives (r : Reading) : Nat → (versioned : Bool) → Handles → Parser Handles
  | 0, _, _ => failure
  | fuel + 1, versioned, handles => do
    match (← peek).kind with
    | .version major minor =>
      skip
      let known := r = .places || (major = 1 && (minor = 1 || minor = 2))
      if versioned || !known then failure else directives r fuel true handles
    | .tagHandle handle stem =>
      skip
      if r = .values && (handles.lookup handle).isSome then failure
      else directives r fuel versioned ((handle, stem) :: handles)
    | .otherDirective =>
      skip
      directives r fuel versioned handles
    | _ => pure handles

/-- Over the lines that close documents. -/
def skipDocumentEnds : Nat → Parser Unit
  | 0 => failure
  | fuel + 1 => do
    if (← peek).kind = .documentEnd then
      skip
      skipDocumentEnds fuel

/-- What a text holds up to the end of its first document. In the reading for values no other
document may follow; in that for places no directive may follow at once. -/
def content (r : Reading) (size : Nat) : Parser Content := do
  if r = .places then skipDocumentEnds size
  let first ← peek
  if first.kind = .streamEnd then pure (.nothing first.start)
  else
    let root ←
      if isDirective first.kind || first.kind = .documentStart then do
        let handles ← directives r size false []
        let opening ← peek
        skip
        let body ← peek
        if opening.kind ≠ .documentStart then failure
        else if isDirective body.kind || body.kind = .documentStart || body.kind = .documentEnd ||
            body.kind = .streamEnd then
          pure (missing r body.start)
        else node r (handles ++ standardHandles) size true false
      else node r standardHandles size true false
    match r with
    | .values =>
      skipDocumentEnds size
      if (← peek).kind = .streamEnd then pure (.document root) else failure
    | .places =>
      if isDirective (← peek).kind then failure else pure (.document root)

end Parser

/-- What a text holds, unless it is malformed. -/
def content? (r : Reading) (text : List Char) : Option Content :=
  let tokens := scan r text
  (Parser.content r (4 * tokens.length + 4) |>.run ⟨tokens, ⟨0, 0, 0⟩, []⟩).map (·.1)

end Provision.Yaml
