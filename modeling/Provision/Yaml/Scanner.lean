import Provision.Yaml.PlainScalar
import Provision.Yaml.QuotedScalar
import Provision.Yaml.BlockScalar

/-!
# From text to tokens

Layout becomes tokens: a line indented deeper opens a block collection, one indented less closes
it. A scalar may turn out to be a key only at the colon after it; until then its place among the
tokens is remembered, and the tokens of the key are put there afterwards.

* `scan`: the tokens of a text.
-/

set_option autoImplicit false

namespace Provision.Yaml

/-- A place where a key may begin. -/
structure PossibleKey where
  possible : Bool
  /-- Nothing but a key may stand there. -/
  required : Bool
  /-- How many tokens lie before it. -/
  number : Nat
  mark : Mark
  deriving Repr, Inhabited

/-- An indentation to come back to. The reading for places also indents what follows a colon or a
dash by one column, which opens no block. -/
structure Indent where
  column : Int
  block : Bool
  deriving Repr, Inhabited

/-- What the scanner knows at a place of the text. -/
structure Scan where
  cursor : Cursor
  tokens : Array Token
  /-- How many flow collections are open. -/
  flow : Nat
  /-- A key may begin here. -/
  keyAllowed : Bool
  indent : Int
  indents : List Indent
  /-- The key that may have begun in each open flow collection, the innermost first, and in the
  block around them. -/
  keys : List PossibleKey
  /-- Where a colon may follow a quoted text or a collection without a blank. -/
  adjacent : Option Nat
  /-- A flow mapping was opened, or a key inside a flow collection. -/
  flowMapping : Bool
  /-- The last colon stands in a pair without braces, which is still open. -/
  pair : Bool
  ended : Bool
  deriving Repr

/-- No key. -/
def PossibleKey.none : PossibleKey := ⟨false, false, 0, ⟨0, 0, 0⟩⟩

namespace Scan

/-- Before the first token. -/
def start (text : List Char) : Scan :=
  ⟨.start text, #[], 0, true, -1, [], [.none], none, false, false, false⟩

/-- The place. -/
def mark (s : Scan) : Mark := s.cursor.mark

/-- The text is no document. -/
def fail {α : Type} (s : Scan) : Except Malformed α := .error ⟨s.mark⟩

/-- One more token. -/
def push (s : Scan) (token : Token) : Scan := { s with tokens := s.tokens.push token }

/-- A token between two places. -/
def token (kind : Token.Kind) (start stop : Cursor) : Token := ⟨kind, start.mark, stop.mark⟩

/-! ## Indentation -/

/-- Closes the blocks indented deeper than a column. -/
def unroll (s : Scan) (column : Int) : Scan :=
  let rec go : List Indent → Scan → Scan
    | [], s => s
    | i :: rest, s =>
      if s.indent ≤ column then s
      else
        let s := { s with indent := i.column, indents := rest }
        go rest (if i.block then s.push ⟨.blockEnd, s.mark, s.mark⟩ else s)
  if s.flow > 0 then s else go s.indents s

/-- Opens a block at a column if none is open there, its token at a position among the tokens. -/
def roll (s : Scan) (column : Nat) (position : Nat) (kind : Token.Kind) (mark : Mark) : Scan :=
  if s.flow > 0 then s
  else
    let s := match s.indents with
      | ⟨outer, false⟩ :: rest =>
        if s.indent ≤ (column : Int) then { s with indent := outer, indents := rest } else s
      | _ => s
    if s.indent < (column : Int) then
      { s with
        indent := column
        indents := ⟨s.indent, true⟩ :: s.indents
        tokens := s.tokens.insertIdxIfInBounds position ⟨kind, mark, mark⟩ }
    else s

/-- In the reading for places, indents what follows by one column. -/
def rollColumn (r : Reading) (s : Scan) : Scan :=
  match s.indents with
  | ⟨_, true⟩ :: _ =>
    if r = .places && s.flow = 0 then
      { s with indent := s.indent + 1, indents := ⟨s.indent, false⟩ :: s.indents }
    else s
  | _ => s

/-- Takes back the columns that opened no block. -/
def unrollColumns (s : Scan) : Scan :=
  let rec go : List Indent → Scan → Scan
    | ⟨outer, false⟩ :: rest, s => go rest { s with indent := outer, indents := rest }
    | _, s => s
  go s.indents s

/-! ## Keys -/

/-- A key that begins here is given up; that is an error where nothing else may stand. -/
def dropKey (s : Scan) : Except Malformed Scan :=
  match s.keys with
  | k :: rest =>
    if k.possible && k.required then s.fail
    else .ok { s with keys := { k with possible := false } :: rest }
  | [] => .ok s

/-- A key may begin here. -/
def saveKey (r : Reading) (s : Scan) : Except Malformed Scan := do
  if !s.keyAllowed then .ok s
  else
    let inBlock := r = .values || (s.indents.head?.map (·.block)).getD false
    let required := s.flow = 0 && s.indent = s.cursor.column && inBlock
    let key : PossibleKey := ⟨true, required, s.tokens.size, s.mark⟩
    let s ← s.dropKey
    .ok { s with keys := key :: s.keys.drop 1 }

/-- Keys that began too long ago are given up: a key stands on one line and is no longer than 1024
characters. Inside flow collections the reading for places asks neither. -/
def staleKeys (r : Reading) (s : Scan) : Except Malformed Scan :=
  let stale (k : PossibleKey) : Bool :=
    k.possible && (r = .values || s.flow = 0) &&
      (k.mark.line < s.mark.line || k.mark.index + 1024 < s.mark.index)
  if s.keys.any fun k => stale k && k.required then s.fail
  else
    .ok { s with keys := s.keys.map fun k => if stale k then { k with possible := false } else k }

/-! ## Between tokens -/

/-- Over blanks, comments and line breaks in the reading for values. A line may begin with a byte
order mark, which takes a column. Tabs may not indent a line that could begin with a key. -/
def skipBetweenValues : Nat → Scan → Scan
  | 0, s => s
  | fuel + 1, s =>
    let c := s.cursor
    let c := if c.mark.column = 0 && c.char.toNat = 0xfeff then c.skip else c
    let tabs := s.flow > 0 || !s.keyAllowed
    let c := c.skipWhile fun ch => ch = ' ' || (tabs && ch = '\t')
    let c := if c.char = '#' then c.skipComment .values else c
    if isBreak .values c.char then
      skipBetweenValues fuel
        { s with cursor := c.skipBreak, keyAllowed := s.keyAllowed || s.flow = 0 }
    else { s with cursor := c }

/-- Over blanks, comments and line breaks in the reading for places. Inside blocks a line of text
may not be indented by a tab. -/
def skipBetweenPlaces : Nat → Scan → Except Malformed Scan
  | 0, s => .ok s
  | fuel + 1, s =>
    let c := s.cursor
    if c.char = '\t' && !s.indents.isEmpty && c.fresh && c.column < s.indent then do
      let (_, _, c') ← c.skipToLineEnd true
      if isBreakOrEnd .places c'.char then skipBetweenPlaces fuel { s with cursor := c' }
      else .error ⟨c'.mark⟩
    else if isBlank c.char then skipBetweenPlaces fuel { s with cursor := c.skip }
    else if isBreak .places c.char then
      skipBetweenPlaces fuel
        { s with cursor := c.skipBreak, keyAllowed := s.keyAllowed || s.flow = 0 }
    else if c.char = '#' then
      skipBetweenPlaces fuel { s with cursor := c.skipComment .places }
    else .ok s

/-- Over everything up to the next token. -/
def skipBetween (r : Reading) (s : Scan) : Except Malformed Scan :=
  match r with
  | .values => .ok (skipBetweenValues (s.cursor.rest.length + 1) s)
  | .places => skipBetweenPlaces (s.cursor.rest.length + 1) s

/-- In the reading for places, over the blanks and the comment that end a line. -/
def skipLineEnd (r : Reading) (s : Scan) : Except Malformed Scan :=
  match r with
  | .values => .ok s
  | .places => do
    let (_, _, c) ← s.cursor.skipToLineEnd true
    .ok { s with cursor := c }

/-! ## Directives -/

/-- A number of at most nine digits. -/
def readVersionNumber (c : Cursor) : Except Malformed (Nat × Cursor) :=
  let after := c.skipWhile (·.isDigit)
  let digits := c.rest.take (c.rest.length - after.rest.length)
  if digits.isEmpty || digits.length > 9 then .error ⟨c.mark⟩
  else .ok (digits.foldl (fun n d => n * 10 + (d.toNat - 48)) 0, after)

/-- The characters of a tag. Only what stands for itself as a whole may hold those of flow
collections, and in the reading for places the mark of handles. -/
def isUriChar (r : Reading) (whole : Bool) (c : Char) : Bool :=
  isWord c || ";/?:@&=+$.~*'()".toList.contains c ||
    (whole && (c = ',' || c = '[' || c = ']')) ||
    match r with
    | .values => c = '!'
    | .places => c = '#' || (whole && c = '!')

/-- A byte written as a percent sign and two digits. -/
def readEscapedByte (c : Cursor) : Except Malformed (UInt8 × Cursor) :=
  match hexNumber? [c.peek 1, c.peek 2] with
  | some n => if c.char = '%' then .ok (n.toUInt8, c.skipN 3) else .error ⟨c.mark⟩
  | none => .error ⟨c.mark⟩

/-- A character written as escaped bytes. The reading for values takes them as UTF-8; that for
places takes them as the digits of the character's number. -/
def readEscapedChar (r : Reading) (c : Cursor) : Except Malformed (Char × Cursor) := do
  let (b, c) ← readEscapedByte c
  if b < 0x80 then .ok (Char.ofNat b.toNat, c)
  else
    let (count, bits) ←
      if 0xc0 ≤ b && b < 0xe0 then pure (1, b.toNat - 0xc0)
      else if 0xe0 ≤ b && b < 0xf0 then pure (2, b.toNat - 0xe0)
      else if 0xf0 ≤ b && b < 0xf8 then pure (3, b.toNat - 0xf0)
      else .error ⟨c.mark⟩
    let next (n : Nat) (b : UInt8) : Nat := match r with
      | .values => n * 64 + (b.toNat - 0x80)
      | .places => n * 256 + b.toNat
    let rec go : Nat → Nat → Cursor → Except Malformed (Nat × Cursor)
      | 0, n, c => .ok (n, c)
      | count + 1, n, c => do
        let (b, c) ← readEscapedByte c
        if 0x80 ≤ b && b < 0xc0 then go count (next n b) c else .error ⟨c.mark⟩
    let (n, c) ← go count (match r with | .values => bits | .places => b.toNat) c
    if n.isValidChar then .ok (Char.ofNat n, c) else .error ⟨c.mark⟩

/-- The characters of a tag. -/
def readUri (r : Reading) (whole : Bool) :
    Nat → List Char → Cursor → Except Malformed (List Char × Cursor)
  | 0, soFar, c => .ok (soFar.reverse, c)
  | fuel + 1, soFar, c =>
    if c.char = '%' then do
      let (ch, c) ← readEscapedChar r c
      readUri r whole fuel (ch :: soFar) c
    else if isUriChar r whole c.char then readUri r whole fuel (c.char :: soFar) c.skip
    else .ok (soFar.reverse, c)

/-- A handle such as `!` or `!name!`. -/
def readHandle (c : Cursor) : Except Malformed (List Char × Cursor) :=
  if c.char ≠ '!' then .error ⟨c.mark⟩
  else
    let after := c.skip.skipWhile isWord
    let after := if after.char = '!' then after.skip else after
    .ok (c.rest.take (c.rest.length - after.rest.length), after)

/-- Whether a handle has a closing mark of its own. -/
def closedHandle (handle : List Char) : Bool :=
  handle.length > 1 && handle.getLast? = some '!'

/-- A directive whose percent sign is at hand, up to the end of its line. Only the reading for
places passes over directives it does not know. -/
def readDirective (r : Reading) (c : Cursor) : Except Malformed (Token × Cursor) := do
  let named := c.skip.skipWhile isWord
  let name := String.ofList (c.skip.rest.take (c.skip.rest.length - named.rest.length))
  if name.isEmpty || !isSpaceOrEnd r named.char then .error ⟨c.mark⟩
  else
    let body := named.skipWhile isBlank
    let (kind, after) ←
      if name = "YAML" then do
        let (major, c') ← readVersionNumber body
        if c'.char ≠ '.' then .error ⟨c.mark⟩
        else
          let (minor, c') ← readVersionNumber c'.skip
          pure (Token.Kind.version major minor, c')
      else if name = "TAG" then do
        let (handle, c') ← readHandle body
        let divided := r = .places || isBlank c'.char
        if !(closedHandle handle || handle = ['!']) || !divided then .error ⟨c.mark⟩
        else
          let c' := c'.skipWhile isBlank
          let starts := r = .values || !isFlow c'.char
          let (stem, c') ← readUri r true (c'.rest.length + 1) [] c'
          if stem.isEmpty || !starts || !isSpaceOrEnd r c'.char then .error ⟨c.mark⟩
          else pure (Token.Kind.tagHandle (String.ofList handle) (String.ofList stem), c')
      else match r with
        | .values => .error ⟨c.mark⟩
        | .places => pure (Token.Kind.otherDirective, named.skipComment r)
    let lineEnd ← match r with
      | .values =>
        let c' := after.skipWhile isBlank
        pure (if c'.char = '#' then c'.skipComment r else c')
      | .places => do
        let (_, _, c') ← after.skipToLineEnd true
        pure c'
    if !isBreakOrEnd r lineEnd.char then .error ⟨c.mark⟩
    else
      .ok (token kind c after, if isBreak r lineEnd.char then lineEnd.skipBreak else lineEnd)

/-! ## Anchors and tags -/

/-- Whether a character may stand in the name of an anchor. -/
def isNameChar (r : Reading) (c : Char) : Bool :=
  match r with
  | .values => isWord c
  | .places => !(isSpaceOrEnd r c || isFlow c || c.toNat = 0xfeff)

/-- An anchor or an alias whose sign is at hand. -/
def readAnchor (r : Reading) (isAlias : Bool) (c : Cursor) : Except Malformed (Token × Cursor) :=
  let after := c.skip.skipWhile (isNameChar r)
  let name := String.ofList (c.skip.rest.take (c.skip.rest.length - after.rest.length))
  let ends := r = .places || isSpaceOrEnd r after.char ||
    "?:,]\x7d%@".toList.contains after.char || after.char.toNat = 0x60
  if name.isEmpty || !ends then .error ⟨c.mark⟩
  else .ok (token (if isAlias then .alias name else .anchor name) c after, after)

/-- A tag whose mark is at hand: its handle and the rest of it. -/
def readTag (r : Reading) (flow : Bool) (c : Cursor) : Except Malformed (Token × Cursor) := do
  let (handle, suffix, after) ←
    if c.peek 1 = '<' then do
      let (uri, c') ← readUri r true (c.rest.length + 1) [] (c.skipN 2)
      if (r = .values && uri.isEmpty) || c'.char ≠ '>' then .error ⟨c.mark⟩
      else pure ([], uri, c'.skip)
    else do
      let (handle, c') ← readHandle c
      let (uri, c') ← readUri r false (c.rest.length + 1) [] c'
      if closedHandle handle then
        if uri.isEmpty then .error ⟨c.mark⟩ else pure (handle, uri, c')
      else
        let suffix := handle.drop 1 ++ uri
        if suffix.isEmpty then pure ([], ['!'], c') else pure (['!'], suffix, c')
  let divided := match r with
    | .values => after.char = ','
    | .places => isFlow after.char
  if isSpaceOrEnd r after.char || (flow && divided) then
    .ok (token (.tag (String.ofList handle) (String.ofList suffix)) c after, after)
  else .error ⟨c.mark⟩

/-! ## Tokens -/

/-- The end of the text. -/
def readEnd (s : Scan) : Except Malformed Scan := do
  let m := s.mark
  let m := if m.column = 0 then m else ⟨m.index, m.line + 1, 0⟩
  let s := { s with cursor := { s.cursor with mark := m } }
  if s.keys.any fun k => k.possible && k.required then s.fail
  else
    let s := { s with keys := s.keys.map fun (k : PossibleKey) => { k with possible := false } }
    let s := s.unroll (-1)
    .ok { s.push ⟨.streamEnd, s.mark, s.mark⟩ with ended := true }

/-- A directive. -/
def fetchDirective (r : Reading) (s : Scan) : Except Malformed Scan := do
  let s ← (s.unroll (-1)).dropKey
  let (t, c) ← readDirective r s.cursor
  .ok { s.push t with cursor := c, keyAllowed := false }

/-- A line that opens or closes a document. -/
def fetchDocumentMark (r : Reading) (s : Scan) : Except Malformed Scan := do
  let s ← (s.unroll (-1)).dropKey
  let kind := if s.cursor.char = '-' then Token.Kind.documentStart else .documentEnd
  let after := s.cursor.skipN 3
  let s := { s.push (token kind s.cursor after) with cursor := after, keyAllowed := false }
  match r, kind with
  | .places, .documentEnd => do
    let s ← s.skipLineEnd r
    if isBreakOrEnd r s.cursor.char then .ok s else s.fail
  | _, _ => .ok s

/-- An opening bracket or brace. -/
def fetchFlowStart (r : Reading) (s : Scan) : Except Malformed Scan := do
  let s ← s.saveKey r
  let s := s.rollColumn r
  let sequence := s.cursor.char = '['
  let after := s.cursor.skip
  let kind := if sequence then Token.Kind.flowSequenceStart else .flowMappingStart
  let t := token kind s.cursor after
  -- the reading for places counts the open collections in a byte
  if r = .places && s.flow ≥ 255 then s.fail
  else
    let s := { s with
      cursor := after, flow := s.flow + 1, keyAllowed := true, keys := .none :: s.keys
      flowMapping := s.flowMapping || !sequence }
    let s ← s.skipLineEnd r
    .ok (s.push t)

/-- In the reading for places, the end of a pair without braces. One with another colon inside is
not known any more, and has no end. -/
def endPair (r : Reading) (s : Scan) : Scan :=
  if r = .places && s.pair then
    { s.push ⟨.flowMappingEnd, s.mark, s.mark⟩ with flowMapping := false, pair := false }
  else s

/-- A closing bracket or brace. -/
def fetchFlowEnd (r : Reading) (s : Scan) : Except Malformed Scan := do
  let s ← s.dropKey
  let sequence := s.cursor.char = ']'
  let s := if s.flow > 0 then { s with flow := s.flow - 1, keys := s.keys.drop 1 } else s
  let s := s.endPair r
  let after := s.cursor.skip
  let kind := if sequence then Token.Kind.flowSequenceEnd else .flowMappingEnd
  let t := token kind s.cursor after
  let s ← { s with cursor := after, keyAllowed := false }.skipLineEnd r
  let s := if s.flow > 0 then { s with adjacent := some s.mark.index } else s
  .ok (s.push t)

/-- A comma. -/
def fetchFlowEntry (r : Reading) (s : Scan) : Except Malformed Scan := do
  let s ← s.dropKey
  let s := s.endPair r
  let after := s.cursor.skip
  let t := token .flowEntry s.cursor after
  let s ← { s with cursor := after, keyAllowed := true }.skipLineEnd r
  .ok (s.push t)

/-- A dash. In the reading for places its token stands where the text after it begins. -/
def fetchBlockEntry (r : Reading) (s : Scan) : Except Malformed Scan := do
  let c := s.cursor
  match r with
  | .values =>
    if s.flow = 0 && !s.keyAllowed then s.fail
    else
      let s := s.roll c.mark.column s.tokens.size .blockSequenceStart c.mark
      let s ← s.dropKey
      .ok { s.push (token .blockEntry c c.skip) with cursor := c.skip, keyAllowed := true }
  | .places =>
    if s.flow > 0 || !s.keyAllowed then s.fail
    else
      let s := s.roll c.mark.column s.tokens.size .blockSequenceStart c.mark
      let (tab, _, after) ← c.skip.skipToLineEnd true
      if tab && after.char = '-' && isSpaceOrEnd r (after.peek 1) then .error ⟨after.mark⟩
      else
        let s := { s with cursor := after }
        let s := if isBreak r after.char || isFlow after.char then s.rollColumn r else s
        let s ← s.dropKey
        .ok { s.push ⟨.blockEntry, s.mark, s.mark⟩ with keyAllowed := true }

/-- Over blanks and line breaks after a question mark, in the reading for places. -/
def skipAfterKey : Nat → Bool → Scan → Except Malformed Scan
  | 0, _, s => .ok s
  | fuel + 1, seen, s =>
    let c := s.cursor
    if c.char = ' ' then skipAfterKey fuel true { s with cursor := c.skip }
    else if isBreak .places c.char then
      skipAfterKey fuel true
        { s with cursor := c.skipBreak, keyAllowed := s.keyAllowed || s.flow = 0 }
    else if c.char = '#' then skipAfterKey fuel seen { s with cursor := c.skipComment .places }
    else if seen && c.char ≠ '\t' then .ok s
    else s.fail

/-- A question mark that opens a key. -/
def fetchKey (r : Reading) (s : Scan) : Except Malformed Scan := do
  let c := s.cursor
  if s.flow = 0 && !s.keyAllowed then s.fail
  else
    let s := s.roll c.mark.column s.tokens.size .blockMappingStart c.mark
    let s := if s.flow > 0 then { s with flowMapping := true } else s
    let s ← s.dropKey
    let s := { s with cursor := c.skip, keyAllowed := s.flow = 0 }
    let s ← match r with
      | .values => pure s
      | .places => skipAfterKey (c.rest.length + 1) false s
    .ok (s.push (token .key c c.skip))

/-- A colon after a key or before a value without one. -/
def fetchValue (r : Reading) (s : Scan) : Except Malformed Scan := do
  let c := s.cursor
  let key := s.keys.headD .none
  let pair := r = .places && s.flow > 0 && !s.flowMapping
  let s := { s with pair }
  let s ← match r with
    | .values => pure { s with cursor := c.skip }
    | .places => do
      let after := c.skip
      if after.char = '\t' then do
        let (_, space, after') ← after.skipToLineEnd true
        if !space && isWord after'.char then .error ⟨after'.mark⟩
        else pure { s with cursor := after' }
      else pure { s with cursor := after }
  let t := token .value c c.skip
  if key.possible then
    let insertAt (s : Scan) (kind : Token.Kind) (mark : Mark) : Scan :=
      { s with tokens := s.tokens.insertIdxIfInBounds key.number ⟨kind, mark, mark⟩ }
    let s := insertAt s .key key.mark
    if pair && key.mark.line < c.mark.line then s.fail
    else
      let s := if pair then insertAt s .flowMappingStart s.mark else s
      let mark := match r with
        | .values => key.mark
        | .places => c.mark
      let s := (s.roll key.mark.column key.number .blockMappingStart mark).rollColumn r
      let s := { s with keys := { key with possible := false } :: s.keys.drop 1 }
      .ok { s.push t with keyAllowed := false }
  else
    let s := if pair then s.push ⟨.flowMappingStart, s.mark, s.mark⟩ else s
    if s.flow = 0 && !s.keyAllowed then s.fail
    else
      let s := s.roll c.mark.column s.tokens.size .blockMappingStart c.mark
      let s := s.rollColumn r
      .ok { s.push t with keyAllowed := s.flow = 0 }

/-- A quoted scalar. -/
def fetchQuoted (r : Reading) (s : Scan) : Except Malformed Scan := do
  let s ← s.saveKey r
  let (t, c) ← readQuoted r (s.flow > 0) (s.cursor.char = '\'') s.indent s.cursor
  let s := { s with cursor := c, keyAllowed := false }
  let s ← match r with
    | .values => pure s
    | .places => do
      let s ← s.skipBetween r
      pure { s with adjacent := some s.mark.index }
  .ok (s.push t)

/-- A block scalar. -/
def fetchBlock (r : Reading) (s : Scan) : Except Malformed Scan := do
  let s ← match r with
    | .values => s.dropKey
    | .places => s.saveKey r
  let s := s.unrollColumns
  let (t, c) ← readBlock r (s.cursor.char = '|') s.indent s.cursor
  .ok { s.push t with cursor := c, keyAllowed := true }

/-- A plain scalar. -/
def fetchPlain (r : Reading) (s : Scan) : Except Malformed Scan := do
  let s ← s.saveKey r
  let s := s.unrollColumns
  let (t, broken, c) ← readPlain r (s.flow > 0) (s.indent + 1) s.cursor
  .ok { s.push t with cursor := c, keyAllowed := broken }

/-- An anchor, an alias or a tag. -/
def fetchProperty (r : Reading) (s : Scan) : Except Malformed Scan := do
  let s ← s.saveKey r
  let (t, c) ← match s.cursor.char with
    | '!' => readTag r (s.flow > 0) s.cursor
    | '*' => readAnchor r true s.cursor
    | _ => readAnchor r false s.cursor
  .ok { s.push t with cursor := c, keyAllowed := false }

/-- Whether a plain scalar may begin at the character at hand. -/
def startsPlain (r : Reading) (flow : Bool) (c : Cursor) : Bool :=
  let ch := c.char
  match r with
  | .places => !(ch = '%' || ch = '@' || ch.toNat = 0x60)
  | .values =>
    !(isSpaceOrEnd r ch || "-?:,[]\x7b\x7d#&*!|>'\"%@".toList.contains ch || ch.toNat = 0x60) ||
      (ch = '-' && !isBlank (c.peek 1)) ||
      (!flow && (ch = '?' || ch = ':') && !isSpaceOrEnd r (c.peek 1))

/-- The next token, and the tokens that its indentation brings. -/
def next (r : Reading) (s : Scan) : Except Malformed Scan := do
  let s ← s.skipBetween r
  let s ← s.staleKeys r
  let s := s.unroll s.cursor.column
  let c := s.cursor
  let ch := c.char
  let spaced := isSpaceOrEnd r (c.peek 1)
  let inFlow := s.flow > 0
  if c.atEnd then s.readEnd
  else if c.mark.column = 0 && ch = '%' then s.fetchDirective r
  else if c.atDocumentMark r then s.fetchDocumentMark r
  else if r = .places && c.column < s.indent then s.fail
  else if ch = '[' || ch = '\x7b' then s.fetchFlowStart r
  else if ch = ']' || ch = '\x7d' then s.fetchFlowEnd r
  else if ch = ',' then s.fetchFlowEntry r
  else if ch = '-' && spaced then s.fetchBlockEntry r
  else if ch = '?' && (spaced || (inFlow && r = .values)) then s.fetchKey r
  else if ch = ':' && (spaced || (inFlow && (r = .values || isFlow (c.peek 1) ||
      s.adjacent = some c.mark.index))) then s.fetchValue r
  else if ch = '*' || ch = '&' || ch = '!' then s.fetchProperty r
  else if (ch = '|' || ch = '>') && !inFlow then s.fetchBlock r
  else if ch = '\'' || ch = '"' then s.fetchQuoted r
  else if startsPlain r inFlow c then s.fetchPlain r
  else s.fail

/-- Reads on until the token of a number is known, or the text ends. -/
def settle (r : Reading) (number : Nat) : Nat → Scan → Except Malformed Scan
  | 0, s => .ok s
  | fuel + 1, s =>
    if s.tokens.size ≤ number then
      if s.ended then .ok s else do settle r number fuel (← s.next r)
    else do
      let s ← s.staleKeys r
      if s.keys.any fun k => k.possible && k.number = number then
        settle r number fuel (← s.next r)
      else .ok s

end Scan

/-- The tokens of a text, as far as they can be known. The last one says that the text is read to
its end. -/
def scan (r : Reading) (text : List Char) : List Token.Known :=
  let rec go : Nat → Array Token.Known → Scan → List Token.Known
    | 0, known, _ => known.toList
    | fuel + 1, known, s =>
      match s.settle r known.size (s.cursor.rest.length + 2) with
      | .error _ => known.toList
      | .ok s => match s.tokens[known.size]? with
        | some t => go fuel (known.push ⟨t, s.mark⟩) s
        | none => known.toList
  -- no character brings more than a few tokens
  go (8 * (text.length + 2)) #[] (.start text)

end Provision.Yaml
