import Provision.Hostname.Name
import Provision.Text.Utf8

/-!
# URLs

Which texts are URLs, and what their scheme is. Nothing else of a URL matters here, so a text is
read as far as it can still be refused: its scheme, its host and the number of the service there.

* `Url.scheme?`: the scheme of a URL, `none` if the text is none.
-/

set_option autoImplicit false

namespace Provision.Ignition.Url

open Provision.Text (Bytes splitOn)

/-- The schemes whose URLs have a host and take a backslash for a slash. -/
def isSpecial (scheme : String) : Bool :=
  ["http", "https", "ws", "wss", "ftp"].contains scheme

/-- A control character or a space. -/
def isControlOrSpace (c : Char) : Bool := c.toNat ≤ 0x20

/-- A text without the controls and spaces at its ends, and without tabs and line ends. -/
def clean (s : List Char) : List Char :=
  let trimmed := ((s.dropWhile isControlOrSpace).reverse.dropWhile isControlOrSpace).reverse
  trimmed.filter fun c => !(c = '\t' || c = '\n' || c = '\r')

/-- Whether a character may stand in a scheme. -/
def isSchemeChar (c : Char) : Bool := c.isAlphanum || c = '+' || c = '-' || c = '.'

/-- The scheme in lower case and what follows its colon. -/
def splitScheme (s : List Char) : Option (String × List Char) :=
  match s with
  | [] => none
  | c :: _ =>
    let scheme := s.takeWhile isSchemeChar
    match s.drop scheme.length with
    | ':' :: rest =>
      if c.isAlpha then some (String.ofList (scheme.map Char.toLower), rest) else none
    | _ => none

/-! ## Addresses -/

/-- The value of a hexadecimal digit. -/
def hexValue? (c : Char) : Option Nat :=
  if c.isDigit then some (c.toNat - 48)
  else if 'a' ≤ c ∧ c ≤ 'f' then some (c.toNat - 87)
  else if 'A' ≤ c ∧ c ≤ 'F' then some (c.toNat - 55)
  else none

/-- The number that digits of a base denote. -/
def ofDigits? (base : Nat) (s : List Char) : Option Nat :=
  s.foldl (fun (n : Option Nat) c => do
    let d ← hexValue? c
    if d < base then some ((← n) * base + d) else none) (some 0)

/-- A part of an address of four: decimal, octal after a zero, or hexadecimal after `0x`. -/
def partOfV4? : List Char → Option Nat
  | [] => none
  | '0' :: 'x' :: s | '0' :: 'X' :: s => ofDigits? 16 s
  | '0' :: c :: s => ofDigits? 8 (c :: s)
  | s => ofDigits? 10 s

/-- The parts of a host between dots; a dot at the end opens no part. -/
def hostParts (host : List Char) : List (List Char) :=
  let parts := Hostname.labels host
  if parts.length > 1 && parts.getLast? = some [] then parts.dropLast else parts

/-- Whether a host is meant as an address of numbers: its last part is one. -/
def endsInNumber (host : List Char) : Bool :=
  match (hostParts host).getLast? with
  | some part => (!part.isEmpty && part.all (·.isDigit)) || (partOfV4? part).isSome
  | none => false

/-- Whether a host is an address of four bytes, the last part standing for all that are left. -/
def isV4 (host : List Char) : Bool :=
  let parts := hostParts host
  match parts.mapM partOfV4? with
  | none => false
  | some numbers =>
    numbers.length ≤ 4 && numbers.dropLast.all (· < 256) &&
      match numbers.getLast? with
      | some last => last < Nat.pow 256 (5 - numbers.length)
      | none => false

/-- A decimal byte of the address at the end of a longer one. -/
def isByte (s : List Char) : Bool :=
  !s.isEmpty && s.length ≤ 3 && s.all (·.isDigit) && (s.length = 1 || s.head? ≠ some '0') &&
    (ofDigits? 10 s).any (· < 256)

/-- How many of the eight groups the pieces between colons fill, an address of four bytes at the
end filling two. -/
def groups? : List (List Char) → Option Nat
  | [] => some 0
  | [piece] =>
    if piece.contains '.' then
      let bytes := splitOn '.' piece
      if bytes.length = 4 && bytes.all isByte then some 2 else none
    else if !piece.isEmpty && piece.length ≤ 4 && piece.all (fun c => (hexValue? c).isSome) then
      some 1
    else none
  | piece :: rest =>
    if !piece.isEmpty && piece.length ≤ 4 && piece.all (fun c => (hexValue? c).isSome) then
      (groups? rest).map (· + 1)
    else none

/-- The text before two colons and the text after them. -/
def splitDouble (s : List Char) : Option (List Char × List Char) :=
  let rec go : List Char → List Char → Option (List Char × List Char)
    | _, [] => none
    | soFar, ':' :: ':' :: rest => some (soFar.reverse, rest)
    | soFar, c :: rest => go (c :: soFar) rest
  go [] s

/-- The groups that a text between colons fills; the empty text fills none. -/
def groupsOf? (s : List Char) : Option Nat := if s.isEmpty then some 0 else groups? (splitOn ':' s)

/-- Whether a text is an address of eight groups, where two colons stand for groups left out. -/
def isV6 (s : List Char) : Bool :=
  match splitDouble s with
  | none => !s.isEmpty && groups? (splitOn ':' s) = some 8
  | some (before, after) =>
    match groupsOf? before, groupsOf? after with
    | some a, some b => !before.contains '.' && a + b ≤ 7
    | _, _ => false

/-! ## Hosts and services -/

/-- The bytes of a text with each percent sign before two hexadecimal digits read as a byte. -/
def percentDecode : Bytes → Bytes
  | 0x25 :: a :: b :: rest =>
    match hexValue? (Char.ofNat a.toNat), hexValue? (Char.ofNat b.toNat) with
    | some x, some y => (16 * x + y).toUInt8 :: percentDecode rest
    | _, _ => 0x25 :: percentDecode (a :: b :: rest)
  | b :: rest => b :: percentDecode rest
  | [] => []
  termination_by bytes => bytes.length

/-- The characters that no host may have. -/
def isForbidden (c : Char) : Bool :=
  c.toNat = 0 || "\t\n\r #/:<>?@[\\]^|".toList.contains c

/-- Whether a host in brackets is an address. -/
def isBracketed (host : List Char) : Bool :=
  host.getLast? = some ']' && isV6 (host.drop 1).dropLast

/-- Whether a text is a host where hosts are names of machines. -/
def isHost (host : List Char) : Bool :=
  if host.head? = some '[' then isBracketed host
  else
    match Hostname.ofText? (Text.decodeUtf8 (percentDecode (Text.encodeUtf8 host))) with
    | none => false
    | some name => !name.isEmpty && (!endsInNumber name || isV4 name)

/-- Whether a text is a host of any other kind. -/
def isOpaqueHost (host : List Char) : Bool :=
  if host.head? = some '[' then isBracketed host else !host.any isForbidden

/-- Whether a text begins with the number of a service, which has 16 bits and may be left out, and
then ends or goes on with a path, a query or a fragment. -/
def isService (s : List Char) : Bool :=
  let digits := s.takeWhile (·.isDigit)
  let next := (s.drop digits.length).head?
  (ofDigits? 10 digits).any (· < 65536) &&
    (next.isNone || next = some '/' || next = some '\\' || next = some '?' || next = some '#')

/-- Where the part of a URL with the host ends. -/
def endsAuthority (special : Bool) (c : Char) : Bool :=
  c = '/' || c = '?' || c = '#' || (special && c = '\\')

/-- The host at the start of a text, up to a colon. Colons in brackets do not end it. -/
def takeHost (special : Bool) (s : List Char) : List Char × List Char :=
  let rec go : Bool → List Char → List Char → List Char × List Char
    | _, soFar, [] => (soFar.reverse, [])
    | bracketed, soFar, c :: rest =>
      if endsAuthority special c || (c = ':' && !bracketed) then (soFar.reverse, c :: rest)
      else go (c = '[' || (bracketed && c ≠ ']')) (c :: soFar) rest
  go false [] s

/-- Whether the text after two slashes has a user, a host and a service as it should. -/
def isAuthority (special : Bool) (s : List Char) : Bool :=
  let authority := s.takeWhile fun c => !endsAuthority special c
  let rest := s.drop authority.length
  -- the last at sign divides the user from the host
  let user := (authority.reverse.dropWhile (· ≠ '@')).reverse.dropLast
  let signed := authority.contains '@'
  let s := if signed then authority.drop (user.length + 1) ++ rest else s
  if signed && user.isEmpty && s.head?.any (endsAuthority special) then false
  else
    let (host, after) := takeHost special s
    let named := signed && !user.isEmpty && user ≠ [':']
    if host.isEmpty then !special && !named && after.head? ≠ some ':'
    else
      (if special then isHost host else isOpaqueHost host) &&
        match after with
        | ':' :: number => isService number
        | _ => true

/-- Whether a host in a file's URL is one; it may be left out, and a drive is none. -/
def isFileAuthority (s : List Char) : Bool :=
  let host := s.takeWhile fun c => !endsAuthority true c
  let drive := match host with
    | [c, d] => c.isAlpha && (d = ':' || d = '|')
    | _ => false
  host.isEmpty || drive || isHost host

/-- A slash, or what counts as one. -/
def isSlash (c : Char) : Bool := c = '/' || c = '\\'

/-- The scheme of a URL, `none` if the text is none. -/
def scheme? (text : String) : Option String := do
  let (scheme, rest) ← splitScheme (clean text.toList)
  let good :=
    if isSpecial scheme then isAuthority true (rest.dropWhile isSlash)
    else if scheme = "file" then
      match rest with
      | a :: b :: rest => !(isSlash a && isSlash b) || isFileAuthority rest
      | _ => true
    else
      match rest with
      | '/' :: '/' :: rest => isAuthority false rest
      | _ => true
  if good then some scheme else none

end Provision.Ignition.Url
