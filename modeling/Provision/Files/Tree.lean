import Provision.Text.Utf8

/-!
# A tree of files

Files, directories, symbolic links and other nodes, and how a path leads to one of them. Each step
of a path is looked up in a directory; a link is replaced by the path it holds, a limited number of
times.

* `join`: a path as seen from a directory.
* `normalize`: the steps from the root, with the dots taken out.
* `FileSystem.locate`: the node that a path leads to.
-/

set_option autoImplicit false

namespace Provision.Files

open Provision.Text (Bytes)

/-!
## Names of files

Paths as texts, and what can be said of them without looking at any file.
-/

/-- The pieces of a path between slashes. -/
def pieces (s : List Char) : List (List Char) :=
  s.foldr (fun c pieces => match pieces with
    | piece :: rest => if c = '/' then [] :: piece :: rest else (c :: piece) :: rest
    | [] => [[c]]) [[]]

/-- The steps of a path; slashes in a row count once. -/
def steps (path : String) : List String :=
  ((pieces path.toList).filter (!·.isEmpty)).map String.ofList

/-- Whether a path starts at the root. -/
def isAbsolute (path : String) : Bool := path.startsWith "/"

/-- A path as seen from a directory. An absolute path stands for itself. -/
def join (directory path : String) : String :=
  if isAbsolute path then path
  else if directory.isEmpty || directory.endsWith "/" then directory ++ path
  else directory ++ "/" ++ path

/-- Takes the steps of a path one after the other, up for two dots; above the root is the root. -/
def climb (here : List String) : List String → List String
  | [] => here
  | step :: rest =>
    if step = ".." then climb here.dropLast rest
    else if step = "." then climb here rest
    else climb (here ++ [step]) rest

/-- The steps from the root to a path as seen from a directory, without looking at any link. -/
def normalize (directory : List String) (path : String) : List String :=
  climb (if isAbsolute path then [] else directory) (steps path)

/-- The path of some steps from the root. -/
def absolute (steps : List String) : String := "/" ++ "/".intercalate steps

/-! ## Nodes and paths -/

/-- A node of a tree of files. -/
inductive Node where
  | file (contents : Bytes) (mode : Nat)
  | directory (entries : List (String × Node))
  | link (path : String)
  /-- A socket or the like, which cannot be opened. -/
  | special
  deriving Repr, Inhabited

/-- Why a path leads nowhere, or the node there cannot be read. -/
inductive Fault where
  | notFound
  | noDevice
  | notDirectory
  | isDirectory
  | nameTooLong
  | tooManyLinks
  | nul
  deriving DecidableEq, Repr, Inhabited

/-- The words for a fault. -/
def Fault.message : Fault → String
  | .notFound => "No such file or directory (os error 2)"
  | .noDevice => "No such device or address (os error 6)"
  | .notDirectory => "Not a directory (os error 20)"
  | .isDirectory => "Is a directory (os error 21)"
  | .nameTooLong => "File name too long (os error 36)"
  | .tooManyLinks => "Too many levels of symbolic links (os error 40)"
  | .nul => "file name contained an unexpected NUL byte"

namespace Node

/-- The entry of a directory. -/
def entry? (name : String) : Node → Option Node
  | .directory entries => entries.lookup name
  | _ => none

/-- The node at the end of some steps, none of them through a link. -/
def find? : List String → Node → Option Node
  | [], n => some n
  | name :: rest, n => (n.entry? name).bind (find? rest)

/-- Whether the node is a directory. -/
def isDirectory : Node → Bool
  | .directory _ => true
  | _ => false

/-- Sets an entry of a directory; a node of another kind becomes a directory. -/
def setEntry (n : Node) (name : String) (child : Node) : Node :=
  match n with
  | .directory entries =>
    if entries.any (·.1 = name) then
      .directory (entries.map fun e => if e.1 = name then (name, child) else e)
    else .directory (entries ++ [(name, child)])
  | _ => .directory [(name, child)]

/-- Puts a node at the end of some steps, with directories on the way. -/
def put (n : Node) (steps : List String) (child : Node) : Node :=
  match steps with
  | [] => child
  | name :: rest => n.setEntry name (((n.entry? name).getD (.directory [])).put rest child)

end Node

/-- A tree of files and the directory where paths begin that are not absolute. -/
structure FileSystem where
  root : Node
  /-- The steps from the root, none of them through a link. -/
  current : List String
  deriving Repr, Inhabited

namespace FileSystem

/-- How many links a path may lead through. -/
def mostLinks : Nat := 40

/-- How many bytes a name may have. -/
def longestName : Nat := 255

/-- How many bytes a path may have. -/
def longestPath : Nat := 4095

/-- The steps of a path as they are looked up: a slash at the end asks for a directory. -/
def lookupSteps (path : String) : List String :=
  steps path ++ (if path.endsWith "/" then ["."] else [])

/-- Follows steps from a directory, through at most `links` links; the last step may be a link
itself if it is not to be followed. The result is where the steps lead to, and how many links may
still be followed. -/
def follow (root : Node) (last : Bool) :
    (links : Nat) → (here : List String) → List String → Except Fault (List String × Nat)
  | links, here, [] => .ok (here, links)
  | links, here, step :: rest =>
    match root.find? here with
    | some (.directory entries) =>
      if step = "." then follow root last links here rest
      else if step = ".." then follow root last links here.dropLast rest
      else if step.utf8ByteSize > longestName then .error .nameTooLong
      else match entries.lookup step with
        | none => .error .notFound
        | some (.link path) =>
          if rest.isEmpty && !last then .ok (here ++ [step], links)
          else match links with
            | 0 => .error .tooManyLinks
            | links + 1 =>
              follow root last links (if isAbsolute path then [] else here)
                (lookupSteps path ++ rest)
        | some _ => follow root last links (here ++ [step]) rest
    | _ => .error .notDirectory
  termination_by links _ todo => (links, todo.length)

/-- Following steps leaves no more links than there were. -/
theorem follow_le (root : Node) (last : Bool) (links : Nat) (here todo : List String)
    (p : List String × Nat) (h : follow root last links here todo = .ok p) : p.2 ≤ links := by
  fun_induction follow root last links here todo <;> simp_all
  case case1 => subst h; simp
  case case6 => subst h; simp
  case case8 ih => omega

/-- The steps from the root to the node that a path leads to, none of them through a link. -/
def realSteps (fs : FileSystem) (last : Bool) (path : String) : Except Fault (List String) :=
  if path.toList.contains (Char.ofNat 0) then .error .nul
  else if path.isEmpty then .error .notFound
  else if path.utf8ByteSize > longestPath then .error .nameTooLong
  else
    let start := if isAbsolute path then [] else fs.current
    (follow fs.root last mostLinks start (lookupSteps path)).map (·.1)

/-- The node that a path leads to. -/
def locate (fs : FileSystem) (path : String) : Except Fault Node := do
  let real ← fs.realSteps true path
  match fs.root.find? real with
  | some n => .ok n
  | none => .error .notFound

/-- The contents of the file that a path leads to. -/
def read (fs : FileSystem) (path : String) : Except Fault Bytes := do
  match ← fs.locate path with
  | .file contents _ => .ok contents
  | .directory _ => .error .isDirectory
  | .link _ => .error .tooManyLinks
  | .special => .error .noDevice

/-! ## Writing -/

/-- The steps to the place where a path is written to, through at most `links` links. It need not
exist, but its directory must. -/
def place (root : Node) :
    (links : Nat) → (here : List String) → (path : String) → Except Fault (List String)
  | links, here, path =>
    let all := steps path
    match all.getLast? with
    | none => .error .isDirectory
    | some name =>
      match _taken : follow root true links (if isAbsolute path then [] else here) all.dropLast with
      | .error f => .error f
      | .ok (parent, left) => match root.find? parent with
        | some (.directory entries) =>
          if name = "." || name = ".." || path.endsWith "/" then .error .isDirectory
          else if name.utf8ByteSize > longestName then .error .nameTooLong
          else match entries.lookup name with
            | some (.link next) =>
              if left = 0 then .error .tooManyLinks
              else place root (left - 1) parent next
            | _ => .ok (parent ++ [name])
        | _ => .error .notDirectory
  termination_by links _ _ => links
  decreasing_by
    have := follow_le _ _ _ _ _ _ _taken
    simp at this
    omega

/-- Writes a file. One that is there keeps its mode. -/
def write (fs : FileSystem) (path : String) (contents : Bytes) : Except Fault FileSystem := do
  if path.toList.contains (Char.ofNat 0) then throw .nul
  if path.isEmpty then throw .notFound
  if path.utf8ByteSize > longestPath then throw .nameTooLong
  let place ← place fs.root mostLinks fs.current path
  let put (mode : Nat) : FileSystem := { fs with root := fs.root.put place (.file contents mode) }
  match fs.root.find? place with
  | some (.directory _) => .error .isDirectory
  | some .special => .error .noDevice
  | some (.file _ mode) => .ok (put mode)
  | _ => .ok (put 0o644)

end FileSystem

end Provision.Files
