import Provision.DataUrl
import Provision.Draft
import Provision.Source.Schema
import Provision.Workspace

/-!
# Trees of local files

A local directory stands for all files and links below it. They are written one after the other into
the storage of the config that is made, in the order of their names. A file that the config names
itself is filled in if it does not say where its contents are, a link if it has no target.

* `expand`: writes some trees into a config.
-/

set_option autoImplicit false

namespace Provision.Trees

open Provision.Text (Bytes)
open Files (Node)

/-- Files that anyone may execute get a mode with which everyone may. -/
def modeFor (mode : Nat) : Int := if mode &&& 0o111 ≠ 0 then 0o755 else 0o644

/-- Whether a file of a document has contents. -/
def hasContents (file : Json) : Bool := ((file.get? "contents").bind (·.get? "source")).isSome

/-- Writes a local file at a path. A file that is there without a source of contents gets contents,
and a mode if it has none. -/
def addFile (w : Workspace) (origin : Trail) (localPath path : String) (mode : Nat) (d : Draft) :
    Draft :=
  let existing := d.position? "files" path
  let filled := existing.any fun i => ((d.nodes "files")[i]?).any hasContents
  if (d.position? "directories" path).isSome || (d.position? "links" path).isSome ||
      filled then
    d.error origin .nodeExists
  else match w.read localPath >>= w.render localPath with
    | .error problem => d.error (origin.key "local") problem
    | .ok data =>
      let source := (DataUrl.embed w.options.compress data).json
      let mode := Json.int (modeFor mode)
      match existing with
      | none =>
        d.push origin "files" (.obj [("path", .str path), ("contents", source), ("mode", mode)])
      | some i =>
        let file := ((d.nodes "files")[i]?).getD .null
        let added := ("contents", source) ::
          (if (file.get? "mode").isSome then [] else [("mode", mode)])
        let place : Trail := [.key "storage", .key "files", .index i]
        { d.modifyNode "files" i (Json.setMembers added) with
          provenance :=
            added.foldl (fun p (k, v) => p.addValue origin (place.key k) v) d.provenance }

/-- Writes a local link at a path. A link that is there without a target gets one. -/
def addLink (origin : Trail) (path target : String) (d : Draft) : Draft :=
  if (d.position? "files" path).isSome || (d.position? "directories" path).isSome then
    d.error origin .nodeExists
  else match d.position? "links" path with
    | none => d.push origin "links" (.obj [("path", .str path), ("target", .str target)])
    | some i =>
      let link := ((d.nodes "links")[i]?).getD .null
      if (link.get? "target").isSome then d.error origin .nodeExists
      else
        let place : Trail := [.key "storage", .key "links", .index i, .key "target"]
        { d.modifyNode "links" i (Json.setMembers [("target", .str target)]) with
          provenance := d.provenance.add origin place }

/-! ## Visiting a directory -/

mutual

/-- Everything below a node but directories, each with the names that lead to it. -/
def below : Node → List (List String × Node)
  | .directory entries => belowEntries entries
  | n => [([], n)]

/-- Everything below the entries of a directory. -/
def belowEntries : List (String × Node) → List (List String × Node)
  | [] => []
  | (name, n) :: rest => (below n).map (fun (names, x) => (name :: names, x)) ++ belowEntries rest

end

/-- Whether a sequence of names comes before another or is the same. -/
def namesLe : List String → List String → Bool
  | [], _ => true
  | _ :: _, [] => false
  | a :: as, b :: bs => if a = b then namesLe as bs else a < b

/-- Everything below a directory in the order of names. -/
def visit (directory : Node) : List (List String × Node) :=
  (below directory).mergeSort fun a b => namesLe a.1 b.1

/-- Where something below a tree is written. -/
def pathBelow (destination : String) (names : List String) : String :=
  let start := (destination.toList.reverse.dropWhile (· = '/')).reverse
  String.ofList start ++ "/" ++ "/".intercalate names

/-- Writes one thing below a tree. -/
def addNode (w : Workspace) (origin : Trail) (root destination : String) (d : Draft)
    (entry : List String × Node) : Draft :=
  let path := pathBelow destination entry.1
  match entry.2 with
  | .file _ mode => addFile w origin (entry.1.foldl Files.join root) path mode d
  | .link target => addLink origin path target d
  | _ => d.error origin .specialFile

/-- Writes a tree whose place in the source is known. -/
def addTree (w : Workspace) (d : Draft) (tree : Source.Tree) (origin : Trail) : Draft :=
  if tree.localPath.isEmpty then d
  else
    let opened := do
      let root ← w.resolveLocal tree.localPath
      let node ← (w.files.locate root).mapError (.unreadable root)
      if node.isDirectory then .ok (root, node) else .error Problem.treeNotDirectory
    match opened with
    | .error problem => d.error (origin.key "local") problem
    | .ok (root, node) => (visit node).foldl (addNode w origin root (tree.path.getD "/")) d

/-- Writes the trees of the config at a place of the source. -/
def expand (w : Workspace) (trees : List Source.Tree) (start : Trail) (d : Draft) : Draft :=
  let list := (start.key "storage").key "trees"
  trees.zipIdx.foldl (fun d (tree, i) => addTree w d tree (list.index i)) d

end Provision.Trees
