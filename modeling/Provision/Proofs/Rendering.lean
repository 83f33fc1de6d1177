import Provision.Contents
import Provision.Proofs.Files.Mapped
import Provision.Proofs.Text.Utf8
import Provision.Trees

/-!
# Texts that are rendered beforehand

A renderer that only looks at the texts is applied to them on the way. The same is embedded without a
renderer if the texts have been rendered before.

* `Workspace.rendering`: a renderer is applied on the way.
* `Workspace.rendered`: the files have been rendered before, and no renderer is applied.
* `Workspace.readLocal_render`: the contents of a local file that are embedded are the same.
* `Contents.ofResource_rendered`: what is embedded is the same.
* `Trees.expand_rendered`: so are the trees.
-/

set_option autoImplicit false

namespace Provision

open Text (Bytes)

/-! ## Local files -/

namespace Workspace

/-- The contents of a file after its text is rendered. What is no text stays as it is. -/
def renderBytes (r : String → String) (contents : Bytes) : Bytes :=
  match Text.decodeUtf8? contents with
  | some text => Text.encodeUtf8 (r (String.ofList text)).toList
  | none => contents

/-- The same files and options with a renderer that only looks at the texts, and never fails. -/
def rendering (w : Workspace) (r : String → String) : Workspace :=
  { w with options := { w.options with renderer := some fun _ body => .ok (r body) } }

/-- The files after their texts are rendered, and the same options without a renderer. -/
def rendered (w : Workspace) (r : String → String) : Workspace where
  files := w.files.mapContents (renderBytes r)
  options := { w.options with renderer := none }

variable (w : Workspace) (r : String → String)

theorem renderBytes_encodeUtf8 (text : String) :
    renderBytes r (Text.encodeUtf8 text.toList) = Text.encodeUtf8 (r text).toList := by
  rw [renderBytes, Text.decodeUtf8?_encodeUtf8]
  exact congrArg (fun s => Text.encodeUtf8 (r s).toList) String.ofList_toList

theorem render_rendering (name : String) (contents : Bytes) :
    (w.rendering r).render name contents = .ok (renderBytes r contents) := by
  rw [render, renderBytes, rendering]
  cases Text.decodeUtf8? contents <;> rfl

theorem render_rendered (name : String) (contents : Bytes) :
    (w.rendered r).render name contents = .ok contents :=
  rfl

theorem read_rendered (path : String) :
    (w.rendered r).read path = (w.read path).map (renderBytes r) := by
  rw [read, read, rendered]
  dsimp only
  rw [Files.FileSystem.read_mapContents]
  cases w.files.read path <;> rfl

theorem resolveLocal_rendered (path : String) :
    (w.rendered r).resolveLocal path = w.resolveLocal path := by
  rw [resolveLocal, resolveLocal, rendered]
  simp only [isWithin_mapContents]

theorem readLocal_rendered (path : String) :
    (w.rendered r).readLocal path = (w.readLocal path).map (renderBytes r) := by
  rw [readLocal, readLocal, resolveLocal_rendered]
  cases w.resolveLocal path with
  | error problem => rfl
  | ok joined => exact read_rendered w r joined

/-- **The contents of a file that are embedded** are the same. -/
theorem read_render (path name : String) :
    (w.rendering r).read path >>= (w.rendering r).render name =
      (w.rendered r).read path >>= (w.rendered r).render name := by
  have hread : (w.rendering r).read path = w.read path := rfl
  rw [read_rendered, hread]
  cases w.read path with
  | error problem => rfl
  | ok contents => exact render_rendering w r name contents

theorem readLocal_render (path name : String) :
    (w.rendering r).readLocal path >>= (w.rendering r).render name =
      (w.rendered r).readLocal path >>= (w.rendered r).render name := by
  have hread : (w.rendering r).readLocal path = w.readLocal path := rfl
  rw [readLocal_rendered, hread]
  cases w.readLocal path with
  | error problem => rfl
  | ok contents => exact render_rendering w r name contents

end Workspace

/-! ## Contents -/

/-- Contents after the text that is given in place is rendered. -/
def Source.Resource.rendered (r : String → String) (x : Resource) : Resource :=
  { x with inline := x.inline.map r }

namespace Contents

theorem body?_rendered (w : Workspace) (r : String → String) (origin : Trail)
    (x : Source.Resource) :
    body? (w.rendering r) origin x = body? (w.rendered r) origin (x.rendered r) := by
  obtain ⟨compression, headers, source, inline, localPath, verification⟩ := x
  cases source with
  | some url => rfl
  | none =>
    cases inline with
    | some text =>
      refine congrArg (fun body => some ("inline", body)) ?_
      rw [Workspace.render_rendering, Workspace.renderBytes_encodeUtf8, Workspace.render_rendered]
    | none =>
      cases localPath with
      | some path =>
        exact congrArg (fun body => some ("local", body)) (w.readLocal_render r path path)
      | none => rfl

/-- **What is embedded is the same.** -/
theorem ofResource_rendered (w : Workspace) (r : String → String) (origin place : Trail)
    (x : Source.Resource) :
    ofResource (w.rendering r) origin place x =
      ofResource (w.rendered r) origin place (x.rendered r) := by
  rw [ofResource, ofResource, body?_rendered]
  rfl

end Contents

/-! ## Trees -/

namespace Trees

open Files (Node)

section Below

variable (f : Bytes → Bytes)

mutual

theorem below_mapContents :
    (n : Node) → below (n.mapContents f) = (below n).map fun e => (e.1, e.2.mapContents f)
  | .directory entries => by
    rw [Node.mapContents, below, below, belowEntries_mapEntries entries]
  | .file _ _ | .link _ | .special => by
    simp only [Node.mapContents, below, List.map_cons, List.map_nil]

theorem belowEntries_mapEntries : (entries : List (String × Node)) →
    belowEntries (Node.mapEntries f entries) =
      (belowEntries entries).map fun e => (e.1, e.2.mapContents f)
  | [] => by rw [Node.mapEntries, belowEntries, List.map_nil]
  | (name, n) :: rest => by
    rw [Node.mapEntries, belowEntries, belowEntries, below_mapContents n,
      belowEntries_mapEntries rest, List.map_append, List.map_map, List.map_map]
    rfl

end

/-- The same names are visited in the same order. -/
theorem visit_mapContents (n : Node) :
    visit (n.mapContents f) = (visit n).map fun e => (e.1, e.2.mapContents f) := by
  rw [visit, visit, below_mapContents, List.map_mergeSort]
  exact fun _ _ _ _ => rfl

end Below

variable (w : Workspace) (r : String → String)

theorem addFile_rendered (origin : Trail) (localPath path : String) (mode : Nat) (d : Draft) :
    addFile (w.rendering r) origin localPath path mode d =
      addFile (w.rendered r) origin localPath path mode d := by
  rw [addFile, addFile]
  simp only [Workspace.read_render]
  rfl

theorem addNode_rendered (origin : Trail) (root destination : String) (d : Draft)
    (names : List String) (n : Node) :
    addNode (w.rendering r) origin root destination d (names, n) =
      addNode (w.rendered r) origin root destination d
        (names, n.mapContents (Workspace.renderBytes r)) := by
  cases n with
  | file contents mode => exact addFile_rendered w r origin _ _ mode d
  | _ => rfl

theorem addTree_rendered (d : Draft) (tree : Source.Tree) (origin : Trail) :
    addTree (w.rendering r) d tree origin = addTree (w.rendered r) d tree origin := by
  rw [addTree, addTree]
  split
  · rfl
  have hresolve : (w.rendering r).resolveLocal tree.localPath = w.resolveLocal tree.localPath := rfl
  have hlocate : ∀ root, (w.rendered r).files.locate root =
      ((w.rendering r).files.locate root).map (Node.mapContents (Workspace.renderBytes r)) :=
    Files.FileSystem.locate_mapContents _ _
  simp only [Workspace.resolveLocal_rendered, hresolve, hlocate]
  cases w.resolveLocal tree.localPath with
  | error problem => rfl
  | ok root =>
    simp only [bind, Except.bind]
    cases (w.rendering r).files.locate root with
    | error fault => rfl
    | ok n =>
      delta Except.mapError
      simp only [Except.map, Node.isDirectory_mapContents]
      cases n.isDirectory with
      | false => rfl
      | true =>
        have hnode : addNode (w.rendering r) origin root (tree.path.getD "/") = fun d e =>
            addNode (w.rendered r) origin root (tree.path.getD "/") d
              (e.1, e.2.mapContents (Workspace.renderBytes r)) :=
          funext fun d => funext fun e => addNode_rendered w r origin root _ d e.1 e.2
        simp only [if_true, visit_mapContents, List.foldl_map, hnode]

/-- **The trees are the same.** -/
theorem expand_rendered (trees : List Source.Tree) (start : Trail) (d : Draft) :
    expand (w.rendering r) trees start d = expand (w.rendered r) trees start d := by
  rw [expand, expand]
  simp only [addTree_rendered]

end Trees

end Provision
