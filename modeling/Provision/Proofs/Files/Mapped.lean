import Provision.Workspace

/-!
# Files with other contents

If the contents of files are changed and nothing else is, each path leads to the same place, and what
is read there is what was read before, changed.

* `Node.mapContents`, `FileSystem.mapContents`: the contents of all files changed by a function.
* `FileSystem.realSteps_mapContents`: paths lead to the same places.
* `FileSystem.read_mapContents`: what is read.
-/

set_option autoImplicit false

namespace Provision.Files

open Provision.Text (Bytes)

/-! ## Nodes -/

namespace Node

mutual

/-- A node with the contents of all files changed. -/
def mapContents (f : Bytes → Bytes) : Node → Node
  | .file contents mode => .file (f contents) mode
  | .directory entries => .directory (mapEntries f entries)
  | .link path => .link path
  | .special => .special

/-- The entries of a directory with the contents of all files changed. -/
def mapEntries (f : Bytes → Bytes) : List (String × Node) → List (String × Node)
  | [] => []
  | (name, n) :: rest => (name, mapContents f n) :: mapEntries f rest

end

section MapContents

variable (f : Bytes → Bytes)

theorem lookup_mapEntries (name : String) (entries : List (String × Node)) :
    (mapEntries f entries).lookup name = (entries.lookup name).map (mapContents f) := by
  induction entries with
  | nil => rfl
  | cons e rest ih =>
    rw [mapEntries, List.lookup_cons, List.lookup_cons, ih]
    split <;> rfl

theorem entry?_mapContents (name : String) (n : Node) :
    entry? name (n.mapContents f) = (n.entry? name).map (mapContents f) := by
  cases n with
  | directory entries => exact lookup_mapEntries f name entries
  | _ => rfl

theorem find?_mapContents (steps : List String) (n : Node) :
    (n.mapContents f).find? steps = (n.find? steps).map (mapContents f) := by
  induction steps generalizing n with
  | nil => rfl
  | cons name rest ih =>
    rw [find?, find?, entry?_mapContents]
    cases n.entry? name with
    | none => rfl
    | some m => exact ih m

theorem isDirectory_mapContents (n : Node) : (n.mapContents f).isDirectory = n.isDirectory := by
  cases n <;> rfl

end MapContents

end Node

/-! ## Trees -/

namespace FileSystem

open Node (find?_mapContents lookup_mapEntries)

variable (f : Bytes → Bytes)

/-- A tree of files with the contents of all files changed. -/
def mapContents (fs : FileSystem) : FileSystem := { fs with root := fs.root.mapContents f }

/-- **Steps lead to the same place.** -/
theorem follow_mapContents (root : Node) (last : Bool) (links : Nat) (here todo : List String) :
    follow (root.mapContents f) last links here todo = follow root last links here todo := by
  -- Each step goes from a directory, and the directory there has entries of the same kinds.
  have directory : ∀ {here : List String} {entries : List (String × Node)},
      root.find? here = some (.directory entries) →
        (root.mapContents f).find? here = some (.directory (Node.mapEntries f entries)) := by
    intro here entries h
    rw [find?_mapContents, h]
    rfl
  fun_induction follow root last links here todo with
  | case1 => rw [follow]
  | case2 links here rest entries hd ih =>
    rw [follow, directory hd]
    exact ih
  | case3 links here rest entries hd _ ih =>
    rw [follow, directory hd]
    exact ih
  | case4 links here step rest entries hd h₁ h₂ h₃ =>
    rw [follow, directory hd]
    simp only [h₁, h₂, h₃, if_true, if_false]
  | case5 links here step rest entries hd h₁ h₂ h₃ hn =>
    rw [follow, directory hd]
    simp only [h₁, h₂, h₃, if_false, lookup_mapEntries, hn, Option.map_none]
  | case6 links here step rest entries hd h₁ h₂ h₃ path hl h =>
    rw [follow, directory hd]
    simp only [h₁, h₂, h₃, if_false, lookup_mapEntries, hl, Option.map_some, Node.mapContents,
      h, if_true]
  | case7 here step rest entries hd h₁ h₂ h₃ path hl h =>
    rw [follow, directory hd]
    simp only [h₁, h₂, h₃, if_false, lookup_mapEntries, hl, Option.map_some, Node.mapContents,
      h, Bool.false_eq_true]
  | case8 here step rest entries hd h₁ h₂ h₃ path hl h links ih =>
    rw [follow, directory hd]
    simp only [h₁, h₂, h₃, if_false, lookup_mapEntries, hl, Option.map_some, Node.mapContents,
      h]
    exact ih
  | case9 links here step rest entries hd h₁ h₂ h₃ n hlink hn ih =>
    rw [follow, directory hd]
    simp only [h₁, h₂, h₃, if_false, lookup_mapEntries, hn, Option.map_some]
    cases n with
    | link path => exact (hlink path rfl).elim
    | _ => exact ih
  | case10 links here step rest h =>
    rw [follow, find?_mapContents]
    cases hn : root.find? here with
    | none => rfl
    | some n =>
      cases n with
      | directory entries => exact (h entries hn).elim
      | _ => rfl

/-- **Paths lead to the same places.** -/
theorem realSteps_mapContents (fs : FileSystem) (last : Bool) (path : String) :
    (fs.mapContents f).realSteps last path = fs.realSteps last path := by
  rw [realSteps, realSteps, mapContents]
  dsimp only
  rw [follow_mapContents]

theorem locate_mapContents (fs : FileSystem) (path : String) :
    (fs.mapContents f).locate path = (fs.locate path).map (Node.mapContents f) := by
  rw [locate, locate, realSteps_mapContents]
  cases fs.realSteps true path with
  | error fault => rfl
  | ok real =>
    simp only [mapContents, bind, Except.bind, find?_mapContents]
    cases fs.root.find? real <;> rfl

/-- **What is read at a path is what was read there**, changed. -/
theorem read_mapContents (fs : FileSystem) (path : String) :
    (fs.mapContents f).read path = (fs.read path).map f := by
  rw [read, read, locate_mapContents]
  cases fs.locate path with
  | error fault => rfl
  | ok n => cases n <;> rfl

end FileSystem

end Provision.Files

/-! ## Local files -/

namespace Provision.Workspace

open Files (FileSystem)
open Text (Bytes)

/-- The same paths are within a directory. -/
theorem isWithin_mapContents (f : Bytes → Bytes) (fs : FileSystem) (directory path : String) :
    isWithin (fs.mapContents f) directory path = isWithin fs directory path := by
  rw [isWithin, isWithin]
  simp only [FileSystem.realSteps_mapContents]
  rfl

end Provision.Workspace
