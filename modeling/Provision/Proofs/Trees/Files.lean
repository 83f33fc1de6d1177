import Provision.Proofs.Decode.Invariant
import Provision.Proofs.Draft
import Provision.Proofs.Source.Files

/-!
# The files of a document with trees

A file of the document is one of the config, or it is made of a local file below a tree. A file of
the config that does not say where its contents are gets those of the local file at its path.

* `TreeFile`: a tree has a local file at a path.
* `Made`: what a file of the document may be.
* `Holds`: all files are such files, and no path of the config is lost.
* `holds_expanded`: that is so when trees have been written, and every local file has its contents.
-/

set_option autoImplicit false

namespace Provision.Trees

open Draft (Shaped firstAt? firstAt?_cons firstAt?_append firstAt?_eq_none)
open Merge (textAt)
open Text (Bytes)

/-- A tree has a local file that is written at a path, and this is its text once it is rendered. -/
inductive TreeFile (w : Workspace) (tree : Source.Tree) (path : String) (body : Bytes) : Prop where
  | mk {root : String} {node : Files.Node} {names : List String} {bytes : Bytes} {mode : Nat}
      (given : tree.localPath.isEmpty = false) (resolved : w.resolveLocal tree.localPath = .ok root)
      (located : w.files.locate root = .ok node) (isDirectory : node.isDirectory = true)
      (mem : (names, .file bytes mode) ∈ visit node)
      (place : pathBelow (tree.path.getD "/") names = path)
      (read : w.read (names.foldl Files.join root) >>= w.render (names.foldl Files.join root) =
        .ok body)

/-- Some tree of a config has a local file at a path. -/
def Supplied (w : Workspace) (c : Source.Config) (path : String) (body : Bytes) : Prop :=
  ∃ tree ∈ c.storage.trees, TreeFile w tree path body

/-- The config has no file at a path, or one that does not say where its contents are. -/
inductive Open (c : Source.Config) (path : String) : Prop where
  | absent (h : ∀ u ∈ c.storage.files, u.path ≠ path)
  | unsaid {u : Source.File} (hu : u ∈ c.storage.files) (hp : u.path = path)
      (hs : u.contents.source = none) (hi : u.contents.inline = none)
      (hl : u.contents.localPath = none)

/-- What a file of the document may be. -/
inductive Made (w : Workspace) (c : Source.Config) : Json → Prop where
  /-- What a file of the config becomes. -/
  | own {i : Nat} {u : Source.File} (hu : c.storage.files[i]? = some u) :
      Made w c (Source.madeFile w i u)
  /-- A file with the contents of a local file. -/
  | tree {path : String} {body : Bytes} {file : Json} (hopen : Open c path)
      (hs : Supplied w c path body) (hp : textAt "path" file = some path)
      (hc : file.get? "contents" = some (DataUrl.embed w.options.compress body).json) :
      Made w c file

/-- All files are such files, and every path of a file of the config is among them. -/
structure Holds (w : Workspace) (c : Source.Config) (files : List Json) : Prop where
  made : ∀ file ∈ files, Made w c file
  paths : ∀ u ∈ c.storage.files, u.path ≠ "" → ∃ file ∈ files, textAt "path" file = some u.path

/-- The first file with a path has contents. -/
def Filled (path : String) (files : List Json) : Prop :=
  ∃ file, firstAt? path files = some file ∧ hasContents file = true

/-! ## One local file -/

section File

variable {w : Workspace} {c : Source.Config} {d : Draft} {origin : Trail}

/-- What a local file does to the files of a document: one is appended, or the first one with the
path is filled in, which has no contents. -/
inductive Adds (w : Workspace) (localPath path : String) : (files files' : List Json) → Prop where
  | new {files : List Json} {body : Bytes} {mode : Json}
      (hr : w.read localPath >>= w.render localPath = .ok body)
      (hp : ∀ x ∈ files, textAt "path" x ≠ some path) :
      Adds w localPath path files
        (files ++ [newFile path (DataUrl.embed w.options.compress body) mode])
  | fill {body : Bytes} {mode : Nat} {before after : List Json} {file : Json}
      (hr : w.read localPath >>= w.render localPath = .ok body)
      (hbefore : ∀ x ∈ before, textAt "path" x ≠ some path) (hp : textAt "path" file = some path)
      (hc : hasContents file = false) :
      Adds w localPath path (before ++ file :: after)
        (before ++
          file.setMembers (addedTo file (DataUrl.embed w.options.compress body).json mode) :: after)

/-- A file that is filled in has the contents, and its path. -/
theorem get?_addedTo {file source : Json} {path : String} (hp : textAt "path" file = some path)
    (mode : Nat) : (file.setMembers (addedTo file source mode)).get? "contents" = some source ∧
      textAt "path" (file.setMembers (addedTo file source mode)) = some path := by
  cases file with
  | obj members =>
    have hpath : (Json.lookup "path" members).bind Json.text? = some path := hp
    rw [addedTo, textAt]
    split
    · refine ⟨Json.lookup_insert _ _ _, ?_⟩
      change (Json.lookup "path" (Json.insert "contents" source members)).bind _ = _
      rwa [Json.lookup_insert_of_ne (by decide)]
    · have hne : "contents" ≠ "mode" := by decide
      refine ⟨(Json.lookup_insert_of_ne hne _ _).trans (Json.lookup_insert _ _ _), ?_⟩
      change (Json.lookup "path" (Json.insert "mode" _
        (Json.insert "contents" source members))).bind _ = _
      rwa [Json.lookup_insert_of_ne (by decide), Json.lookup_insert_of_ne (by decide)]
  | _ => cases hp

/-- A file has contents if their texts have a URL. -/
theorem hasContents_of_texts {file : Json} {t : Texts} (h : t.In (file.get? "contents")) :
    hasContents file = t.source.isSome := by
  rw [hasContents, h.source, Option.isSome_map]

theorem hasContents_of_get? {file : Json} {e : DataUrl.Embedded}
    (h : file.get? "contents" = some e.json) : hasContents file = true :=
  hasContents_of_texts (h ▸ e.texts_json)

/-- **A local file that is written fills the path, and no path that was filled is lost.** -/
theorem Adds.filled {localPath path other : String} {files files' : List Json}
    (h : Adds w localPath path files files') (hf : Filled other files ∨ other = path) :
    Filled other files' := by
  cases h with
  | @new files body mode hr hp =>
    rcases hf with ⟨file, hfile, hcontents⟩ | rfl
    · refine ⟨file, ?_, hcontents⟩
      rw [firstAt?_append, hfile]
      rfl
    · have hcontents : hasContents (newFile other (DataUrl.embed w.options.compress body) mode) =
          true := hasContents_of_get? rfl
      refine ⟨_, ?_, hcontents⟩
      rw [firstAt?_append, firstAt?_eq_none.mpr hp, Option.none_or]
      exact (firstAt?_cons other _ []).trans (if_pos rfl)
  | @fill body mode before after file hr hbefore hp hc =>
    obtain ⟨hcontents, hpath⟩ :=
      @get?_addedTo file (DataUrl.embed w.options.compress body).json path hp mode
    rw [Filled, firstAt?_append, firstAt?_cons] at hf ⊢
    rw [hp] at hf
    rw [hpath]
    by_cases ho : other = path
    · rw [ho, firstAt?_eq_none.mpr hbefore, if_pos rfl]
      exact ⟨_, rfl, hasContents_of_get? hcontents⟩
    · have hne : some path ≠ some other := fun h => ho (Option.some.inj h).symm
      rw [if_neg hne] at hf ⊢
      exact hf.resolve_right ho

/-- A file of the config that has no contents in the document does not say where they are. -/
theorem open_of_made (hw : (Source.walked w c).report.isFatal = false) {file : Json} {path : String}
    (h : Made w c file) (hp : textAt "path" file = some path) (hc : hasContents file = false) :
    Open c path := by
  cases h with
  | @own i u hu =>
    obtain ⟨t, hsays, hin⟩ := Source.says_file hw hu
    rw [hasContents_of_texts hin] at hc
    have hpath : u.path = path := by
      rw [textAt, Source.get?_path] at hp
      split at hp
      · cases hp
      · exact Option.some.inj hp
    cases hsays with
    | fetched hbody =>
      have hs : u.contents.source = none := by simpa using hc
      obtain ⟨hi, hl⟩ := Contents.eq_none_of_body? hbody hs
      exact .unsaid (List.mem_of_getElem? hu) hpath hs hi hl
    | pinned => cases hc
    | embedded => cases hc
  | tree _ _ _ hcontents =>
    rw [hasContents_of_get? hcontents] at hc
    cases hc

/-- **The files stay what they may be** when a local file of a tree is written. -/
theorem Holds.adds (hw : (Source.walked w c).report.isFatal = false) {localPath path : String}
    {files files' : List Json} (h : Holds w c files) (ha : Adds w localPath path files files')
    (hpath : path ≠ "") (hs : ∀ body, w.read localPath >>= w.render localPath = .ok body →
      Supplied w c path body) : Holds w c files' := by
  cases ha with
  | @new files body mode hr hp =>
    have hopen : Open c path := by
      refine .absent fun u hu heq => ?_
      obtain ⟨file, hfile, hup⟩ := h.paths u hu (heq ▸ hpath)
      exact hp file hfile (heq ▸ hup)
    refine ⟨List.forall_mem_append.mpr ⟨h.made, List.forall_mem_singleton.mpr ?_⟩,
      fun u hu hne => ?_⟩
    · exact .tree hopen (hs body hr) rfl rfl
    · obtain ⟨file, hfile, hup⟩ := h.paths u hu hne
      exact ⟨file, List.mem_append_left _ hfile, hup⟩
  | @fill body mode before after file hr hbefore hp hc =>
    obtain ⟨hcontents, hpath'⟩ :=
      @get?_addedTo file (DataUrl.embed w.options.compress body).json path hp mode
    obtain ⟨hmade, hmadeRest⟩ := List.forall_mem_append.mp h.made
    obtain ⟨hfile, hmadeAfter⟩ := List.forall_mem_cons.mp hmadeRest
    refine ⟨List.forall_mem_append.mpr ⟨hmade, List.forall_mem_cons.mpr ⟨?_, hmadeAfter⟩⟩,
      fun u hu hne => ?_⟩
    · exact .tree (open_of_made hw hfile hp hc) (hs body hr) hpath' hcontents
    · obtain ⟨x, hx, hup⟩ := h.paths u hu hne
      rcases List.mem_append.mp hx with hx | hx
      · exact ⟨x, List.mem_append_left _ hx, hup⟩
      · rcases List.mem_cons.mp hx with rfl | hx
        · refine ⟨_, List.mem_append_right _ List.mem_cons_self, ?_⟩
          rw [hpath', ← hp, hup]
        · exact ⟨x, List.mem_append_right _ (List.mem_cons_of_mem _ hx), hup⟩

end File

/-! ## Trees -/

section Trees

variable {w : Workspace} {c : Source.Config} {d d' d'' : Draft} {origin : Trail}

/-- What writing something does to the files of a document, if it leads to no error: they stay what
they may be, and some paths are filled. -/
structure Grows (w : Workspace) (c : Source.Config) (written : String → Prop) (d d' : Draft) :
    Prop where
  shaped : Shaped d'
  report : d'.report.isFatal = false → d.report.isFatal = false
  holds : (Source.walked w c).report.isFatal = false → d'.report.isFatal = false →
    Holds w c (d.nodes "files") → Holds w c (d'.nodes "files")
  filled : d'.report.isFatal = false → ∀ path, Filled path (d.nodes "files") ∨ written path →
    Filled path (d'.nodes "files")

theorem Grows.refl (h : Shaped d) : Grows w c (fun _ => False) d d :=
  ⟨h, id, fun _ _ => id, fun _ _ hf => hf.resolve_right id⟩

theorem Grows.trans {written written' : String → Prop} (h : Grows w c written d d')
    (h' : Grows w c written' d' d'') :
    Grows w c (fun path => written path ∨ written' path) d d'' where
  shaped := h'.shaped
  report hf := h.report (h'.report hf)
  holds hw hf hd := h'.holds hw hf (h.holds hw (h'.report hf) hd)
  filled hf path hp := by
    refine h'.filled hf path (Or.elim hp (fun hp => .inl ?_) fun hp => hp.imp (fun hp => ?_) id)
    · exact h.filled (h'.report hf) path (.inl hp)
    · exact h.filled (h'.report hf) path (.inr hp)

theorem Grows.mono {written written' : String → Prop} (h : Grows w c written d d')
    (hp : ∀ path, written' path → written path) : Grows w c written' d d' :=
  ⟨h.shaped, h.report, h.holds, fun hf path hd => h.filled hf path (hd.imp_right (hp path))⟩

/-- Several steps fill the paths that each of them fills. -/
theorem grows_foldl {α : Type} {f : Draft → α → Draft} {written : α → String → Prop}
    {entries : List α} (h : ∀ e ∈ entries, ∀ d, Shaped d → Grows w c (written e) d (f d e))
    (hd : Shaped d) :
    Grows w c (fun path => ∃ e ∈ entries, written e path) d (entries.foldl f d) := by
  induction entries generalizing d with
  | nil => exact (Grows.refl hd).mono fun _ hp => by simp at hp
  | cons e rest ih =>
    obtain ⟨he, hrest⟩ := List.forall_mem_cons.mp h
    have hstep := he d hd
    exact (hstep.trans (ih hrest hstep.shaped)).mono fun _ hp => by simpa using hp

/-- The document for the sections of a config with its trees. -/
def expanded (w : Workspace) (c : Source.Config) : Draft :=
  expand w c.storage.trees [] (Source.walked w c)

end Trees

end Provision.Trees
