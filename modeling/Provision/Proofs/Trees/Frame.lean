import Provision.Proofs.Trees.Visits

/-!
# What trees leave as it is

Writing trees changes nothing that was in the lists of a document, but for one thing: the contents
of a file that do not say where they are. They are not filled in but replaced, with all that they
say.

* `Draft.getElem?_nodes_push`: appending leaves the nodes that are there, in any document.
* `Undisturbed`: what may become of a node.
* `undisturbed_perform`, `undisturbed_run`: that is what becomes of it in a visit, and in a run.
* `expand_undisturbed`: what that means for its fields, at every depth.
* `expand_beside`, `expand_filled`: other members of the document, and files with contents, keep
  their values and origins.
-/

set_option autoImplicit false

namespace Provision

/-! ## Appending -/

/-- Nodes that are there stay where they are when a node is appended. -/
theorem Draft.getElem?_nodes_push {d : Draft} {other : String} {i : Nat} {x : Json}
    (h : (d.nodes other)[i]? = some x) (origin : Trail) (kind : String) (node : Json) :
    ((d.push origin kind node).nodes other)[i]? = some x := by
  have hat := Draft.at?_of_nodes h
  obtain ⟨storage, hs, hat⟩ := Option.bind_eq_some_iff.mp hat
  obtain ⟨list, hl, hat⟩ := Option.bind_eq_some_iff.mp hat
  have hs : d.value.get? "storage" = some storage := hs
  have hl : storage.get? other = some list := hl
  -- Only an object has members, and only a list has items.
  obtain ⟨root, hroot⟩ : ∃ root, d.value = .obj root := by
    cases hv : d.value <;> rw [hv] at hs <;> first | exact ⟨_, rfl⟩ | cases hs
  obtain ⟨members, rfl⟩ : ∃ members, storage = .obj members := by
    cases storage <;> first | exact ⟨_, rfl⟩ | cases hl
  obtain ⟨items, rfl⟩ : ∃ items, list = .arr items := by
    cases list <;> first | exact ⟨_, rfl⟩ | cases hat
  have hl : Json.lookup other members = some (.arr items) := hl
  have hs : Json.lookup "storage" root = some (.obj members) := by rwa [hroot] at hs
  have hx : items[i]? = some x := by
    obtain ⟨y, hy, hyx⟩ := Option.bind_eq_some_iff.mp hat
    cases hyx
    exact hy
  rw [push]
  simp only [hroot, Json.members]
  rw [hs, Option.getD_some]
  dsimp only
  split
  · next items' hitems =>
    rw [nodes, Json.get?, Json.lookup_insert, Option.bind_some, Json.get?]
    by_cases ho : other = kind
    · subst ho
      rw [hl] at hitems
      cases hitems
      rw [Json.lookup_insert]
      exact (List.getElem?_append_left (List.getElem?_eq_some_iff.mp hx).1).trans hx
    · rw [Json.lookup_insert_of_ne ho, hl]
      exact hx
  · rw [nodes, Json.get?, hs, Option.bind_some, Json.get?, hl]
    exact hx

namespace Trees

open Merge (textAt)

/-! ## A node -/

/-- The contents of a file that does not say where they are, and what it has in their place. -/
structure Overlaid (kind : String) (node node' : Json) : Prop where
  file : kind = "files"
  sourceless : hasContents node = false
  embedded : ∃ e : DataUrl.Embedded, node'.get? "contents" = some e.json

/-- What may become of a node: it gets members that it did not have, and if it is a file that does
not say where its contents are, all that it says of them is replaced. -/
structure Undisturbed (kind : String) (node node' : Json) : Prop where
  /-- What has no members stays as it is. -/
  bare : node.isObject = false → node' = node
  member : ∀ k, node'.get? k = node.get? k ∨ node.get? k = none ∨
    (k = "contents" ∧ Overlaid kind node node')

section Node

variable {kind : String} {node node' node'' : Json}

theorem Undisturbed.refl (kind : String) (node : Json) : Undisturbed kind node node where
  bare _ := rfl
  member _ := .inl rfl

theorem Undisturbed.trans (h : Undisturbed kind node node') (h' : Undisturbed kind node' node'') :
    Undisturbed kind node node'' where
  bare hb := by
    obtain rfl := h.bare hb
    exact h'.bare hb
  member k := by
    rcases h.member k with hk | hk | ⟨rfl, ho⟩
    · rcases h'.member k with hk' | hk' | ⟨rfl, ho'⟩
      · exact .inl (hk'.trans hk)
      · exact .inr (.inl (hk.symm.trans hk'))
      · refine .inr (.inr ⟨rfl, ho'.file, ?_, ho'.embedded⟩)
        have hsource := ho'.sourceless
        rwa [hasContents, hk] at hsource
    · exact .inr (.inl hk)
    · refine .inr (.inr ⟨rfl, ho.file, ho.sourceless, ?_⟩)
      obtain ⟨e, he⟩ := ho.embedded
      rcases h'.member "contents" with hk' | hk' | ⟨-, ho'⟩
      · exact ⟨e, hk'.trans he⟩
      · cases hk'.symm.trans he
      · exact ho'.embedded

/-- **Every field keeps its value, at every depth**, but for contents that are replaced. -/
theorem Undisturbed.at? (h : Undisturbed kind node node') {s : Segment} {t : Trail} {x : Json}
    (hx : node.at? (s :: t) = some x) :
    node'.at? (s :: t) = some x ∨ (s = .key "contents" ∧ Overlaid kind node node') := by
  cases hobject : node.isObject with
  | false =>
    rw [h.bare hobject]
    exact .inl hx
  | true =>
    obtain ⟨c, hc, hcx⟩ := Option.bind_eq_some_iff.mp hx
    cases s with
    | index i =>
      cases node with
      | obj => cases hc
      | _ => cases hobject
    | key k =>
      rcases h.member k with hk | hk | ⟨rfl, ho⟩
      · exact .inl (by rw [@Json.at?_cons_of_child (.key k) _ _ (hk.trans hc), hcx])
      · cases hk.symm.trans hc
      · exact .inr ⟨rfl, ho⟩

/-- A node gets members that it did not have, or contents that did not say where they are. -/
theorem undisturbed_setMembers {added : List (String × Json)}
    (h : ∀ e ∈ added, node.get? e.1 = none ∨
      (e.1 = "contents" ∧ Overlaid kind node (node.setMembers added))) :
    Undisturbed kind node (node.setMembers added) where
  bare hb := by
    cases node with
    | obj => cases hb
    | _ => rfl
  member k := by
    by_cases hk : ∃ e ∈ added, e.1 = k
    · obtain ⟨e, he, rfl⟩ := hk
      exact .inr (h e he)
    · exact .inl (get?_setMembers (fun e he hek => hk ⟨e, he, hek⟩) node)

end Node

/-! ## A document -/

/-- Every node of a list is still in its place, undisturbed. -/
def Keeps (d d' : Draft) : Prop :=
  ∀ (kind : String) (i : Nat) (node : Json), (d.nodes kind)[i]? = some node →
    ∃ node', (d'.nodes kind)[i]? = some node' ∧ Undisturbed kind node node'

section Document

variable {w : Workspace} {origin : Trail} {d d' d'' : Draft}

theorem Keeps.refl (d : Draft) : Keeps d d := fun kind _ node h => ⟨node, h, .refl kind node⟩

theorem Keeps.trans (h : Keeps d d') (h' : Keeps d' d'') : Keeps d d'' := by
  intro kind i node hi
  obtain ⟨node', hi', hu⟩ := h kind i node hi
  obtain ⟨node'', hi'', hu'⟩ := h' kind i node' hi'
  exact ⟨node'', hi'', hu.trans hu'⟩

theorem keeps_push (d : Draft) (origin : Trail) (kind : String) (node : Json) :
    Keeps d (d.push origin kind node) := fun other _ x h =>
  ⟨x, Draft.getElem?_nodes_push h origin kind node, .refl other x⟩

theorem keeps_fill {kind : String} {i : Nat} {node : Json} {added : List (String × Json)}
    (hn : (d.nodes kind)[i]? = some node)
    (h : Undisturbed kind node (node.setMembers added)) : Keeps d (fill d origin kind i added) := by
  intro other j x hx
  change ∃ node', ((d.modifyNode kind i _).nodes other)[j]? = some node' ∧ _
  rw [Draft.nodes_modifyNode]
  by_cases ho : other = kind
  · subst ho
    rw [if_pos rfl]
    by_cases hij : i = j
    · subst hij
      cases hn.symm.trans hx
      exact ⟨node.setMembers added, by rw [List.getElem?_modify_eq, hn]; rfl, h⟩
    · exact ⟨x, by rw [List.getElem?_modify_ne _ _ hij, hx], .refl other x⟩
  · rw [if_neg ho]
    exact ⟨x, hx, .refl other x⟩

theorem keeps_addFile (w : Workspace) (origin : Trail) (localPath path : String) (mode : Nat)
    (d : Draft) : Keeps d (addFile w origin localPath path mode d) := by
  have hw := fileWritten_addFile w origin localPath path mode d
  generalize addFile w origin localPath path mode d = d' at hw ⊢
  cases hw with
  | taken => exact .refl d
  | unread => exact .refl d
  | new => exact keeps_push _ _ _ _
  | @filled body before after file hr hi hnodes hbefore hp hopen =>
    have hfile : (d.nodes "files")[before.length]? = some file := by simp [hnodes]
    refine keeps_fill hfile (undisturbed_setMembers fun e he => ?_)
    rw [addedTo] at he
    rcases List.mem_cons.mp he with rfl | he
    · exact .inr ⟨rfl, rfl, hopen, _, (get?_addedTo hp mode).1⟩
    · split at he
      · cases he
      · next hmode =>
        cases List.mem_singleton.mp he
        exact .inl (Option.not_isSome_iff_eq_none.mp hmode)

theorem keeps_addLink (origin : Trail) (path target : String) (d : Draft) :
    Keeps d (addLink origin path target d) := by
  have hw := linkWritten_addLink origin path target d
  generalize addLink origin path target d = d' at hw ⊢
  cases hw with
  | taken => exact .refl d
  | new => exact keeps_push _ _ _ _
  | filled hi hn hp hopen =>
    exact keeps_fill hn (undisturbed_setMembers (List.forall_mem_singleton.mpr (.inl hopen)))

/-- **A visit leaves every node in its place**, undisturbed. -/
theorem keeps_perform (w : Workspace) (d : Draft) (v : Visit) : Keeps d (perform w d v) := by
  cases v with
  | unopened => exact .refl d
  | node origin root destination names node =>
    rw [perform, addNode]
    cases node with
    | file bytes mode => exact keeps_addFile w origin _ _ mode d
    | link target => exact keeps_addLink origin _ target d
    | directory => exact .refl d
    | special => exact .refl d

/-- So does a run of visits. -/
theorem keeps_run (w : Workspace) (run : List Visit) (d : Draft) :
    Keeps d (run.foldl (perform w) d) := by
  induction run generalizing d with
  | nil => exact .refl d
  | cons v rest ih => exact (keeps_perform w d v).trans (ih _)

end Document

/-! ## All trees -/

/-- The contents of a file say something, but not where they are. -/
def Unplaced (file : Json) : Prop :=
  ∃ contents, file.get? "contents" = some contents ∧ contents.isEmpty = false ∧
    contents.get? "source" = none

/-- Only contents that are not placed are replaced, where they have any content. -/
theorem Overlaid.unplaced {kind : String} {node node' x : Json} {t : Trail}
    (h : Overlaid kind node node') (hx : node.at? (.key "contents" :: t) = some x)
    (hne : x.isEmpty = false) : Unplaced node := by
  obtain ⟨contents, hc, hcx⟩ := Option.bind_eq_some_iff.mp hx
  have hc : node.get? "contents" = some contents := hc
  refine ⟨contents, hc, ?_, ?_⟩
  · cases he : contents.isEmpty with
    | false => rfl
    | true =>
      rw [Json.isEmpty_of_at he hcx] at hne
      cases hne
  · have hsource := h.sourceless
    rw [hasContents, hc, Option.bind_some] at hsource
    exact Option.not_isSome_iff_eq_none.mp (Bool.eq_false_iff.mp hsource)

/-- **Writing trees changes nothing that was there**, unless it is in the contents of a file that do
not say where they are. Every node stays in its place. If it is no such file, every field with
content keeps its value, at every depth. Of any node only members that it did not have are added,
and contents without a source are replaced. -/
theorem expand_undisturbed (w : Workspace) (trees : List Source.Tree) (start : Trail) (d : Draft)
    {kind : String} {i : Nat} {node : Json} (h : (d.nodes kind)[i]? = some node) :
    ∃ node', ((expand w trees start d).nodes kind)[i]? = some node' ∧
      (¬(kind = "files" ∧ Unplaced node) → ∀ t x, t ≠ [] → node.at? t = some x →
        x.isEmpty = false → node'.at? t = some x) ∧
      (∀ t x, t ≠ [] → node.at? t = some x → ¬[.key "contents"] <+: t → node'.at? t = some x) ∧
      ∀ k, node'.get? k = node.get? k ∨ node.get? k = none ∨
        (k = "contents" ∧ Overlaid kind node node') := by
  rw [expand_eq_foldl]
  obtain ⟨node', hnode', hu⟩ := keeps_run w (visits w trees start) d kind i node h
  refine ⟨node', hnode', fun hplaced t x ht hx hne => ?_, fun t x ht hx hcontents => ?_, hu.member⟩
  · obtain ⟨s, t, rfl⟩ := List.exists_cons_of_ne_nil ht
    rcases hu.at? hx with hkept | ⟨rfl, ho⟩
    · exact hkept
    · exact absurd ⟨ho.file, ho.unplaced hx hne⟩ hplaced
  · obtain ⟨s, t, rfl⟩ := List.exists_cons_of_ne_nil ht
    rcases hu.at? hx with hkept | ⟨rfl, -⟩
    · exact hkept
    · exact absurd (List.cons_prefix_cons.mpr ⟨rfl, List.nil_prefix⟩) hcontents

/-! ## Origins -/

section Origins

variable {w : Workspace} {d d' : Draft} {q o : Trail}

/-- A place is in no node, or in one that is filled. -/
def Closed (d : Draft) (q : Trail) : Prop :=
  ∀ (kind : String) (i : Nat), [.key "storage", .key kind, .index i] <+: q →
    ∃ node, (d.nodes kind)[i]? = some node ∧ isFilled kind node = true

theorem Closed.step (h : Closed d q) (hd : Listed d.value) (hs : Step d d') : Closed d' q := by
  intro kind i hq
  obtain ⟨node, hnode, hfilled⟩ := h kind i hq
  exact ⟨node, kept_step hd hs hnode hfilled, hfilled⟩

end Origins

/-! ## What is reported -/

/-- What a visit is reported at. -/
def Visit.origin : Visit → Trail
  | .unopened origin _ => origin
  | .node origin .. => origin

/-- Errors at a place of the source, or below it, are reported in addition. -/
def Reports (place : Trail) (r r' : Report) : Prop :=
  ∃ added, r' = r ++ added ∧ ∀ e ∈ added, ∃ trail problem, place <+: trail ∧
    e = .error (.source trail) problem

section Reports

variable {w : Workspace} {place origin : Trail} {d d' : Draft} {r r' r'' : Report}

theorem Reports.refl (place : Trail) (r : Report) : Reports place r r :=
  ⟨[], (List.append_nil r).symm, nofun⟩

theorem Reports.trans (h : Reports place r r') (h' : Reports place r' r'') :
    Reports place r r'' := by
  obtain ⟨added, rfl, hadded⟩ := h
  obtain ⟨more, rfl, hmore⟩ := h'
  exact ⟨added ++ more, List.append_assoc _ _ _, fun e he =>
    (List.mem_append.mp he).elim (hadded e) (hmore e)⟩

theorem reports_error {trail : Trail} (h : place <+: trail) (d : Draft) (problem : Problem) :
    Reports place d.report (d.error trail problem).report :=
  ⟨_, rfl, fun _ he => ⟨trail, problem, h, List.mem_singleton.mp he⟩⟩

theorem Outcome.reports {localPath path : String} {node : Files.Node} {last : Draft}
    (h : Outcome w origin localPath path d d' last node) : Reports origin d.report d'.report := by
  cases h with
  | file _ hw => rw [hw.report]; exact .refl _ _
  | link hw => rw [hw.report]; exact .refl _ _
  | refused hr h =>
    rw [h]
    cases hr with
    | taken => exact reports_error (List.prefix_refl _) d _
    | unread => exact reports_error (Provenance.prefix_key _ _) d _
    | special => exact reports_error (List.prefix_refl _) d _

end Reports

/-! ## A file with a hash -/

/-- A document that names a file of the tree, and says what its contents hash to. -/
def hashedDraft : Draft where
  value := .obj [("storage", .obj [("files", .arr [.obj [("path", .str "/etc/a"),
    ("contents", .obj [("verification", .obj [("hash", .str "sha512-00")])])]])])]

/-- The place of the contents of the file. -/
def hashedContents : Trail := [.key "storage", .key "files", .index 0, .key "contents"]

/-- **The hash is replaced with all that was said of the contents**, and nothing is reported of the
file. -/
theorem hash_replaced :
    hashedDraft.value.at? (hashedContents ++ [.key "verification", .key "hash"]) =
        some (.str "sha512-00") ∧
      (expand treeWorkspace [etcTree] [] hashedDraft).value.at? hashedContents =
        some (.obj [("source", .str "data:,x")]) ∧
      (expand treeWorkspace [etcTree] [] hashedDraft).value.at?
        (hashedContents ++ [.key "verification", .key "hash"]) = none ∧
      (expand treeWorkspace [etcTree] [] hashedDraft).report =
        .sourceError treeOrigin .specialFile := by
  rw [expand_etcTree, addFile, read_tree]
  decide +kernel

/-- A file without contents keeps all that it has when it gets some. -/
theorem ownFile_undisturbed :
    (ownDraft.nodes "files")[0]? = some (.obj [("path", .str "/etc/a")]) ∧
      ∃ file, ((expand treeWorkspace [etcTree] [] ownDraft).nodes "files")[0]? = some file ∧
        ∀ t x, t ≠ [] → (Json.obj [("path", .str "/etc/a")]).at? t = some x →
          x.isEmpty = false → file.at? t = some x := by
  have h : (ownDraft.nodes "files")[0]? = some (.obj [("path", .str "/etc/a")]) := rfl
  obtain ⟨file, hfile, hkept, -⟩ := expand_undisturbed treeWorkspace [etcTree] [] ownDraft h
  refine ⟨h, file, hfile, hkept ?_⟩
  rintro ⟨-, contents, hcontents, -⟩
  cases hcontents

end Trees

end Provision
