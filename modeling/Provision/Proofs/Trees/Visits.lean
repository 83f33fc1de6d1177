import Provision.Proofs.Files.Follow
import Provision.Proofs.Trees.Files

/-!
# What becomes of everything below trees

Trees are written one thing after the other. Each file and each link below a tree is written into
one node of the document, where it stays, or it is an error and nothing else happens. What is
neither is always an error.

* `expand_eq_foldl`: writing trees is a run of visits.
* `Step`: what a visit may do to a document.
* `covers_step`, `nodup_step`, `kept_step`: what every step preserves.
* `Outcome`: what becomes of something that is visited.
* `expanded_expand`: that is what becomes of everything below trees.
-/

set_option autoImplicit false

namespace Provision

namespace Trees

open Draft (Lists)
open Merge (textAt)
open Text (Bytes)
open Files (FileSystem)

/-! ## Visits -/

/-- What happens on the way: a tree cannot be opened, or something below a tree is visited. -/
inductive Visit where
  | unopened (origin : Trail) (problem : Problem)
  | node (origin : Trail) (root destination : String) (names : List String) (node : Files.Node)

/-- The path of the directory that a tree stands for, and the directory. -/
def opened (w : Workspace) (tree : Source.Tree) : Except Problem (String × Files.Node) := do
  let root ← w.resolveLocal tree.localPath
  let node ← (w.files.locate root).mapError (.unreadable root)
  if node.isDirectory then .ok (root, node) else .error Problem.treeNotDirectory

/-- The visits for a tree whose place in the source is known. -/
def visitsOf (w : Workspace) (tree : Source.Tree) (origin : Trail) : List Visit :=
  if tree.localPath.isEmpty then []
  else match opened w tree with
    | .error problem => [.unopened (origin.key "local") problem]
    | .ok (root, node) =>
      (visit node).map fun e => .node origin root (tree.path.getD "/") e.1 e.2

/-- All visits for the trees of a config at a place of the source. -/
def visits (w : Workspace) (trees : List Source.Tree) (start : Trail) : List Visit :=
  trees.zipIdx.flatMap fun (tree, i) =>
    visitsOf w tree (((start.key "storage").key "trees").index i)

/-- What a visit does to a document. -/
def perform (w : Workspace) (d : Draft) : Visit → Draft
  | .unopened origin problem => d.error origin problem
  | .node origin root destination names node => addNode w origin root destination d (names, node)

theorem addTree_eq_foldl (w : Workspace) (d : Draft) (tree : Source.Tree) (origin : Trail) :
    addTree w d tree origin = (visitsOf w tree origin).foldl (perform w) d := by
  rw [addTree, visitsOf]
  split
  · rfl
  · change (match opened w tree with
      | .error problem => d.error (origin.key "local") problem
      | .ok (root, node) => (visit node).foldl (addNode w origin root (tree.path.getD "/")) d) = _
    cases opened w tree with
    | error problem => rfl
    | ok found =>
      dsimp only
      rw [List.foldl_map]
      rfl

/-- **Writing trees is a run of visits.** -/
theorem expand_eq_foldl (w : Workspace) (trees : List Source.Tree) (start : Trail) (d : Draft) :
    expand w trees start d = (visits w trees start).foldl (perform w) d := by
  rw [expand, visits, List.foldl_flatMap]
  simp only [addTree_eq_foldl]

/-! ## Steps -/

/-- A document that trees may be written into. -/
structure Listed (x : Json) : Prop where
  distinct : x.isDistinct = true
  lists : ∀ kind ∈ nodeKinds, Lists kind x

/-- Whether a node of a kind has what trees supply. -/
def isFilled (kind : String) (node : Json) : Bool :=
  if kind = "links" then (node.get? "target").isSome else hasContents node

/-- What a visit may do to a document: it is an error, or appends a node at a path that no node has,
or fills in a node. -/
inductive Step (d : Draft) : Draft → Prop where
  | error (trail : Trail) (problem : Problem) : Step d (d.error trail problem)
  | push {origin : Trail} {kind path : String} {node : Json} (hk : kind ∈ nodeKinds)
      (hfree : ∀ other ∈ nodeKinds, d.position? other path = none)
      (hp : textAt "path" node = some path) (hd : node.isDistinct = true) :
      Step d (d.push origin kind node)
  | fill {origin : Trail} {kind : String} {i : Nat} {node : Json} {added : List (String × Json)}
      (hn : (d.nodes kind)[i]? = some node) (hp : (textAt "path" node).isSome = true)
      (hopen : isFilled kind node = false)
      (hadded : ∀ e ∈ added, e.1 ≠ "path" ∧ e.2.isDistinct = true) :
      Step d (fill d origin kind i added)

section Set

variable {kind other : String} {n : Nat} {x y : Json} {t : Trail}

/-- A document in which a node is set may list nodes if it could before. -/
theorem lists_put (h : Lists other x) (y : Json) (kind : String) (n : Nat) :
    Lists other (Json.put y [.key "storage", .key kind, .index n] x) := by
  have hstorage : (Json.put y [.key "storage", .key kind, .index n] x).get? "storage" =
      some (Json.put y [.key kind, .index n] ((x.get? "storage").getD .null)) :=
    Json.lookup_insert _ _ _
  refine ⟨⟨_, rfl⟩, fun s hs => ?_, fun s list hs hl => ?_⟩ <;>
    cases hstorage.symm.trans hs
  · exact ⟨_, rfl⟩
  · by_cases hk : other = kind
    · subst hk
      have hlist : (Json.put y [.key other, .index n] ((x.get? "storage").getD .null)).get? other =
          some _ := Json.lookup_insert _ _ _
      cases hlist.symm.trans hl
      exact ⟨_, rfl⟩
    · rw [Json.put] at hl
      have hold := (Json.lookup_insert_of_ne hk _ _).symm.trans hl
      rw [Json.lookup_members] at hold
      cases hs : x.get? "storage" with
      | none =>
        rw [hs] at hold
        cases hold
      | some storage =>
        rw [hs] at hold
        exact h.list storage list hs hold

theorem listed_put (h : Listed x) (hy : y.isDistinct = true) (kind : String) (n : Nat) :
    Listed (Json.put y [.key "storage", .key kind, .index n] x) :=
  ⟨Json.isDistinct_put hy _ h.distinct, fun other hk => lists_put (h.lists other hk) y kind n⟩

theorem isDistinct_setMembers {added : List (String × Json)}
    (hadded : ∀ e ∈ added, e.2.isDistinct = true) (hx : x.isDistinct = true) :
    (x.setMembers added).isDistinct = true := by
  cases x with
  | obj members =>
    rw [Json.setMembers]
    induction added generalizing members with
    | nil => exact hx
    | cons e rest ih =>
      obtain ⟨he, hrest⟩ := List.forall_mem_cons.mp hadded
      exact ih hrest _ (Json.isDistinct_insert he hx)
  | _ => exact hx

/-- Setting members concerns no others. -/
theorem get?_setMembers {k : String} {added : List (String × Json)}
    (h : ∀ e ∈ added, e.1 ≠ k) (x : Json) : (x.setMembers added).get? k = x.get? k := by
  cases x with
  | obj members =>
    rw [Json.setMembers]
    induction added generalizing members with
    | nil => rfl
    | cons e rest ih =>
      obtain ⟨he, hrest⟩ := List.forall_mem_cons.mp h
      exact (ih hrest _).trans (Json.lookup_insert_of_ne (Ne.symm he) _ _)
  | _ => rfl

/-- Members that are set get origins, and no origin is lost. -/
theorem grows_added (p : Provenance) (origin t : Trail) (added : List (String × Json)) :
    p.Grows (fun _ => True) (fun _ => True)
      (added.foldl (fun p e => p.addValue origin (t.key e.1) e.2) p) :=
  Provenance.grows_foldl (fun e _ p => (@Provenance.grows_addValue (fun _ => True) origin trivial p
    (t.key e.1) e.2).mono fun _ _ => trivial) p

/-- A value that is covered stays so when members are set and get origins. -/
theorem covers_setMembers {p : Provenance} (origin : Trail) (added : List (String × Json))
    (h : p.Covers t x) (ht : (p.find? t).isSome = true) :
    (added.foldl (fun p e => p.addValue origin (t.key e.1) e.2) p).Covers t
      (x.setMembers added) := by
  cases x with
  | obj members =>
    rw [Json.setMembers]
    induction added generalizing p members with
    | nil => exact h
    | cons e rest ih =>
      have hstep := grows_added p origin t [e]
      refine ih (p := p.addValue origin (t.key e.1) e.2) (hstep.isSome _ ht) _ ?_
      refine (Provenance.covers_iff _ _ _).mpr ⟨fun _ => .inr (hstep.isSome _ ht), ?_⟩
      intro s y hy
      cases s with
      | index => cases hy
      | key k =>
        rw [Json.child?_key_obj] at hy
        by_cases hk : k = e.1
        · subst hk
          rw [Json.lookup_insert] at hy
          cases hy
          exact Provenance.covers_addValue _ _ _ _
        · rw [Json.lookup_insert_of_ne hk] at hy
          exact hstep.covers (((Provenance.covers_iff _ _ _).mp h).2 (.key k) y hy)
  | _ => exact (grows_added p origin t added).covers h

/-- Filling in a node sets it at its place. -/
theorem modifyNode_setMembers {d : Draft} (hd : d.value.isDistinct = true) {i : Nat}
    {node : Json} (hn : (d.nodes kind)[i]? = some node) (added : List (String × Json)) :
    d.modifyNode kind i (Json.setMembers added) =
      ⟨Json.put (node.setMembers added) [.key "storage", .key kind, .index i] d.value,
        d.provenance, d.report⟩ :=
  Draft.modifyNode_eq hd (Draft.at?_of_nodes hn) (u := []) rfl

end Set

/-! ## What steps preserve -/

section Preserved

variable {d d' : Draft}

theorem listed_step (h : Listed d.value) (hs : Step d d') : Listed d'.value := by
  cases hs with
  | error => exact h
  | @push origin kind path node hk hfree hp hd =>
    obtain ⟨n, -, -, heq⟩ := Draft.push_eq (h.lists kind hk) origin node
    rw [heq]
    exact listed_put h hd kind n
  | @fill origin kind i node added hn hp hopen hadded =>
    have hnode := Json.isDistinct_of_at h.distinct (Draft.at?_of_nodes hn)
    change Listed (d.modifyNode kind i (Json.setMembers added)).value
    rw [modifyNode_setMembers h.distinct hn]
    exact listed_put h (isDistinct_setMembers (fun e he => (hadded e he).2) hnode) kind i

/-- **Everything keeps an origin.** -/
theorem covers_step (h : Listed d.value) (hs : Step d d')
    (hc : d.provenance.Covers [] d.value) : d'.provenance.Covers [] d'.value := by
  cases hs with
  | error => exact hc
  | @push origin kind path node hk hfree hp hd =>
    obtain ⟨n, hroom, -, heq⟩ := Draft.push_eq (h.lists kind hk) origin node
    have hgrows := @Draft.grows_push (fun _ => True) origin trivial d.provenance kind n node
    rw [heq]
    exact hc.put hroom hgrows.isSome (Provenance.covers_addValue _ _ _ _) fun u hu hnil ht =>
      Draft.isSome_push _ _ _ _ _ hu hnil ht
  | @fill origin kind i node added hn hp hopen hadded =>
    have hat := Draft.at?_of_nodes hn
    have hgrows := grows_added d.provenance origin [.key "storage", .key kind, .index i] added
    have hne : node.isEmpty = false := by
      cases node with
      | obj members =>
        cases members with
        | nil => cases hp
        | cons => rfl
      | _ => cases hp
    have hfind := (hc _ _ hat hne).resolve_left (List.cons_ne_nil _ _)
    have hnode := covers_setMembers origin added (hc.at hat) hfind
    change (fill d origin kind i added).provenance.Covers []
      (d.modifyNode kind i (Json.setMembers added)).value
    rw [modifyNode_setMembers h.distinct hn]
    refine hc.put (Json.hasRoom_of_at (by rw [hat]; rfl)) hgrows.isSome hnode fun u hu hnil ht => ?_
    obtain ⟨v, hv⟩ := hu
    cases v with
    | nil => exact absurd ((List.append_nil u).symm.trans hv) ht
    | cons step v => exact hgrows.isSome _ (hc.isSome_of_prefix (by rw [hv, hat]; rfl) hnil)

/-- The paths of all nodes with paths. -/
def paths (d : Draft) : List String :=
  nodeKinds.flatMap fun kind => (d.nodes kind).filterMap (textAt "path")

/-- One more entry of one of several lists is one more of all of them. -/
theorem flatMap_perm {f f' : String → List String} {kind path : String} {kinds : List String}
    (hk : kind ∈ kinds) (hn : kinds.Nodup) (hkind : f' kind = f kind ++ [path])
    (hother : ∀ other, other ≠ kind → f' other = f other) :
    (kinds.flatMap f').Perm (path :: kinds.flatMap f) := by
  induction kinds with
  | nil => cases hk
  | cons k rest ih =>
    obtain ⟨hnot, hrest⟩ := List.nodup_cons.mp hn
    rw [List.flatMap_cons, List.flatMap_cons]
    rcases List.mem_cons.mp hk with rfl | hk
    · have hsame : rest.flatMap f' = rest.flatMap f := by
        rw [List.flatMap_def, List.flatMap_def, List.map_congr_left fun other ho =>
          hother other fun he => hnot (he ▸ ho)]
      rw [hkind, hsame, List.append_assoc]
      exact List.perm_middle
    · rw [hother k fun he => hnot (he ▸ hk)]
      exact ((ih hk hrest).append_left (f k)).trans List.perm_middle

/-- A node that is filled in keeps its path. -/
theorem textAt_setMembers {added : List (String × Json)} (h : ∀ e ∈ added, e.1 ≠ "path")
    (x : Json) : textAt "path" (x.setMembers added) = textAt "path" x := by
  rw [textAt, get?_setMembers h]
  rfl

theorem filterMap_modify {f : Json → Json} {g : Json → Option String} (h : ∀ x, g (f x) = g x)
    (i : Nat) (nodes : List Json) : (nodes.modify i f).filterMap g = nodes.filterMap g := by
  induction nodes generalizing i with
  | nil => rw [List.modify_nil]
  | cons x rest ih =>
    cases i with
    | zero => rw [List.modify_zero_cons, List.filterMap_cons, List.filterMap_cons, h]
    | succ i => rw [List.modify_succ_cons, List.filterMap_cons, List.filterMap_cons, ih]

/-- **No two nodes get the same path.** -/
theorem nodup_step (h : Listed d.value) (hs : Step d d') (hn : (paths d).Nodup) :
    (paths d').Nodup := by
  cases hs with
  | error => exact hn
  | @push origin kind path node hk hfree hp hd =>
    have hpush := Draft.nodes_push (h.lists kind hk) origin node
    have hperm : (paths (d.push origin kind node)).Perm (path :: paths d) := by
      refine flatMap_perm hk (by decide) ?_ fun other ho => ?_
      · rw [hpush, if_pos rfl, List.filterMap_append]
        exact congrArg (_ ++ ·) (List.filterMap_cons_some hp)
      · rw [hpush, if_neg ho]
    refine hperm.nodup_iff.mpr (List.nodup_cons.mpr ⟨fun hm => ?_, hn⟩)
    obtain ⟨other, ho, hm⟩ := List.mem_flatMap.mp hm
    obtain ⟨x, hx, hxp⟩ := List.mem_filterMap.mp hm
    exact Draft.position?_eq_none (hfree other ho) x hx hxp
  | @fill origin kind i node added hn' hp hopen hadded =>
    have hsame : ∀ other, ((fill d origin kind i added).nodes other).filterMap (textAt "path") =
        (d.nodes other).filterMap (textAt "path") := by
      intro other
      change ((d.modifyNode kind i (Json.setMembers added)).nodes other).filterMap _ = _
      rw [Draft.nodes_modifyNode]
      split
      · next ho =>
        subst ho
        exact filterMap_modify (textAt_setMembers fun e he => (hadded e he).1) i _
      · rfl
    rw [paths, List.flatMap_def, List.map_congr_left fun other _ => hsame other,
      ← List.flatMap_def]
    exact hn

/-- **Nodes that are filled stay as they are.** -/
theorem kept_step (h : Listed d.value) (hs : Step d d') {kind : String} {i : Nat} {x : Json}
    (hx : (d.nodes kind)[i]? = some x) (hf : isFilled kind x = true) :
    (d'.nodes kind)[i]? = some x := by
  cases hs with
  | error => exact hx
  | @push origin other path node hk hfree hp hd =>
    rw [Draft.nodes_push (h.lists other hk)]
    split
    · next ho =>
      subst ho
      rw [List.getElem?_append_left (List.getElem?_eq_some_iff.mp hx).1, hx]
    · exact hx
  | @fill origin other j node added hn hp hopen hadded =>
    change ((d.modifyNode other j (Json.setMembers added)).nodes kind)[i]? = _
    rw [Draft.nodes_modifyNode]
    split
    · next ho =>
      subst ho
      rw [List.getElem?_modify, hx]
      refine congrArg some (if_neg fun hj => ?_)
      subst hj
      cases hn.symm.trans hx
      rw [hopen] at hf
      cases hf
    · exact hx

end Preserved

/-! ## What becomes of a visit -/

/-- One node of a document is written at a path: it is appended, or it is the first one that has the
path, and is filled in. All other nodes stay as they are. -/
structure Writes (kind path : String) (i : Nat) (x : Json) (d d' : Draft) : Prop where
  node : (d'.nodes kind)[i]? = some x
  named : textAt "path" x = some path
  place : d.position? kind path = none ∧ i = (d.nodes kind).length ∨
    d.position? kind path = some i
  /-- What is filled in was not filled, and keeps what it has, but for parts of contents. -/
  filled : ∀ y, (d.nodes kind)[i]? = some y → isFilled kind y = false ∧
    ∀ k v, y.get? k = some v → k ≠ "contents" → x.get? k = some v
  others : ∀ j, j ≠ i → (d'.nodes kind)[j]? = (d.nodes kind)[j]?
  kinds : ∀ other, other ≠ kind → d'.nodes other = d.nodes other
  beside : ∀ k, k ≠ "storage" → d'.value.get? k = d.value.get? k
  report : d'.report = d.report

/-- Why a visit is in vain: there is a node with the path, nothing can be read, or what is visited
is neither a file nor a link. -/
inductive Refuses (w : Workspace) (origin : Trail) (localPath path : String) (d : Draft) :
    Files.Node → Trail → Problem → Prop where
  | taken {node : Files.Node} {kind : String} (hk : kind ∈ nodeKinds)
      (hp : (d.position? kind path).isSome = true) :
      Refuses w origin localPath path d node origin .nodeExists
  | unread {bytes : Bytes} {mode : Nat} {problem : Problem}
      (h : w.read localPath >>= w.render localPath = .error problem) :
      Refuses w origin localPath path d (.file bytes mode) (origin.key "local") problem
  | special {node : Files.Node} (hfile : ∀ bytes mode, node ≠ .file bytes mode)
      (hlink : ∀ target, node ≠ .link target) :
      Refuses w origin localPath path d node origin .specialFile

/-- What becomes of something that is visited. What is written is still there in the last
document. -/
inductive Outcome (w : Workspace) (origin : Trail) (localPath path : String) (d d' last : Draft) :
    Files.Node → Prop where
  | file {bytes body : Bytes} {mode i : Nat} {x : Json}
      (hr : w.read localPath >>= w.render localPath = .ok body)
      (hw : Writes "files" path i x d d')
      (hc : x.get? "contents" = some (DataUrl.embed w.options.compress body).json)
      (hl : (last.nodes "files")[i]? = some x) :
      Outcome w origin localPath path d d' last (.file bytes mode)
  | link {target : String} {i : Nat} {x : Json} (hw : Writes "links" path i x d d')
      (ht : x.get? "target" = some (.str target)) (hl : (last.nodes "links")[i]? = some x) :
      Outcome w origin localPath path d d' last (.link target)
  | refused {node : Files.Node} {trail : Trail} {problem : Problem}
      (hr : Refuses w origin localPath path d node trail problem)
      (h : d' = d.error trail problem) : Outcome w origin localPath path d d' last node

section Visits

variable {w : Workspace} {origin : Trail} {d d' : Draft} {kind path : String}

theorem writes_push (origin : Trail) (h : Lists kind d.value)
    (hnone : d.position? kind path = none) {node : Json} (hp : textAt "path" node = some path) :
    Writes kind path (d.nodes kind).length node d (d.push origin kind node) where
  node := by rw [Draft.nodes_push h, if_pos rfl, List.getElem?_concat_length]
  named := hp
  place := .inl ⟨hnone, rfl⟩
  filled y hy := by
    rw [List.getElem?_eq_none (Nat.le_refl _)] at hy
    cases hy
  others j hj := by
    rw [Draft.nodes_push h, if_pos rfl]
    by_cases hlt : j < (d.nodes kind).length
    · exact List.getElem?_append_left hlt
    · rw [List.getElem?_eq_none (Nat.not_lt.mp hlt), List.getElem?_eq_none]
      rw [List.length_append, List.length_singleton]
      omega
  kinds other ho := by rw [Draft.nodes_push h, if_neg ho]
  beside k hk := by
    obtain ⟨n, -, -, heq⟩ := Draft.push_eq h origin node
    rw [heq]
    exact (Json.lookup_insert_of_ne hk _ _).trans (Json.lookup_members _ _)
  report := Draft.report_push _ _ _ _

theorem writes_fill (origin : Trail) {i : Nat} {node : Json} (hi : d.position? kind path = some i)
    (hn : (d.nodes kind)[i]? = some node) (hp : textAt "path" node = some path)
    (hopen : isFilled kind node = false) {added : List (String × Json)}
    (hadded : ∀ e ∈ added, e.1 ≠ "path" ∧ (e.1 = "contents" ∨ node.get? e.1 = none)) :
    Writes kind path i (node.setMembers added) d (fill d origin kind i added) where
  node := by
    change ((d.modifyNode kind i _).nodes kind)[i]? = _
    rw [Draft.nodes_modifyNode, if_pos rfl, List.getElem?_modify_eq, hn]
    rfl
  named := (textAt_setMembers (fun e he => (hadded e he).1) node).trans hp
  place := .inr hi
  filled y hy := by
    cases hn.symm.trans hy
    refine ⟨hopen, fun k v hv hk => ?_⟩
    rw [get?_setMembers fun e he hek => ?_, hv]
    rcases (hadded e he).2 with hc | hnone
    · exact hk (hek ▸ hc)
    · rw [hek, hv] at hnone
      cases hnone
  others j hj := by
    change ((d.modifyNode kind i _).nodes kind)[j]? = _
    rw [Draft.nodes_modifyNode, if_pos rfl, List.getElem?_modify_ne _ _ (Ne.symm hj)]
  kinds other ho := by
    change (d.modifyNode kind i _).nodes other = _
    rw [Draft.nodes_modifyNode, if_neg ho]
  beside k hk := by
    change (d.value.modify "storage" _).get? k = _
    rw [Json.get?_modify_eq]
    simp only [if_neg hk, Option.map_id']
  report := rfl

/-- **What becomes of a local file.** -/
theorem outcome_addFile (h : Listed d.value) (localPath path : String) (bytes : Bytes)
    (mode : Nat) :
    Step d (addFile w origin localPath path mode d) ∧
      Outcome w origin localPath path d (addFile w origin localPath path mode d)
        (addFile w origin localPath path mode d) (.file bytes mode) := by
  have hkind : "files" ∈ nodeKinds := List.mem_cons_self
  have hw := fileWritten_addFile w origin localPath path mode d
  generalize addFile w origin localPath path mode d = d' at hw ⊢
  cases hw with
  | taken hk hp => exact ⟨.error _ _, .refused (.taken hk hp) rfl⟩
  | unread hr => exact ⟨.error _ _, .refused (.unread hr) rfl⟩
  | @new body hr hfree =>
    have hpath : textAt "path" (newFile path (DataUrl.embed w.options.compress body)
        (.int (modeFor mode))) = some path := rfl
    have hwrites := writes_push origin (h.lists _ hkind) (hfree _ hkind) hpath
    refine ⟨.push hkind hfree hpath ?_, .file hr hwrites rfl hwrites.node⟩
    refine Json.isDistinct_obj.mpr ⟨(by decide : ["path", "contents", "mode"].Nodup), ?_⟩
    simp only [List.forall_mem_cons]
    exact ⟨rfl, (fits_embedded _).2, rfl, nofun⟩
  | @filled body before after file hr hi hnodes hbefore hp hopen =>
    have hfile : (d.nodes "files")[before.length]? = some file := by simp [hnodes]
    have hopen : isFilled "files" file = false := (if_neg (by decide)).trans hopen
    have hadded : ∀ e ∈ addedTo file (DataUrl.embed w.options.compress body).json mode,
        e.1 ≠ "path" ∧ (e.1 = "contents" ∨ file.get? e.1 = none) ∧ e.2.isDistinct = true := by
      rw [addedTo]
      refine List.forall_mem_cons.mpr
        ⟨⟨(by decide : "contents" ≠ "path"), .inl rfl, (fits_embedded _).2⟩, fun e he => ?_⟩
      split at he
      · cases he
      · next hmode =>
        cases List.mem_singleton.mp he
        exact ⟨(by decide : "mode" ≠ "path"), .inr (Option.not_isSome_iff_eq_none.mp hmode), rfl⟩
    have hwrites := writes_fill origin hi hfile hp hopen fun e he =>
      ⟨(hadded e he).1, (hadded e he).2.1⟩
    exact ⟨.fill hfile (by rw [hp]; rfl) hopen fun e he => ⟨(hadded e he).1, (hadded e he).2.2⟩,
      .file hr hwrites (get?_addedTo hp mode).1 hwrites.node⟩

/-- **What becomes of a local link.** -/
theorem outcome_addLink (h : Listed d.value) (localPath path target : String) :
    Step d (addLink origin path target d) ∧
      Outcome w origin localPath path d (addLink origin path target d)
        (addLink origin path target d) (.link target) := by
  have hkind : "links" ∈ nodeKinds := by decide
  have hw := linkWritten_addLink origin path target d
  generalize addLink origin path target d = d' at hw ⊢
  cases hw with
  | taken hk hp => exact ⟨.error _ _, .refused (.taken hk hp) rfl⟩
  | new hfree =>
    have hpath : textAt "path" (newLink path target) = some path := rfl
    have hwrites := writes_push origin (h.lists _ hkind) (hfree _ hkind) hpath
    exact ⟨.push hkind hfree hpath rfl, .link hwrites rfl hwrites.node⟩
  | @filled i link hi hn hp hopen =>
    have hunfilled : isFilled "links" link = false := by
      change (link.get? "target").isSome = false
      rw [hopen]
      rfl
    have hadded : ∀ e ∈ [("target", Json.str target)], e.1 ≠ "path" ∧
        (e.1 = "contents" ∨ link.get? e.1 = none) ∧ e.2.isDistinct = true :=
      List.forall_mem_singleton.mpr ⟨(by decide : "target" ≠ "path"), .inr hopen, rfl⟩
    have hwrites := writes_fill origin hi hn hp hunfilled fun e he =>
      ⟨(hadded e he).1, (hadded e he).2.1⟩
    refine ⟨.fill hn (by rw [hp]; rfl) hunfilled fun e he =>
      ⟨(hadded e he).1, (hadded e he).2.2⟩, .link hwrites ?_ hwrites.node⟩
    cases link with
    | obj members => exact Json.lookup_insert _ _ _
    | _ => cases hp

/-- **What becomes of anything below a tree.** -/
theorem outcome_addNode (origin : Trail) (h : Listed d.value) (root destination : String)
    (names : List String) (node : Files.Node) :
    Step d (addNode w origin root destination d (names, node)) ∧
      Outcome w origin (names.foldl Files.join root) (pathBelow destination names) d
        (addNode w origin root destination d (names, node))
        (addNode w origin root destination d (names, node)) node := by
  rw [addNode]
  cases node with
  | file bytes mode => exact outcome_addFile h _ _ bytes mode
  | link target => exact outcome_addLink h _ _ target
  | directory =>
    refine ⟨.error _ _, .refused (.special (fun _ _ h => ?_) fun _ h => ?_) rfl⟩ <;> cases h
  | special =>
    refine ⟨.error _ _, .refused (.special (fun _ _ h => ?_) fun _ h => ?_) rfl⟩ <;> cases h

theorem step_perform (h : Listed d.value) (v : Visit) : Step d (perform w d v) := by
  cases v with
  | unopened trail problem => exact .error trail problem
  | node origin root destination names node => exact (outcome_addNode _ h _ _ _ _).1

/-- **What every step preserves, runs of visits preserve.** -/
theorem preserved_run {P : Draft → Prop}
    (hstep : ∀ d d', Listed d.value → Step d d' → P d → P d') (run : List Visit)
    (h : Listed d.value) (hp : P d) :
    Listed (run.foldl (perform w) d).value ∧ P (run.foldl (perform w) d) := by
  induction run generalizing d with
  | nil => exact ⟨h, hp⟩
  | cons v rest ih =>
    have hv := step_perform (w := w) h v
    exact ih (listed_step h hv) (hstep _ _ h hv hp)

/-- What is written stays when more is visited. -/
theorem Outcome.later {localPath path : String} {node : Files.Node}
    (ho : Outcome w origin localPath path d d' d' node) (h : Listed d'.value) (run : List Visit) :
    Outcome w origin localPath path d d' (run.foldl (perform w) d') node := by
  have hkept : ∀ {kind : String} {i : Nat} {x : Json}, isFilled kind x = true →
      (d'.nodes kind)[i]? = some x → ((run.foldl (perform w) d').nodes kind)[i]? = some x :=
    fun {kind i x} hf hx => (preserved_run (P := fun d => (d.nodes kind)[i]? = some x)
      (fun _ _ hd hs hx => kept_step hd hs hx hf) run h hx).2
  cases ho with
  | file hr hw hc hl => exact .file hr hw hc (hkept (hasContents_of_get? hc) hl)
  | @link target i x hw ht hl =>
    have hf : isFilled "links" x = true := by
      change (x.get? "target").isSome = true
      rw [ht]
      rfl
    exact .link hw ht (hkept hf hl)
  | refused hr h => exact .refused hr h

end Visits

/-! ## All trees -/

/-- What becomes of a document when trees are written into it. -/
structure Expanded (w : Workspace) (trees : List Source.Tree) (start : Trail) (d d' : Draft) :
    Prop where
  run : d' = (visits w trees start).foldl (perform w) d
  distinct : (paths d).Nodup → (paths d').Nodup
  visited : ∀ before after origin root destination names node,
    visits w trees start = before ++ .node origin root destination names node :: after →
      Outcome w origin (names.foldl Files.join root) (pathBelow destination names)
        (before.foldl (perform w) d)
        (perform w (before.foldl (perform w) d) (.node origin root destination names node)) d' node
  covered : d.provenance.missing d.value = [] → d'.provenance.missing d'.value = []

/-- **Nothing below trees is lost**, no two nodes get one path, and everything keeps an origin. -/
theorem expanded_expand {d : Draft} (h : Listed d.value) (w : Workspace)
    (trees : List Source.Tree) (start : Trail) :
    Expanded w trees start d (expand w trees start d) := by
  rw [expand_eq_foldl]
  refine ⟨rfl, fun hn => ?_, fun before after origin root destination names node hv => ?_,
    fun hc => ?_⟩
  · exact (preserved_run (fun _ _ hd hs => nodup_step hd hs) _ h hn).2
  · have hbefore := (preserved_run (w := w) (P := fun _ => True) (fun _ _ _ _ _ => trivial) before h
      trivial).1
    obtain ⟨hstep, houtcome⟩ := outcome_addNode (w := w) origin hbefore root destination
      names node
    rw [hv, List.foldl_append, List.foldl_cons]
    exact houtcome.later (listed_step hbefore hstep) after
  · have hcovers := (Provenance.missing_eq_nil_iff _ _ h.distinct).mp hc
    obtain ⟨hl, hcovers⟩ := preserved_run (w := w)
      (P := fun d => d.provenance.Covers [] d.value) (fun _ _ hd hs => covers_step hd hs)
      (visits w trees start) h hcovers
    exact (Provenance.missing_eq_nil_iff _ _ hl.distinct).mpr hcovers

/-! ## A tree beside a config -/

/-- The directory of a tree: a link, a file and a socket. -/
def treeNode : Files.Node :=
  .directory [("b", .link "a"), ("a", .file [0x78] 0o755), ("c", .special)]

/-- It is in the directory of local files. -/
def treeWorkspace : Workspace where
  files := { root := .directory [("files", .directory [("tree", treeNode)])], current := [] }
  options := { filesDirectory := some "/files" }

/-- What is in it belongs below `/etc`. -/
def etcTree : Source.Tree where
  localPath := "tree"
  path := some "/etc/"

/-- A document that names the file itself. -/
def ownDraft : Draft where
  value := .obj [("storage", .obj [("files", .arr [.obj [("path", .str "/etc/a")]])])]
  provenance := { origins :=
    [([.key "storage"], [.key "storage"]),
      ([.key "storage", .key "files"], [.key "storage", .key "files"])] }

/-- The paths that are looked at lead where they say. -/
theorem realSteps_tree :
    treeWorkspace.files.realSteps true "/files" = .ok ["files"] ∧
      treeWorkspace.files.realSteps true "/files/tree" = .ok ["files", "tree"] ∧
      treeWorkspace.files.realSteps true "/files/tree/a" = .ok ["files", "tree", "a"] := by
  refine ⟨?_, ?_, ?_⟩ <;>
    exact FileSystem.realSteps_names ⟨by decide, by decide, by decide⟩
      (by with_unfolding_all decide) rfl nofun (by with_unfolding_all decide)

theorem opened_tree : opened treeWorkspace etcTree = .ok ("/files/tree", treeNode) := by
  obtain ⟨hfiles, htree, -⟩ := realSteps_tree
  have hbase : Files.absolute (Files.normalize treeWorkspace.files.current "/files") = "/files" ∧
      Files.absolute (Files.normalize treeWorkspace.files.current "/files/tree") =
        "/files/tree" := by
    with_unfolding_all decide
  have habove : Workspace.isAbove (Files.normalize treeWorkspace.files.current "/files")
      (Files.normalize treeWorkspace.files.current "/files/tree") = true := by
    with_unfolding_all decide
  have hwithin : Workspace.isWithin treeWorkspace.files "/files" "/files/tree" = true := by
    rw [Workspace.isWithin, hbase.1, hbase.2, habove, hfiles, htree]
    decide
  have hjoin : Files.join "/files" "tree" = "/files/tree" := by with_unfolding_all decide
  have hresolved : treeWorkspace.resolveLocal "tree" = .ok "/files/tree" := by
    refine (if_pos (?_ : Workspace.isWithin _ "/files" (Files.join "/files" "tree") = true)).trans
      (congrArg _ hjoin)
    rw [hjoin]
    exact hwithin
  have hlocated : treeWorkspace.files.locate "/files/tree" = .ok treeNode := by
    rw [FileSystem.locate, htree]
    rfl
  rw [opened, show etcTree.localPath = "tree" from rfl, hresolved]
  change ((treeWorkspace.files.locate "/files/tree").mapError _ >>= _) = _
  rw [hlocated]
  rfl

theorem read_tree : treeWorkspace.read "/files/tree/a" = .ok [0x78] := by
  rw [Workspace.read, FileSystem.read, FileSystem.locate, realSteps_tree.2.2]
  rfl

/-- The place of the tree in a config. -/
def treeOrigin : Trail := [.key "storage", .key "trees", .index 0]

/-- What becomes of any document when the tree is written into it. -/
theorem expand_etcTree (d : Draft) : expand treeWorkspace [etcTree] [] d =
    (addLink treeOrigin "/etc/b" "a"
      (addFile treeWorkspace treeOrigin "/files/tree/a" "/etc/a" 0o755 d)).error treeOrigin
        .specialFile := by
  have hvisit : visit treeNode =
      [(["a"], .file [0x78] 0o755), (["b"], .link "a"), (["c"], .special)] := by
    have hle : namesLe ["b"] ["a"] = false ∧ namesLe ["a"] ["c"] = true ∧
        namesLe ["b"] ["c"] = true := by decide
    simp [visit, treeNode, below, belowEntries, List.mergeSort,
      List.MergeSort.Internal.splitInTwo, hle]
  have hjoin : Files.join "/files/tree" "a" = "/files/tree/a" := by with_unfolding_all decide
  have hbelow : pathBelow "/etc/" ["a"] = "/etc/a" ∧ pathBelow "/etc/" ["b"] = "/etc/b" := by
    decide
  rw [expand_eq_foldl, visits, List.zipIdx_cons, List.zipIdx_nil, List.flatMap_cons,
    List.flatMap_nil]
  dsimp only
  rw [visitsOf, opened_tree, if_neg (by decide)]
  dsimp only
  rw [hvisit]
  simp only [List.map_cons, List.map_nil, List.append_nil, List.foldl_cons, List.foldl_nil, perform,
    addNode]
  rw [hjoin, ← hbelow.1, ← hbelow.2]
  rfl

theorem etcTree_expanded :
    Listed ownDraft.value ∧
      Expanded treeWorkspace [etcTree] [] ownDraft (expand treeWorkspace [etcTree] [] ownDraft) ∧
      (expand treeWorkspace [etcTree] [] ownDraft).value = .obj [("storage", .obj
        [("files", .arr [.obj [("path", .str "/etc/a"),
            ("contents", .obj [("source", .str "data:,x")]), ("mode", .int 0o755)]]),
          ("links", .arr [.obj [("path", .str "/etc/b"), ("target", .str "a")]])])] := by
  have h : Listed ownDraft.value := by
    refine ⟨rfl, fun kind hk => ⟨⟨_, rfl⟩, fun s hs => ?_, fun s list hs hl => ?_⟩⟩ <;> cases hs
    · exact ⟨_, rfl⟩
    · simp only [nodeKinds, List.mem_cons, List.not_mem_nil, or_false] at hk
      rcases hk with rfl | rfl | rfl <;> cases hl
      exact ⟨_, rfl⟩
  refine ⟨h, expanded_expand h treeWorkspace [etcTree] [], ?_⟩
  rw [expand_etcTree, addFile, read_tree]
  decide +kernel

end Trees

end Provision
