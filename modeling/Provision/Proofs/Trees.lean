import Provision.Proofs.Draft
import Provision.Trees

/-!
# Trees let documents grow

Writing a tree appends files and links, and fills in those that are there. Nothing that the config
says itself is changed by it.

* `fileWritten_addFile`, `linkWritten_addLink`: what becomes of a document when a file or a link is
  written.
* `grown_addFile`, `grown_addLink`: it grows.
* `grown_expand`: a document grows when trees are written into it.
-/

set_option autoImplicit false

namespace Provision

namespace Trees

open Draft (Shaped Grown)
open Merge (textAt)
open Text (Bytes)

/-! ## Writing a node -/

/-- The kinds of nodes with paths. -/
def nodeKinds : List String := ["files", "directories", "links"]

/-- The members that a file gets, with a mode if it has none. -/
def addedTo (file source : Json) (mode : Nat) : List (String × Json) :=
  ("contents", source) ::
    (if (file.get? "mode").isSome then [] else [("mode", Json.int (modeFor mode))])

/-- The file that is appended for a local file. -/
def newFile (path : String) (e : DataUrl.Embedded) (mode : Json) : Json :=
  .obj [("path", .str path), ("contents", e.json), ("mode", mode)]

/-- The link that is appended for a local link. -/
def newLink (path target : String) : Json := .obj [("path", .str path), ("target", .str target)]

/-- Fills in a node, with origins for what it gets. -/
def fill (d : Draft) (origin : Trail) (kind : String) (i : Nat) (added : List (String × Json)) :
    Draft :=
  { d.modifyNode kind i (Json.setMembers added) with
    provenance := added.foldl
      (fun p e => p.addValue origin (Trail.key [.key "storage", .key kind, .index i] e.1) e.2)
      d.provenance }

section Written

variable {w : Workspace} {origin : Trail} {localPath path target : String} {mode : Nat} {d : Draft}

/-- What may become of a document when a local file is written. -/
inductive FileWritten (w : Workspace) (origin : Trail) (localPath path : String) (mode : Nat)
    (d : Draft) : Draft → Prop where
  | taken {kind : String} (hk : kind ∈ nodeKinds) (hp : (d.position? kind path).isSome = true) :
      FileWritten w origin localPath path mode d (d.error origin .nodeExists)
  | unread {problem : Problem} (hr : w.read localPath >>= w.render localPath = .error problem) :
      FileWritten w origin localPath path mode d (d.error (origin.key "local") problem)
  | new {body : Bytes} (hr : w.read localPath >>= w.render localPath = .ok body)
      (hfree : ∀ kind ∈ nodeKinds, d.position? kind path = none) :
      FileWritten w origin localPath path mode d (d.push origin "files"
        (newFile path (DataUrl.embed w.options.compress body) (.int (modeFor mode))))
  | filled {body : Bytes} {before after : List Json} {file : Json}
      (hr : w.read localPath >>= w.render localPath = .ok body)
      (hi : d.position? "files" path = some before.length)
      (hnodes : d.nodes "files" = before ++ file :: after)
      (hbefore : ∀ x ∈ before, textAt "path" x ≠ some path) (hp : textAt "path" file = some path)
      (hopen : hasContents file = false) :
      FileWritten w origin localPath path mode d (fill d origin "files" before.length
        (addedTo file (DataUrl.embed w.options.compress body).json mode))

/-- **Writing a local file is an error, or appends a file, or fills one in** that has no
contents. -/
theorem fileWritten_addFile (w : Workspace) (origin : Trail) (localPath path : String) (mode : Nat)
    (d : Draft) :
    FileWritten w origin localPath path mode d (addFile w origin localPath path mode d) := by
  rw [addFile]
  dsimp only
  split
  · next htaken =>
    rw [Bool.or_eq_true, Bool.or_eq_true] at htaken
    rcases htaken with (hd | hl) | hf
    · exact .taken (by decide) hd
    · exact .taken (by decide) hl
    · obtain ⟨i, hi, -⟩ := (Option.any_eq_true _ _).mp hf
      exact .taken List.mem_cons_self (by rw [hi]; rfl)
  next hfree =>
  rw [Bool.or_eq_true, Bool.or_eq_true, not_or, not_or] at hfree
  obtain ⟨⟨hd, hl⟩, hf⟩ := hfree
  split
  · next problem hread => exact .unread hread
  next body hread =>
  split
  · next hnone =>
    refine .new hread ?_
    simp only [nodeKinds, List.forall_mem_cons]
    exact ⟨hnone, Option.not_isSome_iff_eq_none.mp hd, Option.not_isSome_iff_eq_none.mp hl, nofun⟩
  · next i hi =>
    obtain ⟨before, file, after, hnodes, rfl, hbefore, hpath⟩ := Draft.position?_eq_some hi
    have hfile : (d.nodes "files")[before.length]? = some file := by simp [hnodes]
    rw [hfile]
    exact .filled hread hi hnodes hbefore hpath (by simpa [hi, hfile] using hf)

/-- What may become of a document when a local link is written. -/
inductive LinkWritten (origin : Trail) (path target : String) (d : Draft) : Draft → Prop where
  | taken {kind : String} (hk : kind ∈ nodeKinds) (hp : (d.position? kind path).isSome = true) :
      LinkWritten origin path target d (d.error origin .nodeExists)
  | new (hfree : ∀ kind ∈ nodeKinds, d.position? kind path = none) :
      LinkWritten origin path target d (d.push origin "links" (newLink path target))
  | filled {i : Nat} {link : Json} (hi : d.position? "links" path = some i)
      (hn : (d.nodes "links")[i]? = some link) (hp : textAt "path" link = some path)
      (hopen : link.get? "target" = none) :
      LinkWritten origin path target d (fill d origin "links" i [("target", .str target)])

/-- **Writing a local link is an error, or appends a link, or fills one in** that has no target. -/
theorem linkWritten_addLink (origin : Trail) (path target : String) (d : Draft) :
    LinkWritten origin path target d (addLink origin path target d) := by
  rw [addLink]
  split
  · next htaken =>
    rcases (Bool.or_eq_true _ _).mp htaken with hf | hd
    · exact .taken List.mem_cons_self hf
    · exact .taken (by decide) hd
  next hfree =>
  rw [Bool.or_eq_true, not_or] at hfree
  obtain ⟨hf, hd⟩ := hfree
  split
  · next hnone =>
    refine .new ?_
    simp only [nodeKinds, List.forall_mem_cons]
    exact ⟨Option.not_isSome_iff_eq_none.mp hf, Option.not_isSome_iff_eq_none.mp hd, hnone, nofun⟩
  · next i hi =>
    obtain ⟨before, link, after, hnodes, rfl, -, hpath⟩ := Draft.position?_eq_some hi
    have hlink : (d.nodes "links")[before.length]? = some link := by simp [hnodes]
    rw [hlink, Option.getD_some]
    dsimp only
    have hkind : "links" ∈ nodeKinds := by decide
    split
    · exact .taken hkind (by rw [hi]; rfl)
    · next htarget =>
      exact .filled hi hlink hpath (Option.not_isSome_iff_eq_none.mp htarget)

end Written

section Trees

variable {known : Trail → Prop} {d : Draft} {origin : Trail}

/-- What contents are embedded as has the shape of contents. -/
theorem fits_embedded (e : DataUrl.Embedded) :
    Ignition.Resource.shape.Fits e.json ∧ e.json.isDistinct = true := by
  rw [DataUrl.Embedded.json]
  split
  · refine ⟨Shape.fits_obj fun m hm => ?_, by rfl⟩
    simp only [List.mem_cons, List.not_mem_nil, or_false] at hm
    rcases hm with rfl | rfl
    · exact ⟨.leaf, rfl, Shape.fits_str _⟩
    · exact ⟨.leaf, rfl, Shape.fits_str _⟩
  · refine ⟨Shape.fits_obj fun m hm => ?_, by rfl⟩
    cases List.mem_singleton.mp hm
    exact ⟨.leaf, rfl, Shape.fits_str _⟩

/-! ## Files -/

/-- A file that is there gets contents, and a mode if it has none. -/
theorem grown_fill (h : Shaped d) (ho : known origin) {i : Nat} {c source : Json} {mode : Nat}
    (hc : (d.nodes "files")[i]? = some c) (hne : c.isEmpty = false)
    (hsource : Ignition.Resource.shape.Fits source) (hds : source.isDistinct = true) :
    Grown known d (fill d origin "files" i (addedTo c source mode)) := by
  have hat := Draft.at?_of_nodes hc
  obtain ⟨members, rfl⟩ := (h.fits.at_of hat
    (Draft.shape_of_kind (s := Ignition.File.shape) rfl i)).eq_obj
  have hcontents : Grown known d
      ⟨Json.put source [.key "storage", .key "files", .index i, .key "contents"] d.value,
        d.provenance.addValue origin [.key "storage", .key "files", .index i, .key "contents"]
          source, d.report⟩ :=
    Grown.refl.member (q := [.key "storage", .key "files", .index i]) ho hat hne (Nat.le_refl _) rfl
      hsource hds (.inl rfl) _
  have hfill : d.modifyNode "files" i (Json.setMembers [("contents", source)]) =
      ⟨Json.put source [.key "storage", .key "files", .index i, .key "contents"] d.value,
        d.provenance, d.report⟩ :=
    @Draft.modifyNode_eq d "files" i _ h.distinct hat _ [.key "contents"] source rfl
  by_cases hm : ((Json.obj members).get? "mode").isSome = true
  · rw [fill, addedTo, if_pos hm, hfill]
    exact hcontents
  · -- The mode is set in the file that has contents already.
    have hnone : (Json.put source [.key "contents"] (.obj members)).get? "mode" = none := by
      rw [Json.put]
      exact (Json.lookup_insert_of_ne (by decide) _ _).trans
        (Option.not_isSome_iff_eq_none.mp hm)
    have hfull : d.modifyNode "files" i
          (Json.setMembers [("contents", source), ("mode", .int (modeFor mode))]) =
        (d.modifyNode "files" i (Json.setMembers [("contents", source)])).modifyNode "files" i
          (Json.setMembers [("mode", .int (modeFor mode))]) := by
      rw [Draft.modifyNode_modifyNode]
      congr 1
      funext x
      cases x <;> rfl
    have hat' : (Json.put source [.key "storage", .key "files", .index i, .key "contents"]
        d.value).at? [.key "storage", .key "files", .index i] =
          some (Json.put source [.key "contents"] (.obj members)) := by
      change (Json.put source ([.key "storage", .key "files", .index i] ++ [.key "contents"])
        d.value).at? _ = _
      rw [← Json.put_append hat]
      have hput := Json.at?_put (Json.put source [.key "contents"] (.obj members))
        (Json.hasRoom_of_at (by rw [hat]; rfl)) []
      rwa [List.append_nil] at hput
    have hmodeFill := @Draft.modifyNode_eq
      ⟨Json.put source [.key "storage", .key "files", .index i, .key "contents"] d.value,
        d.provenance, d.report⟩ "files" i _ (hcontents.shaped h).distinct hat'
      (Json.setMembers [("mode", .int (modeFor mode))]) [.key "mode"] (.int (modeFor mode)) rfl
    rw [fill, addedTo, if_neg hm, hfull, hfill, hmodeFill]
    exact hcontents.member (q := [.key "storage", .key "files", .index i]) ho hat'
      (Json.isEmpty_put_cons _ _ _ _) (Nat.le_refl _) rfl (Shape.fits_int _) rfl (.inr hnone) _

theorem grown_addFile (w : Workspace) (h : Shaped d) (ho : known origin)
    (localPath path : String) (mode : Nat) :
    Grown known d (addFile w origin localPath path mode d) := by
  have hw := fileWritten_addFile w origin localPath path mode d
  generalize addFile w origin localPath path mode d = d' at hw ⊢
  cases hw with
  | taken => exact Grown.refl.report _
  | unread => exact Grown.refl.report _
  | @new body hr hfree =>
    obtain ⟨hsource, hds⟩ := fits_embedded (DataUrl.embed w.options.compress body)
    refine Grown.refl.push ho (s := Ignition.File.shape) rfl (Shape.fits_obj fun m hm => ?_)
      (Json.isDistinct_obj.mpr
        ⟨(by decide : ["path", "contents", "mode"].Nodup), fun m hm => ?_⟩) rfl
    · simp only [List.mem_cons, List.not_mem_nil, or_false] at hm
      rcases hm with rfl | rfl | rfl
      · exact ⟨.leaf, rfl, Shape.fits_str _⟩
      · exact ⟨_, rfl, hsource⟩
      · exact ⟨.leaf, rfl, Shape.fits_int _⟩
    · simp only [List.mem_cons, List.not_mem_nil, or_false] at hm
      rcases hm with rfl | rfl | rfl
      · rfl
      · exact hds
      · rfl
  | @filled body before after file hr hi hnodes =>
    obtain ⟨hsource, hds⟩ := fits_embedded (DataUrl.embed w.options.compress body)
    obtain ⟨c, hc, hne⟩ := Draft.node_of_position hi
    have hfile : (d.nodes "files")[before.length]? = some file := by simp [hnodes]
    cases hfile.symm.trans hc
    exact grown_fill h ho hfile hne hsource hds

/-! ## Links -/

theorem grown_addLink (h : Shaped d) (ho : known origin) (path target : String) :
    Grown known d (addLink origin path target d) := by
  have hw := linkWritten_addLink origin path target d
  generalize addLink origin path target d = d' at hw ⊢
  cases hw with
  | taken => exact Grown.refl.report _
  | new hfree =>
    refine Grown.refl.push ho (s := Ignition.Link.shape) rfl (Shape.fits_obj fun m hm => ?_)
      (Json.isDistinct_obj.mpr ⟨(by decide : ["path", "target"].Nodup), fun m hm => ?_⟩) rfl
    · simp only [List.mem_cons, List.not_mem_nil, or_false] at hm
      rcases hm with rfl | rfl
      · exact ⟨.leaf, rfl, Shape.fits_str _⟩
      · exact ⟨.leaf, rfl, Shape.fits_str _⟩
    · simp only [List.mem_cons, List.not_mem_nil, or_false] at hm
      rcases hm with rfl | rfl <;> rfl
  | @filled i link hi hn hp hopen =>
    have hat := Draft.at?_of_nodes hn
    obtain ⟨c, hc, hne⟩ := Draft.node_of_position hi
    cases hn.symm.trans hc
    obtain ⟨members, rfl⟩ := (h.fits.at_of hat
      (Draft.shape_of_kind (s := Ignition.Link.shape) rfl i)).eq_obj
    rw [fill, @Draft.modifyNode_eq d "links" i _ h.distinct hat
      (Json.setMembers [("target", .str target)]) [.key "target"] (.str target) rfl]
    exact Grown.refl.member (q := [.key "storage", .key "links", .index i]) ho hat hne
      (Nat.le_refl _) rfl (Shape.fits_str target) rfl (.inr hopen) _

/-! ## Trees -/

theorem grown_addNode (w : Workspace) (h : Shaped d) (ho : known origin)
    (root destination : String) (entry : List String × Files.Node) :
    Grown known d (addNode w origin root destination d entry) := by
  rw [addNode]
  split
  · exact grown_addFile w h ho _ _ _
  · exact grown_addLink h ho _ _
  · exact Grown.refl.report _

theorem grown_addTree (w : Workspace) (h : Shaped d) (tree : Source.Tree)
    (ho : known origin) : Grown known d (addTree w d tree origin) := by
  rw [addTree]
  split
  · exact .refl
  · dsimp only
    split
    · exact Grown.refl.report _
    · exact Draft.grown_foldl (fun e _ d hd => grown_addNode w hd ho _ _ e) h

/-- **A document grows when trees are written into it.** -/
theorem grown_expand (w : Workspace) (h : Shaped d) (trees : List Source.Tree)
    (start : Trail)
    (ho : ∀ i, i < trees.length → known (((start.key "storage").key "trees").index i)) :
    Grown known d (expand w trees start d) := by
  rw [expand]
  refine Draft.grown_foldl (fun e he d hd => grown_addTree w hd e.1 (ho e.2 ?_)) h
  obtain ⟨x, i⟩ := e
  rw [List.mk_mem_zipIdx_iff_getElem?] at he
  exact (List.getElem?_eq_some_iff.mp he).1

end Trees

end Trees

end Provision
