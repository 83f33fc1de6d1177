import Provision.Merge
import Provision.Proofs.Contents.Texts
import Provision.Proofs.Decode.Gives
import Provision.Proofs.Ignition.Shape

/-!
# The files, volumes and units of a config that was read

Each file of a config that was read from a document comes from a node of its storage: its path and
what its contents say are those of the node. So do volumes with their names and options. The contents
of a unit are a text in the document too.

* `File.ReadFrom`, `Luks.ReadFrom`: a file or a volume has what a node says.
* `Config.file_read`, `Config.volumes_read`: each file and each volume of a config that was read has
  what the node at its position says.
* `Config.contents_read`: so have units their contents.
-/

set_option autoImplicit false

namespace Provision.Ignition

open Decode (Codec)

/-- What the contents of a resource say. -/
def Resource.texts (r : Resource) : Texts := ⟨r.source, r.compression⟩

/-- A file has the path of a node, and its contents say what those of the node say. -/
structure File.ReadFrom (f : File) (node : Json) : Prop where
  path : f.path = (Merge.textAt "path" node).getD ""
  texts : ∀ t : Texts, t.In (node.get? "contents") → f.contents.texts = t

/-- **The contents of a resource say what its value says.** -/
theorem Resource.texts_of_gives {v : Option Json} {r : Resource} (h : Resource.codec.Gives {} v r)
    (hv : Resource.shape.TakesAny v) {t : Texts} (ht : t.In v) : r.texts = t := by
  have hsource : r.source = (v.bind (·.get? "source")).bind Json.text? :=
    h.optional_text (by decide) Resource.independent hv (List.mem_of_getElem? (i := 2) rfl)
  have hcompression : r.compression = (v.bind (·.get? "compression")).bind Json.text? :=
    h.optional_text (by decide) Resource.independent hv (List.mem_of_getElem? (i := 0) rfl)
  have htext : ∀ s : Option String, (s.map Json.str).bind Json.text? = s := fun s => by
    cases s <;> rfl
  rw [ht.source, htext] at hsource
  rw [ht.compression, htext] at hcompression
  rw [Resource.texts, hsource, hcompression]

/-- A file that was read has what its node says. -/
theorem File.readFrom {node : Json} {f : File} (h : File.codec.Gives {} (some node) f)
    (hv : File.shape.Takes node) : f.ReadFrom node := by
  have hany : File.shape.TakesAny (some node) := fun z hz => Option.some.inj hz ▸ hv
  constructor
  · exact (h.sparse (by decide) File.independent hany (List.mem_of_getElem? (i := 0) rfl)).text
  · intro t ht
    exact Resource.texts_of_gives
      (h.sparse (by decide) File.independent hany (List.mem_of_getElem? (i := 4) rfl))
      (hany.member (k := "contents") rfl) ht

/-- A volume has the name and the options of a node. -/
structure Luks.ReadFrom (l : Luks) (node : Json) : Prop where
  name : l.name = (Merge.textAt "name" node).getD ""
  options : ∀ given, node.get? "options" = some (.arr given) → given = l.options.map .str

/-- A volume that was read has what its node says. -/
theorem Luks.readFrom {node : Json} {l : Luks} (h : Luks.codec.Gives {} (some node) l)
    (hv : Luks.shape.Takes node) : l.ReadFrom node := by
  have hany : Luks.shape.TakesAny (some node) := fun z hz => Option.some.inj hz ▸ hv
  constructor
  · exact (h.sparse (by decide) Luks.independent hany (List.mem_of_getElem? (i := 0) rfl)).text
  · intro given hgiven
    have hoptions : (Codec.list .text).Gives [] ((some node).bind (·.get? "options")) l.options :=
      h.sparse (by decide) Luks.independent hany (List.mem_of_getElem? (i := 5) rfl)
    rw [Option.bind_some, hgiven] at hoptions
    exact hoptions.texts

section Config

variable {v : Json} {config : Config}

/-- The storage of a config that was read is given by that of its value. -/
theorem Config.storage_read (hv : Config.shape.Takes v) (h : Config.codec.ofJson v = .ok config) :
    Storage.codec.Gives {} ((some v).bind (·.get? "storage")) config.storage ∧
      Storage.shape.TakesAny ((some v).bind (·.get? "storage")) := by
  have hany : Config.shape.TakesAny (some v) := fun z hz => Option.some.inj hz ▸ hv
  exact ⟨(Codec.Gives.read h rfl).sparse (by decide) Config.independent hany
    (List.mem_of_getElem? (i := 3) rfl), hany.member (k := "storage") rfl⟩

/-- **The volumes of a config that was read** are as many as the nodes, and each has what the node at
its position says. -/
theorem Config.volumes_read (hv : Config.shape.Takes v) (h : Config.codec.ofJson v = .ok config) :
    config.storage.luks.length =
        ((((v.get? "storage").bind (·.get? "luks")).bind Json.items?).getD []).length ∧
      ∀ (i : Nat) (volume : Luks), config.storage.luks[i]? = some volume → ∃ node,
        ((((v.get? "storage").bind (·.get? "luks")).bind Json.items?).getD [])[i]? = some node ∧
          volume.ReadFrom node := by
  obtain ⟨hstorage, hany⟩ := Config.storage_read hv h
  have hluks : (Codec.list Luks.codec).Gives [] _ config.storage.luks :=
    hstorage.sparse (by decide) Storage.independent hany (List.mem_of_getElem? (i := 3) rfl)
  refine ⟨hluks.length, fun i volume hvolume => ?_⟩
  obtain ⟨node, hnode, hgives⟩ := hluks.item {} hvolume
  have htakes := (hany.member (k := "luks") rfl).item hnode
  exact ⟨node, hnode, Luks.readFrom hgives htakes⟩

end Config

/-- **The contents of a unit of a config that was read** are a text of the unit at its position. -/
theorem Config.contents_read {v : Json} {config : Config} (hv : Config.shape.Takes v)
    (h : Config.codec.ofJson v = .ok config) {i : Nat} {u : Unit} {text : String}
    (hu : config.systemd.units[i]? = some u) (htext : u.contents = some text) :
    v.at? [.key "systemd", .key "units", .index i, .key "contents"] = some (.str text) := by
  have hany : Config.shape.TakesAny (some v) := fun z hz => Option.some.inj hz ▸ hv
  have hsystemd : Systemd.codec.Gives {} ((some v).bind (·.get? "systemd")) config.systemd :=
    (Codec.Gives.read h rfl).sparse (by decide) Config.independent hany
      (List.mem_of_getElem? (i := 4) rfl)
  have hsystemdAny := hany.member (k := "systemd") rfl
  have hunits : (Codec.list Unit.codec).Gives [] _ config.systemd.units :=
    hsystemd.sparse (by decide) Systemd.independent hsystemdAny
      (List.mem_of_getElem? (i := 0) rfl)
  obtain ⟨node, hnode, hgives⟩ := hunits.item {} hu
  have htakes := (hsystemdAny.member (k := "units") rfl).item hnode
  have hnodeAny : Unit.shape.TakesAny (some node) := fun z hz => Option.some.inj hz ▸ htakes
  have hcontents : u.contents = ((some node).bind (·.get? "contents")).bind Json.text? :=
    hgives.optional_text (by decide) Unit.independent hnodeAny (List.mem_of_getElem? (i := 3) rfl)
  rw [htext, Option.bind_some] at hcontents
  obtain ⟨x, hx, hxtext⟩ := Option.bind_eq_some_iff.mp hcontents.symm
  obtain rfl : x = .str text := by
    cases x <;> cases hxtext
    rfl
  have hat : v.at? ([Segment.key "systemd", .key "units", .index i] ++ [.key "contents"]) =
      some (.str text) := by
    rw [Json.at?_append, Json.at?_of_items hnode]
    exact @Json.at?_cons_of_child (.key "contents") _ _ hx []
  exact hat

end Provision.Ignition
