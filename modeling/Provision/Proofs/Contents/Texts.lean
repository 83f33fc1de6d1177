import Provision.Contents
import Provision.Proofs.Decode.Restores
import Provision.Proofs.Json.Node

/-!
# What a resource says its contents are

Two texts of a resource that machines read say what its contents are: a URL, and how what it leads
to is compressed. Either the config says them, or they are made together from contents that are
embedded, unless the config says how these are compressed.

* `Source.Resource.restores`: a resource of the source is read from what is written of it.
* `Contents.Says`: what the texts may be that are made of a resource of the source.
* `Contents.says_ofResource`: they are such texts, if nothing is wrong with the contents.
-/

set_option autoImplicit false

namespace Provision

/-! ## Resources of the source -/

namespace Source

open Decode Decode.Codec Decode.RecordField

theorem Header.restores (h : Header) : Header.codec.Restores h :=
  restores_record (by decide) (.plain (restores_text _) (.plain (restores_option_text _) .nil))

theorem Verification.restores (v : Verification) : Verification.codec.Restores v :=
  restores_record (by decide) (.plain (restores_option_text _) .nil)

/-- **A resource of the source is read from what is written of it.** -/
theorem Resource.restores (r : Resource) : Resource.codec.Restores r :=
  restores_record (by decide)
    (.plain (restores_option_text _) (.plain (restores_list fun h _ => Header.restores h)
      (.plain (restores_option_text _) (.plain (restores_option_text _)
        (.plain (restores_option_text _) (.plain (Verification.restores _) .nil))))))

end Source

/-! ## Texts -/

/-- What contents say: the URL and how what it leads to is compressed. -/
structure Texts where
  source : Option String
  compression : Option String

namespace Texts

/-- The texts are those of a resource that machines read. -/
structure In (t : Texts) (resource : Option Json) : Prop where
  source : resource.bind (·.get? "source") = t.source.map .str
  compression : resource.bind (·.get? "compression") = t.compression.map .str

end Texts

namespace DataUrl.Embedded

/-- The texts for a URL that bytes are embedded in. -/
def texts (e : Embedded) : Texts := ⟨some e.url, if e.isCompressed then some "gzip" else none⟩

theorem texts_json (e : Embedded) : e.texts.In (some e.json) := by
  refine ⟨rfl, ?_⟩
  rw [json, texts]
  cases e.isCompressed <;> rfl

end DataUrl.Embedded

namespace Contents

open Text (Bytes)

/-- What a resource of the source may become: the texts that it has itself, contents that are
compressed as it says, or contents that are embedded. -/
inductive Says (w : Workspace) (origin : Trail) (r : Source.Resource) : Texts → Prop where
  | fetched (h : body? w origin r = none) : Says w origin r ⟨r.source, r.compression⟩
  | pinned {field : String} {body : Bytes} {method : String}
      (h : body? w origin r = some (field, .ok body)) (hm : r.compression = some method)
      (url : String) : Says w origin r ⟨some url, some method⟩
  | embedded {field : String} {body : Bytes} (h : body? w origin r = some (field, .ok body))
      (hm : r.compression = none) : Says w origin r (DataUrl.embed w.options.compress body).texts

variable {w : Workspace} {origin place : Trail} {r : Source.Resource}

theorem lookup_of_names {k : String} {members : List Member}
    (h : ∀ m ∈ members, m.name ≠ k) :
    Json.lookup k (members.map fun m => (m.name, m.value)) = none := by
  refine Json.lookup_eq_none_iff.mpr fun hm => ?_
  rw [List.map_map, List.mem_map] at hm
  obtain ⟨m, hm, rfl⟩ := hm
  exact h m hm rfl

/-- Headers and hashes are no texts of contents. -/
theorem names_rest : ∀ m ∈ headers r ++ verification r,
    m.name ≠ "source" ∧ m.name ≠ "compression" := by
  refine List.forall_mem_append.mpr ⟨?_, ?_⟩
  · rw [headers]
    split
    · exact nofun
    · exact List.forall_mem_singleton.mpr (by simp)
  · rw [verification]
    split
    · exact nofun
    · exact List.forall_mem_singleton.mpr (by simp)

/-- A member of a resource is found before all that does not have its name. -/
theorem get?_assemble {k : String} (members rest : List Member) (h : ∀ m ∈ rest, m.name ≠ k) :
    (assemble origin place (members ++ rest)).value.bind (·.get? k) =
      Json.lookup k (members.map fun m => (m.name, m.value)) := by
  have hlookup : Json.lookup k ((members ++ rest).map fun m => (m.name, m.value)) =
      Json.lookup k (members.map fun m => (m.name, m.value)) := by
    have hrest : List.lookup k (rest.map fun m => (m.name, m.value)) = none := lookup_of_names h
    rw [Json.lookup, List.map_append, List.lookup_append, hrest, Option.or_none]
    rfl
  rw [← hlookup, assemble]
  dsimp only
  split
  · next hempty =>
    rw [List.isEmpty_iff.mp hempty]
    rfl
  · rfl

/-- The texts of a resource are those of its first members. -/
theorem texts_assemble {t : Texts} {members : List Member}
    (h : t.In (some (.obj (members.map fun m => (m.name, m.value))))) :
    t.In (assemble origin place (members ++ (headers r ++ verification r))).value where
  source := by
    rw [get?_assemble members _ fun m hm => (names_rest m hm).1]
    exact h.source
  compression := by
    rw [get?_assemble members _ fun m hm => (names_rest m hm).2]
    exact h.compression

/-- **The texts that are made of a resource are those it may become**, if nothing is wrong with its
contents. -/
theorem says_ofResource (h : (ofResource w origin place r).report.isFatal = false) :
    ∃ t, Says w origin r t ∧ t.In (ofResource w origin place r).value := by
  rw [ofResource] at h ⊢
  split at h
  · next hbody =>
    refine ⟨_, .fetched hbody, texts_assemble ?_⟩
    rw [fetched]
    cases r.source <;> cases r.compression <;> exact ⟨rfl, rfl⟩
  · next field body hbody =>
    rw [embed]
    cases hm : r.compression with
    | none =>
      refine ⟨_, .embedded hbody hm, texts_assemble ?_⟩
      rw [DataUrl.Embedded.texts]
      dsimp only
      cases (DataUrl.embed w.options.compress body).isCompressed <;> exact ⟨rfl, rfl⟩
    | some method =>
      exact ⟨_, .pinned hbody hm _, texts_assemble ⟨rfl, rfl⟩⟩
  · cases h

/-- A resource that has no contents to embed and no URL says nothing about its contents. -/
theorem eq_none_of_body? (h : body? w origin r = none) (hs : r.source = none) :
    r.inline = none ∧ r.localPath = none := by
  rw [body?, hs] at h
  cases hi : r.inline with
  | some text => simp [hi] at h
  | none =>
    cases hl : r.localPath with
    | some path => simp [hi, hl] at h
    | none => exact ⟨rfl, rfl⟩

/-- What is made of a written resource is made of the resource. -/
theorem translate_write : translate w (Source.Resource.codec.write r) origin place =
    ofResource w origin place r := by
  have hread : Source.Resource.codec.ofJson (Source.Resource.codec.write r) = .ok r :=
    r.restores
  rw [translate, hread]

end Contents

end Provision
