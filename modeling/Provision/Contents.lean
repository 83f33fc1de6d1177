import Provision.DataUrl
import Provision.Decode.FromJson
import Provision.Provenance
import Provision.Source.Schema
import Provision.Workspace

/-!
# Contents

The contents of a file, or of anything else that can be fetched, are given by a URL, in place or as
a local file. The last two are embedded as data URLs, compressed if that makes them shorter and the
config does not say how they are compressed.

* `translate`: the resource that machines read, with an origin for each part of it.
-/

set_option autoImplicit false

namespace Provision.Contents

open Provision.Text (Bytes)

/-- A member of the resource that is made, and the origins of the parts of its value: for each the
trail from the member and the trail from the source. -/
structure Member where
  name : String
  value : Json
  origins : List (Trail × Trail)

/-- A member with a text that comes from one field. -/
def textMember (name value field : String) : Member :=
  ⟨name, .str value, [([], [.key field])]⟩

/-- What contents are embedded: the field they come from, and the contents or what is wrong. -/
def body? (w : Workspace) (origin : Trail) (r : Source.Resource) :
    Option (String × Except Problem Bytes) :=
  if r.source.isSome then none
  else match r.inline, r.localPath with
    | some text, _ =>
      let name := (origin.key "inline").text
      some ("inline", w.render name (Text.encodeUtf8 text.toList))
    | none, some path => some ("local", w.readLocal path >>= w.render path)
    | none, none => none

/-- The members for contents that come from a field. -/
def embed (w : Workspace) (r : Source.Resource) (field : String) (contents : Bytes) :
    List Member :=
  match r.compression with
  | none =>
    let embedded := DataUrl.embed w.options.compress contents
    (if embedded.isCompressed then [textMember "compression" "gzip" field] else []) ++
      [textMember "source" embedded.url field]
  | some method =>
    let url := if method = "gzip" then DataUrl.compressed contents else DataUrl.plain contents
    [textMember "compression" method "compression", textMember "source" url field]

/-- The members for contents that are fetched, if any. -/
def fetched (r : Source.Resource) : List Member :=
  (r.source.map fun url => textMember "source" url "source").toList ++
    (r.compression.map fun method => textMember "compression" method "compression").toList

/-- A header, and the origins of its parts. -/
def header (position : Nat) (h : Source.Header) : Json × List (Trail × Trail) :=
  let here : Trail := [.index position]
  let source : Trail := [.key "http_headers", .index position]
  (.obj (("name", .str h.name) :: (h.value.map fun v => ("value", Json.str v)).toList),
    [(here, source), (here.key "name", source.key "name")] ++
      (h.value.map fun _ => (here.key "value", source.key "value")).toList)

/-- The member for headers, if there are any. -/
def headers (r : Source.Resource) : List Member :=
  if r.httpHeaders.isEmpty then []
  else
    let entries := r.httpHeaders.zipIdx.map fun (h, i) => header i h
    [⟨"httpHeaders", .arr (entries.map (·.1)),
      ([], [.key "http_headers"]) :: entries.flatMap (·.2)⟩]

/-- The member for a hash, if there is one. -/
def verification (r : Source.Resource) : List Member :=
  match r.verification.hash with
  | none => []
  | some hash =>
    [⟨"verification", .obj [("hash", .str hash)],
      [([], [.key "verification"]),
        ([.key "hash"], [.key "verification", .key "hash"])]⟩]

/-- The resource with some members, and its provenance. Without members there is none. -/
def assemble (origin place : Trail) (members : List Member) : Translated (Option Json) :=
  let parts := members.foldl (fun p m =>
    m.origins.foldl (fun p (part, source) => p.add (origin ++ source) (place.key m.name ++ part)) p)
    ({} : Provenance)
  if members.isEmpty then ⟨none, {}, []⟩
  else ⟨some (.obj (members.map fun m => (m.name, m.value))),
    if place.isEmpty then parts else parts.add origin place, []⟩

/-- The resource for a resource of the source. Contents that cannot be read or rendered are an
error at their field, and there is no resource. -/
def ofResource (w : Workspace) (origin place : Trail) (r : Source.Resource) :
    Translated (Option Json) :=
  let rest := headers r ++ verification r
  match body? w origin r with
  | none => assemble origin place (fetched r ++ rest)
  | some (field, .ok contents) => assemble origin place (embed w r field contents ++ rest)
  | some (field, .error problem) => ⟨none, {}, .sourceError (origin.key field) problem⟩

/-- The resource for the value of a resource of the source. -/
def translate (w : Workspace) (value : Json) (origin place : Trail) : Translated (Option Json) :=
  match Source.Resource.codec.ofJson value with
  | .error failure => ⟨none, {}, .sourceError origin (.undecodable failure)⟩
  | .ok r => ofResource w origin place r

end Provision.Contents
