import Provision.Contents
import Provision.Proofs.Decode.Keeps
import Provision.Proofs.Ignition.Shape
import Provision.Proofs.Source.Shape
import Provision.Proofs.Translator

/-!
# Where the parts of contents come from

The resource that machines read is made of members, each of which says where the parts of its value
come from. Whatever the contents are, these places are in the resource that people wrote.

* `Member.Good`: all of a member's value has an origin that is known.
* `traced_assemble`: a resource made of such members is traced.
* `traced_contents`: so is the resource that is made of a value.
-/

set_option autoImplicit false

namespace Provision.Contents

open Decode (Codec RecordField)
open Translator (Traced Carries made)

/-- All of the value of a member has an origin, and all origins are known below a place. -/
structure Member.Good (known : Trail → Prop) (origin : Trail) (m : Member) : Prop where
  distinct : m.value.isDistinct = true
  fits : ∃ s, Ignition.Resource.shape.child? (.key m.name) = some s ∧ s.Fits m.value
  covers : ∀ u y, m.value.at? u = some y → ∃ o, (u, o) ∈ m.origins
  known : ∀ e ∈ m.origins, known (origin ++ e.2)

section Assemble

variable {t : Translator} {known plain : Trail → Prop} {origin place : Trail}

/-- Nothing is made where there is no plain leaf and no content to stand for. -/
theorem traced_none {members : List (String × Json)} (hrule : (t.rule? origin).isSome = true)
    (hplain : ∀ u, ¬plain (origin ++ u))
    (report : Report) :
    Traced t known plain Ignition.Resource.shape origin place (.obj members) ⟨none, {}, report⟩ where
  sorted := List.Pairwise.nil
  origins := nofun
  content := nofun
  vacant _ := rfl
  distinct := rfl
  fits := Shape.fits_obj nofun
  covers := Provenance.covers_of_isEmpty _ _ rfl
  carries u _ _ _ _ hp := absurd hp (hplain u)
  returns := Translator.returns_of_rule hrule _ _

/-- **A resource made of members whose values have origins is traced.** -/
theorem traced_assemble {x : List (String × Json)} {members : List Member}
    (hrule : (t.rule? origin).isSome = true) (hplain : ∀ u, ¬plain (origin ++ u)) (hknown : known origin) (hplace : place ≠ [])
    (hnames : (members.map Member.name).Nodup)
    (hgood : ∀ m ∈ members, m.Good known origin) :
    Traced t known plain Ignition.Resource.shape origin place (.obj x)
      (assemble origin place members) := by
  rw [assemble]
  split
  · exact traced_none hrule hplain []
  next hne =>
  have hinner : ∀ m ∈ members, ∀ e ∈ m.origins, ∀ p : Provenance,
      Provenance.Grows known (place <+: ·) p
        (p.add (origin ++ e.2) (place.key m.name ++ e.1)) := fun m hm e he p =>
    (Provenance.grows_add ((hgood m hm).known e he) p _).mono fun q hq => by
      rw [hq]
      exact (Provenance.prefix_key _ _).trans (List.prefix_append _ _)
  have houter : ∀ m ∈ members, ∀ p : Provenance, Provenance.Grows known (place <+: ·) p
      (m.origins.foldl (fun p o => p.add (origin ++ o.2) (place.key m.name ++ o.1)) p) :=
    fun m hm p => Provenance.grows_foldl (hinner m hm) p
  have hparts := Provenance.grows_foldl houter {}
  have hadd : ∀ p : Provenance, Provenance.Grows known (place <+: ·) p (p.add origin place) :=
    fun p => (Provenance.grows_add hknown p place).mono fun q hq =>
      hq ▸ List.prefix_refl place
  have hall := hparts.trans (hadd _)
  have hkeys : ((members.map fun m => (m.name, m.value)).map Prod.fst).Nodup := by
    rwa [List.map_map]
  rw [if_neg (by simpa using hplace)]
  refine ⟨hall.sorted List.Pairwise.nil, fun e he => ?_, ?_,
    fun h => absurd h (Option.some_ne_none _), ?_, ?_, ?_, fun u _ _ _ _ hp => absurd hp (hplain u), Translator.returns_of_rule hrule _ _⟩
  · exact (hall.mem e he).resolve_left List.not_mem_nil
  · rintro v ⟨⟩
    cases members with
    | nil => exact absurd rfl hne
    | cons => rfl
  · refine Json.isDistinct_obj.mpr ⟨hkeys, fun e he => ?_⟩
    obtain ⟨m, hm, rfl⟩ := List.mem_map.mp he
    exact (hgood m hm).distinct
  · refine Shape.fits_obj fun e he => ?_
    obtain ⟨m, hm, rfl⟩ := List.mem_map.mp he
    exact (hgood m hm).fits
  · refine (Provenance.covers_iff _ _ _).mpr ⟨fun _ => .inr ?_, fun step y hy u z hz _ => ?_⟩
    · rw [Provenance.find?_add]
      rfl
    · cases step with
      | index => cases hy
      | key k =>
        obtain ⟨m, hm, he⟩ := List.mem_map.mp (Json.mem_of_lookup hy)
        cases he
        obtain ⟨o, ho⟩ := (hgood m hm).covers u z hz
        refine .inr ((hadd _).isSome _ (Provenance.isSome_foldl houter hm (fun p => ?_) {}))
        refine Provenance.isSome_foldl (hinner m hm) ho (fun p => ?_) p
        rw [← Trail.key, Provenance.find?_add]
        rfl

end Assemble

/-! ## The members -/

section Members

variable {known : Trail → Prop} {origin : Trail}

theorem good_text {name value field : String}
    (hs : Ignition.Resource.shape.child? (.key name) = some .leaf)
    (hknown : known (origin.key field)) : (textMember name value field).Good known origin where
  distinct := rfl
  fits := ⟨.leaf, hs, Shape.fits_str value⟩
  covers u y hy := by
    cases u with
    | nil => exact ⟨_, List.mem_cons_self⟩
    | cons => simp [textMember] at hy
  known e he := by
    cases List.mem_singleton.mp he
    exact hknown

/-- The nodes of an object of texts, numbers and truth values. -/
theorem nodes_of_scalars {members : List (String × Json)} (h : ∀ e ∈ members, e.2.isScalar = true)
    {u : Trail} {y : Json} (hy : (Json.obj members).at? u = some y) :
    u = [] ∨ ∃ e ∈ members, u = [.key e.1] := by
  cases u with
  | nil => exact .inl rfl
  | cons s u =>
    obtain ⟨z, hz, hyz⟩ := Option.bind_eq_some_iff.mp hy
    cases s with
    | index => cases hz
    | key k =>
      have hm := Json.mem_of_lookup hz
      cases u with
      | nil => exact .inr ⟨_, hm, rfl⟩
      | cons s u =>
        rw [Json.at?_cons, Json.child?_of_isScalar (h _ hm)] at hyz
        cases hyz

theorem good_verification {r : Source.Resource} (hknown : known (origin.key "verification"))
    (hhash : known (origin ++ [Segment.key "verification", .key "hash"])) :
    ∀ m ∈ verification r, m.Good known origin := by
  rw [verification]
  split
  · exact List.forall_mem_nil _
  · next hash _ =>
    refine List.forall_mem_singleton.mpr ⟨rfl, ⟨_, rfl, Shape.fits_obj ?_⟩, fun u y hy => ?_, ?_⟩
    · exact List.forall_mem_singleton.mpr ⟨_, rfl, Shape.fits_str hash⟩
    · rcases nodes_of_scalars (by simp [Json.isScalar]) hy with rfl | ⟨e, he, rfl⟩
      · exact ⟨_, List.mem_cons_self⟩
      · cases List.mem_singleton.mp he
        exact ⟨_, List.mem_cons_of_mem _ List.mem_cons_self⟩
    · exact List.forall_mem_cons.mpr ⟨hknown, List.forall_mem_singleton.mpr hhash⟩

/-- A header is covered from its position on. -/
theorem good_header {position : Nat} {h : Source.Header}
    (hknown : known (origin ++ [Segment.key "http_headers", .index position]))
    (hname : known (origin ++ [Segment.key "http_headers", .index position, .key "name"]))
    (hvalue : known (origin ++ [Segment.key "http_headers", .index position, .key "value"])) :
    (header position h).1.isDistinct = true ∧ Ignition.Header.shape.Fits (header position h).1 ∧
      (∀ u y, (header position h).1.at? u = some y →
        ∃ o, (.index position :: u, o) ∈ (header position h).2) ∧
      ∀ e ∈ (header position h).2, known (origin ++ e.2) := by
  obtain ⟨name, value⟩ := h
  cases value with
  | none =>
    refine ⟨rfl, Shape.fits_obj ?_, fun u y hy => ?_, ?_⟩
    · exact List.forall_mem_singleton.mpr ⟨_, rfl, Shape.fits_str name⟩
    · rcases nodes_of_scalars (by simp [Json.isScalar]) hy with rfl | ⟨e, he, rfl⟩
      · exact ⟨_, List.mem_cons_self⟩
      · cases List.mem_singleton.mp he
        exact ⟨_, List.mem_cons_of_mem _ List.mem_cons_self⟩
    · exact List.forall_mem_cons.mpr ⟨hknown, List.forall_mem_singleton.mpr hname⟩
  | some v =>
    refine ⟨rfl, Shape.fits_obj ?_, fun u y hy => ?_, ?_⟩
    · exact List.forall_mem_cons.mpr ⟨⟨_, rfl, Shape.fits_str name⟩,
        List.forall_mem_singleton.mpr ⟨_, rfl, Shape.fits_str v⟩⟩
    · rcases nodes_of_scalars (by simp [Json.isScalar]) hy with rfl | ⟨e, he, rfl⟩
      · exact ⟨_, List.mem_cons_self⟩
      · rcases List.mem_cons.mp he with rfl | he
        · exact ⟨_, List.mem_cons_of_mem _ List.mem_cons_self⟩
        · cases List.mem_singleton.mp he
          exact ⟨_, List.mem_cons_of_mem _ (List.mem_cons_of_mem _ List.mem_cons_self)⟩
    · exact List.forall_mem_cons.mpr ⟨hknown, List.forall_mem_cons.mpr
        ⟨hname, List.forall_mem_singleton.mpr hvalue⟩⟩

theorem good_headers {r : Source.Resource} (hknown : known (origin.key "http_headers"))
    (hitem : ∀ i < r.httpHeaders.length,
      known (origin ++ [Segment.key "http_headers", .index i]) ∧
        known (origin ++ [Segment.key "http_headers", .index i, .key "name"]) ∧
        known (origin ++ [Segment.key "http_headers", .index i, .key "value"])) :
    ∀ m ∈ headers r, m.Good known origin := by
  rw [headers]
  split
  · exact nofun
  refine List.forall_mem_singleton.mpr ?_
  have hgood : ∀ e ∈ r.httpHeaders.zipIdx, e.2 < r.httpHeaders.length := fun e he => by
    have := List.mem_zipIdx he
    omega
  have hheader : ∀ e ∈ r.httpHeaders.zipIdx, _ := fun e he =>
    @good_header known origin e.2 e.1 (hitem e.2 (hgood e he)).1 (hitem e.2 (hgood e he)).2.1
      (hitem e.2 (hgood e he)).2.2
  refine ⟨?_, ⟨_, rfl, Shape.fits_list ?_⟩, ?_, ?_⟩
  · refine Json.isDistinct_arr.mpr fun y hy => ?_
    obtain ⟨e, he, rfl⟩ := List.mem_map.mp hy
    obtain ⟨p, hp, rfl⟩ := List.mem_map.mp he
    exact (hheader p hp).1
  · intro y hy
    obtain ⟨e, he, rfl⟩ := List.mem_map.mp hy
    obtain ⟨p, hp, rfl⟩ := List.mem_map.mp he
    exact (hheader p hp).2.1
  · intro u y hy
    cases u with
    | nil => exact ⟨_, List.mem_cons_self⟩
    | cons s u =>
      obtain ⟨z, hz, hyz⟩ := Option.bind_eq_some_iff.mp hy
      cases s with
      | key => cases hz
      | index i =>
        rw [Json.child?_index_arr, List.getElem?_map, List.getElem?_map, List.getElem?_zipIdx] at hz
        cases hh : r.httpHeaders[i]? with
        | none => rw [hh] at hz; cases hz
        | some h =>
          rw [hh] at hz
          cases hz
          have hmem : (h, i) ∈ r.httpHeaders.zipIdx := by
            refine List.mem_of_getElem? (i := i) ?_
            rw [List.getElem?_zipIdx, hh, Nat.zero_add]
            rfl
          rw [Nat.zero_add] at hyz
          obtain ⟨o, ho⟩ := (hheader _ hmem).2.2.1 u y hyz
          exact ⟨o, List.mem_cons_of_mem _ (List.mem_flatMap.mpr
            ⟨_, List.mem_map_of_mem hmem, ho⟩)⟩
  · refine List.forall_mem_cons.mpr ⟨hknown, fun e he => ?_⟩
    obtain ⟨q, hq, he⟩ := List.mem_flatMap.mp he
    obtain ⟨p, hp, rfl⟩ := List.mem_map.mp hq
    exact (hheader p hp).2.2.2 e he

end Members

/-! ## The resource -/

/-- The headers that are read of a resource are among those that were written. -/
theorem item_of_headers {members : List (String × Json)} {r : Source.Resource}
    (hx : Source.Resource.shape.Full (.obj members))
    (h : Source.Resource.codec.ofJson (.obj members) = .ok r) {i : Nat}
    (hi : i < r.httpHeaders.length) :
    ∃ y, (Json.obj members).at? [Segment.key "http_headers", .index i] = some y ∧
      Source.Header.shape.Full y := by
  have hmem := (Json.isDistinct_obj.mp hx.isDistinct).1
  have hindependent : RecordField.Independent Source.Resource.fields := by
    simp only [Source.Resource.fields, RecordField.Independent, RecordField.Apart, and_true]
    and_intros <;> refine RecordField.leaves_of_read (fun _ _ _ _ => rfl) ?_ <;> exact fun _ _ => rfl
  -- The second field holds the headers.
  have hfield := Codec.record_read (by decide) hindependent h
    (List.mem_cons_of_mem _ List.mem_cons_self)
  obtain ⟨z, hz⟩ := @Shape.Full.key _ _ hx "http_headers" (by decide)
  have hzm := Json.mem_of_lookup hz
  obtain ⟨s, hs, hfull⟩ := hx.child hz
  cases hs
  rcases hfield with ⟨z', r₁, r₂, hz', hread, hw⟩ | ⟨hnone, -⟩
  · cases ((Json.lookup_eq_some_iff hmem).mpr hz').symm.trans hz
    obtain ⟨headers, hheaders, rfl⟩ := RecordField.read_plain hread
    cases hfull with
    | @list s items hitems =>
      have hlength : r.httpHeaders.length = headers.length := by
        have := congrArg (fun w : Option Json => (w.bind Json.items?).map List.length) hw
        simpa [RecordField.plain, Codec.list, Json.items?] using this
      rcases Codec.list_read hheaders i with ⟨-, hn⟩ | ⟨y, -, hy, -, -⟩
      · rw [List.getElem?_eq_none_iff] at hn
        omega
      · refine ⟨y, ?_, hitems y (List.mem_of_getElem? hy)⟩
        rw [Json.at?_cons_of_child hz]
        exact @Json.at?_cons_of_child (.index i) (.arr items) y hy []
  · exact absurd hzm (hnone z)

section Fields

variable {known : Trail → Prop} {origin : Trail} {r : Source.Resource}

/-- The fields of a resource. -/
def fieldNames : List String := Source.Resource.fields.map (·.name)

theorem good_fetched (h : ∀ k ∈ fieldNames, known (origin.key k)) :
    ∀ m ∈ fetched r, m.Good known origin := by
  intro m hm
  rcases List.mem_append.mp hm with hm | hm
  · rw [Option.mem_toList, Option.map_eq_some_iff] at hm
    obtain ⟨url, -, rfl⟩ := hm
    exact good_text rfl (h _ (by decide))
  · rw [Option.mem_toList, Option.map_eq_some_iff] at hm
    obtain ⟨method, -, rfl⟩ := hm
    exact good_text rfl (h _ (by decide))

theorem good_embed (h : ∀ k ∈ fieldNames, known (origin.key k)) {field : String}
    (hfield : field ∈ fieldNames) {w : Workspace} {contents : Text.Bytes} :
    ∀ m ∈ embed w r field contents, m.Good known origin := by
  rw [embed]
  split
  · refine List.forall_mem_append.mpr ⟨?_, List.forall_mem_singleton.mpr (good_text rfl (h _ hfield))⟩
    split
    · exact List.forall_mem_singleton.mpr (good_text rfl (h _ hfield))
    · exact List.forall_mem_nil _
  · exact List.forall_mem_cons.mpr ⟨good_text rfl (h _ (by decide)),
      List.forall_mem_singleton.mpr (good_text rfl (h _ hfield))⟩

theorem field_of_body {w : Workspace} {field : String} {contents : Except Problem Text.Bytes}
    (h : body? w origin r = some (field, contents)) : field ∈ fieldNames := by
  rw [body?] at h
  split at h
  · cases h
  · split at h
    · cases h; decide
    · cases h; decide
    · cases h

theorem names_fetched :
    ((fetched r).map Member.name).Sublist ["source", "compression"] := by
  rw [fetched, List.map_append]
  refine @List.Sublist.append _ _ ["source"] _ ["compression"] ?_ ?_
  · cases r.source with
    | none => exact List.nil_sublist _
    | some => exact .refl _
  · cases r.compression with
    | none => exact List.nil_sublist _
    | some => exact .refl _

theorem names_embed {w : Workspace} {field : String} {contents : Text.Bytes} :
    ((embed w r field contents).map Member.name).Sublist ["compression", "source"] := by
  rw [embed]
  split
  · rw [List.map_append]
    refine @List.Sublist.append _ _ ["compression"] _ ["source"] ?_ (.refl _)
    split
    · exact .refl _
    · exact List.nil_sublist _
  · exact .refl _

/-- The names of the members of a resource. -/
theorem names_members {members : List Member} {names : List String}
    (h : (members.map Member.name).Sublist names) :
    ((members ++ (headers r ++ verification r)).map Member.name).Sublist
      (names ++ ["httpHeaders", "verification"]) := by
  rw [List.map_append, List.map_append]
  refine h.append (@List.Sublist.append _ _ ["httpHeaders"] _ ["verification"] ?_ ?_)
  · rw [headers]
    split
    · exact List.nil_sublist _
    · exact .refl _
  · rw [verification]
    split
    · exact List.nil_sublist _
    · exact .refl _

/-- The members of a resource have different names. -/
theorem nodup_names {members : List Member} {names : List String}
    (h : (members.map Member.name).Sublist names)
    (hn : (names ++ ["httpHeaders", "verification"]).Nodup) :
    ((members ++ (headers r ++ verification r)).map Member.name).Nodup :=
  hn.sublist (names_members h)

end Fields

section Resource

variable {t : Translator} {known plain : Trail → Prop} {origin place : Trail}

/-- **The resource that is made of a value is traced.** -/
theorem traced_contents (w : Workspace) {x : Json} (hrule : (t.rule? origin).isSome = true)
    (hx : Source.Resource.shape.Full x)
    (hplain : ∀ u, ¬plain (origin ++ u))
    (hknown : ∀ u, (x.at? u).isSome = true → known (origin ++ u)) (hplace : place ≠ []) :
    Traced t known plain Ignition.Resource.shape origin place x (translate w x origin place) := by
  obtain ⟨members, rfl⟩ : ∃ members, x = .obj members := hx.fits.eq_obj
  have hroot : known origin := by
    have := hknown [] rfl
    rwa [List.append_nil] at this
  have hkey : ∀ k ∈ fieldNames, known (origin.key k) := fun k hk => by
    obtain ⟨y, hy⟩ := hx.key hk
    exact hknown [.key k] (by rw [Json.at?_cons_of_child hy]; rfl)
  rw [translate]
  cases h : Source.Resource.codec.ofJson (.obj members) with
  | error failure => exact traced_none hrule hplain _
  | ok r =>
    have hrest : ∀ m ∈ headers r ++ verification r, m.Good known origin := by
      refine List.forall_mem_append.mpr ⟨good_headers (hkey _ (by decide)) fun i hi => ?_,
        good_verification (hkey _ (by decide)) ?_⟩
      · obtain ⟨y, hy, hfull⟩ := item_of_headers hx h hi
        obtain ⟨name, hname⟩ := @Shape.Full.key _ _ hfull "name" (by decide)
        obtain ⟨value, hvalue⟩ := @Shape.Full.key _ _ hfull "value" (by decide)
        have below : ∀ k z, y.child? (.key k) = some z →
            known (origin ++ [Segment.key "http_headers", .index i, .key k]) := fun k z hz => by
          refine hknown _ ?_
          change ((Json.obj members).at?
            ([Segment.key "http_headers", .index i] ++ [.key k])).isSome = true
          rw [Json.at?_append, hy, Option.bind_some, Json.at?_cons_of_child hz]
          rfl
        exact ⟨hknown _ (by rw [hy]; rfl), below _ _ hname, below _ _ hvalue⟩
      · obtain ⟨y, hy⟩ := @Shape.Full.key _ _ hx "verification" (by decide)
        obtain ⟨s, hs, hfull⟩ := hx.child hy
        cases hs
        obtain ⟨z, hz⟩ := @Shape.Full.key _ _ hfull "hash" (by decide)
        refine hknown _ ?_
        rw [Json.at?_cons_of_child hy, Json.at?_cons_of_child hz]
        rfl
    change Traced t known plain _ origin place _ (ofResource w origin place r)
    rw [ofResource]
    split
    · refine traced_assemble hrule hplain hroot hplace (nodup_names names_fetched (by decide)) ?_
      exact List.forall_mem_append.mpr ⟨good_fetched hkey, hrest⟩
    · next field contents hbody =>
      refine traced_assemble hrule hplain hroot hplace (nodup_names names_embed (by decide)) ?_
      exact List.forall_mem_append.mpr ⟨good_embed hkey (field_of_body hbody), hrest⟩
    · exact traced_none hrule hplain _

end Resource

end Provision.Contents
