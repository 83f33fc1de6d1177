import Provision.Proofs.Draft
import Provision.Variant.Document

/-!
# Stamping sound documents

A document gets the version of its spec, and is read as a config. What is read and written again has
content only where the document had it, so its provenance stays complete.

* `sound_withVersion`, `holds_withVersion`: the document with a version is sound, and keeps its
  leaves.
* `covers_stamp`, `holds_stamp`: the config that is read has origins for all its parts, and the
  leaves of the document.
-/

set_option autoImplicit false

namespace Provision

open Draft (Shaped Sound Holds)

/-- The place of the version of a document. -/
def stampPlace : Trail := [.key "ignition", .key "version"]

section Stamp

variable {known : Trail → Prop} {d : Draft}

theorem withVersion_eq {v : Json} (h : Ignition.Config.shape.Fits v) (version : String) :
    withVersion version v = Json.put (.str version) stampPlace v := by
  obtain ⟨root, rfl⟩ := h.eq_obj
  cases hs : Json.lookup "ignition" root with
  | none =>
    simp only [withVersion, Json.members, hs, Option.getD_none, stampPlace, Json.put, Json.get?]
  | some c =>
    have hc : (Json.obj root).child? (.key "ignition") = some c := hs
    have hsettings : Ignition.Settings.shape.Fits c := h.child_of hc rfl
    obtain ⟨settings, rfl⟩ := hsettings.eq_obj
    simp only [withVersion, Json.members, hs, Option.getD_some, stampPlace, Json.put, Json.get?]

/-- The version is none of the lists of the storage. -/
theorem get?_withVersion {x : Json} (h : Ignition.Config.shape.Fits x) (version : String) :
    (withVersion version x).get? "storage" = x.get? "storage" := by
  obtain ⟨root, rfl⟩ := h.eq_obj
  rw [withVersion]
  split
  · exact Json.lookup_insert_of_ne (by decide) _ _
  · rfl

/-- The origins of a document with a version. -/
def stampOrigins (p : Provenance) : Provenance :=
  Draft.addMissing versionTrail [.key "ignition"] (p.add versionTrail stampPlace)

theorem grows_stamp (h : known versionTrail) (p : Provenance) :
    p.Grows known (fun q => q = stampPlace ∨ p.find? q = none) (stampOrigins p) := by
  have hversion := Provenance.grows_add h p stampPlace
  refine (hversion.mono fun q hq => .inl hq).trans
    ((Provenance.grows_addMissing h _ _).mono fun q hq => ?_)
  by_cases hq' : q = stampPlace
  · exact .inl hq'
  · have hnone := hq.2
    rw [Provenance.find?_add_of_ne hq'] at hnone
    exact .inr hnone

theorem hasRoom_stampPlace (v : Json) : Json.HasRoom stampPlace v := trivial

/-- The document with a version has the right shape. -/
theorem shaped_withVersion (h : Shaped d) (version : String) :
    Shaped ⟨withVersion version d.value, stampOrigins d.provenance, d.report⟩ := by
  rw [withVersion_eq h.fits]
  exact h.put (hasRoom_stampPlace _) (s := .leaf) rfl (Shape.fits_str _) rfl
    (@grows_stamp (fun _ => True) trivial d.provenance) _

/-- **The document with a version is sound.** -/
theorem sound_withVersion (h : Sound known d) (hv : known versionTrail) (version : String) :
    Sound known ⟨withVersion version d.value, stampOrigins d.provenance, d.report⟩ := by
  rw [withVersion_eq h.fits]
  have hmissing := Provenance.grows_addMissing hv (d.provenance.add versionTrail stampPlace)
    [.key "ignition"]
  have hplace : ((stampOrigins d.provenance).find? stampPlace).isSome = true := by
    refine hmissing.isSome _ ?_
    rw [Provenance.find?_add]
    rfl
  refine h.put (hasRoom_stampPlace _) (s := .leaf) rfl (Shape.fits_str _) rfl (grows_stamp hv _)
    ?_ (fun u hu hnil ht => ?_) (fun u hu _ => ?_) _
  · refine (Provenance.covers_iff _ _ _).mpr ⟨fun _ => .inr hplace, fun step y hy => ?_⟩
    simp at hy
  · match u with
    | [] => exact absurd rfl hnil
    | [a] =>
      cases (List.cons_prefix_cons.mp hu).1
      exact Provenance.isSome_addMissing _ _ _
    | a :: b :: u => exact absurd (hu.eq_of_length_le (by simp [stampPlace])) ht
  · exact absurd (List.cons.inj hu).1 (by decide)

/-- A leaf stays when the version is set, if it is none itself. -/
theorem holds_withVersion (h : Shaped d) {source : Trail} {o : Outline} {x : Json}
    (hx : x.isScalar = true) (ho : ¬stampPlace.outline <+: o) (hh : Holds d source o x)
    (version : String) :
    Holds ⟨withVersion version d.value, stampOrigins d.provenance, d.report⟩ source o x := by
  rw [withVersion_eq h.fits]
  refine hh.put h hx (hasRoom_stampPlace _) (s := .leaf) rfl
    (@grows_stamp (fun _ => True) trivial d.provenance) (fun q hq hv hfind => ?_) _
  have ht : ¬stampPlace <+: q := by
    rintro ⟨u, rfl⟩
    rw [Trail.outline_append] at hq
    exact ho (hq ▸ List.prefix_append _ _)
  refine ⟨fun u hu => absurd ⟨u, hu.symm⟩ ht, ?_⟩
  rintro (rfl | hnone)
  · exact ht (List.prefix_refl _)
  · rw [hnone] at hfind
    cases hfind

/-! ## What is read -/

/-- The config that is read from a document with a version is kept. -/
theorem kept_of_stamp (h : Shaped d) {spec : Spec}
    {config : Ignition.Config} (hc : (stamp spec d).value = some config) :
    Decode.Kept (withVersion spec.target.text d.value) (Ignition.Config.codec.write config) := by
  have hs := shaped_withVersion h spec.target.text
  rw [stamp] at hc
  split at hc
  · next hread =>
    cases hc
    have hversion := Json.at?_put (.str spec.target.text) (hasRoom_stampPlace d.value) []
    rw [List.append_nil, ← withVersion_eq h.fits] at hversion
    obtain ⟨z, hz, hzx⟩ := Option.bind_eq_some_iff.mp hversion
    obtain ⟨x, hx, -⟩ := Option.bind_eq_some_iff.mp hzx
    exact Ignition.Config.keepsAt hs.distinct hs.fits hz hx _ hread
  · cases hc

theorem stamp_provenance (spec : Spec) (d : Draft) :
    (stamp spec d).provenance = stampOrigins d.provenance := by
  rw [stamp]
  split <;> rfl

/-- **All parts of the config that is read have origins, which are known.** -/
theorem covers_stamp (h : Sound known d) (hv : known versionTrail) {spec : Spec}
    {config : Ignition.Config} (hc : (stamp spec d).value = some config) :
    (stamp spec d).provenance.Covers [] (Ignition.Config.codec.write config) ∧
      ∀ e ∈ (stamp spec d).provenance.origins, known e.2 := by
  have hs := sound_withVersion h hv spec.target.text
  rw [stamp_provenance]
  refine ⟨fun t y hy hne => ?_, hs.known⟩
  obtain ⟨z, hz, hzne⟩ := (kept_of_stamp h.toShaped hc).backed t y hy hne
  exact hs.covers t z hz hzne

/-- **The config that is read has the leaves of the document**, but for numbers that are zero. -/
theorem holds_stamp (h : Shaped d) {spec : Spec}
    {config : Ignition.Config} (hc : (stamp spec d).value = some config) {source : Trail}
    {o : Outline} {x : Json} (hx : x.isScalar = true) (hne : x.isEmpty = false)
    (ho : ¬stampPlace.outline <+: o) (hnumber : o.getLast? = some (some "number") → x ≠ .int 0)
    (hh : Holds d source o x) :
    Holds ⟨Ignition.Config.codec.write config, (stamp spec d).provenance, []⟩ source o x := by
  obtain ⟨q, hq, hv', hfind⟩ := holds_withVersion h hx ho hh spec.target.text
  refine ⟨q, hq, (kept_of_stamp h hc).leaf q x hv' hx hne ?_, ?_⟩
  · rintro ⟨hlast, hzero⟩
    refine hnumber ?_ hzero
    rw [← hq, Trail.outline, List.getLast?_map, hlast]
    rfl
  · rw [stamp_provenance]
    exact hfind

end Stamp

end Provision
