import Provision.MountUnit
import Provision.Proofs.Draft

/-!
# Units that mount filesystems are sound

The document with the units for filesystems has nothing else, and all of it comes from the
filesystems that ask for them.

* `sound_units`: the document is sound.
-/

set_option autoImplicit false

namespace Provision.MountUnit

open Draft (Sound)

variable {known : Trail → Prop}

/-- A unit for a filesystem, and the field that asks for it. -/
def IsUnit (known : Trail → Prop) (e : Trail × Json) : Prop :=
  known e.1 ∧ Ignition.Unit.shape.Fits e.2 ∧ e.2.isDistinct = true

theorem fits_unit (name contents : String) :
    Ignition.Unit.shape.Fits
      (.obj [("name", .str name), ("enabled", .bool true), ("contents", .str contents)]) := by
  refine Shape.fits_obj fun m hm => ?_
  simp only [List.mem_cons, List.not_mem_nil, or_false] at hm
  rcases hm with rfl | rfl | rfl
  · exact ⟨.leaf, rfl, Shape.fits_str _⟩
  · exact ⟨.leaf, rfl, Shape.fits_bool _⟩
  · exact ⟨.leaf, rfl, Shape.fits_str _⟩

/-- The origins that are recorded for units. -/
def record (p : Provenance) (e : (Trail × Json) × Nat) : Provenance :=
  ((p.addValue e.1.1 [.key "systemd", .key "units", .index e.2] e.1.2).add e.1.1
    [.key "systemd", .key "units"]).add e.1.1 [.key "systemd"]

theorem grows_record {e : (Trail × Json) × Nat} (h : known e.1.1) (p : Provenance) :
    p.Grows known (fun _ => True) (record p e) :=
  (((Provenance.grows_addValue h _ _ _).mono fun _ _ => trivial).trans
    ((Provenance.grows_add h _ _).mono fun _ _ => trivial)).trans
      ((Provenance.grows_add h _ _).mono fun _ _ => trivial)

/-- **A document of units is sound.** -/
theorem sound_of_units {wanted : List (Trail × Json)} (h : ∀ e ∈ wanted, IsUnit known e)
    (hne : wanted ≠ []) (report : Report) :
    Sound known
      ⟨.obj [("systemd", .obj [("units", .arr (wanted.map (·.2)))])],
        wanted.zipIdx.foldl record {}, report⟩ := by
  have hstep : ∀ e ∈ wanted.zipIdx, ∀ p : Provenance,
      p.Grows known (fun _ => True) (record p e) := fun e he p => by
    obtain ⟨x, i⟩ := e
    rw [List.mk_mem_zipIdx_iff_getElem?] at he
    exact grows_record (h x (List.mem_of_getElem? he)).1 p
  have hgrows := Provenance.grows_foldl hstep {}
  obtain ⟨first, hfirst⟩ := List.exists_mem_of_ne_nil wanted hne
  obtain ⟨i, hi⟩ := List.mem_iff_getElem?.mp hfirst
  have hmem := List.mk_mem_zipIdx_iff_getElem?.mpr hi
  refine ⟨⟨?_, ?_, hgrows.sorted List.Pairwise.nil⟩, hgrows.forall_known nofun, ?_, ?_⟩
  · refine Json.isDistinct_obj.mpr ⟨(by decide : ["systemd"].Nodup),
      List.forall_mem_singleton.mpr ?_⟩
    refine Json.isDistinct_obj.mpr ⟨(by decide : ["units"].Nodup),
      List.forall_mem_singleton.mpr ?_⟩
    refine Json.isDistinct_arr.mpr fun v hv => ?_
    obtain ⟨e, he, rfl⟩ := List.mem_map.mp hv
    exact (h e he).2.2
  · refine Shape.fits_obj (List.forall_mem_singleton.mpr ⟨Ignition.Systemd.shape, rfl, ?_⟩)
    refine Shape.fits_obj (List.forall_mem_singleton.mpr ⟨.list Ignition.Unit.shape, rfl, ?_⟩)
    refine Shape.fits_list fun v hv => ?_
    obtain ⟨e, he, rfl⟩ := List.mem_map.mp hv
    exact (h e he).2.1
  · -- The two containers get their origin with any unit, a unit and what is in it with itself.
    intro q v hq hv
    rw [List.nil_append]
    have hone : ∀ (k : String) (x : Json) (t : Trail), (Json.obj [(k, x)]).at? t = some v →
        t = [] ∨ ∃ u, t = .key k :: u ∧ x.at? u = some v := by
      intro k x t ht
      cases t with
      | nil => exact .inl rfl
      | cons step u =>
        obtain ⟨y, hy, hu⟩ := Option.bind_eq_some_iff.mp ht
        cases step with
        | index => cases hy
        | key l =>
          rw [Json.child?_key_obj] at hy
          cases List.mem_singleton.mp (Json.mem_of_lookup hy)
          exact .inr ⟨u, rfl, hu⟩
    rcases hone _ _ _ hq with rfl | ⟨t, rfl, ht⟩
    · exact .inl rfl
    right
    rcases hone _ _ _ ht with rfl | ⟨u, rfl, hu⟩
    · refine Provenance.isSome_foldl hstep hmem (fun p => ?_) _
      rw [record, Provenance.find?_add]
      rfl
    cases u with
    | nil =>
      refine Provenance.isSome_foldl hstep hmem (fun p => ?_) _
      rw [record, Provenance.find?_add_of_ne (by simp), Provenance.find?_add]
      rfl
    | cons step u =>
      obtain ⟨y, hy, hyv⟩ := Option.bind_eq_some_iff.mp hu
      cases step with
      | key => cases hy
      | index j =>
        rw [Json.child?_index_arr, List.getElem?_map] at hy
        obtain ⟨e, he, rfl⟩ := Option.map_eq_some_iff.mp hy
        refine Provenance.isSome_foldl hstep (List.mk_mem_zipIdx_iff_getElem?.mpr he)
          (fun p => ?_) _
        rw [record, Provenance.find?_add_of_ne (by simp), Provenance.find?_add_of_ne (by simp)]
        exact ((Provenance.covers_addValue p e.1 _ e.2) u v hyv hv).resolve_left (by simp)
  · intro q hq hv
    cases q with
    | nil => cases hq
    | cons step q =>
      cases step with
      | index => cases hq
      | key k =>
        cases (List.cons.inj hq).1
        cases hv

/-- **The document with the units for filesystems is sound**, if the fields that ask for them are
known. -/
theorem sound_units {filesystems : List Source.Filesystem} {start : Trail}
    (h : ∀ i, i < filesystems.length →
      known (((start.dotted "storage.filesystems").index i).key "with_mount_unit")) :
    Sound known (units filesystems start) := by
  rw [units]
  dsimp only
  split
  · exact Draft.sound_empty known
  · next hne =>
    refine sound_of_units (fun e he => ?_) (by simpa using hne) []
    obtain ⟨⟨fs, i⟩, hfs, hunit⟩ := List.mem_filterMap.mp he
    obtain ⟨unit, -, rfl⟩ := Option.map_eq_some_iff.mp hunit
    rw [List.mk_mem_zipIdx_iff_getElem?] at hfs
    exact ⟨h i (List.getElem?_eq_some_iff.mp hfs).1, fits_unit _ _, rfl⟩

end Provision.MountUnit
