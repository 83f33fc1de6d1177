import Provision.Proofs.Fips.Settled

/-!
# Origins of documents with ciphers

The options that are chosen get origins, and so does their list if there was nothing in it before.
The volume gets none. So a document of which all parts have origins still has them when ciphers are
chosen, unless one of its volumes had nothing in it and so needed no origin until then.

* `grows_chooseForAll`, `covers_chooseForAll`: the origins that are recorded for all volumes.
* `mem_missing_choose`: what has no origin when ciphers are chosen, and `bareVolume_uncovered`, a
  document that has such a part.
-/

set_option autoImplicit false

namespace Provision.Fips

section Volumes

variable {document volume : Json} {given volumes : List Json} {origin list : Trail}
  {p : Provenance}

/-- Only options of volumes get origins. -/
theorem grows_chooseForAll (origin list : Trail) (position : Nat) (volumes : List Json)
    (p : Provenance) :
    p.Grows (· = origin) (fun q => ∃ i, (list.index i).key "options" <+: q)
      (chooseForAll origin list position volumes p).2 := by
  induction volumes generalizing position p with
  | nil => exact .refl _ _ _
  | cons volume rest ih =>
    rw [chooseForAll]
    refine Provenance.Grows.trans ?_ (ih _ _)
    by_cases h : ∃ given, Undecided volume given
    · obtain ⟨given, h⟩ := h
      rw [chooseFor_of_undecided h]
      refine (@grows_record (· = origin) origin rfl _ given p).mono fun q hq => ⟨position, ?_⟩
      rcases hq with ⟨rfl, -⟩ | ⟨i, -, rfl⟩
      · exact List.prefix_refl _
      · exact Provenance.prefix_index _ i
    · rw [chooseFor_of_decided (not_exists.mp h)]
      exact .refl _ _ _

/-- **The options of a volume that gets a cipher all have origins** if those that it had have. -/
theorem covers_chooseForAll (origin : Trail) (position : Nat) {i : Nat}
    (hi : volumes[i]? = some volume) (h : Undecided volume given)
    (hc : p.Covers ((list.index (position + i)).key "options") (.arr given)) :
    (chooseForAll origin list position volumes p).2.Covers
      ((list.index (position + i)).key "options") (.arr (given ++ choice)) := by
  induction volumes generalizing position i p with
  | nil => cases hi
  | cons v rest ih =>
    rw [chooseForAll]
    cases i with
    | zero =>
      cases hi
      rw [chooseFor_of_undecided h]
      exact (grows_chooseForAll _ _ (position + 1) rest _).covers (covers_record hc)
    | succ i =>
      have hone := grows_chooseForAll origin list position [v] p
      rw [show position + (i + 1) = position + 1 + i by omega] at hc ⊢
      exact ih (position + 1) hi (hone.covers hc)

/-- The document leads to the volumes. -/
theorem at?_volume (h : document.at? volumesPlace = some (.arr volumes)) (i : Nat) (u : Trail) :
    document.at? (volumesPlace.index i ++ u) = volumes[i]?.bind (Json.at? u) := by
  rw [Trail.index, List.append_assoc, Json.at?_append, h]
  rfl

/-- The part of a volume with a cipher that is at a trail: it was there before, it is the volume
itself, of which nothing was there before, or it is one of its options. -/
theorem Decided.at_cases {volume' y : Json} {u : Trail} (h : Decided volume volume')
    (hy : volume'.at? u = some y) (hne : y.isEmpty = false) :
    (∃ z, volume.at? u = some z ∧ z.isEmpty = false) ∨ (u = [] ∧ volume = .obj []) ∨
      ∃ given w, Undecided volume given ∧ u = .key "options" :: w ∧
        (Json.arr (given ++ choice)).at? w = some y := by
  cases h with
  | kept => exact .inl ⟨y, hy, hne⟩
  | @added given h =>
    have hroom : Json.HasRoom [.key "options"] volume := trivial
    by_cases hp : [Segment.key "options"] <+: u
    · obtain ⟨w, rfl⟩ := hp
      rw [Json.at?_put _ hroom] at hy
      exact .inr (.inr ⟨given, w, h, rfl, hy⟩)
    · rcases Json.at?_of_put hroom hy hp with hold | hpre
      · exact .inl ⟨y, hold, hne⟩
      · have hu : u = [] := by
          rcases List.prefix_cons_iff.mp hpre with hu | ⟨w, rfl, -⟩
          · exact hu
          · exact absurd (List.cons_prefix_cons.mpr ⟨rfl, List.nil_prefix⟩) hp
        subst hu
        cases hempty : volume.isEmpty with
        | false => exact .inl ⟨volume, rfl, hempty⟩
        | true =>
          have hobject := h.isObject
          cases volume with
          | obj members => exact .inr (.inl ⟨rfl, congrArg Json.obj (List.isEmpty_iff.mp hempty)⟩)
          | _ => cases hobject

/-- Ciphers leave keys distinct. -/
theorem Decided.isDistinct {volume' : Json} (h : Decided volume volume')
    (hd : volume.isDistinct = true) : volume'.isDistinct = true := by
  cases h with
  | kept => exact hd
  | @added given h =>
    refine Json.isDistinct_put (Json.isDistinct_arr.mpr (forall_options (fun x hx => ?_)
      fun _ => rfl)) _ hd
    rcases h.options with hoptions | ⟨-, rfl⟩
    · exact Json.isDistinct_arr.mp (@Json.isDistinct_of_child (.key "options") _ _ hd hoptions) x hx
    · cases hx

theorem isDistinct_settled (hd : document.isDistinct = true)
    (hvolumes : document.at? volumesPlace = some (.arr volumes)) :
    (Json.put (.arr (volumes.map settle)) volumesPlace document).isDistinct = true := by
  refine Json.isDistinct_put (Json.isDistinct_arr.mpr fun x hx => ?_) _ hd
  obtain ⟨volume, hv, rfl⟩ := List.mem_map.mp hx
  exact (decided_settle volume).isDistinct
    (Json.isDistinct_arr.mp (Json.isDistinct_of_at hd hvolumes) volume hv)

/-- The options that a volume has are covered, if the document is. -/
theorem covers_given (hcovers : p.Covers [] document)
    (hvolumes : document.at? volumesPlace = some (.arr volumes)) {i : Nat}
    (hi : volumes[i]? = some volume) (hgiven : Given volume given) :
    p.Covers ((volumesPlace.index i).key "options") (.arr given) := by
  rcases hgiven with hgiven | ⟨-, rfl⟩
  · refine hcovers.at (t := (volumesPlace.index i).key "options") ?_
    rw [Trail.key, at?_volume hvolumes, hi, Option.bind_some]
    exact @Json.at?_cons_of_child (.key "options") _ _ hgiven []
  · exact Provenance.covers_of_isEmpty _ _ rfl

/-- What has content when ciphers are chosen had content before, or is a volume that had nothing in
it, or belongs to the options of a volume that gets a cipher. -/
theorem settled_at_cases (hvolumes : document.at? volumesPlace = some (.arr volumes)) {t : Trail}
    {y : Json} (hy : (Json.put (.arr (volumes.map settle)) volumesPlace document).at? t = some y)
    (hne : y.isEmpty = false) :
    (∃ z, document.at? t = some z ∧ z.isEmpty = false) ∨
      (∃ i, t = volumesPlace.index i ∧ document.at? t = some (.obj [])) ∨
      ∃ i volume given u, volumes[i]? = some volume ∧ Undecided volume given ∧
        t = (volumesPlace.index i).key "options" ++ u ∧
        (Json.arr (given ++ choice)).at? u = some y := by
  have hroom : Json.HasRoom volumesPlace document :=
    Json.hasRoom_of_at (by rw [hvolumes]; rfl)
  by_cases hp : volumesPlace <+: t
  · obtain ⟨u, rfl⟩ := hp
    rw [Json.at?_put _ hroom] at hy
    match u with
    | [] =>
      cases hy
      refine .inl ⟨.arr volumes, by rwa [List.append_nil], ?_⟩
      rwa [Json.isEmpty, List.isEmpty_map] at hne
    | .key k :: w => cases hy
    | .index i :: w =>
      rw [Json.at?_cons, Json.child?_index_arr, List.getElem?_map] at hy
      have hat := at?_volume hvolumes i w
      cases hi : volumes[i]? with
      | none =>
        rw [hi] at hy
        cases hy
      | some volume =>
        rw [hi] at hy hat
        have hat : document.at? (volumesPlace ++ .index i :: w) = volume.at? w := by
          rwa [Trail.index, List.append_assoc] at hat
        rcases (decided_settle volume).at_cases hy hne with
          ⟨z, hz, hzne⟩ | ⟨rfl, rfl⟩ | ⟨given, w, hu, rfl, hw⟩
        · exact .inl ⟨z, hat.trans hz, hzne⟩
        · exact .inr (.inl ⟨i, rfl, hat⟩)
        · refine .inr (.inr ⟨i, volume, given, w, hi, hu, ?_, hw⟩)
          simp [Trail.key, Trail.index]
  · rcases Json.at?_of_put hroom hy hp with hold | ⟨w, hw⟩
    · exact .inl ⟨y, hold, hne⟩
    · -- Something is below what is on the way to the volumes, so it had content before.
      rw [← hw, Json.at?_append] at hvolumes
      obtain ⟨z, hz, hzw⟩ := Option.bind_eq_some_iff.mp hvolumes
      cases w with
      | nil =>
        rw [List.append_nil] at hw
        exact absurd (hw ▸ List.prefix_refl _) hp
      | cons s w =>
        obtain ⟨c, hc, -⟩ := Option.bind_eq_some_iff.mp hzw
        exact .inl ⟨z, hz, Json.not_isEmpty_of_child hc⟩

/-- What has no origin when ciphers are chosen is a volume that had nothing in it, and had none. -/
theorem empty_of_missing (hcovers : p.Covers [] document)
    (hvolumes : document.at? volumesPlace = some (.arr volumes)) {t : Trail} {y : Json}
    (hy : (Json.put (.arr (volumes.map settle)) volumesPlace document).at? t = some y)
    (hne : y.isEmpty = false) (ht : t ≠ [])
    (hfind : (chooseForAll origin volumesPlace 0 volumes p).2.find? t = none) :
    ∃ i, t = volumesPlace.index i ∧ document.at? t = some (.obj []) ∧ p.find? t = none := by
  have hnone : p.find? t = none := by
    cases hp : p.find? t with
    | none => rfl
    | some o =>
      have hsome := (grows_chooseForAll origin volumesPlace 0 volumes p).isSome t (by rw [hp]; rfl)
      rw [hfind] at hsome
      cases hsome
  rcases settled_at_cases hvolumes hy hne with
    ⟨z, hz, hzne⟩ | ⟨i, rfl, hat⟩ | ⟨i, volume, given, u, hi, hu, rfl, hat⟩
  · rcases hcovers t z hz hzne with h | h
    · exact absurd h ht
    · rw [List.nil_append, hnone] at h
      cases h
  · exact ⟨i, rfl, hat, hnone⟩
  · have hall := covers_chooseForAll origin 0 hi hu
      (by rw [Nat.zero_add]; exact covers_given hcovers hvolumes hi hu.options)
    rw [Nat.zero_add] at hall
    rcases hall u y hat hne with h | h
    · exact absurd h (by simp [Trail.key, Trail.index])
    · rw [hfind] at h
      cases h

/-- A volume that had nothing in it has no origin when ciphers are chosen, if it had none before. -/
theorem missing_of_empty (origin : Trail)
    (hvolumes : document.at? volumesPlace = some (.arr volumes)) {i : Nat}
    (hat : document.at? (volumesPlace.index i) = some (.obj []))
    (hnone : p.find? (volumesPlace.index i) = none) :
    (∃ y, (Json.put (.arr (volumes.map settle)) volumesPlace document).at?
        (volumesPlace.index i) = some y ∧ y.isEmpty = false) ∧
      (chooseForAll origin volumesPlace 0 volumes p).2.find? (volumesPlace.index i) = none := by
  have hi : volumes[i]? = some (.obj []) := by
    have hitem := at?_volume hvolumes i []
    rw [List.append_nil, hat] at hitem
    cases hv : volumes[i]? with
    | none =>
      rw [hv] at hitem
      cases hitem
    | some volume =>
      rw [hv] at hitem
      exact hitem.symm
  have hundecided : Undecided (.obj []) [] := ⟨rfl, .inr ⟨rfl, rfl⟩, rfl⟩
  have hroom : Json.HasRoom volumesPlace document :=
    Json.hasRoom_of_at (by rw [hvolumes]; rfl)
  constructor
  · refine ⟨settle (.obj []), ?_, ?_⟩
    · rw [Trail.index, Json.at?_put _ hroom, Json.at?_cons, Json.child?_index_arr,
        List.getElem?_map, hi]
      rfl
    · rw [settle_of_undecided hundecided]
      exact Json.isEmpty_put_cons _ _ _ _
  · rw [(grows_chooseForAll _ _ 0 volumes p).beside, hnone]
    rintro ⟨j, hj⟩
    have hl := hj.length_le
    simp [Trail.key, Trail.index] at hl

/-- **When ciphers are chosen, the volumes without an origin are those that had nothing in them**,
and everything else has one, if all parts of the document had. -/
theorem mem_missing_choose (hd : document.isDistinct = true) (hc : p.missing document = [])
    (origin t : Trail) :
    t ∈ (choose origin [] document p).2.missing (choose origin [] document p).1 ↔
      ∃ i, t = volumesPlace.index i ∧ document.at? t = some (.obj []) ∧ p.find? t = none := by
  have hcovers := (Provenance.missing_eq_nil_iff p document hd).mp hc
  by_cases hvolumes : ∃ volumes, document.at? volumesPlace = some (.arr volumes)
  · obtain ⟨volumes, hvolumes⟩ := hvolumes
    have hlist : Trail.dotted [] "storage.luks" = volumesPlace := by decide
    rw [choose_of_volumes hvolumes, hlist, withVolumes_eq_put hd hvolumes,
      Provenance.mem_missing_iff _ (isDistinct_settled hd hvolumes)]
    constructor
    · rintro ⟨y, hy, hne, ht, hfind⟩
      exact empty_of_missing hcovers hvolumes hy hne ht hfind
    · rintro ⟨i, rfl, hat, hnone⟩
      obtain ⟨⟨y, hy, hne⟩, hfind⟩ := missing_of_empty origin hvolumes hat hnone
      exact ⟨y, hy, hne, by simp [Trail.index], hfind⟩
  · -- Without volumes the document is what it was, and has no empty volume.
    have hnone := not_exists.mp hvolumes
    rw [choose_of_no_volumes hnone, hc]
    refine ⟨nofun, ?_⟩
    rintro ⟨i, rfl, hat, -⟩
    rw [Trail.index, Json.at?_append, Option.bind_eq_some_iff] at hat
    obtain ⟨luks, hluks, hitem⟩ := hat
    cases luks with
    | arr volumes => exact absurd hluks (hnone volumes)
    | _ => cases hitem

end Volumes

/-! ## Volumes without anything -/

/-- A document with a volume that has nothing in it, and one that has a name. -/
def bareVolumes : Json :=
  .obj [("storage", .obj [("luks", .arr [.obj [], .obj [("name", .str "data")]])])]

/-- Origins of all its parts that have content. -/
def bareOrigins : Provenance where
  origins :=
    [volumesPlace.take 1, volumesPlace, volumesPlace.index 1,
      (volumesPlace.index 1).key "name"].map fun t => (t, t)

/-- The setting that asks for ciphers. -/
def fipsTrail : Trail := [.key "openshift", .key "fips"]

/-- **The volume that had nothing in it has two options in the end, and no origin.** -/
theorem bareVolume_uncovered : bareOrigins.missing bareVolumes = [] ∧
    (choose fipsTrail [] bareVolumes bareOrigins).1 = .obj [("storage", .obj [("luks", .arr
      [.obj [("options", .arr choice)],
        .obj [("name", .str "data"), ("options", .arr choice)]])])] ∧
    (choose fipsTrail [] bareVolumes bareOrigins).2.missing
      (choose fipsTrail [] bareVolumes bareOrigins).1 = [volumesPlace.index 0] := by
  decide +kernel

/-- The document has distinct keys and origins for all its parts, and it is the first volume alone
that has none when ciphers are chosen. -/
theorem bareVolume_missing : bareVolumes.isDistinct = true ∧ bareOrigins.missing bareVolumes = [] ∧
    volumesPlace.index 0 ∈ (choose fipsTrail [] bareVolumes bareOrigins).2.missing
      (choose fipsTrail [] bareVolumes bareOrigins).1 ∧
    volumesPlace.index 1 ∉ (choose fipsTrail [] bareVolumes bareOrigins).2.missing
      (choose fipsTrail [] bareVolumes bareOrigins).1 := by
  have hd : bareVolumes.isDistinct = true := by decide
  have hc : bareOrigins.missing bareVolumes = [] := by decide +kernel
  refine ⟨hd, hc, (mem_missing_choose hd hc _ _).mpr ⟨0, rfl, rfl, by decide +kernel⟩, fun h => ?_⟩
  obtain ⟨-, -, -, hnone⟩ := (mem_missing_choose hd hc _ _).mp h
  exact absurd hnone (by decide +kernel)

end Provision.Fips
