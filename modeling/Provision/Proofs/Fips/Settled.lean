import Provision.Proofs.Fips

/-!
# What choosing ciphers does to a document

Whatever a document holds, ciphers are chosen for the entries of its list of volumes alone, one by
one. An entry that is no object, whose options are no list or that chooses a cipher itself stays as
it is; any other keeps what it has and gets two more options. Then nothing is left to choose.

* `settle`: what becomes of a volume, and `Decided`: what that may be.
* `value_choose`: the document with what becomes of its volumes.
* `choose_choose`: choosing again changes nothing.
* `rewrites_choose`: all that happens to a document.
-/

set_option autoImplicit false

namespace Provision.Fips

/-! ## One volume -/

/-- The volume with a cipher. -/
def settle (volume : Json) : Json := (chooseFor [] [] volume {}).1

/-- A volume chooses a cipher itself. -/
def Chooses (volume : Json) : Prop :=
  ∃ given, volume.get? "options" = some (.arr given) ∧ given.any isChoice = true

/-- What a volume with a cipher is made of: the volume as it is, if none can or need be chosen, or
the volume with the choice after its options. -/
inductive Decided (volume : Json) : Json → Prop where
  | kept (h : ∀ given, ¬Undecided volume given) : Decided volume volume
  | added {given : List Json} (h : Undecided volume given) :
    Decided volume (Json.put (.arr (given ++ choice)) [.key "options"] volume)

section Volume

variable {volume volume' : Json} {given : List Json}

theorem settle_of_undecided (h : Undecided volume given) :
    settle volume = Json.put (.arr (given ++ choice)) [.key "options"] volume :=
  congrArg Prod.fst (chooseFor_of_undecided h [] [] {})

theorem settle_of_decided (h : ∀ given, ¬Undecided volume given) : settle volume = volume :=
  congrArg Prod.fst (chooseFor_of_decided h [] [] {})

theorem decided_settle (volume : Json) : Decided volume (settle volume) := by
  by_cases h : ∃ given, Undecided volume given
  · obtain ⟨given, h⟩ := h
    rw [settle_of_undecided h]
    exact .added h
  · have hkept : ∀ given, ¬Undecided volume given := not_exists.mp h
    rw [settle_of_decided hkept]
    exact .kept hkept

/-- The volume with a cipher does not depend on where its parts come from. -/
theorem chooseFor_fst (origin options : Trail) (volume : Json) (p : Provenance) :
    (chooseFor origin options volume p).1 = settle volume := by
  by_cases h : ∃ given, Undecided volume given
  · obtain ⟨given, h⟩ := h
    rw [chooseFor_of_undecided h, settle_of_undecided h]
  · have hkept : ∀ given, ¬Undecided volume given := not_exists.mp h
    rw [chooseFor_of_decided hkept, settle_of_decided hkept]

/-- The options of a volume are one list at most. -/
theorem Given.unique {given' : List Json} (h : Given volume given) (h' : Given volume given') :
    given = given' := by
  rcases h with h | ⟨h, rfl⟩ <;> rcases h' with h' | ⟨h', rfl⟩
  · cases h.symm.trans h'
    rfl
  · cases h.symm.trans h'
  · cases h.symm.trans h'
  · rfl

theorem get?_put_options (options volume : Json) :
    (Json.put options [.key "options"] volume).get? "options" = some options :=
  Json.child?_put_key options "options" [] volume

theorem any_isChoice_choice (given : List Json) : (given ++ choice).any isChoice = true := by
  rw [List.any_append]
  exact Bool.or_true _

/-- For a volume with a cipher none is left to choose. -/
theorem Decided.settled (h : Decided volume volume') : ∀ given, ¬Undecided volume' given := by
  cases h with
  | kept h => exact h
  | @added given =>
    intro given' h'
    obtain rfl := h'.options.unique (.inl (get?_put_options _ volume))
    have hunchosen := h'.unchosen
    rw [any_isChoice_choice] at hunchosen
    cases hunchosen

/-- **A volume whose options are a list, if there are any, chooses a cipher in the end.** -/
theorem Decided.chooses (h : Decided volume volume') (hobject : volume.isObject = true)
    (hgiven : Given volume given) : Chooses volume' := by
  cases h with
  | kept h =>
    have hchosen : given.any isChoice = true :=
      eq_true_of_ne_false fun hc => h given ⟨hobject, hgiven, hc⟩
    rcases hgiven with hgiven | ⟨-, rfl⟩
    · exact ⟨given, hgiven, hchosen⟩
    · cases hchosen
  | added => exact ⟨_, get?_put_options _ volume, any_isChoice_choice _⟩

/-- The other members of a volume stay. -/
theorem Decided.get?_of_ne (h : Decided volume volume') {k : String} (hk : k ≠ "options") :
    volume'.get? k = volume.get? k := by
  cases h with
  | kept => rfl
  | added =>
    rw [Json.put, Json.get?, Json.lookup_insert_of_ne hk, Json.lookup_members]

end Volume

/-! ## All volumes -/

/-- The place of the volumes of a document. -/
def volumesPlace : Trail := [.key "storage", .key "luks"]

section Volumes

variable {document : Json} {volumes : List Json} {origin list start : Trail} {p : Provenance}

theorem chooseForAll_fst (position : Nat) :
    (chooseForAll origin list position volumes p).1 = volumes.map settle := by
  induction volumes generalizing position p with
  | nil => rfl
  | cons volume rest ih =>
    rw [chooseForAll, List.map_cons, ← chooseFor_fst origin _ volume p, ← ih]

/-- Where none is left to choose, nothing happens. -/
theorem chooseForAll_of_decided (h : ∀ volume ∈ volumes, ∀ given, ¬Undecided volume given)
    (position : Nat) : chooseForAll origin list position volumes p = (volumes, p) := by
  induction volumes generalizing position with
  | nil => rfl
  | cons volume rest ih =>
    obtain ⟨hv, hr⟩ := List.forall_mem_cons.mp h
    rw [chooseForAll, chooseFor_of_decided hv]
    dsimp only
    rw [ih hr]

/-- The volumes are those that `choose` looks up. -/
theorem volumes_eq_some_iff : ((document.get? "storage").bind (·.get? "luks")).bind Json.items? =
    some volumes ↔ document.at? volumesPlace = some (.arr volumes) := by
  have hat : document.at? volumesPlace = (document.get? "storage").bind (·.get? "luks") := by
    rw [volumesPlace, Json.at?_cons]
    change (document.get? "storage").bind _ = _
    congr 1
    funext storage
    rw [Json.at?_cons]
    change (storage.get? "luks").bind (Json.at? []) = _
    cases storage.get? "luks" <;> rfl
  rw [hat]
  constructor
  · intro h
    obtain ⟨luks, hluks, hitems⟩ := Option.bind_eq_some_iff.mp h
    rw [hluks]
    cases luks <;> cases hitems
    rfl
  · intro h
    rw [h]
    rfl

theorem hasVolumes_of_at (h : document.at? volumesPlace = some (.arr volumes)) :
    HasVolumes document := by
  obtain ⟨luks, hluks, hitems⟩ := Option.bind_eq_some_iff.mp (volumes_eq_some_iff.mpr h)
  obtain ⟨storage, hstorage, hget⟩ := Option.bind_eq_some_iff.mp hluks
  cases luks <;> cases hitems
  exact ⟨storage, volumes, hstorage, hget⟩

/-- A document without a list of volumes stays as it is. -/
theorem choose_of_no_volumes
    (h : ∀ volumes, document.at? volumesPlace ≠ some (.arr volumes)) :
    choose origin start document p = (document, p) := by
  rw [choose]
  split
  · rfl
  · next volumes hvolumes => exact absurd (volumes_eq_some_iff.mp hvolumes) (h volumes)

/-- Ciphers are chosen for the volumes of a document, one after the other. -/
theorem choose_of_volumes (h : document.at? volumesPlace = some (.arr volumes)) :
    choose origin start document p = (withVolumes (volumes.map settle) document,
      (chooseForAll origin (start.dotted "storage.luks") 0 volumes p).2) := by
  rw [choose, volumes_eq_some_iff.mpr h]
  dsimp only
  rw [chooseForAll_fst, withVolumes]

/-- The volumes of a document with other volumes are these. -/
theorem at?_volumesPlace (h : HasVolumes document) (volumes : List Json) :
    (withVolumes volumes document).at? volumesPlace = some (.arr volumes) := by
  obtain ⟨storage, items, hs, hl⟩ := h
  rw [withVolumes, volumesPlace,
    @Json.at?_cons_of_child (.key "storage") _ _ (Json.get?_modify hs _),
    @Json.at?_cons_of_child (.key "luks") _ _ (Json.get?_modify hl _), Json.at?_nil]

/-- Of two lists of volumes, the one that is set last counts. -/
theorem withVolumes_withVolumes (volumes volumes' : List Json) (document : Json) :
    withVolumes volumes' (withVolumes volumes document) = withVolumes volumes' document := by
  rw [withVolumes, withVolumes, Json.modify_modify, withVolumes]
  congr 1
  funext storage
  exact Json.modify_modify "luks" _ _ storage

/-- **Choosing ciphers again changes nothing**, neither the document nor where its parts come
from. -/
theorem choose_choose (origin start : Trail) (document : Json) (p : Provenance) :
    choose origin start (choose origin start document p).1 (choose origin start document p).2 =
      choose origin start document p := by
  by_cases h : ∃ volumes, document.at? volumesPlace = some (.arr volumes)
  · obtain ⟨volumes, h⟩ := h
    have hdecided : ∀ volume ∈ volumes.map settle, ∀ given, ¬Undecided volume given := by
      intro volume hv
      obtain ⟨volume, -, rfl⟩ := List.mem_map.mp hv
      exact (decided_settle volume).settled
    have hagain : (volumes.map settle).map settle = volumes.map settle := by
      rw [← @chooseForAll_fst _ origin start p 0, chooseForAll_of_decided hdecided]
    rw [choose_of_volumes h, choose_of_volumes (at?_volumesPlace (hasVolumes_of_at h) _),
      chooseForAll_of_decided hdecided, hagain, withVolumes_withVolumes]
  · have hnone := not_exists.mp h
    rw [choose_of_no_volumes hnone, choose_of_no_volumes hnone]

/-- A document with other volumes has another list at their place. -/
theorem withVolumes_eq_put (hd : document.isDistinct = true)
    (h : document.at? volumesPlace = some (.arr volumes)) (volumes' : List Json) :
    withVolumes volumes' document = Json.put (.arr volumes') volumesPlace document := by
  obtain ⟨storage, items, hs, hl⟩ := hasVolumes_of_at h
  have hstorage : storage.isDistinct = true :=
    @Json.isDistinct_of_child (.key "storage") _ _ hd hs
  exact Json.modify_put hd hs (Json.modify_eq_put hstorage hl _)

/-- What choosing ciphers makes of a document. -/
structure Rewrites (document document' : Json) : Prop where
  /-- Without a list of volumes nothing changes. -/
  none : (∀ volumes, document.at? volumesPlace ≠ some (.arr volumes)) → document' = document
  /-- A list of volumes is replaced by one that is as long, and nothing else changes. A volume stays
  as it is, or gets the choice after the options that it had. If it is an object and its options are
  a list, if there are any, it then chooses a cipher. -/
  some : ∀ volumes, document.at? volumesPlace = some (.arr volumes) →
    ∃ volumes', document' = Json.put (.arr volumes') volumesPlace document ∧
      volumes'.length = volumes.length ∧
      ∀ (i : Nat) (volume : Json), volumes[i]? = some volume →
        ∃ volume', volumes'[i]? = some volume' ∧ Decided volume volume' ∧
          ∀ given, volume.isObject = true → Given volume given → Chooses volume'

/-- **Choosing ciphers is complete and minimal.** -/
theorem rewrites_choose (hd : document.isDistinct = true) (origin start : Trail)
    (p : Provenance) : Rewrites document (choose origin start document p).1 where
  none h := congrArg Prod.fst (choose_of_no_volumes h)
  some volumes h := by
    refine ⟨volumes.map settle, ?_, List.length_map _, fun i volume hi => ?_⟩
    · rw [choose_of_volumes h, ← withVolumes_eq_put hd h]
    · have hdecided := decided_settle volume
      refine ⟨settle volume, ?_, hdecided, fun given hobject => hdecided.chooses hobject⟩
      rw [List.getElem?_map, hi, Option.map_some]

end Volumes

end Provision.Fips
