import Provision.Fips
import Provision.Proofs.Draft

/-!
# Choosing ciphers leaves documents sound

A volume that chooses no cipher gets two more options, at the end of those that it has. Both come
from the setting that asks for approved ciphers.

* `chooseFor_of_undecided`, `chooseFor_of_decided`: what becomes of a volume.
* `choose_induction`: what holds of a document, and keeps holding when a cipher is chosen for one
  volume, holds when ciphers are chosen for all.
* `sound_choose`, `holds_choose`: a document stays sound, and keeps its leaves.
-/

set_option autoImplicit false

namespace Provision

namespace Fips

open Draft (Shaped Sound Holds)

/-! ## One volume -/

/-- The options of a volume are a list, if there are any. -/
def Given (volume : Json) (given : List Json) : Prop :=
  volume.get? "options" = some (.arr given) ∨ (volume.get? "options" = none ∧ given = [])

/-- A volume for which a cipher is chosen: its options are none, or a list that chooses none. -/
structure Undecided (volume : Json) (given : List Json) : Prop where
  isObject : volume.isObject = true
  options : Given volume given
  unchosen : given.any isChoice = false

theorem optionsOf_eq_some_iff {members : List (String × Json)} {given : List Json} :
    optionsOf members = some given ↔ Given (.obj members) given := by
  rw [optionsOf, Given, Json.get?]
  cases Json.lookup "options" members with
  | none => simp [Json.items?, eq_comm]
  | some c => cases c <;> simp [Json.items?]

/-- The origins of the options that are added to some that are given. -/
def record (origin options : Trail) (given : List Json) (p : Provenance) : Provenance :=
  ((if given.isEmpty then p.add origin options else p).add origin
    (options.index given.length)).add origin (options.index (given.length + 1))

section Volume

variable {volume : Json} {given : List Json}

/-- **A volume that chooses no cipher gets the choice after its options.** -/
theorem chooseFor_of_undecided (h : Undecided volume given) (origin options : Trail)
    (p : Provenance) : chooseFor origin options volume p =
      (Json.put (.arr (given ++ choice)) [.key "options"] volume,
        record origin options given p) := by
  cases volume with
  | obj members =>
    have hunchosen : ¬given.any isChoice = true := ne_true_of_eq_false h.unchosen
    rw [chooseFor]
    simp only [optionsOf_eq_some_iff.mpr h.options]
    rw [if_neg hunchosen, if_neg hunchosen]
    rfl
  | _ => cases h.isObject

/-- **Any other volume stays as it is.** -/
theorem chooseFor_of_decided (h : ∀ given, ¬Undecided volume given) (origin options : Trail)
    (p : Provenance) : chooseFor origin options volume p = (volume, p) := by
  cases volume with
  | obj members =>
    rw [chooseFor]
    cases hoptions : optionsOf members with
    | none => rfl
    | some given =>
      have hgiven := optionsOf_eq_some_iff.mp hoptions
      have hchosen : given.any isChoice = true :=
        eq_true_of_ne_false fun hc => h given ⟨rfl, hgiven, hc⟩
      dsimp only
      rw [if_pos hchosen, if_pos hchosen]
      rcases hgiven with hgiven | ⟨-, rfl⟩
      · rw [Json.insert_of_lookup hgiven]
      · cases hchosen
  | _ => rfl

end Volume

section Choice

variable {known : Trail → Prop} {d : Draft} {origin : Trail} {n : Nat} {volume : Json}
  {given : List Json}

/-- Only the list of options, if it was empty, and what is added to it get origins. -/
theorem grows_record (ho : known origin) (options : Trail) (given : List Json) (p : Provenance) :
    p.Grows known (fun q => (q = options ∧ given = []) ∨
      ∃ i, given.length ≤ i ∧ q = options.index i) (record origin options given p) := by
  have hlist : p.Grows known (fun q => (q = options ∧ given = []) ∨
      ∃ i, given.length ≤ i ∧ q = options.index i)
      (if given.isEmpty then p.add origin options else p) := by
    split
    · next h =>
      exact (Provenance.grows_add ho p options).mono fun q hq =>
        .inl ⟨hq, List.isEmpty_iff.mp h⟩
    · exact .refl _ _ _
  exact (hlist.trans ((Provenance.grows_add ho _ _).mono fun q hq =>
    .inr ⟨_, Nat.le_refl _, hq⟩)).trans ((Provenance.grows_add ho _ _).mono fun q hq =>
      .inr ⟨_, Nat.le_succ _, hq⟩)

/-- All options have origins if those that were given had. -/
theorem covers_record {options : Trail} {p : Provenance} (hc : p.Covers options (.arr given)) :
    (record origin options given p).Covers options (.arr (given ++ choice)) := by
  have hgrows := @grows_record (fun _ => True) origin trivial options given p
  have hold := (Provenance.covers_iff _ _ _).mp (hgrows.covers hc)
  refine (Provenance.covers_iff _ _ _).mpr ⟨fun _ => ?_, fun step y hy => ?_⟩
  · cases given with
    | nil =>
      refine .inr ?_
      rw [record, Provenance.find?_add_of_ne (by simp [Trail.index]),
        Provenance.find?_add_of_ne (by simp [Trail.index]), if_pos List.isEmpty_nil, Provenance.find?_add]
      rfl
    | cons => exact hold.1 rfl
  · cases step with
    | key => cases hy
    | index i =>
      rw [Json.child?_index_arr] at hy
      by_cases hi : i < given.length
      · rw [List.getElem?_append_left hi] at hy
        exact hold.2 (.index i) y hy
      · rw [List.getElem?_append_right (Nat.le_of_not_lt hi)] at hy
        have hlt : i - given.length < 2 := (List.getElem?_eq_some_iff.mp hy).1
        have hfind : ((record origin options given p).find? (options.index i)).isSome = true := by
          rw [record]
          by_cases hi' : i = given.length + 1
          · rw [hi', Provenance.find?_add]
            rfl
          · have he : i = given.length := by omega
            rw [he, Provenance.find?_add_of_ne (by simp [Trail.index]), Provenance.find?_add]
            rfl
        have hleaf : ∀ step, y.child? step = none := by
          rcases List.mem_cons.mp (List.mem_of_getElem? hy) with rfl | hy
          · exact fun step => Json.child?_str step _
          · cases List.mem_singleton.mp hy
            exact fun step => Json.child?_str step _
        refine (Provenance.covers_iff _ _ _).mpr ⟨fun _ => .inr hfind, fun step z hz => ?_⟩
        rw [hleaf step] at hz
        cases hz

/-- The place of the options of a volume. -/
def optionsPlace (n : Nat) : Trail :=
  [.key "storage", .key "luks", .index n, .key "options"]

/-- The options that are given are in the document, if there are any. -/
theorem given_cases (hat : d.value.at? [.key "storage", .key "luks", .index n] = some volume)
    (hgiven : Given volume given) :
    d.value.at? (optionsPlace n) = some (.arr given) ∨ given = [] := by
  refine hgiven.imp (fun hgiven => ?_) And.right
  change d.value.at? ([Segment.key "storage", .key "luks", .index n] ++ [.key "options"]) = _
  rw [Json.at?_append, hat]
  exact @Json.at?_cons_of_child (.key "options") _ _ hgiven []

theorem hasRoom_optionsPlace
    (hat : d.value.at? [.key "storage", .key "luks", .index n] = some volume) :
    Json.HasRoom (optionsPlace n) d.value :=
  have hroom : Json.HasRoom
      ([Segment.key "storage", .key "luks", .index n] ++ [.key "options"]) d.value :=
    Json.hasRoom_append hat trivial
  hroom

/-- What holds of the options that are given holds of all, if it holds of the choice. -/
theorem forall_options {P : Json → Prop} (hgiven : ∀ x ∈ given, P x) (htext : ∀ s, P (.str s)) :
    ∀ x ∈ given ++ choice, P x := by
  refine List.forall_mem_append.mpr ⟨hgiven, fun x hx => ?_⟩
  simp only [choice, List.mem_cons, List.not_mem_nil, or_false] at hx
  rcases hx with rfl | rfl
  · exact htext _
  · exact htext _

/-- All options are leaves if those that are given are. -/
theorem takes_options (h : Shaped d)
    (hat : d.value.at? [.key "storage", .key "luks", .index n] = some volume)
    (hgiven : Given volume given) : (Shape.list .leaf).Takes (.arr (given ++ choice)) := by
  refine Shape.takes_list (forall_options (fun x hx => ?_) Shape.takes_str)
  rcases given_cases hat hgiven with hoptions | rfl
  · obtain ⟨i, hi⟩ := List.mem_iff_getElem?.mp hx
    exact ⟨@Shape.Fits.child_of _ _ _ _ (.index i) (h.fits.at_of hoptions rfl) hi rfl,
      Json.isDistinct_arr.mp (Json.isDistinct_of_at h.distinct hoptions) x hx⟩
  · cases hx

/-- A document keeps its shape when a cipher is chosen for a volume. -/
theorem shaped_choice (h : Shaped d)
    (hat : d.value.at? [.key "storage", .key "luks", .index n] = some volume)
    (hgiven : Given volume given) (report : Report) :
    Shaped ⟨Json.put (.arr (given ++ choice)) (optionsPlace n) d.value,
      record origin (optionsPlace n) given d.provenance, report⟩ :=
  have htakes := takes_options h hat hgiven
  h.put (hasRoom_optionsPlace hat) (s := .list .leaf) rfl htakes.1 htakes.2
    (@grows_record (fun _ => True) origin trivial (optionsPlace n) given d.provenance) report

/-- **A document stays sound when a cipher is chosen for a volume.** -/
theorem sound_choice (h : Sound known d) (ho : known origin)
    (hat : d.value.at? [.key "storage", .key "luks", .index n] = some volume)
    (hgiven : Given volume given) (report : Report) :
    Sound known ⟨Json.put (.arr (given ++ choice)) (optionsPlace n) d.value,
      record origin (optionsPlace n) given d.provenance, report⟩ := by
  have hcovers : d.provenance.Covers (optionsPlace n) (.arr given) := by
    rcases given_cases hat hgiven with hoptions | rfl
    · exact h.covers.at hoptions
    · exact Provenance.covers_of_isEmpty _ _ rfl
  have hgrows := grows_record ho (optionsPlace n) given d.provenance
  have htakes := takes_options h.toShaped hat hgiven
  refine h.put (hasRoom_optionsPlace hat) (s := .list .leaf) rfl htakes.1 htakes.2 hgrows
    (covers_record hcovers) (fun u hu hnil ht => hgrows.isSome _ ?_) (fun u hu _ => ?_) _
  · have hu : u <+: [Segment.key "storage", .key "luks", .index n] ++ [.key "options"] := hu
    rcases List.prefix_concat_iff.mp hu with rfl | hu
    · exact absurd rfl ht
    · obtain ⟨w, hw⟩ := hu
      cases w with
      | nil =>
        rw [List.append_nil] at hw
        rw [hw]
        exact h.volumes _ rfl (by rw [hat]; rfl)
      | cons step w => exact h.isSome_of_prefix (by rw [hw, hat]; rfl) hnil
  · have hl := congrArg List.length hu
    simp [Trail.outline, Draft.volumePlace, optionsPlace] at hl

/-- A leaf stays when a cipher is chosen for a volume. -/
theorem holds_choice (h : Shaped d) {source : Trail} {o : Outline} {x : Json}
    (hx : x.isScalar = true) (hh : Holds d source o x)
    (hat : d.value.at? [.key "storage", .key "luks", .index n] = some volume)
    (hgiven : Given volume given) (report : Report) :
    Holds ⟨Json.put (.arr (given ++ choice)) (optionsPlace n) d.value,
      record origin (optionsPlace n) given d.provenance, report⟩ source o x := by
  -- A leaf at or below the options is an option that was given.
  have hleaf : ∀ u, d.value.at? (optionsPlace n ++ u) = some x →
      ∃ i, u = [.index i] ∧ given[i]? = some x := by
    intro u hu
    have hu' : volume.at? (.key "options" :: u) = some x := by
      have hsplit : optionsPlace n ++ u =
        [Segment.key "storage", .key "luks", .index n] ++ (.key "options" :: u) := rfl
      rwa [hsplit, Json.at?_append, hat] at hu
    obtain ⟨c, hc, hcx⟩ := Option.bind_eq_some_iff.mp hu'
    have hc : volume.get? "options" = some c := hc
    rcases hgiven with hgiven | ⟨hnone, -⟩
    · cases hgiven.symm.trans hc
      obtain ⟨s, hs, -⟩ := h.fits.at hu
      match u with
      | [] =>
        cases hcx
        cases hx
      | .key _ :: _ => cases hs
      | [.index i] =>
        obtain ⟨y, hy, hyx⟩ := Option.bind_eq_some_iff.mp hcx
        cases hyx
        exact ⟨i, rfl, hy⟩
      | .index _ :: step :: _ => cases step <;> cases hs
    · cases hnone.symm.trans hc
  refine hh.put h hx (hasRoom_optionsPlace hat) (s := .list .leaf) rfl
    (@grows_record (fun _ => True) origin trivial (optionsPlace n) given d.provenance)
    (fun q _ hq _ => ⟨fun u hu => ?_, ?_⟩) _
  · rw [hu] at hq
    obtain ⟨i, rfl, hi⟩ := hleaf u hq
    have hlt := (List.getElem?_eq_some_iff.mp hi).1
    exact @Json.at?_cons_of_child (.index i) (.arr _) x
      ((List.getElem?_append_left hlt).trans hi) []
  · rintro (⟨rfl, -⟩ | ⟨i, hi, rfl⟩)
    · obtain ⟨i, hu, -⟩ := hleaf [] (by rwa [List.append_nil])
      cases hu
    · obtain ⟨j, hu, hj⟩ := hleaf [.index i] hq
      cases hu
      have hlt := (List.getElem?_eq_some_iff.mp hj).1
      omega

end Choice

/-! ## All volumes -/

/-- A document with other volumes. -/
def withVolumes (volumes : List Json) (document : Json) : Json :=
  document.modify "storage" (Json.modify "luks" fun _ => .arr volumes)

/-- The volumes of a document are a list in its storage. -/
def HasVolumes (document : Json) : Prop :=
  ∃ storage items, document.get? "storage" = some storage ∧
    storage.get? "luks" = some (.arr items)

section Volumes

variable {known : Trail → Prop} {document : Json} {origin : Trail}

theorem at?_withVolumes (h : HasVolumes document) (volumes : List Json) (n : Nat) :
    (withVolumes volumes document).at? [.key "storage", .key "luks", .index n] = volumes[n]? := by
  obtain ⟨storage, items, hs, hl⟩ := h
  rw [withVolumes, @Json.at?_cons_of_child (.key "storage") _ _ (Json.get?_modify hs _),
    @Json.at?_cons_of_child (.key "luks") _ _ (Json.get?_modify hl _), Json.at?_cons,
    Json.child?_index_arr]
  cases volumes[n]? <;> rfl

/-- Setting something in a volume makes another volume. -/
theorem put_withVolumes (h : HasVolumes document) {done rest : List Json} {volume : Json}
    (hd : (withVolumes (done ++ volume :: rest) document).isDistinct = true) (y : Json)
    (u : Trail) :
    Json.put y ([.key "storage", .key "luks", .index done.length] ++ u)
        (withVolumes (done ++ volume :: rest) document) =
      withVolumes (done ++ Json.put y u volume :: rest) document := by
  have hat := at?_withVolumes h (done ++ volume :: rest) done.length
  rw [List.getElem?_append_right (Nat.le_refl _), Nat.sub_self] at hat
  have hnode := @Draft.modifyNode_eq ⟨withVolumes (done ++ volume :: rest) document, {}, []⟩
    "luks" done.length volume hd hat (fun _ => Json.put y u volume) u y rfl
  have hmodify : (done ++ volume :: rest).modify done.length (fun _ => Json.put y u volume) =
      done ++ Json.put y u volume :: rest := by
    clear hd hat hnode
    induction done with
    | nil => rfl
    | cons x done ih => exact congrArg (x :: ·) ih
  have hvalue := congrArg Translated.value hnode
  refine hvalue.symm.trans ?_
  rw [Draft.modifyNode, withVolumes, withVolumes]
  dsimp only
  rw [Json.modify_modify]
  congr 1
  funext x
  rw [Function.comp, Json.modify_modify]
  congr 1
  funext z
  exact congrArg Json.arr hmodify

/-- What holds of a document, and keeps holding when a cipher is chosen for one volume, holds when
ciphers are chosen for the rest of its volumes. -/
theorem chooseForAll_induction {P : Draft → Prop} (hshaped : ∀ d, P d → Shaped d)
    (hchoice : ∀ d n volume given, P d →
      d.value.at? [.key "storage", .key "luks", .index n] = some volume → Given volume given →
        P ⟨Json.put (.arr (given ++ choice)) (optionsPlace n) d.value,
          record origin (optionsPlace n) given d.provenance, d.report⟩)
    (h : HasVolumes document) (report : Report) (rest : List Json) :
    ∀ (done : List Json) (p : Provenance), P ⟨withVolumes (done ++ rest) document, p, report⟩ →
      let chosen := chooseForAll origin [.key "storage", .key "luks"] done.length rest p
      P ⟨withVolumes (done ++ chosen.1) document, chosen.2, report⟩ := by
  induction rest with
  | nil => exact fun done p hd => hd
  | cons volume rest ih =>
    intro done p hd
    have hat := at?_withVolumes h (done ++ volume :: rest) done.length
    rw [List.getElem?_append_right (Nat.le_refl _), Nat.sub_self] at hat
    have hs := hshaped _ hd
    -- Whatever becomes of the volume, the rest follows with one more volume that is done.
    obtain ⟨volume', p', hchosen, hone⟩ : ∃ volume' p',
        chooseFor origin (optionsPlace done.length) volume p = (volume', p') ∧
          P ⟨withVolumes (done ++ volume' :: rest) document, p', report⟩ := by
      by_cases hu : ∃ given, Undecided volume given
      · obtain ⟨given, hu⟩ := hu
        have hput := put_withVolumes h hs.distinct (.arr (given ++ choice)) [.key "options"]
        have hchoose := hchoice _ _ _ _ hd hat hu.options
        refine ⟨_, _, chooseFor_of_undecided hu _ _ _, ?_⟩
        rw [← hput]
        exact hchoose
      · exact ⟨_, _, chooseFor_of_decided (fun given h => hu ⟨given, h⟩) _ _ _, hd⟩
    have hrest := ih (done ++ [volume']) p'
    rw [List.length_append, List.length_singleton, List.append_assoc, List.singleton_append]
      at hrest
    have hall : chooseForAll origin [.key "storage", .key "luks"] done.length (volume :: rest) p =
        (volume' :: (chooseForAll origin [.key "storage", .key "luks"] (done.length + 1) rest p').1,
          (chooseForAll origin [.key "storage", .key "luks"] (done.length + 1) rest p').2) := by
      have hfor : chooseFor origin
          ((Trail.index [.key "storage", .key "luks"] done.length).key "options") volume p =
            (volume', p') := hchosen
      rw [chooseForAll, hfor]
    have hdone := hrest hone
    dsimp only at hdone
    rw [List.append_assoc, List.singleton_append] at hdone
    rw [hall]
    exact hdone

/-- **What holds of a document, and keeps holding when a cipher is chosen for one volume, holds when
ciphers are chosen for all.** -/
theorem choose_induction {P : Draft → Prop} (hshaped : ∀ d, P d → Shaped d)
    (hchoice : ∀ d n volume given, P d →
      d.value.at? [.key "storage", .key "luks", .index n] = some volume → Given volume given →
        P ⟨Json.put (.arr (given ++ choice)) (optionsPlace n) d.value,
          record origin (optionsPlace n) given d.provenance, d.report⟩)
    {d : Draft} (h : P d) :
    P ⟨(choose origin [] d.value d.provenance).1, (choose origin [] d.value d.provenance).2,
      d.report⟩ := by
  have hlist : Trail.dotted [] "storage.luks" = [.key "storage", .key "luks"] := by
    decide
  have hd := (hshaped d h).distinct
  rw [choose]
  split
  · exact h
  · next volumes hvolumes =>
    -- With its own volumes the document is what it was.
    obtain ⟨list, hlist', hitems⟩ := Option.bind_eq_some_iff.mp hvolumes
    obtain ⟨storage, hs, hl⟩ := Option.bind_eq_some_iff.mp hlist'
    obtain rfl : list = .arr volumes := by
      cases list <;> cases hitems
      rfl
    have hsame : withVolumes volumes d.value = d.value :=
      Json.modify_of_fixed hd hs
        (Json.modify_of_fixed (@Json.isDistinct_of_child (.key "storage") _ _ hd hs) hl rfl)
    have hall := chooseForAll_induction hshaped hchoice ⟨storage, volumes, hs, hl⟩ d.report volumes
      [] d.provenance
    rw [List.nil_append, hsame] at hall
    rw [hlist]
    exact hall h

/-- A document keeps its shape when ciphers are chosen. -/
theorem shaped_choose {d : Draft} (h : Shaped d) (origin : Trail) :
    Shaped ⟨(choose origin [] d.value d.provenance).1, (choose origin [] d.value d.provenance).2,
      d.report⟩ :=
  choose_induction (fun _ h => h) (fun _ _ _ _ h hat hg => shaped_choice h hat hg _) h

/-- **A document stays sound when ciphers are chosen.** -/
theorem sound_choose {d : Draft} (h : Sound known d) (ho : known origin) :
    Sound known ⟨(choose origin [] d.value d.provenance).1,
      (choose origin [] d.value d.provenance).2, d.report⟩ :=
  choose_induction (fun _ h => h.toShaped) (fun _ _ _ _ h hat hg => sound_choice h ho hat hg _) h

/-- **A document keeps its leaves when ciphers are chosen.** -/
theorem holds_choose {d : Draft} (h : Shaped d) {source : Trail} {o : Outline} {x : Json}
    (hx : x.isScalar = true) (hh : Holds d source o x) (origin : Trail) :
    Holds ⟨(choose origin [] d.value d.provenance).1, (choose origin [] d.value d.provenance).2,
      d.report⟩ source o x :=
  (choose_induction (P := fun d => Shaped d ∧ Holds d source o x) (fun _ h => h.1)
    (fun _ _ _ _ h hat hg => ⟨shaped_choice h.1 hat hg _, holds_choice h.1 hx h.2 hat hg _⟩)
    ⟨h, hh⟩).2

end Volumes

end Fips

end Provision
