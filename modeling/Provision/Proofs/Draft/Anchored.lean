import Provision.Proofs.Fips
import Provision.Proofs.Merge.Faithful

/-!
# What findings are about has an origin

A finding in a document is reported where the part that it is about comes from, so what matters is
which parts have origins. Volumes that are given without a name can be without one, and are excused.

* `Draft.Anchored`: all nodes with content have origins, and the contents of units in any case.
* `Anchored.put`, `Grown.anchored`, `Merge.anchored_merge`, `Fips.anchored_choose`: what may happen on
  the way keeps it.
-/

set_option autoImplicit false

namespace Provision

namespace Draft

/-- The outline of the places of contents of units. -/
def unitContentsPlace : Outline := [some "systemd", some "units", none, some "contents"]

/-- What findings are about has an origin: a node with content unless places of its outline are
excused, and the contents of a unit even if there is nothing in them. -/
structure Anchored (excused : Outline → Prop) (d : Draft) : Prop extends Shaped d where
  aligned : d.provenance.Aligned
  covers : ∀ q x, d.value.at? q = some x → x.isEmpty = false → q ≠ [] → ¬excused q.outline →
    (d.provenance.find? q).isSome = true
  contents : ∀ q x, q.outline = unitContentsPlace → d.value.at? q = some x → x ≠ .null →
    (d.provenance.find? q).isSome = true

section Anchored

variable {known places : Trail → Prop} {excused : Outline → Prop} {d d' : Draft}

/-- If no place is excused, the provenance is complete. -/
theorem Anchored.complete (h : Anchored (fun _ => False) d) :
    d.provenance.Covers [] d.value := fun q x hx hne => by
  by_cases hq : q = []
  · exact .inl hq
  · exact .inr (h.covers q x hx hne hq id)

theorem Anchored.of_complete (hs : Shaped d) (ha : d.provenance.Aligned) (hc : d.provenance.Covers [] d.value)
    (hcontents : ∀ q x, q.outline = unitContentsPlace → d.value.at? q = some x → x ≠ .null →
      (d.provenance.find? q).isSome = true) (excused : Outline → Prop) : Anchored excused d where
  toShaped := hs
  aligned := ha
  covers q x hx hne hq _ := (hc q x hx hne).resolve_left hq
  contents := hcontents

theorem Anchored.mono {excused' : Outline → Prop} (h : Anchored excused d)
    (he : ∀ o, excused o → excused' o) : Anchored excused' d where
  toShaped := h.toShaped
  aligned := h.aligned
  covers q x hx hne hq ho := h.covers q x hx hne hq (mt (he _) ho)
  contents := h.contents

/-- What was found on the way does not matter. -/
theorem Anchored.withReport (h : Anchored excused d) (report : Report) :
    Anchored excused ⟨d.value, d.provenance, report⟩ :=
  ⟨h.toShaped.withReport report, h.aligned, h.covers, h.contents⟩

/-- What leads further has an origin unless it is excused. -/
theorem Anchored.isSome_of_prefix (h : Anchored excused d) {q u : Trail} {step : Segment}
    (hx : (d.value.at? (q ++ step :: u)).isSome = true) (hq : q ≠ []) (ho : ¬excused q.outline) :
    (d.provenance.find? q).isSome = true := by
  rw [Json.at?_append, Option.isSome_iff_exists] at hx
  obtain ⟨y, hy⟩ := hx
  obtain ⟨x, hx, hy⟩ := Option.bind_eq_some_iff.mp hy
  obtain ⟨z, hz, -⟩ := Option.bind_eq_some_iff.mp hy
  exact h.covers q x hx (Json.not_isEmpty_of_child hz) hq ho

/-- **What findings are about keeps origins when a node is set** and origins are recorded for it and
for what leads to it. -/
theorem Anchored.put (h : Anchored excused d) {t : Trail} {y : Json} {s : Shape} {p : Provenance}
    (hroom : Json.HasRoom t d.value) (hs : Ignition.Config.shape.at? t = some s) (hy : s.Fits y)
    (hd : y.isDistinct = true) (hgrows : d.provenance.Grows known places p) (hc : p.Covers t y)
    (hway : ∀ u : Trail, u <+: t → u ≠ [] → u ≠ t → ¬excused u.outline ∨ u.outline = unitContentsPlace →
      (p.find? u).isSome = true)
    (hcontents : ∀ (u : Trail) x, Trail.outline (t ++ u) = unitContentsPlace → y.at? u = some x → x ≠ .null →
      (p.find? (t ++ u)).isSome = true) (report : Report) :
    Anchored excused ⟨Json.put y t d.value, p, report⟩ where
  toShaped := h.toShaped.put hroom hs hy hd hgrows report
  aligned := hgrows.aligned h.aligned
  covers q x hx hne hq ho := by
    by_cases ht : t <+: q
    · obtain ⟨u, rfl⟩ := ht
      rw [Json.at?_put y hroom] at hx
      exact (hc u x hx hne).resolve_left hq
    · rcases Json.at?_of_put hroom hx ht with hx | hp
      · exact hgrows.isSome _ (h.covers q x hx hne hq ho)
      · exact hway q hp hq (fun he => ht (he ▸ List.prefix_refl _)) (.inl ho)
  contents q x hq hx hnull := by
    by_cases ht : t <+: q
    · obtain ⟨u, rfl⟩ := ht
      rw [Json.at?_put y hroom] at hx
      exact hcontents u x hq hx hnull
    · rcases Json.at?_of_put hroom hx ht with hx | hp
      · exact hgrows.isSome _ (h.contents q x hq hx hnull)
      · refine hway q hp ?_ (fun he => ht (he ▸ List.prefix_refl _)) (.inr hq)
        rintro rfl
        cases hq

/-- The same when a member of a node is set. -/
theorem Anchored.setMember (h : Anchored (fun _ => False) d) {origin q : Trail} {k : String}
    {c v : Json} {s : Shape} (hc : d.value.at? q = some c) (hne : c.isEmpty = false)
    (hq : 3 ≤ q.length) (hs : Ignition.Config.shape.at? (q.key k) = some s) (hv : s.Fits v)
    (hd : v.isDistinct = true) (report : Report) :
    Anchored (fun _ => False)
      ⟨Json.put v (q.key k) d.value, d.provenance.addValue origin (q.key k) v, report⟩ := by
  have hgrows := @Provenance.grows_addValue (fun _ => True) origin trivial d.provenance (q.key k) v
  have hroom : Json.HasRoom (q ++ [.key k]) d.value := Json.hasRoom_append hc trivial
  refine h.put hroom hs hv hd hgrows (Provenance.covers_addValue _ _ _ _)
    (fun u hu hnil ht _ => hgrows.isSome _ ?_) (fun u x hu hx hnull => ?_) _
  · rcases List.prefix_concat_iff.mp hu with rfl | hu
    · exact absurd rfl ht
    · obtain ⟨w, rfl⟩ := hu
      cases w with
      | nil =>
        rw [List.append_nil] at hc
        exact h.covers u c hc hne hnil id
      | cons step w => exact h.isSome_of_prefix (by rw [hc]; rfl) hnil id
  · -- Contents of units are four steps away, as far as the member at least.
    cases u with
    | nil =>
      cases hx
      rw [List.append_nil]
      exact Provenance.isSome_addValue_of_ne_null _ _ _ hnull
    | cons step u =>
      have hl := congrArg List.length hu
      simp [Trail.outline, unitContentsPlace] at hl
      omega

/-- The same when a node is appended. -/
theorem Anchored.push (h : Anchored (fun _ => False) d) {origin : Trail} {kind : String}
    {s : Shape} {node : Json} (hs : Ignition.Storage.shape.child? (.key kind) = some (.list s))
    (hn : s.Fits node) (hd : node.isDistinct = true) :
    Anchored (fun _ => False) (d.push origin kind node) := by
  obtain ⟨n, hroom, -, heq⟩ := push_eq (h.lists hs) origin node
  rw [heq]
  refine h.put hroom (shape_of_kind hs n) hn hd
    (@grows_push (fun _ => True) origin trivial _ kind n node)
    (Provenance.covers_addValue _ _ _ _)
    (fun u hu hnil ht _ => isSome_push _ _ _ _ _ hu hnil ht) (fun u x hu _ _ => ?_) _
  · exact absurd (List.cons.inj hu).1 (by decide)

/-- **What findings are about keeps origins when a document grows.** -/
theorem Grown.anchored (h : Grown known d d') (hd : Anchored (fun _ => False) d) :
    Anchored (fun _ => False) d' := by
  induction h with
  | refl => exact hd
  | report _ report ih => exact ih.withReport report
  | push _ _ hs hn hd _ ih => exact ih.push hs hn hd
  | member _ _ hc hne hq hs hv hd _ report ih => exact ih.setMember hc hne hq hs hv hd report

end Anchored

end Draft

/-! ## Merging -/

/-- **What findings are about has an origin in a merged document** if it had one in both. -/
theorem Merge.anchored_merge {lower upper : Draft} (hl : lower.Anchored fun _ => False)
    (hu : upper.Anchored fun _ => False) :
    Draft.Anchored (fun _ => False) (merge lower upper) := by
  refine .of_complete (shaped_merge hl.toShaped hu.toShaped)
    ⟨hl.aligned.source, hl.aligned.target⟩
    (covers_merge hl.distinct hu.distinct hu.sorted.nodup hl.complete hu.complete)
    (fun q v hq hv hnull => ?_) _
  rcases nodes_of_merge hl.distinct hu.distinct hv with
    ⟨a, hstayed, ha, hnulls, -⟩ | ⟨u, hmoved, ho, hu'⟩
  · exact isSome_merge_of_stayed hl.distinct hu.distinct hu.sorted.nodup hstayed
      (hl.contents q a hq ha (mt hnulls hnull))
  · obtain ⟨o, huo⟩ := Option.isSome_iff_exists.mp (hu.contents u v (ho.trans hq) hu' hnull)
    rw [find?_merge_of_moved hl.distinct hu.distinct hu.sorted.nodup hmoved huo]
    rfl

/-! ## Ciphers -/

namespace Fips

open Draft (Anchored volumePlace)

/-- What findings are about keeps origins when a cipher is chosen for a volume, but for the volume,
which may have had nothing in it before. -/
theorem anchored_choice {d : Draft} (h : Anchored (· = volumePlace) d) {origin : Trail} {n : Nat}
    {volume : Json} {given : List Json}
    (hat : d.value.at? [.key "storage", .key "luks", .index n] = some volume)
    (hgiven : Given volume given) (report : Report) :
    Anchored (· = volumePlace) ⟨Json.put (.arr (given ++ choice)) (optionsPlace n) d.value,
      record origin (optionsPlace n) given d.provenance, report⟩ := by
  have hcovers : d.provenance.Covers (optionsPlace n) (.arr given) := by
    rcases given_cases hat hgiven with hoptions | rfl
    · intro u x hx hne
      refine .inr (h.covers _ x ?_ hne (List.cons_ne_nil _ _) fun ho => ?_)
      · rw [Json.at?_append, hoptions]
        exact hx
      · exact absurd (congrArg List.length ho) (by simp [Trail.outline, volumePlace, optionsPlace])
    · exact Provenance.covers_of_isEmpty _ _ rfl
  have hgrows := @grows_record (fun _ => True) origin trivial (optionsPlace n) given d.provenance
  have htakes := takes_options h.toShaped hat hgiven
  refine h.put (hasRoom_optionsPlace hat) (s := .list .leaf) rfl htakes.1 htakes.2 hgrows
    (covers_record hcovers) (fun u hu hnil ht ho => hgrows.isSome _ ?_) (fun u x hu _ _ => ?_) _
  · have hu : u <+: [Segment.key "storage", .key "luks", .index n] ++ [.key "options"] := hu
    rcases List.prefix_concat_iff.mp hu with rfl | hu
    · exact absurd rfl ht
    · obtain ⟨w, hw⟩ := hu
      cases w with
      | nil =>
        rw [List.append_nil] at hw
        rw [hw] at ho
        rcases ho with ho | ho
        · exact absurd rfl ho
        · exact absurd (List.cons.inj ho).1 (by decide)
      | cons step w =>
        refine h.isSome_of_prefix (by rw [hw, hat]; rfl) hnil fun hplace => ?_
        have hl := congrArg List.length hw
        have hl' := congrArg List.length hplace
        simp [Trail.outline, volumePlace] at hl hl'
        omega
  · exact absurd (List.cons.inj hu).1 (by decide)

/-- **What findings are about keeps origins when ciphers are chosen**, but for volumes. -/
theorem anchored_choose {d : Draft} (h : Anchored (· = volumePlace) d) (origin : Trail) :
    Anchored (· = volumePlace) ⟨(choose origin [] d.value d.provenance).1,
      (choose origin [] d.value d.provenance).2, d.report⟩ :=
  choose_induction (fun _ h => h.toShaped) (fun _ _ _ _ h hat hg => anchored_choice h hat hg _) h

end Fips

end Provision
