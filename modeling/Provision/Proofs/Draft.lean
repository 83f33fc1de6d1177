import Provision.Merge
import Provision.Proofs.Ignition.Shape
import Provision.Proofs.Json.Put
import Provision.Proofs.Outline
import Provision.Proofs.Provenance

/-!
# Drafts that are sound

On its way a document always has the shape that machines know, and its provenance is complete. Each
thing that happens to it leaves it so.

* `Draft.Shaped`: the shape of a document on its way.
* `Draft.Sound`: its provenance is complete as well.
* `Draft.Holds`: a leaf of the source is somewhere in the document.
* `Draft.Shaped.put`, `Draft.Sound.put`, `Draft.Holds.put`: setting a node keeps them.
* `Draft.Grown.sound`, `Draft.Grown.holds`: so does all that may happen on the way.
* `Draft.nodes_push`, `Draft.nodes_modifyNode`: appending and changing concern nodes of one kind.
* `Draft.position?_eq_some`: a path leads to the first node that has it.
-/

set_option autoImplicit false

namespace Provision

/-- What leads further in a value that is covered has an origin. -/
theorem Provenance.Covers.isSome_of_prefix {p : Provenance} {x : Json} (h : p.Covers [] x)
    {q u : Trail} {step : Segment} (hx : (x.at? (q ++ step :: u)).isSome = true) (hq : q ≠ []) :
    (p.find? q).isSome = true := by
  rw [Json.at?_append, Option.isSome_iff_exists] at hx
  obtain ⟨y, hy⟩ := hx
  obtain ⟨c, hc, hy⟩ := Option.bind_eq_some_iff.mp hy
  obtain ⟨z, hz, -⟩ := Option.bind_eq_some_iff.mp hy
  exact (h q c hc (Json.not_isEmpty_of_child hz)).resolve_left hq

/-- **What is covered stays so when a node is set** that is covered, if what leads to it has
origins. -/
theorem Provenance.Covers.put {p p' : Provenance} {t : Trail} {x y : Json} (h : p.Covers [] x)
    (hroom : Json.HasRoom t x)
    (hgrows : ∀ q, (p.find? q).isSome = true → (p'.find? q).isSome = true) (hc : p'.Covers t y)
    (hway : ∀ u, u <+: t → u ≠ [] → u ≠ t → (p'.find? u).isSome = true) :
    p'.Covers [] (Json.put y t x) := by
  intro q z hz hne
  rw [List.nil_append]
  by_cases ht : t <+: q
  · obtain ⟨u, rfl⟩ := ht
    rw [Json.at?_put y hroom] at hz
    exact hc u z hz hne
  · rcases Json.at?_of_put hroom hz ht with hz | hq
    · exact (h q z hz hne).imp_right (hgrows _)
    · by_cases hnil : q = []
      · exact .inl hnil
      · exact .inr (hway q hq hnil fun he => ht (he ▸ List.prefix_refl _))

namespace Draft

/-- The outline of the places of encrypted volumes. -/
def volumePlace : Outline := [some "storage", some "luks", none]

/-- A document on its way has the shape that machines know, and its origins are in order. -/
structure Shaped (d : Draft) : Prop where
  distinct : d.value.isDistinct = true
  fits : Ignition.Config.shape.Fits d.value
  sorted : d.provenance.origins.Sorted

/-- The provenance of a document on its way is complete: every node with content has an origin, which
is a place that is known. Volumes have origins in any case. -/
structure Sound (known : Trail → Prop) (d : Draft) : Prop extends Shaped d where
  known : ∀ e ∈ d.provenance.origins, known e.2
  covers : d.provenance.Covers [] d.value
  volumes : ∀ q, q.outline = volumePlace → (d.value.at? q).isSome = true →
    (d.provenance.find? q).isSome = true

/-- A value from a place of the source is somewhere in the document, at an outline. -/
def Holds (d : Draft) (origin : Trail) (o : Outline) (x : Json) : Prop :=
  ∃ q : Trail, q.outline = o ∧ d.value.at? q = some x ∧ d.provenance.find? q = some origin

section Sound

variable {known places : Trail → Prop} {d : Draft}

/-- What was found on the way does not matter. -/
theorem Shaped.withReport (h : Shaped d) (report : Report) :
    Shaped ⟨d.value, d.provenance, report⟩ :=
  ⟨h.distinct, h.fits, h.sorted⟩

theorem Sound.withReport (h : Sound known d) (report : Report) :
    Sound known ⟨d.value, d.provenance, report⟩ :=
  ⟨h.toShaped.withReport report, h.known, h.covers, h.volumes⟩

theorem sound_empty (known : Trail → Prop) : Sound known .empty where
  distinct := rfl
  fits := Shape.fits_obj nofun
  sorted := List.Pairwise.nil
  known := nofun
  covers := Provenance.covers_of_isEmpty _ _ rfl
  volumes q hq hv := by
    cases q with
    | nil => cases hq
    | cons step q => cases step <;> cases hv

/-- What leads to a node with content has an origin. -/
theorem Sound.isSome_find? (h : Sound known d) {q : Trail} {x : Json}
    (hx : d.value.at? q = some x) (hne : x.isEmpty = false) (hq : q ≠ []) :
    (d.provenance.find? q).isSome = true := by
  have hc := h.covers q x hx hne
  rw [List.nil_append] at hc
  exact hc.resolve_left hq

/-- What leads further has an origin. -/
theorem Sound.isSome_of_prefix (h : Sound known d) {q u : Trail} {step : Segment}
    (hx : (d.value.at? (q ++ step :: u)).isSome = true) (hq : q ≠ []) :
    (d.provenance.find? q).isSome = true :=
  h.covers.isSome_of_prefix hx hq

/-- A document keeps its shape when a node is set that has the right one. -/
theorem Shaped.put (h : Shaped d) {t : Trail} {y : Json} {s : Shape} {p : Provenance}
    (hroom : Json.HasRoom t d.value) (hs : Ignition.Config.shape.at? t = some s) (hy : s.Fits y)
    (hd : y.isDistinct = true) (hgrows : d.provenance.Grows known places p) (report : Report) :
    Shaped ⟨Json.put y t d.value, p, report⟩ where
  distinct := Json.isDistinct_put hd t h.distinct
  fits := Shape.fits_put hroom (.inl h.fits) hs hy
  sorted := hgrows.sorted h.sorted

/-- **A document stays sound when a node is set** and origins are recorded for it and for what leads
to it. -/
theorem Sound.put (h : Sound known d) {t : Trail} {y : Json} {s : Shape} {p : Provenance}
    (hroom : Json.HasRoom t d.value) (hs : Ignition.Config.shape.at? t = some s) (hy : s.Fits y)
    (hd : y.isDistinct = true) (hgrows : d.provenance.Grows known places p) (hc : p.Covers t y)
    (hway : ∀ u, u <+: t → u ≠ [] → u ≠ t → (p.find? u).isSome = true)
    (hvolumes : ∀ u, (t ++ u).outline = volumePlace → (y.at? u).isSome = true →
      (p.find? (t ++ u)).isSome = true) (report : Report) :
    Sound known ⟨Json.put y t d.value, p, report⟩ where
  toShaped := h.toShaped.put hroom hs hy hd hgrows report
  known := hgrows.forall_known h.known
  covers := h.covers.put hroom hgrows.isSome hc hway
  volumes q hq hx := by
    by_cases ht : t <+: q
    · obtain ⟨u, rfl⟩ := ht
      rw [Json.at?_put y hroom] at hx
      exact hvolumes u hq hx
    · obtain ⟨x, hx⟩ := Option.isSome_iff_exists.mp hx
      rcases Json.at?_of_put hroom hx ht with hx | hp
      · exact hgrows.isSome _ (h.volumes q hq (by rw [hx]; rfl))
      · refine hway q hp ?_ fun he => ht (he ▸ List.prefix_refl _)
        rintro rfl
        cases hq

/-- **A leaf stays when a node is set that still has it**, if the leaf keeps its origin. -/
theorem Holds.put {origin t : Trail} {o : Outline} {x y : Json} {s : Shape} {p : Provenance}
    (h : Holds d origin o x) (hd : Shaped d) (hx : x.isScalar = true)
    (hroom : Json.HasRoom t d.value) (hs : Ignition.Config.shape.at? t = some s)
    (hgrows : d.provenance.Grows known places p)
    (hbeside : ∀ q : Trail, q.outline = o → d.value.at? q = some x →
      (d.provenance.find? q).isSome = true → (∀ u, q = t ++ u → y.at? u = some x) ∧ ¬places q)
    (report : Report) : Holds ⟨Json.put y t d.value, p, report⟩ origin o x := by
  obtain ⟨q, hq, hv, ho⟩ := h
  obtain ⟨ht, hp⟩ := hbeside q hq hv (by rw [ho]; rfl)
  refine ⟨q, hq, ?_, (hgrows.beside q hp).trans ho⟩
  by_cases hpre : t <+: q
  · obtain ⟨u, rfl⟩ := hpre
    exact (Json.at?_put y hroom u).trans (ht u rfl)
  · exact Shape.at?_put_of_leaf hroom hd.fits hs hv hx hpre

theorem Holds.withReport {origin : Trail} {o : Outline} {x : Json} (h : Holds d origin o x)
    (report : Report) : Holds ⟨d.value, d.provenance, report⟩ origin o x :=
  h

end Sound

/-! ## Setting a member -/

section Member

variable {known : Trail → Prop} {d : Draft} {q : Trail} {k : String} {c v : Json}

/-- A document keeps its shape when a member of a node is set that has the right one. -/
theorem Shaped.setMember (h : Shaped d) {origin : Trail} {s : Shape}
    (hc : d.value.at? q = some c) (hs : Ignition.Config.shape.at? (q.key k) = some s)
    (hv : s.Fits v) (hd : v.isDistinct = true) (report : Report) :
    Shaped ⟨Json.put v (q.key k) d.value, d.provenance.addValue origin (q.key k) v, report⟩ :=
  have hroom : Json.HasRoom (q ++ [.key k]) d.value := Json.hasRoom_append hc trivial
  h.put hroom hs hv hd (@Provenance.grows_addValue (fun _ => True) origin trivial _ _ v) report

/-- **A document stays sound when a member of a node is set**, all of which comes from one place. -/
theorem Sound.setMember (h : Sound known d) {origin : Trail} (ho : known origin) {s : Shape}
    (hc : d.value.at? q = some c) (hne : c.isEmpty = false) (hq : 3 ≤ q.length)
    (hs : Ignition.Config.shape.at? (q.key k) = some s) (hv : s.Fits v)
    (hd : v.isDistinct = true) (report : Report) :
    Sound known
      ⟨Json.put v (q.key k) d.value, d.provenance.addValue origin (q.key k) v, report⟩ := by
  have hgrows := @Provenance.grows_addValue known origin ho d.provenance (q.key k) v
  have hroom : Json.HasRoom (q ++ [.key k]) d.value := Json.hasRoom_append hc trivial
  refine h.put hroom hs hv hd hgrows (Provenance.covers_addValue _ _ _ _)
    (fun u hu hnil ht => hgrows.isSome _ ?_) (fun u hu _ => ?_) _
  · rcases List.prefix_concat_iff.mp hu with rfl | hu
    · exact absurd rfl ht
    · obtain ⟨w, rfl⟩ := hu
      cases w with
      | nil =>
        rw [List.append_nil] at hc
        exact h.isSome_find? hc hne hnil
      | cons step w => exact h.isSome_of_prefix (by rw [hc]; rfl) hnil
  · have hl := congrArg List.length hu
    simp [Trail.outline, volumePlace] at hl
    omega

/-- A leaf stays when a member of a node is set, if it is not in the member. -/
theorem Holds.setMember {origin source : Trail} {o : Outline} {x : Json} {s : Shape}
    (h : Holds d source o x) (hd : Shaped d) (hx : x.isScalar = true) (hc : d.value.at? q = some c)
    (hs : Ignition.Config.shape.at? (q.key k) = some s)
    (hk : ¬(q.key k).outline <+: o ∨ c.get? k = none) (report : Report) :
    Holds ⟨Json.put v (q.key k) d.value, d.provenance.addValue origin (q.key k) v, report⟩
      source o x := by
  have hroom : Json.HasRoom (q ++ [.key k]) d.value := Json.hasRoom_append hc trivial
  refine h.put hd hx hroom hs
    (@Provenance.grows_addValue (fun _ => True) origin trivial _ _ v) (fun q' hq' hx' _ => ?_) _
  have ht : ¬q.key k <+: q' := by
    rintro ⟨u, rfl⟩
    rcases hk with hk | hk
    · rw [Trail.outline_append] at hq'
      exact hk (hq' ▸ List.prefix_append _ _)
    · rw [Trail.key, List.append_assoc, Json.at?_append, hc, Option.bind_some] at hx'
      obtain ⟨y, hy, -⟩ := Option.bind_eq_some_iff.mp hx'
      cases hk.symm.trans hy
  exact ⟨fun u hu => absurd ⟨u, hu.symm⟩ ht, ht⟩

end Member

/-! ## Appending a node -/

section Push

variable {known : Trail → Prop} {d : Draft}

/-- The storage is an object, if there is one. -/
theorem storage_cases {x : Json} (h : Ignition.Config.shape.Fits x) :
    x.get? "storage" = none ∨ ∃ members, x.get? "storage" = some (.obj members) ∧
      Ignition.Storage.shape.Fits (.obj members) := by
  cases hx : x.get? "storage" with
  | none => exact .inl rfl
  | some c =>
    have hf : Ignition.Storage.shape.Fits c :=
      @Shape.Fits.child_of _ _ _ _ (.key "storage") h hx rfl
    obtain ⟨members, rfl⟩ := hf.eq_obj
    exact .inr ⟨members, rfl, hf⟩

/-- The shape of the nodes of a kind. -/
theorem shape_of_kind {kind : String} {s : Shape}
    (hs : Ignition.Storage.shape.child? (.key kind) = some (.list s)) (n : Nat) :
    Ignition.Config.shape.at? [.key "storage", .key kind, .index n] = some s := by
  rw [Shape.at?_cons]
  change (Ignition.Storage.shape.child? (.key kind)).bind _ = _
  rw [hs]
  rfl

/-- A document may list nodes of a kind: it is an object, and so is its storage and the list is a
list, if they are there. -/
structure Lists (kind : String) (x : Json) : Prop where
  root : ∃ members, x = .obj members
  storage : ∀ s, x.get? "storage" = some s → ∃ members, s = .obj members
  list : ∀ s list, x.get? "storage" = some s → s.get? kind = some list → ∃ items, list = .arr items

/-- A document of the right shape may list nodes of any kind. -/
theorem Shaped.lists (h : Shaped d) {kind : String} {s : Shape}
    (hs : Ignition.Storage.shape.child? (.key kind) = some (.list s)) : Lists kind d.value := by
  refine ⟨h.fits.eq_obj, fun c hc => ?_, fun c list hc hk => ?_⟩ <;>
    rcases storage_cases h.fits with hnone | ⟨members, hsome, hf⟩
  · cases hnone.symm.trans hc
  · cases hsome.symm.trans hc
    exact ⟨members, rfl⟩
  · cases hnone.symm.trans hc
  · cases hsome.symm.trans hc
    exact (@Shape.Fits.child_of _ _ _ _ (.key kind) hf hk hs).eq_arr

/-- **Appending a node sets it at the end of its list.** -/
theorem push_eq {kind : String} (h : Lists kind d.value) (origin : Trail) (node : Json) :
    ∃ n, Json.HasRoom [.key "storage", .key kind, .index n] d.value ∧
      d.value.at? [.key "storage", .key kind, .index n] = none ∧
      d.push origin kind node =
        ⟨Json.put node [.key "storage", .key kind, .index n] d.value,
          (addMissing origin [.key "storage", .key kind]
            (addMissing origin [.key "storage"] d.provenance)).addValue origin
              [.key "storage", .key kind, .index n] node, d.report⟩ := by
  obtain ⟨x, p, report⟩ := d
  obtain ⟨root, rfl⟩ := h.root
  cases hstorage : (Json.obj root).get? "storage" with
  | none =>
    refine ⟨0, ?_, ?_, ?_⟩
    · rw [Json.hasRoom_key, hstorage]
      exact ⟨Nat.le_refl _, trivial⟩
    · rw [Json.at?_cons, Json.child?, hstorage]
      rfl
    · have hl : Json.lookup "storage" root = none := hstorage
      rw [push]
      simp only [Json.members, hl, Option.getD_none, Json.put, Json.get?]
      rfl
  | some storage =>
    obtain ⟨members, rfl⟩ := h.storage storage hstorage
    have hl : Json.lookup "storage" root = some (.obj members) := hstorage
    cases hk : Json.lookup kind members with
    | none =>
      refine ⟨0, ?_, ?_, ?_⟩
      · have hk' : (Json.obj members).get? kind = none := hk
        rw [Json.hasRoom_key, hstorage, Option.getD_some, Json.hasRoom_key, hk']
        exact ⟨Nat.le_refl _, trivial⟩
      · simp [hl, hk]
      · rw [push]
        simp only [Json.members, hl, hk, Option.getD_none, Option.getD_some, Json.put, Json.get?]
        rfl
    | some list =>
      obtain ⟨items, rfl⟩ := h.list _ list hstorage hk
      refine ⟨items.length, ?_, ?_, ?_⟩
      · have hk' : (Json.obj members).get? kind = some (.arr items) := hk
        rw [Json.hasRoom_key, hstorage, Option.getD_some, Json.hasRoom_key, hk']
        exact ⟨Nat.le_refl _, trivial⟩
      · simp [hl, hk]
      · rw [push]
        simp only [Json.members, hl, hk, Option.getD_some, Json.put, Json.get?, Json.items?,
          Nat.lt_irrefl, if_false]
        rfl

/-- Only the new node, and what leads to it if it was without, gets an origin. -/
theorem grows_push {origin : Trail} (ho : known origin) (p : Provenance) (kind : String) (n : Nat)
    (node : Json) :
    p.Grows known (fun q => p.find? q = none ∨ [.key "storage", .key kind, .index n] <+: q)
      ((addMissing origin [.key "storage", .key kind]
        (addMissing origin [.key "storage"] p)).addValue origin
          [.key "storage", .key kind, .index n] node) := by
  have hstorage := Provenance.grows_addMissing ho p [.key "storage"]
  have hlist := Provenance.grows_addMissing ho (addMissing origin [.key "storage"] p)
    [.key "storage", .key kind]
  refine ((hstorage.mono fun q hq => .inl hq.2).trans (hlist.mono fun q hq => .inl ?_)).trans
    ((Provenance.grows_addValue ho _ _ node).mono fun q hq => .inr hq)
  cases hf : p.find? q with
  | none => rfl
  | some o =>
    have hsome := hstorage.isSome q (by rw [hf]; rfl)
    rw [hq.2] at hsome
    cases hsome

/-- What leads to the new node has origins. -/
theorem isSome_push (p : Provenance) (origin : Trail) (kind : String) (n : Nat) (node : Json)
    {u : Trail} (hu : u <+: [.key "storage", .key kind, .index n]) (hnil : u ≠ [])
    (ht : u ≠ [.key "storage", .key kind, .index n]) :
    (((addMissing origin [.key "storage", .key kind]
      (addMissing origin [.key "storage"] p)).addValue origin
        [.key "storage", .key kind, .index n] node).find? u).isSome = true := by
  have hvalue := @Provenance.grows_addValue (fun _ => True) origin trivial
    (addMissing origin [.key "storage", .key kind] (addMissing origin [.key "storage"] p))
    [.key "storage", .key kind, .index n] node
  have hlist := @Provenance.grows_addMissing (fun _ => True) origin trivial
    (addMissing origin [.key "storage"] p) [.key "storage", .key kind]
  match u with
  | [] => exact absurd rfl hnil
  | [a] =>
    cases List.cons_prefix_cons.mp hu |>.1
    exact hvalue.isSome _ (hlist.isSome _ (Provenance.isSome_addMissing _ _ _))
  | [a, b] =>
    obtain ⟨rfl, hb⟩ := List.cons_prefix_cons.mp hu
    cases List.cons_prefix_cons.mp hb |>.1
    exact hvalue.isSome _ (Provenance.isSome_addMissing _ _ _)
  | a :: b :: c :: u =>
    exact absurd (hu.eq_of_length_le (by simp)) ht

variable {kind : String} {s : Shape} {node : Json}

/-- A document keeps its shape when a node is appended that has the right one. -/
theorem Shaped.push (h : Shaped d) {origin : Trail}
    (hs : Ignition.Storage.shape.child? (.key kind) = some (.list s)) (hn : s.Fits node)
    (hd : node.isDistinct = true) : Shaped (d.push origin kind node) := by
  obtain ⟨n, hroom, -, heq⟩ := push_eq (h.lists hs) origin node
  rw [heq]
  exact h.put hroom (shape_of_kind hs n) hn hd
    (@grows_push (fun _ => True) origin trivial _ kind n node) _

/-- **A document stays sound when a node is appended.** -/
theorem Sound.push (h : Sound known d) {origin : Trail} (ho : known origin)
    (hs : Ignition.Storage.shape.child? (.key kind) = some (.list s)) (hn : s.Fits node)
    (hd : node.isDistinct = true) (hne : node.isEmpty = false) :
    Sound known (d.push origin kind node) := by
  obtain ⟨n, hroom, -, heq⟩ := push_eq (h.lists hs) origin node
  rw [heq]
  refine h.put hroom (shape_of_kind hs n) hn hd (grows_push ho _ _ _ _)
    (Provenance.covers_addValue _ _ _ _)
    (fun u hu hnil ht => isSome_push _ _ _ _ _ hu hnil ht) (fun u hu _ => ?_) _
  · cases u with
    | nil =>
      rw [List.append_nil]
      exact Provenance.isSome_addValue _ _ _ hne
    | cons => exact absurd (congrArg List.length hu) (by simp [Trail.outline, volumePlace])

/-- A leaf stays when a node is appended. -/
theorem Holds.push {origin source : Trail} {o : Outline} {x : Json} (h : Holds d source o x)
    (hd : Shaped d) (hx : x.isScalar = true)
    (hs : Ignition.Storage.shape.child? (.key kind) = some (.list s)) :
    Holds (d.push origin kind node) source o x := by
  obtain ⟨n, hroom, hnone, heq⟩ := push_eq (hd.lists hs) origin node
  rw [heq]
  refine h.put hd hx hroom (shape_of_kind hs n)
    (@grows_push (fun _ => True) origin trivial _ kind n node) (fun q _ hq hfind => ?_) _
  have ht : ¬[.key "storage", .key kind, .index n] <+: q := by
    rintro ⟨u, rfl⟩
    rw [Json.at?_append, hnone] at hq
    cases hq
  refine ⟨fun u hu => absurd ⟨u, hu.symm⟩ ht, ?_⟩
  rintro (hnone | hp)
  · rw [hnone] at hfind
    cases hfind
  · exact ht hp

end Push

/-! ## Nodes that are there -/

section Nodes

variable {d : Draft} {kind : String} {i : Nat} {c : Json}

theorem at?_of_nodes (h : (d.nodes kind)[i]? = some c) :
    d.value.at? [.key "storage", .key kind, .index i] = some c :=
  Json.at?_of_items h

/-- A node that has a path is there, and is not empty. -/
theorem node_of_position {path : String} (h : d.position? kind path = some i) :
    ∃ c, (d.nodes kind)[i]? = some c ∧ c.isEmpty = false := by
  obtain ⟨hi, hp, -⟩ := List.findIdx?_eq_some_iff_getElem.mp h
  refine ⟨_, List.getElem?_eq_getElem hi, ?_⟩
  obtain ⟨y, hy, -⟩ := Option.bind_eq_some_iff.mp (of_decide_eq_true hp)
  exact @Json.not_isEmpty_of_child (.key "path") _ y hy

/-- **Filling in a node sets what is filled in.** -/
theorem modifyNode_eq (hd : d.value.isDistinct = true)
    (hc : d.value.at? [.key "storage", .key kind, .index i] = some c)
    {f : Json → Json} {u : Trail} {y : Json} (hf : f c = Json.put y u c) :
    d.modifyNode kind i f =
      ⟨Json.put y ([.key "storage", .key kind, .index i] ++ u) d.value, d.provenance, d.report⟩ := by
  obtain ⟨storage, hs, hsc⟩ := Option.bind_eq_some_iff.mp hc
  obtain ⟨list, hk, hlc⟩ := Option.bind_eq_some_iff.mp hsc
  obtain ⟨c', hi, hic⟩ := Option.bind_eq_some_iff.mp hlc
  cases hic
  have hds := Json.isDistinct_of_child hd hs
  have hlist := Json.modifyItem_put hi hf
  have hstorage := Json.modify_put hds hk hlist
  rw [modifyNode, Json.modify_put hd hs hstorage]
  rfl

/-- Two changes of a node are one. -/
theorem modifyNode_modifyNode (d : Draft) (kind : String) (i : Nat) (f g : Json → Json) :
    (d.modifyNode kind i f).modifyNode kind i g = d.modifyNode kind i (g ∘ f) := by
  simp only [modifyNode, Json.modify_modify]
  congr 3
  funext x
  simp only [Function.comp, Json.modify_modify]
  congr 1
  funext x
  exact x.modifyItem_modifyItem i f g

end Nodes

/-! ## What may happen on the way -/

/-- The outline of the places of contents of files. -/
def contentsPlace : Outline := [some "storage", some "files", none, some "contents"]

/-- A document that another one becomes by appending nodes and by setting members of nodes, each from
a place that is known. Members that are there are kept, but contents of files are not. -/
inductive Grown (known : Trail → Prop) (d : Draft) : Draft → Prop where
  | refl : Grown known d d
  | report {d' : Draft} (h : Grown known d d') (report : Report) :
      Grown known d ⟨d'.value, d'.provenance, report⟩
  | push {d' : Draft} (h : Grown known d d') {origin : Trail} {kind : String} {node : Json}
      {s : Shape} (ho : known origin)
      (hs : Ignition.Storage.shape.child? (.key kind) = some (.list s)) (hn : s.Fits node)
      (hd : node.isDistinct = true) (hne : node.isEmpty = false) :
      Grown known d (d'.push origin kind node)
  | member {d' : Draft} (h : Grown known d d') {origin q : Trail} {k : String} {c v : Json}
      {s : Shape} (ho : known origin) (hc : d'.value.at? q = some c) (hne : c.isEmpty = false)
      (hq : 3 ≤ q.length) (hs : Ignition.Config.shape.at? (q.key k) = some s) (hv : s.Fits v)
      (hd : v.isDistinct = true) (hk : (q.key k).outline = contentsPlace ∨ c.get? k = none)
      (report : Report) :
      Grown known d
        ⟨Json.put v (q.key k) d'.value, d'.provenance.addValue origin (q.key k) v, report⟩

section Grown

variable {known : Trail → Prop} {d d' d'' : Draft}

theorem Grown.trans (h : Grown known d d') (h' : Grown known d' d'') : Grown known d d'' := by
  induction h' with
  | refl => exact h
  | report _ report ih => exact ih.report report
  | push _ ho hs hn hd hne ih => exact ih.push ho hs hn hd hne
  | member _ ho hc hne hq hs hv hd hk report ih => exact ih.member ho hc hne hq hs hv hd hk report

/-- What grows keeps its shape. -/
theorem Grown.shaped (h : Grown known d d') (hd : Shaped d) : Shaped d' := by
  induction h with
  | refl => exact hd
  | report _ report ih => exact ih.withReport report
  | push _ _ hs hn hd _ ih => exact ih.push hs hn hd
  | member _ _ hc _ _ hs hv hd _ report ih => exact ih.setMember hc hs hv hd report

/-- **What grows from a sound document is sound.** -/
theorem Grown.sound (h : Grown known d d') (hd : Sound known d) : Sound known d' := by
  induction h with
  | refl => exact hd
  | report _ report ih => exact ih.withReport report
  | push _ ho hs hn hd hne ih => exact ih.push ho hs hn hd hne
  | member _ ho hc hne hq hs hv hd _ report ih => exact ih.setMember ho hc hne hq hs hv hd report

/-- **What grows keeps its leaves**, but for contents of files. -/
theorem Grown.holds (h : Grown known d d') (hd : Shaped d) {source : Trail} {o : Outline}
    {x : Json} (hx : x.isScalar = true) (ho : ¬contentsPlace <+: o) (hh : Holds d source o x) :
    Holds d' source o x := by
  induction h with
  | refl => exact hh
  | report _ report ih => exact ih.withReport report
  | push h _ hs _ _ _ ih => exact ih.push (h.shaped hd) hx hs
  | member h _ hc _ _ hs _ _ hk report ih =>
    refine ih.setMember (h.shaped hd) hx hc hs (hk.imp_left fun hk => ?_) report
    rwa [hk]

/-- Several steps, each of which lets a document grow that has the right shape. -/
theorem grown_foldl {α : Type} {f : Draft → α → Draft} {entries : List α}
    (h : ∀ e ∈ entries, ∀ d, Shaped d → Grown known d (f d e)) (hd : Shaped d) :
    Grown known d (entries.foldl f d) := by
  induction entries generalizing d with
  | nil => exact .refl
  | cons e rest ih =>
    obtain ⟨he, hr⟩ := List.forall_mem_cons.mp h
    have hstep := he d hd
    exact hstep.trans (ih hr (hstep.shaped hd))

end Grown

end Draft

/-! ## The lists of the storage -/

namespace Json

/-- Changing a member concerns the members of its name. -/
theorem get?_modify_eq (x : Json) (k l : String) (f : Json → Json) :
    (x.modify k f).get? l = (x.get? l).map fun v => if l = k then f v else v := by
  cases x with
  | obj members =>
    rw [modify, get?, get?]
    induction members with
    | nil => rfl
    | cons e rest ih =>
      obtain ⟨m, v⟩ := e
      rw [lookup, lookup] at *
      rw [List.map_cons, List.lookup_cons, List.lookup_cons]
      by_cases h : l = m
      · subst h
        simp
      · rw [beq_eq_false_iff_ne.mpr h]
        exact ih
  | _ => rfl

end Json

namespace Draft

variable {d : Draft}

/-! ## Appending -/

/-- **A node that is appended is the last one of its kind**, and there are no other new ones. -/
theorem nodes_push {kind : String} (h : Lists kind d.value) (origin : Trail) (node : Json)
    (other : String) :
    (d.push origin kind node).nodes other =
      if other = kind then d.nodes kind ++ [node] else d.nodes other := by
  have hroot : d.value = .obj d.value.members := by
    obtain ⟨root, hroot⟩ := h.root
    rw [hroot]
    rfl
  -- The storage and the list of the kind are as they were, or empty.
  obtain ⟨members, hstorage, hlookup⟩ : ∃ members,
      (Json.lookup "storage" d.value.members).getD (.obj []) = .obj members ∧
        ∀ k, (d.value.get? "storage").bind (·.get? k) = Json.lookup k members := by
    rw [Json.lookup_members]
    cases hs : d.value.get? "storage" with
    | none => exact ⟨[], rfl, fun k => rfl⟩
    | some storage =>
      obtain ⟨members, rfl⟩ := h.storage storage hs
      exact ⟨members, rfl, fun k => rfl⟩
  obtain ⟨items, hitems⟩ : ∃ items, (Json.lookup kind members).getD (.arr []) = .arr items := by
    cases hk : Json.lookup kind members with
    | none => exact ⟨[], rfl⟩
    | some list =>
      obtain ⟨storage, hst, hl⟩ := Option.bind_eq_some_iff.mp ((hlookup kind).trans hk)
      obtain ⟨items, rfl⟩ := h.list storage list hst hl
      exact ⟨items, rfl⟩
  have hnodes : d.nodes kind = items := by
    rw [nodes, hlookup]
    cases hk : Json.lookup kind members with
    | none =>
      rw [hk] at hitems
      cases hitems
      rfl
    | some list =>
      rw [hk] at hitems
      cases hitems
      rfl
  rw [push]
  simp only [hstorage, hitems]
  rw [nodes, Json.get?, Json.lookup_insert, Option.bind_some, Json.get?]
  split
  · next heq =>
    rw [heq, Json.lookup_insert, hnodes]
    rfl
  · next hne => rw [Json.lookup_insert_of_ne hne, ← hlookup, nodes]

@[simp] theorem report_push (d : Draft) (origin : Trail) (kind : String) (node : Json) :
    (d.push origin kind node).report = d.report := by
  rw [push]
  split
  · split <;> rfl
  · rfl

/-! ## Changing -/

/-- **Changing a node concerns the node at its position alone.** -/
theorem nodes_modifyNode (d : Draft) (kind other : String) (i : Nat) (f : Json → Json) :
    (d.modifyNode kind i f).nodes other =
      if other = kind then (d.nodes kind).modify i f else d.nodes other := by
  rw [modifyNode, nodes, Json.get?_modify_eq]
  simp only [if_true]
  cases hs : d.value.get? "storage" with
  | none => simp [nodes, hs]
  | some storage =>
    rw [Option.map_some, Option.bind_some, Json.get?_modify_eq]
    split
    · next heq =>
      subst heq
      cases hk : storage.get? other with
      | none => simp [nodes, hs, hk]
      | some list => cases list <;> simp [nodes, hs, hk, Json.modifyItem, Json.items?]
    · simp [nodes, hs]

/-- The same for a node that is known to be between others. -/
theorem nodes_modifyNode_between {kind : String} {before after : List Json} {node : Json}
    (h : d.nodes kind = before ++ node :: after) (f : Json → Json) :
    (d.modifyNode kind before.length f).nodes kind = before ++ f node :: after := by
  have hnode : (before ++ node :: after)[before.length]? = some node := by simp
  rw [nodes_modifyNode, if_pos rfl, h, List.modify_eq_set, hnode,
    List.set_append_right _ _ (Nat.le_refl _), Nat.sub_self]
  rfl

/-! ## Paths -/

/-- The first node with a path. -/
def firstAt? (path : String) (nodes : List Json) : Option Json :=
  nodes.find? fun node => Merge.textAt "path" node = some path

theorem firstAt?_cons (path : String) (node : Json) (nodes : List Json) :
    firstAt? path (node :: nodes) =
      if Merge.textAt "path" node = some path then some node else firstAt? path nodes := by
  rw [firstAt?, List.find?_cons]
  by_cases h : Merge.textAt "path" node = some path <;> simp [h, firstAt?]

theorem firstAt?_append (path : String) (nodes nodes' : List Json) :
    firstAt? path (nodes ++ nodes') = (firstAt? path nodes).or (firstAt? path nodes') :=
  List.find?_append

theorem firstAt?_eq_none {path : String} {nodes : List Json} :
    firstAt? path nodes = none ↔ ∀ node ∈ nodes, Merge.textAt "path" node ≠ some path := by
  simp [firstAt?]

/-- **The node with a path is the first one** that has the path. -/
theorem position?_eq_some {kind path : String} {i : Nat} (h : d.position? kind path = some i) :
    ∃ before node after, d.nodes kind = before ++ node :: after ∧ before.length = i ∧
      (∀ x ∈ before, Merge.textAt "path" x ≠ some path) ∧
        Merge.textAt "path" node = some path := by
  obtain ⟨hi, hp, hbefore⟩ := List.findIdx?_eq_some_iff_getElem.mp h
  refine ⟨(d.nodes kind).take i, (d.nodes kind)[i], (d.nodes kind).drop (i + 1), ?_,
    List.length_take_of_le (Nat.le_of_lt hi), fun x hx => ?_, of_decide_eq_true hp⟩
  · rw [List.getElem_cons_drop, List.take_append_drop]
  · obtain ⟨j, hj, rfl⟩ := List.getElem_of_mem hx
    rw [List.length_take] at hj
    rw [List.getElem_take]
    exact fun heq => hbefore j (by omega) (decide_eq_true heq)

theorem position?_eq_none {kind path : String} (h : d.position? kind path = none) :
    ∀ x ∈ d.nodes kind, Merge.textAt "path" x ≠ some path := by
  intro x hx
  exact of_decide_eq_false (List.findIdx?_eq_none_iff.mp h x hx)

end Draft

end Provision
