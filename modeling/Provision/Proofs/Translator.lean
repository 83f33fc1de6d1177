import Provision.Proofs.Json.Put
import Provision.Proofs.Outline
import Provision.Proofs.Provenance
import Provision.Translator

/-!
# What a translation keeps track of

A document that is written in full is translated key by key. All that is made has an origin, each
origin is a place that is known, and a leaf of the document is under its new names in what is made,
with the leaf as its origin, unless something says otherwise on the way to it.

* `Translator.Traced`: what is promised of a part that is made.
* `Translator.Simulation`: how the shape of what is made follows from the shape of the document, and
  what rules have to promise.
* `Translator.traced_translateAt`: the translation keeps the promise.
-/

set_option autoImplicit false

namespace Provision.Translator

/-- A step under its new name. -/
def renameStep (t : Translator) : Segment → Segment
  | .key k => .key (t.nameOf k)
  | .index i => .index i

/-- A trail under its new names. -/
def rename (t : Translator) (u : Trail) : Trail := u.map t.renameStep

@[simp] theorem rename_nil (t : Translator) : t.rename [] = [] := rfl

@[simp] theorem rename_cons (t : Translator) (s : Segment) (u : Trail) :
    t.rename (s :: u) = t.renameStep s :: t.rename u := rfl

/-- What stands for a part in a list. -/
def made (x : Json) (m : Translated (Option Json)) : Json := m.value.getD (vacant x)

section Promises

variable (t : Translator) (known plain : Trail → Prop)

/-- Every leaf with content, if it is a plain one, is under its new names in what is made of it, and
has the leaf as its origin. -/
def Carries (origin place : Trail) (x v : Json) (p : Provenance) : Prop :=
  ∀ u z, x.at? u = some z → z.isScalar = true → z.isEmpty = false → plain (origin ++ u) →
    v.at? (t.rename u) = some z ∧ p.find? (place ++ t.rename u) = some (origin ++ u)

/-- Nothing is made of nothing: every node that is made is a node of the document under its new
names, or is below one that has a rule. -/
def Returns (origin : Trail) (x v : Json) : Prop :=
  ∀ q, (v.at? q).isSome = true → ∃ u, (x.at? u).isSome = true ∧
    (t.rename u = q ∨ (t.rename u <+: q ∧ (t.rule? (origin ++ u)).isSome = true))

/-- What is promised of a part that is made: it is of a shape and all of it has an origin. -/
structure Traced (s : Shape) (origin place : Trail) (x : Json) (m : Translated (Option Json)) :
    Prop where
  sorted : m.provenance.origins.Sorted
  origins : ∀ e ∈ m.provenance.origins, place <+: e.1 ∧ known e.2
  content : ∀ v, m.value = some v → v.isEmpty = false
  vacant : m.value = none → (vacant x).isEmpty = true
  distinct : (made x m).isDistinct = true
  fits : s.Fits (made x m)
  covers : m.provenance.Covers place (made x m)
  carries : Carries t plain origin place x (made x m) m.provenance
  returns : Returns t origin x (made x m)

end Promises

section Walk

variable {t : Translator} {known plain : Trail → Prop}

/-! ## A value at its place -/

/-- A part is traced if all that is below it is. -/
theorem traced_written {s : Shape} {origin place : Trail} {x : Json} {r : Translated Json}
    (hknown : known origin) (hsorted : r.provenance.origins.Sorted)
    (horigins : ∀ e ∈ r.provenance.origins, place <+: e.1 ∧ known e.2)
    (hvacant : r.value.isEmpty = true → (vacant x).isEmpty = true ∧ s.Fits (vacant x))
    (hdistinct : r.value.isDistinct = true) (hfits : s.Fits r.value)
    (hcovers : ∀ step y, r.value.child? step = some y → r.provenance.Covers (place ++ [step]) y)
    (hcarries : ∀ u z, x.at? u = some z → z.isScalar = true → z.isEmpty = false →
      plain (origin ++ u) → r.value.at? (t.rename u) = some z ∧
        ((u = [] ∧ place ≠ []) ∨
          (u ≠ [] ∧ r.provenance.find? (place ++ t.rename u) = some (origin ++ u))))
    (hreturns : ∀ step q, (r.value.at? (step :: q)).isSome = true → ∃ u,
      (x.at? u).isSome = true ∧ (t.rename u = step :: q ∨
        (t.rename u <+: step :: q ∧ (t.rule? (origin ++ u)).isSome = true))) :
    Traced t known plain s origin place x (written origin place r) := by
  have hleaf : ∀ {u z}, x.at? u = some z → z.isEmpty = false → plain (origin ++ u) →
      z.isScalar = true → r.value.isEmpty = false := by
    intro u z hz hne hp hs
    have hv := (hcarries u z hz hs hne hp).1
    cases he : r.value.isEmpty with
    | false => rfl
    | true =>
      rw [Json.isEmpty_of_at he hv] at hne
      cases hne
  rw [written]
  split
  · next he =>
    obtain ⟨hv, hf⟩ := hvacant he
    refine ⟨hsorted, horigins, nofun, fun _ => hv, ?_, hf, Provenance.covers_of_isEmpty _ _ hv, ?_,
      fun q hq => ?_⟩
    · exact Json.isDistinct_of_isEmpty hv
    · intro u z hz hs hne hp
      rw [hleaf hz hne hp hs] at he
      cases he
    · cases q with
      | nil => exact ⟨[], rfl, .inl rfl⟩
      | cons step q =>
        obtain ⟨y, hy⟩ := Option.isSome_iff_exists.mp hq
        obtain ⟨c, hc, -⟩ := Option.bind_eq_some_iff.mp hy
        have hc : (vacant x).child? step = some c := hc
        have hv' := Json.not_isEmpty_of_child hc
        rw [hv] at hv'
        cases hv'
  · next he =>
    have hgrows : Provenance.Grows known (· = place) r.provenance
        (if place.isEmpty then r.provenance else r.provenance.add origin place) := by
      split
      · exact .refl _ _ _
      · exact Provenance.grows_add hknown _ _
    refine ⟨hgrows.sorted hsorted, fun e hm => ?_, ?_, nofun, hdistinct, hfits, ?_, ?_, fun q hq => ?_⟩
    · rcases hgrows.mem e hm with hm | ⟨hp, ho⟩
      · exact horigins e hm
      · exact ⟨hp ▸ List.prefix_refl _, ho⟩
    · rintro v ⟨⟩
      simpa using he
    · refine (Provenance.covers_iff _ _ _).mpr ⟨fun _ => ?_, fun step y hy => ?_⟩
      · split
        · next hp => exact .inl (List.isEmpty_iff.mp hp)
        · exact .inr (by rw [Provenance.find?_add]; rfl)
      · exact hgrows.covers (hcovers step y hy)
    · intro u z hz hs hne hp
      obtain ⟨hv, ho⟩ := hcarries u z hz hs hne hp
      refine ⟨hv, ?_⟩
      rcases ho with ⟨rfl, hplace⟩ | ⟨hu, ho⟩
      · rw [if_neg (by simpa using hplace), rename_nil, List.append_nil, List.append_nil]
        exact Provenance.find?_add _ _ _
      · rw [hgrows.beside _ fun h => ?_]
        · exact ho
        · cases u with
          | nil => exact hu rfl
          | cons => simp at h
    · cases q with
      | nil => exact ⟨[], rfl, .inl rfl⟩
      | cons step q => exact hreturns step q hq

/-- What is made by a rule may be anything. -/
theorem returns_of_rule {origin : Trail} (hrule : (t.rule? origin).isSome = true) (x v : Json) :
    Returns t origin x v :=
  fun q _ => ⟨[], rfl, .inr ⟨List.nil_prefix, by rwa [List.append_nil]⟩⟩

/-- What is below a node of the document returns to it. -/
theorem returns_cons {origin : Trail} {x y v : Json} {step : Segment} {q : Trail}
    (hy : x.child? step = some y) (h : Returns t (origin ++ [step]) y v)
    (hq : (v.at? q).isSome = true) :
    ∃ u, (x.at? u).isSome = true ∧ (t.rename u = t.renameStep step :: q ∨
      (t.rename u <+: t.renameStep step :: q ∧ (t.rule? (origin ++ u)).isSome = true)) := by
  obtain ⟨u, hu, hr⟩ := h q hq
  refine ⟨step :: u, by rwa [Json.at?_cons_of_child hy], ?_⟩
  rw [rename_cons]
  rcases hr with hr | ⟨hp, hr⟩
  · exact .inl (hr ▸ rfl)
  · rw [List.append_assoc] at hr
    exact .inr ⟨List.cons_prefix_cons.mpr ⟨rfl, hp⟩, hr⟩

/-! ## Items -/

/-- What is promised of items from a position on. -/
structure TracedItems (t : Translator) (known plain : Trail → Prop) (s : Shape)
    (origin place : Trail) (position : Nat) (items : List Json) (r : Translated (List Json)) :
    Prop where
  length : r.value.length = items.length
  sorted : r.provenance.origins.Sorted
  origins : ∀ e ∈ r.provenance.origins,
    (∃ i, position ≤ i ∧ place.index i <+: e.1) ∧ known e.2
  item : ∀ (i : Nat) x v, items[i]? = some x → r.value[i]? = some v →
    v.isDistinct = true ∧ s.Fits v ∧ r.provenance.Covers (place.index (position + i)) v ∧
      Carries t plain (origin.index (position + i)) (place.index (position + i)) x v r.provenance ∧
        Returns t (origin.index (position + i)) x v

theorem tracedItems_nil (s : Shape) (origin place : Trail) (position : Nat) :
    TracedItems t known plain s origin place position [] ⟨[], {}, []⟩ :=
  ⟨rfl, List.Pairwise.nil, nofun, nofun⟩

theorem index_ne_of_prefix {place q u : Trail} {i j : Nat} (h : place.index i <+: q)
    (hij : i ≠ j) : q ≠ place.index j ++ u := by
  rintro rfl
  obtain ⟨v, hv⟩ := h
  rw [Trail.index, Trail.index, List.append_assoc, List.append_assoc,
    List.append_cancel_left_eq] at hv
  cases hv
  exact hij rfl

theorem tracedItems_cons {s : Shape} {origin place : Trail} {position : Nat} {x : Json}
    {rest : List Json} {m : Translated (Option Json)} {r : Translated (List Json)}
    (hm : Traced t known plain s (origin.index position) (place.index position) x m)
    (hr : TracedItems t known plain s origin place (position + 1) rest r) (report : Report) :
    TracedItems t known plain s origin place position (x :: rest)
      ⟨made x m :: r.value, m.provenance.merge r.provenance, report⟩ := by
  have hgrows : Provenance.Grows known (fun q => ∃ i, position + 1 ≤ i ∧ place.index i <+: q)
      m.provenance (m.provenance.merge r.provenance) :=
    Provenance.grows_merge _ hr.sorted hr.origins
  refine ⟨by rw [List.length_cons, List.length_cons, hr.length], hgrows.sorted hm.sorted,
    fun e he => ?_, fun i y v hy hv => ?_⟩
  · rcases hgrows.mem e he with he | ⟨⟨i, hi, hp⟩, ho⟩
    · exact ⟨⟨position, Nat.le_refl _, (hm.origins e he).1⟩, (hm.origins e he).2⟩
    · exact ⟨⟨i, by omega, hp⟩, ho⟩
  · cases i with
    | zero =>
      cases hy
      cases hv
      refine ⟨hm.distinct, hm.fits, hgrows.covers hm.covers, fun u z hz hs hne hp => ?_, hm.returns⟩
      obtain ⟨hv, ho⟩ := hm.carries u z hz hs hne hp
      refine ⟨hv, (hgrows.beside _ ?_).trans ho⟩
      rintro ⟨i, hi, hp⟩
      exact index_ne_of_prefix hp (by omega) rfl
    | succ i =>
      have hi : position + (i + 1) = position + 1 + i := by omega
      obtain ⟨hd, hf, hc, hcarries, hreturns⟩ := hr.item i y v hy hv
      rw [hi]
      refine ⟨hd, hf, Provenance.covers_merge_right _ hr.sorted hc, fun u z hz hs hne hp => ?_,
        hreturns⟩
      obtain ⟨hv, ho⟩ := hcarries u z hz hs hne hp
      refine ⟨hv, ?_⟩
      rw [Provenance.find?_merge _ hr.sorted, ho]
      rfl

theorem tracedItems_walk {s : Shape} {origin place : Trail} {position : Nat} {items : List Json}
    (h : ∀ (i : Nat) x, items[i]? = some x →
      Traced t known plain s (origin.index (position + i)) (place.index (position + i)) x
        (t.translateAt (origin.index (position + i)) (place.index (position + i)) x)) :
    TracedItems t known plain s origin place position items
      (t.walkItems origin place position items) := by
  induction items generalizing position with
  | nil => exact tracedItems_nil s origin place position
  | cons x rest ih =>
    refine tracedItems_cons (h 0 x rfl) (ih fun i y hy => ?_) _
    rw [show position + 1 + i = position + (i + 1) by omega]
    exact h (i + 1) y hy

/-- **A list is traced if its items are.** -/
theorem TracedItems.written {s : Shape} {origin place : Trail} {items : List Json}
    {r : Translated (List Json)} (hr : TracedItems t known plain s origin place 0 items r)
    (hknown : known origin) :
    Traced t known plain (.list s) origin place (.arr items) (written origin place (r.map .arr)) := by
  have hitem : ∀ (i : Nat) v, r.value[i]? = some v →
      ∃ y, items[i]? = some y := by
    intro i v hv
    have hi := (List.getElem?_eq_some_iff.mp hv).1
    rw [hr.length] at hi
    exact ⟨_, List.getElem?_eq_getElem hi⟩
  refine traced_written hknown hr.sorted (fun e he => ?_) (fun he => ?_) ?_ ?_
    (fun step v hv => ?_) (fun u z hz hs hne hp => ?_) fun step q hq => ?_
  · obtain ⟨⟨i, -, hp⟩, hk⟩ := hr.origins e he
    exact ⟨(Provenance.prefix_index _ _).trans hp, hk⟩
  · have hempty := List.isEmpty_iff.mp he
    have hlength := hr.length
    rw [hempty] at hlength
    cases items with
    | nil => exact ⟨rfl, Shape.fits_list nofun⟩
    | cons => cases hlength
  · refine Json.isDistinct_arr.mpr fun v hv => ?_
    obtain ⟨i, hi⟩ := List.mem_iff_getElem?.mp hv
    obtain ⟨y, hy⟩ := hitem i v hi
    exact (hr.item i y v hy hi).1
  · refine Shape.fits_list fun v hv => ?_
    obtain ⟨i, hi⟩ := List.mem_iff_getElem?.mp hv
    obtain ⟨y, hy⟩ := hitem i v hi
    exact (hr.item i y v hy hi).2.1
  · cases step with
    | key => cases hv
    | index i =>
      obtain ⟨y, hy⟩ := hitem i v hv
      have hc := (hr.item i y v hy hv).2.2.1
      rwa [Nat.zero_add] at hc
  · cases u with
    | nil => cases hz; cases hs
    | cons step u =>
      cases step with
      | key => cases hz
      | index i =>
        obtain ⟨y, hy, hyz⟩ := Option.bind_eq_some_iff.mp hz
        have hlt : i < r.value.length := by
          rw [hr.length]
          exact (List.getElem?_eq_some_iff.mp hy).1
        have hv := List.getElem?_eq_getElem hlt
        have hcarries := (hr.item i y _ hy hv).2.2.2.1
        rw [Nat.zero_add] at hcarries
        rw [List.append_cons] at hp
        obtain ⟨hvz, hfind⟩ := hcarries u z hyz hs hne hp
        refine ⟨?_, .inr ⟨List.cons_ne_nil _ _, ?_⟩⟩
        · exact (@Json.at?_cons_of_child (.index i) (.arr _) _ hv (t.rename u)).trans hvz
        · rw [rename_cons, List.append_cons, List.append_cons origin]
          exact hfind
  · obtain ⟨z, hz⟩ := Option.isSome_iff_exists.mp hq
    obtain ⟨v, hv, hvz⟩ := Option.bind_eq_some_iff.mp hz
    cases step with
    | key => cases hv
    | index i =>
      obtain ⟨y, hy⟩ := hitem i v hv
      have hreturns := (hr.item i y v hy hv).2.2.2.2
      rw [Nat.zero_add] at hreturns
      exact @returns_cons t origin (.arr items) y v (.index i) q hy hreturns (by rw [hvz]; rfl)

/-! ## Members -/

/-- What is promised of the members that are made of some members. -/
structure TracedMembers (t : Translator) (known plain : Trail → Prop)
    (fields : List (String × Shape)) (origin place : Trail) (members : List (String × Json))
    (done : Translated (List (String × Json))) : Prop where
  nodup : (done.value.map Prod.fst).Nodup
  sorted : done.provenance.origins.Sorted
  origins : ∀ e ∈ done.provenance.origins, (∃ m ∈ members,
    t.isSkipped (origin.key m.1) = false ∧ place.key (t.nameOf m.1) <+: e.1) ∧ known e.2
  member : ∀ m ∈ done.value, m.2.isDistinct = true ∧
    (∃ s, fields.lookup m.1 = some s ∧ s.Fits m.2) ∧
      done.provenance.Covers (place.key m.1) m.2 ∧
        ∃ e ∈ members, t.nameOf e.1 = m.1 ∧ Returns t (origin.key e.1) e.2 m.2
  carries : ∀ k x, (k, x) ∈ members → ∀ u z, x.at? u = some z → z.isScalar = true →
    z.isEmpty = false → plain (origin.key k ++ u) →
      ∃ v, Json.lookup (t.nameOf k) done.value = some v ∧ v.at? (t.rename u) = some z ∧
        done.provenance.find? (place.key (t.nameOf k) ++ t.rename u) = some (origin.key k ++ u)

theorem key_ne_of_prefix {place q u : Trail} {k l : String} (h : place.key k <+: q)
    (hkl : k ≠ l) : q ≠ place.key l ++ u := by
  rintro rfl
  obtain ⟨v, hv⟩ := h
  rw [Trail.key, Trail.key, List.append_assoc, List.append_assoc,
    List.append_cancel_left_eq] at hv
  cases hv
  exact hkl rfl

section Members

variable {fields : List (String × Shape)} {origin place : Trail} {members : List (String × Json)}
  {done : Translated (List (String × Json))} {k : String} {x : Json}

/-- A member that is left out changes nothing, as no leaf in it is plain. -/
theorem TracedMembers.skip (h : TracedMembers t known plain fields origin place members done)
    (hplain : ∀ k u, plain (origin.key k ++ u) → t.isSkipped (origin.key k) = false)
    (hskip : t.isSkipped (origin.key k) = true) :
    TracedMembers t known plain fields origin place (members ++ [(k, x)]) done where
  nodup := h.nodup
  sorted := h.sorted
  origins e he := by
    obtain ⟨⟨m, hm, hp⟩, ho⟩ := h.origins e he
    exact ⟨⟨m, List.mem_append_left _ hm, hp⟩, ho⟩
  member m hm := by
    obtain ⟨hd, hf, hc, e, he, hr⟩ := h.member m hm
    exact ⟨hd, hf, hc, e, List.mem_append_left _ he, hr⟩
  carries l y hy u z hz hs hne hp := by
    rcases List.mem_append.mp hy with hy | hy
    · exact h.carries l y hy u z hz hs hne hp
    · cases List.mem_singleton.mp hy
      rw [hplain k u hp] at hskip
      cases hskip

/-- A member of a new name is put to those that are there. -/
theorem TracedMembers.step {s : Shape} {m : Translated (Option Json)}
    (h : TracedMembers t known plain fields origin place members done)
    (hplain : ∀ k u, plain (origin.key k ++ u) → t.isSkipped (origin.key k) = false)
    (hskip : t.isSkipped (origin.key k) = false) (hs : fields.lookup (t.nameOf k) = some s)
    (hm : Traced t known plain s (origin.key k) (place.key (t.nameOf k)) x m)
    (hnew : ∀ e ∈ members, t.isSkipped (origin.key e.1) = false → t.nameOf e.1 ≠ t.nameOf k)
    (report : Report) :
    TracedMembers t known plain fields origin place (members ++ [(k, x)])
      ⟨match m.value with
        | some v => if v.isEmpty then done.value else Json.insert (t.nameOf k) v done.value
        | none => done.value,
      done.provenance.merge m.provenance, report⟩ := by
  have hgrows : Provenance.Grows known (place.key (t.nameOf k) <+: ·) done.provenance
      (done.provenance.merge m.provenance) :=
    Provenance.grows_merge _ hm.sorted hm.origins
  -- The members are those that were there, and the one that is made, if any.
  obtain ⟨value, hvalue, hmem, hlookup, hnodup, hold⟩ : ∃ value, value =
      (match m.value with
        | some v => if v.isEmpty then done.value else Json.insert (t.nameOf k) v done.value
        | none => done.value) ∧
      (∀ e ∈ value, (e.1 = t.nameOf k ∧ e.2 = made x m) ∨ e ∈ done.value) ∧
      ((made x m).isEmpty = false → Json.lookup (t.nameOf k) value = some (made x m)) ∧
      (value.map Prod.fst).Nodup ∧
      ∀ n, n ≠ t.nameOf k → Json.lookup n value = Json.lookup n done.value := by
    cases hv : m.value with
    | none =>
      refine ⟨_, rfl, fun e he => .inr he, fun hne => ?_, h.nodup, fun _ _ => rfl⟩
      rw [made, hv, Option.getD_none, hm.vacant hv] at hne
      cases hne
    | some v =>
      have hmade : made x m = v := by rw [made, hv]; rfl
      rw [hmade]
      refine ⟨_, rfl, fun e he => ?_, fun _ => ?_, ?_, fun n hn => ?_⟩ <;>
        simp only [hm.content v hv, Bool.false_eq_true, if_false] at *
      · rcases Json.mem_insert he with rfl | he
        · exact .inl ⟨rfl, rfl⟩
        · exact .inr he
      · exact Json.lookup_insert _ _ _
      · exact Json.nodup_insert _ _ h.nodup
      · exact Json.lookup_insert_of_ne hn _ _
  rw [← hvalue]
  refine ⟨hnodup, hgrows.sorted h.sorted, fun e he => ?_, fun e he => ?_, ?_⟩
  · rcases hgrows.mem e he with he | ⟨hp, ho⟩
    · obtain ⟨⟨e', hm, hp⟩, ho⟩ := h.origins e he
      exact ⟨⟨e', List.mem_append_left _ hm, hp⟩, ho⟩
    · exact ⟨⟨(k, x), List.mem_append_right _ List.mem_cons_self, hskip, hp⟩, ho⟩
  · rcases hmem e he with ⟨hk, hv⟩ | he
    · rw [hk, hv]
      exact ⟨hm.distinct, ⟨s, hs, hm.fits⟩, Provenance.covers_merge_right _ hm.sorted hm.covers,
        (k, x), List.mem_append_right _ List.mem_cons_self, rfl, hm.returns⟩
    · obtain ⟨hd, hf, hc, e', he', hr⟩ := h.member e he
      exact ⟨hd, hf, hgrows.covers hc, e', List.mem_append_left _ he', hr⟩
  · intro l y hy u z hz hs hne hp
    rcases List.mem_append.mp hy with hy | hy
    · obtain ⟨v, hv, hvz, ho⟩ := h.carries l y hy u z hz hs hne hp
      have hname := hnew _ hy (hplain l u hp)
      refine ⟨v, (hold _ hname).trans hv, hvz, (hgrows.beside _ fun hq => ?_).trans ho⟩
      exact key_ne_of_prefix hq (Ne.symm hname) rfl
    · cases List.mem_singleton.mp hy
      obtain ⟨hv, ho⟩ := hm.carries u z hz hs hne hp
      refine ⟨made x m, hlookup ?_, hv, ?_⟩
      · cases he : (made x m).isEmpty with
        | false => rfl
        | true =>
          rw [Json.isEmpty_of_at he hv] at hne
          cases hne
      · rw [Provenance.find?_merge _ hm.sorted, ho]
        rfl

theorem tracedMembers_walk {rest : List (String × Json)}
    (h : TracedMembers t known plain fields origin place members done)
    (hplain : ∀ k u, plain (origin.key k ++ u) → t.isSkipped (origin.key k) = false)
    (hmade : ∀ e ∈ rest, t.isSkipped (origin.key e.1) = false →
      ∃ s, fields.lookup (t.nameOf e.1) = some s ∧
        Traced t known plain s (origin.key e.1) (place.key (t.nameOf e.1)) e.2
          (t.translateAt (origin.key e.1) (place.key (t.nameOf e.1)) e.2))
    (hnew : (members ++ rest).Pairwise fun e e' => t.isSkipped (origin.key e.1) = false →
      t.isSkipped (origin.key e'.1) = false → t.nameOf e.1 ≠ t.nameOf e'.1) :
    TracedMembers t known plain fields origin place (members ++ rest)
      (t.walkMembers origin place rest done) := by
  induction rest generalizing members done with
  | nil => rwa [List.append_nil]
  | cons e rest ih =>
    obtain ⟨k, x⟩ := e
    obtain ⟨hmk, hmr⟩ := List.forall_mem_cons.mp hmade
    rw [List.append_cons] at hnew ⊢
    rw [walkMembers]
    split
    · next hskip => exact ih (h.skip hplain hskip) hmr hnew
    · next hskip =>
      have hskip : t.isSkipped (origin.key k) = false := by simpa using hskip
      obtain ⟨s, hs, hm⟩ := hmk hskip
      refine ih (h.step hplain hskip hs hm (fun e he hse => ?_) _) hmr hnew
      exact (List.pairwise_append.mp (List.pairwise_append.mp hnew).1).2.2 e he (k, x)
        List.mem_cons_self hse hskip

/-- **An object is traced if its members are.** -/
theorem TracedMembers.written (hd : TracedMembers t known plain fields origin place members done)
    (hknown : known origin) (hmem : (members.map Prod.fst).Nodup) :
    Traced t known plain (.record fields) origin place (.obj members)
      (written origin place (done.map .obj)) := by
  refine traced_written hknown hd.sorted (fun e he => ?_) (fun _ => ?_) ?_ ?_
    (fun step v hv => ?_) (fun u z hz hs hne hp => ?_) fun step q hq => ?_
  · obtain ⟨⟨m, -, -, hp⟩, hk⟩ := hd.origins e he
    exact ⟨(Provenance.prefix_key _ _).trans hp, hk⟩
  · exact ⟨rfl, Shape.fits_obj nofun⟩
  · exact Json.isDistinct_obj.mpr ⟨hd.nodup, fun e he => (hd.member e he).1⟩
  · exact Shape.fits_obj fun e he => (hd.member e he).2.1
  · cases step with
    | index => cases hv
    | key k => exact (hd.member (k, v) (Json.mem_of_lookup hv)).2.2.1
  · cases u with
    | nil => cases hz; cases hs
    | cons step u =>
      cases step with
      | index => cases hz
      | key k =>
        obtain ⟨y, hy, hyz⟩ := Option.bind_eq_some_iff.mp hz
        rw [List.append_cons] at hp
        obtain ⟨v, hv, hvz, hfind⟩ :=
          hd.carries k y (Json.mem_of_lookup hy) u z hyz hs hne hp
        refine ⟨?_, .inr ⟨List.cons_ne_nil _ _, ?_⟩⟩
        · exact (@Json.at?_cons_of_child (.key _) (.obj _) _ hv (t.rename u)).trans hvz
        · rw [rename_cons, List.append_cons, List.append_cons origin]
          exact hfind
  · obtain ⟨z, hz⟩ := Option.isSome_iff_exists.mp hq
    obtain ⟨v, hv, hvz⟩ := Option.bind_eq_some_iff.mp hz
    cases step with
    | index => cases hv
    | key n =>
      obtain ⟨-, -, -, e, he, rfl, hr⟩ := hd.member (n, v) (Json.mem_of_lookup hv)
      have hy : (Json.obj members).child? (.key e.1) = some e.2 :=
        (Json.lookup_eq_some_iff hmem).mpr he
      exact returns_cons hy hr (Option.isSome_iff_exists.mpr ⟨z, hvz⟩)

end Members

/-! ## Documents -/

variable {root : Json}

/-- How the shape of what is made follows from the shape of the document. At some trail, a part of
one shape is made into a part of another, by `walks` if its own rule is left aside. -/
structure Simulation (t : Translator) (known plain : Trail → Prop) (root : Json)
    (maps walks : Trail → Shape → Shape → Prop) : Prop where
  leaf : ∀ {o s}, walks o .leaf s → s = .leaf
  list : ∀ {o s s'}, walks o (.list s) s' → ∃ r, s' = .list r ∧ ∀ i, maps (o.index i) s r
  record : ∀ {o fields s}, walks o (.record fields) s → ∃ fields', s = .record fields' ∧
    (∀ k r, fields.lookup k = some r → t.isSkipped (o.key k) = false →
      ∃ r', fields'.lookup (t.nameOf k) = some r' ∧ maps (o.key k) r r') ∧
    (fields.map Prod.fst).Pairwise fun k l => t.isSkipped (o.key k) = false →
      t.isSkipped (o.key l) = false → t.nameOf k ≠ t.nameOf l
  unskipped : ∀ (o : Trail) k u, plain (o.key k ++ u) → t.isSkipped (o.key k) = false
  resolves : ∀ {o x}, root.at? o = some x → known o
  free : ∀ {o s s'}, maps o s s' → t.rule? o = none → walks o s s'
  /-- What rules promise. They may rely on what is made without them. -/
  rule : ∀ {o place s s' x rule}, maps o s s' → t.rule? o = some rule → s.Full x →
    root.at? o = some x → place ≠ [] →
    (walks o s s' → Traced t known plain s' o place x (t.walk o place x)) →
    Traced t known plain s' o place x (rule (t.walk o place x) x o place)

section Documents

variable {maps walks : Trail → Shape → Shape → Prop}

theorem traced_walk (hsim : Simulation t known plain root maps walks) {x : Json}
    (ih : ∀ step y, x.child? step = some y → ∀ o place s s', maps o s s' → s.Full y →
      root.at? o = some y → place ≠ [] →
        Traced t known plain s' o place y (t.translateAt o place y))
    {o place : Trail} {s s' : Shape} (hw : walks o s s') (hx : s.Full x)
    (ho : root.at? o = some x) (hplace : place = [] → x.isScalar = false) :
    Traced t known plain s' o place x (t.walk o place x) := by
  have hknown := hsim.resolves ho
  cases hx with
  | @leaf v hleaf =>
    cases hsim.leaf hw
    have hwalk : t.walk o place x = written o place ⟨x, {}, []⟩ := by
      rcases hleaf with hleaf | rfl
      · cases x <;> first | rfl | cases hleaf
      · rfl
    have hvacant : vacant x = x := by
      rcases hleaf with hleaf | rfl
      · cases x <;> first | rfl | cases hleaf
      · rfl
    have hchild : ∀ step, x.child? step = none := by
      rcases hleaf with hleaf | rfl
      · exact Json.child?_of_isScalar hleaf
      · exact Json.child?_null
    rw [hwalk]
    refine traced_written hknown List.Pairwise.nil (List.forall_mem_nil _) (fun he => ?_) ?_
      (Shape.fits_leaf hleaf) (fun step y hy => ?_) (fun u z hz hs _ _ => ?_) fun step q hq => ?_
    · rw [hvacant]
      exact ⟨he, Shape.fits_leaf hleaf⟩
    · exact (Shape.Full.leaf hleaf).isDistinct
    · rw [hchild step] at hy
      cases hy
    · cases u with
      | nil =>
        cases hz
        refine ⟨rfl, .inl ⟨rfl, fun hp => ?_⟩⟩
        rw [hplace hp] at hs
        cases hs
      | cons step u =>
        rw [Json.at?_cons, hchild step] at hz
        cases hz
    · rw [Json.at?_cons, hchild step] at hq
      cases hq
  | @list r items hitems =>
    obtain ⟨r', rfl, hmaps⟩ := hsim.list hw
    have hr : TracedItems t known plain r' o place 0 items (t.walkItems o place 0 items) := by
      refine tracedItems_walk fun i y hy => ?_
      rw [Nat.zero_add]
      refine ih (.index i) y hy _ _ r r' (hmaps i) (hitems y (List.mem_of_getElem? hy)) ?_
        (List.append_ne_nil_of_right_ne_nil _ (List.cons_ne_nil _ _))
      rw [Trail.index, Json.at?_append, ho]
      exact @Json.at?_cons_of_child (.index i) (.arr items) y hy []
    exact hr.written hknown
  | @record fields members hk hn hfull =>
    obtain ⟨fields', rfl, hmaps, hnames⟩ := hsim.record hw
    have hmem : (members.map Prod.fst).Nodup := hk ▸ hn
    have hmade : ∀ e ∈ members, t.isSkipped (o.key e.1) = false →
        ∃ r, fields'.lookup (t.nameOf e.1) = some r ∧
          Traced t known plain r (o.key e.1) (place.key (t.nameOf e.1)) e.2
            (t.translateAt (o.key e.1) (place.key (t.nameOf e.1)) e.2) := by
      intro e he hskip
      have hl := (Json.lookup_eq_some_iff hmem).mpr he
      have hkey : (fields.lookup e.1).isSome = true := by
        rw [Shape.lookup_isSome_iff, ← hk]
        exact List.mem_map_of_mem he
      obtain ⟨r, hr⟩ := Option.isSome_iff_exists.mp hkey
      obtain ⟨r', hr', hm⟩ := hmaps e.1 r hr hskip
      refine ⟨r', hr', ih (.key e.1) e.2 hl _ _ r r' hm (hfull e.1 r e.2 hr hl) ?_
        (List.append_ne_nil_of_right_ne_nil _ (List.cons_ne_nil _ _))⟩
      rw [Trail.key, Json.at?_append, ho]
      exact @Json.at?_cons_of_child (.key e.1) (.obj members) e.2 hl []
    have hd : TracedMembers t known plain fields' o place members
        (t.walkMembers o place members ⟨[], {}, []⟩) := by
      refine @tracedMembers_walk t known plain fields' o place [] _ members
        ⟨List.nodup_nil, List.Pairwise.nil, List.forall_mem_nil _, List.forall_mem_nil _,
          fun _ _ hm => absurd hm List.not_mem_nil⟩ (hsim.unskipped o) hmade ?_
      rw [← hk] at hnames
      exact List.pairwise_map.mp hnames
    exact hd.written hknown hmem

/-- **The translation of a part keeps its promises.** -/
theorem traced_translateAt (hsim : Simulation t known plain root maps walks) (x : Json) :
    ∀ o place s s', maps o s s' → s.Full x → root.at? o = some x → place ≠ [] →
      Traced t known plain s' o place x (t.translateAt o place x) := by
  induction x using Json.child_induction with
  | step x ih =>
    intro o place s s' hm hx ho hplace
    have hwalk : walks o s s' → Traced t known plain s' o place x (t.walk o place x) := fun hw =>
      traced_walk hsim ih hw hx ho fun hp => absurd hp hplace
    rw [translateAt_eq]
    cases hr : t.rule? o with
    | none => exact hwalk (hsim.free hm hr)
    | some rule => exact hsim.rule hm hr hx ho hplace hwalk

/-- **The translation of a document keeps its promises.** -/
theorem traced_translate (hsim : Simulation t known plain root maps walks)
    {fields : List (String × Shape)} {s : Shape} (hw : walks [] (.record fields) s)
    (hroot : (Shape.record fields).Full root) (hr : t.rule? [] = none) :
    Traced t known plain s [] [] root (t.translate root) := by
  rw [translate, translateAt_eq, hr]
  refine traced_walk hsim (fun _ y _ o place s s' => traced_translateAt hsim y o place s s') hw
    hroot rfl fun _ => ?_
  cases hroot
  rfl

end Documents

end Walk

end Provision.Translator
