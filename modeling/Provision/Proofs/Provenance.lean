import Provision.Draft
import Provision.Proofs.Json.Node
import Provision.Proofs.Origins

/-!
# Recording more origins

Whatever is recorded, a part that had an origin still has one, and only the parts at some places get
another.

* `Provenance.Grows`: what recording origins may do.
* `Provenance.grows_add`, `Provenance.grows_addValue`, `Provenance.grows_merge`: the ways to record
  origins do no more than that.
* `Provenance.find?_under`, `Provenance.find?_below`: what moving documents does to look-ups.
* `Provenance.covers_addValue`: after recording a value all of it has origins.

An entry about a part of the document that is made is moved to where that part comes from.

* `Entry.traced_of_find`, `Entry.traced_of_none`: what becomes of an entry.
* `Report.schema_traced`: entries about parts with an origin end up in the source.
* `Report.traced_under`: moving a document and the entries about it does not matter.
-/

set_option autoImplicit false

namespace Provision

namespace Provenance

/-- A provenance is about a source and the document that is made of it. -/
structure Aligned (p : Provenance) : Prop where
  source : p.source = .source
  target : p.target = .target

/-- More origins are recorded: each of them is known, and belongs to one of some places. -/
structure Grows (known places : Trail → Prop) (p p' : Provenance) : Prop where
  aligned : p.Aligned → p'.Aligned
  sorted : p.origins.Sorted → p'.origins.Sorted
  mem : ∀ e ∈ p'.origins, e ∈ p.origins ∨ (places e.1 ∧ known e.2)
  isSome : ∀ q, (p.find? q).isSome = true → (p'.find? q).isSome = true
  beside : ∀ q, ¬places q → p'.find? q = p.find? q

section Grows

variable {known places places' : Trail → Prop} {p p' p'' : Provenance}

theorem Grows.refl (known places : Trail → Prop) (p : Provenance) : Grows known places p p where
  aligned h := h
  sorted h := h
  mem _ h := .inl h
  isSome _ h := h
  beside _ _ := rfl

theorem Grows.trans (h : Grows known places p p') (h' : Grows known places p' p'') :
    Grows known places p p'' where
  aligned ha := h'.aligned (h.aligned ha)
  sorted hs := h'.sorted (h.sorted hs)
  mem e he := by
    rcases h'.mem e he with he | he
    · exact h.mem e he
    · exact .inr he
  isSome q hq := h'.isSome q (h.isSome q hq)
  beside q hq := (h'.beside q hq).trans (h.beside q hq)

theorem Grows.mono (h : Grows known places p p') (hp : ∀ q, places q → places' q) :
    Grows known places' p p' where
  aligned := h.aligned
  sorted := h.sorted
  mem e he := (h.mem e he).imp_right fun ⟨hq, ho⟩ => ⟨hp _ hq, ho⟩
  isSome := h.isSome
  beside q hq := h.beside q fun hq' => hq (hp q hq')

/-- What is covered stays covered. -/
theorem Grows.covers (h : Grows known places p p') {here : Trail} {x : Json}
    (hc : p.Covers here x) : p'.Covers here x :=
  fun t y hy he => (hc t y hy he).imp_right (h.isSome _)

theorem Grows.forall_known (h : Grows known places p p') (hp : ∀ e ∈ p.origins, known e.2) :
    ∀ e ∈ p'.origins, known e.2 := fun e he => by
  rcases h.mem e he with he | he
  · exact hp e he
  · exact he.2

/-- Several steps, each of which records origins. -/
theorem grows_foldl {α : Type} {f : Provenance → α → Provenance} {entries : List α}
    (h : ∀ e ∈ entries, ∀ p, Grows known places p (f p e)) (p : Provenance) :
    Grows known places p (entries.foldl f p) := by
  induction entries generalizing p with
  | nil => exact .refl _ _ _
  | cons e rest ih =>
    obtain ⟨he, hr⟩ := List.forall_mem_cons.mp h
    exact (he p).trans (ih hr _)

/-- What one of several steps records is found after all of them. -/
theorem isSome_foldl {α : Type} {f : Provenance → α → Provenance} {entries : List α}
    (h : ∀ e ∈ entries, ∀ p, Grows known places p (f p e)) {e : α} (he : e ∈ entries) {q : Trail}
    (hq : ∀ p, ((f p e).find? q).isSome = true) (p : Provenance) :
    ((entries.foldl f p).find? q).isSome = true := by
  induction entries generalizing p with
  | nil => cases he
  | cons e' rest ih =>
    obtain ⟨-, hr⟩ := List.forall_mem_cons.mp h
    rcases List.mem_cons.mp he with rfl | he
    · exact (grows_foldl hr _).isSome q (hq p)
    · exact ih hr he _

end Grows

/-! ## One origin -/

@[simp] theorem find?_add (p : Provenance) (origin place : Trail) :
    (p.add origin place).find? place = some origin :=
  Origins.find?_insert place origin p.origins

theorem find?_add_of_ne {q place : Trail} (h : q ≠ place) (p : Provenance) (origin : Trail) :
    (p.add origin place).find? q = p.find? q :=
  Origins.find?_insert_of_ne h origin p.origins

theorem grows_add {known : Trail → Prop} {origin : Trail} (h : known origin) (p : Provenance)
    (place : Trail) : Grows known (· = place) p (p.add origin place) where
  aligned ha := ⟨ha.source, ha.target⟩
  sorted := Origins.sorted_insert place origin
  mem e he := by
    rcases Origins.mem_insert he with rfl | he
    · exact .inr ⟨rfl, h⟩
    · exact .inl he
  isSome q hq := by
    by_cases hp : q = place
    · rw [hp, find?_add]
      rfl
    · rwa [find?_add_of_ne hp]
  beside q hq := find?_add_of_ne hq p origin

/-- After several origins are recorded, a place that only one of them is for has that one. -/
theorem find?_foldl_add {entries : List (Trail × Trail)} {origin place : Trail}
    (hunique : ∀ e ∈ entries, e.2 = place → e.1 = origin) {p : Provenance}
    (h : p.find? place = some origin ∨ (origin, place) ∈ entries) :
    (entries.foldl (fun p e => p.add e.1 e.2) p).find? place = some origin := by
  induction entries generalizing p with
  | nil => exact h.resolve_right List.not_mem_nil
  | cons e rest ih =>
    obtain ⟨o, t⟩ := e
    obtain ⟨he, hrest⟩ := List.forall_mem_cons.mp hunique
    refine ih hrest ?_
    by_cases ht : t = place
    · exact .inl (by rw [ht, find?_add]; exact congrArg some (he ht))
    · rw [find?_add_of_ne (Ne.symm ht)]
      exact h.imp_right fun hmem => (List.mem_cons.mp hmem).resolve_left fun heq =>
        ht (Prod.mk.inj heq).2.symm

theorem isSome_addMissing (p : Provenance) (origin place : Trail) :
    ((Draft.addMissing origin place p).find? place).isSome = true := by
  rw [Draft.addMissing]
  split
  · assumption
  · rw [find?_add]
    rfl

/-- Only a part without an origin gets one. -/
theorem grows_addMissing {known : Trail → Prop} {origin : Trail} (h : known origin)
    (p : Provenance) (place : Trail) :
    Grows known (fun q => q = place ∧ p.find? q = none) p (Draft.addMissing origin place p) := by
  rw [Draft.addMissing]
  split
  · exact .refl _ _ _
  · next hn =>
    have hnone : p.find? place = none := Option.not_isSome_iff_eq_none.mp hn
    have hg := grows_add h p place
    refine ⟨hg.aligned, hg.sorted, fun e he => ?_, hg.isSome, fun q hq => hg.beside q fun he => ?_⟩
    · exact (hg.mem e he).imp_right fun ⟨hp, ho⟩ => ⟨⟨hp, hp ▸ hnone⟩, ho⟩
    · exact hq ⟨he, he ▸ hnone⟩

/-! ## The origins of another provenance -/

theorem find?_merge (p : Provenance) {q : Provenance} (hq : q.origins.Sorted) (place : Trail) :
    (p.merge q).find? place = (q.find? place).or (p.find? place) :=
  Origins.find?_insertAll hq.nodup p.origins place

theorem grows_merge {known places : Trail → Prop} (p : Provenance) {q : Provenance}
    (hs : q.origins.Sorted) (h : ∀ e ∈ q.origins, places e.1 ∧ known e.2) :
    Grows known places p (p.merge q) where
  aligned ha := ⟨ha.source, ha.target⟩
  sorted := Origins.sorted_insertAll q.origins
  mem e he := by
    rcases Origins.mem_insertAll he with he | he
    · exact .inr (h e he)
    · exact .inl he
  isSome place hp := by
    rw [find?_merge p hs]
    cases q.find? place with
    | none => exact hp
    | some => rfl
  beside place hp := by
    rw [find?_merge p hs]
    cases hf : q.find? place with
    | none => rfl
    | some o => exact absurd (h _ (Origins.mem_of_find? hf)).1 hp

/-- What the other provenance covers is covered. -/
theorem covers_merge_right (p : Provenance) {q : Provenance} (hs : q.origins.Sorted) {here : Trail}
    {x : Json} (hc : q.Covers here x) : (p.merge q).Covers here x := fun t y hy he => by
  refine (hc t y hy he).imp_right fun h => ?_
  rw [find?_merge p hs]
  obtain ⟨o, ho⟩ := Option.isSome_iff_exists.mp h
  rw [ho]
  rfl

/-! ## Moving both documents -/

theorem below?_eq_some_iff {start t u : Trail} : start.below? t = some u ↔ t = start ++ u := by
  constructor
  · induction start generalizing t with
    | nil =>
      intro h
      cases h
      rfl
    | cons a as ih =>
      intro h
      cases t with
      | nil => cases h
      | cons b bs =>
        rw [Trail.below?] at h
        split at h
        · next hab => rw [hab, ih h, List.cons_append]
        · cases h
  · rintro rfl
    exact Trail.below?_append start u

/-- **What is below the place that a document was moved to comes from where it came from**, below the
place that its source was moved to. -/
theorem find?_under (p : Provenance) (origin place : Path) (t : Trail) :
    (p.under origin place).find? (place.trail ++ t) = (p.find? t).map (origin.trail ++ ·) := by
  change List.lookup _ (p.origins.map _) = (List.lookup t p.origins).map _
  induction p.origins with
  | nil => rfl
  | cons e rest ih =>
    obtain ⟨u, o⟩ := e
    rw [List.map_cons, List.lookup_cons, List.lookup_cons]
    by_cases h : t = u
    · rw [h, beq_self_eq_true, beq_self_eq_true]
      rfl
    · have happend : place.trail ++ t ≠ place.trail ++ u := fun he => h (List.append_cancel_left he)
      rw [beq_eq_false_iff_ne.mpr h, beq_eq_false_iff_ne.mpr happend]
      exact ih

/-- What is seen from a place comes from where it came from. -/
theorem find?_below (p : Provenance) {start : Path} (hs : start.schema = p.target) (t : Trail) :
    (p.below start).find? t = p.find? (start.trail ++ t) := by
  rw [below, if_neg (not_not_intro hs)]
  change List.lookup _ (p.origins.filterMap _) = List.lookup _ p.origins
  induction p.origins with
  | nil => rfl
  | cons e rest ih =>
    obtain ⟨u, o⟩ := e
    rw [List.filterMap_cons, List.lookup_cons]
    dsimp only
    by_cases h : start.trail ++ t = u
    · have hbelow : start.trail.below? u = some t := below?_eq_some_iff.mpr h.symm
      rw [hbelow, h, Option.map_some, List.lookup_cons, beq_self_eq_true, beq_self_eq_true]
    · rw [beq_eq_false_iff_ne.mpr h]
      cases hbelow : start.trail.below? u with
      | none => exact ih
      | some v =>
        have hne : t ≠ v := fun he => h (he ▸ (below?_eq_some_iff.mp hbelow).symm)
        dsimp only [Option.map_some]
        rw [ List.lookup_cons, beq_eq_false_iff_ne.mpr hne]
        exact ih

theorem mem_below {p : Provenance} {start : Path} {e : Trail × Trail}
    (h : e ∈ (p.below start).origins) : (start.trail ++ e.1, e.2) ∈ p.origins := by
  rw [below] at h
  split at h
  · cases h
  · obtain ⟨⟨u, o⟩, hu, he⟩ := List.mem_filterMap.mp h
    obtain ⟨t, ht, rfl⟩ := Option.map_eq_some_iff.mp he
    rwa [← below?_eq_some_iff.mp ht]

/-! ## One origin for a value -/

theorem prefix_index (place : Trail) (i : Nat) : place <+: place.index i :=
  List.prefix_append place _

theorem prefix_key (place : Trail) (k : String) : place <+: place.key k :=
  List.prefix_append place _

section Value

variable {known : Trail → Prop} {origin : Trail}

mutual

theorem grows_addValue (h : known origin) (p : Provenance) (place : Trail) :
    (x : Json) → Grows known (place <+: ·) p (p.addValue origin place x)
  | .null => .refl _ _ _
  | .bool _ | .num _ | .str _ => (grows_add h p place).mono fun _ he => he ▸ List.prefix_refl _
  | .arr items => ((grows_add h p place).mono fun _ he => he ▸ List.prefix_refl _).trans
      (grows_addItems h _ place 0 items)
  | .obj members => ((grows_add h p place).mono fun _ he => he ▸ List.prefix_refl _).trans
      (grows_addMembers h _ place members)

theorem grows_addItems (h : known origin) (p : Provenance) (place : Trail) (position : Nat) :
    (items : List Json) → Grows known (place <+: ·) p (p.addItems origin place position items)
  | [] => .refl _ _ _
  | x :: rest =>
    ((grows_addValue h p (place.index position) x).mono fun _ => (prefix_index _ _).trans).trans
      (grows_addItems h _ place (position + 1) rest)

theorem grows_addMembers (h : known origin) (p : Provenance) (place : Trail) :
    (members : List (String × Json)) →
      Grows known (place <+: ·) p (p.addMembers origin place members)
  | [] => .refl _ _ _
  | (k, x) :: rest =>
    ((grows_addValue h p (place.key k) x).mono fun _ => (prefix_key _ _).trans).trans
      (grows_addMembers h _ place rest)

end

theorem isSome_addValue_of_ne_null (p : Provenance) (origin place : Trail) {x : Json}
    (hx : x ≠ .null) : ((p.addValue origin place x).find? place).isSome = true := by
  have hadd : ((p.add origin place).find? place).isSome = true := by
    rw [find?_add]
    rfl
  cases x with
  | null => exact absurd rfl hx
  | arr items =>
    exact (@grows_addItems (· = origin) origin rfl _ place 0 items).isSome place hadd
  | obj members =>
    exact (@grows_addMembers (· = origin) origin rfl _ place members).isSome place hadd
  | _ => exact hadd

theorem isSome_addValue (p : Provenance) (origin place : Trail) {x : Json}
    (hx : x.isEmpty = false) : ((p.addValue origin place x).find? place).isSome = true :=
  isSome_addValue_of_ne_null p origin place (by rintro rfl; cases hx)

theorem covers_addItems {p : Provenance} {origin place : Trail} {position : Nat}
    {items : List Json}
    (h : ∀ x ∈ items, ∀ p place, (addValue p origin place x).Covers place x) {i : Nat} {x : Json}
    (hx : items[i]? = some x) :
    (p.addItems origin place position items).Covers (place.index (position + i)) x := by
  induction items generalizing p position i with
  | nil => cases hx
  | cons y rest ih =>
    obtain ⟨hy, hr⟩ := List.forall_mem_cons.mp h
    cases i with
    | zero =>
      cases hx
      exact (@grows_addItems (· = origin) origin rfl _ place (position + 1) rest).covers (hy _ _)
    | succ i =>
      rw [show position + (i + 1) = position + 1 + i by omega]
      exact ih hr hx

theorem covers_addMembers {p : Provenance} {origin place : Trail} {k : String} {x : Json}
    {members : List (String × Json)}
    (h : ∀ p place, (addValue p origin place x).Covers place x)
    (hx : (k, x) ∈ members) : (p.addMembers origin place members).Covers (place.key k) x := by
  induction members generalizing p with
  | nil => cases hx
  | cons e rest ih =>
    rcases List.mem_cons.mp hx with rfl | hx
    · exact (@grows_addMembers (· = origin) origin rfl _ place rest).covers (h _ _)
    · exact ih hx

/-- **After a value is recorded, all of it has origins.** -/
theorem covers_addValue (p : Provenance) (origin place : Trail) (x : Json) :
    (p.addValue origin place x).Covers place x := by
  induction x using Json.child_induction generalizing p place with
  | step x ih =>
    rw [covers_iff]
    refine ⟨fun hx => .inr (isSome_addValue p origin place hx), fun s y hy => ?_⟩
    cases x with
    | arr items =>
      cases s with
      | key => cases hy
      | index i =>
        have hc := @covers_addItems (p.add origin place) origin place 0 items
          (fun z hz => ?_) i y hy
        · rwa [Nat.zero_add] at hc
        · obtain ⟨j, hj⟩ := List.mem_iff_getElem?.mp hz
          exact fun p place => ih (.index j) z hj p place
    | obj members =>
      cases s with
      | index => cases hy
      | key k =>
        exact covers_addMembers (fun p place => ih (.key k) y hy p place) (Json.mem_of_lookup hy)
    | _ => simp at hy

end Value

end Provenance

/-! ## Changing the value alone -/

namespace Translated

variable {α β : Type} (f : α → β) (t : Translated α)

@[simp] theorem value_map : (t.map f).value = f t.value := rfl

@[simp] theorem provenance_map : (t.map f).provenance = t.provenance := rfl

@[simp] theorem report_map : (t.map f).report = t.report := rfl

end Translated

/-! ## Entries that are traced -/

/-- An entry where the part that it is about comes from, if that is known. -/
def Entry.traced (p : Provenance) (e : Entry) : Entry :=
  match e.path.schema with
  | .source => e
  | .target => match p.findPath? e.path with
    | some origin => { e with path := origin }
    | none => e

/-- An entry about the source, or about a part of the document whose origin is known. -/
def Entry.IsTraceable (p : Provenance) (e : Entry) : Prop :=
  e.path.schema = .source ∨
    (e.path.schema = .target ∧ e.path.trail ≠ [] ∧ (p.find? e.path.trail).isSome = true)

section Traced

variable {p q : Provenance} {e : Entry} {r r' : Report}

theorem Report.traced_eq (r : Report) (p : Provenance) : r.traced p = r.map (Entry.traced p) := rfl

@[simp] theorem Report.traced_append (r r' : Report) (p : Provenance) :
    (r ++ r').traced p = r.traced p ++ r'.traced p :=
  List.map_append

theorem Entry.traced_source (h : e.path.schema = .source) : e.traced p = e := by
  rw [traced, h]

/-- Reports about the source are as they were. -/
theorem Report.traced_source (h : ∀ e ∈ r, e.path.schema = .source) : r.traced p = r := by
  rw [traced_eq]
  exact (List.map_congr_left fun e he => Entry.traced_source (h e he)).trans (List.map_id r)

theorem Provenance.Aligned.below (hp : p.Aligned) (start : Path) : (p.below start).Aligned := by
  rw [Provenance.below]
  split
  · exact ⟨hp.source, hp.target⟩
  · exact ⟨hp.source, hp.target⟩

theorem Provenance.Aligned.findPath?_target (hp : p.Aligned) (t : Trail) :
    p.findPath? (.target t) = (p.find? t).map Path.source := by
  rw [Provenance.findPath?, hp.target, hp.source]
  rfl

/-- An entry about a part with an origin is moved there. -/
theorem Entry.traced_of_find (hp : p.Aligned) {t o : Trail} (he : e.path = .target t)
    (ho : p.find? t = some o) : e.traced p = { e with path := .source o } := by
  rw [traced, he]
  dsimp only [Path.target]
  rw [← Path.target, hp.findPath?_target, ho]
  rfl

/-- An entry about a part without an origin stays. -/
theorem Entry.traced_of_none (hp : p.Aligned) {t : Trail} (he : e.path = .target t)
    (ho : p.find? t = none) : e.traced p = e := by
  rw [traced, he]
  dsimp only [Path.target]
  rw [← Path.target, hp.findPath?_target, ho]
  rfl

/-- An entry about a part with an origin is found there. -/
theorem Report.mem_traced (hp : p.Aligned) (h : e ∈ r) {t o : Trail} (he : e.path = .target t)
    (ho : p.find? t = some o) : { e with path := .source o } ∈ r.traced p :=
  List.mem_map.mpr ⟨e, h, Entry.traced_of_find hp he ho⟩

/-- **What is traceable is traced to the source.** -/
theorem Entry.schema_traced (hp : p.Aligned) (h : e.IsTraceable p) :
    (e.traced p).path.schema = .source := by
  obtain hsource | ⟨htarget, -, hfind⟩ := h
  · rw [traced_source hsource, hsource]
  · obtain ⟨o, ho⟩ := Option.isSome_iff_exists.mp hfind
    have hpath : e.path = .target e.path.trail := by rw [Path.target, ← htarget]
    rw [traced_of_find hp hpath ho]
    rfl

theorem Report.schema_traced (hp : p.Aligned) (h : ∀ e ∈ r, e.IsTraceable p) :
    ∀ e ∈ r.traced p, e.path.schema = .source := fun e he => by
  obtain ⟨e', he', rfl⟩ := List.mem_map.mp he
  exact Entry.schema_traced hp (h e' he')

/-- **Moving a document and the entries about it does not matter** for where they come from. -/
theorem Report.traced_under (hp : p.Aligned) (hq : q.Aligned) {start : Trail}
    (hfind : ∀ t, t ≠ [] → q.find? (start ++ t) = p.find? t) (h : ∀ e ∈ r, e.IsTraceable p) :
    (r.under (.target start)).traced q = r.traced p := by
  rw [traced_eq, under, List.map_map, traced_eq]
  refine List.map_congr_left fun e he => ?_
  rw [Function.comp]
  rcases h e he with hsource | ⟨htarget, hne, hsome⟩
  · have hmoved : ¬e.path.schema = (Path.target start).schema := by
      rw [hsource]
      exact nofun
    rw [if_neg hmoved, Entry.traced_source hsource, Entry.traced_source hsource]
  · obtain ⟨o, ho⟩ := Option.isSome_iff_exists.mp hsome
    have hpath : e.path = .target e.path.trail := by rw [Path.target, ← htarget]
    have hmoved : e.path.schema = (Path.target start).schema := htarget
    rw [if_pos hmoved, Entry.traced_of_find hq rfl ((hfind _ hne).trans ho),
      Entry.traced_of_find hp hpath ho]

end Traced

end Provision
