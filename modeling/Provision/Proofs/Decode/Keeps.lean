import Provision.Proofs.Decode.Record

/-!
# Forms and their shapes

A form keeps a shape if reading keeps every value that fits the shape. The forms of the schema of
machines keep shapes with the same keys, so nothing of a draft that fits is lost on the way into a
config.

* `Codec.Keeps`: a form keeps the values of a shape.
* `Codec.keeps_list`, `Codec.keeps_record`: lists and records keep what their parts keep.
-/

set_option autoImplicit false

namespace Provision.Decode

/-- A form keeps every value that fits a shape. -/
def Codec.Keeps {α : Type} (c : Codec α) (s : Shape) : Prop :=
  ∀ v, v.isDistinct = true → s.Fits v → c.KeepsAt v

namespace Codec

theorem keeps_text : text.Keeps .leaf := by
  intro v _ _ x h
  cases v with
  | str s =>
    cases h
    exact kept_of_isScalar rfl
  | _ => cases h

theorem keeps_bool : bool.Keeps .leaf := by
  intro v _ _ x h
  cases v with
  | bool b =>
    cases h
    exact kept_of_isScalar rfl
  | _ => cases h

theorem keeps_int : int.Keeps .leaf := by
  intro v _ _ x h
  cases v with
  | num n =>
    cases n with
    | int n =>
      change (if Word.holdsSigned n then _ else _) = _ at h
      split at h
      · cases h
        exact kept_of_isScalar rfl
      · cases h
    | float => cases h
  | _ => cases h

section List

variable {α : Type} {c : Codec α}

/-- Items are read one by one. -/
theorem getElem?_readItems {ν : Type} {read : ν → Except Failure α} {items : List ν}
    {position : Nat} {xs : List α} (h : readItems read position items = .ok xs) (i : Nat) :
    (items[i]? = none ∧ xs[i]? = none) ∨
      ∃ v x, items[i]? = some v ∧ xs[i]? = some x ∧ read v = .ok x := by
  induction items generalizing position xs i with
  | nil =>
    cases h
    exact .inl ⟨rfl, rfl⟩
  | cons v rest ih =>
    rw [readItems] at h
    cases hv : read v with
    | error e => rw [hv] at h; cases h
    | ok x =>
      cases hr : readItems read (position + 1) rest with
      | error e => rw [hv, hr] at h; cases h
      | ok xs' =>
        rw [hv, hr] at h
        cases h
        cases i with
        | zero => exact .inr ⟨v, x, rfl, rfl, hv⟩
        | succ i => exact ih hr i

theorem list_read {items : List Json} {xs : List α} (h : (list c).ofJson (.arr items) = .ok xs)
    (i : Nat) : (items[i]? = none ∧ xs[i]? = none) ∨
      ∃ v x, items[i]? = some v ∧ xs[i]? = some x ∧ c.ofJson v = .ok x :=
  getElem?_readItems h i

/-- A list keeps what its items keep. -/
theorem keepsAt_list {items : List Json} (hi : ∀ v ∈ items, c.KeepsAt v) :
    (list c).KeepsAt (.arr items) := by
  intro xs h
  have kept : ∀ (i : Nat) (x : α), xs[i]? = some x → ∃ v, items[i]? = some v ∧ Kept v (c.write x) := by
    intro i x hx
    rcases list_read h i with ⟨-, hn⟩ | ⟨v, x', hv, hx', hr⟩
    · rw [hn] at hx
      cases hx
    · cases hx'.symm.trans hx
      exact ⟨v, hv, hi v (List.mem_of_getElem? hv) x hr⟩
  constructor
  · refine Json.isDistinct_arr.mpr fun y hy => ?_
    obtain ⟨x, hx, rfl⟩ := List.mem_map.mp hy
    obtain ⟨i, hi⟩ := List.mem_iff_getElem?.mp hx
    obtain ⟨v, -, hk⟩ := kept i x hi
    exact hk.distinct
  · intro t y hy hne
    cases t with
    | nil =>
      cases hy
      refine ⟨_, rfl, ?_⟩
      cases xs with
      | nil => cases hne
      | cons x rest =>
        obtain ⟨v, hv, -⟩ := kept 0 x rfl
        cases items with
        | nil => cases hv
        | cons => rfl
    | cons s t =>
      obtain ⟨y', hy', hyt⟩ := Option.bind_eq_some_iff.mp hy
      cases s with
      | key => cases hy'
      | index i =>
        change (xs.map c.write)[i]? = some y' at hy'
        rw [List.getElem?_map, Option.map_eq_some_iff] at hy'
        obtain ⟨x, hx, rfl⟩ := hy'
        obtain ⟨v, hv, hk⟩ := kept i x hx
        obtain ⟨z, hz, hze⟩ := hk.backed t y hyt hne
        exact ⟨z, (@Json.at?_cons_of_child (.index i) (.arr items) v hv t).trans hz, hze⟩
  · intro t x hx hs hne hu
    cases t with
    | nil => cases hx; cases hs
    | cons s t =>
      obtain ⟨v, hv, hxt⟩ := Option.bind_eq_some_iff.mp hx
      cases s with
      | key => cases hv
      | index i =>
        rcases list_read h i with ⟨hn, -⟩ | ⟨v', x', hv', hx', hr⟩
        · exact absurd (hn.symm.trans hv) nofun
        · cases hv'.symm.trans hv
          have hk := hi v (List.mem_of_getElem? hv) x' hr
          have hc : ((list c).write xs).child? (.index i) = some (c.write x') := by
            change (xs.map c.write)[i]? = _
            rw [List.getElem?_map, hx']
            rfl
          rw [Json.at?_cons_of_child hc]
          exact hk.leaf t x hxt hs hne fun h => hu (unwritten_cons h)

theorem keeps_list {s : Shape} (hc : c.Keeps s) : (list c).Keeps (.list s) := by
  intro v hd hf
  obtain ⟨items, rfl⟩ := hf.eq_arr
  refine keepsAt_list fun x hx => ?_
  obtain ⟨i, hi⟩ := List.mem_iff_getElem?.mp hx
  exact hc x (Json.isDistinct_arr.mp hd x hx) (@Shape.Fits.child_of _ _ _ _ (.index i) hf hi rfl)

end List

end Codec

/-! ## Records -/

section Records

variable {σ α : Type}

namespace RecordField

/-- A field has the name of an entry of a shape and keeps its values, and is not written for the
record that nothing was read into. -/
structure Matches (empty : σ) (f : RecordField σ) (e : String × Shape) : Prop where
  name : f.name = e.1
  keepsAt : ∀ z, z.isDistinct = true → e.2.Fits z → f.KeepsAt z
  absent : f.write empty = none

/-- Fields match the entries of a shape one by one. -/
def MatchAll (empty : σ) : List (RecordField σ) → List (String × Shape) → Prop
  | [], [] => True
  | f :: fields, e :: entries => f.Matches empty e ∧ MatchAll empty fields entries
  | _, _ => False

section Matches

variable {name : String} {c : Codec α} {s : Shape} {empty : σ}

theorem matches_sparse [DecidableEq α] {least : α} {get : σ → α} {set : α → σ → σ}
    (hc : c.Keeps s) (hget : (fun a r => get (set a r)) = fun a _ => a)
    (hleast : get empty = least)
    (he : (c.write least).isEmpty = true ∨ (name = "number" ∧ c.write least = .int 0)) :
    (sparse least name c get set).Matches empty (name, s) where
  name := rfl
  keepsAt z hd hf := keepsAt_sparse (fun a r => congrFun (congrFun hget a) r) he (hc z hd hf)
  absent := if_pos hleast

theorem matches_optional {get : σ → Option α} {set : Option α → σ → σ} (hc : c.Keeps s)
    (hget : (fun a r => get (set a r)) = fun a _ => a) (hnone : get empty = none) :
    (optional name c get set).Matches empty (name, s) where
  name := rfl
  keepsAt z hd hf := keepsAt_optional (fun a r => congrFun (congrFun hget a) r) (hc z hd hf)
  absent := by
    change (get empty).map c.write = none
    rw [hnone]
    rfl

end Matches

variable {empty : σ} {fields : List (RecordField σ)} {entries : List (String × Shape)}

theorem MatchAll.exists_field (h : MatchAll empty fields entries) {k : String} {s : Shape}
    (hs : entries.lookup k = some s) : ∃ f ∈ fields, f.Matches empty (k, s) := by
  induction fields generalizing entries with
  | nil =>
    cases entries with
    | nil => cases hs
    | cons => cases h
  | cons f fields ih =>
    cases entries with
    | nil => cases h
    | cons e entries =>
      obtain ⟨hf, hr⟩ := h
      rw [List.lookup_cons] at hs
      split at hs
      · next hk =>
        cases hs
        exact ⟨f, List.mem_cons_self, by rwa [eq_of_beq hk]⟩
      · obtain ⟨g, hg, hm⟩ := ih hr hs
        exact ⟨g, List.mem_cons_of_mem _ hg, hm⟩

theorem MatchAll.absent (h : MatchAll empty fields entries) :
    ∀ f ∈ fields, f.write empty = none := by
  induction fields generalizing entries with
  | nil => exact nofun
  | cons f fields ih =>
    cases entries with
    | nil => cases h
    | cons e entries => exact List.forall_mem_cons.mpr ⟨h.1.absent, ih h.2⟩

theorem MatchAll.names (h : MatchAll empty fields entries) :
    fields.map (·.name) = entries.map Prod.fst := by
  induction fields generalizing entries with
  | nil =>
    cases entries with
    | nil => rfl
    | cons => cases h
  | cons f fields ih =>
    cases entries with
    | nil => cases h
    | cons e entries => rw [List.map_cons, List.map_cons, h.1.name, ih h.2]

end RecordField

/-- A record whose first field is always written, and whose other fields match a shape, keeps a value
that has the first field. -/
theorem Codec.keepsAt_record_first {name : String} {empty : σ} {first : RecordField σ}
    {fields : List (RecordField σ)} {s : Shape} {entries : List (String × Shape)} {v z : Json}
    (hd : v.isDistinct = true) (hf : (Shape.record ((first.name, s) :: entries)).Fits v)
    (hz : v.child? (.key first.name) = some z) (hk : first.KeepsAt z)
    (hi : RecordField.Independent (first :: fields))
    (hn : ((first.name :: entries.map Prod.fst)).Nodup)
    (hm : RecordField.MatchAll empty fields entries) :
    (Codec.record name empty (first :: fields)).KeepsAt v := by
  obtain ⟨members, rfl⟩ := hf.eq_obj
  have hmem := (Json.isDistinct_obj.mp hd).1
  refine Codec.keepsAt_record (by rwa [List.map_cons, hm.names]) hi hd (fun k x hx => ?_) ?_
  · have hl := (Json.lookup_eq_some_iff hmem).mpr hx
    by_cases he : k = first.name
    · subst he
      cases hl.symm.trans hz
      exact ⟨first, List.mem_cons_self, rfl, hk⟩
    · obtain ⟨s', hs, hfx⟩ := @Shape.Fits.child _ _ _ (.key k) hf hl
      rw [Shape.child?_key_record, List.lookup_cons, beq_eq_false_iff_ne.mpr he] at hs
      obtain ⟨f, hfm, hmatch⟩ := hm.exists_field hs
      exact ⟨f, List.mem_cons_of_mem _ hfm, hmatch.name,
        hmatch.keepsAt x ((Json.isDistinct_obj.mp hd).2 _ hx) hfx⟩
  · refine List.forall_mem_cons.mpr ⟨.inr ⟨z, ?_⟩, fun f hf' => .inl (hm.absent f hf')⟩
    exact (Json.lookup_eq_some_iff hmem).mp hz

/-- **A record whose fields match a shape keeps the shape.** -/
theorem Codec.keeps_record {name : String} {empty : σ} {fields : List (RecordField σ)}
    {entries : List (String × Shape)} (hi : RecordField.Independent fields)
    (hn : (entries.map Prod.fst).Nodup) (hm : RecordField.MatchAll empty fields entries) :
    (Codec.record name empty fields).Keeps (.record entries) := by
  intro v hd hf
  obtain ⟨members, rfl⟩ := hf.eq_obj
  refine Codec.keepsAt_record (hm.names ▸ hn) hi hd (fun k z hz => ?_) fun f hf' =>
    .inl (hm.absent f hf')
  have hl := (Json.lookup_eq_some_iff (Json.isDistinct_obj.mp hd).1).mpr hz
  obtain ⟨s, hs, hfz⟩ := @Shape.Fits.child _ _ _ (.key k) hf hl
  obtain ⟨f, hfm, hmatch⟩ := hm.exists_field hs
  exact ⟨f, hfm, hmatch.name, hmatch.keepsAt z ((Json.isDistinct_obj.mp hd).2 _ hz) hfz⟩

end Records

end Provision.Decode
