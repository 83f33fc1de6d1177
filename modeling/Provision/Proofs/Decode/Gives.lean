import Provision.Proofs.Decode.Keeps

/-!
# What a part of a record was read from

A record that was read is taken apart field by field, and each part was read from the value under
the name of its field. What is known of a part is how it is written.

* `Codec.Gives`: a value is written like one that was read, or like a missing one.
* `Codec.Gives.sparse`, `Codec.Gives.optional_text`: the parts of a record.
* `Codec.Gives.item`, `Codec.Gives.length`, `Codec.Gives.texts`: the items of a list.
* `Shape.TakesAny`: a value that is there has a shape.
-/

set_option autoImplicit false

namespace Provision

/-! ## Values that may be missing -/

namespace Shape

/-- A value has a shape, if it is there. -/
def TakesAny (s : Shape) (v : Option Json) : Prop := ∀ z, v = some z → s.Takes z

variable {s s' : Shape} {v : Option Json}

theorem TakesAny.member (h : s.TakesAny v) {k : String} (hs : s.child? (.key k) = some s') :
    s'.TakesAny (v.bind (·.get? k)) := by
  intro y hy
  obtain ⟨z, hz, hy⟩ := Option.bind_eq_some_iff.mp hy
  obtain ⟨hfits, hdistinct⟩ := h z hz
  exact ⟨@Shape.Fits.child_of _ _ _ _ (.key k) hfits hy hs,
    @Json.isDistinct_of_child (.key k) _ _ hdistinct hy⟩

theorem TakesAny.item (h : (list s).TakesAny v) {i : Nat} {z : Json}
    (hz : ((v.bind Json.items?).getD [])[i]? = some z) : s.Takes z := by
  cases v with
  | none => cases hz
  | some x =>
    obtain ⟨hfits, hdistinct⟩ := h x rfl
    obtain ⟨items, rfl⟩ := hfits.eq_arr
    exact ⟨@Shape.Fits.child_of _ _ _ _ (.index i) hfits hz rfl,
      @Json.isDistinct_of_child (.index i) _ _ hdistinct hz⟩

end Shape

namespace Decode

/-- A value is written like what a form reads, or like what stands for a missing value. -/
inductive Codec.Gives {α : Type} (c : Codec α) (missing : α) : Option Json → α → Prop where
  | absent {x : α} (h : c.write x = c.write missing) : Gives c missing none x
  | read {z : Json} {a x : α} (ha : c.ofJson z = .ok a) (h : c.write x = c.write a) :
      Gives c missing (some z) x

/-! ## Records -/

section Records

variable {σ α : Type} {fields : List (RecordField σ)} {name : String} {empty : σ}

/-- What is written of a record has what is written of each field. -/
theorem Codec.get?_write_record (hn : (fields.map (·.name)).Nodup) {f : RecordField σ}
    (hf : f ∈ fields) (r : σ) :
    ((Codec.record name empty fields).write r).get? f.name = f.write r := by
  change Json.lookup f.name (RecordField.members fields r) = f.write r
  cases hw : f.write r with
  | some y => exact (RecordField.lookup_members hn).mpr ⟨f, hf, rfl, hw⟩
  | none =>
    cases hl : Json.lookup f.name (RecordField.members fields r) with
    | none => rfl
    | some y =>
      obtain ⟨g, hg, hname, hy⟩ := (RecordField.lookup_members hn).mp hl
      rw [RecordField.eq_of_name_eq hn hg hf hname, hw] at hy
      exact hy.symm

/-- What is written for a field is written of a record that has its value, or of a missing one. -/
theorem Codec.Gives.field (hn : (fields.map (·.name)).Nodup) (hi : RecordField.Independent fields)
    {v : Option Json} {r : σ} (h : (Codec.record name empty fields).Gives empty v r)
    {entries : List (String × Shape)} (hv : (Shape.record entries).TakesAny v)
    {f : RecordField σ} (hf : f ∈ fields) :
    (v.bind (·.get? f.name) = none ∧ f.write r = f.write empty) ∨
      ∃ z r₁ r₂, v.bind (·.get? f.name) = some z ∧ f.read jsonView z r₁ = .ok r₂ ∧
        f.write r = f.write r₂ := by
  have hwrite : ∀ s, (Codec.record name empty fields).write r =
      (Codec.record name empty fields).write s → f.write r = f.write s := fun s hs => by
    rw [← @Codec.get?_write_record _ _ name empty hn f hf r, hs, Codec.get?_write_record hn hf]
  cases h with
  | absent hr => exact .inl ⟨rfl, hwrite _ hr⟩
  | @read z a _ ha hr =>
    obtain ⟨hfits, hdistinct⟩ := hv z rfl
    obtain ⟨members, rfl⟩ := hfits.eq_obj
    have hnames := (Json.isDistinct_obj.mp hdistinct).1
    rcases Codec.record_read hn hi ha hf with ⟨y, r₁, r₂, hy, hread, ha'⟩ | ⟨hnone, ha'⟩
    · have hlookup := (Json.lookup_eq_some_iff hnames).mpr hy
      exact .inr ⟨y, r₁, r₂, hlookup, hread, (hwrite a hr).trans ha'⟩
    · refine .inl ⟨Json.lookup_eq_none_iff.mpr fun hm => ?_, (hwrite a hr).trans ha'⟩
      obtain ⟨e, he, hname⟩ := List.mem_map.mp hm
      exact hnone e.2 (hname ▸ he)

variable {c : Codec α} {v : Option Json} {r : σ} {key : String}

/-- A field that is left out if it is empty tells apart what its form tells apart. -/
theorem RecordField.write_of_sparse [DecidableEq α] {least : α} {get : σ → α} {set : α → σ → σ}
    {r s : σ} (h : (sparse least key c get set).write r = (sparse least key c get set).write s) :
    c.write (get r) = c.write (get s) := by
  simp only [sparse] at h
  split at h <;> split at h
  · next hr hs => rw [hr, hs]
  · cases h
  · cases h
  · exact Option.some.inj h

/-- **A part that is left out if it is empty** is given by the value under its name. -/
theorem Codec.Gives.sparse [DecidableEq α] {least : α} {get : σ → α} {set : α → σ → σ}
    (hn : (fields.map (·.name)).Nodup) (hi : RecordField.Independent fields)
    (h : (Codec.record name empty fields).Gives empty v r)
    {entries : List (String × Shape)} (hv : (Shape.record entries).TakesAny v)
    (hf : .sparse least key c get set ∈ fields)
    (hget : ∀ a r, get (set a r) = a := by exact fun _ _ => rfl)
    (hleast : get empty = least := by rfl) :
    c.Gives least (v.bind (·.get? key)) (get r) := by
  rcases h.field hn hi hv hf with ⟨hnone, hw⟩ | ⟨z, r₁, r₂, hz, hread, hw⟩
  · have hnone : v.bind (·.get? key) = none := hnone
    rw [hnone]
    exact .absent (hleast ▸ RecordField.write_of_sparse hw)
  · have hz : v.bind (·.get? key) = some z := hz
    obtain ⟨a, ha, rfl⟩ := RecordField.read_eq_ok hread
    rw [hz]
    exact .read ha ((RecordField.write_of_sparse hw).trans (congrArg c.write (hget a r₁)))

/-- **A text that may be missing** is the text under its name. -/
theorem Codec.Gives.optional_text {get : σ → Option String} {set : Option String → σ → σ}
    (hn : (fields.map (·.name)).Nodup) (hi : RecordField.Independent fields)
    (h : (Codec.record name empty fields).Gives empty v r)
    {entries : List (String × Shape)} (hv : (Shape.record entries).TakesAny v)
    (hf : .optional key .text get set ∈ fields)
    (hget : ∀ a r, get (set a r) = a := by exact fun _ _ => rfl)
    (hempty : get empty = none := by rfl) : get r = (v.bind (·.get? key)).bind Json.text? := by
  have hwrite : ∀ {s}, (RecordField.optional key .text get set).write r =
      (RecordField.optional key .text get set).write s → get r = get s := fun hs =>
    Option.map_injective (fun _ _ heq => Json.str.inj heq) hs
  rcases h.field hn hi hv hf with ⟨hnone, hw⟩ | ⟨z, r₁, r₂, hz, hread, hw⟩
  · have hnone : v.bind (·.get? key) = none := hnone
    rw [hnone, hwrite hw, hempty]
    rfl
  · have hz : v.bind (·.get? key) = some z := hz
    rw [hz, hwrite hw]
    rcases RecordField.read_optional hread with ⟨rfl, rfl⟩ | ⟨a, ha, rfl⟩
    · rw [hget]
      rfl
    · rw [hget]
      cases z <;> cases ha
      rfl

end Records

/-! ## Texts and lists -/

namespace Codec

/-- A text is what was read, or the empty text. -/
theorem Gives.text {v : Option Json} {s : String} (h : text.Gives "" v s) :
    s = (v.bind Json.text?).getD "" := by
  cases h with
  | absent h => exact Json.str.inj h
  | @read z a _ ha h =>
    cases Json.str.inj h
    cases z <;> cases ha
    rfl

/-- A list that was read has as many items as its value. -/
theorem list_length {α : Type} {c : Codec α} {items : List Json} {xs : List α}
    (h : (list c).ofJson (.arr items) = .ok xs) : xs.length = items.length := by
  have hsame : ∀ i, items[i]? = none ↔ xs[i]? = none := fun i => by
    rcases list_read h i with ⟨hitem, hx⟩ | ⟨_, _, hitem, hx, -⟩ <;> rw [hitem, hx] <;> simp
  refine Nat.le_antisymm ?_ ?_
  · exact List.getElem?_eq_none_iff.mp ((hsame _).mp (List.getElem?_eq_none (Nat.le_refl _)))
  · exact List.getElem?_eq_none_iff.mp ((hsame _).mpr (List.getElem?_eq_none (Nat.le_refl _)))

/-- A list has as many items as what it is given by. -/
theorem Gives.length {α : Type} {c : Codec α} {v : Option Json} {xs : List α}
    (h : (list c).Gives [] v xs) : xs.length = ((v.bind Json.items?).getD []).length := by
  have hwrite : ∀ as : List α, (list c).write xs = (list c).write as → xs.length = as.length :=
    fun as has => by simpa using congrArg List.length (Json.arr.inj has)
  cases h with
  | absent h => exact hwrite [] h
  | @read z as _ hread h =>
    cases z with
    | arr items =>
      rw [hwrite as h]
      exact list_length hread
    | _ => cases hread

/-- A list of texts is given by these texts. -/
theorem Gives.texts {items : List Json} {xs : List String}
    (h : (list Codec.text).Gives [] (some (.arr items)) xs) : items = xs.map .str := by
  cases h with
  | @read _ as _ hread h =>
    have has : xs.map Json.str = as.map Json.str := Json.arr.inj h
    rw [has]
    refine List.ext_getElem? fun i => ?_
    rw [List.getElem?_map]
    rcases list_read hread i with ⟨hnone, hnone'⟩ | ⟨z, a, hz, ha, hread'⟩
    · rw [hnone, hnone', Option.map_none]
    · rw [hz, ha, Option.map_some]
      cases z <;> cases hread'
      rfl

/-- **An item of a list** is given by the item at its position. -/
theorem Gives.item {α : Type} {c : Codec α} (missing : α) {v : Option Json} {xs : List α}
    (h : (list c).Gives [] v xs) {i : Nat} {x : α} (hx : xs[i]? = some x) :
    ∃ z, ((v.bind Json.items?).getD [])[i]? = some z ∧ c.Gives missing (some z) x := by
  have hitem : ∀ as : List α, (list c).write xs = (list c).write as →
      ∃ a, as[i]? = some a ∧ c.write x = c.write a := fun as has => by
    have hi := congrArg (·[i]?) (Json.arr.inj has)
    simp only [List.getElem?_map, hx, Option.map_some] at hi
    obtain ⟨a, ha, hw⟩ := Option.map_eq_some_iff.mp hi.symm
    exact ⟨a, ha, hw.symm⟩
  cases h with
  | absent h =>
    obtain ⟨a, ha, -⟩ := hitem [] h
    cases ha
  | @read z as _ hread h =>
    obtain ⟨a, ha, hw⟩ := hitem as h
    cases z with
    | arr items =>
      rcases list_read hread i with ⟨-, hnone⟩ | ⟨z, a', hz, ha', hread'⟩
      · cases hnone.symm.trans ha
      · cases ha'.symm.trans ha
        exact ⟨z, hz, .read hread' hw⟩
    | _ => cases hread

end Codec

end Decode

end Provision
