import Provision.Decode.FromJson
import Provision.Proofs.Json.Shape

/-!
# What reading a value keeps

A value is read and written again. What is written has content only where the value had, and every
text, number and truth value of the value is written again where it was, but for the number zero of
a partition, which stands for no number.

* `Kept`: what is written of a value that was read.
* `RecordField.read_spec`: each field of a record is read from its entry, and no other entry changes
  it.
* `Codec.keepsAt_record`: a record keeps what its fields keep.
-/

set_option autoImplicit false

namespace Provision.Decode

/-- A number zero, which is not written. -/
def Unwritten (t : Trail) (x : Json) : Prop :=
  t.getLast? = some (.key "number") ∧ x = .int 0

theorem unwritten_cons {s : Segment} {t : Trail} {x : Json} (h : Unwritten t x) :
    Unwritten (s :: t) x := by
  refine ⟨?_, h.2⟩
  rw [List.getLast?_cons, h.1]
  rfl

/-- What is written has content only where the value has. -/
def Backed (v j : Json) : Prop :=
  ∀ t y, j.at? t = some y → y.isEmpty = false → ∃ z, v.at? t = some z ∧ z.isEmpty = false

/-- What is written of a value that was read. -/
structure Kept (v j : Json) : Prop where
  distinct : j.isDistinct = true
  backed : Backed v j
  /-- Every leaf with content is written where it was. -/
  leaf : ∀ t x, v.at? t = some x → x.isScalar = true → x.isEmpty = false → ¬Unwritten t x →
    j.at? t = some x

theorem Backed.refl (v : Json) : Backed v v := fun _ y hy he => ⟨y, hy, he⟩

theorem kept_of_isScalar {v : Json} (h : v.isScalar = true) : Kept v v where
  distinct := by cases v <;> first | rfl | cases h
  backed := .refl v
  leaf _ _ hx _ _ _ := hx

/-- Reading a value with a form and writing it again keeps it. -/
def Codec.KeepsAt {α : Type} (c : Codec α) (v : Json) : Prop :=
  ∀ x, c.ofJson v = .ok x → Kept v (c.write x)

section Fields

variable {σ α : Type}

/-- Reading a value into a field and writing the field again keeps it. -/
structure RecordField.KeepsAt (f : RecordField σ) (z : Json) : Prop where
  written : ∀ r r' y, f.read jsonView z r = .ok r' → f.write r' = some y →
    y.isDistinct = true ∧ Backed z y
  leaf : ∀ r r' t x, f.read jsonView z r = .ok r' → z.at? t = some x → x.isScalar = true →
    x.isEmpty = false → ¬Unwritten (.key f.name :: t) x → ∃ y, f.write r' = some y ∧ y.at? t = some x

/-- Reading a field leaves another one as it is, in any kind of document. -/
def RecordField.Leaves (f g : RecordField σ) : Prop :=
  ∀ {ν : Type} {v : View ν} {z : ν} {r r' : σ}, f.read v z r = .ok r' → g.write r' = g.write r

/-- Reading a field leaves some others as they are, and reading these leaves it as it is. -/
def RecordField.Apart (f : RecordField σ) : List (RecordField σ) → Prop
  | [] => True
  | g :: rest => (f.Leaves g ∧ g.Leaves f) ∧ Apart f rest

/-- Reading a field leaves all others as they are. -/
def RecordField.Independent : List (RecordField σ) → Prop
  | [] => True
  | f :: rest => f.Apart rest ∧ Independent rest

/-! ## Fields -/

namespace RecordField

variable {name : String} {c : Codec α} {get : σ → α} {set : α → σ → σ}

theorem read_eq_ok {z : Json} {r r' : σ}
    (h : (c.read jsonView z).map (fun a => set a r) = .ok r') :
    ∃ a, c.ofJson z = .ok a ∧ r' = set a r := by
  cases ha : c.read jsonView z with
  | error e => rw [ha] at h; cases h
  | ok a =>
    rw [ha] at h
    exact ⟨a, ha, by cases h; rfl⟩

theorem read_plain {z : Json} {r r' : σ}
    (h : (plain name c get set).read jsonView z r = .ok r') :
    ∃ a, c.ofJson z = .ok a ∧ r' = set a r :=
  read_eq_ok h

/-- A field that sets a part of the record leaves what is written of another part. -/
theorem leaves_of_read {f g : RecordField σ}
    (hread : ∀ (ν : Type) (v : View ν) (z : ν) (r : σ),
      f.read v z r = (c.read v z).map fun a => set a r)
    (h : ∀ a r, g.write (set a r) = g.write r) : f.Leaves g := by
  intro ν v z r r' hr
  rw [hread] at hr
  cases ha : c.read v z with
  | error e =>
    rw [ha] at hr
    cases hr
  | ok a =>
    rw [ha] at hr
    cases hr
    exact h a r

theorem keepsAt_plain {z : Json} (hget : ∀ a r, get (set a r) = a) (hc : c.KeepsAt z) :
    (plain name c get set).KeepsAt z := by
  constructor
  · intro r r' y hr hw
    obtain ⟨a, ha, rfl⟩ := read_eq_ok hr
    cases hw
    rw [hget]
    exact ⟨(hc a ha).distinct, (hc a ha).backed⟩
  · intro r r' t x hr hx hs he hu
    obtain ⟨a, ha, rfl⟩ := read_eq_ok hr
    refine ⟨_, rfl, ?_⟩
    rw [hget]
    exact (hc a ha).leaf t x hx hs he fun h => hu (unwritten_cons h)

/-- A field that is left out when empty loses nothing if what it leaves out has no content. -/
theorem keepsAt_sparse [DecidableEq α] {empty : α} {z : Json} (hget : ∀ a r, get (set a r) = a)
    (he : (c.write empty).isEmpty = true ∨ (name = "number" ∧ c.write empty = .int 0))
    (hc : c.KeepsAt z) : (sparse empty name c get set).KeepsAt z := by
  constructor
  · intro r r' y hr hw
    obtain ⟨a, ha, rfl⟩ := read_eq_ok hr
    simp only [sparse, hget] at hw
    split at hw
    · cases hw
    · cases hw
      exact ⟨(hc a ha).distinct, (hc a ha).backed⟩
  · intro r r' t x hr hx hs hne hu
    obtain ⟨a, ha, rfl⟩ := read_eq_ok hr
    have hw := (hc a ha).leaf t x hx hs hne fun h => hu (unwritten_cons h)
    simp only [sparse, hget]
    split
    · next hempty =>
      -- Nothing is left out that has content.
      rw [hempty] at hw
      rcases he with he | ⟨rfl, he⟩
      · rw [Json.isEmpty_of_at he hw] at hne
        cases hne
      · rw [he] at hw
        cases t with
        | nil => cases hw; exact absurd ⟨rfl, rfl⟩ hu
        | cons s t => simp [Json.int] at hw
    · exact ⟨_, rfl, hw⟩

theorem read_optional {get : σ → Option α} {set : Option α → σ → σ} {z : Json} {r r' : σ}
    (h : (optional name c get set).read jsonView z r = .ok r') :
    (z = .null ∧ r' = set none r) ∨ ∃ a, c.ofJson z = .ok a ∧ r' = set (some a) r := by
  obtain ⟨a, ha, rfl⟩ := read_eq_ok h
  simp only [Codec.ofJson, Codec.option] at ha
  cases z with
  | null =>
    cases ha
    exact .inl ⟨rfl, rfl⟩
  | _ =>
    simp only [jsonView, Except.map] at ha
    split at ha
    · cases ha
    · next b hb =>
      cases ha
      exact .inr ⟨b, hb, rfl⟩

theorem keepsAt_optional {get : σ → Option α} {set : Option α → σ → σ} {z : Json}
    (hget : ∀ a r, get (set a r) = a) (hc : c.KeepsAt z) :
    (optional name c get set).KeepsAt z := by
  constructor
  · intro r r' y hr hw
    rcases read_optional hr with ⟨-, rfl⟩ | ⟨a, ha, rfl⟩
    · simp [optional, hget] at hw
    · simp only [optional, hget, Option.map_some, Option.some.injEq] at hw
      rw [← hw]
      exact ⟨(hc a ha).distinct, (hc a ha).backed⟩
  · intro r r' t x hr hx hs hne hu
    rcases read_optional hr with ⟨rfl, -⟩ | ⟨a, ha, rfl⟩
    · cases t with
      | nil => cases hx; cases hs
      | cons s t => simp at hx
    · refine ⟨c.write a, by simp [optional, hget], ?_⟩
      exact (hc a ha).leaf t x hx hs hne fun h => hu (unwritten_cons h)

end RecordField

end Fields

/-! ## Records -/

section Records

variable {σ : Type} {fields : List (RecordField σ)}

namespace RecordField

theorem eq_of_name_eq (hn : (fields.map (·.name)).Nodup) {f g : RecordField σ} (hf : f ∈ fields)
    (hg : g ∈ fields) (h : f.name = g.name) : f = g := by
  induction fields with
  | nil => cases hf
  | cons e rest ih =>
    rw [List.map_cons, List.nodup_cons] at hn
    rcases List.mem_cons.mp hf with rfl | hf' <;> rcases List.mem_cons.mp hg with rfl | hg'
    · rfl
    · exact absurd (List.mem_map.mpr ⟨g, hg', h.symm⟩) hn.1
    · exact absurd (List.mem_map.mpr ⟨f, hf', h⟩) hn.1
    · exact ih hn.2 hf' hg'

theorem Apart.leaves {f g : RecordField σ} (h : f.Apart fields) (hg : g ∈ fields) :
    f.Leaves g ∧ g.Leaves f := by
  induction fields with
  | nil => cases hg
  | cons e rest ih =>
    rcases List.mem_cons.mp hg with rfl | hg'
    · exact h.1
    · exact ih h.2 hg'

theorem Independent.leaves {f g : RecordField σ} (h : Independent fields) (hf : f ∈ fields)
    (hg : g ∈ fields) (hne : f.name ≠ g.name) : f.Leaves g := by
  induction fields with
  | nil => cases hf
  | cons e rest ih =>
    rcases List.mem_cons.mp hf with rfl | hf' <;> rcases List.mem_cons.mp hg with rfl | hg'
    · exact absurd rfl hne
    · exact (h.1.leaves hg').1
    · exact (h.1.leaves hf').2
    · exact ih h.2 hf' hg'

/-- What became of a field: it was read from its entry, or it has none and is as it was. -/
def ReadFrom (members : List (String × Json)) (r r' : σ) (f : RecordField σ) : Prop :=
  (∃ z r₁ r₂, (f.name, z) ∈ members ∧ f.read jsonView z r₁ = .ok r₂ ∧ f.write r' = f.write r₂) ∨
    ((∀ z, (f.name, z) ∉ members) ∧ f.write r' = f.write r)

/-- **Each field is read from its entry, and no other entry changes it.** -/
theorem read_spec (hn : (fields.map (·.name)).Nodup) (hi : Independent fields) (whole : Json)
    {members : List (String × Json)} {state state' : σ × List String}
    (h : (members.map fun (k, x) => (Json.str k, x)).foldlM (readEntry jsonView fields whole) state
      = .ok state') {f : RecordField σ} (hf : f ∈ fields) :
    ReadFrom members state.1 state'.1 f := by
  induction members generalizing state with
  | nil =>
    cases h
    exact .inr ⟨fun _ => List.not_mem_nil, rfl⟩
  | cons e rest ih =>
    obtain ⟨k, z⟩ := e
    rw [List.map_cons, List.foldlM_cons] at h
    cases hs : readEntry jsonView fields whole state (Json.str k, z) with
    | error e => rw [hs] at h; cases h
    | ok state₁ =>
      rw [hs] at h
      rcases ih h with ⟨z', r₁, r₂, hz', hr, hw⟩ | ⟨hnone, hw⟩
      · exact .inl ⟨z', r₁, r₂, List.mem_cons_of_mem _ hz', hr, hw⟩
      -- The field is not read later, so what matters is what this entry does to it.
      · change readKeyed jsonView fields whole state (.name k) (Json.str k, z) = _ at hs
        rw [readKeyed, find?] at hs
        split at hs
        · next hfind =>
          cases hs
          have hne : f.name ≠ k := by simpa using List.find?_eq_none.mp hfind f hf
          refine .inr ⟨fun z' hz' => ?_, hw⟩
          rcases List.mem_cons.mp hz' with hz' | hz'
          · exact hne (congrArg Prod.fst hz')
          · exact hnone z' hz'
        · next g hfind =>
          have hg : g ∈ fields := List.mem_of_find?_eq_some hfind
          have hk : g.name = k := by simpa using List.find?_some hfind
          subst hk
          split at hs
          · cases hs
          · cases hr : g.read jsonView z state.1 with
            | error e => rw [hr] at hs; cases hs
            | ok r₁ =>
              rw [hr] at hs
              cases hs
              by_cases hfg : f.name = g.name
              · cases eq_of_name_eq hn hf hg hfg
                exact .inl ⟨z, state.1, r₁, List.mem_cons_self, hr, hw⟩
              · refine .inr ⟨fun z' hz' => ?_, hw.trans (hi.leaves hg hf (Ne.symm hfg) hr)⟩
                rcases List.mem_cons.mp hz' with hz' | hz'
                · exact hfg (congrArg Prod.fst hz')
                · exact hnone z' hz'

/-- Members are written in the order of the fields, and only for these. -/
theorem names_members (fields : List (RecordField σ)) (r : σ) :
    ((members fields r).map Prod.fst).Sublist (fields.map (·.name)) := by
  induction fields with
  | nil => exact List.Sublist.slnil
  | cons f rest ih =>
    rw [members, List.filterMap_cons, List.map_cons]
    cases f.write r with
    | none => exact .cons _ ih
    | some y => exact .cons_cons _ ih

theorem nodup_members (hn : (fields.map (·.name)).Nodup) (r : σ) :
    ((members fields r).map Prod.fst).Nodup :=
  hn.sublist (names_members fields r)

/-- The members that are written for a record. -/
theorem lookup_members (hn : (fields.map (·.name)).Nodup) {r : σ} {k : String} {y : Json} :
    Json.lookup k (members fields r) = some y ↔
      ∃ f ∈ fields, f.name = k ∧ f.write r = some y := by
  rw [Json.lookup_eq_some_iff (nodup_members hn r), members, List.mem_filterMap]
  constructor
  · rintro ⟨f, hf, he⟩
    obtain ⟨y', hy, he⟩ := Option.map_eq_some_iff.mp he
    cases he
    exact ⟨f, hf, rfl, hy⟩
  · rintro ⟨f, hf, rfl, hy⟩
    exact ⟨f, hf, by rw [hy]; rfl⟩

end RecordField

/-- What a record is read from, if it is an object: each field from its entry. -/
theorem Codec.record_read {name : String} {empty r : σ} {members : List (String × Json)}
    (hn : (fields.map (·.name)).Nodup) (hi : RecordField.Independent fields)
    (h : (Codec.record name empty fields).ofJson (.obj members) = .ok r) {f : RecordField σ}
    (hf : f ∈ fields) : RecordField.ReadFrom members empty r f := by
  change RecordField.readNamed jsonView fields empty (.obj members) _ = .ok r at h
  rw [RecordField.readNamed] at h
  cases hfold : (members.map fun e => (Json.str e.1, e.2)).foldlM
      (RecordField.readEntry jsonView fields (.obj members)) (empty, []) with
  | error e => rw [hfold] at h; cases h
  | ok state =>
    rw [hfold] at h
    have hs := RecordField.read_spec hn hi (.obj members) hfold hf
    obtain ⟨r', seen⟩ := state
    dsimp only [bind, Except.bind] at h
    split at h
    · cases h
    · cases h
      exact hs

/-- **A record keeps what its fields keep**, if each field that is always written has an entry. -/
theorem Codec.keepsAt_record {name : String} {empty : σ} {members : List (String × Json)}
    (hn : (fields.map (·.name)).Nodup) (hi : RecordField.Independent fields)
    (hd : (Json.obj members).isDistinct = true)
    (hk : ∀ k z, (k, z) ∈ members → ∃ f ∈ fields, f.name = k ∧ f.KeepsAt z)
    (he : ∀ f ∈ fields, f.write empty = none ∨ ∃ z, (f.name, z) ∈ members) :
    (Codec.record name empty fields).KeepsAt (.obj members) := by
  intro r hr
  have hmem := (Json.isDistinct_obj.mp hd).1
  -- What is written for a field was read from its entry.
  have written : ∀ f ∈ fields, ∀ y, f.write r = some y → ∃ z, (f.name, z) ∈ members ∧
      y.isDistinct = true ∧ Backed z y := by
    intro f hf y hy
    rcases Codec.record_read hn hi hr hf with ⟨z, r₁, r₂, hz, hread, hw⟩ | ⟨hnone, hw⟩
    · obtain ⟨g, hg, hname, hkeeps⟩ := hk _ _ hz
      cases RecordField.eq_of_name_eq hn hg hf hname
      exact ⟨z, hz, hkeeps.written r₁ r₂ y hread (hw ▸ hy)⟩
    · rcases he f hf with he | ⟨z, hz⟩
      · rw [hw, he] at hy
        cases hy
      · exact absurd hz (hnone z)
  constructor
  · refine Json.isDistinct_obj.mpr ⟨RecordField.nodup_members hn r, fun e hm => ?_⟩
    have hl := (Json.lookup_eq_some_iff (RecordField.nodup_members hn r)).mpr hm
    obtain ⟨f, hf, -, hy⟩ := (RecordField.lookup_members hn).mp hl
    obtain ⟨z, -, hdist, -⟩ := written f hf _ hy
    exact hdist
  · intro t y hy hne
    cases t with
    | nil =>
      cases hy
      refine ⟨_, rfl, ?_⟩
      cases hm : RecordField.members fields r with
      | nil =>
        change (Json.obj (RecordField.members fields r)).isEmpty = false at hne
        rw [hm] at hne
        cases hne
      | cons e rest =>
        have hl := (Json.lookup_eq_some_iff (RecordField.nodup_members hn r)).mpr
          (hm ▸ List.mem_cons_self : e ∈ RecordField.members fields r)
        obtain ⟨f, hf, -, hy⟩ := (RecordField.lookup_members hn).mp hl
        obtain ⟨z, hz, -⟩ := written f hf _ hy
        cases members with
        | nil => cases hz
        | cons => rfl
    | cons s t =>
      obtain ⟨y', hy', hyt⟩ := Option.bind_eq_some_iff.mp hy
      cases s with
      | index => cases hy'
      | key k =>
        obtain ⟨f, hf, rfl, hw⟩ := (RecordField.lookup_members hn).mp hy'
        obtain ⟨z, hz, -, hb⟩ := written f hf _ hw
        obtain ⟨x, hx, hxe⟩ := hb t y hyt hne
        refine ⟨x, (Json.at?_cons_of_child ?_ t).trans hx, hxe⟩
        exact (Json.lookup_eq_some_iff hmem).mpr hz
  · intro t x hx hs hne hu
    cases t with
    | nil => cases hx; cases hs
    | cons s t =>
      obtain ⟨z, hz, hxt⟩ := Option.bind_eq_some_iff.mp hx
      cases s with
      | index => cases hz
      | key k =>
        have hz' := (Json.lookup_eq_some_iff hmem).mp hz
        obtain ⟨f, hf, rfl, hkeeps⟩ := hk k z hz'
        rcases Codec.record_read hn hi hr hf with ⟨z', r₁, r₂, hzm, hread, hw⟩ | ⟨hnone, -⟩
        · cases hz.symm.trans ((Json.lookup_eq_some_iff hmem).mpr hzm)
          obtain ⟨y, hy, hyt⟩ := hkeeps.leaf r₁ r₂ t x hread hxt hs hne hu
          refine (Json.at?_cons_of_child ?_ t).trans hyt
          exact (RecordField.lookup_members hn).mpr ⟨f, hf, rfl, hw.trans hy⟩
        · exact absurd hz' (hnone z)

end Records

end Provision.Decode
