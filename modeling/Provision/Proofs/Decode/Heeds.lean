import Provision.Proofs.Decode.Invariant
import Provision.Proofs.Decode.Keeps
import Provision.Proofs.Yaml.Trails

/-!
# Forms that heed what they are given

A part of a document is heeded if it matters what stands there: with some other value in its place
the document is not read. Whatever a form writes again of what it has read from a document, it has
heeded there.

* `Codec.Heeds`: a form heeds all parts of a document that it writes again.
* `Codec.heeds_of_scalars`, `Codec.heeds_list`, `Codec.heeds_texts`: scalars, lists and texts with
  names.
* `Codec.heeds_record`: a record heeds what its fields heed.
* `readDocument_heeds`: so does a document with sections.
-/

set_option autoImplicit false

namespace Provision.Decode

open Yaml (Datum ScalarValue)
open Yaml.Datum (keyText?)

/-! ## Folds that succeed -/

section Folds

variable {ε β σ : Type} {step : σ → β → Except ε σ}

/-- If all steps succeed, each of them does, between those before and those after it. -/
theorem foldlM_split {before after : List β} {b : β} {s s' : σ}
    (h : (before ++ b :: after).foldlM step s = .ok s') :
    ∃ s₁ s₂, step s₁ b = .ok s₂ ∧ after.foldlM step s₂ = .ok s' := by
  rw [List.foldlM_append] at h
  obtain ⟨s₁, -, h⟩ := bind_eq_ok h
  rw [List.foldlM_cons] at h
  obtain ⟨s₂, hstep, hafter⟩ := bind_eq_ok h
  exact ⟨s₁, s₂, hstep, hafter⟩

/-- A step that fails in every state makes the whole fail. -/
theorem foldlM_refuses {entries : List β} {b : β} (hb : b ∈ entries)
    (hstep : ∀ s s', step s b ≠ .ok s') (s s' : σ) : entries.foldlM step s ≠ .ok s' := by
  intro h
  obtain ⟨before, after, rfl⟩ := List.append_of_mem hb
  obtain ⟨s₁, s₂, hok, -⟩ := foldlM_split h
  exact hstep s₁ s₂ hok

/-- Steps that do the same where they succeed lead to the same. -/
theorem foldlM_mono {step' : σ → β → Except ε σ}
    (hstep : ∀ s b s', step s b = .ok s' → step' s b = .ok s') (entries : List β) (s s' : σ)
    (h : entries.foldlM step s = .ok s') : entries.foldlM step' s = .ok s' := by
  induction entries generalizing s with
  | nil => exact h
  | cons b entries ih =>
    rw [List.foldlM_cons] at h ⊢
    obtain ⟨s₁, hb, hrest⟩ := bind_eq_ok h
    rw [hstep s b s₁ hb]
    exact ih s₁ hrest

end Folds

/-! ## Views of documents -/

/-- One of the two ways of looking at the values of a document. -/
def View.IsYaml (v : View Datum) : Prop := v = directView ∨ v = resolvedView

/-- A text that is nothing but a text in every style. -/
def isWord (s : String) : Bool :=
  !s.isEmpty && !ScalarValue.isNullWord s && (ScalarValue.bool? s).isNone &&
    (ScalarValue.int? s).isNone && (ScalarValue.float? s).isNone

/-- A value that is never a scalar, a mapping or a case. -/
def noItems : Datum := .sequence ⟨0, 0, 0⟩ none []

/-- A value that is never a sequence, a mapping or a case. -/
def word : Datum := .scalar ⟨0, 0, 0⟩ none .plain "x" false

@[simp] theorem findCase_noItems : findCase noItems = none := rfl

@[simp] theorem findCase_word : findCase word = none := rfl

theorem ofPlain_of_isWord {s : String} (h : isWord s = true) : ScalarValue.ofPlain s = .text s := by
  simp only [isWord, Bool.and_eq_true, Bool.not_eq_true', Option.isNone_iff_eq_none] at h
  obtain ⟨⟨⟨⟨hempty, hnull⟩, hbool⟩, hint⟩, hfloat⟩ := h
  simp [ScalarValue.ofPlain, hempty, hnull, hbool, hint, hfloat]

theorem scalarValue_of_isWord {s : String} (h : isWord s = true) (tag : Option String)
    (style : Yaml.Style) : scalarValue tag style s = .text s := by
  have hplain := ofPlain_of_isWord h
  simp only [isWord, Bool.and_eq_true, Bool.not_eq_true', Option.isNone_iff_eq_none] at h
  obtain ⟨⟨⟨⟨-, hnull⟩, hbool⟩, hint⟩, hfloat⟩ := h
  cases tag with
  | none => by_cases hs : style = .plain <;> simp [scalarValue, ScalarValue.ofScalar?, hs, hplain]
  | some t =>
    simp only [scalarValue, ScalarValue.ofScalar?, hnull, hbool, hint, hfloat, hplain]
    repeat' split
    all_goals first | rfl | contradiction

section Views

variable {v : View Datum} (hv : v.IsYaml)
include hv

/-- A word names a field. -/
theorem View.IsYaml.key {key : Datum} {k : String} (hk : keyText? key = some k)
    (hw : isWord k = true) : v.key key = .ok (.name k) := by
  cases key with
  | sequence => cases hk
  | mapping => cases hk
  | scalar m tag style s copied =>
    cases hk
    rcases hv with rfl | rfl
    · rfl
    · have hfound : foundInYaml (.scalar m tag style k copied) = .text k := by
        rw [foundInYaml, scalarValue_of_isWord hw, foundInScalar]
      simp only [resolvedView, hfound]

theorem View.IsYaml.items_sequence (m : Yaml.Mark) (tag : Option String) (items : List Datum) :
    v.items (.sequence m tag items) = .ok items := by
  rcases hv with rfl | rfl <;> rfl

theorem View.IsYaml.items {x : Datum} {items : List Datum} (h : v.items x = .ok items) :
    (∃ m tag, x = .sequence m tag items) ∨ x.isScalar = true := by
  cases x with
  | scalar => exact .inr rfl
  | sequence m tag xs => rcases hv with rfl | rfl <;> cases h <;> exact .inl ⟨m, tag, rfl⟩
  | mapping => rcases hv with rfl | rfl <;> cases h

theorem View.IsYaml.entries {x : Datum} {entries : List (Datum × Datum)}
    (h : v.entries x = .ok entries) : (∃ m tag, x = .mapping m tag entries) ∨ x.isScalar = true := by
  cases x with
  | scalar => exact .inr rfl
  | sequence => rcases hv with rfl | rfl <;> cases h
  | mapping m tag xs => rcases hv with rfl | rfl <;> cases h <;> exact .inl ⟨m, tag, rfl⟩

theorem View.IsYaml.entries_mapping (m : Yaml.Mark) (tag : Option String)
    (entries : List (Datum × Datum)) : v.entries (.mapping m tag entries) = .ok entries := by
  rcases hv with rfl | rfl <;> rfl

theorem View.IsYaml.parts (name : String) (m : Yaml.Mark) (tag : Option String)
    (entries : List (Datum × Datum)) :
    v.parts name (.mapping m tag entries) = .ok (.named entries) := by
  rcases hv with rfl | rfl <;> rfl

theorem View.IsYaml.present {x : Datum} :
    (v.present x = none → x.isScalar = true) ∧ ∀ y, v.present x = some y → y = x := by
  cases x with
  | scalar m tag style s copied =>
    refine ⟨fun _ => rfl, fun y h => ?_⟩
    rcases hv with rfl | rfl
    · simp only [directView] at h
      grind
    · simp only [resolvedView] at h
      grind
  | sequence =>
    rcases hv with rfl | rfl <;>
      exact ⟨fun h => absurd h (Option.some_ne_none _), fun y h => (Option.some.inj h).symm⟩
  | mapping =>
    rcases hv with rfl | rfl <;>
      exact ⟨fun h => absurd h (Option.some_ne_none _), fun y h => (Option.some.inj h).symm⟩

/-- A word is no collection. -/
theorem View.IsYaml.word : (∀ items, v.items word ≠ .ok items) ∧
    (∀ entries, v.entries word ≠ .ok entries) ∧ ∀ name parts, v.parts name word ≠ .ok parts := by
  rcases hv with rfl | rfl <;> exact ⟨nofun, nofun, nofun⟩

end Views

/-! ## What it is to heed -/

section Forms

variable {α : Type}

/-- No value is read. -/
def Codec.Refuses (v : View Datum) (c : Codec α) (x : Datum) : Prop := ∀ a, c.read v x ≠ .ok a

/-- A part of a document is written as what it is. A sequence that stands for a record is not. -/
def Corresponds : Datum → Json → Prop
  | .mapping _ _ _, y => y.isObject = true
  | .sequence _ _ items, .arr values => items.length = values.length
  | _, _ => True

theorem corresponds_of_isScalar {x : Datum} (hx : x.isScalar = true) (y : Json) :
    Corresponds x y := by
  cases x with
  | scalar => trivial
  | _ => cases hx

/-- What a form has read and writes again is what it heeds: with another value there it refuses. -/
def Codec.Heeds (c : Codec α) : Prop :=
  ∀ v : View Datum, v.IsYaml → ∀ x a t z y, c.read v x = .ok a → x.at? t = some z →
    (c.write a).at? t = some y →
      Corresponds z y ∧ ∃ bad, findCase bad = none ∧ c.Refuses v (x.replace t bad)

/-- A form reads nothing but scalars. -/
def Codec.ReadsScalars (c : Codec α) : Prop :=
  ∀ v : View Datum, v.IsYaml → ∀ x a, c.read v x = .ok a → x.isScalar = true

end Forms

/-! ## Scalars -/

namespace Codec

theorem readsScalars_text : text.ReadsScalars := by
  intro v hv x a h
  cases x with
  | scalar => rfl
  | _ => rcases hv with rfl | rfl <;> cases h

theorem readsScalars_bool : bool.ReadsScalars := by
  intro v hv x a h
  cases x with
  | scalar => rfl
  | _ => rcases hv with rfl | rfl <;> cases h

theorem readsScalars_int : int.ReadsScalars := by
  intro v hv x a h
  cases x with
  | scalar => rfl
  | _ => rcases hv with rfl | rfl <;> cases h

theorem readsScalars_mode : mode.ReadsScalars := by
  intro v hv x a h
  cases x with
  | scalar => rfl
  | _ => rcases hv with rfl | rfl <;> cases h

variable {α : Type} {c : Codec α}

theorem readsScalars_option (hc : c.ReadsScalars) : (option c).ReadsScalars := by
  intro v hv x a h
  simp only [option] at h
  split at h
  · next hx => exact hv.present.1 hx
  · next y hx =>
    obtain ⟨b, hb, -⟩ := map_eq_ok h
    exact hv.present.2 y hx ▸ hc v hv y b hb

/-- A sequence in the place of a scalar is refused. -/
theorem heeds_of_scalars (hc : c.ReadsScalars) : c.Heeds := by
  intro v hv x a t z y h hz hy
  have hx := hc v hv x a h
  cases Datum.at?_of_isScalar hx hz
  cases hz
  refine ⟨corresponds_of_isScalar hx y, noItems, rfl, fun b hb => ?_⟩
  cases hc v hv _ b hb

theorem heeds_text : text.Heeds := heeds_of_scalars readsScalars_text

theorem heeds_mode : mode.Heeds := heeds_of_scalars readsScalars_mode

theorem heeds_option (hc : c.ReadsScalars) : (option c).Heeds :=
  heeds_of_scalars (readsScalars_option hc)

/-! ## Collections -/

/-- An item that is refused makes all of them refused. -/
theorem readItems_refuses {ν : Type} {read : ν → Except Failure α} {items : List ν} {i : Nat}
    {x : ν} (hi : items[i]? = some x) (hx : ∀ a, read x ≠ .ok a) (position : Nat) (xs : List α) :
    readItems read position items ≠ .ok xs := by
  intro h
  rcases getElem?_readItems h i with ⟨hnone, -⟩ | ⟨x', a, hx', -, ha⟩
  · simp [hi] at hnone
  · cases hi.symm.trans hx'
    exact hx a ha

/-- There are as many items as were read. -/
theorem length_readItems {ν : Type} {read : ν → Except Failure α} {items : List ν}
    {position : Nat} {xs : List α} (h : readItems read position items = .ok xs) :
    items.length = xs.length := by
  induction items generalizing position xs with
  | nil =>
    cases h
    rfl
  | cons x items ih =>
    obtain ⟨a, -, h⟩ := bind_eq_ok h
    obtain ⟨rest, hrest, h⟩ := bind_eq_ok h
    cases h
    simp [ih hrest]

/-- **A list heeds what its items heed.** -/
theorem heeds_list (hc : c.Heeds) : (list c).Heeds := by
  intro v hv x as t z y h hz hy
  obtain ⟨items, hitems, hread⟩ := bind_eq_ok h
  cases t with
  | nil =>
    cases hz
    cases hy
    refine ⟨?_, word, rfl, fun b hb => ?_⟩
    · rcases hv.items hitems with ⟨m, tag, rfl⟩ | hx
      · simpa [Corresponds, list] using length_readItems hread
      · exact corresponds_of_isScalar hx _
    · obtain ⟨items', hitems', -⟩ := bind_eq_ok hb
      exact hv.word.1 items' hitems'
  | cons s t =>
    rcases hv.items hitems with ⟨m, tag, rfl⟩ | hx
    · cases s with
      | key => cases hz
      | index i =>
        obtain ⟨x', hx', hz⟩ := Option.bind_eq_some_iff.mp hz
        obtain ⟨y', hy', hy⟩ := Option.bind_eq_some_iff.mp hy
        obtain ⟨m', tag', items', heq, hx', hreplace⟩ := Datum.replace_index hx'
        cases heq
        rcases getElem?_readItems hread i with ⟨hnone, -⟩ | ⟨x'', a, hx'', ha, hreads⟩
        · cases hnone.symm.trans hx'
        · cases hx'.symm.trans hx''
          have hwritten : c.write a = y' := by
            simpa [list, Json.child?, Json.item?, ha] using hy'
          subst hwritten
          obtain ⟨hkind, bad, hbad, hrefuses⟩ := hc v hv x' a t z y hreads hz hy
          refine ⟨hkind, bad, hbad, fun b hb => ?_⟩
          obtain ⟨items', hitems', hread'⟩ := bind_eq_ok hb
          rw [hreplace t bad] at hitems'
          cases hitems'.symm.trans (hv.items_sequence _ _ _)
          exact readItems_refuses (by rw [List.getElem?_modify_eq, hx']; rfl) hrefuses 0 b hread'
    · cases Datum.at?_of_isScalar hx hz

/-- Texts with names heed each of them. -/
theorem heeds_texts : texts.Heeds := by
  intro v hv x as t z y h hz hy
  obtain ⟨entries, hentries, hread⟩ := bind_eq_ok h
  rcases hv.entries hentries with ⟨m, tag, rfl⟩ | hx
  · cases t with
    | nil =>
      cases hz
      cases hy
      refine ⟨rfl, word, rfl, fun b hb => ?_⟩
      obtain ⟨entries', hentries', -⟩ := bind_eq_ok hb
      exact hv.word.2.1 entries' hentries'
    | cons s t =>
      obtain ⟨x', hx', hz'⟩ := Option.bind_eq_some_iff.mp hz
      cases s with
      | index => cases hx'
      | key k =>
        obtain ⟨m', tag', before, key, after, heq, -, hreplace⟩ := Datum.replace_key hx'
        cases heq
        obtain ⟨known, known', hstep, -⟩ := foldlM_split hread
        obtain ⟨name, hname, hstep⟩ := bind_eq_ok hstep
        obtain ⟨value, hvalue, -⟩ := bind_eq_ok hstep
        -- The value of the key is a text, so the trail ends there.
        have hx'' := readsScalars_text v hv x' value (below_eq_ok hvalue)
        cases Datum.at?_of_isScalar hx'' hz'
        cases hz'
        refine ⟨corresponds_of_isScalar hx'' y, noItems, rfl, fun b hb => ?_⟩
        obtain ⟨entries', hentries', hread'⟩ := bind_eq_ok hb
        rw [hreplace] at hentries'
        cases hentries'.symm.trans (hv.entries_mapping _ _ _)
        refine foldlM_refuses (List.mem_append_right _ List.mem_cons_self) ?_ [] b hread'
        intro known known' hstep
        obtain ⟨name', -, hstep⟩ := bind_eq_ok hstep
        obtain ⟨value', hvalue', -⟩ := bind_eq_ok hstep
        cases readsScalars_text v hv _ value' (below_eq_ok hvalue')
  · cases Datum.at?_of_isScalar hx hz
    cases hz
    refine ⟨corresponds_of_isScalar hx y, word, rfl, fun b hb => ?_⟩
    obtain ⟨entries', hentries', -⟩ := bind_eq_ok hb
    exact hv.word.2.1 entries' hentries'

end Codec

/-! ## Records -/

section Records

variable {σ τ α : Type}

namespace RecordField

/-- What a field has read and writes again is what it heeds. -/
def Heeds (f : RecordField σ) : Prop :=
  ∀ v : View Datum, v.IsYaml → ∀ x r r' w t z y, f.read v x r = .ok r' → f.write r' = some w →
    x.at? t = some z → w.at? t = some y →
      Corresponds z y ∧ ∃ bad, findCase bad = none ∧
        ∀ r r', f.read v (x.replace t bad) r ≠ .ok r'

/-- All fields heed what they are given. -/
def HeedAll : List (RecordField σ) → Prop
  | [] => True
  | f :: fields => f.Heeds ∧ HeedAll fields

theorem HeedAll.mem {fields : List (RecordField σ)} (h : HeedAll fields) {f : RecordField σ}
    (hf : f ∈ fields) : f.Heeds := by
  induction fields with
  | nil => cases hf
  | cons g fields ih =>
    rcases List.mem_cons.mp hf with rfl | hf
    · exact h.1
    · exact ih h.2 hf

theorem heeds_plain {name : String} {c : Codec α} {get : σ → α} {set : α → σ → σ}
    (hc : c.Heeds) (hget : (fun a r => get (set a r)) = fun a _ => a) :
    (plain name c get set).Heeds := by
  intro v hv x r r' w t z y hread hwrite hz hy
  obtain ⟨a, ha, rfl⟩ := map_eq_ok hread
  cases hwrite
  have hy : (c.write a).at? t = some y := congrFun (congrFun hget a) r ▸ hy
  obtain ⟨hkind, bad, hbad, hrefuses⟩ := hc v hv x a t z y ha hz hy
  refine ⟨hkind, bad, hbad, fun r r' h => ?_⟩
  obtain ⟨b, hb, -⟩ := map_eq_ok h
  exact hrefuses b hb

theorem heeds_lift {f : RecordField σ} {get : τ → σ} {set : σ → τ → τ} (hf : f.Heeds)
    (hget : (fun a r => get (set a r)) = fun a _ => a) : (lift get set f).Heeds := by
  intro v hv x r r' w t z y hread hwrite hz hy
  obtain ⟨a, ha, rfl⟩ := map_eq_ok hread
  have hwrite : f.write a = some w := congrFun (congrFun hget a) r ▸ hwrite
  obtain ⟨hkind, bad, hbad, hrefuses⟩ := hf v hv x _ _ w t z y ha hwrite hz hy
  refine ⟨hkind, bad, hbad, fun r r' h => ?_⟩
  obtain ⟨b, hb, -⟩ := map_eq_ok h
  exact hrefuses _ b hb

theorem heedAll_append {fields others : List (RecordField σ)} (h : HeedAll fields)
    (h' : HeedAll others) : HeedAll (fields ++ others) := by
  induction fields with
  | nil => exact h'
  | cons f fields ih => exact ⟨h.1, ih h.2⟩

theorem heedAll_lift {fields : List (RecordField σ)} {get : τ → σ} {set : σ → τ → τ}
    (h : HeedAll fields) (hget : (fun a r => get (set a r)) = fun a _ => a) :
    HeedAll (fields.map (lift get set)) := by
  induction fields with
  | nil => trivial
  | cons f fields ih => exact ⟨heeds_lift h.1 hget, ih h.2⟩

variable {fields : List (RecordField σ)} {v : View Datum}

theorem find?_name (hn : (fields.map (·.name)).Nodup) {f : RecordField σ} (hf : f ∈ fields) :
    find? fields (.name f.name) = some f := by
  cases hfind : fields.find? (·.name = f.name) with
  | none => simpa using List.find?_eq_none.mp hfind f hf
  | some g =>
    have hname : g.name = f.name := by simpa using List.find?_some hfind
    cases eq_of_name_eq hn (List.mem_of_find?_eq_some hfind) hf hname
    exact hfind

/-- Reads one entry into a record, whatever a key is taken for. -/
def readBy (keyOf : Datum → Except Failure Key) (v : View Datum) (fields : List (RecordField σ))
    (whole : Datum) (state : σ × List String) (entry : Datum × Datum) :
    Except Failure (σ × List String) := do
  let key ← keyOf entry.1
  readKeyed v fields whole state key entry

section Entries

variable {f : RecordField σ} {keyOf : Datum → Except Failure Key} {whole key z : Datum}
  {before after : List (Datum × Datum)} {state state' : σ × List String}

/-- A field that others leave as it is can only change where it is read itself. -/
theorem write_of_readBy (hleaves : ∀ g ∈ fields, g.name ≠ f.name → g.Leaves f)
    (hf : f.name ∉ fields.map (·.name) ∨ f.name ∈ state.2) {entry : Datum × Datum}
    (h : readBy keyOf v fields whole state entry = .ok state') :
    f.write state'.1 = f.write state.1 ∧ ∀ name ∈ state.2, name ∈ state'.2 := by
  obtain ⟨k, -, h⟩ := bind_eq_ok h
  rw [readKeyed] at h
  split at h
  · cases h
    exact ⟨rfl, fun _ hname => hname⟩
  · next g hfind =>
    have hg := mem_of_find? hfind
    split at h
    · cases h
    · next hnew =>
      obtain ⟨r, hread, h⟩ := bind_eq_ok h
      cases h
      have hne : g.name ≠ f.name := by
        intro he
        rcases hf with hf | hf
        · exact hf (he ▸ List.mem_map_of_mem hg)
        · exact hnew (he ▸ hf)
      exact ⟨hleaves g hg hne (below_eq_ok hread), fun _ => List.mem_cons_of_mem _⟩

/-- Entries that are read leave a field as it is if it is not among those that they can name. -/
theorem write_of_fold (hleaves : ∀ g ∈ fields, g.name ≠ f.name → g.Leaves f)
    (hf : f.name ∉ fields.map (·.name) ∨ f.name ∈ state.2) {entries : List (Datum × Datum)}
    (h : entries.foldlM (readBy keyOf v fields whole) state = .ok state') :
    f.write state'.1 = f.write state.1 := by
  have hkept := @foldlM_induct _ _ _
    (fun s => f.write s.1 = f.write state.1 ∧ (f.name ∉ fields.map (·.name) ∨ f.name ∈ s.2)) _
    (fun s entry s' hs hread => by
      obtain ⟨hwrite, hseen⟩ := write_of_readBy hleaves hs.2 hread
      exact ⟨hwrite.trans hs.1, hs.2.imp_right (hseen _)⟩) entries _ _ ⟨rfl, hf⟩ h
  exact hkept.1

/-- **A field is what its entry says**, whatever comes before and after. -/
theorem read_of_fold (hn : (fields.map (·.name)).Nodup) (hf : f ∈ fields)
    (hleaves : ∀ g ∈ fields, g.name ≠ f.name → g.Leaves f)
    (hkey : keyOf key = .ok (.name f.name))
    (h : (before ++ (key, z) :: after).foldlM (readBy keyOf v fields whole) state = .ok state') :
    ∃ r r', f.read v z r = .ok r' ∧ f.write state'.1 = f.write r' := by
  obtain ⟨s₁, s₂, hstep, hafter⟩ := foldlM_split h
  rw [readBy, hkey] at hstep
  change readKeyed v fields whole s₁ (.name f.name) (key, z) = .ok s₂ at hstep
  rw [readKeyed, find?_name hn hf] at hstep
  dsimp only at hstep
  split at hstep
  · cases hstep
  · obtain ⟨r, hread, hstep⟩ := bind_eq_ok hstep
    cases hstep
    exact ⟨_, _, below_eq_ok hread, write_of_fold hleaves (.inr List.mem_cons_self) hafter⟩

/-- An entry whose value its field refuses makes all of them refused. -/
theorem fold_refuses (hn : (fields.map (·.name)).Nodup) (hf : f ∈ fields)
    (hkey : keyOf key = .ok (.name f.name)) (hz : ∀ r r', f.read v z r ≠ .ok r') :
    (before ++ (key, z) :: after).foldlM (readBy keyOf v fields whole) state ≠ .ok state' := by
  refine foldlM_refuses (List.mem_append_right _ List.mem_cons_self) (fun s s' hstep => ?_) _ _
  rw [readBy, hkey] at hstep
  change readKeyed v fields whole s (.name f.name) (key, z) = .ok s' at hstep
  rw [readKeyed, find?_name hn hf] at hstep
  dsimp only at hstep
  split at hstep
  · cases hstep
  · obtain ⟨r, hread, -⟩ := bind_eq_ok hstep
    exact hz _ r (below_eq_ok hread)

/-- An entry that names no field is passed over, whatever its value and whatever the whole is. -/
theorem fold_unread {whole' y : Datum} {k : String} (hkey : keyOf key = .ok (.name k))
    (hk : find? fields (.name k) = none)
    (h : (before ++ (key, z) :: after).foldlM (readBy keyOf v fields whole) state = .ok state') :
    (before ++ (key, y) :: after).foldlM (readBy keyOf v fields whole') state = .ok state' := by
  -- The whole only shows in failures.
  have hstep : ∀ (entries : List (Datum × Datum)) s s',
      entries.foldlM (readBy keyOf v fields whole) s = .ok s' →
        entries.foldlM (readBy keyOf v fields whole') s = .ok s' :=
    foldlM_mono fun s e s' hread => by
      obtain ⟨key, hkey, hread⟩ := bind_eq_ok hread
      rw [readBy, hkey]
      change readKeyed v fields whole' s key e = .ok s'
      rw [readKeyed] at hread ⊢
      split at hread
      · exact hread
      · split at hread
        · cases hread
        · next hnew =>
          rw [if_neg hnew]
          exact hread
  have hpass : ∀ whole x s, readBy keyOf v fields whole s (key, x) = .ok s := by
    intro whole x s
    rw [readBy, hkey]
    change readKeyed v fields whole s (.name k) (key, x) = .ok s
    rw [readKeyed, hk]
  rw [List.foldlM_append] at h ⊢
  obtain ⟨s, hbefore, h⟩ := bind_eq_ok h
  rw [hstep _ _ _ hbefore]
  change ((key, y) :: after).foldlM (readBy keyOf v fields whole') s = .ok state'
  rw [List.foldlM_cons, hpass] at h ⊢
  exact hstep _ _ _ h

end Entries

end RecordField

variable {fields : List (RecordField σ)}

/-- **A record heeds what its fields heed.** -/
theorem Codec.heeds_record {name : String} {empty : σ} (hi : RecordField.Independent fields)
    (hn : (fields.map (·.name)).Nodup) (hw : ∀ f ∈ fields, isWord f.name = true)
    (h : RecordField.HeedAll fields) : (Codec.record name empty fields).Heeds := by
  intro v hv x r t z y hread hz hy
  cases t with
  | nil =>
    cases hz
    cases hy
    refine ⟨by cases x <;> first | rfl | trivial, word, rfl, fun r' h' => ?_⟩
    obtain ⟨parts, hparts, -⟩ := bind_eq_ok h'
    exact hv.word.2.2 name parts hparts
  | cons s t =>
    obtain ⟨x', hx', hz'⟩ := Option.bind_eq_some_iff.mp hz
    obtain ⟨w, hw', hy'⟩ := Option.bind_eq_some_iff.mp hy
    cases s with
    | index => cases hw'
    | key k =>
      obtain ⟨f, hf, rfl, hwrite⟩ := (RecordField.lookup_members hn).mp hw'
      obtain ⟨m, tag, before, key, after, rfl, hkey, hreplace⟩ := Datum.replace_key hx'
      have hname := hv.key hkey (hw f hf)
      -- The entry of the key is what the field was read from.
      obtain ⟨parts, hparts, hread⟩ := bind_eq_ok hread
      cases hparts.symm.trans (hv.parts name m tag _)
      obtain ⟨⟨r₀, seen⟩, hfold, hread⟩ := bind_eq_ok hread
      have hr : r₀ = r := by
        dsimp only at hread
        split at hread
        · cases hread
        · exact Except.ok.inj hread
      subst hr
      obtain ⟨r₁, r₂, hfield, hkept⟩ := RecordField.read_of_fold hn hf
        (fun g hg hne => hi.leaves hg hf hne) hname hfold
      obtain ⟨hkind, bad, hbad, hrefuses⟩ :=
        h.mem hf v hv x' r₁ r₂ w t z y hfield (hkept ▸ hwrite) hz' hy'
      refine ⟨hkind, bad, hbad, fun r' h' => ?_⟩
      rw [hreplace] at h'
      obtain ⟨parts, hparts, h'⟩ := bind_eq_ok h'
      cases hparts.symm.trans (hv.parts name m tag _)
      obtain ⟨state, hfold', -⟩ := bind_eq_ok h'
      exact RecordField.fold_refuses hn hf hname hrefuses hfold'

end Records

end Provision.Decode
