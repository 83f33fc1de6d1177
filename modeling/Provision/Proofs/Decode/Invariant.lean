import Provision.Decode.FromJson
import Provision.Decode.FromYaml

/-!
# What holds of every record that is read

A property that a record has before anything is read, and that no field destroys when it is read
into the record, holds of what is read from any value.

* `RecordField.Preserves`: reading a field keeps a property of the record.
* `Codec.yields_record`: what is read of a record has a property that all its fields keep.
* `readDocument_induct`: so has what is read of a document with sections.
-/

set_option autoImplicit false

namespace Provision.Decode

open Yaml (Datum)

section Results

variable {ε α β σ : Type}

theorem bind_eq_ok {x : Except ε α} {f : α → Except ε β} {b : β} (h : (x >>= f) = .ok b) :
    ∃ a, x = .ok a ∧ f a = .ok b := by
  cases x with
  | error e => cases h
  | ok a => exact ⟨a, rfl, h⟩

theorem map_eq_ok {x : Except ε α} {f : α → β} {b : β} (h : x.map f = .ok b) :
    ∃ a, x = .ok a ∧ f a = b := by
  cases x with
  | error e => cases h
  | ok a => exact ⟨a, rfl, Except.ok.inj h⟩

theorem below_eq_ok {step : Segment} {x : Except Failure α} {a : α} (h : below step x = .ok a) :
    x = .ok a := by
  cases x with
  | error e => cases h
  | ok b => exact h

/-- What each step keeps is kept by all steps. -/
theorem foldlM_induct {P : σ → Prop} {step : σ → β → Except ε σ}
    (hstep : ∀ s b s', P s → step s b = .ok s' → P s') (entries : List β) {s s' : σ} (hs : P s)
    (h : entries.foldlM step s = .ok s') : P s' := by
  induction entries generalizing s with
  | nil =>
    cases h
    exact hs
  | cons b entries ih =>
    rw [List.foldlM_cons] at h
    obtain ⟨s₁, hb, hrest⟩ := bind_eq_ok h
    exact ih (hstep s b s₁ hs hb) hrest

end Results

/-- Whatever is read has a property. -/
def Codec.Yields {ν α : Type} (v : View ν) (c : Codec α) (P : α → Prop) : Prop :=
  ∀ x a, c.read v x = .ok a → P a

section Fields

variable {σ τ α ν : Type} {v : View ν} {P : σ → Prop}

/-- Reading a field keeps a property of the record. -/
def RecordField.Preserves (v : View ν) (P : σ → Prop) (f : RecordField σ) : Prop :=
  ∀ x r r', P r → f.read v x r = .ok r' → P r'

namespace RecordField

theorem preserves_plain {name : String} {c : Codec α} {get : σ → α} {set : α → σ → σ}
    (h : ∀ x a r, c.read v x = .ok a → P r → P (set a r)) :
    (plain name c get set).Preserves v P := by
  intro x r r' hr hread
  obtain ⟨a, ha, rfl⟩ := map_eq_ok hread
  exact h x a r ha hr

theorem preserves_lift {get : τ → σ} {set : σ → τ → τ} {f : RecordField σ} {Q : τ → Prop}
    (h : ∀ s r, Q r → Q (set s r)) : (lift get set f).Preserves v Q := by
  intro x r r' hr hread
  obtain ⟨a, -, rfl⟩ := map_eq_ok hread
  exact h a r hr

variable {fields : List (RecordField σ)}

theorem mem_of_find? {key : Key} {f : RecordField σ} (h : find? fields key = some f) :
    f ∈ fields := by
  cases key with
  | name s => exact List.mem_of_find?_eq_some h
  | number n => exact List.mem_of_getElem? h

/-- A record has a property after an entry is read if it had it before. -/
theorem preserves_readKeyed (hf : ∀ f ∈ fields, f.Preserves v P) {whole : ν}
    {state state' : σ × List String} {key : Key} {entry : ν × ν} (hr : P state.1)
    (h : readKeyed v fields whole state key entry = .ok state') : P state'.1 := by
  rw [readKeyed] at h
  split at h
  · cases h
    exact hr
  · next f hfind =>
    split at h
    · cases h
    · obtain ⟨r, hread, hstate⟩ := bind_eq_ok h
      cases hstate
      exact hf f (mem_of_find? hfind) _ _ _ hr (below_eq_ok hread)

theorem preserves_readEntry (hf : ∀ f ∈ fields, f.Preserves v P) {whole : ν}
    {state state' : σ × List String} {entry : ν × ν} (hr : P state.1)
    (h : readEntry v fields whole state entry = .ok state') : P state'.1 := by
  obtain ⟨key, -, hkeyed⟩ := bind_eq_ok h
  exact preserves_readKeyed hf hr hkeyed

theorem preserves_readListed (hf : ∀ f ∈ fields, f.Preserves v P) {record : String} {count : Nat}
    {whole : ν} {position : Nat} {items : List ν} {r r' : σ} (hr : P r)
    (h : readListed v record count whole fields position items r = .ok r') : P r' := by
  induction fields generalizing position items r with
  | nil =>
    cases items with
    | nil =>
      cases h
      exact hr
    | cons => cases h
  | cons f fields ih =>
    obtain ⟨hfirst, hrest⟩ := List.forall_mem_cons.mp hf
    cases items with
    | nil =>
      rw [readListed] at h
      split at h
      · cases h
      · exact ih hrest hr h
    | cons x items =>
      obtain ⟨r₁, hread, hlisted⟩ := bind_eq_ok h
      exact ih hrest (hfirst _ _ _ hr (below_eq_ok hread)) hlisted

end RecordField

/-- **What is read of a record has a property that nothing read into it destroys.** -/
theorem Codec.yields_record {name : String} {empty : σ} {fields : List (RecordField σ)}
    (hempty : P empty) (hf : ∀ f ∈ fields, f.Preserves v P) :
    (Codec.record name empty fields).Yields v P := by
  intro x r h
  obtain ⟨parts, -, h⟩ := bind_eq_ok h
  cases parts with
  | listed items => exact RecordField.preserves_readListed hf hempty h
  | named entries =>
    obtain ⟨⟨r', seen⟩, hfold, h⟩ := bind_eq_ok h
    have hstate : P r' := @foldlM_induct _ _ _ (fun state => P state.1) _
      (fun _ _ _ hs hread => RecordField.preserves_readEntry hf hs hread) entries _ _ hempty hfold
    dsimp only at h
    split at h
    · cases h
    · cases h
      exact hstate

/-- **What is read of a document has a property that nothing read into it destroys.** -/
theorem readDocument_induct {own sections : List (RecordField σ)} {empty r : σ} {root : Datum}
    (hempty : P empty) (hown : ∀ f ∈ own, f.Preserves directView P)
    (hsections : ∀ f ∈ sections, f.Preserves resolvedView P)
    (h : readDocument own sections empty root = .ok r) : P r := by
  rw [readDocument] at h
  obtain ⟨entries, -, h⟩ := bind_eq_ok h
  obtain ⟨⟨⟨r₁, seen⟩, rest⟩, hfold, h⟩ := bind_eq_ok h
  have hr₁ : P r₁ := by
    refine @foldlM_induct _ _ _ (fun state => P state.1.1) _ (fun state entry state' hs hread => ?_)
      entries _ _ hempty hfold
    obtain ⟨key, -, hread⟩ := bind_eq_ok hread
    split at hread
    · obtain ⟨state₁, hentry, hstate⟩ := bind_eq_ok hread
      cases hstate
      exact RecordField.preserves_readEntry hown hs hentry
    · split at hread
      · cases hread
      · cases hread
        exact hs
  dsimp only at h
  split at h
  · next r₂ seen₂ hsection =>
    cases h
    refine @foldlM_induct _ _ _ (fun state => P state.1) _ (fun state entry state' hs hread => ?_)
      rest.reverse _ _ hr₁ hsection
    obtain ⟨key, -, hread⟩ := bind_eq_ok hread
    exact RecordField.preserves_readKeyed hsections hs hread
  · cases h

end Fields

/-! ## Texts with names -/

namespace Codec

/-- Names stand in their order, each once. -/
def Ordered (entries : List (String × String)) : Prop := entries.Pairwise fun a b => a.1 < b.1

theorem mem_insertText {name value : String} {entries : List (String × String)}
    {e : String × String} (h : e ∈ insertText name value entries) : e.1 = name ∨ e ∈ entries := by
  induction entries with
  | nil => exact .inl (List.mem_singleton.mp h ▸ rfl)
  | cons entry entries ih =>
    rw [insertText] at h
    split at h
    · rcases List.mem_cons.mp h with rfl | h
      · exact .inl rfl
      · exact .inr h
    · split at h
      · rcases List.mem_cons.mp h with rfl | h
        · exact .inl rfl
        · exact .inr (List.mem_cons_of_mem _ h)
      · rcases List.mem_cons.mp h with rfl | h
        · exact .inr List.mem_cons_self
        · exact (ih h).imp_right (List.mem_cons_of_mem _)

theorem ordered_insertText (name value : String) {entries : List (String × String)}
    (h : Ordered entries) : Ordered (insertText name value entries) := by
  induction entries with
  | nil => exact List.pairwise_singleton _ _
  | cons entry entries ih =>
    obtain ⟨hfirst, hrest⟩ := List.pairwise_cons.mp h
    rw [insertText]
    split
    · next hlt =>
      refine List.pairwise_cons.mpr ⟨fun e he => ?_, h⟩
      rcases List.mem_cons.mp he with rfl | he
      · exact hlt
      · exact String.lt_trans hlt (hfirst e he)
    · next hge =>
      split
      · next heq =>
        subst heq
        exact List.pairwise_cons.mpr ⟨hfirst, hrest⟩
      · next hne =>
        refine List.pairwise_cons.mpr ⟨fun e he => ?_, ih hrest⟩
        rcases mem_insertText he with heq | he
        · rw [heq]
          exact Std.lt_of_le_of_ne (String.not_lt.mp hge) (Ne.symm hne)
        · exact hfirst e he

/-- Texts with names are read in the order of their names. -/
theorem yields_texts {ν : Type} (v : View ν) : texts.Yields v Ordered := by
  intro x entries h
  obtain ⟨parts, -, hfold⟩ := bind_eq_ok h
  refine foldlM_induct (fun known entry known' hknown hread => ?_) parts List.Pairwise.nil hfold
  obtain ⟨name, -, hread⟩ := bind_eq_ok hread
  obtain ⟨value, -, hread⟩ := bind_eq_ok hread
  cases hread
  exact ordered_insertText name value hknown

theorem Ordered.nodup {entries : List (String × String)} (h : Ordered entries) :
    (entries.map Prod.fst).Nodup := by
  refine List.pairwise_map.mpr (h.imp fun hlt heq => ?_)
  rw [heq] at hlt
  exact String.lt_irrefl _ hlt

end Codec

end Provision.Decode
