import Provision.Proofs.Decode.Invariant
import Provision.Proofs.Decode.Record

/-!
# What is written is read again

A form restores a value if it reads what it writes of the value as that value. Records are restored
field by field, from first to last. Entries that were not written by a form can be read as well, in
whatever order they stand.

* `Codec.Restores`: a form reads what it writes.
* `Codec.list_ofJson`, `Codec.record_ofJson`: what lists of items and of entries are read as.
* `Codec.restores_list`, `Codec.restores_texts`: lists and texts with names are restored.
* `Codec.restores_record`: a record is restored if its fields are, written or left out.
-/

set_option autoImplicit false

namespace Provision.Decode

/-- A form reads what it writes of a value as that value. -/
def Codec.Restores {α : Type} (c : Codec α) (a : α) : Prop := c.ofJson (c.write a) = .ok a

namespace Codec

variable {α : Type} {c : Codec α}

theorem restores_text (s : String) : text.Restores s := rfl

theorem restores_bool (b : Bool) : bool.Restores b := rfl

theorem restores_int {n : Int} (h : Word.holdsSigned n = true) : int.Restores n := if_pos h

theorem restores_option_text (s : Option String) : (option text).Restores s := by
  cases s <;> rfl

/-- A value that is given is restored if its form never writes it as a missing one. -/
theorem restores_option {a : α} (h : c.Restores a) (hnull : c.write a ≠ .null) :
    (option c).Restores (some a) := by
  have hpresent : jsonView.present (c.write a) = some (c.write a) := by
    cases hw : c.write a with
    | null => exact absurd hw hnull
    | _ => rfl
  have h : c.read jsonView (c.write a) = .ok a := h
  simp only [Restores, ofJson, option, Option.map_some, Option.getD_some, hpresent, h]
  rfl

/-- **A list is read item by item.** -/
theorem list_ofJson {β : Type} {xs : List β} {f : β → Json} {g : β → α}
    (h : ∀ x ∈ xs, c.ofJson (f x) = .ok (g x)) :
    (list c).ofJson (.arr (xs.map f)) = .ok (xs.map g) := by
  suffices hall : ∀ position,
      readItems (c.read jsonView) position (xs.map f) = .ok (xs.map g) from hall 0
  induction xs with
  | nil => exact fun _ => rfl
  | cons x xs ih =>
    intro position
    obtain ⟨hx, hxs⟩ := List.forall_mem_cons.mp h
    have hx : c.read jsonView (f x) = .ok (g x) := hx
    rw [List.map_cons, readItems, hx, ih hxs]
    rfl

theorem restores_list {as : List α} (h : ∀ a ∈ as, c.Restores a) : (list c).Restores as :=
  (list_ofJson (g := id) h).trans (congrArg Except.ok (List.map_id as))

/-- A text whose name comes after all others is put at the end. -/
theorem insertText_of_lt {name value : String} {known : List (String × String)}
    (h : ∀ e ∈ known, e.1 < name) : insertText name value known = known ++ [(name, value)] := by
  induction known with
  | nil => rfl
  | cons e known ih =>
    obtain ⟨he, hknown⟩ := List.forall_mem_cons.mp h
    have hne : name ≠ e.1 := fun heq => String.lt_irrefl _ (heq ▸ he)
    rw [insertText, if_neg fun hlt => String.lt_irrefl _ (String.lt_trans hlt he), if_neg hne,
      ih hknown]
    rfl

/-- Texts with names are restored if they are in the order of their names. -/
theorem restores_texts {entries : List (String × String)} (h : Ordered entries) :
    texts.Restores entries := by
  suffices hall : ∀ known, Ordered (known ++ entries) →
      ((entries.map fun e => (e.1, Json.str e.2)).map fun e => (Json.str e.1, e.2)).foldlM
        (fun (known : List (String × String)) (entry : Json × Json) => do
          let name ← jsonView.text entry.1
          let value ← below (jsonView.step entry.1) (jsonView.text entry.2)
          .ok (insertText name value known)) known =
        Except.ok (ε := Failure) (known ++ entries) from
    hall [] h
  clear h
  induction entries with
  | nil => exact fun known _ => congrArg Except.ok (List.append_nil known).symm
  | cons e entries ih =>
    intro known h
    obtain ⟨-, -, hlt⟩ := List.pairwise_append.mp h
    rw [List.append_cons] at h ⊢
    rw [← ih _ h, ← insertText_of_lt fun k hk => hlt k hk e List.mem_cons_self]
    rfl

end Codec

/-! ## Records -/

section Records

variable {σ α : Type}

namespace RecordField

/-- Reading some entries into a record, one after the other, makes another record. -/
inductive ReadsInto (all : List (RecordField σ)) :
    List (String × Json) → (before after : σ) → Prop where
  | nil {s : σ} : ReadsInto all [] s s
  | cons {f : RecordField σ} {y : Json} {entries : List (String × Json)} {s s' t : σ}
      (hf : f ∈ all) (hr : f.read jsonView y s = .ok s') (h : ReadsInto all entries s' t) :
      ReadsInto all ((f.name, y) :: entries) s t

/-- An entry for the field at a position is read. -/
theorem ReadsInto.next {all : List (RecordField σ)} (i : Nat) {f : RecordField σ} {k : String}
    {y : Json} {entries : List (String × Json)} {s s' t : σ} (hf : all[i]? = some f)
    (hname : f.name = k) (hr : f.read jsonView y s = .ok s') (h : ReadsInto all entries s' t) :
    ReadsInto all ((k, y) :: entries) s t :=
  hname ▸ .cons (List.mem_of_getElem? hf) hr h

/-- So is one that is there only if there is a value for it. -/
theorem ReadsInto.given {all : List (RecordField σ)} (i : Nat) {name : String} {c : Codec α}
    {get : σ → Option α} {set : Option α → σ → σ} {o : Option α}
    {entries : List (String × Json)} {s t : σ} (hf : all[i]? = some (.optional name c get set))
    (hc : ∀ a ∈ o, c.Restores a ∧ c.write a ≠ .null) (hnone : set none s = s)
    (h : ReadsInto all entries (set o s) t) :
    ReadsInto all ((o.map fun a => (name, c.write a)).toList ++ entries) s t := by
  cases o with
  | none => exact hnone ▸ h
  | some a =>
    obtain ⟨ha, hnull⟩ := hc a rfl
    have hread : c.option.read jsonView (c.write a) = .ok (some a) :=
      Codec.restores_option ha hnull
    refine .next i hf rfl ?_ h
    change (c.option.read jsonView (c.write a)).map (fun o => set o s) = _
    rw [hread]
    rfl

/-- So is one that is there only if there are items for it. -/
theorem ReadsInto.listed [DecidableEq α] {all : List (RecordField σ)} (i : Nat) {name : String}
    {c : Codec α} {get : σ → List α} {set : List α → σ → σ} {items : List Json} {as : List α}
    {entries : List (String × Json)} {s t : σ} {missing : Bool}
    (hf : all[i]? = some (.sparse [] name (.list c) get set)) (hmissing : items.isEmpty = missing)
    (hitems : (Codec.list c).ofJson (.arr items) = .ok as) (hnil : set [] s = s)
    (h : ReadsInto all entries (set as s) t) :
    ReadsInto all ((if missing then [] else [(name, .arr items)]) ++ entries) s t := by
  cases hmissing
  cases items with
  | nil =>
    cases hitems
    exact hnil ▸ h
  | cons x items =>
    have hread : (Codec.list c).read jsonView (.arr (x :: items)) = .ok as := hitems
    refine .next i hf rfl ?_ h
    change ((Codec.list c).read jsonView (.arr (x :: items))).map (fun as => set as s) = _
    rw [hread]
    rfl

/-- **Entries with different names are read into their fields**, whatever was read before. -/
theorem ReadsInto.foldlM {all : List (RecordField σ)} {entries : List (String × Json)} {s t : σ}
    (h : ReadsInto all entries s t) (hn : (all.map (·.name)).Nodup)
    (hd : (entries.map Prod.fst).Nodup) (whole : Json) {seen : List String}
    (hseen : ∀ e ∈ entries, e.1 ∉ seen) :
    ∃ seen', (entries.map fun (k, x) => (Json.str k, x)).foldlM
        (readEntry jsonView all whole) (s, seen) = .ok (t, seen') ∧
      seen ⊆ seen' ∧ entries.map Prod.fst ⊆ seen' := by
  induction h generalizing seen with
  | nil => exact ⟨seen, rfl, List.Subset.refl _, List.nil_subset _⟩
  | @cons f y entries s s' t hf hr _ ih =>
    rw [List.map_cons, List.nodup_cons] at hd
    have hfind : all.find? (fun g => decide (g.name = f.name)) = some f := by
      cases hfind : all.find? fun g => decide (g.name = f.name) with
      | none => simpa using List.find?_eq_none.mp hfind f hf
      | some g =>
        have hname : g.name = f.name := by simpa using List.find?_some hfind
        rw [eq_of_name_eq hn (List.mem_of_find?_eq_some hfind) hf hname]
    have hstep : readEntry jsonView all whole (s, seen) (Json.str f.name, y) =
        .ok (s', f.name :: seen) := by
      change readKeyed jsonView all whole (s, seen) (.name f.name) (Json.str f.name, y) = _
      rw [readKeyed, find?, hfind]
      simp only [hseen _ List.mem_cons_self, if_false, hr]
      rfl
    have hnew : ∀ e ∈ entries, e.1 ∉ f.name :: seen := by
      intro e he hm
      rcases List.mem_cons.mp hm with hm | hm
      · exact hd.1 (List.mem_map.mpr ⟨e, he, hm⟩)
      · exact hseen e (List.mem_cons_of_mem _ he) hm
    obtain ⟨seen', hfold, hsub, hmem⟩ := ih hd.2 hnew
    refine ⟨seen', ?_, fun n hn => hsub (List.mem_cons_of_mem _ hn),
      List.cons_subset.mpr ⟨hsub List.mem_cons_self, hmem⟩⟩
    rw [List.map_cons, List.foldlM_cons, hstep]
    exact hfold

end RecordField

/-- **A record is read from entries with different names**, in whatever order these stand, if the
fields that must be given are among them. -/
theorem Codec.record_ofJson {name : String} {empty r : σ} {fields : List (RecordField σ)}
    (hn : (fields.map (·.name)).Nodup) {entries : List (String × Json)}
    (hd : (entries.map Prod.fst).Nodup) (h : RecordField.ReadsInto fields entries empty r)
    (hrequired : ∀ f ∈ fields, f.required = true → f.name ∈ entries.map Prod.fst) :
    (Codec.record name empty fields).ofJson (.obj entries) = .ok r := by
  obtain ⟨seen, hfold, -, hseen⟩ := @RecordField.ReadsInto.foldlM σ fields entries empty r h hn hd
    (.obj entries) [] fun _ _ => List.not_mem_nil
  have hmissing : fields.find? (fun f => f.required && !seen.contains f.name) = none := by
    refine List.find?_eq_none.mpr fun f hf => ?_
    cases hf' : f.required with
    | false => exact Bool.false_ne_true
    | true => simp [hseen (hrequired f hf hf')]
  change RecordField.readNamed jsonView fields empty (.obj entries) _ = .ok r
  rw [RecordField.readNamed, hfold]
  dsimp only [bind, Except.bind]
  rw [hmissing]

namespace RecordField

/-- Reading what some fields write of a record, one after the other, makes another record. A field
that need not be given may be left out. -/
inductive Restored (r : σ) : List (RecordField σ) → (before after : σ) → Prop where
  | nil {s : σ} : Restored r [] s s
  | skip {f : RecordField σ} {fields : List (RecordField σ)} {s t : σ} (hw : f.write r = none)
      (ho : f.required = false) (h : Restored r fields s t) : Restored r (f :: fields) s t
  | cons {f : RecordField σ} {fields : List (RecordField σ)} {y : Json} {s s' t : σ}
      (hw : f.write r = some y) (hr : f.read jsonView y s = .ok s')
      (h : Restored r fields s' t) : Restored r (f :: fields) s t

/-- A field that is always written gives a record what it wrote. -/
theorem Restored.plain {name : String} {c : Codec α} {get : σ → α} {set : α → σ → σ}
    {fields : List (RecordField σ)} {r s t : σ} (hc : c.Restores (get r))
    (h : Restored r fields (set (get r) s) t) :
    Restored r (.plain name c get set :: fields) s t := by
  refine .cons rfl ?_ h
  change (c.read jsonView (c.write (get r))).map (fun a => set a s) = _
  have hc : c.read jsonView (c.write (get r)) = .ok (get r) := hc
  rw [hc]
  rfl

/-- So does a field that must be given. -/
theorem Restored.needed {name : String} {c : Codec α} {get : σ → α} {set : α → σ → σ}
    {fields : List (RecordField σ)} {r s t : σ} (hc : c.Restores (get r))
    (h : Restored r fields (set (get r) s) t) :
    Restored r (.needed name c get set :: fields) s t := by
  cases @Restored.plain _ _ name c get set fields r s t hc h with
  | cons hw hr h => exact .cons hw hr h
  | skip hw => cases hw

/-- A field that is left out if it has the least value gives a record what it wrote, or the record
has the least value anyway. -/
theorem Restored.sparse [DecidableEq α] {name : String} {c : Codec α} {least : α} {get : σ → α}
    {set : α → σ → σ} {fields : List (RecordField σ)} {r s t : σ} (hc : c.Restores (get r))
    (hleast : set least s = s) (h : Restored r fields (set (get r) s) t) :
    Restored r (.sparse least name c get set :: fields) s t := by
  by_cases hempty : get r = least
  · rw [hempty, hleast] at h
    exact .skip (if_pos hempty) rfl h
  · cases @Restored.plain _ _ name c get set fields r s t hc h with
    | cons hw hr h => exact .cons ((if_neg hempty).trans hw) hr h
    | skip hw => cases hw

/-- A field that is left out if it is missing gives a record what it wrote, or the record misses it
anyway. -/
theorem Restored.optional {name : String} {c : Codec α} {get : σ → Option α}
    {set : Option α → σ → σ} {fields : List (RecordField σ)} {r s t : σ}
    (hc : ∀ a ∈ get r, c.Restores a ∧ c.write a ≠ .null) (hnone : set none s = s)
    (h : Restored r fields (set (get r) s) t) :
    Restored r (.optional name c get set :: fields) s t := by
  cases hget : get r with
  | none =>
    rw [hget, hnone] at h
    exact .skip (congrArg (Option.map c.write) hget) rfl h
  | some a =>
    obtain ⟨ha, hnull⟩ := hc a hget
    have hoption : c.option.Restores (get r) := hget ▸ Codec.restores_option ha hnull
    cases @Restored.plain _ _ name c.option get set fields r s t hoption h with
    | cons hw hr h =>
      refine .cons ?_ hr h
      rw [← hw]
      change (get r).map c.write = some (((get r).map c.write).getD .null)
      rw [hget]
      rfl
    | skip hw => cases hw

/-- Entries that were written for some fields are read into these fields. -/
theorem Restored.readsInto {all fields : List (RecordField σ)} {r s t : σ}
    (h : Restored r fields s t) (hall : ∀ f ∈ fields, f ∈ all) :
    ReadsInto all (members fields r) s t := by
  induction h with
  | nil => exact .nil
  | @skip f fields s t hw _ _ ih =>
    rw [members, List.filterMap_cons, hw]
    exact ih (List.forall_mem_cons.mp hall).2
  | @cons f fields y s s' t hw hr _ ih =>
    obtain ⟨hf, hrest⟩ := List.forall_mem_cons.mp hall
    rw [members, List.filterMap_cons, hw]
    exact .cons hf hr (ih hrest)

/-- A field that must be given is written. -/
theorem Restored.mem_members {fields : List (RecordField σ)} {r s t : σ}
    (h : Restored r fields s t) :
    ∀ f ∈ fields, f.required = true → f.name ∈ (members fields r).map Prod.fst := by
  induction h with
  | nil => exact nofun
  | @skip f fields s t hw ho _ ih =>
    rw [members, List.filterMap_cons, hw]
    refine List.forall_mem_cons.mpr ⟨fun hf => ?_, ih⟩
    rw [ho] at hf
    cases hf
  | @cons f fields y s s' t hw _ _ ih =>
    rw [members, List.filterMap_cons, hw]
    exact List.forall_mem_cons.mpr ⟨fun _ => List.mem_cons_self, fun g hg hrequired =>
      List.mem_cons_of_mem _ (ih g hg hrequired)⟩

end RecordField

/-- **A record is restored if its fields are**, one after the other. -/
theorem Codec.restores_record {name : String} {empty r : σ} {fields : List (RecordField σ)}
    (hn : (fields.map (·.name)).Nodup) (h : RecordField.Restored r fields empty r) :
    (Codec.record name empty fields).Restores r :=
  record_ofJson hn (RecordField.nodup_members hn r) (h.readsInto fun _ hf => hf) h.mem_members

end Records

end Provision.Decode
