import Provision.Proofs.Decode.Heeds

/-!
# Documents with sections

A document is read in two passes: its own fields directly, and then the other entries, resolved.
Each pass is a fold over entries, so what holds of records holds of documents.

* `readDocument_eq_ok`: a document that is read is read in two passes.
* `readDocument_heeds`: a document heeds what its own fields and its sections heed.
-/

set_option autoImplicit false

namespace Provision.Decode

open Yaml (Datum)
open Yaml.Datum (keyText?)

/-! ## Sections of a document -/

namespace RecordField

variable {σ τ : Type} {get : τ → σ} {set : σ → τ → τ}

theorem apart_of_leaves {f : RecordField σ} {fields : List (RecordField σ)}
    (h : ∀ g ∈ fields, f.Leaves g ∧ g.Leaves f) : f.Apart fields := by
  induction fields with
  | nil => trivial
  | cons g fields ih =>
    obtain ⟨hfirst, hrest⟩ := List.forall_mem_cons.mp h
    exact ⟨hfirst, ih hrest⟩

theorem independent_append {fields others : List (RecordField σ)} (hf : Independent fields)
    (ho : Independent others) (h : ∀ f ∈ fields, ∀ g ∈ others, f.Leaves g ∧ g.Leaves f) :
    Independent (fields ++ others) := by
  induction fields with
  | nil => exact ho
  | cons f fields ih =>
    obtain ⟨hfirst, hrest⟩ := List.forall_mem_cons.mp h
    refine ⟨apart_of_leaves fun g hg => ?_, ih hf.2 hrest⟩
    rcases List.mem_append.mp hg with hg | hg
    · exact hf.1.leaves hg
    · exact hfirst g hg

theorem leaves_lift {f g : RecordField σ} (h : f.Leaves g)
    (hget : ∀ a r, get (set a r) = a) : (lift get set f).Leaves (lift get set g) := by
  intro ν v z r r' hr
  obtain ⟨a, ha, rfl⟩ := map_eq_ok hr
  change g.write (get (set a r)) = g.write (get r)
  rw [hget]
  exact h ha

theorem independent_lift {fields : List (RecordField σ)} (h : Independent fields)
    (hget : ∀ a r, get (set a r) = a) : Independent (fields.map (lift get set)) := by
  induction fields with
  | nil => trivial
  | cons f fields ih =>
    refine ⟨apart_of_leaves fun g hg => ?_, ih h.2⟩
    obtain ⟨g', hg', rfl⟩ := List.mem_map.mp hg
    exact ⟨leaves_lift (h.1.leaves hg').1 hget, leaves_lift (h.1.leaves hg').2 hget⟩

/-- A field that has nothing to do with a part of the record. -/
structure Beside (get : τ → σ) (set : σ → τ → τ) (f : RecordField τ) : Prop where
  spares : ∀ {ν : Type} {v : View ν} {z : ν} {r r' : τ}, f.read v z r = .ok r' → get r' = get r
  spared : ∀ a r, f.write (set a r) = f.write r

theorem beside_plain {α : Type} {name : String} {c : Codec α} {get' : τ → α} {set' : α → τ → τ}
    (h : ∀ a r, get (set' a r) = get r := by exact fun _ _ => rfl)
    (h' : ∀ a r, get' (set a r) = get' r := by exact fun _ _ => rfl) :
    (plain name c get' set').Beside get set where
  spares hr := by
    obtain ⟨a, -, rfl⟩ := map_eq_ok hr
    exact h a _
  spared a r := by
    change some (c.write (get' (set a r))) = some (c.write (get' r))
    rw [h']

/-- The fields of a part of a record are independent of those that have nothing to do with it. -/
theorem independent_sections {own : List (RecordField τ)} {fields : List (RecordField σ)}
    (hown : Independent own) (hbeside : ∀ f ∈ own, f.Beside get set) (hf : Independent fields)
    (hget : ∀ a r, get (set a r) = a := by exact fun _ _ => rfl) :
    Independent (own ++ fields.map (lift get set)) := by
  refine independent_append hown (independent_lift hf hget) fun f hf g hg => ?_
  obtain ⟨g', -, rfl⟩ := List.mem_map.mp hg
  have hb := hbeside f hf
  constructor
  · intro ν v z r r' hr
    change g'.write (get r') = g'.write (get r)
    rw [hb.spares hr]
  · intro ν v z r r' hr
    obtain ⟨a, -, rfl⟩ := map_eq_ok hr
    exact hb.spared a r

end RecordField

/-! ## The two passes -/

section Documents

variable {σ : Type} {own sections : List (RecordField σ)} {empty : σ} {root : Datum}

/-- Whether an entry is left for the second pass. -/
def isSection (own : List (RecordField σ)) (entry : Datum × Datum) : Bool :=
  match directView.key entry.1 with
  | .ok key => (RecordField.find? own key).isNone
  | .error _ => false

/-- The key of an entry is its text. -/
theorem directView_key {key : Datum} {k : String} (h : keyText? key = some k) :
    directView.key key = .ok (.name k) := by
  cases key with
  | scalar =>
    cases h
    rfl
  | _ => cases h

/-- One step of the first pass: an entry is read into the record or left for later. -/
def firstPass (own : List (RecordField σ)) (root : Datum)
    (state : (σ × List String) × List (Datum × Datum)) (entry : Datum × Datum) :
    Except Failure ((σ × List String) × List (Datum × Datum)) := do
  let key ← directView.key entry.1
  match RecordField.find? own key with
  | some _ =>
    let r ← RecordField.readEntry directView own root state.1 entry
    .ok (r, state.2)
  | none =>
    match findCase entry.2 with
    | some f => .error (f.within (stepTo entry.1))
    | none => .ok (state.1, entry :: state.2)

theorem firstPass_eq_ok_iff {state state' : (σ × List String) × List (Datum × Datum)}
    {entry : Datum × Datum} : firstPass own root state entry = .ok state' ↔
      RecordField.readBy directView.key directView own root state.1 entry = .ok state'.1 ∧
        (isSection own entry = true → findCase entry.2 = none) ∧
        state'.2 = if isSection own entry then entry :: state.2 else state.2 := by
  rw [firstPass, RecordField.readBy, RecordField.readEntry]
  cases hkey : directView.key entry.1 with
  | error e => exact iff_of_false (fun h => by cases h) fun h => by cases h.1
  | ok key =>
    rcases Option.eq_none_or_eq_some (RecordField.find? own key) with hfind | ⟨f, hfind⟩
    · have hsection : isSection own entry = true := by simp [isSection, hkey, hfind]
      have hpass : RecordField.readKeyed directView own root state.1 key entry = .ok state.1 := by
        rw [RecordField.readKeyed, hfind]
      simp only [bind, Except.bind, hfind, hsection, hpass]
      cases hcase : findCase entry.2 with
      | some f => simp
      | none => simp [Prod.ext_iff, eq_comm]
    · have hsection : isSection own entry = false := by simp [isSection, hkey, hfind]
      simp only [bind, Except.bind, hfind, hsection]
      cases hread : RecordField.readKeyed directView own root state.1 key entry with
      | error e => simp
      | ok r => simp [Prod.ext_iff, eq_comm]

/-- The first pass reads what it can and leaves the rest in reverse. -/
theorem firstPass_fold_iff {entries : List (Datum × Datum)}
    {state state' : (σ × List String) × List (Datum × Datum)} :
    entries.foldlM (firstPass own root) state = .ok state' ↔
      entries.foldlM (RecordField.readBy directView.key directView own root) state.1
          = .ok state'.1 ∧
        (∀ e ∈ entries, isSection own e = true → findCase e.2 = none) ∧
        state'.2 = (entries.filter (isSection own)).reverse ++ state.2 := by
  induction entries generalizing state with
  | nil =>
    simp only [List.foldlM_nil, pure, Except.pure, Except.ok.injEq, Prod.ext_iff]
    exact ⟨fun h => ⟨h.1, nofun, h.2.symm⟩, fun h => ⟨h.1, h.2.2.symm⟩⟩
  | cons entry entries ih =>
    rw [List.foldlM_cons, List.foldlM_cons, List.forall_mem_cons]
    constructor
    · intro h
      obtain ⟨state₁, hstep, h⟩ := bind_eq_ok h
      obtain ⟨hread, hcase, hleft⟩ := firstPass_eq_ok_iff.mp hstep
      obtain ⟨hfold, hcases, hrest⟩ := ih.mp h
      refine ⟨by rw [hread]; exact hfold, ⟨hcase, hcases⟩, ?_⟩
      by_cases hs : isSection own entry = true <;> simp [hrest, hleft, hs]
    · rintro ⟨h, ⟨hcase, hcases⟩, hrest⟩
      obtain ⟨s₁, hread, hfold⟩ := bind_eq_ok h
      have hstep := (@firstPass_eq_ok_iff _ own root state
        (s₁, if isSection own entry then entry :: state.2 else state.2) entry).mpr
          ⟨hread, hcase, rfl⟩
      rw [hstep]
      refine ih.mpr ⟨hfold, hcases, ?_⟩
      by_cases hs : isSection own entry = true <;> simp [hrest, hs]

/-- A document is read in two passes. -/
theorem readDocument_eq_ok_iff {r : σ} : readDocument own sections empty root = .ok r ↔
    ∃ entries state seen, directView.entries root = .ok entries ∧
      entries.foldlM (RecordField.readBy directView.key directView own root) (empty, [])
        = .ok state ∧
      (∀ e ∈ entries, isSection own e = true → findCase e.2 = none) ∧
      (entries.filter (isSection own)).foldlM
        (RecordField.readBy directView.key resolvedView sections root) (state.1, [])
        = .ok (r, seen) := by
  constructor
  · intro h
    rw [readDocument] at h
    obtain ⟨entries, hentries, h⟩ := bind_eq_ok h
    obtain ⟨⟨state, rest⟩, hfold, h⟩ := bind_eq_ok h
    obtain ⟨hown, hcases, hrest⟩ :=
      (@firstPass_fold_iff _ own root entries ((empty, []), []) (state, rest)).mp hfold
    dsimp only at hrest h
    rw [hrest, List.append_nil, List.reverse_reverse] at h
    split at h
    · next r₁ seen hsections =>
      cases h
      exact ⟨entries, state, seen, hentries, hown, hcases, hsections⟩
    · cases h
  · rintro ⟨entries, state, seen, hentries, hown, hcases, hsections⟩
    have hfold := (@firstPass_fold_iff _ own root entries ((empty, []), [])
      (state, (entries.filter (isSection own)).reverse ++ [])).mpr ⟨hown, hcases, rfl⟩
    rw [readDocument, hentries]
    change (entries.foldlM (firstPass own root) ((empty, []), []) >>= _) = _
    rw [hfold]
    rw [List.append_nil]
    dsimp only [bind, Except.bind]
    rw [List.reverse_reverse]
    delta RecordField.readBy at hsections
    dsimp only [bind, Except.bind] at hsections
    rw [hsections]

/-- The entry of a field is what the field is read from, in one of the two passes. -/
theorem readDocument_field {f : RecordField σ} {m : Yaml.Mark} {tag : Option String}
    {before after : List (Datum × Datum)} {key x : Datum} {r : σ}
    (hi : RecordField.Independent (own ++ sections))
    (hn : ((own ++ sections).map (·.name)).Nodup) (hf : f ∈ own ++ sections)
    (hkey : keyText? key = some f.name)
    (h : readDocument own sections empty (.mapping m tag (before ++ (key, x) :: after)) = .ok r) :
    ∃ v : View Datum, v.IsYaml ∧ (∃ r₁ r₂, f.read v x r₁ = .ok r₂ ∧ f.write r = f.write r₂) ∧
      ∀ z, (∀ r r', f.read v z r ≠ .ok r') → ∀ r',
        readDocument own sections empty (.mapping m tag (before ++ (key, z) :: after)) ≠ .ok r' := by
  have hname := directView_key hkey
  have hleaves : ∀ g ∈ own ++ sections, g.name ≠ f.name → g.Leaves f :=
    fun g hg hne => hi.leaves hg hf hne
  obtain ⟨hnown, hnsections, hdisjoint⟩ := List.nodup_append.mp (List.map_append ▸ hn)
  obtain ⟨entries, state, seen, hentries, hown, -, hsections⟩ := readDocument_eq_ok_iff.mp h
  cases hentries
  rcases List.mem_append.mp hf with hf' | hf'
  · refine ⟨directView, .inl rfl, ?_, fun z hz r' h' => ?_⟩
    · obtain ⟨r₁, r₂, hread, hwrite⟩ := RecordField.read_of_fold hnown hf'
        (fun g hg => hleaves g (List.mem_append_left _ hg)) hname hown
      have hout : f.name ∉ sections.map (·.name) := fun hmem =>
        hdisjoint _ (List.mem_map_of_mem hf') _ hmem rfl
      have hkept := RecordField.write_of_fold
        (fun g hg => hleaves g (List.mem_append_right _ hg)) (.inl hout) hsections
      exact ⟨r₁, r₂, hread, hkept.trans hwrite⟩
    · obtain ⟨entries, state, seen, hentries, hown, -⟩ := readDocument_eq_ok_iff.mp h'
      cases hentries
      exact RecordField.fold_refuses hnown hf' hname hz hown
  · have hlater : ∀ z, isSection own (key, z) = true := by
      intro z
      have hnone : own.find? (·.name = f.name) = none := by
        refine List.find?_eq_none.mpr fun g hg => ?_
        simpa using hdisjoint _ (List.mem_map_of_mem hg) _ (List.mem_map_of_mem hf')
      simp [isSection, hname, RecordField.find?, hnone]
    refine ⟨resolvedView, .inr rfl, ?_, fun z hz r' h' => ?_⟩
    · rw [List.filter_append, List.filter_cons_of_pos (hlater x)] at hsections
      exact RecordField.read_of_fold hnsections hf'
        (fun g hg => hleaves g (List.mem_append_right _ hg)) hname hsections
    · obtain ⟨entries, state, seen, hentries, -, -, hsections⟩ := readDocument_eq_ok_iff.mp h'
      cases hentries
      rw [List.filter_append, List.filter_cons_of_pos (hlater z)] at hsections
      exact RecordField.fold_refuses hnsections hf' hname hz hsections

/-- **A document heeds what its own fields and its sections heed.** -/
theorem readDocument_heeds {r : σ} {t : Trail} {z : Datum} {y : Json}
    (hi : RecordField.Independent (own ++ sections))
    (hn : ((own ++ sections).map (·.name)).Nodup) (hall : RecordField.HeedAll (own ++ sections))
    (h : readDocument own sections empty root = .ok r) (hz : root.at? t = some z)
    (hy : (Json.obj (RecordField.members (own ++ sections) r)).at? t = some y) :
    Corresponds z y ∧ ∃ bad, findCase bad = none ∧
      ∀ r', readDocument own sections empty (root.replace t bad) ≠ .ok r' := by
  cases t with
  | nil =>
    cases hz
    cases hy
    refine ⟨by cases root <;> first | rfl | trivial, word, rfl, fun r' h' => ?_⟩
    obtain ⟨entries, -, -, hentries, -⟩ := readDocument_eq_ok_iff.mp h'
    cases hentries
  | cons s t =>
    obtain ⟨x, hx, hzx⟩ := Option.bind_eq_some_iff.mp hz
    obtain ⟨w, hw, hyw⟩ := Option.bind_eq_some_iff.mp hy
    cases s with
    | index => cases hw
    | key k =>
      obtain ⟨f, hf, rfl, hwrite⟩ := (RecordField.lookup_members hn).mp hw
      obtain ⟨m, tag, before, key, after, rfl, hkey, hreplace⟩ := Datum.replace_key hx
      obtain ⟨v, hv, ⟨r₁, r₂, hread, hkept⟩, hrefuses⟩ := readDocument_field hi hn hf hkey h
      obtain ⟨hkind, bad, hbad, hrefused⟩ :=
        hall.mem hf v hv x r₁ r₂ w t z y hread (hkept ▸ hwrite) hzx hyw
      refine ⟨hkind, bad, hbad, ?_⟩
      rw [hreplace]
      exact hrefuses _ hrefused

/-- A value that no field is named for can be any other that is no case. -/
theorem readDocument_unread {m : Yaml.Mark} {tag : Option String}
    {before after : List (Datum × Datum)} {key z y : Datum} {k : String} {r : σ}
    (hkey : keyText? key = some k) (hk : ∀ f ∈ own ++ sections, f.name ≠ k)
    (hy : findCase y = none)
    (h : readDocument own sections empty (.mapping m tag (before ++ (key, z) :: after)) = .ok r) :
    readDocument own sections empty (.mapping m tag (before ++ (key, y) :: after)) = .ok r := by
  have hname := directView_key hkey
  have hnone : ∀ fields : List (RecordField σ), (∀ f ∈ fields, f.name ≠ k) →
      RecordField.find? fields (.name k) = none := fun fields hfields =>
    List.find?_eq_none.mpr fun f hf => by simpa using hfields f hf
  have hown := hnone own fun f hf => hk f (List.mem_append_left _ hf)
  have hsections := hnone sections fun f hf => hk f (List.mem_append_right _ hf)
  have hlater : ∀ z, isSection own (key, z) = true := fun z => by simp [isSection, hname, hown]
  obtain ⟨entries, state, seen, hentries, hfirst, hcases, hsecond⟩ := readDocument_eq_ok_iff.mp h
  cases hentries
  refine readDocument_eq_ok_iff.mpr ⟨_, state, seen, rfl, ?_, fun e he hs => ?_, ?_⟩
  · exact RecordField.fold_unread hname hown hfirst
  · rcases List.mem_append.mp he with he | he
    · exact hcases e (List.mem_append_left _ he) hs
    · rcases List.mem_cons.mp he with rfl | he
      · exact hy
      · exact hcases e (List.mem_append_right _ (List.mem_cons_of_mem _ he)) hs
  · rw [List.filter_append, List.filter_cons_of_pos (hlater z)] at hsecond
    rw [List.filter_append, List.filter_cons_of_pos (hlater y)]
    exact RecordField.fold_unread hname hsections hsecond

/-- What is made of a document heeds what the document itself heeds. -/
theorem map_readDocument_heeds {β : Type} {make : σ → β} {b : β}
    (hi : RecordField.Independent (own ++ sections))
    (hn : ((own ++ sections).map (·.name)).Nodup) (hall : RecordField.HeedAll (own ++ sections))
    (h : (readDocument own sections empty root).map make = .ok b) :
    ∃ r, make r = b ∧ ∀ t z y, root.at? t = some z →
      (Json.obj (RecordField.members (own ++ sections) r)).at? t = some y →
        Corresponds z y ∧ ∃ bad, findCase bad = none ∧
          ∀ b', (readDocument own sections empty (root.replace t bad)).map make ≠ .ok b' := by
  obtain ⟨r, hr, hmake⟩ := map_eq_ok h
  refine ⟨r, hmake, fun t z y hz hy => ?_⟩
  obtain ⟨hkind, bad, hbad, hrefuses⟩ := readDocument_heeds hi hn hall hr hz hy
  refine ⟨hkind, bad, hbad, fun b' h' => ?_⟩
  obtain ⟨r', hr', -⟩ := map_eq_ok h'
  exact hrefuses r' hr'

/-- A key that is not written again can have any other value that is no case. -/
theorem map_readDocument_unread {β : Type} {make : σ → β} {b : β} {k : String} {z : Datum}
    (hn : ((own ++ sections).map (·.name)).Nodup)
    (hwrites : ∀ f ∈ own ++ sections, ∀ r, (f.write r).isSome)
    (h : (readDocument own sections empty root).map make = .ok b)
    (hz : root.child? (.key k) = some z) :
    ∃ r, make r = b ∧ ((Json.obj (RecordField.members (own ++ sections) r)).get? k = none →
      ∀ y, findCase y = none →
        (readDocument own sections empty (root.replace [.key k] y)).map make = .ok b) := by
  obtain ⟨r, hr, rfl⟩ := map_eq_ok h
  refine ⟨r, rfl, fun hnone y hy => ?_⟩
  obtain ⟨m, tag, before, key, after, rfl, hkey, hreplace⟩ := Datum.replace_key hz
  have hk : ∀ f ∈ own ++ sections, f.name ≠ k := by
    intro f hf hname
    obtain ⟨w, hw⟩ := Option.isSome_iff_exists.mp (hwrites f hf r)
    have hlookup := (RecordField.lookup_members hn).mpr ⟨f, hf, hname, hw⟩
    exact nomatch hlookup.symm.trans hnone
  rw [hreplace, Datum.replace, readDocument_unread hkey hk hy hr]
  rfl

end Documents

end Provision.Decode
