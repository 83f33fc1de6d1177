import Provision.Proofs.Json.Node

/-!
# Laying one list over another

Entries of two lists are paired by their keys: each entry of the lower list with the first entry of
its key that is left of the upper one. Paired entries are combined where the lower one is, and what
is left of the upper list comes after the lower one. Entries without a key are never paired, so that
lists of such entries are joined; where all keys differ, this is how objects are merged.

* `layKeyed`: a list laid over another one.
* `layKeyed_assoc`: of three lists it does not matter which two are combined first, if it does not
  for three paired entries, and pairing keeps keys.
-/

set_option autoImplicit false

namespace Provision.Merge

section Keyed

variable {α β κ : Type} [DecidableEq κ]

/-- Takes the first entry with a key out of a list. -/
def takeFirst (key : α → Option κ) (k : κ) : List α → Option (α × List α)
  | [] => none
  | y :: ys =>
    if key y = some k then some (y, ys)
    else (takeFirst key k ys).map fun (found, left) => (found, y :: left)

/-- Takes the entry with the key of another one out of a list. -/
def takeSame (key : α → Option κ) (x : α) (ys : List α) : Option (α × List α) :=
  (key x).bind fun k => takeFirst key k ys

/-- The name of a member is its key. -/
def nameOf {β : Type} (e : String × β) : Option String := some e.1

/-- Lays a list over another one, with paired entries combined. -/
def layKeyed (key : α → Option κ) (combine : α → α → α) : (lower upper : List α) → List α
  | [], upper => upper
  | x :: rest, upper =>
    match takeSame key x upper with
    | some (y, left) => combine x y :: layKeyed key combine rest left
    | none => x :: layKeyed key combine rest upper

/-! ## Taking entries -/

section Take

variable {key : α → Option κ} {k other : κ} {x y : α} {xs ys left : List α}

theorem takeFirst_cons_of_eq (h : key y = some k) (ys : List α) :
    takeFirst key k (y :: ys) = some (y, ys) := if_pos h

theorem takeFirst_cons_of_ne (h : key y ≠ some k) (ys : List α) :
    takeFirst key k (y :: ys) =
      (takeFirst key k ys).map fun (found, left) => (found, y :: left) := if_neg h

theorem takeSame_of_key (h : key x = some k) (ys : List α) :
    takeSame key x ys = takeFirst key k ys := by
  rw [takeSame, h]
  rfl

theorem takeSame_of_none (h : key x = none) (ys : List α) : takeSame key x ys = none := by
  rw [takeSame, h]
  rfl

theorem takeSame_nil (x : α) : takeSame key x [] = none := by
  rw [takeSame]
  cases key x <;> rfl

theorem key_of_takeFirst (h : takeFirst key k ys = some (y, left)) : key y = some k := by
  induction ys generalizing left with
  | nil => cases h
  | cons z rest ih =>
    by_cases hz : key z = some k
    · rw [takeFirst_cons_of_eq hz] at h
      cases h
      exact hz
    · rw [takeFirst_cons_of_ne hz, Option.map_eq_some_iff] at h
      obtain ⟨⟨found, left'⟩, h, he⟩ := h
      cases he
      exact ih h

/-- What is taken, and what is left, was in the list. -/
theorem subset_of_takeFirst (h : takeFirst key k ys = some (y, left)) : y :: left ⊆ ys := by
  induction ys generalizing left with
  | nil => cases h
  | cons z rest ih =>
    by_cases hz : key z = some k
    · rw [takeFirst_cons_of_eq hz] at h
      cases h
      exact List.Subset.refl _
    · rw [takeFirst_cons_of_ne hz, Option.map_eq_some_iff] at h
      obtain ⟨⟨found, left'⟩, h, he⟩ := h
      cases he
      have hsub := ih h
      intro e he
      rcases List.mem_cons.mp he with rfl | he
      · exact List.mem_cons_of_mem _ (hsub List.mem_cons_self)
      · rcases List.mem_cons.mp he with rfl | he
        · exact List.mem_cons_self
        · exact List.mem_cons_of_mem _ (hsub (List.mem_cons_of_mem _ he))

/-- Entries of two keys can be taken in either order. -/
theorem takeFirst_comm {y' : α} {ys' : List α} (hne : other ≠ k)
    (h : takeFirst key other ys = some (y, left)) (h' : takeFirst key k left = some (y', ys')) :
    ∃ left', takeFirst key k ys = some (y', left') ∧ takeFirst key other left' = some (y, ys') := by
  induction ys generalizing left ys' with
  | nil => cases h
  | cons z rest ih =>
    by_cases hz : key z = some other
    · rw [takeFirst_cons_of_eq hz] at h
      cases h
      have hzk : key y ≠ some k := by
        rw [hz]
        exact fun he => hne (Option.some.inj he)
      exact ⟨y :: ys', by rw [takeFirst_cons_of_ne hzk, h']; rfl, takeFirst_cons_of_eq hz ys'⟩
    · rw [takeFirst_cons_of_ne hz, Option.map_eq_some_iff] at h
      obtain ⟨⟨found, left'⟩, h, he⟩ := h
      cases he
      by_cases hk : key z = some k
      · rw [takeFirst_cons_of_eq hk] at h'
        cases h'
        exact ⟨rest, takeFirst_cons_of_eq hk rest, h⟩
      · rw [takeFirst_cons_of_ne hk, Option.map_eq_some_iff] at h'
        obtain ⟨⟨found', left''⟩, h', he'⟩ := h'
        cases he'
        obtain ⟨most, hmost, hother⟩ := ih h h'
        refine ⟨z :: most, ?_, ?_⟩
        · rw [takeFirst_cons_of_ne hk, hmost]
          rfl
        · rw [takeFirst_cons_of_ne hz, hother]
          rfl

/-- Taking an entry of another key does not take the last one of a key. -/
theorem takeFirst_none_of_left (hne : other ≠ k)
    (h : takeFirst key other ys = some (y, left)) (h' : takeFirst key k left = none) :
    takeFirst key k ys = none := by
  induction ys generalizing left with
  | nil => cases h
  | cons z rest ih =>
    by_cases hz : key z = some other
    · rw [takeFirst_cons_of_eq hz] at h
      cases h
      have hzk : key y ≠ some k := by
        rw [hz]
        exact fun he => hne (Option.some.inj he)
      rw [takeFirst_cons_of_ne hzk, h']
      rfl
    · rw [takeFirst_cons_of_ne hz, Option.map_eq_some_iff] at h
      obtain ⟨⟨found, left'⟩, h, he⟩ := h
      cases he
      have hk : key z ≠ some k := by
        intro hk
        rw [takeFirst_cons_of_eq hk] at h'
        cases h'
      rw [takeFirst_cons_of_ne hk, Option.map_eq_none_iff] at h'
      rw [takeFirst_cons_of_ne hk, ih h h']
      rfl

theorem takeFirst_eq_none_iff : takeFirst key k ys = none ↔ ∀ y ∈ ys, key y ≠ some k := by
  induction ys with
  | nil => exact ⟨fun _ _ hy => (by cases hy), fun _ => rfl⟩
  | cons z rest ih =>
    rw [List.forall_mem_cons, ← ih]
    by_cases hz : key z = some k
    · rw [takeFirst_cons_of_eq hz]
      exact ⟨nofun, fun h => absurd hz h.1⟩
    · rw [takeFirst_cons_of_ne hz, Option.map_eq_none_iff]
      exact ⟨fun h => ⟨hz, h⟩, fun h => h.2⟩

/-- Where keys are kept, so is what is taken by them. -/
theorem takeFirst_map {key' : β → Option κ} {f : α → β} (hf : ∀ y ∈ ys, key' (f y) = key y) :
    takeFirst key' k (ys.map f) =
      (takeFirst key k ys).map fun (found, left) => (f found, left.map f) := by
  induction ys with
  | nil => rfl
  | cons z rest ih =>
    obtain ⟨hz, hrest⟩ := List.forall_mem_cons.mp hf
    rw [List.map_cons]
    by_cases hk : key z = some k
    · rw [takeFirst_cons_of_eq hk, takeFirst_cons_of_eq (hz.trans hk)]
      rfl
    · rw [takeFirst_cons_of_ne hk, takeFirst_cons_of_ne (fun h => hk (hz.symm.trans h)), ih hrest,
        Option.map_map, Option.map_map]
      rfl

end Take

/-! ## Three lists -/

section Lay

variable {key : α → Option κ} {combine : α → α → α} {k : κ} {x y : α} {xs ys zs left : List α}

@[simp] theorem layKeyed_nil (key : α → Option κ) (combine : α → α → α) (ys : List α) :
    layKeyed key combine [] ys = ys := rfl

theorem layKeyed_cons_of_some (h : takeSame key x ys = some (y, left)) (xs : List α) :
    layKeyed key combine (x :: xs) ys = combine x y :: layKeyed key combine xs left := by
  rw [layKeyed, h]

theorem layKeyed_cons_of_none (h : takeSame key x ys = none) (xs : List α) :
    layKeyed key combine (x :: xs) ys = x :: layKeyed key combine xs ys := by
  rw [layKeyed, h]

@[simp] theorem layKeyed_nil_right (key : α → Option κ) (combine : α → α → α) (xs : List α) :
    layKeyed key combine xs [] = xs := by
  induction xs with
  | nil => rfl
  | cons x xs ih => rw [layKeyed_cons_of_none (takeSame_nil x), ih]

/-- The first entry of a key among those of two lists is made of the first ones of both. -/
def takeBoth (key : α → Option κ) (combine : α → α → α) (k : κ) (ys zs : List α) :
    Option (α × List α) :=
  match takeFirst key k ys, takeFirst key k zs with
  | some (y, ys'), some (z, zs') => some (combine y z, layKeyed key combine ys' zs')
  | some (y, ys'), none => some (y, layKeyed key combine ys' zs)
  | none, some (z, zs') => some (z, layKeyed key combine ys zs')
  | none, none => none

/-- An entry of another key is put back in front of what is left. -/
theorem takeBoth_cons (hx : key x ≠ some k) (xs zs : List α) :
    takeBoth key combine k (x :: xs) zs =
      match takeSame key x zs with
      | some (z, zs') => (takeBoth key combine k xs zs').map fun (found, rest) =>
          (found, combine x z :: rest)
      | none => (takeBoth key combine k xs zs).map fun (found, rest) => (found, x :: rest) := by
  rw [takeBoth, takeFirst_cons_of_ne hx]
  cases hs : takeSame key x zs with
  | none =>
    -- nothing of the upper list has the key of the entry, before or after one is taken from it
    have alone : ∀ {z zs'}, takeFirst key k zs = some (z, zs') → takeSame key x zs' = none := by
      intro z zs' hz
      cases hk : key x with
      | none => exact takeSame_of_none hk zs'
      | some other =>
        rw [takeSame_of_key hk, takeFirst_eq_none_iff] at hs ⊢
        exact fun e he => hs e (subset_of_takeFirst hz (List.mem_cons_of_mem _ he))
    dsimp only
    rw [takeBoth]
    cases takeFirst key k xs with
    | none =>
      cases hz : takeFirst key k zs with
      | none => rfl
      | some e => simp [layKeyed_cons_of_none (alone hz)]
    | some found =>
      cases hz : takeFirst key k zs with
      | none => simp [layKeyed_cons_of_none hs]
      | some e => simp [layKeyed_cons_of_none (alone hz)]
  | some e =>
    obtain ⟨z, zs'⟩ := e
    obtain ⟨other, hother, ht⟩ : ∃ other, key x = some other ∧
        takeFirst key other zs = some (z, zs') := Option.bind_eq_some_iff.mp hs
    have hne : other ≠ k := fun he => hx (he ▸ hother)
    dsimp only
    rw [takeBoth]
    cases hz : takeFirst key k zs' with
    | none =>
      rw [takeFirst_none_of_left hne ht hz]
      cases takeFirst key k xs with
      | none => rfl
      | some found => simp [layKeyed_cons_of_some hs]
    | some e' =>
      obtain ⟨z', rest⟩ := e'
      obtain ⟨left, hleft, hagain⟩ := takeFirst_comm hne ht hz
      rw [hleft]
      have hsame : takeSame key x left = some (z, rest) := (takeSame_of_key hother left).trans hagain
      cases takeFirst key k xs with
      | none => simp [layKeyed_cons_of_some hsame]
      | some found => simp [layKeyed_cons_of_some hsame]

/-- Combining keeps keys. -/
def KeepsKeys (key : α → Option κ) (combine : α → α → α) : Prop :=
  ∀ x y k, key x = some k → key y = some k → key (combine x y) = some k

/-- **The first entry of a key in a list laid over another one is made of the first ones of both**,
and the others are laid over each other without them. -/
theorem takeFirst_layKeyed (hkey : KeepsKeys key combine) (k : κ) (ys zs : List α) :
    takeFirst key k (layKeyed key combine ys zs) = takeBoth key combine k ys zs := by
  induction ys generalizing zs with
  | nil =>
    rw [layKeyed_nil, takeBoth, takeFirst]
    cases takeFirst key k zs <;> rfl
  | cons y ys ih =>
    by_cases hy : key y = some k
    · rw [takeBoth, takeFirst_cons_of_eq hy]
      have hsame : takeSame key y zs = takeFirst key k zs := takeSame_of_key hy zs
      cases hz : takeFirst key k zs with
      | none =>
        rw [layKeyed_cons_of_none (hsame.trans hz), takeFirst_cons_of_eq hy]
      | some e =>
        obtain ⟨z, zs'⟩ := e
        rw [layKeyed_cons_of_some (hsame.trans hz),
          takeFirst_cons_of_eq (hkey y z k hy (key_of_takeFirst hz))]
    · rw [takeBoth_cons hy]
      cases hs : takeSame key y zs with
      | none =>
        dsimp only
        rw [layKeyed_cons_of_none hs, takeFirst_cons_of_ne hy, ih]
      | some e =>
        obtain ⟨z, zs'⟩ := e
        obtain ⟨other, hother, ht⟩ : ∃ other, key y = some other ∧
            takeFirst key other zs = some (z, zs') := Option.bind_eq_some_iff.mp hs
        have hcombined : key (combine y z) ≠ some k := by
          rw [hkey y z other hother (key_of_takeFirst ht), ← hother]
          exact hy
        dsimp only
        rw [layKeyed_cons_of_some hs, takeFirst_cons_of_ne hcombined, ih]

/-- **Of three lists it does not matter which two are combined first.** -/
theorem layKeyed_assoc (hkey : KeepsKeys key combine)
    (hassoc : ∀ x ∈ xs, ∀ y ∈ ys, ∀ z ∈ zs, key x = key y → key y = key z →
      combine (combine x y) z = combine x (combine y z)) :
    layKeyed key combine (layKeyed key combine xs ys) zs =
      layKeyed key combine xs (layKeyed key combine ys zs) := by
  induction xs generalizing ys zs with
  | nil => rfl
  | cons x xs ih =>
    obtain ⟨hx, hxs⟩ := List.forall_mem_cons.mp hassoc
    cases hk : key x with
    | none =>
      rw [layKeyed_cons_of_none (takeSame_of_none hk ys),
        layKeyed_cons_of_none (takeSame_of_none hk zs),
        layKeyed_cons_of_none (takeSame_of_none hk _), ih hxs]
    | some k =>
      have hboth := takeFirst_layKeyed hkey k ys zs
      have htail : ∀ {ys' zs'}, ys' ⊆ ys → zs' ⊆ zs →
          layKeyed key combine (layKeyed key combine xs ys') zs' =
            layKeyed key combine xs (layKeyed key combine ys' zs') := fun hys hzs =>
        ih fun a ha b hb c hc => hxs a ha b (hys hb) c (hzs hc)
      have rest : ∀ {ws : List α} {w ws'}, takeFirst key k ws = some (w, ws') → ws' ⊆ ws :=
        fun h => List.subset_of_cons_subset (subset_of_takeFirst h)
      rw [takeBoth] at hboth
      -- the entry is combined with the first of its key in each of the other two lists
      cases hy : takeFirst key k ys with
      | none =>
        have hx' : layKeyed key combine (x :: xs) ys = x :: layKeyed key combine xs ys :=
          layKeyed_cons_of_none ((takeSame_of_key hk ys).trans hy) xs
        rw [hx']
        cases hz : takeFirst key k zs with
        | none =>
          rw [hy, hz] at hboth
          rw [layKeyed_cons_of_none ((takeSame_of_key hk zs).trans hz),
            layKeyed_cons_of_none ((takeSame_of_key hk _).trans hboth),
            htail (List.Subset.refl _) (List.Subset.refl _)]
        | some e =>
          obtain ⟨z, zs'⟩ := e
          rw [hy, hz] at hboth
          rw [layKeyed_cons_of_some ((takeSame_of_key hk zs).trans hz),
            layKeyed_cons_of_some ((takeSame_of_key hk _).trans hboth),
            htail (List.Subset.refl _) (rest hz)]
      | some e =>
        obtain ⟨y, ys'⟩ := e
        have hx' : layKeyed key combine (x :: xs) ys = combine x y :: layKeyed key combine xs ys' :=
          layKeyed_cons_of_some ((takeSame_of_key hk ys).trans hy) xs
        have hxy : key (combine x y) = some k := hkey x y k hk (key_of_takeFirst hy)
        rw [hx']
        cases hz : takeFirst key k zs with
        | none =>
          rw [hy, hz] at hboth
          rw [layKeyed_cons_of_none ((takeSame_of_key hxy zs).trans hz),
            layKeyed_cons_of_some ((takeSame_of_key hk _).trans hboth),
            htail (rest hy) (List.Subset.refl _)]
        | some e' =>
          obtain ⟨z, zs'⟩ := e'
          rw [hy, hz] at hboth
          have hyy := subset_of_takeFirst hy List.mem_cons_self
          have hzz := subset_of_takeFirst hz List.mem_cons_self
          rw [layKeyed_cons_of_some ((takeSame_of_key hxy zs).trans hz),
            layKeyed_cons_of_some ((takeSame_of_key hk _).trans hboth),
            htail (rest hy) (rest hz), hx y hyy z hzz
              (hk.trans (key_of_takeFirst hy).symm)
              ((key_of_takeFirst hy).trans (key_of_takeFirst hz).symm)]

end Lay

end Keyed

end Provision.Merge
