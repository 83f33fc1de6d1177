import Provision.Proofs.Json.Node

/-!
# Origins in the order of their trails

Origins are kept in the order of the trails they belong to, so every trail has at most one. What is
looked up after many origins are recorded, dropped or moved follows from that.

* `Origins.Sorted`: the order of origins, which recording one keeps (`Origins.sorted_insert`).
* `Origins.find?_insertAll`: look-up after recording several origins.
* `Origins.find?_eq_some_iff`: what is found is what is recorded.
-/

set_option autoImplicit false

namespace Provision

/-! ## The order of trails -/

theorem Segment.compare_lt_trans {a b c : Segment} (hab : a.compare b = .lt)
    (hbc : b.compare c = .lt) : a.compare c = .lt := by
  have key : ∀ {a b : String}, (Segment.key a).compare (.key b) = .lt ↔ a < b := by
    intro a b
    rw [compare]
    split
    · next h => exact ⟨fun _ => h, fun _ => rfl⟩
    · next h => split <;> exact iff_of_false (fun heq => by cases heq) h
  have index : ∀ {a b : Nat}, (Segment.index a).compare (.index b) = .lt ↔ a < b := by
    intro a b
    rw [compare]
    split
    · simpa
    · split <;> simp <;> omega
  cases a <;> cases b <;> cases c <;> try first | rfl | (cases hab; done) | cases hbc
  case key.key.key => exact key.mpr (String.lt_trans (key.mp hab) (key.mp hbc))
  case index.index.index => exact index.mpr (Nat.lt_trans (index.mp hab) (index.mp hbc))

theorem Segment.compare_lt_of_gt {a b : Segment} (h : a.compare b = .gt) :
    b.compare a = .lt := by
  cases a <;> cases b
  · rw [compare] at h ⊢
    split at h
    · cases h
    · split at h
      · cases h
      · next hlt hne =>
        rw [if_pos]
        exact Std.lt_of_le_of_ne (String.not_lt.mp hlt) (Ne.symm hne)
  · cases h
  · rfl
  · rw [compare] at h ⊢
    split at h
    · cases h
    · split at h
      · cases h
      · rw [if_pos (by omega)]

namespace Trail

theorem compare_cons_lt_iff {a b : Segment} {as bs : Trail} :
    compare (a :: as) (b :: bs) = .lt ↔
      a.compare b = .lt ∨ (a = b ∧ compare as bs = .lt) := by
  rw [compare, ← Segment.compare_eq_iff]
  cases a.compare b <;> simp [Ordering.then]

theorem compare_lt_trans {a b c : Trail} (hab : a.compare b = .lt) (hbc : b.compare c = .lt) :
    a.compare c = .lt := by
  induction a generalizing b c with
  | nil =>
    cases c with
    | nil => cases b <;> cases hbc
    | cons => rfl
  | cons x xs ih =>
    cases b with
    | nil => cases hab
    | cons y ys =>
      cases c with
      | nil => cases hbc
      | cons z zs =>
        rw [compare_cons_lt_iff] at hab hbc ⊢
        rcases hab with hab | ⟨rfl, hab⟩
        · rcases hbc with hbc | ⟨rfl, hbc⟩
          · exact .inl (Segment.compare_lt_trans hab hbc)
          · exact .inl hab
        · rcases hbc with hbc | ⟨rfl, hbc⟩
          · exact .inl hbc
          · exact .inr ⟨rfl, ih hab hbc⟩

theorem compare_lt_of_gt {a b : Trail} (h : a.compare b = .gt) : b.compare a = .lt := by
  induction a generalizing b with
  | nil => cases b <;> cases h
  | cons x xs ih =>
    cases b with
    | nil => rfl
    | cons y ys =>
      rw [compare_cons_lt_iff]
      rw [compare] at h
      cases hxy : x.compare y with
      | lt => rw [hxy] at h; cases h
      | gt => exact .inl (Segment.compare_lt_of_gt hxy)
      | eq =>
        rw [hxy] at h
        exact .inr ⟨((Segment.compare_eq_iff x y).mp hxy).symm, ih h⟩

theorem ne_of_compare_lt {a b : Trail} (h : a.compare b = .lt) : a ≠ b := by
  rintro rfl
  rw [(compare_eq_iff a a).mpr rfl] at h
  cases h

end Trail

namespace Origins

/-! ## The order of origins -/

/-- Origins stand in the order of their trails. -/
def Sorted (o : Origins) : Prop := o.Pairwise fun a b => a.1.compare b.1 = .lt

instance (o : Origins) : Decidable o.Sorted :=
  inferInstanceAs (Decidable (o.Pairwise fun a b => a.1.compare b.1 = .lt))

theorem Sorted.nodup {o : Origins} (h : o.Sorted) : (o.map Prod.fst).Nodup :=
  List.Pairwise.map _ (fun _ _ => Trail.ne_of_compare_lt) h

theorem mem_insert {place origin : Trail} {o : Origins} {e : Trail × Trail}
    (h : e ∈ insert place origin o) : e = (place, origin) ∨ e ∈ o := by
  induction o with
  | nil => exact .inl (List.mem_singleton.mp h)
  | cons f rest ih =>
    rw [insert] at h
    split at h
    · exact List.mem_cons.mp h
    · exact (List.mem_cons.mp h).imp_right (List.mem_cons_of_mem _)
    · rcases List.mem_cons.mp h with rfl | h
      · exact .inr List.mem_cons_self
      · exact (ih h).imp_right (List.mem_cons_of_mem _)

/-- Recording an origin keeps the order. -/
theorem sorted_insert (place origin : Trail) {o : Origins} (h : o.Sorted) :
    (insert place origin o).Sorted := by
  induction o with
  | nil => exact List.pairwise_singleton _ _
  | cons e rest ih =>
    obtain ⟨first, hrest⟩ := List.pairwise_cons.mp h
    rw [insert]
    split
    · next hlt =>
      refine List.pairwise_cons.mpr ⟨fun f hf => ?_, h⟩
      rcases List.mem_cons.mp hf with rfl | hf
      · exact hlt
      · exact Trail.compare_lt_trans hlt (first f hf)
    · next heq =>
      cases (Trail.compare_eq_iff _ _).mp heq
      exact List.pairwise_cons.mpr ⟨first, hrest⟩
    · next hgt =>
      refine List.pairwise_cons.mpr ⟨fun f hf => ?_, ih hrest⟩
      rcases mem_insert hf with rfl | hf
      · exact Trail.compare_lt_of_gt hgt
      · exact first f hf

/-! ## Several origins -/

/-- Records several origins, one after the other. -/
def insertAll (added o : Origins) : Origins := added.foldl (fun o e => o.insert e.1 e.2) o

theorem sorted_insertAll (added : Origins) {o : Origins} (h : o.Sorted) :
    (insertAll added o).Sorted := by
  induction added generalizing o with
  | nil => exact h
  | cons e rest ih => exact ih (sorted_insert e.1 e.2 h)

theorem mem_insertAll {added o : Origins} {e : Trail × Trail} (h : e ∈ insertAll added o) :
    e ∈ added ∨ e ∈ o := by
  induction added generalizing o with
  | nil => exact .inr h
  | cons f rest ih =>
    rcases ih h with h | h
    · exact .inl (List.mem_cons_of_mem _ h)
    · rcases mem_insert h with rfl | h
      · exact .inl List.mem_cons_self
      · exact .inr h

@[simp] theorem find?_nil (place : Trail) : find? place [] = none := rfl

theorem find?_cons_self (place origin : Trail) (o : Origins) :
    find? place ((place, origin) :: o) = some origin := List.lookup_cons_self

theorem find?_cons_of_ne {place other : Trail} (h : other ≠ place) (origin : Trail)
    (o : Origins) : find? other ((place, origin) :: o) = find? other o := by
  rw [find?, List.lookup_cons, beq_eq_false_iff_ne.mpr h]
  rfl

theorem find?_eq_none_iff {o : Origins} {place : Trail} :
    find? place o = none ↔ place ∉ o.map Prod.fst := by
  rw [find?, List.lookup_eq_none_iff]
  simp only [List.mem_map, not_exists, not_and, bne_iff_ne, ne_eq]
  exact ⟨fun h e he hk => h e he hk.symm, fun h e he hk => h e he hk.symm⟩

theorem mem_of_find? {o : Origins} {place origin : Trail} (h : find? place o = some origin) :
    (place, origin) ∈ o :=
  List.mem_of_lookup_eq_some h

/-- Where every trail has one origin, what is found is what is recorded. -/
theorem find?_eq_some_iff {o : Origins} (hd : (o.map Prod.fst).Nodup) {place origin : Trail} :
    find? place o = some origin ↔ (place, origin) ∈ o :=
  List.lookup_eq_some_iff_mem hd

/-- **Of what is recorded for a trail, the origins that were added come first.** -/
theorem find?_insertAll {added : Origins} (hd : (added.map Prod.fst).Nodup) (o : Origins)
    (place : Trail) : find? place (insertAll added o) = (find? place added).or (find? place o) := by
  induction added generalizing o with
  | nil => rfl
  | cons e rest ih =>
    obtain ⟨first, origin⟩ := e
    rw [List.map_cons, List.nodup_cons] at hd
    refine (ih hd.2 (o.insert first origin)).trans ?_
    by_cases hp : place = first
    · subst hp
      rw [find?_eq_none_iff.mpr hd.1, find?_insert, find?_cons_self]
      rfl
    · rw [find?_insert_of_ne hp, find?_cons_of_ne hp]

theorem find?_filter (keep : Trail → Bool) (o : Origins) (place : Trail) :
    find? place (o.filter fun e => keep e.1) = if keep place then find? place o else none := by
  induction o with
  | nil => simp
  | cons e rest ih =>
    obtain ⟨first, origin⟩ := e
    rw [List.filter_cons]
    by_cases hp : place = first
    · subst hp
      cases hk : keep place with
      | true =>
        rw [if_pos rfl, if_pos rfl, find?_cons_self, find?_cons_self]
      | false =>
        rw [if_neg Bool.false_ne_true, ih, hk]
        rfl
    · rw [find?_cons_of_ne hp, ← ih]
      split
      · exact find?_cons_of_ne hp origin _
      · rfl

end Origins

end Provision
