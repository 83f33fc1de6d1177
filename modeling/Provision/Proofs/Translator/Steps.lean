import Provision.Proofs.Json.Put
import Provision.Translator

/-!
# One step of a translation

What is made of a part is found, under its new name, in what is made of the whole, whatever is made
of the other parts. What was found wrong with it is found in the whole as well.

* `get?_walk`: the members that are made of an object.
* `getElem?_walk`: the items that are made of a list.
* `isFatal_member`, `isFatal_item`: a whole without errors has no part with one.
* `report_translateAt`: what holds of all that rules report holds of all that is reported.
-/

set_option autoImplicit false

namespace Provision.Translator

variable {t : Translator} {origin place : Trail}

/-- What is made of a part, if it has content. -/
def content (m : Translated (Option Json)) : Option Json := m.value.filter fun v => !v.isEmpty

/-- What a walk makes has content. -/
theorem content_walk (t : Translator) (origin place : Trail) (x : Json) :
    content (t.walk origin place x) = (t.walk origin place x).value := by
  have hwritten : ∀ m, content (written origin place m) = (written origin place m).value := by
    intro m
    rw [written]
    split
    · rfl
    · next h => simp [content, h]
  cases x <;> exact hwritten _

/-- What has no content has no members. -/
theorem get?_content (m : Translated (Option Json)) (k : String) :
    (content m).bind (·.get? k) = m.value.bind (·.get? k) := by
  rw [content]
  cases m.value with
  | none => rfl
  | some v =>
    cases hv : v.isEmpty with
    | false => simp [Option.filter, hv]
    | true =>
      cases hk : v.get? k with
      | none => simp [Option.filter, hv, hk]
      | some y =>
        rw [@Json.not_isEmpty_of_child (.key k) v y hk] at hv
        cases hv

/-- A text is made into itself, unless it is empty. -/
theorem value_walk_str (t : Translator) (origin place : Trail) (s : String) :
    (t.walk origin place (.str s)).value = if s = "" then none else some (.str s) := by
  have hwalk : t.walk origin place (.str s) = written origin place ⟨.str s, {}, []⟩ := rfl
  rw [hwalk, written, Json.isEmpty]
  by_cases hs : s = "" <;> simp [hs]

theorem report_written (m : Translated Json) : (written origin place m).report = m.report := by
  rw [written]
  split <;> rfl

/-! ## Members -/

section Members

variable {members : List (String × Json)} {done : Translated (List (String × Json))} {k : String}
  {x : Json}

/-- The members after one that is not left out are walked with it among those that are done. -/
theorem walkMembers_cons (h : t.isSkipped (origin.key k) = false)
    (rest : List (String × Json)) :
    t.walkMembers origin place ((k, x) :: rest) done =
      let made := t.translateAt (origin.key k) (place.key (t.nameOf k)) x
      t.walkMembers origin place rest
        ⟨((content made).map fun v => Json.insert (t.nameOf k) v done.value).getD done.value,
          done.provenance.merge made.provenance, done.report ++ made.report⟩ := by
  rw [walkMembers, if_neg (by simp [h])]
  dsimp only
  generalize t.translateAt (origin.key k) (place.key (t.nameOf k)) x = made
  congr 2
  rw [content]
  cases made.value with
  | none => rfl
  | some v => cases hv : v.isEmpty <;> simp [hv, Option.filter]

/-- A name that no member has that is not left out stays as it is. -/
theorem lookup_walkMembers_of_ne {n : String}
    (h : ∀ e ∈ members, t.isSkipped (origin.key e.1) = false → t.nameOf e.1 ≠ n) :
    Json.lookup n (t.walkMembers origin place members done).value = Json.lookup n done.value := by
  induction members generalizing done with
  | nil => rw [walkMembers]
  | cons e rest ih =>
    obtain ⟨l, y⟩ := e
    obtain ⟨hl, hrest⟩ := List.forall_mem_cons.mp h
    cases hs : t.isSkipped (origin.key l) with
    | true =>
      rw [walkMembers, if_pos hs]
      exact ih hrest
    | false =>
      rw [walkMembers_cons hs, ih hrest]
      cases content (t.translateAt (origin.key l) (place.key (t.nameOf l)) y) with
      | none => rfl
      | some v => exact Json.lookup_insert_of_ne (Ne.symm (hl hs)) _ _

/-- A member that is made was there before, or is made of a member that has its name and is not left
out. -/
theorem mem_walkMembers {n : String} {v : Json}
    (h : (n, v) ∈ (t.walkMembers origin place members done).value) :
    (n, v) ∈ done.value ∨ ∃ e ∈ members, t.isSkipped (origin.key e.1) = false ∧ t.nameOf e.1 = n ∧
      (t.translateAt (origin.key e.1) (place.key n) e.2).value = some v ∧ v.isEmpty = false := by
  induction members generalizing done with
  | nil =>
    rw [walkMembers] at h
    exact .inl h
  | cons e rest ih =>
    obtain ⟨k, x⟩ := e
    cases hs : t.isSkipped (origin.key k) with
    | true =>
      rw [walkMembers, if_pos hs] at h
      rcases ih h with hdone | ⟨e, he, hmade⟩
      · exact .inl hdone
      · exact .inr ⟨e, List.mem_cons_of_mem _ he, hmade⟩
    | false =>
      rw [walkMembers_cons hs] at h
      rcases ih h with hdone | ⟨e, he, hmade⟩
      · cases hc : content (t.translateAt (origin.key k) (place.key (t.nameOf k)) x) with
        | none =>
          rw [hc] at hdone
          exact .inl hdone
        | some w =>
          rw [hc] at hdone
          rcases Json.mem_insert hdone with heq | hdone
          · cases heq
            obtain ⟨hvalue, hw⟩ := Option.filter_eq_some_iff.mp hc
            exact .inr ⟨(k, x), List.mem_cons_self, hs, rfl, hvalue, by simpa using hw⟩
          · exact .inl hdone
      · exact .inr ⟨e, List.mem_cons_of_mem _ he, hmade⟩

/-- **A member is made of the member that has its name.** -/
theorem lookup_walkMembers (hd : (members.map Prod.fst).Nodup)
    (hk : Json.lookup k members = some x) (hs : t.isSkipped (origin.key k) = false)
    (hnames : ∀ l ∈ members.map Prod.fst, t.nameOf l = t.nameOf k → l = k)
    (hnew : Json.lookup (t.nameOf k) done.value = none) :
    Json.lookup (t.nameOf k) (t.walkMembers origin place members done).value =
      content (t.translateAt (origin.key k) (place.key (t.nameOf k)) x) := by
  induction members generalizing done with
  | nil => cases hk
  | cons e rest ih =>
    obtain ⟨l, y⟩ := e
    rw [List.map_cons, List.nodup_cons] at hd
    rw [List.map_cons] at hnames
    obtain ⟨hname, hrest⟩ := List.forall_mem_cons.mp hnames
    by_cases hl : l = k
    · subst hl
      have hx : y = x := by simpa [Json.lookup] using hk
      subst hx
      -- No member that follows has the name.
      rw [walkMembers_cons hs, lookup_walkMembers_of_ne]
      · cases content (t.translateAt (origin.key l) (place.key (t.nameOf l)) y) with
        | none => exact hnew
        | some v => exact Json.lookup_insert _ _ _
      · intro e he _ heq
        have hmem : e.1 ∈ rest.map Prod.fst := List.mem_map_of_mem he
        exact hd.1 (hrest e.1 hmem heq ▸ hmem)
    · have hk' : Json.lookup k rest = some x := by
        rwa [Json.lookup, List.lookup_cons, beq_eq_false_iff_ne.mpr (Ne.symm hl)] at hk
      have hne : t.nameOf k ≠ t.nameOf l := fun h => hl (hname h.symm)
      cases hsl : t.isSkipped (origin.key l) with
      | true =>
        rw [walkMembers, if_pos hsl]
        exact ih hd.2 hk' hrest hnew
      | false =>
        rw [walkMembers_cons hsl]
        refine ih hd.2 hk' hrest ?_
        cases content (t.translateAt (origin.key l) (place.key (t.nameOf l)) y) with
        | none => exact hnew
        | some v => exact (Json.lookup_insert_of_ne hne _ _).trans hnew

/-- What was found before and what is found with the members is in what was found in all. -/
theorem isFatal_walkMembers (h : (t.walkMembers origin place members done).report.isFatal = false) :
    done.report.isFatal = false ∧ ∀ e ∈ members, t.isSkipped (origin.key e.1) = false →
      (t.translateAt (origin.key e.1) (place.key (t.nameOf e.1)) e.2).report.isFatal = false := by
  induction members generalizing done with
  | nil =>
    rw [walkMembers] at h
    exact ⟨h, List.forall_mem_nil _⟩
  | cons e rest ih =>
    obtain ⟨l, y⟩ := e
    cases hs : t.isSkipped (origin.key l) with
    | true =>
      rw [walkMembers, if_pos hs] at h
      obtain ⟨hdone, hrest⟩ := ih h
      refine ⟨hdone, List.forall_mem_cons.mpr ⟨fun hl => ?_, hrest⟩⟩
      rw [hs] at hl
      cases hl
    | false =>
      rw [walkMembers_cons hs] at h
      obtain ⟨hdone, hrest⟩ := ih h
      rw [Report.isFatal_append, Bool.or_eq_false_iff] at hdone
      exact ⟨hdone.1, List.forall_mem_cons.mpr ⟨fun _ => hdone.2, hrest⟩⟩

/-- **The member of an object that is made is made of the member that has its name.** -/
theorem get?_walk (hd : (members.map Prod.fst).Nodup) (hk : Json.lookup k members = some x)
    (hs : t.isSkipped (origin.key k) = false)
    (hnames : ∀ l ∈ members.map Prod.fst, t.nameOf l = t.nameOf k → l = k) :
    (t.walk origin place (.obj members)).value.bind (·.get? (t.nameOf k)) =
      content (t.translateAt (origin.key k) (place.key (t.nameOf k)) x) := by
  rw [← @lookup_walkMembers t origin place members ⟨[], {}, []⟩ k x hd hk hs hnames rfl, walk, written]
  split
  · next hempty =>
    have hnil : (t.walkMembers origin place members ⟨[], {}, []⟩).value = [] :=
      List.isEmpty_iff.mp hempty
    rw [hnil]
    rfl
  · rfl

theorem isFatal_member (h : (t.walk origin place (.obj members)).report.isFatal = false)
    (hk : Json.lookup k members = some x) (hs : t.isSkipped (origin.key k) = false) :
    (t.translateAt (origin.key k) (place.key (t.nameOf k)) x).report.isFatal = false := by
  rw [walk, report_written] at h
  exact (isFatal_walkMembers h).2 (k, x) (Json.mem_of_lookup hk) hs

end Members

/-! ## Items -/

section Items

variable {items : List Json}

theorem getElem?_walkItems (position i : Nat) :
    (t.walkItems origin place position items).value[i]? = items[i]?.map fun x =>
      (t.translateAt (origin.index (position + i)) (place.index (position + i)) x).value.getD
        (vacant x) := by
  induction items generalizing position i with
  | nil => rw [walkItems]; rfl
  | cons x rest ih =>
    rw [walkItems]
    cases i with
    | zero => rfl
    | succ i =>
      rw [List.getElem?_cons_succ, List.getElem?_cons_succ, ih, Nat.add_right_comm]
      rfl

theorem isFatal_walkItems {position i : Nat} {x : Json}
    (h : (t.walkItems origin place position items).report.isFatal = false)
    (hx : items[i]? = some x) :
    (t.translateAt (origin.index (position + i)) (place.index (position + i)) x).report.isFatal =
      false := by
  induction items generalizing position i with
  | nil => cases hx
  | cons y rest ih =>
    rw [walkItems, Report.isFatal_append, Bool.or_eq_false_iff] at h
    cases i with
    | zero =>
      cases hx
      exact h.1
    | succ i =>
      have hi := ih h.2 hx
      rwa [Nat.add_right_comm] at hi

/-- **The item of a list that is made is made of the item at its position**, and stands there even if
nothing is made of it. -/
theorem getElem?_walk (i : Nat) :
    (((t.walk origin place (.arr items)).value.bind Json.items?).getD [])[i]? =
      items[i]?.map fun x =>
        (t.translateAt (origin.index i) (place.index i) x).value.getD (vacant x) := by
  have hitems := @getElem?_walkItems t origin place items 0 i
  simp only [Nat.zero_add] at hitems
  rw [← hitems, walk, written]
  split
  · next hempty =>
    have hnil : (t.walkItems origin place 0 items).value = [] := List.isEmpty_iff.mp hempty
    rw [hnil]
    rfl
  · rfl

theorem isFatal_item {i : Nat} {x : Json}
    (h : (t.walk origin place (.arr items)).report.isFatal = false) (hx : items[i]? = some x) :
    (t.translateAt (origin.index i) (place.index i) x).report.isFatal = false := by
  rw [walk, report_written] at h
  have hi := @isFatal_walkItems t origin place items 0 i x h hx
  rwa [Nat.zero_add] at hi

end Items

/-! ## Reports -/

section Report

variable {t : Translator} {P : Entry → Prop}

/-- What rules report has a property if what they are given has it. -/
def RulesReport (t : Translator) (P : Entry → Prop) : Prop :=
  ∀ origin rule, t.rule? origin = some rule → ∀ m x place, (∀ e ∈ m.report, P e) →
    ∀ e ∈ (rule m x origin place).report, P e

theorem report_rule (h : t.RulesReport P) {origin : Trail} (place : Trail) (x : Json)
    {m : Translated (Option Json)} (hm : ∀ e ∈ m.report, P e) :
    ∀ e ∈ (((t.rule? origin).map fun rule => rule m x origin place).getD m).report, P e := by
  cases hr : t.rule? origin with
  | none => exact hm
  | some rule => exact h origin rule hr m x place hm

mutual

/-- **What holds of all that rules report holds of all that is reported.** -/
theorem report_translateAt (h : t.RulesReport P) (origin place : Trail) :
    (x : Json) → ∀ e ∈ (t.translateAt origin place x).report, P e
  | .arr items => by
    rw [translateAt]
    refine report_rule h place _ ?_
    rw [report_written]
    exact report_walkItems h origin place 0 items
  | .obj members => by
    rw [translateAt]
    refine report_rule h place _ ?_
    rw [report_written]
    exact report_walkMembers h origin place members fun _ he => absurd he List.not_mem_nil
  | .null | .bool _ | .num _ | .str _ => by
    rw [translateAt_eq]
    refine report_rule h place _ ?_
    simp only [walk, report_written]
    exact fun _ he => absurd he List.not_mem_nil

theorem report_walkItems (h : t.RulesReport P) (origin place : Trail) :
    (position : Nat) → (items : List Json) →
      ∀ e ∈ (t.walkItems origin place position items).report, P e
  | position, [] => by
    rw [walkItems]
    exact fun _ he => absurd he List.not_mem_nil
  | position, x :: rest => by
    rw [walkItems]
    intro e he
    rcases List.mem_append.mp he with he | he
    · exact report_translateAt h _ _ x e he
    · exact report_walkItems h origin place (position + 1) rest e he

theorem report_walkMembers (h : t.RulesReport P) (origin place : Trail) :
    (members : List (String × Json)) → {done : Translated (List (String × Json))} →
      (∀ e ∈ done.report, P e) → ∀ e ∈ (t.walkMembers origin place members done).report, P e
  | [], _, hdone => by
    rw [walkMembers]
    exact hdone
  | (k, x) :: rest, _, hdone => by
    rw [walkMembers]
    split
    · exact report_walkMembers h origin place rest hdone
    · refine report_walkMembers h origin place rest fun e he => ?_
      rcases List.mem_append.mp he with he | he
      · exact hdone e he
      · exact report_translateAt h _ _ x e he

end

end Report

end Provision.Translator
