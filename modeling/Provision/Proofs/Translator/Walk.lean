import Mathlib.Data.List.Nodup
import Provision.Proofs.Translator
import Provision.Proofs.Translator.Steps

/-!
# Translations without rules

Without rules, a document keeps its structure under other names. What has content is kept unless it
is left out, and what is kept stands at the trail of its new names, with the trail it had as its
origin; nothing else stands there with content. So the origins lead back and forth between the two
documents.

* `Translator.isApart`: the keys of every object have different new names, and so do the trails of
  all nodes (`Translator.rename_inj`).
* `Translator.Keeps`: a node is kept; where it stands (`Translator.at?_made_of_keeps`), and that
  nothing else stands anywhere (`Translator.keeps_of_at?_made`).
* `Translator.marks_translateAt`: the origins that are recorded are those of the nodes that are
  kept.
* `Translator.translate_back_and_forth`: the origins of a document that is made.
-/

set_option autoImplicit false

namespace Provision.Translator

/-! ## Names that differ -/

mutual

/-- Whether the keys of every object of a document have different new names. -/
def isApart (t : Translator) : Json → Bool
  | .arr items => isApartItems t items
  | .obj members => isApartMembers t members
  | _ => true

/-- Whether this holds in every item. -/
def isApartItems (t : Translator) : List Json → Bool
  | [] => true
  | x :: rest => isApart t x && isApartItems t rest

/-- Whether the keys of members have different new names, and this holds in every member. -/
def isApartMembers (t : Translator) : List (String × Json) → Bool
  | [] => true
  | (k, x) :: rest =>
    rest.all (fun e => t.nameOf k ≠ t.nameOf e.1) && (isApart t x && isApartMembers t rest)

end

section Apart

variable {t : Translator}

theorem isApartItems_iff {items : List Json} :
    t.isApartItems items = true ↔ ∀ x ∈ items, t.isApart x = true := by
  induction items with
  | nil => simp [isApartItems]
  | cons x rest ih => simp [isApartItems, ih]

theorem isApartMembers_iff {members : List (String × Json)} :
    t.isApartMembers members = true ↔
      (members.map fun e => t.nameOf e.1).Nodup ∧ ∀ e ∈ members, t.isApart e.2 = true := by
  induction members with
  | nil => simp [isApartMembers]
  | cons e rest ih =>
    obtain ⟨k, x⟩ := e
    have hnew : (rest.all fun e => t.nameOf k ≠ t.nameOf e.1) = true ↔
        t.nameOf k ∉ rest.map fun e => t.nameOf e.1 := by
      simp only [List.all_eq_true, decide_eq_true_eq, List.mem_map, not_exists, not_and]
      exact ⟨fun h e he heq => h e he heq.symm, fun h e he heq => h e he heq.symm⟩
    rw [isApartMembers, Bool.and_eq_true, Bool.and_eq_true, hnew, ih, List.map_cons,
      List.nodup_cons, List.forall_mem_cons]
    exact ⟨fun ⟨hk, hx, hn, hr⟩ => ⟨⟨hk, hn⟩, hx, hr⟩, fun ⟨⟨hk, hn⟩, hx, hr⟩ => ⟨hk, hx, hn, hr⟩⟩

/-- Keys with different new names are different. -/
theorem nodup_keys {members : List (String × Json)}
    (h : (members.map fun e => t.nameOf e.1).Nodup) : (members.map Prod.fst).Nodup :=
  List.pairwise_map.mpr ((List.pairwise_map.mp h).imp fun hne heq => hne (congrArg t.nameOf heq))

/-- In a document whose keys have different new names the keys are different. -/
theorem isDistinct_of_isApart {x : Json} (h : t.isApart x = true) : x.isDistinct = true := by
  induction x using Json.child_induction with
  | step x ih =>
    cases x with
    | arr items =>
      refine Json.isDistinct_arr.mpr fun y hy => ?_
      obtain ⟨i, hi⟩ := List.mem_iff_getElem?.mp hy
      rw [isApart, isApartItems_iff] at h
      exact ih (.index i) y hi (h y hy)
    | obj members =>
      rw [isApart, isApartMembers_iff] at h
      have hkeys := nodup_keys h.1
      exact Json.isDistinct_obj.mpr ⟨hkeys, fun e he =>
        ih (.key e.1) e.2 ((Json.lookup_eq_some_iff hkeys).mpr he) (h.2 e he)⟩
    | _ => rfl

theorem isApart_of_child {s : Segment} {x y : Json} (hx : t.isApart x = true)
    (h : x.child? s = some y) : t.isApart y = true := by
  cases x with
  | arr items =>
    cases s with
    | key => cases h
    | index i =>
      rw [isApart, isApartItems_iff] at hx
      exact hx y (List.mem_of_getElem? h)
  | obj members =>
    cases s with
    | index => cases h
    | key k =>
      rw [isApart, isApartMembers_iff] at hx
      exact hx.2 _ (Json.mem_of_lookup h)
  | _ => cases s <;> cases h

/-- The steps to two nodes differ in their new names. -/
theorem renameStep_inj {x y y' : Json} {s s' : Segment} (hx : t.isApart x = true)
    (hy : x.child? s = some y) (hy' : x.child? s' = some y')
    (h : t.renameStep s = t.renameStep s') : s = s' := by
  cases s with
  | index i =>
    cases s' with
    | index j =>
      cases h
      rfl
    | key => cases h
  | key k =>
    cases s' with
    | index => cases h
    | key l =>
      cases x with
      | obj members =>
        rw [isApart, isApartMembers_iff] at hx
        have heq := List.inj_on_of_nodup_map hx.1 (Json.mem_of_lookup hy)
          (Json.mem_of_lookup hy') (Segment.key.inj h)
        rw [(Prod.mk.inj heq).1]
      | _ => cases hy

/-- **The trails of two nodes differ in their new names.** -/
theorem rename_inj {x : Json} {u u' : Trail} (hx : t.isApart x = true)
    (hu : (x.at? u).isSome = true) (hu' : (x.at? u').isSome = true)
    (h : t.rename u = t.rename u') : u = u' := by
  induction u generalizing x u' with
  | nil =>
    cases u' with
    | nil => rfl
    | cons => cases h
  | cons s u ih =>
    cases u' with
    | nil => cases h
    | cons s' u' =>
      rw [rename_cons, rename_cons, List.cons.injEq] at h
      obtain ⟨z, hz⟩ := Option.isSome_iff_exists.mp hu
      obtain ⟨z', hz'⟩ := Option.isSome_iff_exists.mp hu'
      obtain ⟨y, hy, hyz⟩ := Option.bind_eq_some_iff.mp hz
      obtain ⟨y', hy', hyz'⟩ := Option.bind_eq_some_iff.mp hz'
      cases renameStep_inj hx hy hy' h.1
      rw [hy] at hy'
      cases hy'
      rw [ih (isApart_of_child hx hy) (hyz ▸ rfl) (hyz' ▸ rfl) h.2]

end Apart

/-! ## What is kept -/

mutual

/-- Whether something with content is made of a part. -/
def hasContent (t : Translator) (origin : Trail) : Json → Bool
  | .arr items => !items.isEmpty
  | .obj members => hasContentMembers t origin members
  | x => !x.isEmpty

/-- Whether this is so for a member that is not left out. -/
def hasContentMembers (t : Translator) (origin : Trail) : List (String × Json) → Bool
  | [] => false
  | (k, x) :: rest =>
    (!t.isSkipped (origin.key k) && hasContent t (origin.key k) x) ||
      hasContentMembers t origin rest

end

/-- Whether a step is not one to a member that is left out. -/
def leadsOn (t : Translator) (origin : Trail) : Segment → Bool
  | .key k => !t.isSkipped (origin.key k)
  | .index _ => true

/-- Whether no member on the way along a trail is left out. -/
def isKept (t : Translator) (origin : Trail) : Trail → Bool
  | [] => true
  | s :: u => t.leadsOn origin s && isKept t (origin ++ [s]) u

/-- A node of a part is kept: no member on the way to it is left out, and it has content. -/
def Keeps (t : Translator) (origin : Trail) (x : Json) (u : Trail) : Prop :=
  t.isKept origin u = true ∧ ∃ z, x.at? u = some z ∧ t.hasContent (origin ++ u) z = true

section Keeps

variable {t : Translator} {origin : Trail}

theorem hasContentMembers_iff {members : List (String × Json)} :
    t.hasContentMembers origin members = true ↔ ∃ e ∈ members,
      t.isSkipped (origin.key e.1) = false ∧ t.hasContent (origin.key e.1) e.2 = true := by
  induction members with
  | nil => simp [hasContentMembers]
  | cons e rest ih => simp [hasContentMembers, ih]

theorem hasContent_of_isScalar {x : Json} (h : x.isScalar = true) :
    t.hasContent origin x = !x.isEmpty := by
  cases x <;> first | rfl | cases h

theorem keeps_nil {x : Json} : t.Keeps origin x [] ↔ t.hasContent origin x = true := by
  rw [Keeps, List.append_nil]
  exact ⟨fun ⟨_, z, hz, h⟩ => Option.some.inj hz ▸ h, fun h => ⟨rfl, x, rfl, h⟩⟩

theorem keeps_cons {x : Json} {s : Segment} {u : Trail} :
    t.Keeps origin x (s :: u) ↔ ∃ y, x.child? s = some y ∧ t.leadsOn origin s = true ∧
      t.Keeps (origin ++ [s]) y u := by
  rw [Keeps, isKept, Bool.and_eq_true, List.append_cons origin s u]
  constructor
  · rintro ⟨⟨hs, hu⟩, z, hz, h⟩
    obtain ⟨y, hy, hyz⟩ := Option.bind_eq_some_iff.mp hz
    exact ⟨y, hy, hs, hu, z, hyz, h⟩
  · rintro ⟨y, hy, hs, hu, z, hz, h⟩
    exact ⟨⟨hs, hu⟩, z, (Json.at?_cons_of_child hy u).trans hz, h⟩

theorem Keeps.isSome {x : Json} {u : Trail} (h : t.Keeps origin x u) : (x.at? u).isSome = true := by
  obtain ⟨-, z, hz, -⟩ := h
  rw [hz]
  rfl

/-- What has something below it that is kept is kept. -/
theorem Keeps.hasContent {x : Json} {u : Trail} (h : t.Keeps origin x u) :
    t.hasContent origin x = true := by
  induction u generalizing x origin with
  | nil => exact keeps_nil.mp h
  | cons s u ih =>
    obtain ⟨y, hy, hs, hkeeps⟩ := keeps_cons.mp h
    cases x with
    | arr items =>
      rw [Translator.hasContent]
      exact congrArg not (Json.not_isEmpty_of_child hy)
    | obj members =>
      cases s with
      | index => cases hy
      | key k =>
        rw [Translator.hasContent]
        exact hasContentMembers_iff.mpr ⟨(k, y), Json.mem_of_lookup hy,
          (Bool.not_eq_true' _).mp hs, ih hkeeps⟩
    | _ => cases s <;> cases hy

end Keeps

/-! ## What is made -/

section Made

variable {t : Translator}

/-- What is written stands for the part, also if it is empty and so is not written. -/
theorem made_written {x : Json} {r : Translated Json} (origin place : Trail)
    (h : r.value.isEmpty = true → vacant x = r.value) :
    made x (written origin place r) = r.value := by
  rw [made, written]
  split
  · next hempty => exact h hempty
  · rfl

/-- Items keep their positions, so there are as many as before. -/
theorem isEmpty_walkItems (t : Translator) (origin place : Trail) (position : Nat)
    (items : List Json) :
    (t.walkItems origin place position items).value.isEmpty = items.isEmpty := by
  cases items with
  | nil => rw [walkItems]
  | cons => rw [walkItems]; rfl

theorem made_arr (t : Translator) (origin place : Trail) (items : List Json) :
    made (.arr items) (t.walk origin place (.arr items)) =
      .arr (t.walkItems origin place 0 items).value := by
  refine made_written _ _ fun hempty => ?_
  have hnil : items.isEmpty = true := (isEmpty_walkItems t origin place 0 items).symm.trans hempty
  exact congrArg Json.arr ((List.isEmpty_iff.mp hnil).trans (List.isEmpty_iff.mp hempty).symm)

theorem made_obj (t : Translator) (origin place : Trail) (members : List (String × Json)) :
    made (.obj members) (t.walk origin place (.obj members)) =
      .obj (t.walkMembers origin place members ⟨[], {}, []⟩).value :=
  made_written _ _ fun hempty => congrArg Json.obj (List.isEmpty_iff.mp hempty).symm

/-- What has nothing below it stays as it is. -/
theorem made_leaf (t : Translator) (origin place : Trail) {x : Json}
    (h : x.isScalar = true ∨ x = .null) : made x (t.walk origin place x) = x := by
  rcases h with h | rfl
  · cases x <;> first | exact made_written _ _ fun _ => rfl | cases h
  · exact made_written _ _ fun _ => rfl

theorem translateAt_of_rules (h : t.rules = []) (origin place : Trail) (x : Json) :
    t.translateAt origin place x = t.walk origin place x := by
  rw [translateAt_eq, rule?, h]
  rfl

theorem isSome_value_written (origin place : Trail) (r : Translated Json) :
    (written origin place r).value.isSome = !r.value.isEmpty := by
  rw [written]
  split
  · next h => rw [h]; rfl
  · next h => rw [Bool.not_eq_true] at h; rw [h]; rfl

mutual

/-- Without rules, something is made of a part exactly if it has content. -/
theorem isSome_translateAt (h : t.rules = []) (origin place : Trail) :
    (x : Json) → (t.translateAt origin place x).value.isSome = t.hasContent origin x
  | .arr items => by
    rw [translateAt_of_rules h, walk, isSome_value_written, hasContent]
    exact congrArg not (isEmpty_walkItems t origin place 0 items)
  | .obj members => by
    rw [translateAt_of_rules h, walk, isSome_value_written, hasContent]
    refine (congrArg not (isEmpty_walkMembers h origin place members ⟨[], {}, []⟩)).trans ?_
    exact Bool.not_not _
  | .null | .bool _ | .num _ | .str _ => by
    rw [translateAt_of_rules h]
    exact isSome_value_written origin place ⟨_, {}, []⟩

theorem isEmpty_walkMembers (h : t.rules = []) (origin place : Trail) :
    (members : List (String × Json)) → (done : Translated (List (String × Json))) →
      (t.walkMembers origin place members done).value.isEmpty =
        (done.value.isEmpty && !t.hasContentMembers origin members)
  | [], done => by rw [walkMembers, hasContentMembers, Bool.not_false, Bool.and_true]
  | (k, x) :: rest, done => by
    cases hs : t.isSkipped (origin.key k) with
    | true =>
      rw [walkMembers, if_pos hs, isEmpty_walkMembers h origin place rest, hasContentMembers, hs]
      rfl
    | false =>
      rw [walkMembers_cons hs, isEmpty_walkMembers h origin place rest, hasContentMembers, hs,
        ← isSome_translateAt h (origin.key k) (place.key (t.nameOf k)) x,
        translateAt_of_rules h, content_walk]
      cases (t.walk (origin.key k) (place.key (t.nameOf k)) x).value with
      | none => rfl
      | some v =>
        have hinsert : (Json.insert (t.nameOf k) v done.value).isEmpty = false := by
          cases done.value with
          | nil => rfl
          | cons e rest => rw [Json.insert]; split <;> rfl
        simp [hinsert]

end

/-- Only rules find anything wrong. -/
theorem report_eq_nil (h : t.rules = []) (origin place : Trail) (x : Json) :
    (t.translateAt origin place x).report = [] := by
  have hrules : t.RulesReport fun _ => False := fun origin rule hrule => by
    rw [rule?, h] at hrule
    cases hrule
  exact List.eq_nil_iff_forall_not_mem.mpr (report_translateAt hrules origin place x)

/-- What stands for a part has content exactly if it is kept. -/
theorem isEmpty_made (h : t.rules = []) (origin place : Trail) (x : Json) :
    (made x (t.translateAt origin place x)).isEmpty = !t.hasContent origin x := by
  rw [translateAt_of_rules h]
  cases x with
  | arr items =>
    rw [made_arr, hasContent, Bool.not_not]
    exact isEmpty_walkItems t origin place 0 items
  | obj members =>
    rw [made_obj, hasContent, Json.isEmpty]
    exact isEmpty_walkMembers h origin place members ⟨[], {}, []⟩
  | null => rfl
  | bool | num => rw [made_leaf t origin place (.inl rfl)]; rfl
  | str s => rw [made_leaf t origin place (.inl rfl)]; exact (Bool.not_not _).symm

/-- A scalar stays as it is, and nothing else becomes one. -/
theorem made_of_isScalar (h : t.rules = []) (origin place : Trail) {x : Json}
    (hs : x.isScalar = true ∨ (made x (t.translateAt origin place x)).isScalar = true) :
    made x (t.translateAt origin place x) = x := by
  rw [translateAt_of_rules h] at hs ⊢
  cases x with
  | arr items =>
    rw [made_arr] at hs
    rcases hs with hs | hs <;> cases hs
  | obj members =>
    rw [made_obj] at hs
    rcases hs with hs | hs <;> cases hs
  | null => exact made_leaf t origin place (.inr rfl)
  | _ => exact made_leaf t origin place (.inl rfl)

/-- A member is made of the one member that has its name. -/
theorem lookup_made (h : t.rules = []) (origin place : Trail) {members : List (String × Json)}
    {k : String} {y : Json} (hnames : (members.map fun e => t.nameOf e.1).Nodup)
    (hy : (k, y) ∈ members) (hs : t.isSkipped (origin.key k) = false) :
    Json.lookup (t.nameOf k) (t.walkMembers origin place members ⟨[], {}, []⟩).value =
      (t.translateAt (origin.key k) (place.key (t.nameOf k)) y).value := by
  have hkeys := nodup_keys hnames
  rw [@lookup_walkMembers t origin place members ⟨[], {}, []⟩ k y hkeys
    ((Json.lookup_eq_some_iff hkeys).mpr hy) hs (fun l hl hname => ?_) rfl,
    translateAt_of_rules h, content_walk]
  obtain ⟨e, he, rfl⟩ := List.mem_map.mp hl
  rw [List.inj_on_of_nodup_map hnames he hy hname]

/-- **What is kept one step below a part stands one step below what is made of it**, at its new
name. -/
theorem child?_made (h : t.rules = []) (origin place : Trail) {x y : Json} {s : Segment}
    (hx : t.isApart x = true) (hy : x.child? s = some y) (hs : t.leadsOn origin s = true)
    (hc : t.hasContent (origin ++ [s]) y = true) :
    (made x (t.translateAt origin place x)).child? (t.renameStep s) =
      some (made y (t.translateAt (origin ++ [s]) (place ++ [t.renameStep s]) y)) := by
  rw [translateAt_of_rules h origin place]
  cases s with
  | index i =>
    cases x with
    | arr items =>
      have hitem := @getElem?_walkItems t origin place items 0 i
      rw [Nat.zero_add] at hitem
      rw [made_arr]
      exact hitem.trans (congrArg _ hy)
    | _ => cases hy
  | key k =>
    cases x with
    | obj members =>
      rw [isApart, isApartMembers_iff] at hx
      obtain ⟨v, hv⟩ := Option.isSome_iff_exists.mp ((isSome_translateAt h (origin.key k)
        (place.key (t.nameOf k)) y).trans hc)
      have hmember := lookup_made h origin place hx.1 (Json.mem_of_lookup hy)
        ((Bool.not_eq_true' _).mp hs)
      rw [made_obj]
      refine (hmember.trans hv).trans ?_
      exact congrArg some (congrArg (Option.getD · _) hv).symm
    | _ => cases hy

/-- **What stands one step below what is made of a part is made of what stands one step below the
part**, and not of a member that is left out. -/
theorem exists_child_of_made (h : t.rules = []) {origin place : Trail} {x v : Json} {s' : Segment}
    (hx : x.isDistinct = true)
    (hv : (made x (t.translateAt origin place x)).child? s' = some v) :
    ∃ s y, x.child? s = some y ∧ t.leadsOn origin s = true ∧ t.renameStep s = s' ∧
      v = made y (t.translateAt (origin ++ [s]) (place ++ [s']) y) := by
  rw [translateAt_of_rules h origin place] at hv
  cases x with
  | arr items =>
    rw [made_arr] at hv
    cases s' with
    | key => cases hv
    | index i =>
      have hitem := @getElem?_walkItems t origin place items 0 i
      rw [Nat.zero_add] at hitem
      obtain ⟨y, hy, hmade⟩ := Option.map_eq_some_iff.mp (hitem.symm.trans hv)
      exact ⟨.index i, y, hy, rfl, rfl, hmade.symm⟩
  | obj members =>
    rw [made_obj] at hv
    cases s' with
    | index => cases hv
    | key n =>
      have hkeys := (Json.isDistinct_obj.mp hx).1
      rcases mem_walkMembers (Json.mem_of_lookup hv) with hdone | ⟨e, he, hs, rfl, hvalue, -⟩
      · cases hdone
      · refine ⟨.key e.1, e.2, (Json.lookup_eq_some_iff hkeys).mpr he,
          (Bool.not_eq_true' _).mpr hs, rfl, ?_⟩
        exact (congrArg (Option.getD · _) hvalue).symm
  | null => cases s' <;> cases hv
  | _ =>
    rw [made_leaf t origin place (.inl rfl)] at hv
    cases s' <;> cases hv

/-- **What is kept stands at its new names.** -/
theorem at?_made_of_keeps (h : t.rules = []) {origin place : Trail} {x : Json} {u : Trail}
    (hx : t.isApart x = true) (hu : t.Keeps origin x u) :
    ∃ z, x.at? u = some z ∧ t.hasContent (origin ++ u) z = true ∧
      (made x (t.translateAt origin place x)).at? (t.rename u) =
        some (made z (t.translateAt (origin ++ u) (place ++ t.rename u) z)) := by
  induction u generalizing x origin place with
  | nil =>
    rw [rename_nil, List.append_nil, List.append_nil]
    exact ⟨x, rfl, keeps_nil.mp hu, rfl⟩
  | cons s u ih =>
    obtain ⟨y, hy, hs, hkeeps⟩ := keeps_cons.mp hu
    obtain ⟨z, hz, hc, hmade⟩ := @ih (origin ++ [s]) (place ++ [t.renameStep s]) y
      (isApart_of_child hx hy) hkeeps
    rw [rename_cons, List.append_cons origin, List.append_cons place]
    exact ⟨z, (Json.at?_cons_of_child hy u).trans hz, hc,
      (Json.at?_cons_of_child (child?_made h origin place hx hy hs hkeeps.hasContent) _).trans
        hmade⟩

/-- **What stands anywhere is made of a part to which no member leads that is left out.** -/
theorem exists_at?_of_made (h : t.rules = []) {origin place : Trail} {x v : Json} {q : Trail}
    (hx : x.isDistinct = true) (hv : (made x (t.translateAt origin place x)).at? q = some v) :
    ∃ u z, x.at? u = some z ∧ t.isKept origin u = true ∧ t.rename u = q ∧
      v = made z (t.translateAt (origin ++ u) (place ++ q) z) := by
  induction q generalizing x origin place with
  | nil =>
    cases hv
    exact ⟨[], x, rfl, rfl, rfl, by rw [List.append_nil, List.append_nil]⟩
  | cons s' q ih =>
    obtain ⟨w, hw, hv⟩ := Option.bind_eq_some_iff.mp hv
    obtain ⟨s, y, hy, hs, rfl, rfl⟩ := exists_child_of_made h hx hw
    obtain ⟨u, z, hz, hkept, rfl, rfl⟩ := ih (Json.isDistinct_of_child hx hy) hv
    refine ⟨s :: u, z, (Json.at?_cons_of_child hy u).trans hz, ?_, rfl, ?_⟩
    · rw [isKept, hs, hkept]
      rfl
    · rw [List.append_cons origin s u, List.append_cons place (t.renameStep s) (t.rename u)]

/-- **What stands anywhere with content is made of a part that is kept.** -/
theorem keeps_of_at?_made (h : t.rules = []) {origin place : Trail} {x v : Json} {q : Trail}
    (hx : x.isDistinct = true) (hv : (made x (t.translateAt origin place x)).at? q = some v)
    (hne : v.isEmpty = false) : ∃ u, t.Keeps origin x u ∧ t.rename u = q := by
  obtain ⟨u, z, hz, hkept, hq, rfl⟩ := exists_at?_of_made h hx hv
  rw [isEmpty_made h, Bool.not_eq_false'] at hne
  exact ⟨u, ⟨hkept, z, hz, hne⟩, hq⟩

end Made

/-! ## Which origins are recorded -/

/-- A provenance of what is made of a source records the trails of some nodes of a part, each for
the trail of its new names, and nothing else. -/
structure Records (t : Translator) (origin place : Trail) (nodes : Trail → Prop)
    (p : Provenance) : Prop where
  aligned : p.Aligned
  sorted : p.origins.Sorted
  find?_iff : ∀ q o, p.find? q = some o ↔
    ∃ u, nodes u ∧ q = place ++ t.rename u ∧ o = origin ++ u

section Records

variable {t : Translator} {origin place : Trail} {nodes nodes' : Trail → Prop}
  {p p' : Provenance}

theorem records_nothing : Records t origin place (fun _ => False) {} where
  aligned := ⟨rfl, rfl⟩
  sorted := List.Pairwise.nil
  find?_iff _ _ := ⟨nofun, fun ⟨_, h, _⟩ => h.elim⟩

theorem Records.congr (h : Records t origin place nodes p) (hnodes : ∀ u, nodes u ↔ nodes' u) :
    Records t origin place nodes' p := by
  rwa [← show nodes = nodes' from funext fun u => propext (hnodes u)]

/-- The nodes below a step are nodes of the whole. -/
theorem Records.below {s : Segment}
    (h : Records t (origin ++ [s]) (place ++ [t.renameStep s]) nodes p) :
    Records t origin place (fun u => ∃ v, u = s :: v ∧ nodes v) p where
  aligned := h.aligned
  sorted := h.sorted
  find?_iff q o := by
    rw [h.find?_iff]
    constructor
    · rintro ⟨v, hv, rfl, rfl⟩
      exact ⟨s :: v, ⟨v, rfl, hv⟩, by rw [rename_cons, ← List.append_cons],
        by rw [← List.append_cons]⟩
    · rintro ⟨-, ⟨v, rfl, hv⟩, rfl, rfl⟩
      exact ⟨v, hv, by rw [rename_cons, ← List.append_cons], by rw [← List.append_cons]⟩

/-- Nodes with different new names are recorded side by side. -/
theorem Records.merge (h : Records t origin place nodes p) (h' : Records t origin place nodes' p')
    (hne : ∀ u u', nodes u → nodes' u' → t.rename u ≠ t.rename u') :
    Records t origin place (fun u => nodes u ∨ nodes' u) (p.merge p') where
  aligned := ⟨h.aligned.source, h.aligned.target⟩
  sorted := Origins.sorted_insertAll _ h.sorted
  find?_iff q o := by
    rw [Provenance.find?_merge p h'.sorted, Option.or_eq_some_iff, h'.find?_iff, h.find?_iff]
    constructor
    · rintro (⟨u, hu, hq, ho⟩ | ⟨-, u, hu, hq, ho⟩)
      · exact ⟨u, .inr hu, hq, ho⟩
      · exact ⟨u, .inl hu, hq, ho⟩
    · rintro ⟨u, hu | hu, rfl, ho⟩
      · refine .inr ⟨Option.eq_none_iff_forall_ne_some.mpr fun o' ho' => ?_, u, hu, rfl, ho⟩
        obtain ⟨u', hu', hq, -⟩ := (h'.find?_iff _ _).mp ho'
        exact hne u u' hu hu' (List.append_cancel_left hq)
      · exact .inl ⟨u, hu, rfl, ho⟩

/-- The part itself is recorded beside what is below it. -/
theorem Records.add (h : Records t origin place nodes p) :
    Records t origin place (fun u => u = [] ∨ nodes u) (p.add origin place) where
  aligned := ⟨h.aligned.source, h.aligned.target⟩
  sorted := Origins.sorted_insert _ _ h.sorted
  find?_iff q o := by
    by_cases hq : q = place
    · subst hq
      rw [Provenance.find?_add]
      constructor
      · rintro ⟨⟩
        exact ⟨[], .inl rfl, (List.append_nil _).symm, (List.append_nil _).symm⟩
      · rintro ⟨u, hu, hq, rfl⟩
        have hnil : u = [] := List.map_eq_nil_iff.mp (List.append_right_eq_self.mp hq.symm)
        rw [hnil, List.append_nil]
    · rw [Provenance.find?_add_of_ne hq, h.find?_iff]
      constructor
      · rintro ⟨u, hu, hq, ho⟩
        exact ⟨u, .inr hu, hq, ho⟩
      · rintro ⟨u, rfl | hu, hq', ho⟩
        · exact absurd (hq'.trans (List.append_nil _)) hq
        · exact ⟨u, hu, hq', ho⟩

/-- What is recorded of a part: the nodes that are kept, but not the root. -/
def Marks (t : Translator) (origin place : Trail) (x : Json) (p : Provenance) : Prop :=
  Records t origin place (fun u => (place ≠ [] ∨ u ≠ []) ∧ t.Keeps origin x u) p

/-- A part is recorded with what is below it if something is made of it. -/
theorem marks_written {x : Json} {r : Translated Json}
    (hempty : r.value.isEmpty = !t.hasContent origin x)
    (h : Records t origin place (fun u => u ≠ [] ∧ t.Keeps origin x u) r.provenance) :
    Marks t origin place x (written origin place r).provenance := by
  rw [written, hempty]
  cases hx : t.hasContent origin x with
  | false =>
    -- Nothing is kept of a part without content.
    have hnone : ∀ u, ¬t.Keeps origin x u := fun u hu =>
      Bool.false_ne_true (hx.symm.trans hu.hasContent)
    exact h.congr fun u => iff_of_false (fun hu => hnone u hu.2) fun hu => hnone u hu.2
  | true =>
    cases place with
    | nil => exact h.congr fun u => by simp
    | cons s place =>
      refine h.add.congr fun u => ?_
      constructor
      · rintro (rfl | hu)
        · exact ⟨.inl (List.cons_ne_nil _ _), keeps_nil.mpr hx⟩
        · exact ⟨.inl (List.cons_ne_nil _ _), hu.2⟩
      · rintro ⟨-, hu⟩
        by_cases hnil : u = []
        · exact .inl hnil
        · exact .inr ⟨hnil, hu⟩

/-- Nothing is recorded below what has nothing below it. -/
theorem marks_leaf {x : Json} (h : x.isScalar = true ∨ x = .null)
    (hcontent : x.isEmpty = !t.hasContent origin x) :
    Marks t origin place x (t.walk origin place x).provenance := by
  have hwalk : t.walk origin place x = written origin place ⟨x, {}, []⟩ := by
    cases x <;> first | rfl | (rcases h with h | h <;> cases h)
  rw [hwalk]
  refine marks_written hcontent (records_nothing.congr fun u => ⟨False.elim, fun ⟨hne, hu⟩ => ?_⟩)
  obtain ⟨s, v, rfl⟩ := List.exists_cons_of_ne_nil hne
  obtain ⟨y, hy, -⟩ := keeps_cons.mp hu
  rcases h with h | rfl
  · cases (Json.child?_of_isScalar h s).symm.trans hy
  · cases (Json.child?_null s).symm.trans hy

theorem Marks.below {s : Segment} {y : Json}
    (h : Marks t (origin ++ [s]) (place ++ [t.renameStep s]) y p) :
    Records t origin place (fun u => ∃ v, u = s :: v ∧ t.Keeps (origin ++ [s]) y v) p := by
  refine (Records.below h).congr fun u => ?_
  have hplace : place ++ [t.renameStep s] ≠ [] :=
    List.append_ne_nil_of_right_ne_nil _ (List.cons_ne_nil _ _)
  exact ⟨fun ⟨v, hu, _, hv⟩ => ⟨v, hu, hv⟩, fun ⟨v, hu, hv⟩ => ⟨v, hu, .inl hplace, hv⟩⟩

theorem records_walkItems {position : Nat} {items : List Json}
    (h : ∀ i y, items[i]? = some y → Marks t (origin.index (position + i))
      (place.index (position + i)) y (t.translateAt (origin.index (position + i))
        (place.index (position + i)) y).provenance) :
    Records t origin place (fun u => ∃ i y v, u = .index (position + i) :: v ∧
      items[i]? = some y ∧ t.Keeps (origin.index (position + i)) y v)
      (t.walkItems origin place position items).provenance := by
  induction items generalizing position with
  | nil =>
    rw [walkItems]
    exact records_nothing.congr fun u => ⟨False.elim, fun ⟨_, _, _, _, hy, _⟩ => nomatch hy⟩
  | cons x rest ih =>
    rw [walkItems]
    have hitem : Records t origin place
        (fun u => ∃ v, u = .index position :: v ∧ t.Keeps (origin.index position) x v)
        (t.translateAt (origin.index position) (place.index position) x).provenance :=
      (h 0 x rfl).below
    have hrest := @ih (position + 1) fun i y hy => by
      rw [Nat.add_right_comm]
      exact h (i + 1) y hy
    refine (hitem.merge hrest ?_).congr fun u => ?_
    · rintro - - ⟨v, rfl, -⟩ ⟨i, y, v', rfl, -, -⟩ heq
      have hstep := Segment.index.inj (List.cons.inj heq).1
      omega
    · constructor
      · rintro (⟨v, rfl, hv⟩ | ⟨i, y, v, rfl, hy, hv⟩)
        · exact ⟨0, x, v, rfl, rfl, hv⟩
        · rw [Nat.add_right_comm] at hv ⊢
          exact ⟨i + 1, y, v, rfl, hy, hv⟩
      · rintro ⟨i, y, v, rfl, hy, hv⟩
        cases i with
        | zero =>
          cases hy
          exact .inl ⟨v, rfl, hv⟩
        | succ i =>
          rw [← Nat.add_assoc, Nat.add_right_comm] at hv ⊢
          exact .inr ⟨i, y, v, rfl, hy, hv⟩

theorem records_walkMembers {members : List (String × Json)}
    {done : Translated (List (String × Json))}
    (hdone : Records t origin place nodes done.provenance)
    (hnew : ∀ u, nodes u → ∀ e ∈ members, ∀ v, t.rename u ≠ .key (t.nameOf e.1) :: v)
    (hnames : (members.map fun e => t.nameOf e.1).Nodup)
    (h : ∀ e ∈ members, Marks t (origin.key e.1) (place.key (t.nameOf e.1)) e.2
      (t.translateAt (origin.key e.1) (place.key (t.nameOf e.1)) e.2).provenance) :
    Records t origin place (fun u => nodes u ∨ ∃ e ∈ members, ∃ v, u = .key e.1 :: v ∧
      t.isSkipped (origin.key e.1) = false ∧ t.Keeps (origin.key e.1) e.2 v)
      (t.walkMembers origin place members done).provenance := by
  induction members generalizing nodes done with
  | nil =>
    rw [walkMembers]
    exact hdone.congr fun u => ⟨.inl, fun hu => hu.resolve_right fun ⟨_, he, _⟩ => nomatch he⟩
  | cons e rest ih =>
    obtain ⟨k, x⟩ := e
    rw [List.map_cons, List.nodup_cons] at hnames
    obtain ⟨hk, hrest⟩ := List.forall_mem_cons.mp h
    have hlater : ∀ u, nodes u → ∀ e ∈ rest, ∀ v, t.rename u ≠ .key (t.nameOf e.1) :: v :=
      fun u hu e he => hnew u hu e (List.mem_cons_of_mem _ he)
    cases hs : t.isSkipped (origin.key k) with
    | true =>
      rw [walkMembers, if_pos hs]
      refine (ih hdone hlater hnames.2 hrest).congr fun u => or_congr_right ?_
      constructor
      · rintro ⟨e, he, hu⟩
        exact ⟨e, List.mem_cons_of_mem _ he, hu⟩
      · rintro ⟨e, he, v, hu, hse, hv⟩
        rcases List.mem_cons.mp he with rfl | he
        · cases hs.symm.trans hse
        · exact ⟨e, he, v, hu, hse, hv⟩
    | false =>
      rw [walkMembers_cons hs]
      have hmember : Records t origin place
          (fun u => ∃ v, u = .key k :: v ∧ t.Keeps (origin.key k) x v)
          (t.translateAt (origin.key k) (place.key (t.nameOf k)) x).provenance := hk.below
      have hboth := hdone.merge hmember fun u _ hu ⟨v, hv, _⟩ heq => by
        subst hv
        exact hnew u hu (k, x) List.mem_cons_self _ heq
      refine (@ih _ ⟨_, _, _⟩ hboth ?_ hnames.2 hrest).congr fun u => ?_
      · rintro u (hu | ⟨v, rfl, -⟩) e he v' heq
        · exact hlater u hu e he v' heq
        · have hname := Segment.key.inj (List.cons.inj heq).1
          exact hnames.1 (List.mem_map.mpr ⟨e, he, hname.symm⟩)
      · constructor
        · rintro ((hu | ⟨v, rfl, hv⟩) | ⟨e, he, hu⟩)
          · exact .inl hu
          · exact .inr ⟨(k, x), List.mem_cons_self, v, rfl, hs, hv⟩
          · exact .inr ⟨e, List.mem_cons_of_mem _ he, hu⟩
        · rintro (hu | ⟨e, he, v, hu, hse, hv⟩)
          · exact .inl (.inl hu)
          · rcases List.mem_cons.mp he with rfl | he
            · exact .inl (.inr ⟨v, hu, hv⟩)
            · exact .inr ⟨e, he, v, hu, hse, hv⟩

/-- **What is recorded of a part is the nodes that are kept.** -/
theorem marks_translateAt (h : t.rules = []) (x : Json) : ∀ origin place, t.isApart x = true →
    Marks t origin place x (t.translateAt origin place x).provenance := by
  induction x using Json.child_induction with
  | step x ih =>
    intro origin place hx
    have hempty := isEmpty_made h origin place x
    rw [translateAt_of_rules h] at hempty ⊢
    cases x with
    | arr items =>
      rw [made_arr] at hempty
      have hitems := @records_walkItems t origin place 0 items fun i y hy =>
        ih (.index i) y hy _ _ (@isApart_of_child t (.index i) (.arr items) y hx hy)
      refine marks_written hempty (hitems.congr fun u => ?_)
      constructor
      · rintro ⟨i, y, v, rfl, hy, hv⟩
        rw [Nat.zero_add] at hv ⊢
        exact ⟨List.cons_ne_nil _ _, keeps_cons.mpr ⟨y, hy, rfl, hv⟩⟩
      · rintro ⟨hne, hu⟩
        obtain ⟨s, v, rfl⟩ := List.exists_cons_of_ne_nil hne
        obtain ⟨y, hy, -, hv⟩ := keeps_cons.mp hu
        cases s with
        | key => cases hy
        | index i => exact ⟨i, y, v, by rw [Nat.zero_add], hy, by rwa [Nat.zero_add]⟩
    | obj members =>
      rw [made_obj] at hempty
      have hapart := hx
      rw [isApart, isApartMembers_iff] at hapart
      have hkeys := nodup_keys hapart.1
      have hmembers := @records_walkMembers t origin place _ members ⟨[], {}, []⟩
        records_nothing (fun _ hu => hu.elim) hapart.1 fun e he =>
          ih (.key e.1) e.2 ((Json.lookup_eq_some_iff hkeys).mpr he) _ _ (hapart.2 e he)
      refine marks_written hempty (hmembers.congr fun u => ?_)
      rw [false_or]
      constructor
      · rintro ⟨e, he, v, rfl, hs, hv⟩
        exact ⟨List.cons_ne_nil _ _, keeps_cons.mpr
          ⟨e.2, (Json.lookup_eq_some_iff hkeys).mpr he, (Bool.not_eq_true' _).mpr hs, hv⟩⟩
      · rintro ⟨hne, hu⟩
        obtain ⟨s, v, rfl⟩ := List.exists_cons_of_ne_nil hne
        obtain ⟨y, hy, hs, hv⟩ := keeps_cons.mp hu
        cases s with
        | index => cases hy
        | key k =>
          exact ⟨(k, y), Json.mem_of_lookup hy, v, rfl, (Bool.not_eq_true' _).mp hs, hv⟩
    | null => exact marks_leaf (.inr rfl) (Bool.not_not _).symm
    | _ => exact marks_leaf (.inl rfl) (Bool.not_not _).symm

end Records

/-! ## Documents -/

section Documents

variable {t : Translator} {x : Json}

/-- A node with content of what stands for a document is one of what is made of it. -/
theorem at?_value (h : t.rules = []) {q : Trail} {y : Json}
    (hy : (made x (t.translate x)).at? q = some y) (hne : y.isEmpty = false) :
    (t.translate x).value.bind (·.at? q) = some y := by
  cases hv : (t.translate x).value with
  | some v => rwa [made, hv] at hy
  | none =>
    have hempty : (made x (t.translate x)).isEmpty = true := by
      rw [translate, isEmpty_made h, ← isSome_translateAt h [] [], ← translate, hv]
      rfl
    rw [Json.isEmpty_of_at hempty hy] at hne
    cases hne

theorem at?_made_of_value {q : Trail} {y : Json}
    (hy : (t.translate x).value.bind (·.at? q) = some y) :
    (made x (t.translate x)).at? q = some y := by
  obtain ⟨v, hv, hy⟩ := Option.bind_eq_some_iff.mp hy
  rwa [made, hv]

/-- A node that is kept stands at its new names, with content, and as it was if it is a scalar. -/
theorem Keeps.at?_value (h : t.rules = []) (hx : t.isApart x = true) {o : Trail}
    (ho : t.Keeps [] x o) : ∃ z y, x.at? o = some z ∧
      (t.translate x).value.bind (·.at? (t.rename o)) = some y ∧ y.isEmpty = false ∧
        (z.isScalar = true ∨ y.isScalar = true → y = z) := by
  obtain ⟨z, hz, hcontent, hy⟩ := at?_made_of_keeps h hx ho
  have hne : (made z (t.translateAt ([] ++ o) ([] ++ t.rename o) z)).isEmpty = false := by
    rw [isEmpty_made h, hcontent]
    rfl
  exact ⟨z, _, hz, Translator.at?_value h hy hne, hne, made_of_isScalar h _ _⟩

/-- The origin of a place is the node that is kept and has its new names, unless it is the root. -/
theorem find?_translate (h : t.rules = []) (hx : t.isApart x = true) {q o : Trail} :
    (t.translate x).provenance.find? q = some o ↔
      o ≠ [] ∧ t.Keeps [] x o ∧ t.rename o = q := by
  rw [translate, (marks_translateAt h x [] [] hx).find?_iff]
  constructor
  · rintro ⟨u, ⟨hne, hu⟩, rfl, rfl⟩
    exact ⟨hne.resolve_left (not_not_intro rfl), hu, rfl⟩
  · rintro ⟨hne, ho, rfl⟩
    exact ⟨o, ⟨.inr hne, ho⟩, rfl, rfl⟩

/-- **Without rules, the origins lead back and forth between a document and what is made of it.**
Let the keys of every object have different new names. Then nothing is found wrong; the places with
an origin are those of the nodes with content other than the root; the origin of a place is the one
node of the document that has its new names; a scalar has the value of its origin; and each scalar
with content of the document, other than the root, is the origin of one scalar unless a member on
the way to it, or it itself, is left out. -/
theorem translate_back_and_forth (h : t.rules = []) (hx : t.isApart x = true) :
    (t.translate x).report = [] ∧ (t.translate x).provenance.Aligned ∧
      (∀ q, ((t.translate x).provenance.find? q).isSome = true ↔ q ≠ [] ∧
        ∃ y, (t.translate x).value.bind (·.at? q) = some y ∧ y.isEmpty = false) ∧
      (∀ q o, (t.translate x).provenance.find? q = some o → t.rename o = q ∧
        (x.at? o).isSome = true ∧ ∀ o', (x.at? o').isSome = true → t.rename o' = q → o' = o) ∧
      (∀ q o y, (t.translate x).provenance.find? q = some o →
        (t.translate x).value.bind (·.at? q) = some y → y.isScalar = true → x.at? o = some y) ∧
      ∀ u z, u ≠ [] → x.at? u = some z → z.isScalar = true → z.isEmpty = false →
        t.isKept [] u = true → ∃! q, (t.translate x).provenance.find? q = some u ∧
          ∃ y, (t.translate x).value.bind (·.at? q) = some y ∧ y.isScalar = true := by
  refine ⟨report_eq_nil h [] [] x, (marks_translateAt h x [] [] hx).aligned,
    fun q => ⟨fun hq => ?_, fun ⟨hne, y, hy, hc⟩ => ?_⟩, fun q o ho => ?_,
    fun q o y ho hy hs => ?_, fun u z hne hz hs hc hu => ?_⟩
  · obtain ⟨o, ho⟩ := Option.isSome_iff_exists.mp hq
    obtain ⟨hne, hkeeps, rfl⟩ := (find?_translate h hx).mp ho
    obtain ⟨-, y, -, hy, hc, -⟩ := hkeeps.at?_value h hx
    exact ⟨fun hnil => hne (List.map_eq_nil_iff.mp hnil), y, hy, hc⟩
  · obtain ⟨u, hu, rfl⟩ := keeps_of_at?_made h (isDistinct_of_isApart hx) (at?_made_of_value hy) hc
    have hsome : (t.translate x).provenance.find? (t.rename u) = some u :=
      (find?_translate h hx).mpr ⟨fun hnil => hne (by rw [hnil]; rfl), hu, rfl⟩
    rw [hsome]
    rfl
  · obtain ⟨-, hkeeps, rfl⟩ := (find?_translate h hx).mp ho
    exact ⟨rfl, hkeeps.isSome, fun o' ho' heq => rename_inj hx ho' hkeeps.isSome heq⟩
  · obtain ⟨-, hkeeps, rfl⟩ := (find?_translate h hx).mp ho
    obtain ⟨z, y', hz, hy', -, hsame⟩ := hkeeps.at?_value h hx
    cases hy'.symm.trans hy
    rw [hz, hsame (.inr hs)]
  · have hkeeps : t.Keeps [] x u := ⟨hu, z, hz, by rw [hasContent_of_isScalar hs, hc]; rfl⟩
    obtain ⟨z', y, hz', hy, -, hsame⟩ := hkeeps.at?_value h hx
    cases hz'.symm.trans hz
    refine ⟨t.rename u, ⟨(find?_translate h hx).mpr ⟨hne, hkeeps, rfl⟩, y, hy, ?_⟩,
      fun q ⟨hq, _⟩ => ((find?_translate h hx).mp hq).2.2.symm⟩
    rw [hsame (.inl hs), hs]

/-- Renames one key by hand, and leaves out another. -/
def sizing : Translator where
  skips := [.ofText "variant", .ofText "disks.*.note"]
  names := [("size_mib", "sizeMiB")]

/-- A document with a disk of size zero, and with parts without content. -/
def sized : Json := .obj
  [("variant", .str "fcos"),
    ("disks", .arr [.obj [("note", .str "old")],
      .obj [("disk_label", .str "root"), ("size_mib", .num (.int 0)), ("number", .null)]]),
    ("users", .arr [])]

theorem sized_back_and_forth :
    (sizing.translate sized).report = [] ∧
      ((sizing.translate sized).provenance.find?
        [.key "disks", .index 1, .key "diskLabel"]).isSome = true ∧
      sized.at? [.key "disks", .index 1, .key "disk_label"] = some (.str "root") ∧
      ∃! q, (sizing.translate sized).provenance.find? q =
          some [.key "disks", .index 1, .key "size_mib"] ∧
        ∃ y, (sizing.translate sized).value.bind (·.at? q) = some y ∧ y.isScalar = true := by
  have hlabel : (sizing.translate sized).value.bind
      (·.at? [.key "disks", .index 1, .key "diskLabel"]) = some (.str "root") := by decide
  obtain ⟨hreport, -, hplaces, -, hscalars, hleaves⟩ :=
    @translate_back_and_forth sizing sized rfl (by decide)
  refine ⟨hreport, (hplaces _).mpr ⟨nofun, _, hlabel, rfl⟩,
    hscalars [.key "disks", .index 1, .key "diskLabel"] _ _ (by decide) hlabel rfl,
    hleaves _ (.int 0) nofun (by decide) rfl rfl (by decide)⟩

end Documents

end Provision.Translator
