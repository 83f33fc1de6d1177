import Provision.Proofs.Json.Shape
import Provision.Proofs.Translator.Origins
import Provision.Proofs.Translator.Rules
import Provision.Proofs.Translator.Walk

/-!
# What becomes of a node

What is made of a node is found in what is made of the document, under the new names of the steps to
it, and so is where it comes from. On the way to the node no member is left out and no rule is met.
When the node is replaced by another one, what is made of the document changes only there, and not at
all if the same is made of both nodes.

* `Translator.Differ`: two documents that differ at most in the node at a trail.
* `lookup_beside`: the members beside it are made of the same.
* `agree_walk`: the scalars that are made are the same, but for those at the place of the node.
* `value_walk`: the same is made of both documents if it is made of the nodes.
* `Translator.value_reached`: what is made of the node is in what is made of the document.
* `find?_reached`: its parts are traced to where they are traced without the document.
-/

set_option autoImplicit false

namespace Provision.Translator

/-- Two documents are the same but for the nodes that a trail leads to, which are given. -/
inductive Differ (y y' : Json) : Trail → Json → Json → Prop where
  | here : Differ y y' [] y y'
  | item {i : Nat} {u : Trail} {x x' : Json} {before after : List Json} (hi : before.length = i)
      (h : Differ y y' u x x') :
      Differ y y' (.index i :: u) (.arr (before ++ x :: after)) (.arr (before ++ x' :: after))
  | member {k : String} {u : Trail} {x x' : Json} (before after : List (String × Json))
      (h : Differ y y' u x x') :
      Differ y y' (.key k :: u) (.obj (before ++ (k, x) :: after))
        (.obj (before ++ (k, x') :: after))

variable {t : Translator} {origin place : Trail} {y y' x x' : Json}

/-! ## Members -/

section Members

variable {members before after : List (String × Json)} {k n : String}

/-- Puts what is made of a member to the members that are done, unless it is left out. -/
def putMember (t : Translator) (origin place : Trail) (done : List (String × Json))
    (e : String × Json) : List (String × Json) :=
  if t.isSkipped (origin.key e.1) then done
  else ((content (t.translateAt (origin.key e.1) (place.key (t.nameOf e.1)) e.2)).map
    fun v => Json.insert (t.nameOf e.1) v done).getD done

/-- The members that are made do not depend on their origins, nor on what was found. -/
theorem value_walkMembers (done : Translated (List (String × Json))) :
    (t.walkMembers origin place members done).value =
      members.foldl (t.putMember origin place) done.value := by
  induction members generalizing done with
  | nil => rw [walkMembers, List.foldl_nil]
  | cons e rest ih =>
    obtain ⟨l, z⟩ := e
    rw [List.foldl_cons, putMember]
    cases hs : t.isSkipped (origin.key l) with
    | true =>
      rw [walkMembers, if_pos hs, ih]
      rfl
    | false =>
      rw [walkMembers_cons hs, ih]
      rfl

theorem lookup_putMember_of_ne (done : List (String × Json)) {e : String × Json}
    (h : n ≠ t.nameOf e.1) :
    Json.lookup n (t.putMember origin place done e) = Json.lookup n done := by
  rw [putMember]
  split
  · rfl
  · cases content (t.translateAt (origin.key e.1) (place.key (t.nameOf e.1)) e.2) with
    | none => rfl
    | some v => exact Json.lookup_insert_of_ne h _ _

/-- What stands at a name after some members depends only on what stood there before. -/
theorem lookup_foldl_putMember {done done' : List (String × Json)}
    (h : Json.lookup n done = Json.lookup n done') :
    Json.lookup n (members.foldl (t.putMember origin place) done) =
      Json.lookup n (members.foldl (t.putMember origin place) done') := by
  induction members generalizing done done' with
  | nil => exact h
  | cons e rest ih =>
    refine ih ?_
    by_cases hn : n = t.nameOf e.1
    · rw [putMember, putMember]
      split
      · exact h
      · cases content (t.translateAt (origin.key e.1) (place.key (t.nameOf e.1)) e.2) with
        | none => exact h
        | some v =>
          rw [hn]
          exact (Json.lookup_insert _ _ _).trans (Json.lookup_insert _ _ _).symm
    · rw [lookup_putMember_of_ne _ hn, lookup_putMember_of_ne _ hn, h]

/-- A member of what is made of an object. -/
theorem get?_walk_obj (n : String) :
    (t.walk origin place (.obj members)).value.bind (·.get? n) =
      Json.lookup n (members.foldl (t.putMember origin place) []) := by
  rw [walk, written]
  have hvalue := @value_walkMembers t origin place members ⟨[], {}, []⟩
  split
  · next hempty =>
    have hnil : (t.walkMembers origin place members ⟨[], {}, []⟩).value = [] :=
      List.isEmpty_iff.mp hempty
    rw [← hvalue, hnil]
    rfl
  · rw [← hvalue]
    rfl

/-- **Members of other names are made of the same** when a member is replaced. -/
theorem lookup_beside (h : n ≠ t.nameOf k) :
    (t.walk origin place (.obj (before ++ (k, x) :: after))).value.bind (·.get? n) =
      (t.walk origin place (.obj (before ++ (k, x') :: after))).value.bind (·.get? n) := by
  rw [get?_walk_obj, get?_walk_obj, List.foldl_append, List.foldl_append, List.foldl_cons,
    List.foldl_cons]
  refine lookup_foldl_putMember ?_
  rw [lookup_putMember_of_ne _ h, lookup_putMember_of_ne _ h]

/-- The same members are made if the member that is replaced is left out, or the same is made of
it. -/
theorem value_walk_member (h : t.isSkipped (origin.key k) = false →
      content (t.translateAt (origin.key k) (place.key (t.nameOf k)) x) =
        content (t.translateAt (origin.key k) (place.key (t.nameOf k)) x')) :
    (t.walk origin place (.obj (before ++ (k, x) :: after))).value =
      (t.walk origin place (.obj (before ++ (k, x') :: after))).value := by
  have hput : ∀ done, t.putMember origin place done (k, x) =
      t.putMember origin place done (k, x') := fun done => by
    rw [putMember, putMember]
    split
    · rfl
    · next hs => rw [h (Bool.eq_false_iff.mpr hs)]
  have hmembers : (t.walkMembers origin place (before ++ (k, x) :: after) ⟨[], {}, []⟩).value =
      (t.walkMembers origin place (before ++ (k, x') :: after) ⟨[], {}, []⟩).value := by
    rw [value_walkMembers, value_walkMembers, List.foldl_append, List.foldl_append,
      List.foldl_cons, List.foldl_cons, hput]
  rw [walk, walk, written, written, Translated.value_map, Translated.value_map, hmembers]
  split <;> rfl

/-- A member that is left out does not matter at all. -/
theorem walk_skipped (h : t.isSkipped (origin.key k) = true) (x x' : Json) :
    t.walk origin place (.obj (before ++ (k, x) :: after)) =
      t.walk origin place (.obj (before ++ (k, x') :: after)) := by
  have hmembers : ∀ done, t.walkMembers origin place (before ++ (k, x) :: after) done =
      t.walkMembers origin place (before ++ (k, x') :: after) done := by
    induction before with
    | nil =>
      intro done
      rw [List.nil_append, List.nil_append, walkMembers, walkMembers, if_pos h, if_pos h]
    | cons e rest ih =>
      intro done
      rw [List.cons_append, List.cons_append, walkMembers, walkMembers]
      simp only [ih]
  rw [walk, walk, hmembers]

end Members

/-! ## Items -/

section Items

variable {items before after : List Json}

/-- The items beside one that is replaced are the same. -/
theorem getElem?_beside {i j : Nat} (hi : before.length = i)
    (h : j ≠ i) : (before ++ x :: after)[j]? = (before ++ x' :: after)[j]? := by
  rcases Nat.lt_or_ge j before.length with hlt | hge
  · rw [List.getElem?_append_left hlt, List.getElem?_append_left hlt]
  · rw [List.getElem?_append_right hge, List.getElem?_append_right hge]
    obtain ⟨d, hd⟩ := Nat.exists_eq_succ_of_ne_zero (n := j - before.length) (by omega)
    rw [hd, List.getElem?_cons_succ, List.getElem?_cons_succ]

/-- A node below an item of what is made of a list. -/
theorem at?_walk_index (j : Nat) (q : Trail) :
    (t.walk origin place (.arr items)).value.bind (·.at? (.index j :: q)) =
      items[j]?.bind fun x =>
        (made x (t.translateAt (origin.index j) (place.index j) x)).at? q := by
  have hitem := @getElem?_walk t origin place items j
  rw [walk, written] at hitem ⊢
  split at hitem
  · next hempty =>
    rw [if_pos hempty]
    cases hx : items[j]? with
    | none => rfl
    | some x =>
      rw [hx] at hitem
      cases hitem
  · next hempty =>
    rw [if_neg hempty]
    exact congrArg (fun v => Option.bind v (Json.at? q)) hitem |>.trans (by
      rw [Option.bind_map]
      rfl)

/-- The same list is made if the same stands for the item that is replaced. -/
theorem value_walk_item {i : Nat} (hi : before.length = i)
    (h : made x (t.translateAt (origin.index i) (place.index i) x) =
      made x' (t.translateAt (origin.index i) (place.index i) x')) :
    (t.walk origin place (.arr (before ++ x :: after))).value =
      (t.walk origin place (.arr (before ++ x' :: after))).value := by
  have hitems : (t.walkItems origin place 0 (before ++ x :: after)).value =
      (t.walkItems origin place 0 (before ++ x' :: after)).value := by
    refine List.ext_getElem? fun j => ?_
    rw [getElem?_walkItems, getElem?_walkItems, Nat.zero_add]
    by_cases hj : j = i
    · subst hj
      rw [← hi, List.getElem?_append_right (Nat.le_refl _),
        List.getElem?_append_right (Nat.le_refl _), Nat.sub_self, hi]
      exact congrArg some h
    · rw [getElem?_beside hi hj]
  rw [walk, walk, written, written, Translated.value_map, Translated.value_map, hitems]
  split <;> rfl

end Items

/-! ## Documents -/

/-- No rule is met on the way along a trail, where it ends apart. -/
def Free (t : Translator) : (origin u : Trail) → Prop
  | _, [] => True
  | origin, s :: u => (u ≠ [] → t.rule? (origin ++ [s]) = none) ∧ Free t (origin ++ [s]) u

/-- Two values have the same scalars, but for those at a place and below it. -/
def AgreeBeside (p : Trail) (v v' : Option Json) : Prop :=
  ∀ q z, z.isScalar = true → ¬p <+: q →
    (v.bind (·.at? q) = some z ↔ v'.bind (·.at? q) = some z)

section Documents

variable {u : Trail}

theorem Differ.isScalar (h : Differ y y' u x x') (hu : u ≠ []) :
    x.isScalar = false ∧ x'.isScalar = false := by
  cases h with
  | here => exact absurd rfl hu
  | item => exact ⟨rfl, rfl⟩
  | member => exact ⟨rfl, rfl⟩

theorem translateAt_of_free {s : Segment} (h : t.Free origin (s :: u)) (hu : u ≠ [])
    (place : Trail) (x : Json) :
    t.translateAt (origin ++ [s]) place x = t.walk (origin ++ [s]) place x := by
  rw [translateAt_eq, h.1 hu]
  rfl

/-- The members beside the one that the way leads through are made of the same. -/
theorem Differ.get?_walk {k n : String} (h : Differ y y' (.key k :: u) x x')
    (hn : n ≠ t.nameOf k) :
    (t.walk origin place x).value.bind (·.get? n) =
      (t.walk origin place x').value.bind (·.get? n) := by
  cases h with
  | member before after => exact lookup_beside hn

/-- Lists that are made item by item differ where an item is modified. -/
theorem differ_modify {α : Type} {f : α → Json} {g : α → α} {items : List α} {i : Nat} {a : α}
    (ha : items[i]? = some a) (h : Differ y y' u (f a) (f (g a))) :
    Differ y y' (.index i :: u) (.arr (items.map f)) (.arr ((items.modify i g).map f)) := by
  obtain ⟨hi, rfl⟩ := List.getElem?_eq_some_iff.mp ha
  have hsplit : items = items.take i ++ items[i] :: items.drop (i + 1) := by simp
  rw [List.modify_eq_take_cons_drop hi, List.map_append, List.map_cons]
  conv => enter [4]; rw [hsplit]
  rw [List.map_append, List.map_cons]
  exact .item (by simp; omega) h

/-- What stands for a container has the scalars that are made of it. -/
theorem at?_made_walk (hx : x.isScalar = false) {q : Trail} {z : Json} (hz : z.isScalar = true) :
    (made x (t.walk origin place x)).at? q = some z ↔
      (t.walk origin place x).value.bind (·.at? q) = some z := by
  rw [made]
  cases hv : (t.walk origin place x).value with
  | some v => rfl
  | none =>
    have hempty := isEmpty_vacant_of_walk hv
    refine iff_of_false (fun h => ?_) (by simp)
    rw [Option.getD_none] at h
    cases q with
    | nil =>
      cases h
      cases x <;> first | cases hx; done | cases hz
    | cons s q =>
      obtain ⟨c, hc, -⟩ := Option.bind_eq_some_iff.mp h
      rw [Json.not_isEmpty_of_child hc] at hempty
      cases hempty

/-- Lists have the same scalars if what stands for their items has. -/
theorem agree_walk_arr {p : Trail} {items items' : List Json}
    (h : ∀ j q z, z.isScalar = true → ¬p <+: .index j :: q →
      ((items[j]?.bind fun x =>
          (made x (t.translateAt (origin.index j) (place.index j) x)).at? q) = some z ↔
        (items'[j]?.bind fun x =>
          (made x (t.translateAt (origin.index j) (place.index j) x)).at? q) = some z)) :
    AgreeBeside p (t.walk origin place (.arr items)).value
      (t.walk origin place (.arr items')).value := by
  intro q z hz hq
  match q with
  | .index j :: q =>
    rw [at?_walk_index, at?_walk_index]
    exact h j q z hz hq
  | [] | .key _ :: _ =>
    refine iff_of_false (fun hv => ?_) fun hv => ?_
    all_goals
      obtain ⟨v, hv, hvz⟩ := Option.bind_eq_some_iff.mp hv
      rw [(written_eq_some hv).1] at hvz
      cases hvz
    all_goals cases hz

/-- Objects have the same scalars if their members have. -/
theorem agree_walk_obj {p : Trail} {members members' : List (String × Json)}
    (h : ∀ n q z, z.isScalar = true → ¬p <+: .key n :: q →
      (((t.walk origin place (.obj members)).value.bind (·.get? n)).bind (·.at? q) = some z ↔
        ((t.walk origin place (.obj members')).value.bind (·.get? n)).bind (·.at? q) = some z)) :
    AgreeBeside p (t.walk origin place (.obj members)).value
      (t.walk origin place (.obj members')).value := by
  intro q z hz hq
  match q with
  | .key n :: q =>
    have hn := h n q z hz hq
    rwa [Option.bind_assoc, Option.bind_assoc] at hn
  | [] | .index _ :: _ =>
    refine iff_of_false (fun hv => ?_) fun hv => ?_
    all_goals
      obtain ⟨v, hv, hvz⟩ := Option.bind_eq_some_iff.mp hv
      rw [(written_eq_some hv).1] at hvz
      cases hvz
    all_goals cases hz

/-- A member is made of the only member of its name. -/
theorem get?_walk_member {before after : List (String × Json)} {k : String}
    (hx : t.isApart (.obj (before ++ (k, x) :: after)) = true)
    (hs : t.isSkipped (origin.key k) = false) (x' : Json) :
    (t.walk origin place (.obj (before ++ (k, x') :: after))).value.bind
        (·.get? (t.nameOf k)) =
      content (t.translateAt (origin.key k) (place.key (t.nameOf k)) x') := by
  rw [isApart, isApartMembers_iff] at hx
  have hnames : ((before ++ (k, x') :: after).map fun e => t.nameOf e.1).Nodup := by
    simpa using hx.1
  have hmem : (k, x') ∈ before ++ (k, x') :: after :=
    List.mem_append_right _ List.mem_cons_self
  refine get?_walk (nodup_keys hnames)
    ((Json.lookup_eq_some_iff (nodup_keys hnames)).mpr hmem) hs fun l hl heq => ?_
  obtain ⟨e, he, rfl⟩ := List.mem_map.mp hl
  exact congrArg Prod.fst (List.inj_on_of_nodup_map hnames he hmem heq)

/-- **The scalars that are made are the same, but for those of the node that is replaced**, if no
rule is met on the way to it. -/
theorem agree_walk (h : Differ y y' u x x') (hu : u ≠ []) (hx : t.isApart x = true)
    (hfree : t.Free origin u) : AgreeBeside (t.rename u) (t.walk origin place x).value
      (t.walk origin place x').value := by
  induction h generalizing origin place with
  | here => exact absurd rfl hu
  | @item i u x x' before after hi h ih =>
    refine agree_walk_arr fun j q z hz hq => ?_
    by_cases hj : j = i
    · subst hj
      -- The item itself: nothing is promised of it, or the way goes on.
      cases u with
      | nil => exact absurd (List.cons_prefix_cons.mpr ⟨rfl, List.nil_prefix⟩) hq
      | cons s u =>
        have hat : ∀ w : Json, (before ++ w :: after)[j]? = some w := fun w => by
          rw [← hi, List.getElem?_append_right (Nat.le_refl _), Nat.sub_self]
          rfl
        have hapart : t.isApart x = true :=
          isApart_of_child (s := .index j) hx (hat x)
        obtain ⟨hscalar, hscalar'⟩ := h.isScalar (List.cons_ne_nil s u)
        rw [hat, hat, Option.bind_some, Option.bind_some, Trail.index,
          translateAt_of_free hfree (List.cons_ne_nil s u),
          translateAt_of_free hfree (List.cons_ne_nil s u), at?_made_walk hscalar hz,
          at?_made_walk hscalar' hz]
        exact ih (List.cons_ne_nil s u) hapart hfree.2 q z hz fun hp =>
          hq (List.cons_prefix_cons.mpr ⟨rfl, hp⟩)
    · rw [getElem?_beside hi hj]
  | @member k u x x' before after h ih =>
    refine agree_walk_obj fun n q z hz hq => ?_
    by_cases hn : n = t.nameOf k
    · subst hn
      cases hs : t.isSkipped (origin.key k) with
      | true => rw [walk_skipped hs x x']
      | false =>
        cases u with
        | nil => exact absurd (List.cons_prefix_cons.mpr ⟨rfl, List.nil_prefix⟩) hq
        | cons s u =>
          have hapart : t.isApart x = true := by
            rw [isApart, isApartMembers_iff] at hx
            exact hx.2 (k, x) (List.mem_append_right _ List.mem_cons_self)
          rw [get?_walk_member hx hs, get?_walk_member hx hs, Trail.key,
            translateAt_of_free hfree (List.cons_ne_nil s u),
            translateAt_of_free hfree (List.cons_ne_nil s u), content_walk, content_walk]
          exact ih (List.cons_ne_nil s u) hapart hfree.2 q z hz fun hp =>
            hq (List.cons_prefix_cons.mpr ⟨rfl, hp⟩)
    · rw [lookup_beside hn]

/-- What stands for a container that has the replaced node below it is the same if the same is made
of it. -/
theorem made_walk_congr (h : Differ y y' u x x') (hu : u ≠ [])
    (hv : (t.walk origin place x).value = (t.walk origin place x').value) :
    made x (t.walk origin place x) = made x' (t.walk origin place x') := by
  rw [made, made, ← hv]
  cases hm : (t.walk origin place x).value with
  | some v => rfl
  | none =>
    cases h with
    | here => exact absurd rfl hu
    | member => rfl
    | @item i u x x' before after =>
      have hempty := isEmpty_vacant_of_walk hm
      cases before <;> cases hempty

/-- **The same is made of both documents if it is made of the nodes**, and no rule is met on the way
to them. -/
theorem value_walk (h : Differ y y' u x x') (hu : u ≠ []) (hfree : t.Free origin u)
    (hsame : ∀ place, (t.translateAt (origin ++ u) place y).value =
      (t.translateAt (origin ++ u) place y').value)
    (hvacant : vacant y = vacant y') :
    (t.walk origin place x).value = (t.walk origin place x').value := by
  induction h generalizing origin place with
  | here => exact absurd rfl hu
  | @item i u x x' before after hi h ih =>
    refine value_walk_item hi ?_
    cases u with
    | nil =>
      cases h
      rw [made, made, Trail.index, hsame, hvacant]
    | cons s u =>
      rw [Trail.index, translateAt_of_free hfree (List.cons_ne_nil s u),
        translateAt_of_free hfree (List.cons_ne_nil s u)]
      refine made_walk_congr h (List.cons_ne_nil s u) (ih (List.cons_ne_nil s u) hfree.2 ?_)
      simpa using hsame
  | @member k u x x' before after h ih =>
    refine value_walk_member fun _ => ?_
    cases u with
    | nil =>
      cases h
      rw [content, content, Trail.key, hsame]
    | cons s u =>
      rw [Trail.key, translateAt_of_free hfree (List.cons_ne_nil s u),
        translateAt_of_free hfree (List.cons_ne_nil s u), content_walk, content_walk]
      refine ih (List.cons_ne_nil s u) hfree.2 ?_
      simpa using hsame

end Documents

variable {u : Trail} {v : Json} {s : Segment}

/-- The keys of an object that have one new name are the same. -/
theorem key_of_nameOf {members : List (String × Json)} (hx : t.isApart (.obj members) = true)
    {k : String} (hk : Json.lookup k members = some y) :
    ∀ l ∈ members.map Prod.fst, t.nameOf l = t.nameOf k → l = k := by
  rw [isApart, isApartMembers_iff] at hx
  intro l hl heq
  obtain ⟨e, he, rfl⟩ := List.mem_map.mp hl
  exact congrArg Prod.fst (List.inj_on_of_nodup_map hx.1 he (Json.mem_of_lookup hk) heq)

theorem isApart_of_at (hx : t.isApart x = true) (h : x.at? u = some y) : t.isApart y = true := by
  induction u generalizing x with
  | nil =>
    cases h
    exact hx
  | cons s u ih =>
    obtain ⟨z, hz, hzy⟩ := Option.bind_eq_some_iff.mp h
    exact ih (isApart_of_child hx hz) hzy

/-! ## One step -/

/-- What is traced in a child is traced in the whole. -/
theorem find?_child (h : t.Confines) (hx : t.isApart x = true) (hy : x.child? s = some y)
    (hs : t.leadsOn origin s = true) {q : Trail} (hq : place ++ [t.renameStep s] <+: q) :
    (t.walk origin place x).provenance.find? q =
      (t.translateAt (origin ++ [s]) (place ++ [t.renameStep s]) y).provenance.find? q := by
  cases x with
  | obj members =>
    cases s with
    | index => cases hy
    | key k =>
      have hkeys := hx
      rw [isApart, isApartMembers_iff] at hkeys
      exact find?_member (nodup_keys hkeys.1) hy (by simpa [leadsOn] using hs)
        (key_of_nameOf hx hy) (fun e _ _ => confined_translateAt h _ _ e.2) hq
  | arr items =>
    cases s with
    | key => cases hy
    | index i => exact find?_item (fun j z _ => confined_translateAt h _ _ z) hy hq
  | _ => cases s <;> cases hy

/-! ## A trail -/

/-- **What is traced in a node is traced in the document.** -/
theorem find?_reached (h : t.Confines) (hx : t.isApart x = true) (hu : u ≠ [])
    (hy : x.at? u = some y) (hkept : t.isKept origin u = true) (hfree : t.Free origin u) {q : Trail}
    (hq : place ++ t.rename u <+: q) :
    (t.walk origin place x).provenance.find? q =
      (t.translateAt (origin ++ u) (place ++ t.rename u) y).provenance.find? q := by
  induction u generalizing origin place x with
  | nil => exact absurd rfl hu
  | cons s u ih =>
    obtain ⟨z, hz, hzy⟩ := Option.bind_eq_some_iff.mp hy
    rw [isKept, Bool.and_eq_true] at hkept
    rw [rename_cons, List.append_cons place] at hq
    have hstep := find?_child h hx hz hkept.1 ((List.prefix_append _ _).trans hq)
    rw [rename_cons, List.append_cons origin, List.append_cons place, hstep]
    cases u with
    | nil =>
      cases hzy
      rw [rename_nil, List.append_nil, List.append_nil]
    | cons s' u =>
      rw [translateAt_of_free hfree (List.cons_ne_nil s' u)]
      exact ih (isApart_of_child hx hz) (List.cons_ne_nil s' u) hzy hkept.2 hfree.2 hq

end Provision.Translator
