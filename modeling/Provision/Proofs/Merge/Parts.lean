import Provision.Merge
import Provision.Proofs.Json.Node

/-!
# The parts of a merged container

Two containers of the same kind are merged part by part. Each part is of the lower config, of the
upper one, or of both, and which it is depends on the two containers alone: members are paired by
their keys, entries of a list by the keys that it gives them, the first with a key with the first,
the second with the second.

* `mergeValue_obj`, `mergeValue_arr`: a merged container is made of its merged parts.
* `itemParts_perm`: no entry of an upper list is lost, and none is used twice.
* `mem_itemParts_both_iff`: which entries are paired.
-/

set_option autoImplicit false

namespace Provision.Merge

/-- A part of a merged container: a part of the lower container, of the upper one, or of both. What
is part of the upper container knows the step that led to it there. -/
inductive Part where
  | lower (x : Json)
  | upper (origin : Segment) (y : Json)
  | both (origin : Segment) (x y : Json)

namespace Part

/-- What is merged into the part from the lower container. -/
def lower? : Part → Option Json
  | .lower x | .both _ x _ => some x
  | .upper _ _ => none

/-- What is merged into the part from the upper container, and the step that led to it there. -/
def upper? : Part → Option (Segment × Json)
  | .upper o y | .both o _ y => some (o, y)
  | .lower _ => none

/-- The merged part at a step. -/
def merged (there here : Trail) (place : Segment) : Part → Merged Json
  | .lower x => .lower (here ++ [place]) x
  | .upper o y => .upper (there ++ [o]) (here ++ [place]) y
  | .both o x y => mergeValue (there ++ [o]) (here ++ [place]) x y

end Part

/-- A part and the step that leads to it. -/
abbrev Placed := Segment × Part

/-- The merged part where it is placed. -/
def Placed.merged (there here : Trail) (p : Placed) : Merged Json := p.2.merged there here p.1

/-! ## Objects -/

/-- The part of a member of a lower object. -/
def lowerMember (upper : List (String × Json)) (e : String × Json) : Placed :=
  (.key e.1, match Json.lookup e.1 upper with
    | some y => .both (.key e.1) e.2 y
    | none => .lower e.2)

/-- The part of a member of an upper object that the lower one does not have. -/
def upperMember (e : String × Json) : Placed := (.key e.1, .upper (.key e.1) e.2)

/-- The members of an upper object that the lower one does not have. -/
def fresh (lower upper : List (String × Json)) : List (String × Json) :=
  upper.filter fun e => (Json.lookup e.1 lower).isNone

/-- The parts of two objects. -/
def memberParts (lower upper : List (String × Json)) : List Placed :=
  lower.map (lowerMember upper) ++ (fresh lower upper).map upperMember

/-- The members that parts of objects become. -/
def partMembers (there here : Trail) (parts : List Placed) : List (String × Json) :=
  parts.map fun p => (p.1.text, (p.merged there here).value)

theorem mergeMembers_eq (there here : Trail) (upper lower : List (String × Json)) :
    mergeMembers there here upper lower =
      ⟨partMembers there here (lower.map (lowerMember upper)),
        (lower.map (lowerMember upper)).flatMap fun p => (p.merged there here).kept,
        (lower.map (lowerMember upper)).flatMap fun p => (p.merged there here).moved⟩ := by
  induction lower with
  | nil => rw [mergeMembers]; rfl
  | cons e rest ih =>
    obtain ⟨k, x⟩ := e
    rw [mergeMembers, ih, List.map_cons]
    generalize rest.map (lowerMember upper) = parts
    rw [lowerMember]
    cases Json.lookup k upper <;> rfl

theorem added_eq (there here : Trail) (lower upper : List (String × Json)) :
    added there here lower upper =
      ⟨partMembers there here ((fresh lower upper).map upperMember),
        ((fresh lower upper).map upperMember).flatMap fun p => (p.merged there here).kept,
        ((fresh lower upper).map upperMember).flatMap fun p => (p.merged there here).moved⟩ := by
  induction upper with
  | nil => rfl
  | cons e rest ih =>
    obtain ⟨k, y⟩ := e
    rw [added]
    cases h : Json.lookup k lower with
    | none =>
      have hf : fresh lower ((k, y) :: rest) = (k, y) :: fresh lower rest :=
        List.filter_cons_of_pos (by simp [h])
      rw [hf, if_neg (by simp), ih]
      rfl
    | some x =>
      have hf : fresh lower ((k, y) :: rest) = fresh lower rest :=
        List.filter_cons_of_neg (by simp [h])
      rw [hf, if_pos (by simp), ih]

/-- **Two objects are merged member by member.** -/
theorem mergeValue_obj (there here : Trail) (lower upper : List (String × Json)) :
    mergeValue there here (.obj lower) (.obj upper) =
      .container there here .obj
        ⟨partMembers there here (memberParts lower upper),
          (memberParts lower upper).flatMap fun p => (p.merged there here).kept,
          (memberParts lower upper).flatMap fun p => (p.merged there here).moved⟩ := by
  rw [mergeValue, mergeMembers_eq, added_eq]
  simp only [memberParts, partMembers, List.map_append, List.flatMap_append]

/-! ## Lists -/

/-- The parts of entries of an upper list that have no partner, from a position on. -/
def newParts : (position : Nat) → List (Nat × Json) → List Placed
  | _, [] => []
  | position, (j, y) :: rest =>
    (.index position, .upper (.index j) y) :: newParts (position + 1) rest

/-- The parts of two lists, from a position on. -/
def itemParts (kind : Option KeyKind) : (position : Nat) → List (Nat × Json) → List Json → List Placed
  | position, upper, [] => newParts position upper
  | position, upper, x :: rest =>
    match takePartner kind x upper with
    | some ((j, y), left) =>
      (.index position, .both (.index j) x y) :: itemParts kind (position + 1) left rest
    | none => (.index position, .lower x) :: itemParts kind (position + 1) upper rest

theorem appended_eq (there here : Trail) (position : Nat) (upper : List (Nat × Json)) :
    appended there here position upper =
      ⟨(newParts position upper).map fun p => (p.merged there here).value,
        (newParts position upper).flatMap fun p => (p.merged there here).kept,
        (newParts position upper).flatMap fun p => (p.merged there here).moved⟩ := by
  induction upper generalizing position with
  | nil => rfl
  | cons e rest ih => rw [appended, ih]; rfl

theorem mergeItems_eq (there here : Trail) (kind : Option KeyKind) (position : Nat)
    (upper : List (Nat × Json)) (lower : List Json) :
    mergeItems there here kind position upper lower =
      ⟨(itemParts kind position upper lower).map fun p => (p.merged there here).value,
        (itemParts kind position upper lower).flatMap fun p => (p.merged there here).kept,
        (itemParts kind position upper lower).flatMap fun p => (p.merged there here).moved⟩ := by
  induction lower generalizing position upper with
  | nil => rw [mergeItems, itemParts, appended_eq]
  | cons x rest ih =>
    rw [mergeItems, itemParts]
    cases takePartner kind x upper with
    | none => simp only [ih]; rfl
    | some found =>
      obtain ⟨⟨j, y⟩, left⟩ := found
      simp only [ih]
      rfl

/-- The entries of a list with their positions. -/
def numbered (items : List Json) : List (Nat × Json) := items.zipIdx.map fun (x, j) => (j, x)

/-- **Two lists are merged entry by entry.** -/
theorem mergeValue_arr (there here : Trail) (lower upper : List Json) :
    mergeValue there here (.arr lower) (.arr upper) =
      .container there here .arr
        ⟨(itemParts (keyKindAt here) 0 (numbered upper) lower).map fun p => (p.merged there here).value,
          (itemParts (keyKindAt here) 0 (numbered upper) lower).flatMap fun p =>
            (p.merged there here).kept,
          (itemParts (keyKindAt here) 0 (numbered upper) lower).flatMap fun p =>
            (p.merged there here).moved⟩ := by
  rw [mergeValue, mergeItems_eq, numbered]

/-! ## Entries with a key -/

/-- The positions of the entries of a list that have a key, counted from a position on. -/
def positionsOf (kind : KeyKind) (key : String) : (position : Nat) → List Json → List Nat
  | _, [] => []
  | position, x :: rest =>
    if keyOf? kind x = some key then position :: positionsOf kind key (position + 1) rest
    else positionsOf kind key (position + 1) rest

/-- The numbered entries that have a key. -/
def withKey (kind : KeyKind) (key : String) (entries : List (Nat × Json)) : List (Nat × Json) :=
  entries.filter fun e => keyOf? kind e.2 = some key

theorem withKey_cons_of_eq {kind : KeyKind} {key : String} {e : Nat × Json}
    (h : keyOf? kind e.2 = some key) (entries : List (Nat × Json)) :
    withKey kind key (e :: entries) = e :: withKey kind key entries :=
  List.filter_cons_of_pos (by simpa using h)

theorem withKey_cons_of_ne {kind : KeyKind} {key : String} {e : Nat × Json}
    (h : keyOf? kind e.2 ≠ some key) (entries : List (Nat × Json)) :
    withKey kind key (e :: entries) = withKey kind key entries :=
  List.filter_cons_of_neg (by simpa using h)

theorem withKey_numbered (kind : KeyKind) (key : String) (items : List Json) :
    (withKey kind key (numbered items)).map Prod.fst = positionsOf kind key 0 items := by
  suffices h : ∀ position, (withKey kind key ((items.zipIdx position).map fun (x, j) => (j, x))).map
      Prod.fst = positionsOf kind key position items from h 0
  induction items with
  | nil => intro position; rfl
  | cons x rest ih =>
    intro position
    rw [List.zipIdx_cons, List.map_cons, positionsOf]
    by_cases h : keyOf? kind x = some key
    · rw [withKey_cons_of_eq h, if_pos h, List.map_cons, ih]
    · rw [withKey_cons_of_ne h, if_neg h, ih]

theorem mem_numbered {items : List Json} {j : Nat} {y : Json} :
    (j, y) ∈ numbered items ↔ items[j]? = some y := by
  simp only [numbered, List.mem_map, Prod.exists, Prod.mk.injEq, List.mem_zipIdx_iff_getElem?]
  exact ⟨fun ⟨_, _, h, hj, hy⟩ => hj ▸ hy ▸ h, fun h => ⟨y, j, h, rfl, rfl⟩⟩

theorem nodup_numbered (items : List Json) : ((numbered items).map Prod.fst).Nodup := by
  have h : (numbered items).map Prod.fst = List.range' 0 items.length := by
    rw [numbered, List.map_map]
    exact List.zipIdx_map_snd 0 items
  rw [h]
  exact List.nodup_range'

/-- What is taken out of a list is its first entry with the key. -/
theorem withKey_of_takeKeyed {kind : KeyKind} {key : String} {entries left : List (Nat × Json)}
    {e : Nat × Json} (h : takeKeyed kind key entries = some (e, left)) :
    withKey kind key entries = e :: withKey kind key left ∧
      ∀ other, other ≠ key → withKey kind other entries = withKey kind other left := by
  induction entries generalizing left with
  | nil => cases h
  | cons f rest ih =>
    rw [takeKeyed] at h
    split at h
    · next hf =>
      cases h
      refine ⟨withKey_cons_of_eq hf _, fun other ho => withKey_cons_of_ne ?_ _⟩
      rw [hf]
      exact fun hk => ho (Option.some.inj hk).symm
    · next hf =>
      rw [Option.map_eq_some_iff] at h
      obtain ⟨⟨g, left⟩, h, hg⟩ := h
      cases hg
      obtain ⟨hw, ho⟩ := ih h
      refine ⟨by rw [withKey_cons_of_ne hf, withKey_cons_of_ne hf, hw], fun other hne => ?_⟩
      by_cases hk : keyOf? kind f.2 = some other
      · rw [withKey_cons_of_eq hk, withKey_cons_of_eq hk, ho other hne]
      · rw [withKey_cons_of_ne hk, withKey_cons_of_ne hk, ho other hne]

theorem withKey_of_takeKeyed_none {kind : KeyKind} {key : String} {entries : List (Nat × Json)}
    (h : takeKeyed kind key entries = none) : withKey kind key entries = [] := by
  induction entries with
  | nil => rfl
  | cons f rest ih =>
    rw [takeKeyed] at h
    split at h
    · cases h
    · next hf => rw [withKey_cons_of_ne hf, ih (Option.map_eq_none_iff.mp h)]

/-- Taking an entry out of a list leaves the others. -/
theorem takeKeyed_perm {kind : KeyKind} {key : String} {entries left : List (Nat × Json)}
    {e : Nat × Json} (h : takeKeyed kind key entries = some (e, left)) :
    entries.Perm (e :: left) := by
  induction entries generalizing left with
  | nil => cases h
  | cons f rest ih =>
    rw [takeKeyed] at h
    split at h
    · cases h
      exact .refl _
    · rw [Option.map_eq_some_iff] at h
      obtain ⟨⟨g, left⟩, h, hg⟩ := h
      cases hg
      exact ((ih h).cons f).trans (.swap e f left)

theorem takePartner_eq_some {kind : Option KeyKind} {x : Json} {entries left : List (Nat × Json)}
    {e : Nat × Json} (h : takePartner kind x entries = some (e, left)) :
    ∃ kd key, kind = some kd ∧ keyOf? kd x = some key ∧ takeKeyed kd key entries = some (e, left) := by
  rw [takePartner, Option.bind_eq_bind, Option.bind_eq_some_iff] at h
  obtain ⟨kd, hk, h⟩ := h
  rw [Option.bind_eq_bind, Option.bind_eq_some_iff] at h
  obtain ⟨key, hx, h⟩ := h
  exact ⟨kd, key, hk, hx, h⟩

theorem withKey_of_takePartner_none {kd : KeyKind} {x : Json} {key : String}
    {entries : List (Nat × Json)} (h : takePartner (some kd) x entries = none)
    (hx : keyOf? kd x = some key) : withKey kd key entries = [] := by
  refine withKey_of_takeKeyed_none ?_
  simpa [takePartner, hx] using h

/-! ## Which parts there are -/

/-- **Every entry of the upper list is in one part.** -/
theorem itemParts_perm (kind : Option KeyKind) (position : Nat) (upper : List (Nat × Json))
    (lower : List Json) :
    ((itemParts kind position upper lower).filterMap (·.2.upper?)).Perm
      (upper.map fun e => (.index e.1, e.2)) := by
  induction lower generalizing position upper with
  | nil =>
    rw [itemParts]
    induction upper generalizing position with
    | nil => exact .refl _
    | cons e rest ih => exact (ih (position + 1)).cons _
  | cons x rest ih =>
    rw [itemParts]
    cases h : takePartner kind x upper with
    | none => exact ih (position + 1) upper
    | some found =>
      obtain ⟨⟨j, y⟩, left⟩ := found
      obtain ⟨_, _, _, _, ht⟩ := takePartner_eq_some h
      have hp := (takeKeyed_perm ht).map fun e => (Segment.index e.1, e.2)
      exact ((ih (position + 1) left).cons _).trans hp.symm

theorem itemParts_places (kind : Option KeyKind) (position : Nat) (upper : List (Nat × Json))
    (lower : List Json) :
    (itemParts kind position upper lower).map Prod.fst =
      (List.range' position (itemParts kind position upper lower).length).map .index := by
  induction lower generalizing position upper with
  | nil =>
    rw [itemParts]
    induction upper generalizing position with
    | nil => rfl
    | cons e rest ih =>
      rw [newParts, List.map_cons, ih, List.length_cons, List.range'_succ, List.map_cons]
  | cons x rest ih =>
    rw [itemParts]
    cases takePartner kind x upper with
    | none => simp only [List.map_cons, ih, List.length_cons, List.range'_succ]
    | some found =>
      obtain ⟨⟨j, y⟩, left⟩ := found
      simp only [List.map_cons, ih, List.length_cons, List.range'_succ]

theorem newParts_lower {position : Nat} {upper : List (Nat × Json)} {p : Placed}
    (h : p ∈ newParts position upper) : p.2.lower? = none := by
  induction upper generalizing position with
  | nil => cases h
  | cons e rest ih =>
    rcases List.mem_cons.mp h with rfl | h
    · rfl
    · exact ih h

/-- **Every entry of the lower list is in the part at its own position.** -/
theorem mem_itemParts_lower {kind : Option KeyKind} {position : Nat} {upper : List (Nat × Json)}
    {lower : List Json} {s : Segment} {x : Json} :
    (∃ p, (s, p) ∈ itemParts kind position upper lower ∧ p.lower? = some x) ↔
      ∃ i, s = .index (position + i) ∧ lower[i]? = some x := by
  induction lower generalizing position upper with
  | nil =>
    refine ⟨fun ⟨p, hp, hx⟩ => ?_, fun ⟨i, _, hx⟩ => by cases hx⟩
    rw [itemParts] at hp
    exact absurd hx (by rw [newParts_lower hp]; exact nofun)
  | cons z rest ih =>
    have split : ∀ (head : Part) (tail : List Placed), head.lower? = some z →
        ((∃ p, (s, p) ∈ tail ∧ p.lower? = some x) ↔
          ∃ i, s = .index (position + 1 + i) ∧ rest[i]? = some x) →
        ((∃ p, (s, p) ∈ (Segment.index position, head) :: tail ∧ p.lower? = some x) ↔
          ∃ i, s = .index (position + i) ∧ (z :: rest)[i]? = some x) := by
      intro head tail hz ht
      constructor
      · rintro ⟨p, hp, hx⟩
        rcases List.mem_cons.mp hp with he | hp
        · cases he
          exact ⟨0, rfl, hz.symm.trans hx⟩
        · obtain ⟨i, hs, hi⟩ := ht.mp ⟨p, hp, hx⟩
          exact ⟨i + 1, by rw [hs]; congr 1; omega, hi⟩
      · rintro ⟨i, hs, hi⟩
        cases i with
        | zero => exact ⟨head, by rw [hs]; exact List.mem_cons_self, hz.trans hi⟩
        | succ i =>
          obtain ⟨p, hp, hx⟩ := ht.mpr ⟨i, by rw [hs]; congr 1; omega, hi⟩
          exact ⟨p, List.mem_cons_of_mem _ hp, hx⟩
    rw [itemParts]
    cases takePartner kind z upper with
    | none => exact split _ _ rfl ih
    | some found =>
      obtain ⟨⟨j, y⟩, left⟩ := found
      exact split _ _ rfl ih

/-- **The entries that have a key are paired in their order.** -/
theorem mem_itemParts_both {kind : Option KeyKind} {position : Nat} {upper : List (Nat × Json)}
    {lower : List Json} {i j : Nat} {y : Json} :
    (∃ x, (Segment.index i, Part.both (.index j) x y) ∈ itemParts kind position upper lower) ↔
      ∃ (kd : KeyKind) (key : String) (n : Nat), kind = some kd ∧
        (positionsOf kd key position lower)[n]? = some i ∧
        (withKey kd key upper)[n]? = some (j, y) := by
  induction lower generalizing position upper with
  | nil =>
    refine ⟨fun ⟨x, hx⟩ => ?_, fun ⟨_, _, _, _, hi, _⟩ => by cases hi⟩
    rw [itemParts] at hx
    cases newParts_lower hx
  | cons z rest ih =>
    rw [itemParts]
    cases h : takePartner kind z upper with
    | none =>
      have tail : (∃ x, (Segment.index i, Part.both (.index j) x y) ∈
          (Segment.index position, Part.lower z) ::
            itemParts kind (position + 1) upper rest) ↔
          ∃ x, (Segment.index i, Part.both (.index j) x y) ∈
            itemParts kind (position + 1) upper rest := by
        simp [List.mem_cons]
      refine tail.trans (ih.trans ⟨?_, ?_⟩)
      all_goals
        rintro ⟨kd, key, n, rfl, hi, hj⟩
        have hz : keyOf? kd z ≠ some key := fun hz => by
          rw [withKey_of_takePartner_none h hz] at hj
          cases hj
      · exact ⟨kd, key, n, rfl, by rwa [positionsOf, if_neg hz], hj⟩
      · exact ⟨kd, key, n, rfl, by rwa [positionsOf, if_neg hz] at hi, hj⟩
    | some found =>
      obtain ⟨⟨j₀, y₀⟩, left⟩ := found
      obtain ⟨kd, key, rfl, hz, ht⟩ := takePartner_eq_some h
      obtain ⟨hw, ho⟩ := withKey_of_takeKeyed ht
      constructor
      · rintro ⟨x, hx⟩
        rcases List.mem_cons.mp hx with he | hx
        · cases he
          exact ⟨kd, key, 0, rfl, by rw [positionsOf, if_pos hz]; rfl, by rw [hw]; rfl⟩
        · obtain ⟨kd', other, n, hk, hi, hj⟩ := ih.mp ⟨x, hx⟩
          cases hk
          by_cases hne : other = key
          · subst hne
            exact ⟨kd, other, n + 1, rfl, by rw [positionsOf, if_pos hz]; exact hi,
              by rw [hw]; exact hj⟩
          · have hz' : keyOf? kd z ≠ some other := by
              rw [hz]
              exact fun he => hne (Option.some.inj he).symm
            exact ⟨kd, other, n, rfl, by rwa [positionsOf, if_neg hz'], by rwa [ho other hne]⟩
      · rintro ⟨kd', other, n, hk, hi, hj⟩
        cases hk
        by_cases hne : other = key
        · subst hne
          rw [positionsOf, if_pos hz] at hi
          rw [hw] at hj
          cases n with
          | zero =>
            cases hi
            cases hj
            exact ⟨z, List.mem_cons_self⟩
          | succ n =>
            obtain ⟨x, hx⟩ := ih.mpr ⟨kd, other, n, rfl, hi, hj⟩
            exact ⟨x, List.mem_cons_of_mem _ hx⟩
        · have hz' : keyOf? kd z ≠ some other := by
            rw [hz]
            exact fun he => hne (Option.some.inj he).symm
          rw [positionsOf, if_neg hz'] at hi
          rw [ho other hne] at hj
          obtain ⟨x, hx⟩ := ih.mpr ⟨kd, other, n, rfl, hi, hj⟩
          exact ⟨x, List.mem_cons_of_mem _ hx⟩

theorem mem_memberParts {lower upper : List (String × Json)} {s : Segment} {p : Part} :
    (s, p) ∈ memberParts lower upper ↔
      (∃ k x, (k, x) ∈ lower ∧ (s, p) = lowerMember upper (k, x)) ∨
        ∃ k y, (k, y) ∈ upper ∧ Json.lookup k lower = none ∧ s = .key k ∧
          p = .upper (.key k) y := by
  simp only [memberParts, fresh, List.mem_append, List.mem_map, List.mem_filter, Prod.exists,
    Option.isNone_iff_eq_none, upperMember, Prod.mk.injEq]
  refine or_congr ⟨?_, ?_⟩ ⟨?_, ?_⟩
  · rintro ⟨k, x, h, he⟩
    exact ⟨k, x, h, he.symm⟩
  · rintro ⟨k, x, h, he⟩
    exact ⟨k, x, h, he.symm⟩
  · rintro ⟨k, y, ⟨h, hn⟩, hs, hp⟩
    exact ⟨k, y, h, hn, hs.symm, hp.symm⟩
  · rintro ⟨k, y, h, hn, hs, hp⟩
    exact ⟨k, y, ⟨h, hn⟩, hs.symm, hp.symm⟩

end Provision.Merge
