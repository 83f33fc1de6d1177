import Provision.Proofs.Merge.Laid
import Provision.Proofs.Merge.Lists

/-!
# Lists whose entries have keys

Where the entries of a list have keys, the entries of an upper list are merged with those of the
lower one that have the same key at the same turn, and the others are appended. No entry gets lost
on the way, none is used twice, and none changes its key.

* `turn?`: the key of an entry, and how many entries before it have the same key.
* `keyOf?_mergeValue`: two entries of one key are merged to an entry of that key.
* `Joined`: what is made of two lists, entry by entry, with the keys of all entries.
* `mergeValue_joined`: merging two lists makes it.
-/

set_option autoImplicit false

namespace Provision.Merge

/-! ## Turns -/

section Turns

variable {kind : KeyKind} {items others : List Json} {i j : Nat}

/-- The turn of an entry: its key, and how many entries before it have the same key. -/
def turn? (kind : KeyKind) (items : List Json) (i : Nat) : Option (String × Nat) :=
  (items[i]?.bind (keyOf? kind)).map fun key =>
    (key, (items.take i).countP fun x => keyOf? kind x = some key)

/-- Entries of two lists match if they have the same key at the same turn. -/
def Matches (kind : KeyKind) (items others : List Json) (i j : Nat) : Prop :=
  ∃ turn, turn? kind items i = some turn ∧ turn? kind others j = some turn

/-- Whether an entry matches one of another list. -/
def hasMatch (kind : KeyKind) (items others : List Json) (i : Nat) : Bool :=
  (turn? kind items i).any fun turn =>
    (List.range others.length).any fun j => turn? kind others j = some turn

/-- The positions of the entries that match one of another list. -/
def matched (kind : KeyKind) (items others : List Json) : List Nat :=
  (List.range items.length).filter (hasMatch kind items others)

/-- The entries that match none of another list, in their order. -/
def unmatched (kind : KeyKind) (items others : List Json) : List Json :=
  ((numbered items).filter fun e => !hasMatch kind items others e.1).map Prod.snd

theorem turn?_cons_zero (kind : KeyKind) (x : Json) (rest : List Json) :
    turn? kind (x :: rest) 0 = (keyOf? kind x).map (·, 0) := rfl

/-- An entry in front delays the turns of its key. -/
theorem turn?_cons_succ_of_eq {key : String} {x : Json} {n : Nat} (hx : keyOf? kind x = some key) :
    turn? kind (x :: items) (i + 1) = some (key, n) ↔
      ∃ m, n = m + 1 ∧ turn? kind items i = some (key, m) := by
  simp only [turn?, List.getElem?_cons_succ, List.take_succ_cons, List.countP_cons,
    Option.map_eq_some_iff, Prod.mk.injEq, decide_eq_true_eq]
  constructor
  · rintro ⟨_, hk, rfl, rfl⟩
    exact ⟨_, by rw [if_pos hx], _, hk, rfl, rfl⟩
  · rintro ⟨_, rfl, _, hk, rfl, rfl⟩
    exact ⟨_, hk, rfl, by rw [if_pos hx]⟩

/-- It leaves the turns of other keys as they are. -/
theorem turn?_cons_succ_of_ne {key : String} {x : Json} {n : Nat} (hx : keyOf? kind x ≠ some key) :
    turn? kind (x :: items) (i + 1) = some (key, n) ↔ turn? kind items i = some (key, n) := by
  simp only [turn?, List.getElem?_cons_succ, List.take_succ_cons, List.countP_cons,
    Option.map_eq_some_iff, Prod.mk.injEq, decide_eq_true_eq]
  constructor <;> rintro ⟨_, hk, rfl, hn⟩ <;> refine ⟨_, hk, rfl, ?_⟩ <;>
    rwa [if_neg hx, Nat.add_zero] at *

theorem lt_of_turn? {turn : String × Nat} (h : turn? kind items i = some turn) :
    i < items.length := by
  obtain ⟨key, hkey, -⟩ := Option.map_eq_some_iff.mp h
  obtain ⟨x, hx, -⟩ := Option.bind_eq_some_iff.mp hkey
  exact (List.getElem?_eq_some_iff.mp hx).1

/-- **The positions of a key are those of its turns**, in their order. -/
theorem getElem?_positionsOf {key : String} {position n p : Nat} :
    (positionsOf kind key position items)[n]? = some p ↔
      ∃ i, p = position + i ∧ turn? kind items i = some (key, n) := by
  induction items generalizing position n with
  | nil => exact ⟨nofun, fun ⟨i, _, h⟩ => by cases h⟩
  | cons x rest ih =>
    rw [positionsOf]
    by_cases hx : keyOf? kind x = some key
    · have hfirst : turn? kind (x :: rest) 0 = some (key, 0) := by
        rw [turn?_cons_zero, hx]
        rfl
      rw [if_pos hx]
      constructor
      · intro h
        cases n with
        | zero => exact ⟨0, (Option.some.inj h).symm, hfirst⟩
        | succ n =>
          obtain ⟨i, hp, hi⟩ := ih.mp h
          exact ⟨i + 1, by omega, (turn?_cons_succ_of_eq hx).mpr ⟨n, rfl, hi⟩⟩
      · rintro ⟨i, rfl, hi⟩
        cases i with
        | zero =>
          cases hfirst.symm.trans hi
          rfl
        | succ i =>
          obtain ⟨m, rfl, hm⟩ := (turn?_cons_succ_of_eq hx).mp hi
          exact ih.mpr ⟨i, by omega, hm⟩
    · rw [if_neg hx, ih]
      constructor
      · rintro ⟨i, hp, hi⟩
        exact ⟨i + 1, by omega, (turn?_cons_succ_of_ne hx).mpr hi⟩
      · rintro ⟨i, hp, hi⟩
        cases i with
        | zero =>
          rw [turn?_cons_zero, Option.map_eq_some_iff] at hi
          obtain ⟨_, hk, he⟩ := hi
          exact absurd ((Prod.mk.inj he).1 ▸ hk) hx
        | succ i => exact ⟨i, by omega, (turn?_cons_succ_of_ne hx).mp hi⟩

/-- No two entries of a list have the same turn. -/
theorem turn?_inj {turn : String × Nat} (hi : turn? kind items i = some turn)
    (hj : turn? kind items j = some turn) : i = j := by
  have position : ∀ {i}, turn? kind items i = some turn →
      (positionsOf kind turn.1 0 items)[turn.2]? = some i := fun {i} h =>
    getElem?_positionsOf.mpr ⟨i, (Nat.zero_add i).symm, h⟩
  exact Option.some.inj ((position hi).symm.trans (position hj))

theorem hasMatch_iff :
    hasMatch kind items others i = true ↔ ∃ j, Matches kind items others i j := by
  simp only [hasMatch, Option.any_eq_true, List.any_eq_true, List.mem_range, decide_eq_true_eq]
  constructor
  · rintro ⟨turn, hi, j, -, hj⟩
    exact ⟨j, turn, hi, hj⟩
  · rintro ⟨j, turn, hi, hj⟩
    exact ⟨turn, hi, j, lt_of_turn? hj, hj⟩

theorem Matches.symm (h : Matches kind items others i j) : Matches kind others items j i := by
  obtain ⟨turn, hi, hj⟩ := h
  exact ⟨turn, hj, hi⟩

/-- Entries match exactly if they have the same key and as many entries with it before them. -/
theorem matches_iff : Matches kind items others i j ↔ ∃ (key : String) (n : Nat),
    (positionsOf kind key 0 items)[n]? = some i ∧ (positionsOf kind key 0 others)[n]? = some j := by
  simp only [getElem?_positionsOf, Nat.zero_add]
  constructor
  · rintro ⟨⟨key, n⟩, hi, hj⟩
    exact ⟨key, n, ⟨i, rfl, hi⟩, ⟨j, rfl, hj⟩⟩
  · rintro ⟨key, n, ⟨_, rfl, hi⟩, ⟨_, rfl, hj⟩⟩
    exact ⟨(key, n), hi, hj⟩

theorem mem_matched : i ∈ matched kind items others ↔ ∃ j, Matches kind items others i j := by
  rw [matched, List.mem_filter, List.mem_range, hasMatch_iff]
  exact and_iff_right_of_imp fun ⟨_, _, hi, _⟩ => lt_of_turn? hi

/-- The turns of the entries that match are those that both lists have. -/
theorem mem_matched_turns {turn : String × Nat} :
    some turn ∈ (matched kind items others).map (turn? kind items) ↔
      (∃ i, turn? kind items i = some turn) ∧ ∃ j, turn? kind others j = some turn := by
  simp only [List.mem_map, mem_matched]
  constructor
  · rintro ⟨i, ⟨j, _, hi, hj⟩, h⟩
    cases h.symm.trans hi
    exact ⟨⟨i, h⟩, j, hj⟩
  · rintro ⟨⟨i, hi⟩, j, hj⟩
    exact ⟨i, ⟨j, turn, hi, hj⟩, hi⟩

theorem isSome_of_mem_turns {t : Option (String × Nat)}
    (h : t ∈ (matched kind items others).map (turn? kind items)) : ∃ turn, t = some turn := by
  obtain ⟨i, hi, rfl⟩ := List.mem_map.mp h
  obtain ⟨_, turn, hi, -⟩ := mem_matched.mp hi
  exact ⟨turn, hi⟩

theorem nodup_matched_turns (kind : KeyKind) (items others : List Json) :
    ((matched kind items others).map (turn? kind items)).Nodup := by
  have hdistinct : (matched kind items others).Nodup := List.nodup_range.sublist List.filter_sublist
  refine List.pairwise_map.mpr (hdistinct.imp_of_mem fun hi _ hne he => hne ?_)
  obtain ⟨_, turn, hi, -⟩ := mem_matched.mp hi
  exact turn?_inj hi (he ▸ hi)

/-- **Of two lists, as many entries of the one match as of the other.** -/
theorem length_matched (kind : KeyKind) (items others : List Json) :
    (matched kind items others).length = (matched kind others items).length := by
  have hperm : ((matched kind items others).map (turn? kind items)).Perm
      ((matched kind others items).map (turn? kind others)) := by
    refine (List.perm_ext_iff_of_nodup (nodup_matched_turns _ _ _)
      (nodup_matched_turns _ _ _)).mpr fun t => ⟨fun h => ?_, fun h => ?_⟩ <;>
    · obtain ⟨turn, rfl⟩ := isSome_of_mem_turns h
      exact mem_matched_turns.mpr (mem_matched_turns.mp h).symm
  simpa using hperm.length_eq

theorem length_unmatched (kind : KeyKind) (items others : List Json) :
    (matched kind items others).length + (unmatched kind items others).length = items.length := by
  have hpositions : (numbered items).map Prod.fst = List.range items.length := by
    rw [numbered, List.map_map, List.range_eq_range']
    exact List.zipIdx_map_snd 0 items
  have hmatched : (matched kind items others).length =
      ((numbered items).filter fun e => hasMatch kind items others e.1).length := by
    rw [matched, ← hpositions, List.filter_map, List.length_map]
    rfl
  have hlength : (numbered items).length = items.length := by
    rw [numbered, List.length_map, List.length_zipIdx]
  rw [hmatched, unmatched, List.length_map, ← hlength]
  simpa [List.countP_eq_length_filter] using (List.length_eq_countP_add_countP
    (fun e => hasMatch kind items others e.1) (l := numbered items)).symm

/-- Where all keys differ, every entry with a key is the first one with it. -/
theorem turn?_of_nodup {x : Json} {key : String} (hd : (items.filterMap (keyOf? kind)).Nodup)
    (hx : items[i]? = some x) (hk : keyOf? kind x = some key) :
    turn? kind items i = some (key, 0) := by
  have hnone : (items.take i).countP (fun y => keyOf? kind y = some key) = 0 := by
    refine List.countP_eq_zero.mpr fun y hy hkey => ?_
    rw [← List.take_append_drop i items, List.filterMap_append, List.nodup_append] at hd
    have hdrop : x ∈ items.drop i := by
      refine List.mem_of_getElem? (i := 0) ?_
      rw [List.getElem?_drop, Nat.add_zero, hx]
    exact hd.2.2 key (List.mem_filterMap.mpr ⟨y, hy, of_decide_eq_true hkey⟩) key
      (List.mem_filterMap.mpr ⟨x, hdrop, hk⟩) rfl
  rw [turn?, hx, Option.bind_some, hk, Option.map_some, hnone]

end Turns

/-! ## Keys -/

/-- A merged value is that of the two values when their origins are noted. -/
theorem value_mergeValue {x y : Json} (hx : x.isDistinct = true) (hy : y.isDistinct = true)
    (there here : Trail) : (mergeValue there here x y).value =
      (Noted.lay here.outline (noted (fun _ => none) x) (noted (fun _ => none) y)).bare := by
  have hnoted := Layers.noted_merged (fun _ => none) (fun _ => none) here (Layers.laid there x y)
    (Layers.sound_laid hx hy there)
  rw [Layers.noted_laid] at hnoted
  rw [← Layers.merged_laid, ← hnoted, bare_noted]

/-- **Two entries of one key are merged to an entry of that key.** -/
theorem keyOf?_mergeValue {kind : KeyKind} {key : String} {x y : Json} (hx : x.isDistinct = true)
    (hy : y.isDistinct = true) (hkx : keyOf? kind x = some key) (hky : keyOf? kind y = some key)
    (there here : Trail) : keyOf? kind (mergeValue there here x y).value = some key := by
  have hbare : ∀ z, Noted.key? (some kind) (noted (fun _ => none) z) = keyOf? kind z := fun z =>
    congrArg (keyOf? kind) (bare_noted _ z)
  rw [value_mergeValue hx hy]
  exact Noted.keepsKeys_lay (some kind) here.outline _ _ key ((hbare x).trans hkx)
    ((hbare y).trans hky)

/-! ## Joined lists -/

theorem takeKeyed_sublist {kind : KeyKind} {key : String} {entries left : List (Nat × Json)}
    {e : Nat × Json} (h : takeKeyed kind key entries = some (e, left)) : left.Sublist entries := by
  induction entries generalizing left with
  | nil => cases h
  | cons f rest ih =>
    rw [takeKeyed] at h
    split at h
    · cases h
      exact List.sublist_cons_self _ _
    · rw [Option.map_eq_some_iff] at h
      obtain ⟨⟨g, left⟩, h, hg⟩ := h
      cases hg
      exact (ih h).cons_cons f

/-- The parts of two lists are those of the lower one, and then what is left of the upper one in its
order. -/
theorem itemParts_split (kind : Option KeyKind) (position : Nat) (upper : List (Nat × Json))
    (lower : List Json) : ∃ front left,
      itemParts kind position upper lower = front ++ newParts (position + lower.length) left ∧
        front.length = lower.length ∧ (∀ p ∈ front, p.2.lower?.isSome = true) ∧
          left.Sublist upper := by
  induction lower generalizing position upper with
  | nil => exact ⟨[], upper, rfl, rfl, nofun, List.Sublist.refl _⟩
  | cons x rest ih =>
    have hposition : position + 1 + rest.length = position + (x :: rest).length := by
      rw [List.length_cons]
      omega
    rw [itemParts]
    cases ht : takePartner kind x upper with
    | none =>
      obtain ⟨front, left, hparts, hlength, hlower, hleft⟩ := ih (position + 1) upper
      refine ⟨(.index position, .lower x) :: front, left, ?_, congrArg (· + 1) hlength,
        List.forall_mem_cons.mpr ⟨rfl, hlower⟩, hleft⟩
      dsimp only
      rw [hparts, hposition, List.cons_append]
    | some found =>
      obtain ⟨⟨j, y⟩, remaining⟩ := found
      obtain ⟨_, _, -, -, htake⟩ := takePartner_eq_some ht
      obtain ⟨front, left, hparts, hlength, hlower, hleft⟩ := ih (position + 1) remaining
      refine ⟨(.index position, .both (.index j) x y) :: front, left, ?_,
        congrArg (· + 1) hlength, List.forall_mem_cons.mpr ⟨rfl, hlower⟩,
        hleft.trans (takeKeyed_sublist htake)⟩
      dsimp only
      rw [hparts, hposition, List.cons_append]

theorem mem_newParts {j : Nat} {y : Json} (position : Nat) {left : List (Nat × Json)} :
    (j, y) ∈ left ↔ ∃ s, (s, .upper (.index j) y) ∈ newParts position left := by
  induction left generalizing position with
  | nil => exact ⟨nofun, fun ⟨_, h⟩ => nomatch h⟩
  | cons e rest ih =>
    rw [List.mem_cons, ih (position + 1)]
    constructor
    · rintro (rfl | ⟨s, hs⟩)
      · exact ⟨_, List.mem_cons_self⟩
      · exact ⟨s, List.mem_cons_of_mem _ hs⟩
    · rintro ⟨s, hs⟩
      rcases List.mem_cons.mp hs with he | hs
      · cases he
        exact .inl rfl
      · exact .inr ⟨s, hs⟩

section Joined

variable {there here : Trail} {kind : KeyKind} {lower upper : List Json} {i j : Nat}

/-- A part is of both lists exactly if it is of two entries that match. -/
theorem mem_itemParts_matches {y : Json} (hy : upper[j]? = some y) :
    (∃ x, (Segment.index i, Part.both (.index j) x y) ∈
        itemParts (some kind) 0 (numbered upper) lower) ↔ Matches kind lower upper i j := by
  rw [mem_itemParts_both, matches_iff]
  constructor
  · rintro ⟨_, key, n, hk, hi, hj⟩
    cases hk
    refine ⟨key, n, hi, ?_⟩
    rw [← withKey_numbered, List.getElem?_map, hj]
    rfl
  · rintro ⟨key, n, hi, hj⟩
    rw [← withKey_numbered, List.getElem?_map, Option.map_eq_some_iff] at hj
    obtain ⟨⟨_, y'⟩, hj, rfl⟩ := hj
    have hmem := (List.mem_filter.mp (List.mem_of_getElem? hj)).1
    cases hy.symm.trans (mem_numbered.mp hmem)
    exact ⟨kind, key, n, rfl, hi, hj⟩

/-- The entries that two lists are merged to. -/
def joinedItems (there here : Trail) (kind : KeyKind) (lower upper : List Json) : List Json :=
  (itemParts (some kind) 0 (numbered upper) lower).map fun p => (p.merged there here).value

theorem getElem?_joinedItems {p : Part}
    (hp : (.index i, p) ∈ itemParts (some kind) 0 (numbered upper) lower) :
    (joinedItems there here kind lower upper)[i]? =
      some (p.merged there here (.index i)).value := by
  have hplaces := itemParts_places (some kind) 0 (numbered upper) lower
  have hnodup : ((itemParts (some kind) 0 (numbered upper) lower).map Prod.fst).Nodup := by
    rw [hplaces]
    exact nodup_map_index List.nodup_range'
  have hi := getElem?_partItems there here hplaces i
  rw [Nat.zero_add, (List.lookup_eq_some_iff_mem hnodup).mpr hp, Option.map_some] at hi
  exact hi

/-- An entry of the lower list is in the part at its position. -/
theorem exists_part (kind : KeyKind) (upper : List Json) {x : Json} (hx : lower[i]? = some x) :
    ∃ p : Part, (.index i, p) ∈ itemParts (some kind) 0 (numbered upper) lower ∧
      p.lower? = some x :=
  mem_itemParts_lower.mpr ⟨i, by rw [Nat.zero_add], hx⟩

/-- **An entry that matches one of the upper list is merged with it**, in its place. -/
theorem joinedItems_both {x y : Json} (hx : lower[i]? = some x) (hy : upper[j]? = some y)
    (h : Matches kind lower upper i j) : (joinedItems there here kind lower upper)[i]? =
      some (mergeValue (there.index j) (here.index i) x y).value := by
  obtain ⟨x', hp⟩ := (mem_itemParts_matches hy).mpr h
  obtain ⟨i', hi, hx'⟩ := mem_itemParts_lower.mp ⟨_, hp, rfl⟩
  rw [Nat.zero_add] at hi
  cases hi
  cases hx.symm.trans hx'
  exact getElem?_joinedItems hp

/-- **An entry that matches none of the upper list stays as it is.** -/
theorem joinedItems_alone {x : Json} (hx : lower[i]? = some x)
    (h : ∀ j, ¬Matches kind lower upper i j) :
    (joinedItems there here kind lower upper)[i]? = some x := by
  obtain ⟨p, hp, hlower⟩ := exists_part kind upper hx
  cases p with
  | upper => cases hlower
  | lower x' =>
    cases hlower
    exact getElem?_joinedItems hp
  | both o x' y =>
    have hupper := mem_itemParts_upper.mp ⟨_, _, hp, rfl⟩
    cases o with
    | key => cases hupper
    | index j => exact absurd ((mem_itemParts_matches hupper).mp ⟨x', hp⟩) (h j)

/-- What is left of the upper list are its entries that match none of the lower one. -/
theorem left_eq_filter {front : List Placed} {left : List (Nat × Json)} {position : Nat}
    (hparts : itemParts (some kind) 0 (numbered upper) lower = front ++ newParts position left)
    (hlower : ∀ p ∈ front, p.2.lower?.isSome = true) (hleft : left.Sublist (numbered upper)) :
    left = (numbered upper).filter fun e => !hasMatch kind upper lower e.1 := by
  have hnodup : (((itemParts (some kind) 0 (numbered upper) lower).filterMap
      (·.2.upper?)).map Prod.fst).Nodup := by
    rw [((itemParts_perm (some kind) 0 (numbered upper) lower).map Prod.fst).nodup_iff,
      List.map_map]
    have := nodup_map_index (nodup_numbered upper)
    rwa [List.map_map] at this
  have hmem : ∀ e ∈ numbered upper, e ∈ left ↔ hasMatch kind upper lower e.1 = false := by
    rintro ⟨j, y⟩ he
    have hy := mem_numbered.mp he
    constructor
    · -- an entry that is left is in a part of its own, and in no other one
      intro hl
      obtain ⟨s, hs⟩ := (mem_newParts position).mp hl
      have hup : (s, .upper (.index j) y) ∈ itemParts (some kind) 0 (numbered upper) lower :=
        hparts ▸ List.mem_append_right _ hs
      refine Bool.eq_false_iff.mpr fun hm => ?_
      obtain ⟨i, hm⟩ := hasMatch_iff.mp hm
      obtain ⟨x, hboth⟩ := (mem_itemParts_matches hy).mpr hm.symm
      cases List.eq_of_nodup_filterMap hnodup hup hboth rfl rfl
    · intro hm
      obtain ⟨s, p, hp, hup⟩ : ∃ s p, (s, p) ∈ itemParts (some kind) 0 (numbered upper) lower ∧
          p.upper? = some (.index j, y) := mem_itemParts_upper.mpr hy
      cases p with
      | lower => cases hup
      | both o x y' =>
        cases hup
        obtain ⟨i, rfl, -⟩ := mem_itemParts_lower.mp ⟨_, hp, rfl⟩
        have hmatch := (mem_itemParts_matches hy).mp ⟨x, hp⟩
        rw [hasMatch_iff.mpr ⟨_, hmatch.symm⟩] at hm
        cases hm
      | upper o y' =>
        cases hup
        rw [hparts] at hp
        rcases List.mem_append.mp hp with hp | hp
        · cases hlower _ hp
        · exact (mem_newParts position).mpr ⟨s, hp⟩
  have hdistinct : (numbered upper).Nodup :=
    List.Pairwise.of_map Prod.fst (fun _ _ hne he => hne (congrArg _ he)) (nodup_numbered upper)
  have hfilter : left.Sublist
      ((numbered upper).filter fun e => !hasMatch kind upper lower e.1) := by
    have hself := hleft.filter fun e => !hasMatch kind upper lower e.1
    rwa [List.filter_eq_self.mpr fun e he =>
      congrArg (!·) ((hmem e (hleft.subset he)).mp he)] at hself
  refine hfilter.eq_of_length (List.Perm.length_eq ((List.perm_ext_iff_of_nodup
    (hdistinct.sublist hleft) (hdistinct.sublist List.filter_sublist)).mpr fun e => ?_))
  rw [List.mem_filter, Bool.not_eq_true']
  exact ⟨fun he => ⟨hleft.subset he, (hmem e (hleft.subset he)).mp he⟩,
    fun he => (hmem e he.1).mpr he.2⟩

/-- What follows the lower list are the other entries of the upper one. -/
theorem joinedItems_rest (there here : Trail) (kind : KeyKind) (lower upper : List Json) :
    (joinedItems there here kind lower upper).drop lower.length = unmatched kind upper lower := by
  obtain ⟨front, left, hparts, hlength, hlower, hleft⟩ :=
    itemParts_split (some kind) 0 (numbered upper) lower
  have hnew := congrArg Merged.value (appended_eq there here (0 + lower.length) left)
  rw [value_appended] at hnew
  rw [joinedItems, hparts, List.map_append, List.drop_left' (by rw [List.length_map, hlength]),
    unmatched, ← left_eq_filter hparts hlower hleft, hnew]

theorem length_joinedItems (there here : Trail) (kind : KeyKind) (lower upper : List Json) :
    (joinedItems there here kind lower upper).length =
      lower.length + (unmatched kind upper lower).length := by
  obtain ⟨front, left, hparts, hlength, hlower, hleft⟩ :=
    itemParts_split (some kind) 0 (numbered upper) lower
  have hle : lower.length ≤ (joinedItems there here kind lower upper).length := by
    rw [joinedItems, hparts, List.length_map, List.length_append, hlength]
    exact Nat.le_add_right _ _
  rw [← joinedItems_rest there here, List.length_drop, Nat.add_sub_cancel' hle]

/-- **No entry changes its key when lists are joined.** -/
theorem keys_joinedItems (there here : Trail) (kind : KeyKind)
    (hl : (Json.arr lower).isDistinct = true)
    (hu : (Json.arr upper).isDistinct = true) :
    (joinedItems there here kind lower upper).map (keyOf? kind) =
      lower.map (keyOf? kind) ++ (unmatched kind upper lower).map (keyOf? kind) := by
  suffices htake : ((joinedItems there here kind lower upper).take lower.length).map (keyOf? kind) =
      lower.map (keyOf? kind) by
    rw [← htake, ← joinedItems_rest there here, ← List.map_append, List.take_append_drop]
  refine List.ext_getElem? fun i => ?_
  rw [List.getElem?_map, List.getElem?_map, List.getElem?_take]
  split
  · next hi =>
    have hx := List.getElem?_eq_getElem hi
    rw [hx]
    by_cases hmatch : ∃ j, Matches kind lower upper i j
    · obtain ⟨j, hmatch⟩ := hmatch
      obtain ⟨⟨key, n⟩, hti, htj⟩ := hmatch
      have hkey : ∀ {items : List Json} {i : Nat} {x : Json}, items[i]? = some x →
          turn? kind items i = some (key, n) → keyOf? kind x = some key := by
        intro items i x hx ht
        rw [turn?, hx, Option.map_eq_some_iff] at ht
        obtain ⟨_, hk, he⟩ := ht
        exact hk.trans (congrArg some (Prod.mk.inj he).1)
      have hy := List.getElem?_eq_getElem (lt_of_turn? htj)
      rw [joinedItems_both hx hy ⟨_, hti, htj⟩, Option.map_some, Option.map_some, hkey hx hti,
        keyOf?_mergeValue (Json.isDistinct_of_child (s := .index i) hl hx)
          (Json.isDistinct_of_child (s := .index j) hu hy) (hkey hx hti) (hkey hy htj)]
    · rw [joinedItems_alone hx fun j h => hmatch ⟨j, h⟩]
  · next hi => rw [List.getElem?_eq_none (Nat.not_lt.mp hi)]

/-- **Keys that differ in both lists differ in the joined one.** -/
theorem nodup_keys_joined (hl : (lower.filterMap (keyOf? kind)).Nodup)
    (hu : (upper.filterMap (keyOf? kind)).Nodup) :
    (lower.filterMap (keyOf? kind) ++
      (unmatched kind upper lower).filterMap (keyOf? kind)).Nodup := by
  have hsub : (unmatched kind upper lower).Sublist upper := by
    have := (List.filter_sublist (l := numbered upper)
      (p := fun e => !hasMatch kind upper lower e.1)).map Prod.snd
    rwa [snd_numbered] at this
  refine List.nodup_append.mpr ⟨hl, hu.sublist (hsub.filterMap _), ?_⟩
  rintro key hlower _ hupper rfl
  obtain ⟨x, hx, hkx⟩ := List.mem_filterMap.mp hlower
  obtain ⟨y, hy, hky⟩ := List.mem_filterMap.mp hupper
  obtain ⟨i, hi⟩ := List.getElem?_of_mem hx
  obtain ⟨⟨j, _⟩, he, rfl⟩ := List.mem_map.mp hy
  obtain ⟨hj, hnone⟩ := List.mem_filter.mp he
  -- both entries are the first ones with the key, and so they match
  have hmatch := hasMatch_iff.mpr
    ⟨i, _, turn?_of_nodup hu (mem_numbered.mp hj) hky, turn?_of_nodup hl hi hkx⟩
  rw [hmatch] at hnone
  cases hnone

/-- What two lists whose entries have keys are joined to. -/
structure Joined (there here : Trail) (kind : KeyKind) (lower upper items : List Json) : Prop where
  /-- An entry that matches one of the upper list is merged with it, in its place. -/
  both : ∀ (i j : Nat) (x y : Json), lower[i]? = some x → upper[j]? = some y →
    Matches kind lower upper i j →
      items[i]? = some (mergeValue (there.index j) (here.index i) x y).value
  /-- An entry that matches none stays as it is, in its place. -/
  alone : ∀ (i : Nat) (x : Json), lower[i]? = some x → (∀ j, ¬Matches kind lower upper i j) →
    items[i]? = some x
  /-- The other entries of the upper list follow in their order. -/
  rest : items.drop lower.length = unmatched kind upper lower
  /-- Nothing is lost or doubled. -/
  length : items.length + (matched kind lower upper).length = lower.length + upper.length
  /-- Every entry has the key of those that it is made of. -/
  keys : items.map (keyOf? kind) =
    lower.map (keyOf? kind) ++ (unmatched kind upper lower).map (keyOf? kind)
  /-- Where all keys differ, they still do. -/
  distinct : (lower.filterMap (keyOf? kind)).Nodup → (upper.filterMap (keyOf? kind)).Nodup →
    (items.filterMap (keyOf? kind)).Nodup

/-- **Merging two lists whose entries have keys joins them.** -/
theorem mergeValue_joined (there : Trail) (hk : keyKindAt here = some kind)
    (hl : (Json.arr lower).isDistinct = true) (hu : (Json.arr upper).isDistinct = true) :
    ∃ items, (mergeValue there here (.arr lower) (.arr upper)).value = .arr items ∧
      Joined there here kind lower upper items := by
  refine ⟨joinedItems there here kind lower upper, ?_, ?_⟩
  · rw [mergeValue_arr, hk]
    rfl
  have hmatched := length_matched kind upper lower
  have hunmatched := length_unmatched kind upper lower
  have hlength := length_joinedItems there here kind lower upper
  have hkeys := keys_joinedItems there here kind hl hu
  refine ⟨fun _ _ _ _ => joinedItems_both, fun _ _ => joinedItems_alone, joinedItems_rest _ _ _ _ _,
    by omega, hkeys, fun hlower hupper => ?_⟩
  have hnodup := nodup_keys_joined hlower hupper
  have hid : ∀ items : List Json, (items.map (keyOf? kind)).filterMap id =
      items.filterMap (keyOf? kind) := fun items => by rw [List.filterMap_map]; rfl
  rwa [← hid, hkeys, List.filterMap_append, hid, hid]

end Joined

/-! ## Partitions -/

/-- Partitions of a disk: two of one label, one that has a number only, and one without a key. -/
def ownPartitions : List Json :=
  [.obj [("label", .str "root"), ("number", .int 1)], .obj [("number", .int 2)],
    .obj [("number", .int 0)], .obj [("label", .str "root"), ("number", .int 4)]]

/-- Partitions that are laid over them. The nulls of the second and third one give way. -/
def otherPartitions : List Json :=
  [.obj [("label", .str "data")], .obj [("label", .str "root"), ("number", .null)],
    .obj [("number", .int 2), ("label", .null), ("sizeMiB", .int 8)], .obj [("number", .int 0)],
    .obj [("label", .str "root"), ("sizeMiB", .int 9)], .obj [("label", .str "root")]]

/-- The partitions of the first disk. -/
def partitionsTrail : Trail := [.key "storage", .key "disks", .index 0, .key "partitions"]

theorem partitions_joined :
    (∃ items, (mergeValue partitionsTrail partitionsTrail (.arr ownPartitions)
        (.arr otherPartitions)).value = .arr items ∧
      Joined partitionsTrail partitionsTrail .partition ownPartitions otherPartitions items) ∧
      (mergeValue partitionsTrail partitionsTrail (.arr ownPartitions)
        (.arr otherPartitions)).value = .arr
          [.obj [("label", .str "root"), ("number", .int 1)],
            .obj [("number", .int 2), ("label", .null), ("sizeMiB", .int 8)],
            .obj [("number", .int 0)],
            .obj [("label", .str "root"), ("number", .int 4), ("sizeMiB", .int 9)],
            .obj [("label", .str "data")], .obj [("number", .int 0)],
            .obj [("label", .str "root")]] :=
  ⟨mergeValue_joined partitionsTrail (by decide +kernel) (by decide) (by decide), by decide +kernel⟩

end Provision.Merge
