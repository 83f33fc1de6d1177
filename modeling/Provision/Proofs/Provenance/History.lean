import Provision.Proofs.Provenance

/-!
# How a provenance came to be

Origins are recorded one by one, taken over from other provenances, and moved with the documents
that they are about. A journal keeps all that was recorded, in the order of time and with its paths
in full; a provenance keeps the last of it for every part.

* `History`: the ways to a provenance, calls with a path into the wrong document among them.
* `reflects_history`: whatever happened, a provenance reflects its journal.
* `translations_below_under`, `translations_under_below`: what moving documents there and back
  leaves.
-/

set_option autoImplicit false

namespace Provision

/-- One part with its origin, each as a path. -/
structure Translation where
  origin : Path
  place : Path
  deriving DecidableEq, Repr

/-! ## The order of trails that are moved -/

namespace Trail

theorem compare_append (start t u : Trail) : compare (start ++ t) (start ++ u) = compare t u := by
  induction start with
  | nil => rfl
  | cons s start ih =>
    rw [List.cons_append, List.cons_append, compare, ih, (Segment.compare_eq_iff s s).mpr rfl]
    rfl

end Trail

namespace Origins

/-- Moving the parts and their origins keeps the order. -/
theorem sorted_moved (origin place : Trail) {o : Origins} (h : o.Sorted) :
    Sorted (o.map fun (t, u) => (place ++ t, origin ++ u)) :=
  List.Pairwise.map _ (fun a b hab => (Trail.compare_append place a.1 b.1).trans hab) h

/-- Dropping the parts beside a place and moving the others keeps the order. -/
theorem sorted_below (start : Trail) {o : Origins} (h : o.Sorted) :
    Sorted (o.filterMap fun (t, u) => (start.below? t).map (·, u)) := by
  refine List.Pairwise.filterMap _ (fun a b hab c hc d hd => ?_) h
  obtain ⟨t, ht, rfl⟩ := Option.map_eq_some_iff.mp hc
  obtain ⟨u, hu, rfl⟩ := Option.map_eq_some_iff.mp hd
  rwa [Provenance.below?_eq_some_iff.mp ht, Provenance.below?_eq_some_iff.mp hu,
    Trail.compare_append] at hab

/-- What is below a place, moved back there, is what was below it. -/
theorem moved_below (start : Trail) (o : Origins) :
    (o.filterMap fun (t, u) => (start.below? t).map (·, u)).map (fun e => (start ++ e.1, e.2)) =
      o.filter fun e => start <+: e.1 := by
  induction o with
  | nil => rfl
  | cons e rest ih =>
    obtain ⟨t, u⟩ := e
    cases hbelow : start.below? t with
    | none =>
      have hbeside : ¬start <+: t := fun ⟨v, hv⟩ => by
        rw [Provenance.below?_eq_some_iff.mpr hv.symm] at hbelow
        cases hbelow
      simpa [hbelow, hbeside] using ih
    | some v =>
      have ht := Provenance.below?_eq_some_iff.mp hbelow
      simpa [hbelow, ht] using ih

theorem insert_insert (place origin : Trail) (o : Origins) :
    insert place origin (insert place origin o) = insert place origin o := by
  have hself : place.compare place = .eq := (Trail.compare_eq_iff place place).mpr rfl
  induction o with
  | nil => simp [insert, hself]
  | cons e rest ih =>
    cases hcompare : place.compare e.1 <;> simp [insert, hcompare, hself, ih]

end Origins

/-! ## Journals -/

/-- All that was recorded about two documents, in the order of time. -/
structure Journal where
  source : Schema
  target : Schema
  entries : List Translation
  deriving DecidableEq, Repr

/-- Where a part comes from by the last entry about it. -/
def lastOrigin? (entries : List Translation) (place : Path) : Option Path :=
  (entries.reverse.find? (·.place = place)).map (·.origin)

theorem lastOrigin?_append (earlier later : List Translation) (place : Path) :
    lastOrigin? (earlier ++ later) place =
      (lastOrigin? later place).or (lastOrigin? earlier place) := by
  rw [lastOrigin?, List.reverse_append, List.find?_append, Option.map_or]
  rfl

theorem lastOrigin?_singleton (t : Translation) (place : Path) :
    lastOrigin? [t] place = if t.place = place then some t.origin else none := by
  rw [lastOrigin?, List.reverse_singleton, List.find?_singleton]
  by_cases h : t.place = place <;> simp [h]

theorem lastOrigin?_eq_none_iff {entries : List Translation} {place : Path} :
    lastOrigin? entries place = none ↔ ∀ t ∈ entries, t.place ≠ place := by
  rw [lastOrigin?, Option.map_eq_none_iff, List.find?_eq_none]
  simp only [List.mem_reverse, decide_eq_true_eq, ne_eq]

theorem lastOrigin?_cons (t : Translation) (rest : List Translation) (place : Path) :
    lastOrigin? (t :: rest) place =
      (lastOrigin? rest place).or (if t.place = place then some t.origin else none) := by
  rw [← List.singleton_append, lastOrigin?_append, lastOrigin?_singleton]

/-- The last entry about a part is still the last one about the place that only that part is moved
to. -/
theorem lastOrigin?_filterMap (move : Path → Option Path) (change : Path → Path)
    (entries : List Translation) (place moved : Path)
    (h : ∀ t ∈ entries, move t.place = some moved ↔ t.place = place) :
    lastOrigin? (entries.filterMap fun t => (move t.place).map (⟨change t.origin, ·⟩)) moved =
      (lastOrigin? entries place).map change := by
  induction entries with
  | nil => rfl
  | cons t rest ih =>
    obtain ⟨ht, hrest⟩ := List.forall_mem_cons.mp h
    rw [lastOrigin?_cons, Option.map_or, ← ih hrest]
    cases hmove : move t.place with
    | none =>
      have hne : t.place ≠ place := fun he => by simp [ht.mpr he] at hmove
      simp [hmove, hne]
    | some q =>
      rw [hmove, Option.some.injEq] at ht
      simp only [List.filterMap_cons, hmove, Option.map_some, lastOrigin?_cons, ht]
      split <;> rfl

namespace Journal

/-- Where a part comes from by the last entry about it. -/
def find? (j : Journal) (place : Path) : Option Path := lastOrigin? j.entries place

/-- Whether a part and its origin lie in the two documents. -/
def Fits (j : Journal) (t : Translation) : Prop :=
  t.origin.schema = j.source ∧ t.place.schema = j.target

instance (j : Journal) (t : Translation) : Decidable (j.Fits t) :=
  inferInstanceAs (Decidable (_ ∧ _))

end Journal

mutual

/-- The trails of the nodes of a value that are no nulls. -/
def filledTrails : Json → List Trail
  | .null => []
  | .arr items => [] :: filledItems 0 items
  | .obj members => [] :: filledMembers members
  | _ => [[]]

/-- The trails of the nodes of items that are no nulls. -/
def filledItems : (position : Nat) → List Json → List Trail
  | _, [] => []
  | position, x :: rest =>
    (filledTrails x).map (.index position :: ·) ++ filledItems (position + 1) rest

/-- The trails of the nodes of members that are no nulls. -/
def filledMembers : List (String × Json) → List Trail
  | [] => []
  | (k, x) :: rest => (filledTrails x).map (.key k :: ·) ++ filledMembers rest

end

namespace Journal

/-- Notes several parts, which must lie in the two documents. -/
def note (j : Journal) (added : List Translation) : Journal :=
  { j with entries := j.entries ++ added }

/-- Notes one part, if it and its origin lie in the two documents. -/
def add (j : Journal) (t : Translation) : Journal := if j.Fits t then j.note [t] else j

/-- Notes one origin of several parts, up to the first that does not lie in the document. -/
def addAll (j : Journal) (origin : Path) (places : List Path) : Journal :=
  j.note ((places.map (Translation.mk origin)).takeWhile (j.Fits ·))

/-- Notes one origin of a value and of everything in it that is no null. -/
def addValue (j : Journal) (origin place : Path) (value : Json) : Journal :=
  if j.Fits ⟨origin, place⟩ then
    j.note ((filledTrails value).map fun t => ⟨origin, place.join (.target t)⟩)
  else j

/-- Notes all that another journal about the same documents holds. -/
def merge (j k : Journal) : Journal :=
  if k.source = j.source ∧ k.target = j.target then j.note k.entries else j

/-- Keeps what is below a place, as it is seen from there. -/
def below (j : Journal) (start : Path) : Journal :=
  { j with entries := j.entries.filterMap fun t => (start.below? t.place).map (⟨t.origin, ·⟩) }

/-- Moves both documents below places of others. -/
def under (j : Journal) (origin place : Path) : Journal :=
  ⟨origin.schema, place.schema,
    j.entries.map fun t => ⟨origin.under t.origin, place.under t.place⟩⟩

end Journal

/-! ## Histories -/

/-- How a provenance came to be. -/
inductive History where
  | empty (read made : Schema)
  /-- One part is recorded. -/
  | add (h : History) (t : Translation)
  /-- One origin is recorded for several parts. -/
  | addAll (h : History) (origin : Path) (places : List Path)
  /-- One origin is recorded for a value and all that is in it. -/
  | addValue (h : History) (origin place : Path) (value : Json)
  /-- All that another provenance holds is recorded. -/
  | merge (h other : History)
  /-- Only the parts below a place are kept, as they are seen from there. -/
  | seenFrom (h : History) (start : Path)
  /-- Both documents are moved below places of others. -/
  | moved (h : History) (origin place : Path)

/-- What is there after a call: where it fails, what was there before. -/
def Provenance.after (p : Provenance) : Except WrongSchema Provenance → Provenance
  | .ok q => q
  | .error _ => p

namespace History

/-- What is recorded in the end. -/
def provenance : History → Provenance
  | .empty read made => ⟨read, made, []⟩
  | .add h t => h.provenance.after (h.provenance.addPath t.origin t.place)
  | .addAll h origin places => (h.provenance.addPaths origin places).1
  | .addValue h origin place value =>
    h.provenance.after (h.provenance.addValuePath origin place value)
  | .merge h other => h.provenance.after (h.provenance.mergePath other.provenance)
  | .seenFrom h start => h.provenance.below start
  | .moved h origin place => h.provenance.under origin place

/-- What was recorded, with all that was replaced later. -/
def journal : History → Journal
  | .empty read made => ⟨read, made, []⟩
  | .add h t => h.journal.add t
  | .addAll h origin places => h.journal.addAll origin places
  | .addValue h origin place value => h.journal.addValue origin place value
  | .merge h other => h.journal.merge other.journal
  | .seenFrom h start => h.journal.below start
  | .moved h origin place => h.journal.under origin place

end History

/-! ## What a provenance keeps of its journal -/

namespace Provenance

/-- The parts with their origins, each as a path. -/
def translations (p : Provenance) : List Translation :=
  p.origins.map fun (place, origin) => ⟨⟨p.source, origin⟩, ⟨p.target, place⟩⟩

/-- A provenance is about the documents of a journal, and holds the last entry about every part. -/
structure Reflects (p : Provenance) (j : Journal) : Prop where
  source : p.source = j.source
  target : p.target = j.target
  fits : ∀ t ∈ j.entries, j.Fits t
  sorted : p.origins.Sorted
  findPath? : ∀ place, p.findPath? place = j.find? place

section Reflects

variable {p q : Provenance} {j k : Journal}

theorem findPath?_mk (p : Provenance) (t : Trail) :
    p.findPath? ⟨p.target, t⟩ = (p.find? t).map (⟨p.source, ·⟩) := by
  simp [Provenance.findPath?]

theorem findPath?_of_ne {place : Path} (h : place.schema ≠ p.target) :
    p.findPath? place = none := by
  simp [Provenance.findPath?, h]

theorem findPath?_eq_some {place origin : Path} (h : p.findPath? place = some origin) :
    place.schema = p.target ∧ ∃ t, p.find? place.trail = some t ∧ origin = ⟨p.source, t⟩ := by
  rw [Provenance.findPath?] at h
  split at h
  · next hschema =>
    obtain ⟨t, ht, he⟩ := Option.map_eq_some_iff.mp h
    exact ⟨hschema, t, ht, he.symm⟩
  · cases h

theorem findPath?_add (p : Provenance) (origin place : Trail) (q : Path) :
    (p.add origin place).findPath? q =
      if ⟨p.target, place⟩ = q then some ⟨p.source, origin⟩ else p.findPath? q := by
  obtain ⟨schema, t⟩ := q
  by_cases hschema : schema = p.target
  · subst hschema
    have hp := findPath?_mk (p.add origin place) t
    change (p.add origin place).findPath? ⟨p.target, t⟩ = _ at hp
    rw [hp, findPath?_mk]
    by_cases ht : place = t
    · subst ht
      simp [find?_add]
      rfl
    · simp [ht, find?_add_of_ne (Ne.symm ht)]
      rfl
  · have hne : Path.mk p.target place ≠ ⟨schema, t⟩ := fun he =>
      hschema (congrArg Path.schema he).symm
    rw [if_neg hne, findPath?_of_ne hschema, findPath?_of_ne hschema]

theorem reflects_empty (read made : Schema) : Reflects ⟨read, made, []⟩ ⟨read, made, []⟩ where
  source := rfl
  target := rfl
  fits _ h := absurd h List.not_mem_nil
  sorted := List.Pairwise.nil
  findPath? place := by
    rw [Provenance.findPath?]
    split <;> rfl

/-- One more part is recorded. -/
theorem Reflects.add (h : Reflects p j) {t : Translation} (ht : j.Fits t) :
    Reflects (p.add t.origin.trail t.place.trail) (j.note [t]) where
  source := h.source
  target := h.target
  fits u hu := (List.mem_append.mp hu).elim (h.fits u) fun he => List.mem_singleton.mp he ▸ ht
  sorted := Origins.sorted_insert _ _ h.sorted
  findPath? place := by
    have horigin : (⟨p.source, t.origin.trail⟩ : Path) = t.origin := by rw [h.source, ← ht.1]
    have hplace : (⟨p.target, t.place.trail⟩ : Path) = t.place := by rw [h.target, ← ht.2]
    rw [findPath?_add, horigin, hplace, Journal.find?, Journal.note, lastOrigin?_append,
      lastOrigin?_singleton, h.findPath? place, Journal.find?]
    split <;> simp

theorem note_append (j : Journal) (a b : List Translation) :
    (j.note a).note b = j.note (a ++ b) := by
  simp [Journal.note]

/-- Several parts are recorded, one after the other. -/
theorem Reflects.addEach (h : Reflects p j) (added : List Translation)
    (ht : ∀ t ∈ added, j.Fits t) :
    Reflects (added.foldl (fun p t => p.add t.origin.trail t.place.trail) p) (j.note added) := by
  induction added generalizing p j with
  | nil => simpa [Journal.note] using h
  | cons t rest ih =>
    obtain ⟨hfirst, hrest⟩ := List.forall_mem_cons.mp ht
    have hall := ih (h.add hfirst) fun u hu => hrest u hu
    rwa [note_append] at hall

theorem addPath_eq (p : Provenance) (t : Translation) :
    p.after (p.addPath t.origin t.place) =
      if t.origin.schema = p.source ∧ t.place.schema = p.target then
        p.add t.origin.trail t.place.trail
      else p := by
  by_cases ho : t.origin.schema = p.source <;> by_cases ht : t.place.schema = p.target <;>
    simp [addPath, after, ho, ht]

theorem Reflects.fits_iff (h : Reflects p j) (t : Translation) :
    (t.origin.schema = p.source ∧ t.place.schema = p.target) ↔ j.Fits t := by
  rw [Journal.Fits, h.source, h.target]

theorem Reflects.addPath (h : Reflects p j) (t : Translation) :
    Reflects (p.after (p.addPath t.origin t.place)) (j.add t) := by
  simp only [addPath_eq, h.fits_iff, Journal.add]
  split
  · next ht => exact h.add ht
  · exact h

theorem addPaths_eq (origin : Path) (places : List Path) (p : Provenance) :
    (p.addPaths origin places).1 =
      ((places.map (Translation.mk origin)).takeWhile fun t =>
          decide (t.origin.schema = p.source ∧ t.place.schema = p.target)).foldl
        (fun p t => p.add t.origin.trail t.place.trail) p := by
  induction places generalizing p with
  | nil => rfl
  | cons place rest ih =>
    by_cases ho : origin.schema = p.source <;> by_cases ht : place.schema = p.target <;>
      simp [addPaths, addPath, ho, ht, ih]
    rfl

theorem Reflects.addPaths (h : Reflects p j) (origin : Path) (places : List Path) :
    Reflects (p.addPaths origin places).1 (j.addAll origin places) := by
  simp only [addPaths_eq, h.fits_iff, Journal.addAll]
  exact h.addEach _ fun t ht => of_decide_eq_true (List.all_eq_true.mp List.all_takeWhile t ht)

/-! ### One origin for a value -/

/-- Recording one origin for parts at several trails from a place. -/
def addTrails (p : Provenance) (origin place : Trail) (trails : List Trail) : Provenance :=
  trails.foldl (fun p t => p.add origin (place ++ t)) p

theorem addTrails_append (p : Provenance) (origin place : Trail) (a b : List Trail) :
    p.addTrails origin place (a ++ b) = (p.addTrails origin place a).addTrails origin place b :=
  List.foldl_append

theorem addTrails_map (p : Provenance) (origin place : Trail) (s : Segment) (trails : List Trail) :
    p.addTrails origin place (trails.map (s :: ·)) = p.addTrails origin (place ++ [s]) trails := by
  simp [addTrails, List.foldl_map]

theorem addTrails_cons_nil (p : Provenance) (origin place : Trail) (trails : List Trail) :
    p.addTrails origin place ([] :: trails) =
      (p.add origin place).addTrails origin place trails := by
  simp [addTrails]

mutual

/-- Recording a value records each of its nodes that is no null. -/
theorem addValue_eq (p : Provenance) (origin place : Trail) :
    (x : Json) → p.addValue origin place x = p.addTrails origin place (filledTrails x)
  | .null => rfl
  | .bool _ | .num _ | .str _ => by simp [addValue, filledTrails, addTrails]
  | .arr items => by
    rw [addValue, filledTrails, addTrails_cons_nil, addItems_eq (p.add origin place)]
  | .obj members => by
    rw [addValue, filledTrails, addTrails_cons_nil, addMembers_eq (p.add origin place)]

theorem addItems_eq (p : Provenance) (origin place : Trail) (position : Nat) :
    (items : List Json) →
      p.addItems origin place position items = p.addTrails origin place (filledItems position items)
  | [] => rfl
  | x :: rest => by
    rw [addItems, filledItems, addTrails_append, addTrails_map, addItems_eq,
      addValue_eq p origin (place.index position) x, Trail.index]

theorem addMembers_eq (p : Provenance) (origin place : Trail) :
    (members : List (String × Json)) →
      p.addMembers origin place members = p.addTrails origin place (filledMembers members)
  | [] => rfl
  | (k, x) :: rest => by
    rw [addMembers, filledMembers, addTrails_append, addTrails_map, addMembers_eq,
      addValue_eq p origin (place.key k) x, Trail.key]

end

theorem add_add (p : Provenance) (origin place : Trail) :
    (p.add origin place).add origin place = p.add origin place := by
  simp only [add, Origins.insert_insert]

theorem add_addValue (p : Provenance) (origin place : Trail) {x : Json} (hx : x ≠ .null) :
    (p.add origin place).addValue origin place x = p.addValue origin place x := by
  cases x <;> simp_all [addValue, add_add]

theorem addValuePath_eq (p : Provenance) (origin place : Path) (value : Json) :
    p.after (p.addValuePath origin place value) =
      if origin.schema = p.source ∧ place.schema = p.target then
        p.addTrails origin.trail place.trail (filledTrails value)
      else p := by
  rw [← addValue_eq]
  by_cases hnull : value = .null
  · simp [addValuePath, hnull, after, addValue]
  · by_cases ho : origin.schema = p.source <;> by_cases ht : place.schema = p.target <;>
      simp [addValuePath, addPath, after, Except.map, hnull, ho, ht, add_addValue]

theorem Reflects.addValuePath (h : Reflects p j) (origin place : Path) (value : Json) :
    Reflects (p.after (p.addValuePath origin place value)) (j.addValue origin place value) := by
  have hfits := h.fits_iff ⟨origin, place⟩
  simp only [addValuePath_eq, hfits, Journal.addValue]
  split
  · next ht =>
    have hall := h.addEach ((filledTrails value).map fun t =>
      ⟨origin, place.join (.target t)⟩) (by simpa [Journal.Fits, Path.join] using fun _ _ => ht)
    rwa [List.foldl_map] at hall
  · exact h

/-! ### The origins of another provenance -/

theorem mergePath_eq (p q : Provenance) :
    p.after (p.mergePath q) =
      if q.source = p.source ∧ q.target = p.target then p.merge q else p := by
  cases horigins : q.origins with
  | nil => simp [mergePath, horigins, after, merge]
  | cons e rest =>
    by_cases hs : q.source = p.source <;> by_cases ht : q.target = p.target <;>
      simp [mergePath, horigins, after, hs, ht]

theorem findPath?_merge (hq : q.origins.Sorted) (hs : q.source = p.source)
    (ht : q.target = p.target) (place : Path) :
    (p.merge q).findPath? place = (q.findPath? place).or (p.findPath? place) := by
  have htarget : (p.merge q).target = p.target := rfl
  have hsource : (p.merge q).source = p.source := rfl
  rw [Provenance.findPath?, Provenance.findPath?, Provenance.findPath?, htarget, hsource, ht, hs,
    find?_merge p hq]
  split <;> simp [Option.map_or]

theorem Reflects.merge (h : Reflects p j) (hq : Reflects q k) :
    Reflects (p.after (p.mergePath q)) (j.merge k) := by
  rw [mergePath_eq, h.source, h.target, hq.source, hq.target, Journal.merge]
  split
  · next heq =>
    have hs : q.source = p.source := by rw [hq.source, heq.1, h.source]
    have ht : q.target = p.target := by rw [hq.target, heq.2, h.target]
    refine ⟨h.source, h.target, fun t hmem => ?_, Origins.sorted_insertAll _ h.sorted,
      fun place => ?_⟩
    · rcases List.mem_append.mp hmem with hmem | hmem
      · exact h.fits t hmem
      · simpa [Journal.Fits, Journal.note, heq] using hq.fits t hmem
    · rw [findPath?_merge hq.sorted hs ht, h.findPath?, hq.findPath?]
      exact (lastOrigin?_append j.entries k.entries place).symm
  · exact h

/-! ### Moving documents -/

theorem below?_path_iff {start p q : Path} :
    start.below? p = some q ↔ q.schema = start.schema ∧ p = start.under q := by
  obtain ⟨ps, pt⟩ := p
  obtain ⟨qs, qt⟩ := q
  by_cases hs : ps = start.schema
  · simp only [Path.below?, Path.under, hs, if_true, Option.map_eq_some_iff, below?_eq_some_iff,
      Path.mk.injEq, true_and]
    grind
  · simp only [Path.below?, Path.under, hs, if_false, reduceCtorEq, Path.mk.injEq, false_and,
      and_false]

theorem findPath?_below (p : Provenance) (start place : Path) :
    (p.below start).findPath? place =
      if place.schema = start.schema then p.findPath? (start.under place) else none := by
  have htarget : (p.below start).target = p.target := by rw [below]; split <;> rfl
  have hsource : (p.below start).source = p.source := by rw [below]; split <;> rfl
  by_cases hstart : start.schema = p.target
  · simp only [Provenance.findPath?, htarget, hsource, Path.under, hstart, if_true,
      find?_below p hstart]
  · have hnone : (p.below start).find? place.trail = none := by
      rw [below, if_pos hstart]
      rfl
    simp [Provenance.findPath?, Path.under, hstart, hnone]

/-- Of both documents, only the one that is made is seen from another place. -/
theorem Reflects.below (h : Reflects p j) (start : Path) :
    Reflects (p.below start) (j.below start) := by
  refine ⟨?_, ?_, fun t ht => ?_, ?_, fun place => ?_⟩
  · rw [Provenance.below]
    split <;> exact h.source
  · rw [Provenance.below]
    split <;> exact h.target
  · obtain ⟨u, hu, hmove⟩ := List.mem_filterMap.mp ht
    obtain ⟨q, hq, rfl⟩ := Option.map_eq_some_iff.mp hmove
    obtain ⟨hschema, hplace⟩ := below?_path_iff.mp hq
    have hfits := h.fits u hu
    rw [Journal.Fits, hplace] at hfits
    exact ⟨hfits.1, hschema.trans hfits.2⟩
  · rw [Provenance.below]
    split
    · exact List.Pairwise.nil
    · exact Origins.sorted_below start.trail h.sorted
  · rw [findPath?_below]
    split
    · next hschema =>
      have hlast := lastOrigin?_filterMap start.below? id j.entries (start.under place) place
        fun t _ => by
          rw [below?_path_iff]
          exact and_iff_right hschema
      rw [h.findPath?, Journal.find?, Journal.find?]
      exact (hlast.trans (congrFun Option.map_id _)).symm
    · next hschema =>
      refine (lastOrigin?_eq_none_iff.mpr fun t ht he => ?_).symm
      obtain ⟨u, -, hmove⟩ := List.mem_filterMap.mp ht
      obtain ⟨q, hq, rfl⟩ := Option.map_eq_some_iff.mp hmove
      exact hschema (he ▸ (below?_path_iff.mp hq).1)

theorem findPath?_under (p : Provenance) (origin place q : Path) :
    (p.under origin place).findPath? (place.under q) =
      (p.findPath? ⟨p.target, q.trail⟩).map origin.under := by
  have htarget : (p.under origin place).target = place.schema := rfl
  rw [findPath?_mk, Provenance.findPath?, Path.under, htarget, if_pos rfl, find?_under]
  cases p.find? q.trail <;> rfl

/-- Both documents are moved. -/
theorem Reflects.under (h : Reflects p j) (origin place : Path) :
    Reflects (p.under origin place) (j.under origin place) := by
  refine ⟨rfl, rfl, fun t ht => ?_, Origins.sorted_moved _ _ h.sorted, fun q => ?_⟩
  · obtain ⟨u, -, rfl⟩ := List.mem_map.mp ht
    exact ⟨rfl, rfl⟩
  · by_cases hbelow : ∃ r, place.under r = q
    · obtain ⟨r, rfl⟩ := hbelow
      have hlast := lastOrigin?_filterMap (fun t => some (place.under t)) origin.under j.entries
        ⟨p.target, r.trail⟩ (place.under r) fun t ht => by
          have hschema := (h.fits t ht).2
          rw [← h.target] at hschema
          obtain ⟨_, schema, trail⟩ := t
          simp_all [Path.under]
      rw [findPath?_under, h.findPath?, Journal.find?, Journal.find?, ← hlast]
      simp [Journal.under]
    · have hnone : lastOrigin? (j.under origin place).entries q = none :=
        lastOrigin?_eq_none_iff.mpr fun t ht he => by
          obtain ⟨u, -, rfl⟩ := List.mem_map.mp ht
          exact hbelow ⟨_, he⟩
      rw [Journal.find?, hnone]
      refine Option.eq_none_iff_forall_ne_some.mpr fun o ho => hbelow ?_
      obtain ⟨hschema, u, hu, -⟩ := findPath?_eq_some ho
      obtain ⟨⟨t, v⟩, -, he⟩ := List.mem_map.mp (Origins.mem_of_find? hu)
      exact ⟨⟨p.target, t⟩, Path.mk.injEq .. ▸ ⟨hschema.symm, (Prod.mk.inj he).1⟩⟩

end Reflects

/-- **A provenance reflects its journal**, whatever was done to it and whichever calls failed. -/
theorem reflects_history (h : History) : Reflects h.provenance h.journal := by
  induction h with
  | empty read made => exact reflects_empty read made
  | add h t ih => exact ih.addPath t
  | addAll h origin places ih => exact ih.addPaths origin places
  | addValue h origin place value ih => exact ih.addValuePath origin place value
  | merge h other ih ihOther => exact ih.merge ihOther
  | seenFrom h start ih => exact ih.below start
  | moved h origin place ih => exact ih.under origin place

/-! ## There and back -/

theorem translations_below_under (p : Provenance) (origin place : Path) :
    ((p.under origin place).below place).translations =
      p.translations.map fun t => ⟨origin.under t.origin, ⟨place.schema, t.place.trail⟩⟩ := by
  have htarget : (p.under origin place).target = place.schema := rfl
  rw [below, htarget, if_neg (not_not_intro rfl), translations, translations, under]
  simp [List.filterMap_map, Path.under, Function.comp_def]

theorem translations_under_below (p : Provenance) (start : Path) :
    ((p.below start).under ⟨p.source, []⟩ start).translations =
      p.translations.filter fun t =>
        t.place.schema = start.schema ∧ start.trail <+: t.place.trail := by
  rw [below]
  split
  · next hschema => simp [translations, under, List.filter_map, Ne.symm hschema]
  · next hschema =>
    have hback := Origins.moved_below start.trail p.origins
    have hsame := Decidable.not_not.mp hschema
    simp only [translations, under, List.filter_map, Function.comp_def, hsame, true_and,
      List.map_map, List.nil_append] at hback ⊢
    rw [← hback, List.map_map]
    rfl

/-- **Provenances keep their invariant**, and documents are moved without loss. Whatever was done to
a provenance, and whichever calls failed: it is about the documents of its journal, every part that
it holds lies in the one and its origin in the other, no two of them are the same part, each is
found at its own path, and what is found at a path is the last entry of the journal about it. A
document that is moved below a place, seen from that place, has the parts that it had. And what is
below a place, moved back there, is what a provenance holds below it. -/
theorem keyed_and_moved :
    (∀ h : History, let p := h.provenance
      (p.source, p.target) = (h.journal.source, h.journal.target) ∧
      (∀ t ∈ p.translations, t.origin.schema = p.source ∧ t.place.schema = p.target ∧
        p.findPath? t.place = some t.origin) ∧
      (p.translations.map (·.place)).Nodup ∧
      ∀ place, p.findPath? place = h.journal.find? place) ∧
    (∀ (p : Provenance) (origin place : Path),
      ((p.under origin place).below place).translations =
        p.translations.map fun t => ⟨origin.under t.origin, ⟨place.schema, t.place.trail⟩⟩) ∧
    ∀ (p : Provenance) (start : Path),
      ((p.below start).under ⟨p.source, []⟩ start).translations =
        p.translations.filter fun t =>
          t.place.schema = start.schema ∧ start.trail <+: t.place.trail := by
  refine ⟨fun h => ?_, translations_below_under, translations_under_below⟩
  have hr := reflects_history h
  refine ⟨by rw [hr.source, hr.target], fun t ht => ?_, ?_, hr.findPath?⟩
  · obtain ⟨⟨place, origin⟩, he, rfl⟩ := List.mem_map.mp ht
    refine ⟨rfl, rfl, ?_⟩
    rw [findPath?_mk, find?, (Origins.find?_eq_some_iff hr.sorted.nodup).mpr he, Option.map_some]
  · rw [translations, List.map_map]
    exact List.Pairwise.map _ (fun a b hab he =>
      Trail.ne_of_compare_lt hab (congrArg Path.trail he)) hr.sorted

/-- A document in a wrapper: a part is recorded twice, calls with a path into the wrong document
fail, a value is taken over from another provenance, and what is in the wrapper is looked at from
there. -/
def wrappedHistory : History :=
  let recorded := (History.empty .source .target).add
    ⟨.source [.key "version"], .target [.key "spec", .key "version"]⟩
  let failed := (recorded.add ⟨.target [], .target [.key "kind"]⟩).addAll (.source [.key "header"])
    [.target [.key "spec", .key "version"], .source [], .target [.key "kind"]]
  let storage := (History.empty .source .target).addValue (.source [.key "boot"])
    (.target [.key "spec", .key "disks"]) (.arr [.null, .obj [("device", .str "/dev/vda")]])
  (failed.merge storage).seenFrom (.target [.key "spec"])

/-- The part that was recorded twice is found with its last origin. -/
theorem wrappedHistory_keyed :
    (⟨.source [.key "header"], .target [.key "version"]⟩ : Translation) ∈
        wrappedHistory.provenance.translations ∧
      wrappedHistory.provenance.findPath? (.target [.key "version"]) =
        some (.source [.key "header"]) :=
  have h : (⟨.source [.key "header"], .target [.key "version"]⟩ : Translation) ∈
      wrappedHistory.provenance.translations := by decide
  ⟨h, (keyed_and_moved.1 wrappedHistory).2.1 _ h |>.2.2⟩

end Provenance

end Provision
