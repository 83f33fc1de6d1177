import Provision.Json.Basic
import Provision.Report

/-!
# Where the parts of a document come from

For each part of the document that is made, the part of another document that it was made from.
Paths must point into the documents that a provenance is about.

* `Origins.find?_insert`, `Origins.find?_insert_of_ne`: what recording an origin does to look-ups.
* `Provenance.missing`: the parts of a document without an origin.
-/

set_option autoImplicit false

namespace Provision

theorem Segment.compare_eq_iff (a b : Segment) : a.compare b = .eq ↔ a = b := by
  cases a <;> cases b <;> simp only [Segment.compare]
  · split
    · next h => simp only [reduceCtorEq, Segment.key.injEq, false_iff]; rintro rfl
                exact absurd h (String.lt_irrefl _)
    · split <;> simp_all
  · simp
  · simp
  · split
    · next h => simp only [reduceCtorEq, Segment.index.injEq, false_iff]; omega
    · split <;> simp_all

theorem Trail.compare_eq_iff (a b : Trail) : a.compare b = .eq ↔ a = b := by
  induction a generalizing b with
  | nil => cases b <;> simp [Trail.compare]
  | cons x xs ih =>
    cases b with
    | nil => simp [Trail.compare]
    | cons y ys =>
      simp only [Trail.compare, List.cons.injEq, ← ih, ← Segment.compare_eq_iff]
      cases x.compare y <;> simp [Ordering.then]

/-- Origins in the order of the trails they belong to. -/
abbrev Origins := List (Trail × Trail)

namespace Origins

/-- Records that the part at `place` comes from `origin`, instead of what was recorded before. -/
def insert (place origin : Trail) : Origins → Origins
  | [] => [(place, origin)]
  | (t, o) :: rest => match place.compare t with
    | .lt => (place, origin) :: (t, o) :: rest
    | .eq => (place, origin) :: rest
    | .gt => (t, o) :: insert place origin rest

/-- Where the part at a trail comes from. -/
def find? (place : Trail) (o : Origins) : Option Trail := o.lookup place

@[simp] theorem find?_insert (place origin : Trail) (o : Origins) :
    find? place (insert place origin o) = some origin := by
  induction o with
  | nil => simp [insert, find?]
  | cons e rest ih =>
    obtain ⟨t, x⟩ := e
    simp only [insert]
    split
    · simp [find?]
    · simp [find?]
    · next h =>
      have hne : (place == t) = false := by
        rw [beq_eq_false_iff_ne]
        intro he
        rw [(Trail.compare_eq_iff place t).mpr he] at h
        cases h
      simpa [find?, List.lookup_cons, hne] using ih

theorem find?_insert_of_ne {place other : Trail} (h : other ≠ place) (origin : Trail)
    (o : Origins) :
    find? other (insert place origin o) = find? other o := by
  have hne : (other == place) = false := beq_eq_false_iff_ne.mpr h
  induction o with
  | nil => simp [insert, find?, List.lookup_cons, hne]
  | cons e rest ih =>
    obtain ⟨t, x⟩ := e
    simp only [insert]
    split
    · simp [find?, List.lookup_cons, hne]
    · next he =>
      have het := (Trail.compare_eq_iff place t).mp he
      subst het
      simp [find?, List.lookup_cons, hne]
    · simp only [find?, List.lookup_cons] at ih ⊢
      rw [ih]

end Origins

/-- The origins of the parts of one document in another. -/
structure Provenance where
  source : Schema := .source
  target : Schema := .target
  origins : Origins := []
  deriving DecidableEq, Repr, Inhabited

/-- A path into a document that a provenance is not about. -/
inductive WrongSchema where
  | origin (path : Path)
  | part (path : Path)
  deriving DecidableEq, Repr

/-- The words for it. -/
def WrongSchema.message : WrongSchema → String
  | .origin path => "translation source " ++ path.text ++ " has the wrong schema"
  | .part path => "translation target " ++ path.text ++ " has the wrong schema"

namespace Provenance

/-- Records that the part at `place` comes from `origin`. -/
def add (p : Provenance) (origin place : Trail) : Provenance :=
  { p with origins := p.origins.insert place origin }

/-- Records an origin, given by paths, if these point into the right documents. -/
def addPath (p : Provenance) (origin place : Path) : Except WrongSchema Provenance :=
  if origin.schema ≠ p.source then .error (.origin origin)
  else if place.schema ≠ p.target then .error (.part place)
  else .ok (p.add origin.trail place.trail)

/-- Records one origin for several parts, up to the first wrong path. -/
def addPaths (p : Provenance) (origin : Path) : List Path → Provenance × Option WrongSchema
  | [] => (p, none)
  | place :: rest => match p.addPath origin place with
    | .ok p => addPaths p origin rest
    | .error e => (p, some e)

mutual

/-- Records one origin for a value and everything in it but nulls. -/
def addValue (p : Provenance) (origin place : Trail) : Json → Provenance
  | .null => p
  | .arr items => addItems (p.add origin place) origin place 0 items
  | .obj members => addMembers (p.add origin place) origin place members
  | _ => p.add origin place

/-- Records one origin for items. -/
def addItems (p : Provenance) (origin place : Trail) : (position : Nat) → List Json → Provenance
  | _, [] => p
  | position, x :: rest =>
    addItems (addValue p origin (place.index position) x) origin place (position + 1) rest

/-- Records one origin for members. -/
def addMembers (p : Provenance) (origin place : Trail) : List (String × Json) → Provenance
  | [] => p
  | (k, x) :: rest => addMembers (addValue p origin (place.key k) x) origin place rest

end

/-- Records one origin for a value and everything in it, given by paths. -/
def addValuePath (p : Provenance) (origin place : Path) (value : Json) :
    Except WrongSchema Provenance :=
  if value = .null then .ok p
  else (p.addPath origin place).map fun p => p.addValue origin.trail place.trail value

/-- Records all origins of another provenance over those that are there. -/
def merge (p q : Provenance) : Provenance :=
  { p with origins := q.origins.foldl (fun o e => o.insert e.1 e.2) p.origins }

/-- Records all origins of another provenance if it is about the same documents. -/
def mergePath (p q : Provenance) : Except WrongSchema Provenance :=
  match q.origins with
  | [] => .ok p
  | (place, origin) :: _ =>
    if q.source ≠ p.source then .error (.origin ⟨q.source, origin⟩)
    else if q.target ≠ p.target then .error (.part ⟨q.target, place⟩)
    else .ok (p.merge q)

/-- The origins of the parts below a path, seen from there. -/
def below (p : Provenance) (start : Path) : Provenance :=
  if start.schema ≠ p.target then { p with origins := [] }
  else
    { p with
      origins := p.origins.filterMap fun (place, o) => (start.trail.below? place).map (·, o) }

/-- Both documents moved below paths into others. -/
def under (p : Provenance) (origin place : Path) : Provenance :=
  ⟨origin.schema, place.schema, p.origins.map fun (t, o) => (place.trail ++ t, origin.trail ++ o)⟩

/-- Where the part at a trail comes from. -/
def find? (p : Provenance) (place : Trail) : Option Trail := p.origins.find? place

/-- Where the part at a path comes from. -/
def findPath? (p : Provenance) (place : Path) : Option Path :=
  if place.schema = p.target then (p.find? place.trail).map (⟨p.source, ·⟩) else none

/-- A trail if it has no origin. The root needs none. -/
def unknown (p : Provenance) (t : Trail) : List Trail :=
  if t.isEmpty || (p.find? t).isSome then [] else [t]

mutual

/-- The parts of a value at a trail that have content but no origin. -/
def missingAt (p : Provenance) (here : Trail) : Json → List Trail
  | .null => []
  | .arr items => if items.isEmpty then [] else p.unknown here ++ missingItems p here 0 items
  | .obj members => if members.isEmpty then [] else p.unknown here ++ missingMembers p here members
  | .str s => if s.isEmpty then [] else p.unknown here
  | _ => p.unknown here

/-- The parts of items without an origin. -/
def missingItems (p : Provenance) (here : Trail) : (position : Nat) → List Json → List Trail
  | _, [] => []
  | position, x :: rest =>
    missingAt p (here.index position) x ++ missingItems p here (position + 1) rest

/-- The parts of members without an origin. -/
def missingMembers (p : Provenance) (here : Trail) : List (String × Json) → List Trail
  | [] => []
  | (k, x) :: rest => missingAt p (here.key k) x ++ missingMembers p here rest

end

/-- The parts of a document that have content but no origin, in the order of the document. -/
def missing (p : Provenance) (value : Json) : List Trail := p.missingAt [] value

/-- The origins as lines of text. -/
def text (p : Provenance) : String :=
  "from " ++ p.source.text ++ " to " ++ p.target.text ++ "\n" ++
    String.join (p.origins.map fun (place, o) => "  " ++ o.text ++ " -> " ++ place.text ++ "\n")

end Provenance

namespace Report

/-- Moves each entry about the document that is made to where that part comes from, if it is
known. -/
def traced (r : Report) (p : Provenance) : Report :=
  r.map fun e => match e.path.schema with
    | .source => e
    | .target => match p.findPath? e.path with
      | some origin => { e with path := origin }
      | none => e

end Report

/-- A value with the origins of its parts and what was found on the way. -/
structure Translated (α : Type) where
  value : α
  provenance : Provenance := {}
  report : Report := []
  deriving DecidableEq, Repr, Inhabited

namespace Translated

/-- Changes the value alone. -/
def map {α β : Type} (f : α → β) (t : Translated α) : Translated β :=
  ⟨f t.value, t.provenance, t.report⟩

end Translated

end Provision
