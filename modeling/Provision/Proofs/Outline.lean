import Provision.Pattern
import Provision.Proofs.Json.Shape

/-!
# Outlines of trails

What matters for most purposes is which keys a trail has, not which positions. Patterns fit all trails
of one outline, and a shape has the same shape at all of them.

* `Pattern.fits_iff`, `Pattern.fitsStart_iff`: patterns are about outlines.
* `Shape.at?_congr`: so are shapes.
* `Shape.places`, `Shape.outline_mem_places`: a shape has finitely many outlines.
-/

set_option autoImplicit false

namespace Provision

/-- The keys of a trail, with the positions left open. -/
abbrev Outline := List (Option String)

/-- The key of a step, if it is one. -/
def Segment.key? : Segment → Option String
  | .key k => some k
  | .index _ => none

/-- The keys of a trail, with the positions left open. -/
def Trail.outline (t : Trail) : Outline := t.map Segment.key?

namespace Trail

@[simp] theorem outline_nil : outline [] = [] := rfl

@[simp] theorem outline_cons (s : Segment) (t : Trail) : outline (s :: t) = s.key? :: outline t :=
  rfl

@[simp] theorem outline_append (t u : Trail) : outline (t ++ u) = outline t ++ outline u :=
  List.map_append

@[simp] theorem outline_key (t : Trail) (k : String) : (t.key k).outline = t.outline ++ [some k] :=
  outline_append t _

@[simp] theorem outline_index (t : Trail) (i : Nat) : (t.index i).outline = t.outline ++ [none] :=
  outline_append t _

theorem outline_eq_nil {t : Trail} : t.outline = [] ↔ t = [] := List.map_eq_nil_iff

theorem outline_eq_key {t : Trail} {k : String} {o : Outline} :
    t.outline = some k :: o ↔ ∃ u : Trail, t = .key k :: u ∧ u.outline = o := by
  constructor
  · intro h
    obtain ⟨s, u, rfl, hs, hu⟩ := List.map_eq_cons_iff.mp h
    cases s <;> cases hs
    exact ⟨u, rfl, hu⟩
  · rintro ⟨u, rfl, rfl⟩
    rfl

theorem outline_eq_index {t : Trail} {o : Outline} :
    t.outline = none :: o ↔ ∃ (i : Nat) (u : Trail), t = .index i :: u ∧ u.outline = o := by
  constructor
  · intro h
    obtain ⟨s, u, rfl, hs, hu⟩ := List.map_eq_cons_iff.mp h
    cases s <;> cases hs
    exact ⟨_, u, rfl, hu⟩
  · rintro ⟨i, u, rfl, rfl⟩
    rfl

end Trail

/-- Some trail of an outline. -/
def Outline.trail (o : Outline) : Trail := o.map fun
  | some k => .key k
  | none => .index 0

@[simp] theorem Outline.outline_trail (o : Outline) : o.trail.outline = o := by
  induction o with
  | nil => rfl
  | cons step o ih =>
    rw [trail, List.map_cons, Trail.outline_cons, ← trail, ih]
    cases step <;> rfl

@[simp] theorem Segment.key?_key (k : String) : (Segment.key k).key? = some k := rfl

@[simp] theorem Segment.key?_index (i : Nat) : (Segment.index i).key? = none := rfl

namespace Pattern

/-- The keys of a pattern, with the open positions. -/
def outline (p : Pattern) : Outline :=
  p.parts.map fun
    | .key k => some k
    | .anyIndex => none

theorem admits_iff (part : Part) (s : Segment) :
    part.admits s = true ↔ (match part with | .key k => some k | .anyIndex => none) = s.key? := by
  cases part <;> cases s <;> simp [Part.admits]

/-- **A pattern fits the start of a trail exactly if its outline is the start of the trail's.** -/
theorem fitsStart_iff (p : Pattern) (t : Trail) :
    p.fitsStart t = true ↔ p.outline <+: t.outline := by
  obtain ⟨parts⟩ := p
  change fitsStart.go parts t = true ↔ _
  induction parts generalizing t with
  | nil => simp [fitsStart.go, outline]
  | cons part parts ih =>
    cases t with
    | nil => simp [fitsStart.go, outline]
    | cons s t =>
      rw [fitsStart.go, Bool.and_eq_true, admits_iff, ih t]
      exact List.cons_prefix_cons.symm

/-- **A pattern fits the trails of its outline.** -/
theorem fits_iff (p : Pattern) (t : Trail) : p.fits t = true ↔ p.outline = t.outline := by
  have hlength : p.parts.length = t.length ↔ p.outline.length = t.outline.length := by
    rw [outline, Trail.outline, List.length_map, List.length_map]
  rw [fits, Bool.and_eq_true, decide_eq_true_eq, fitsStart_iff, hlength]
  exact ⟨fun ⟨hl, hp⟩ => hp.eq_of_length hl, fun h => h ▸ ⟨rfl, List.prefix_refl _⟩⟩

end Pattern

namespace Shape

theorem child?_congr {s s' : Segment} (h : s.key? = s'.key?) (shape : Shape) :
    shape.child? s = shape.child? s' := by
  cases s <;> cases s' <;> cases h <;> cases shape <;> rfl

/-- Where keys are the same, so are shapes. -/
theorem at?_congr {t u : Trail} (h : t.outline = u.outline) (shape : Shape) :
    shape.at? t = shape.at? u := by
  induction t generalizing u shape with
  | nil =>
    cases u with
    | nil => rfl
    | cons => cases h
  | cons s t ih =>
    cases u with
    | nil => cases h
    | cons s' u =>
      rw [Trail.outline_cons, Trail.outline_cons, List.cons.injEq] at h
      rw [at?_cons, at?_cons, child?_congr h.1]
      cases shape.child? s' with
      | none => rfl
      | some r => exact ih h.2 r

mutual

/-- The outlines of all places of a shape. -/
def places : Shape → List Outline
  | .leaf => [[]]
  | .list s => [] :: (places s).map (none :: ·)
  | .record fields => [] :: placesOfFields fields

/-- The outlines of all places of some fields. -/
def placesOfFields : List (String × Shape) → List Outline
  | [] => []
  | (k, s) :: rest => (places s).map (some k :: ·) ++ placesOfFields rest

end

theorem nil_mem_places (s : Shape) : [] ∈ s.places := by
  cases s <;> exact List.mem_cons_self

theorem mem_placesOfFields {k : String} {fields : List (String × Shape)} {s : Shape} {o : Outline}
    (hs : fields.lookup k = some s) (ho : o ∈ s.places) : some k :: o ∈ placesOfFields fields := by
  induction fields with
  | nil => cases hs
  | cons e rest ih =>
    obtain ⟨m, r⟩ := e
    rw [placesOfFields, List.mem_append]
    rw [List.lookup_cons] at hs
    split at hs
    · next he =>
      cases hs
      cases eq_of_beq he
      exact .inl (List.mem_map_of_mem ho)
    · exact .inr (ih hs)

/-- **Whatever leads to something in a shape has the outline of one of its places.** -/
theorem outline_mem_places {t : Trail} {s r : Shape} (h : s.at? t = some r) :
    t.outline ∈ s.places := by
  induction t generalizing s with
  | nil => exact nil_mem_places s
  | cons step t ih =>
    obtain ⟨c, hc, hcr⟩ := Option.bind_eq_some_iff.mp h
    cases s with
    | leaf => cases step <;> cases hc
    | list s =>
      cases step with
      | key => cases hc
      | index =>
        cases hc
        exact List.mem_cons_of_mem _ (List.mem_map_of_mem (ih hcr))
    | record fields =>
      cases step with
      | index => cases hc
      | key l => exact List.mem_cons_of_mem _ (mem_placesOfFields hc (ih hcr))

end Shape

end Provision
