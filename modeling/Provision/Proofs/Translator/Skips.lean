import Provision.Proofs.Outline
import Provision.Proofs.Translator.Walk

/-!
# What a translation leaves out

Members are left out where a pattern fits. Nothing that is made comes from them then: no part has
its origin there, each part is made of one that stands elsewhere, and the same is made of a document
that does not have those members at all. Only members are looked at, though, so a pattern of items
leaves nothing out.

* `Pattern.Spares`: a trail neither fits a pattern nor is below one that does.
* `Json.without`: a document without the members that a pattern fits.
* `Translator.origins_translateAt`: what holds of all trails that are walked holds of all origins.
* `Translator.translate_without`: nothing is made of what a pattern of members fits.
-/

set_option autoImplicit false

namespace Provision

namespace Pattern

/-- A pattern spares a trail if it fits neither the trail nor any trail on the way to it. -/
def Spares (p : Pattern) (u : Trail) : Prop := ∀ v, v <+: u → p.fits v = false

section Spares

variable {p : Pattern} {u : Trail} {name : String}

theorem fits_concat {s : Segment} (h : p.parts.getLast? = some (.key name))
    (hp : p.fits (u ++ [s]) = true) : s = .key name := by
  rw [fits_iff, Trail.outline_append] at hp
  have hlast : p.outline.getLast? = some (some name) := by
    rw [outline, List.getLast?_map, h]
    rfl
  rw [hp, Trail.outline_cons, Trail.outline_nil, List.getLast?_concat] at hlast
  cases s with
  | key k =>
    cases hlast
    rfl
  | index => cases hlast

theorem spares_nil (h : p.parts.getLast? = some (.key name)) : p.Spares [] := by
  intro v hv
  rw [List.prefix_nil] at hv
  subst hv
  refine Bool.eq_false_iff.mpr fun hfits => ?_
  rw [fits_iff, Trail.outline_nil, outline, List.map_eq_nil_iff] at hfits
  rw [hfits] at h
  cases h

theorem Spares.concat {s : Segment} (h : p.Spares u) (hs : p.fits (u ++ [s]) = false) :
    p.Spares (u ++ [s]) := by
  intro v hv
  rcases List.prefix_concat_iff.mp hv with rfl | hv
  · exact hs
  · exact h v hv

/-- A pattern of members fits no item. -/
theorem Spares.index (h : p.Spares u) (hp : p.parts.getLast? = some (.key name)) (i : Nat) :
    p.Spares (u.index i) :=
  h.concat (Bool.eq_false_iff.mpr fun hfits => nomatch fits_concat hp hfits)

end Spares

end Pattern

namespace Json

mutual

/-- A part of a document without the members that a pattern fits. -/
def without (p : Pattern) (origin : Trail) : Json → Json
  | .arr items => .arr (withoutItems p origin 0 items)
  | .obj members => .obj (withoutMembers p origin members)
  | x => x

/-- Items, each without those members. -/
def withoutItems (p : Pattern) (origin : Trail) : (position : Nat) → List Json → List Json
  | _, [] => []
  | position, x :: rest =>
    without p (origin.index position) x :: withoutItems p origin (position + 1) rest

/-- The members that the pattern does not fit, each without those in it. -/
def withoutMembers (p : Pattern) (origin : Trail) : List (String × Json) → List (String × Json)
  | [] => []
  | (k, x) :: rest =>
    if p.fits (origin.key k) then withoutMembers p origin rest
    else (k, without p (origin.key k) x) :: withoutMembers p origin rest

end

end Json

namespace Translator

variable {t : Translator}

/-! ## The origins that are recorded -/

section Origins

variable {P : Trail → Prop} {origin : Trail}

theorem origins_written {place : Trail} {r : Translated Json} (ho : P origin)
    (h : ∀ e ∈ r.provenance.origins, P e.2) :
    ∀ e ∈ (written origin place r).provenance.origins, P e.2 := by
  rw [written]
  split
  · exact h
  · dsimp only
    split
    · exact h
    · intro e he
      rcases Origins.mem_insert he with rfl | he
      · exact ho
      · exact h e he

theorem origins_merge {p q : Provenance} (hp : ∀ e ∈ p.origins, P e.2)
    (hq : ∀ e ∈ q.origins, P e.2) : ∀ e ∈ (p.merge q).origins, P e.2 := fun e he => by
  rcases Origins.mem_insertAll he with he | he
  · exact hq e he
  · exact hp e he

/-- A property of trails is passed on to all trails that are walked below one that has it. -/
structure Passes (t : Translator) (P : Trail → Prop) : Prop where
  item : ∀ o i, P o → P (Trail.index o i)
  member : ∀ o k, P o → t.isSkipped (Trail.key o k) = false → P (o.key k)

mutual

/-- **What holds of all trails that are walked holds of all origins that are recorded.** -/
theorem origins_translateAt (h : t.rules = []) (hp : t.Passes P) {origin : Trail} (place : Trail)
    (ho : P origin) : (x : Json) → ∀ e ∈ (t.translateAt origin place x).provenance.origins, P e.2
  | .arr items => by
    rw [translateAt_of_rules h, walk]
    exact origins_written ho (origins_walkItems h hp place ho 0 items)
  | .obj members => by
    rw [translateAt_of_rules h, walk]
    exact origins_written ho (origins_walkMembers h hp place ho members (List.forall_mem_nil _))
  | .null | .bool _ | .num _ | .str _ => by
    rw [translateAt_of_rules h]
    exact origins_written ho (List.forall_mem_nil _)

theorem origins_walkItems (h : t.rules = []) (hp : t.Passes P) {origin : Trail} (place : Trail)
    (ho : P origin) : (position : Nat) → (items : List Json) →
      ∀ e ∈ (t.walkItems origin place position items).provenance.origins, P e.2
  | _, [] => by
    rw [walkItems]
    exact List.forall_mem_nil _
  | position, x :: rest => by
    rw [walkItems]
    exact origins_merge (origins_translateAt h hp _ (hp.item origin position ho) x)
      (origins_walkItems h hp place ho (position + 1) rest)

theorem origins_walkMembers (h : t.rules = []) (hp : t.Passes P) {origin : Trail} (place : Trail)
    (ho : P origin) : (members : List (String × Json)) →
      {done : Translated (List (String × Json))} → (∀ e ∈ done.provenance.origins, P e.2) →
        ∀ e ∈ (t.walkMembers origin place members done).provenance.origins, P e.2
  | [], _, hdone => by
    rw [walkMembers]
    exact hdone
  | (k, x) :: rest, done, hdone => by
    cases hs : t.isSkipped (origin.key k) with
    | true =>
      rw [walkMembers, if_pos hs]
      exact origins_walkMembers h hp place ho rest hdone
    | false =>
      rw [walkMembers_cons hs]
      exact origins_walkMembers h hp place ho rest
        (origins_merge hdone (origins_translateAt h hp _ (hp.member origin k ho hs) x))

end

end Origins

/-! ## Documents without the members that are left out -/

section Without

variable {p : Pattern}

/-- What stands for a part does not change with the members that are left out. -/
theorem made_without (h : t.rules = []) (p : Pattern) (origin place : Trail) (x : Json) :
    made (x.without p origin) (t.translateAt origin place x) =
      made x (t.translateAt origin place x) := by
  cases hv : (t.translateAt origin place x).value with
  | some v => rw [made, made, hv]; rfl
  | none =>
    have hc : t.hasContent origin x = false := by
      rw [← isSome_translateAt h origin place, hv]
      rfl
    rw [made, made, hv]
    cases x with
    | arr items =>
      rw [hasContent, Bool.not_eq_false'] at hc
      cases List.isEmpty_iff.mp hc
      rfl
    | _ => rfl

mutual

/-- **The same is made of a part without the members that are left out.** -/
theorem translateAt_without (h : t.rules = []) (hp : p ∈ t.skips) (origin place : Trail) :
    (x : Json) → t.translateAt origin place (x.without p origin) = t.translateAt origin place x
  | .arr items => by
    rw [Json.without, translateAt_of_rules h, translateAt_of_rules h, walk, walk,
      walkItems_without h hp origin place 0 items]
  | .obj members => by
    rw [Json.without, translateAt_of_rules h, translateAt_of_rules h, walk, walk,
      walkMembers_without h hp origin place members]
  | .null | .bool _ | .num _ | .str _ => rfl

theorem walkItems_without (h : t.rules = []) (hp : p ∈ t.skips) (origin place : Trail) :
    (position : Nat) → (items : List Json) →
      t.walkItems origin place position (Json.withoutItems p origin position items) =
        t.walkItems origin place position items
  | _, [] => by rw [Json.withoutItems]
  | position, x :: rest => by
    have hmade := made_without h p (origin.index position) (place.index position) x
    rw [made, made] at hmade
    rw [Json.withoutItems, walkItems, walkItems, translateAt_without h hp, hmade,
      walkItems_without h hp origin place (position + 1) rest]

theorem walkMembers_without (h : t.rules = []) (hp : p ∈ t.skips) (origin place : Trail) :
    (members : List (String × Json)) → (done : Translated (List (String × Json))) →
      t.walkMembers origin place (Json.withoutMembers p origin members) done =
        t.walkMembers origin place members done
  | [], _ => by rw [Json.withoutMembers]
  | (k, x) :: rest, done => by
    rw [Json.withoutMembers]
    split
    · next hfits =>
      have hs : t.isSkipped (origin.key k) = true := List.any_eq_true.mpr ⟨p, hp, hfits⟩
      rw [walkMembers_without h hp origin place rest, walkMembers, if_pos hs]
    · cases hs : t.isSkipped (origin.key k) with
      | true =>
        rw [walkMembers, if_pos hs, walkMembers, if_pos hs,
          walkMembers_without h hp origin place rest]
      | false =>
        rw [walkMembers_cons hs, walkMembers_cons hs, translateAt_without h hp,
          walkMembers_without h hp origin place rest]

end

end Without

/-! ## Documents -/

section Documents

variable {p : Pattern} {name : String}

/-- What is walked is spared by a pattern of members that are left out. -/
theorem passes_spares (hp : p ∈ t.skips) (hlast : p.parts.getLast? = some (.key name)) :
    t.Passes p.Spares where
  item _ i h := h.index hlast i
  member o k h hs := by
    refine h.concat (Bool.eq_false_iff.mpr fun hfits => ?_)
    have hskip : t.isSkipped (o.key k) = true := List.any_eq_true.mpr ⟨p, hp, hfits⟩
    rw [hs] at hskip
    cases hskip

/-- What no member that is left out leads to is spared. -/
theorem spares_of_isKept (hp : p ∈ t.skips) (hlast : p.parts.getLast? = some (.key name))
    {origin u : Trail} (ho : p.Spares origin) (hu : t.isKept origin u = true) :
    p.Spares (origin ++ u) := by
  have hpasses := passes_spares hp hlast
  induction u generalizing origin with
  | nil => rwa [List.append_nil]
  | cons s u ih =>
    rw [isKept, Bool.and_eq_true] at hu
    rw [List.append_cons]
    refine ih ?_ hu.2
    cases s with
    | index i => exact hpasses.item origin i ho
    | key k => exact hpasses.member origin k ho ((Bool.not_eq_true' _).mp hu.1)

/-- **Nothing is made of what a pattern of members fits.** Let such a pattern be among those that
are left out, and let no rules interfere. Then neither an origin that is recorded nor anything on
the way to it fits the pattern; every part of what is made is made of a node that stands under its old
names and is spared as well, and is that node if it is a scalar; and the same is made, with the same
origins, of the document without the members that the pattern fits. -/
theorem translate_without (h : t.rules = []) (hp : p ∈ t.skips)
    (hlast : p.parts.getLast? = some (.key name)) (x : Json) :
    (∀ q o, (t.translate x).provenance.find? q = some o → p.Spares o) ∧
      (x.isDistinct = true → ∀ q y, (t.translate x).value.bind (·.at? q) = some y →
        ∃ u z, x.at? u = some z ∧ p.Spares u ∧ t.rename u = q ∧ (y.isScalar = true → y = z)) ∧
      t.translate (x.without p []) = t.translate x := by
  refine ⟨fun q o ho => ?_, fun hx q y hy => ?_, translateAt_without h hp [] [] x⟩
  · exact origins_translateAt h (passes_spares hp hlast) [] (Pattern.spares_nil hlast) x (q, o)
      (Origins.mem_of_find? ho)
  · obtain ⟨u, z, hz, hkept, hq, rfl⟩ := exists_at?_of_made h hx (at?_made_of_value hy)
    refine ⟨u, z, hz, ?_, hq, fun hs => made_of_isScalar h _ _ (.inr hs)⟩
    exact spares_of_isKept hp hlast (Pattern.spares_nil hlast) hkept

/-- Leaves out the size of every disk, and every name in a list. -/
def starring : Translator where
  skips := [.ofText "disks.*.size", .ofText "names.*"]

/-- A document with a disk and a name. -/
def starred : Json := .obj
  [("disks", .arr [.obj [("device", .str "/dev/vda"), ("size", .num (.int 1))]]),
    ("names", .arr [.str "old"])]

theorem starred_without :
    Pattern.ofText "disks.*.size" ∈ starring.skips ∧
      (Pattern.ofText "disks.*.size").Spares [.key "disks", .index 0, .key "device"] ∧
      starring.translate (starred.without (.ofText "disks.*.size") []) =
        starring.translate starred := by
  have hwithout := @translate_without starring (.ofText "disks.*.size") "size" rfl (by decide)
    (by decide) starred
  refine ⟨by decide, hwithout.1 [.key "disks", .index 0, .key "device"] _ ?_, hwithout.2.2⟩
  decide

/-- **A pattern of items leaves nothing out.** The name that it fits is copied, and traced to where
it stood. -/
theorem starred_copied :
    Pattern.ofText "names.*" ∈ starring.skips ∧
      (Pattern.ofText "names.*").fits [.key "names", .index 0] = true ∧
      (starring.translate starred).value.bind (·.at? [.key "names", .index 0]) =
        some (.str "old") ∧
      (starring.translate starred).provenance.find? [.key "names", .index 0] =
        some [.key "names", .index 0] := by
  decide

end Documents

end Translator

end Provision
