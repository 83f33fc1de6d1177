import Provision.Proofs.Source.Files
import Provision.Proofs.Translator.Origins

/-!
# What is made of the units of a config

Each unit of the shared sections becomes a unit of the document, at the same position. Its contents
are known to come from somewhere, also those that are read from a file in which there is nothing.

* `isSome_contents`: the contents of a unit have an origin.
-/

set_option autoImplicit false

namespace Provision.Source

open Translator (content)

variable {w : Workspace} {c : Config} {i : Nat} {u : Unit}

/-- The place of a unit, before and after. -/
def unitTrail (i : Nat) : Trail := [.key "systemd", .key "units", .index i]

/-- What has an origin in a member of the shared sections has one in the whole. -/
theorem Leads.isSome {t place q : Trail} {k n : String} {x y : Json} (h : Leads x t k n y)
    (hq : (((translator w).translateAt (t.key k) (place.key n) y).provenance.find? q).isSome =
      true) : (((translator w).walk t place x).provenance.find? q).isSome = true := by
  obtain ⟨members, rfl, hk, -, -⟩ := h.eq_obj
  rw [← nameOf_of_lookup w h.name] at hq
  exact Translator.isSome_member hk (isSkipped_eq_false h.kept) hq

/-! ## Units -/

theorem leads_systemd (c : Config) :
    Leads (Config.codec.write c) [] "systemd" "systemd" (Systemd.codec.write c.systemd) where
  eq_obj := ⟨_, rfl, rfl,
    (by decide : ["ignition", "kernel_arguments", "passwd", "storage", "systemd"].Nodup),
    (by decide : ∀ l ∈ ["ignition", "kernel_arguments", "passwd", "storage", "systemd"],
      (names.lookup l).isSome = true)⟩
  name := rfl
  kept := by decide

theorem leads_units (s : Systemd) : Leads (Systemd.codec.write s) [.key "systemd"] "units" "units"
    ((Decode.Codec.list Unit.codec).write s.units) where
  eq_obj := ⟨_, rfl, rfl, (by decide : ["units"].Nodup),
    (by decide : ∀ l ∈ ["units"], (names.lookup l).isSome = true)⟩
  name := rfl
  kept := by decide

theorem leads_unitContents (i : Nat) (u : Unit) : Leads (Unit.codec.write u) (unitTrail i)
    "contents" "contents" ((u.contents.map Json.str).getD .null) where
  eq_obj := ⟨_, rfl, rfl,
    (by decide : ["name", "enabled", "mask", "contents", "contents_local", "dropins"].Nodup),
    (by decide : ∀ l ∈ ["name", "enabled", "mask", "contents", "contents_local", "dropins"],
      (names.lookup l).isSome = true)⟩
  name := rfl
  kept := (by decide :
    [some "systemd", some "units", none, some "contents"] ∉ skippedPlaces)

/-- Units have the rule for units. -/
theorem translateAt_unit (place : Trail) (x : Json) :
    (translator w).translateAt (unitTrail i) place x =
      unitRule w ((translator w).walk (unitTrail i) place x) x (unitTrail i) place := by
  rw [Translator.translateAt_eq]
  rfl

/-- The units of the document are what is made of the units of the config, and what has an origin
there has one in the document. -/
theorem walked_units (w : Workspace) (c : Config) :
    let units := (translator w).walk [.key "systemd", .key "units"] [.key "systemd", .key "units"]
      (.arr (c.systemd.units.map Unit.codec.write))
    ((walked w c).value.get? "systemd").bind (·.get? "units") = units.value ∧
      ∀ q, (units.provenance.find? q).isSome = true →
        ((walked w c).provenance.find? q).isSome = true := by
  intro units
  refine ⟨(walked_list (leads_systemd c) (leads_units c.systemd) (by decide) (by decide)).1,
    fun q hq => ?_⟩
  rw [walked_eq_walk, Translated.provenance_map]
  refine @Leads.isSome w [] [] q _ _ _ _ (leads_systemd c) ?_
  rw [translateAt_of_rule (by decide)]
  refine @Leads.isSome w [.key "systemd"] [.key "systemd"] q _ _ _ _ (leads_units c.systemd) ?_
  rw [translateAt_of_rule (by decide)]
  exact hq

/-- The contents of a unit have content, or an origin. -/
theorem contents_unit (w : Workspace) (i : Nat) (u : Unit) {x : Json}
    (hx : ((translator w).translateAt (unitTrail i) (unitTrail i) (Unit.codec.write u)).value.bind
      (·.get? "contents") = some x) :
    x.isEmpty = false ∨ (((translator w).translateAt (unitTrail i) (unitTrail i)
      (Unit.codec.write u)).provenance.find? ((unitTrail i).key "contents")).isSome = true := by
  have hwalked : ∀ x, ((translator w).walk (unitTrail i) (unitTrail i)
      (Unit.codec.write u)).value.bind (·.get? "contents") = some x → x.isEmpty = false := by
    intro x hx
    rw [(@Leads.made w (unitTrail i) (unitTrail i) _ _ _ _ (leads_unitContents i u)).1, content,
      Option.filter_eq_some_iff] at hx
    simpa using hx.2
  rw [translateAt_unit] at hx ⊢
  revert hx
  rw [unitRule]
  split
  · exact fun hx => .inl (hwalked x hx)
  dsimp only
  split
  · exact fun hx => .inl (hwalked x hx)
  split
  · refine fun _ => .inr ?_
    -- The contents are read from a file, which is their origin.
    have hplace := @Provenance.grows_add (fun _ => True) (unitTrail i) trivial
      (Provenance.add ((translator w).walk (unitTrail i) (unitTrail i)
        (Unit.codec.write u)).provenance ((unitTrail i).key "contents_local")
          ((unitTrail i).key "contents")) (unitTrail i)
    refine hplace.isSome _ ?_
    rw [Provenance.find?_add]
    rfl
  · exact fun hx => .inl (hwalked x hx)

/-- **The contents of a unit have an origin**, even if there is nothing in them. -/
theorem isSome_contents (w : Workspace) (c : Config) {x : Json}
    (hx : (walked w c).value.at? ((unitTrail i).key "contents") = some x) :
    ((walked w c).provenance.find? ((unitTrail i).key "contents")).isSome = true := by
  obtain ⟨hvalue, horigins⟩ := walked_units w c
  obtain ⟨systemd, hs, hx'⟩ := Option.bind_eq_some_iff.mp hx
  obtain ⟨list, hl, hx'⟩ := Option.bind_eq_some_iff.mp hx'
  obtain ⟨unit, hu, hx'⟩ := Option.bind_eq_some_iff.mp hx'
  obtain ⟨y, hy, hyx⟩ := Option.bind_eq_some_iff.mp hx'
  cases hyx
  -- The unit is made of the unit at its position.
  have hs : (walked w c).value.get? "systemd" = some systemd := hs
  have hl : systemd.get? "units" = some list := hl
  rw [hs, Option.bind_some, hl] at hvalue
  have hitem := @Translator.getElem?_walk (translator w) [.key "systemd", .key "units"]
    [.key "systemd", .key "units"] (c.systemd.units.map Unit.codec.write) i
  rw [← hvalue] at hitem
  have hunit : (((Option.some list).bind Json.items?).getD [])[i]? = some unit := by
    cases list <;> exact hu
  rw [hunit, List.getElem?_map] at hitem
  obtain ⟨made, hmade, heq⟩ := Option.map_eq_some_iff.mp hitem.symm
  obtain ⟨u, hmem, rfl⟩ := Option.map_eq_some_iff.mp hmade
  have hcontents : ((translator w).translateAt (unitTrail i) (unitTrail i)
      (Unit.codec.write u)).value.bind (·.get? "contents") = some x := by
    have hget : unit.get? "contents" = some x := hy
    rw [← heq] at hget
    exact (get?_getD _ _).symm.trans hget
  rcases contents_unit w i u hcontents with hne | hsome
  · -- What has content has an origin in any case.
    have h := @traced_translate (fun _ => True) (fun _ => False) w c (fun _ _ _ => trivial)
      (fun _ h => h.elim) fun _ _ _ _ h => h
    rw [value_walked] at hx
    rw [provenance_walked]
    have hcovered := h.covers _ x hx hne
    rw [List.nil_append] at hcovered
    exact hcovered.resolve_left (List.append_ne_nil_of_right_ne_nil _ (List.cons_ne_nil _ _))
  · refine horigins _ (Translator.isSome_item (i := i) ?_ hsome)
    rw [List.getElem?_map, hmem]
    rfl

end Provision.Source
