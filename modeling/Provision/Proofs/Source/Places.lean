import Provision.Proofs.Source.Files
import Provision.Proofs.Source.Units
import Provision.Proofs.Translator.Reached

/-!
# Places of the shared sections

Contents that are embedded are at six kinds of places, and texts of units at two. Each place is given
by its kind and some positions; what is there, and what trail leads there, follows from that. All
rules keep to the places that they are for, and no two keys of a config share a new name. So what is
made at a place depends on what is there alone, as long as no rule is met on the way.

* `Slot`, `Slot.trail`, `Slot.get?`: the places of contents; `Fragment`: those of texts of units.
* `at?_slot`, `at?_fragment`: what is there is what the trail leads to.
* `exists_slot`, `exists_fragment`: all trails of these outlines lead to such places.
* `confines`: rules record origins for their own places.
* `isApart_write`: the keys of a config differ in their new names.
* `isKept_of_outline`, `free_of_outline`: what is met on the way to a place is a matter of its outline.
* `value_walked_at`, `find?_walked_at`: what is made at a place is in the document before trees and
  units.
-/

set_option autoImplicit false

namespace Provision

namespace Source

/-! ## Contents that are embedded -/

/-- A place of contents that are embedded. -/
inductive Slot where
  | merge (i : Nat)
  | replace
  | authority (i : Nat)
  | contents (i : Nat)
  | append (i j : Nat)
  | keyFile (i : Nat)
  deriving DecidableEq

namespace Slot

/-- The trail that leads to the place. -/
def trail : Slot → Trail
  | merge i => [.key "ignition", .key "config", .key "merge", .index i]
  | replace => [.key "ignition", .key "config", .key "replace"]
  | authority i =>
    [.key "ignition", .key "security", .key "tls", .key "certificate_authorities", .index i]
  | contents i => [.key "storage", .key "files", .index i, .key "contents"]
  | append i j => [.key "storage", .key "files", .index i, .key "append", .index j]
  | keyFile i => [.key "storage", .key "luks", .index i, .key "key_file"]

/-- The resource at the place. -/
def get? (c : Config) : Slot → Option Resource
  | merge i => c.ignition.config.merge[i]?
  | replace => some c.ignition.config.replace
  | authority i => c.ignition.security.tls.certificateAuthorities[i]?
  | contents i => c.storage.files[i]?.map File.contents
  | append i j => c.storage.files[i]?.bind fun f => f.append[j]?
  | keyFile i => c.storage.luks[i]?.map Luks.keyFile

theorem outline_trail (s : Slot) : s.trail.outline ∈ resourcePlaces := by
  cases s <;> simp [trail, resourcePlaces, Trail.outline, Segment.key?]

theorem trail_inj {s s' : Slot} (h : s.trail = s'.trail) : s = s' := by
  cases s <;> cases s' <;> simp [trail] at h <;> simp [h]

end Slot

/-- **Trails of the outlines of contents lead to places of contents.** -/
theorem exists_slot {t : Trail} (h : t.outline ∈ resourcePlaces) : ∃ s : Slot, s.trail = t := by
  simp only [resourcePlaces, List.mem_cons, List.not_mem_nil, or_false, Trail.outline_eq_key,
    Trail.outline_eq_index, Trail.outline_eq_nil] at h
  rcases h with ⟨_, rfl, _, rfl, _, rfl, i, _, rfl, rfl⟩ | ⟨_, rfl, _, rfl, _, rfl, rfl⟩ |
    ⟨_, rfl, _, rfl, _, rfl, _, rfl, i, _, rfl, rfl⟩ | ⟨_, rfl, _, rfl, i, _, rfl, _, rfl, rfl⟩ |
    ⟨_, rfl, _, rfl, i, _, rfl, _, rfl, j, _, rfl, rfl⟩ | ⟨_, rfl, _, rfl, i, _, rfl, _, rfl, rfl⟩
  · exact ⟨.merge i, rfl⟩
  · exact ⟨.replace, rfl⟩
  · exact ⟨.authority i, rfl⟩
  · exact ⟨.contents i, rfl⟩
  · exact ⟨.append i j, rfl⟩
  · exact ⟨.keyFile i, rfl⟩

/-- What an item of a list of the config is written to. -/
theorem at?_write_item {α : Type} {f : α → Json} {items : List α} {c : Config} {place : Trail}
    (h : (Config.codec.write c).at? place = some (.arr (items.map f))) (i : Nat) (u : Trail) :
    (Config.codec.write c).at? (place ++ .index i :: u) = items[i]?.bind fun a => (f a).at? u := by
  rw [List.append_cons, Json.at?_append, ← Trail.index, Json.at?_index_map h, Option.bind_map]
  rfl

/-- **What is at a place of contents is what its trail leads to.** -/
theorem at?_slot (c : Config) (s : Slot) :
    (Config.codec.write c).at? s.trail = (s.get? c).map Resource.codec.write := by
  cases s with
  | merge i =>
    exact @Json.at?_index_map _ Resource.codec.write c.ignition.config.merge
      [.key "ignition", .key "config", .key "merge"] _ rfl i
  | replace => rfl
  | authority i =>
    exact @Json.at?_index_map _ Resource.codec.write
      c.ignition.security.tls.certificateAuthorities
      [.key "ignition", .key "security", .key "tls", .key "certificate_authorities"] _ rfl i
  | contents i =>
    refine (@at?_write_item _ File.codec.write c.storage.files c [.key "storage", .key "files"] rfl
      i [.key "contents"]).trans ?_
    rw [Slot.get?]
    cases c.storage.files[i]? <;> rfl
  | append i j =>
    refine (@at?_write_item _ File.codec.write c.storage.files c [.key "storage", .key "files"] rfl
      i [.key "append", .index j]).trans ?_
    cases hf : c.storage.files[i]? with
    | none => simp [Slot.get?, hf]
    | some f =>
      rw [Option.bind_some, Slot.get?, hf]
      exact @Json.at?_index_map _ Resource.codec.write f.append [.key "append"] _ rfl j
  | keyFile i =>
    refine (@at?_write_item _ Luks.codec.write c.storage.luks c [.key "storage", .key "luks"] rfl
      i [.key "key_file"]).trans ?_
    rw [Slot.get?]
    cases c.storage.luks[i]? <;> rfl

/-! ## Texts of units -/

/-- A place of the text of a unit, or of a drop-in of one. -/
inductive Fragment where
  | unit (i : Nat)
  | dropin (i j : Nat)
  deriving DecidableEq

namespace Fragment

/-- The trail that leads to the place. -/
def trail : Fragment → Trail
  | unit i => [.key "systemd", .key "units", .index i]
  | dropin i j => [.key "systemd", .key "units", .index i, .key "dropins", .index j]

/-- What is written at the place. -/
def written? (c : Config) : Fragment → Option Json
  | unit i => c.systemd.units[i]?.map Unit.codec.write
  | dropin i j => (c.systemd.units[i]?.bind fun u => u.dropins[j]?).map Dropin.codec.write

/-- The text that is given in place, and the local file with the text. -/
def texts? (c : Config) : Fragment → Option (Option String × Option String)
  | unit i => c.systemd.units[i]?.map fun u => (u.contents, u.contentsLocal)
  | dropin i j =>
    (c.systemd.units[i]?.bind fun u => u.dropins[j]?).map fun d => (d.contents, d.contentsLocal)

theorem outline_trail (f : Fragment) : f.trail.outline ∈ unitPlaces := by
  cases f <;> simp [trail, unitPlaces, Trail.outline, Segment.key?]

theorem trail_inj {f f' : Fragment} (h : f.trail = f'.trail) : f = f' := by
  cases f <;> cases f' <;> simp [trail] at h <;> simp [h]

end Fragment

/-- Trails of the outlines of units and drop-ins lead to places of their texts. -/
theorem exists_fragment {t : Trail} (h : t.outline ∈ unitPlaces) : ∃ f : Fragment, f.trail = t := by
  simp only [unitPlaces, List.mem_cons, List.not_mem_nil, or_false, Trail.outline_eq_key,
    Trail.outline_eq_index, Trail.outline_eq_nil] at h
  rcases h with ⟨_, rfl, _, rfl, i, _, rfl, rfl⟩ | ⟨_, rfl, _, rfl, i, _, rfl, _, rfl, j, _, rfl, rfl⟩
  · exact ⟨.unit i, rfl⟩
  · exact ⟨.dropin i j, rfl⟩

/-- What is written at the place of a text is what its trail leads to. -/
theorem at?_fragment (c : Config) (f : Fragment) :
    (Config.codec.write c).at? f.trail = f.written? c := by
  cases f with
  | unit i =>
    exact @Json.at?_index_map _ Unit.codec.write c.systemd.units [.key "systemd", .key "units"] _
      rfl i
  | dropin i j =>
    refine (@at?_write_item _ Unit.codec.write c.systemd.units c [.key "systemd", .key "units"] rfl
      i [.key "dropins", .index j]).trans ?_
    cases hu : c.systemd.units[i]? with
    | none => simp [Fragment.written?, hu]
    | some u =>
      rw [Option.bind_some, Fragment.written?, hu]
      exact @Json.at?_index_map _ Dropin.codec.write u.dropins [.key "dropins"] _ rfl j

/-- The local file of a text, as it is written. -/
theorem contentsLocal_of_written {c : Config} {f : Fragment} {x : Json}
    (h : f.written? c = some x) :
    ∃ p, f.texts? c = some p ∧ (x.get? "contents_local").bind Json.text? = p.2 := by
  cases f with
  | unit i =>
    obtain ⟨u, hu, rfl⟩ := Option.map_eq_some_iff.mp h
    refine ⟨(u.contents, u.contentsLocal), by rw [Fragment.texts?, hu]; rfl, ?_⟩
    change ((u.contentsLocal.map Json.str).getD .null).text? = _
    cases u.contentsLocal <;> rfl
  | dropin i j =>
    obtain ⟨d, hd, rfl⟩ := Option.map_eq_some_iff.mp h
    refine ⟨(d.contents, d.contentsLocal), by rw [Fragment.texts?, hd]; rfl, ?_⟩
    change ((d.contentsLocal.map Json.str).getD .null).text? = _
    cases d.contentsLocal <;> rfl

end Source

open Translator (Confines)

/-! ## Rules keep to their places -/

/-- A resource has origins at its place and below it. -/
theorem Contents.confined_assemble (origin place : Trail) (members : List Member) :
    (assemble origin place members).provenance.Confined place := by
  have hmembers : (({} : Provenance).Grows (fun _ => True) (place <+: ·) <| members.foldl
      (fun p m => m.origins.foldl (fun p e =>
        p.add (origin ++ e.2) (place.key m.name ++ e.1)) p) {}) := by
    refine Provenance.grows_foldl (fun m _ p => ?_) {}
    refine Provenance.grows_foldl (fun e _ p => ?_) p
    refine (@Provenance.grows_add (fun _ => True) (origin ++ e.2) trivial p _).mono fun q hq => ?_
    exact hq ▸ (Provenance.prefix_key _ _).trans (List.prefix_append _ _)
  rw [assemble]
  split
  · exact Provenance.confined_empty place
  · dsimp only
    have hparts := (Provenance.confined_empty place).grows hmembers fun q hq => hq
    split
    · exact hparts
    · exact hparts.grows (@Provenance.grows_add (fun _ => True) origin trivial _ _)
        fun q hq => hq ▸ List.prefix_refl _

theorem Contents.confined_translate (w : Workspace) (x : Json) (origin place : Trail) :
    (translate w x origin place).provenance.Confined place := by
  rw [translate]
  split
  · exact Provenance.confined_empty place
  · next r _ =>
    rw [ofResource]
    split
    · exact confined_assemble _ _ _
    · exact confined_assemble _ _ _
    · exact Provenance.confined_empty place

namespace Source

variable {w : Workspace} {c : Config} {origin place : Trail}

theorem confined_unitRule {m : Translated (Option Json)} (h : m.provenance.Confined place)
    (x : Json) : (unitRule w m x origin place).provenance.Confined place := by
  rw [unitRule]
  split
  · exact h
  · dsimp only
    split
    · exact h
    · split
      · have hcontents := h.grows (@Provenance.grows_add (fun _ => True)
          (origin.key "contents_local") trivial _ (place.key "contents"))
          fun q hq => hq ▸ Provenance.prefix_key _ _
        exact hcontents.grows (@Provenance.grows_add (fun _ => True) origin trivial _ place)
          fun q hq => hq ▸ List.prefix_refl _
      · exact h

/-- The keys in a file have origins in the list of keys. -/
theorem confined_addKeys (list : Trail) (hadKeys : Bool) {keys : Keys} (entry : Json × Trail)
    (h : keys.provenance.Confined place) (hlist : place <+: list) :
    (addKeys w list hadKeys keys entry).provenance.Confined place := by
  rw [addKeys]
  split
  · split
    · exact h
    · next data _ =>
      dsimp only
      have hlines : keys.provenance.Grows (fun _ => True) (place <+: ·) <| (keyLines data).zipIdx.foldl
          (fun p e => p.add entry.2 (list.index (keys.value.length + e.2))) keys.provenance := by
        refine Provenance.grows_foldl (fun e _ p => ?_) _
        refine (@Provenance.grows_add (fun _ => True) entry.2 trivial p _).mono fun q hq => ?_
        exact hq ▸ hlist.trans (Provenance.prefix_index _ _)
      have hall := h.grows hlines fun q hq => hq
      split
      · exact hall
      · exact hall.grows (@Provenance.grows_add (fun _ => True) entry.2 trivial _ _)
          fun q hq => hq ▸ hlist
  · exact h

theorem confined_foldl_addKeys (list : Trail) (hadKeys : Bool) {keys : Keys}
    (entries : List (Json × Trail)) (h : keys.provenance.Confined place) (hlist : place <+: list) :
    (entries.foldl (addKeys w list hadKeys) keys).provenance.Confined place := by
  induction entries generalizing keys with
  | nil => exact h
  | cons e rest ih => exact ih (confined_addKeys list hadKeys e h hlist)

theorem confined_userRule {m : Translated (Option Json)} (h : m.provenance.Confined place)
    (x : Json) : (userRule w m x origin place).provenance.Confined place := by
  rw [userRule]
  dsimp only
  split
  · exact h
  · have hkeys : ∀ given hadKeys entries,
        (List.foldl (addKeys w (place.key "sshAuthorizedKeys") hadKeys)
          ⟨given, m.provenance, m.report⟩ entries).provenance.Confined place :=
      fun given hadKeys entries =>
        confined_foldl_addKeys _ hadKeys entries h (Provenance.prefix_key _ _)
    split
    · exact hkeys _ _ _
    · split
      · exact (hkeys _ _ _).grows (@Provenance.grows_add (fun _ => True) origin trivial _ place)
          fun q hq => hq ▸ List.prefix_refl _
      · exact hkeys _ _ _

/-- **Rules record origins for their own places**, and for what is below them. -/
theorem confines (w : Workspace) : Confines (translator w) := by
  intro origin rule hr m x place hm
  rcases rule?_cases hr with ⟨-, rfl⟩ | ⟨-, rfl⟩ | ⟨-, rfl⟩
  · exact Contents.confined_translate w x origin place
  · exact confined_unitRule hm x
  · exact confined_userRule hm x

/-- Units and drop-ins have the rule for units. -/
theorem rule?_unit (w : Workspace) {t : Trail} (h : t.outline ∈ unitPlaces) :
    (translator w).rule? t = some (unitRule w) := by
  simp only [unitPlaces, List.mem_cons, List.not_mem_nil, or_false, Trail.outline_eq_key,
    Trail.outline_eq_index, Trail.outline_eq_nil] at h
  rcases h with ⟨_, rfl, _, rfl, i, _, rfl, rfl⟩ |
    ⟨_, rfl, _, rfl, i, _, rfl, _, rfl, j, _, rfl, rfl⟩
  · rfl
  · rfl

theorem translateAt_unitPlace {t : Trail} (h : t.outline ∈ unitPlaces) (place : Trail) (x : Json) :
    (translator w).translateAt t place x =
      unitRule w ((translator w).walk t place x) x t place := by
  rw [Translator.translateAt_eq, rule?_unit w h]
  rfl

/-! ## Names -/

/-- What is written of the shared sections has keys with different new names. -/
theorem isApart_of_full (w : Workspace) {x : Json} : ∀ {t : Trail} {s : Shape},
    Config.shape.at? t = some s → s.Full x → (translator w).isApart x = true := by
  induction x using Json.child_induction with
  | step x ih =>
    intro t s hs hx
    cases hx with
    | leaf h =>
      rcases h with h | rfl
      · cases x <;> first | rfl | cases h
      · rfl
    | @list r items hitems =>
      rw [Translator.isApart, Translator.isApartItems_iff]
      intro y hy
      obtain ⟨i, hi⟩ := List.mem_iff_getElem?.mp hy
      refine @ih (.index i) y hi (t.index i) r ?_ (hitems y hy)
      rw [Trail.index, Shape.at?_append, hs]
      rfl
    | @record fields members hk hn hfull =>
      have hmem : (members.map Prod.fst).Nodup := hk ▸ hn
      have hfield : ∀ e ∈ members, ∃ r, fields.lookup e.1 = some r ∧
          Config.shape.at? (t.key e.1) = some r := fun e he => by
        have hkey : e.1 ∈ fields.map Prod.fst := hk ▸ List.mem_map_of_mem he
        obtain ⟨r, hr⟩ := Option.isSome_iff_exists.mp (Shape.lookup_isSome_iff.mpr hkey)
        refine ⟨r, hr, ?_⟩
        rw [Trail.key, Shape.at?_append, hs]
        simp [hr]
      have hnamed : ∀ l ∈ members.map Prod.fst, (names.lookup l).isSome = true := by
        intro l hl
        obtain ⟨e, he, rfl⟩ := List.mem_map.mp hl
        obtain ⟨r, -, hr⟩ := hfield e he
        have hall := isNamed_of_at hr
        rw [Trail.outline_key, isNamed, List.all_append, Bool.and_eq_true] at hall
        simpa using hall.2
      rw [Translator.isApart, Translator.isApartMembers_iff]
      refine ⟨?_, fun e he => ?_⟩
      · have hinj : ∀ k ∈ members.map Prod.fst, ∀ l ∈ members.map Prod.fst,
            (translator w).nameOf k = (translator w).nameOf l → k = l :=
          fun k hk l hl => eq_of_nameOf hnamed hl k hk
        have hnames := hmem.map_on hinj
        rwa [List.map_map] at hnames
      · obtain ⟨r, hr, hat⟩ := hfield e he
        have hl := (Json.lookup_eq_some_iff hmem).mpr he
        exact ih (.key e.1) e.2 hl hat (hfull e.1 r e.2 hr hl)

/-- **The keys of a config differ in their new names.** -/
theorem isApart_write (w : Workspace) (c : Config) :
    (translator w).isApart (Config.codec.write c) = true :=
  isApart_of_full w (t := []) rfl (Config.writes c)

/-! ## Ways -/

/-- Nothing is left out on a way that no place starts that is left out. -/
theorem isKept_of_outline {u : Trail} (h : ∀ p ∈ skippedPlaces, ¬p <+: (origin ++ u).outline) :
    (translator w).isKept origin u = true := by
  induction u generalizing origin with
  | nil => rfl
  | cons s u ih =>
    rw [List.append_cons] at h
    rw [Translator.isKept, ih h, Bool.and_true]
    cases s with
    | index => rfl
    | key k =>
      rw [Translator.leadsOn, isSkipped_eq_false fun hm => h _ hm ?_]
      · rfl
      · rw [Trail.outline_append _ u]
        exact List.prefix_append _ _

/-- The outlines of the places that have rules. -/
def rulePlaces : List Outline := resourcePlaces ++ unitPlaces ++ [userPlace]

/-- No rule is met on a way if the places with rules that start it end it, or start before it. -/
theorem free_of_outline {u : Trail} (h : ∀ p ∈ rulePlaces, p <+: (origin ++ u).outline →
      p.length ≤ origin.length ∨ p = (origin ++ u).outline) : (translator w).Free origin u := by
  induction u generalizing origin with
  | nil => trivial
  | cons s u ih =>
    rw [List.append_cons] at h
    have hlength : ∀ v : Trail, v.outline.length = v.length := fun v => List.length_map _
    refine ⟨fun hu => rule?_eq_none fun hm => ?_, ih fun p hp hpre => (h p hp hpre).imp_left ?_⟩
    · have hpre : (origin ++ [s]).outline <+: (origin ++ [s] ++ u).outline := by
        rw [Trail.outline_append _ u]
        exact List.prefix_append _ _
      rcases h _ hm hpre with hle | heq
      · rw [hlength, List.length_append, List.length_singleton] at hle
        omega
      · have hlen := congrArg List.length heq
        simp only [hlength, List.length_append] at hlen
        exact hu (List.length_eq_zero_iff.mp (by omega))
    · intro hle
      rw [List.length_append]
      omega

/-- Nothing is left out on the way to a place that has a rule. -/
theorem isKept_of_rule {t : Trail} (h : t.outline ∈ rulePlaces) :
    (translator w).isKept [] t = true :=
  isKept_of_outline ((by decide : ∀ o ∈ rulePlaces, ∀ p ∈ skippedPlaces, ¬p <+: o) _ h)

/-! ## The document -/

/-- The places that have rules and are in no other such place. -/
def outerPlaces : List Outline :=
  resourcePlaces ++ [[some "systemd", some "units", none], userPlace]

theorem free_of_outer {t : Trail} (h : t.outline ∈ outerPlaces) : (translator w).Free [] t :=
  free_of_outline fun p hp hpre => .inr <|
    (by decide : ∀ o ∈ outerPlaces, ∀ p ∈ rulePlaces, p <+: o → p = o) _ h p hp hpre

section Document

variable {t : Trail} {x v : Json}

end Document

end Source
end Provision
