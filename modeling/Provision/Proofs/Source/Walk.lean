import Provision.Proofs.Contents
import Provision.Proofs.Source.Names
import Provision.Proofs.Source.Rules

/-!
# The shared sections are translated faithfully

The shape of the config that is made follows from the shape of the config that is read: every key
that is not left out is known under its name, for values of the same kind. This is checked once, for
all configs.

* `agrees`: what is checked, place by place.
* `traced_translate`: what is made of a config has the shape that machines know, with an origin for
  each part, and has its leaves.
-/

set_option autoImplicit false

namespace Provision.Source

open Translator (Traced Simulation)

/-! ## Shapes that agree -/

mutual

/-- Whether what is made of values of a shape is of another shape: lists are made of lists, and
records of records that know the names. Contents that are embedded are not looked at. -/
def agrees (o : Outline) : (s s' : Shape) → Bool
  | .leaf, .leaf => true
  | .list s, .list s' => agrees (o ++ [none]) s s'
  | .record fields, .record fields' => resourcePlaces.contains o ||
    (decide (fields.map Prod.fst).Nodup && agreesFields o fields' fields)
  | _, _ => false

/-- Whether the fields of a record that are not left out are known under their names. -/
def agreesFields (o : Outline) (fields' : List (String × Shape)) : List (String × Shape) → Bool
  | [] => true
  | (k, s) :: rest =>
    (skippedPlaces.contains (o ++ [some k]) || match names.lookup k with
      | none => false
      | some n => match fields'.lookup n with
        | none => false
        | some s' => agrees (o ++ [some k]) s s') &&
    agreesFields o fields' rest

end

/-- **The shapes of the two configs agree.** -/
theorem agrees_config : agrees [] Config.shape Ignition.Config.shape = true := by
  decide_cbv

theorem agrees_of_lookup {o : Outline} {fields fields' : List (String × Shape)}
    (h : agreesFields o fields' fields = true) {k : String} {s : Shape}
    (hs : fields.lookup k = some s) (hk : o ++ [some k] ∉ skippedPlaces) :
    ∃ n s', names.lookup k = some n ∧ fields'.lookup n = some s' ∧
      agrees (o ++ [some k]) s s' = true := by
  induction fields with
  | nil => cases hs
  | cons e rest ih =>
    obtain ⟨l, r⟩ := e
    rw [agreesFields, Bool.and_eq_true] at h
    rw [List.lookup_cons] at hs
    split at hs
    · next he =>
      cases hs
      cases eq_of_beq he
      have hhead := (Bool.or_eq_true_iff.mp h.1).resolve_left (by simpa using hk)
      split at hhead
      · cases hhead
      · next n hn =>
        split at hhead
        · cases hhead
        · next s' hs' => exact ⟨n, s', hn, hs', hhead⟩
    · exact ih h.2 hs

/-! ## The walk -/

/-- At a trail a part of one shape is made into a part of another. -/
structure Maps (t : Translator) (o : Trail) (s s' : Shape) : Prop where
  agrees : agrees o.outline s s' = true
  source : Config.shape.at? o = some s
  target : Ignition.Config.shape.at? (t.rename o) = some s'

/-- The same where nothing is embedded. -/
structure Walks (t : Translator) (o : Trail) (s s' : Shape) : Prop extends Maps t o s s' where
  free : o.outline ∉ resourcePlaces

section Walk

variable {w : Workspace} {o : Trail} {s s' : Shape}

theorem rename_append (t : Translator) (u v : Trail) :
    t.rename (u ++ v) = t.rename u ++ t.rename v :=
  List.map_append

theorem Walks.leaf (h : Walks (translator w) o .leaf s) : s = .leaf := by
  have ha := h.agrees
  cases s with
  | leaf => rfl
  | _ => cases ha

theorem Walks.list (h : Walks (translator w) o (.list s) s') :
    ∃ r, s' = .list r ∧ ∀ i, Maps (translator w) (o.index i) s r := by
  have ha := h.agrees
  cases s' with
  | list r =>
    refine ⟨r, rfl, fun i => ⟨?_, ?_, ?_⟩⟩
    · rw [Trail.outline_index]
      exact ha
    · rw [Trail.index, Shape.at?_append, h.source]
      rfl
    · rw [Trail.index, rename_append, Shape.at?_append, h.target]
      rfl
  | _ => cases ha

theorem Walks.record {fields : List (String × Shape)}
    (h : Walks (translator w) o (.record fields) s) : ∃ fields', s = .record fields' ∧
    (∀ k r, fields.lookup k = some r → (translator w).isSkipped (o.key k) = false →
      ∃ r', fields'.lookup ((translator w).nameOf k) = some r' ∧
        Maps (translator w) (o.key k) r r') ∧
    (fields.map Prod.fst).Pairwise fun k l => (translator w).isSkipped (o.key k) = false →
      (translator w).isSkipped (o.key l) = false →
        (translator w).nameOf k ≠ (translator w).nameOf l := by
  have ha := h.agrees
  cases s with
  | record fields' =>
    rw [Source.agrees, Bool.or_eq_true_iff] at ha
    have hs := ha.resolve_left (by simpa using h.free)
    rw [Bool.and_eq_true, decide_eq_true_eq] at hs
    have hplace : ∀ k, (translator w).isSkipped (o.key k) = false →
        o.outline ++ [some k] ∉ skippedPlaces := fun k hk hm => by
      rw [← Trail.outline_key, ← isSkipped_iff w, hk] at hm
      cases hm
    refine ⟨fields', rfl, fun k r hr hk => ?_, ?_⟩
    · obtain ⟨n, r', hn, hr', hm⟩ := agrees_of_lookup hs.2 hr (hplace k hk)
      rw [nameOf_of_lookup w hn]
      refine ⟨r', hr', ?_, ?_, ?_⟩
      · rw [Trail.outline_key]
        exact hm
      · rw [Trail.key, Shape.at?_append, h.source]
        simp [hr]
      · rw [Trail.key, rename_append, Shape.at?_append, h.target]
        simp [Translator.renameStep, nameOf_of_lookup w hn, hr']
    · refine List.Pairwise.imp_of_mem (fun hk hl hne hsk hsl heq => hne ?_) hs.1
      obtain ⟨r, hr⟩ := Option.isSome_iff_exists.mp (Shape.lookup_isSome_iff.mpr hk)
      obtain ⟨r', hr'⟩ := Option.isSome_iff_exists.mp (Shape.lookup_isSome_iff.mpr hl)
      obtain ⟨n, -, hn, -⟩ := agrees_of_lookup hs.2 hr (hplace _ hsk)
      obtain ⟨n', -, hn', -⟩ := agrees_of_lookup hs.2 hr' (hplace _ hsl)
      rw [nameOf_of_lookup w hn, nameOf_of_lookup w hn'] at heq
      exact eq_of_name hn (heq ▸ hn')
  | _ => cases ha

/-- The shapes at the places of one outline. -/
theorem Maps.shapes {p : Outline} {r r' : Shape} (h : Maps (translator w) o s s')
    (ho : o.outline = p) (hp : isNamed p = true) (hr : Config.shape.at? p.trail = some r)
    (hr' : Ignition.Config.shape.at? (renamed p).trail = some r') : s = r ∧ s' = r' := by
  constructor
  · have hs := h.source
    rw [Shape.at?_congr (ho.trans p.outline_trail.symm), hr] at hs
    exact (Option.some.inj hs).symm
  · have hs := h.target
    have hrename : ((translator w).rename o).outline = (renamed p).trail.outline := by
      rw [outline_rename w (ho ▸ hp), ho, Outline.outline_trail]
    rw [Shape.at?_congr hrename, hr'] at hs
    exact (Option.some.inj hs).symm

/-- Contents that are embedded are made into contents that are fetched. -/
theorem Maps.resource (h : Maps (translator w) o s s') (ho : o.outline ∈ resourcePlaces) :
    s = Resource.shape ∧ s' = Ignition.Resource.shape := by
  simp only [resourcePlaces, List.mem_cons, List.not_mem_nil, or_false] at ho
  rcases ho with ho | ho | ho | ho | ho | ho <;> exact h.shapes ho rfl rfl rfl

/-- Contents of units and drop-ins are leaves before and after. -/
theorem Maps.unit (h : Maps (translator w) o s s') (ho : o.outline ∈ unitPlaces) :
    ∃ fields fields', s = .record fields ∧ s' = .record fields' ∧
      fields.lookup "contents" = some .leaf ∧ fields'.lookup "contents" = some .leaf ∧
        "contents_local" ∈ fields.map Prod.fst := by
  simp only [unitPlaces, List.mem_cons, List.not_mem_nil, or_false] at ho
  rcases ho with ho | ho
  · obtain ⟨rfl, rfl⟩ : s = Unit.shape ∧ s' = Ignition.Unit.shape := h.shapes ho rfl rfl rfl
    exact ⟨_, _, rfl, rfl, rfl, rfl, by decide⟩
  · obtain ⟨rfl, rfl⟩ : s = Dropin.shape ∧ s' = Ignition.Dropin.shape := h.shapes ho rfl rfl rfl
    exact ⟨_, _, rfl, rfl, rfl, rfl, by decide⟩

theorem Maps.user (h : Maps (translator w) o s s') (ho : o.outline = userPlace) :
    s = User.shape ∧ s' = Ignition.User.shape :=
  h.shapes ho rfl rfl rfl

/-- **A leaf of a unit that becomes its contents is its contents.** -/
theorem eq_contents {fields : List (String × Shape)} (h : Maps (translator w) o (.record fields) s')
    (hs : fields.lookup "contents" = some .leaf) {x z : Json} (hx : (Shape.record fields).Full x)
    {u u' : Trail} (hz : x.at? u = some z)
    (hu : (translator w).rename u = .key "contents" :: u') : u = [.key "contents"] := by
  obtain ⟨r, hr, -⟩ := hx.at hz
  have hnamed : isNamed u.outline = true := by
    have hat := isNamed_of_at (t := o ++ u) (by rw [Shape.at?_append, h.source]; exact hr)
    rw [Trail.outline_append, isNamed, List.all_append, Bool.and_eq_true] at hat
    exact hat.2
  have houtline := outline_rename w hnamed
  obtain ⟨step, v, rfl⟩ := List.exists_cons_of_ne_nil (l := u) fun hnil => by
    rw [hnil] at hu
    cases hu
  cases step with
  | index => cases hu
  | key k =>
    rw [hu, Trail.outline_cons, Trail.outline_cons, renamed_cons, List.cons.injEq] at houtline
    rw [Trail.outline_cons, isNamed, List.all_cons, Bool.and_eq_true] at hnamed
    obtain ⟨n, hn⟩ := Option.isSome_iff_exists.mp hnamed.1
    have hcontents : names.lookup "contents" = some "contents" := rfl
    have hname := houtline.1
    rw [Segment.key?_key, Segment.key?_key, Option.map_some, hn] at hname
    cases hname
    cases eq_of_name hn hcontents
    rw [Shape.at?_cons, Shape.child?_key_record, hs, Option.bind_some] at hr
    cases v with
    | nil => rfl
    | cons step => cases step <;> cases hr

end Walk

/-! ## The translation -/

section Translation

variable {w : Workspace} {root : Json} {known plain : Trail → Prop}

/-- Rules keep the promises of the translation. -/
theorem simulation (hknown : ∀ o x, root.at? o = some x → known o)
    (hplain : ∀ t, plain t → ∀ p ∈ skippedPlaces ++ resourcePlaces, ¬p <+: t.outline)
    (hcontents : ∀ (o : Trail) path, o.outline ∈ unitPlaces →
      root.at? (o.key "contents_local") = some (.str path) → ¬plain (o.key "contents")) :
    Simulation (translator w) known plain root (Maps (translator w)) (Walks (translator w)) where
  leaf := Walks.leaf
  list := Walks.list
  record := Walks.record
  unskipped o k u hp := by
    cases hk : (translator w).isSkipped (o.key k) with
    | false => rfl
    | true =>
      refine absurd ?_ (hplain _ hp _ (List.mem_append_left _ ((isSkipped_iff w _).mp hk)))
      rw [Trail.outline_append]
      exact List.prefix_append _ _
  resolves := hknown _ _
  free hm hr := ⟨hm, not_mem_resourcePlaces hr⟩
  rule := by
    intro o place s s' x rule hm hr hx ho hplace hwalk
    have hroot := hknown o x ho
    have hrule : ((translator w).rule? o).isSome = true := by rw [hr]; rfl
    have hbelow : ∀ u, (x.at? u).isSome = true → known (o ++ u) := fun u hu => by
      obtain ⟨y, hy⟩ := Option.isSome_iff_exists.mp hu
      exact hknown _ y (by rw [Json.at?_append, ho]; exact hy)
    rcases rule?_cases hr with ⟨hp, rfl⟩ | ⟨hp, rfl⟩ | ⟨hp, rfl⟩
    · obtain ⟨rfl, rfl⟩ := hm.resource hp
      refine Contents.traced_contents w hrule hx (fun u hu => ?_) hbelow hplace
      refine hplain _ hu _ (List.mem_append_right _ hp) ?_
      rw [Trail.outline_append]
      exact List.prefix_append _ _
    · obtain ⟨fields, fields', rfl, rfl, hs, hs', hlocal⟩ := hm.unit hp
      have hw : Walks (translator w) o (.record fields) (.record fields') :=
        ⟨hm, fun hr => by
          simp only [unitPlaces, List.mem_cons, List.not_mem_nil, or_false] at hp
          rcases hp with hp | hp <;> rw [hp] at hr <;> revert hr <;> decide⟩
      obtain ⟨members, rfl⟩ := hx.fits.eq_obj
      obtain ⟨y, hy⟩ := hx.key hlocal
      refine traced_unitRule w hrule (hwalk hw) hs' hroot ?_ fun path hpath u z u' hz hpl hu => ?_
      · exact hbelow [.key "contents_local"] (by rw [Json.at?_cons_of_child hy]; rfl)
      · refine hcontents o path hp ?_ ?_
        · rw [Trail.key, Json.at?_append, ho]
          exact @Json.at?_cons_of_child (.key "contents_local") (.obj members) _ hpath []
        · rwa [eq_contents hm hs hx hz hu] at hpl
    · obtain ⟨rfl, rfl⟩ := hm.user hp
      have hw : Walks (translator w) o User.shape Ignition.User.shape :=
        ⟨hm, by rw [hp]; decide⟩
      obtain ⟨members, rfl⟩ := hx.fits.eq_obj
      refine traced_userRule w hrule (hwalk hw) rfl hroot fun i hi => ?_
      have hk := hbelow _ hi
      rwa [Trail.index, Trail.key, List.append_assoc]

/-- **What is made of a config has the shape that machines know.** All of it has an origin, each
origin is a place of the config, and its plain leaves are where they are expected. -/
theorem traced_translate (w : Workspace) (c : Config)
    (hknown : ∀ o x, (Config.codec.write c).at? o = some x → known o)
    (hplain : ∀ t, plain t → ∀ p ∈ skippedPlaces ++ resourcePlaces, ¬p <+: t.outline)
    (hcontents : ∀ (o : Trail) path, o.outline ∈ unitPlaces →
      (Config.codec.write c).at? (o.key "contents_local") = some (.str path) →
        ¬plain (o.key "contents")) :
    Traced (translator w) known plain Ignition.Config.shape [] [] (Config.codec.write c)
      ((translator w).translate (Config.codec.write c)) := by
  refine Translator.traced_translate (simulation hknown hplain hcontents)
    ⟨⟨agrees_config, rfl, rfl⟩, by decide⟩ (Config.writes c) ?_
  cases h : (translator w).rule? [] with
  | none => rfl
  | some rule =>
    rcases rule?_cases h with ⟨hp, -⟩ | ⟨hp, -⟩ | ⟨hp, -⟩
    · exact absurd hp (by decide)
    · exact absurd hp (by decide)
    · exact absurd hp (by decide)

end Translation

end Provision.Source
