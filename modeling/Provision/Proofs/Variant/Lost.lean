import Provision.Proofs.Decode.Gives
import Provision.Proofs.Provenance
import Provision.Proofs.Variant.Filters

/-!
# What is lost without a wrapper

The settings beside a config are lost if the config is given without its wrapper, and each of them is
reported at its place in the source.

* `Filter.applyMembers_members`: filters look at a record field by field.
* `Openshift.lost_eq`: what is reported of settings that are lost.
* `Openshift.Config.traced_lost`: where it is reported.
-/

set_option autoImplicit false

namespace Provision

/-! ## What filters find in records -/

namespace Filter

open Decode (RecordField)

variable {filters : List Filter} {root : Path} {here : Trail}

/-- Filters find nothing at a place that is none of theirs. -/
theorem findHere_eq_nil (h : ∀ f ∈ filters, f.pattern.outline ≠ here.outline) (x : Json) :
    findHere filters root here x = [] := by
  rw [findHere, List.map_eq_nil_iff, List.filter_eq_nil_iff]
  exact fun f hf happlies => h f hf (applies_iff.mp happlies).1

/-- Filters find nothing in a part that none of their places is in. -/
theorem applyAt_eq_nil (h : ∀ f ∈ filters, ¬here.outline <+: f.pattern.outline) (x : Json) :
    applyAt filters root here x = [] := by
  rw [applyAt_eq, List.flatMap_eq_nil_iff]
  refine fun n _ => findHere_eq_nil (fun f hf hplace => h f hf ?_) _
  rw [hplace, Trail.outline_append]
  exact List.prefix_append _ _

/-- What filters whose places are not deeper find in a part, they find at the part itself. -/
theorem applyAt_eq_findHere (h : ∀ f ∈ filters, f.pattern.outline.length ≤ here.length) (x : Json) :
    applyAt filters root here x = findHere filters root here x := by
  have hbelow : ∀ (s : Segment) (t : Trail) (y : Json),
      findHere filters root (here ++ s :: t) y = [] := by
    refine fun s t y => findHere_eq_nil (fun f hf hplace => ?_) y
    have hlength := congrArg List.length hplace
    rw [Trail.outline, List.length_map, List.length_append, List.length_cons] at hlength
    have := h f hf
    omega
  rw [applyAt_eq]
  cases x with
  | arr items =>
    rw [Json.nodes, List.flatMap_cons, List.append_nil]
    refine List.append_right_eq_self.mpr (List.flatMap_eq_nil_iff.mpr fun n hn => ?_)
    obtain ⟨i, y, t, -, -, ht⟩ := Json.mem_itemNodes.mp hn
    rw [ht, hbelow]
  | obj members =>
    rw [Json.nodes, List.flatMap_cons, List.append_nil]
    refine List.append_right_eq_self.mpr (List.flatMap_eq_nil_iff.mpr fun n hn => ?_)
    obtain ⟨k, y, t, -, -, ht⟩ := Json.mem_memberNodes.mp hn
    rw [ht, hbelow]
  | _ => simp [Json.nodes]

/-- Filters look at a record field by field. -/
theorem applyMembers_members {σ : Type} (fields : List (RecordField σ)) (r : σ) :
    applyMembers filters root here (RecordField.members fields r) =
      fields.flatMap fun f => ((f.write r).map (applyAt filters root (here.key f.name))).getD [] := by
  induction fields with
  | nil => rfl
  | cons f rest ih =>
    rw [RecordField.members, List.filterMap_cons, List.flatMap_cons, ← ih]
    cases f.write r <;> rfl

end Filter

/-! ## Settings that are lost -/

namespace Openshift

open Decode (RecordField)

/-- The settings that are lost without the wrapper: their names in the wrapper and in the config. -/
def lostSettings : List (String × String) :=
  [ ("kernelArguments", "kernel_arguments"), ("extensions", "extensions"), ("fips", "fips"),
    ("kernelType", "kernel_type") ]

/-- What is found of a setting that has content. -/
theorem findHere_lost {e : String × String} (he : e ∈ lostSettings) {x : Json}
    (hx : x.isEmpty = false) :
    Filter.findHere wrapperFilters (.target []) [.key "spec", .key e.1] x =
      [.warning (.target [.key "spec", .key e.1]) .elided] := by
  have happlies : ∀ f ∈ wrapperFilters, f.applies [.key "spec", .key e.1] x =
      f.pattern.fits [.key "spec", .key e.1] := by
    refine List.forall_mem_map.mpr fun text _ => ?_
    rw [Filter.applies, hx]
    simp [Filter.warn]
  rw [Filter.findHere, List.filter_congr happlies]
  clear happlies
  revert e
  decide

section Lost

variable {m : MachineConfig}

/-- What is written for a setting is under its name. -/
theorem get?_spec {f : RecordField MachineConfig.Spec} (hf : f ∈ MachineConfig.Spec.fields)
    {spec : MachineConfig.Spec} :
    (MachineConfig.Spec.codec.write spec).get? f.name = f.write spec :=
  Decode.Codec.get?_write_record (by decide) hf spec

/-- A list of texts among the settings has content if it is written. -/
theorem not_isEmpty_texts {k : String} {get : MachineConfig.Spec → List String}
    {set : List String → MachineConfig.Spec → MachineConfig.Spec} {x : Json}
    (h : (RecordField.sparse [] k (.list .text) get set).write m.spec = some x) :
    x.isEmpty = false := by
  simp only [RecordField.sparse] at h
  split at h
  · cases h
  · next hne =>
    cases h
    exact List.isEmpty_eq_false_iff.mpr (mt List.map_eq_nil_iff.mp hne)

/-- What is found in a field of the settings. -/
theorem applyAt_lost {f : RecordField MachineConfig.Spec} (hf : f ∈ MachineConfig.Spec.fields)
    {e : String × String} (he : e ∈ lostSettings) (hname : f.name = e.1)
    (hne : ∀ x, f.write m.spec = some x → x.isEmpty = false) :
    ((f.write m.spec).map
        (Filter.applyAt wrapperFilters (.target []) (Trail.key [.key "spec"] f.name))).getD [] =
      if ((MachineConfig.Spec.codec.write m.spec).get? e.1).isSome then
        [.warning (.target [.key "spec", .key e.1]) .elided] else [] := by
  have hget : (MachineConfig.Spec.codec.write m.spec).get? e.1 = f.write m.spec :=
    hname ▸ get?_spec hf
  have hdepth : ∀ f ∈ wrapperFilters, f.pattern.outline.length ≤ 2 := by decide
  rw [hget, hname]
  cases hw : f.write m.spec with
  | none => rfl
  | some x => exact (Filter.applyAt_eq_findHere hdepth x).trans (findHere_lost he (hne x hw))

/-- **What is reported of settings that are lost**: each that is in the wrapper, in their order. -/
theorem lost_eq (h : m.spec.kernelType ≠ some "") :
    Filter.applyAll wrapperFilters (.target []) (MachineConfig.codec.write m) =
      (lostSettings.filter fun e => ((MachineConfig.Spec.codec.write m.spec).get? e.1).isSome).map
        fun e => .warning (.target [.key "spec", .key e.1]) .elided := by
  have quiet : ∀ {here : Trail} {k : String} (v : Option Json),
      (∀ f ∈ wrapperFilters, ¬(here.key k).outline <+: f.pattern.outline) →
        ((v.map (Filter.applyAt wrapperFilters (.target []) (here.key k))).getD []) = [] := by
    intro here k v hk
    cases v with
    | none => rfl
    | some x => exact Filter.applyAt_eq_nil hk x
  have hsplit : ∀ (p : String × String → Bool) (g : String × String → Entry),
      (lostSettings.filter p).map g = lostSettings.flatMap fun e => if p e then [g e] else [] := by
    intro p g
    induction lostSettings with
    | nil => rfl
    | cons e rest ih =>
      rw [List.filter_cons, List.flatMap_cons, ← ih]
      split <;> rfl
  -- Of the wrapper only the spec matters, and of the spec only the settings.
  change Filter.applyAt wrapperFilters (.target []) []
    (.obj (RecordField.members MachineConfig.fields m)) = _
  rw [Filter.applyAt, Filter.findHere_eq_nil (by decide), Filter.applyMembers_members,
    List.nil_append]
  simp only [MachineConfig.fields, List.flatMap_cons, List.flatMap_nil]
  rw [quiet _ (by decide), quiet _ (by decide), quiet _ (by decide),
    List.nil_append, List.nil_append, List.nil_append, List.append_nil]
  change Filter.applyAt wrapperFilters (.target []) [.key "spec"]
    (.obj (RecordField.members MachineConfig.Spec.fields m.spec)) = _
  rw [Filter.applyAt, Filter.findHere_eq_nil (by decide), Filter.applyMembers_members,
    List.nil_append]
  simp only [MachineConfig.Spec.fields, List.flatMap_cons, List.flatMap_nil]
  rw [quiet _ (by decide), List.nil_append, hsplit]
  simp only [lostSettings, List.flatMap_cons, List.flatMap_nil, List.append_nil]
  have field := fun i f hf e he hname hne =>
    @applyAt_lost m f (List.mem_of_getElem? (i := i) hf) e he hname hne
  refine congr (congrArg _ ?_) (congr (congrArg _ ?_) (congr (congrArg _ ?_) ?_))
  · exact field 1 _ rfl ("kernelArguments", "kernel_arguments") (by decide) rfl
      fun _ => not_isEmpty_texts
  · exact field 2 _ rfl ("extensions", "extensions") (by decide) rfl fun _ => not_isEmpty_texts
  · refine field 3 _ rfl ("fips", "fips") (by decide) rfl fun x hx => ?_
    obtain ⟨b, -, rfl⟩ := Option.map_eq_some_iff.mp hx
    rfl
  · refine field 4 _ rfl ("kernelType", "kernel_type") (by decide) rfl fun x hx => ?_
    obtain ⟨kind, hkind, rfl⟩ := Option.map_eq_some_iff.mp hx
    have hkind : m.spec.kernelType = some kind := hkind
    rw [hkind] at h
    exact Bool.eq_false_iff.mpr fun he => h (congrArg some (String.isEmpty_iff.mp he))

end Lost

/-- Only a setting of the config is the origin of the setting with its name. -/
theorem Config.origin_of_setting {c : Config} {o : Trail × Trail} {s : String × String}
    (ho : o ∈ c.wrapperOrigins) (hs : s ∈ lostSettings) (hplace : o.2 = [.key "spec", .key s.1]) :
    o.1 = [.key "openshift", .key s.2] := by
  have setting : ∀ {k l : String}, (∀ s ∈ lostSettings, l = s.1 → k = s.2) →
      o = ([.key "openshift", .key k], [.key "spec", .key l]) →
        o.1 = [.key "openshift", .key s.2] := by
    rintro k l hsame rfl
    cases hplace
    rw [hsame s hs rfl]
  have lists : ∀ {k l : String} {n : Nat}, (∀ s ∈ lostSettings, l = s.1 → k = s.2) →
      o ∈ listOrigins [.key "openshift", .key k] [.key "spec", .key l] n →
        o.1 = [.key "openshift", .key s.2] := by
    intro k l n hsame hmem
    rcases mem_listOrigins.mp hmem with ⟨-, ho | ⟨i, -, rfl⟩⟩
    · exact setting hsame ho
    · exact absurd (congrArg List.length hplace) (by simp [Trail.index])
  have beside : o.2.head? ≠ some (.key "spec") → o.1 = [.key "openshift", .key s.2] := fun hne =>
    absurd (by rw [hplace]; rfl) hne
  rw [Config.wrapperOrigins] at ho
  simp only [List.mem_append] at ho
  rcases ho with (((((((h | h) | h) | h) | h) | h) | h) | h) | h
  · have hplaces : ∀ o ∈ [(versionTrail, [.key "apiVersion"]), (versionTrail, [.key "kind"]),
        (versionTrail, [.key "spec"]), (versionTrail, configTrail)], ∀ s ∈ lostSettings,
          o.2 ≠ [.key "spec", .key s.1] := by decide
    exact absurd hplace (hplaces o h s hs)
  · split at h
    · cases List.mem_singleton.mp h
      exact beside (by decide)
    · cases h
  · split at h
    · cases List.mem_singleton.mp h
      exact beside (by decide)
    · cases h
  · split at h
    · cases List.mem_singleton.mp h
      exact beside (by decide)
    · cases h
  · obtain ⟨label, -, rfl⟩ := List.mem_map.mp h
    exact beside (by simp [Trail.key])
  · exact lists (by decide) h
  · exact lists (by decide) h
  · split at h
    · exact setting (by decide) (List.mem_singleton.mp h)
    · cases h
  · split at h
    · exact setting (by decide) (List.mem_singleton.mp h)
    · cases h

/-- A setting that is in the wrapper has its origin recorded. -/
theorem Config.mem_wrapperOrigins {c : Config} {made : Ignition.Config} {s : String × String}
    (hs : s ∈ lostSettings)
    (hx : ((MachineConfig.Spec.codec.write (c.wrap made).spec).get? s.1).isSome = true) :
    (([.key "openshift", .key s.2], [.key "spec", .key s.1]) : Trail × Trail) ∈
      c.wrapperOrigins := by
  have written : ∀ {i : Nat} {f : RecordField MachineConfig.Spec},
      MachineConfig.Spec.fields[i]? = some f → f.name = s.1 →
        (f.write (c.wrap made).spec).isSome = true := by
    intro i f hf hname
    rwa [← hname, get?_spec (List.mem_of_getElem? hf)] at hx
  have lists : ∀ {k l : String} {texts : List String}, texts ≠ [] →
      (([.key "openshift", .key k], [.key "spec", .key l]) : Trail × Trail) ∈
        listOrigins [.key "openshift", .key k] [.key "spec", .key l] texts.length := fun hne =>
    mem_listOrigins.mpr ⟨mt List.length_eq_zero_iff.mp hne, .inl rfl⟩
  rw [Config.wrapperOrigins]
  simp only [lostSettings, List.mem_cons, List.not_mem_nil, or_false] at hs
  simp only [List.mem_append]
  rcases hs with rfl | rfl | rfl | rfl
  · have hw := written (i := 1) rfl rfl
    simp only [RecordField.sparse] at hw
    refine .inl (.inl (.inl (.inr (lists fun hnil => ?_))))
    have hnil : (c.wrap made).spec.kernelArguments = [] := hnil
    rw [if_pos hnil] at hw
    cases hw
  · have hw := written (i := 2) rfl rfl
    simp only [RecordField.sparse] at hw
    refine .inl (.inl (.inr (lists fun hnil => ?_)))
    have hnil : (c.wrap made).spec.extensions = [] := hnil
    rw [if_pos hnil] at hw
    cases hw
  · have hw := written (i := 3) rfl rfl
    have hfips : c.openshift.fips.isSome = true := (Option.isSome_map ..).symm.trans hw
    rw [if_pos hfips]
    exact .inl (.inr (List.mem_singleton.mpr rfl))
  · have hw := written (i := 4) rfl rfl
    have hkind : (c.openshift.kernelType.filter (!·.isEmpty)).isSome = true :=
      (Option.isSome_map ..).symm.trans hw
    obtain ⟨kind, hkind⟩ := Option.isSome_iff_exists.mp hkind
    obtain ⟨hsome, hne⟩ := Option.filter_eq_some_iff.mp hkind
    rw [hsome, Option.any_some, if_pos hne]
    exact .inr (List.mem_singleton.mpr rfl)

/-- **A setting comes from the setting of the config** with its name there. -/
theorem Config.find?_setting (c : Config) (p : Provenance) {made : Ignition.Config}
    {e : String × String} (he : e ∈ lostSettings)
    (hx : ((MachineConfig.Spec.codec.write (c.wrap made).spec).get? e.1).isSome = true) :
    (c.wrapped p).find? [.key "spec", .key e.1] = some [.key "openshift", .key e.2] := by
  exact Provenance.find?_foldl_add (fun _ ho hplace => origin_of_setting ho he hplace)
    (.inr (mem_wrapperOrigins he hx))

/-- What is reported of the settings that are lost if a config is given without its wrapper. -/
def Config.lost (c : Config) (made : Ignition.Config) : Report :=
  (lostSettings.filter fun e =>
      ((MachineConfig.Spec.codec.write (c.wrap made).spec).get? e.1).isSome).map
    fun e => .warning (.source [.key "openshift", .key e.2]) .elided

/-- The provenance of a wrapped config is about the source and the wrapper. -/
theorem Config.aligned_wrapped (c : Config) (p : Provenance) : (c.wrapped p).Aligned :=
  (grows_wrapped c p).aligned ⟨rfl, rfl⟩

/-- **Settings that are lost are reported at their places in the config.** -/
theorem Config.traced_lost (c : Config) (p : Provenance) (made : Ignition.Config) :
    (Filter.applyAll wrapperFilters (.target [])
      (MachineConfig.codec.write (c.wrap made))).traced (c.wrapped p) = c.lost made := by
  have hkind : (c.wrap made).spec.kernelType ≠ some "" := fun h => by
    have hfilter : c.openshift.kernelType.filter (!·.isEmpty) = some "" := h
    cases (Option.filter_eq_some_iff.mp hfilter).2
  rw [lost_eq hkind, Report.traced_eq, List.map_map]
  refine List.map_congr_left fun e he => ?_
  obtain ⟨he, hx⟩ := List.mem_filter.mp he
  have horigin := c.find?_setting p he hx
  rw [Function.comp_apply]
  exact Entry.traced_of_find (c.aligned_wrapped p) rfl horigin

end Openshift

end Provision
