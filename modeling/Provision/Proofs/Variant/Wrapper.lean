import Provision.Proofs.Variant.Draft

/-!
# Configs in a wrapper

An operator gets a config in a wrapper. All parts of the wrapper have origins, and the config in it
keeps its own. So whatever a config says, and wherever its parts go on the way, each part of the
document that is made of it has an origin, and every origin is a node of the config.

* `Openshift.Config.find?_wrapped`: where the parts of the config come from.
* `Openshift.Config.missing_wrapped`: no part of the wrapper is without an origin.
* `Config.translate_cases`: what is made of a config, on its own or in a wrapper.
* `Config.translate_covered`: the provenance of a document is complete.
-/

set_option autoImplicit false

namespace Provision

open Decode (RecordField)

/-! ## Parts of records -/

namespace Provenance

section Missing

variable {p : Provenance} {here : Trail}

theorem missingAt_str {text : String} (h : (p.find? here).isSome = true) :
    p.missingAt here (.str text) = [] := by
  rw [missingAt, (unknown_eq_nil_iff p here).mpr (.inr h), ite_self]

/-- Nothing in an object is without an origin if the object has one, and nothing in its members is
without. -/
theorem missingAt_obj {members : List (String × Json)}
    (hhere : members ≠ [] → here = [] ∨ (p.find? here).isSome = true)
    (h : ∀ e ∈ members, p.missingAt (here.key e.1) e.2 = []) :
    p.missingAt here (.obj members) = [] := by
  rw [missingAt]
  split
  · rfl
  · next hne =>
    rw [List.append_eq_nil_iff, unknown_eq_nil_iff, missingMembers_eq_nil_iff]
    exact ⟨hhere fun he => hne (he ▸ rfl), h⟩

/-- The same for a record, field by field. -/
theorem missingAt_members {σ : Type} {fields : List (RecordField σ)} {r : σ}
    (hhere : here = [] ∨ (p.find? here).isSome = true)
    (h : ∀ f ∈ fields, ∀ y, f.write r = some y → p.missingAt (here.key f.name) y = []) :
    p.missingAt here (.obj (RecordField.members fields r)) = [] := by
  refine missingAt_obj (fun _ => hhere) fun e he => ?_
  obtain ⟨f, hf, hw⟩ := List.mem_filterMap.mp he
  obtain ⟨y, hy, rfl⟩ := Option.map_eq_some_iff.mp hw
  exact h f hf y hy

/-- Nothing in a list of texts is without an origin if the list and its items have origins. -/
theorem missingAt_texts {texts : List String}
    (hhere : texts ≠ [] → (p.find? here).isSome = true)
    (h : ∀ i, i < texts.length → (p.find? (here.index i)).isSome = true) :
    p.missingAt here (.arr (texts.map .str)) = [] := by
  rw [missingAt]
  split
  · rfl
  · next hne =>
    rw [List.append_eq_nil_iff, unknown_eq_nil_iff, missingItems_eq_nil_iff]
    refine ⟨.inr (hhere fun he => hne (he ▸ rfl)), fun i x hx => ?_⟩
    rw [List.getElem?_map] at hx
    obtain ⟨text, htext, rfl⟩ := Option.map_eq_some_iff.mp hx
    rw [Nat.zero_add]
    exact missingAt_str (h i (List.getElem?_eq_some_iff.mp htext).1)

end Missing

end Provenance

/-! ## Origins of the wrapper -/

namespace Openshift

theorem mem_listOrigins {origin place : Trail} {count : Nat} {e : Trail × Trail} :
    e ∈ listOrigins origin place count ↔ count ≠ 0 ∧ (e = (origin, place) ∨
      ∃ i, i < count ∧ e = (origin.index i, place.index i)) := by
  rw [listOrigins]
  split
  · next h => simp [h]
  · next h =>
    simp only [List.mem_cons, List.mem_map, List.mem_range, ne_eq, h, not_false_eq_true, true_and,
      eq_comm]

namespace Config

variable (c : Config)

/-- A place that is not below the config in the wrapper. -/
def Beside (place : Trail) : Prop := place = configTrail ∨ ¬configTrail <+: place

/-- A part of the wrapper whose origin is in the config. -/
def IsPart (e : Trail × Trail) : Prop :=
  (Provision.Config.openshift c).Resolves e.1 ∧ Beside e.2

/-- The items of a list among the settings are parts of the wrapper. -/
theorem isPart_of_mem_listOrigins {texts : List String} {k l : String} {e : Trail × Trail}
    (htexts : (Provision.Config.openshift c).json.at? [.key "openshift", .key k] =
      some (.arr (texts.map .str)))
    (hl : l ≠ "config")
    (h : e ∈ listOrigins [.key "openshift", .key k] [.key "spec", .key l] texts.length) :
    c.IsPart e := by
  have hbeside : ∀ u, Beside ([.key "spec", .key l] ++ u) := fun u => .inr fun hp => by
    obtain ⟨-, htail⟩ := List.cons_prefix_cons.mp hp
    exact hl (Segment.key.inj (List.cons_prefix_cons.mp htail).1).symm
  rcases mem_listOrigins.mp h with ⟨-, rfl | ⟨i, hi, rfl⟩⟩
  · exact ⟨by rw [Provision.Config.Resolves, htexts]; rfl, hbeside []⟩
  · refine ⟨?_, hbeside [.index i]⟩
    rw [Provision.Config.Resolves, Json.at?_index_map htexts, List.getElem?_eq_getElem hi]
    rfl

/-- **All parts of the wrapper have origins in the config**, and lie beside the config in it. -/
theorem isPart_of_mem {e : Trail × Trail} (h : e ∈ c.wrapperOrigins) : c.IsPart e := by
  have beside : ∀ {place : Trail}, place.head? ≠ some (.key "spec") → Beside place :=
    fun hne => .inr fun ⟨u, hu⟩ => hne (hu ▸ rfl)
  have setting : ∀ k, k ≠ "config" → Beside [.key "spec", .key k] := fun k hk =>
    .inr fun hp => hk (Segment.key.inj
      (List.cons_prefix_cons.mp (List.cons_prefix_cons.mp hp).2).1).symm
  rw [wrapperOrigins] at h
  simp only [List.mem_append] at h
  rcases h with (((((((h | h) | h) | h) | h) | h) | h) | h) | h
  · simp only [List.mem_cons, List.not_mem_nil, or_false] at h
    have hversion := (Provision.Config.openshift c).resolves_version
    rcases h with rfl | rfl | rfl | rfl
    · exact ⟨hversion, beside (by decide)⟩
    · exact ⟨hversion, beside (by decide)⟩
    · exact ⟨hversion, .inr (by decide)⟩
    · exact ⟨hversion, .inl rfl⟩
  · split at h
    · cases List.mem_singleton.mp h
      exact ⟨rfl, beside (by decide)⟩
    · cases h
  · split at h
    · cases List.mem_singleton.mp h
      exact ⟨rfl, beside (by decide)⟩
    · cases h
  · split at h
    · cases List.mem_singleton.mp h
      exact ⟨rfl, beside (by decide)⟩
    · cases h
  · obtain ⟨⟨label, value⟩, hlabel, rfl⟩ := List.mem_map.mp h
    refine ⟨?_, beside (by simp [Trail.key])⟩
    have hlabels : (Provision.Config.openshift c).json.at? [.key "metadata", .key "labels"] =
        some (.obj (c.metadata.labels.map fun e => (e.1, .str e.2))) := rfl
    have hne : Json.lookup label
        (c.metadata.labels.map fun e => (e.1, Json.str e.2)) ≠ none := fun hnone =>
      Json.lookup_eq_none_iff.mp hnone (List.mem_map_of_mem (List.mem_map_of_mem hlabel))
    obtain ⟨y, hy⟩ := Option.ne_none_iff_exists'.mp hne
    rw [Provision.Config.Resolves, Trail.key, Json.at?_append]
    refine (congrArg (fun x => (Option.bind x _).isSome) hlabels).trans ?_
    rw [Option.bind_some, @Json.at?_cons_of_child (.key label) (.obj _) y hy]
    rfl
  · exact c.isPart_of_mem_listOrigins rfl (by decide) h
  · exact c.isPart_of_mem_listOrigins rfl (by decide) h
  · split at h
    · cases List.mem_singleton.mp h
      exact ⟨rfl, setting _ (by decide)⟩
    · cases h
  · split at h
    · cases List.mem_singleton.mp h
      exact ⟨rfl, setting _ (by decide)⟩
    · cases h

/-! ## The provenance of the wrapper -/

/-- The provenance of a wrapped config, given that of the config. -/
def wrapped (p : Provenance) : Provenance :=
  c.wrapperOrigins.foldl (fun p (origin, place) => p.add origin place)
    (p.under (.source []) (.target configTrail))

variable {c} {p : Provenance}

theorem grows_step : ∀ e ∈ c.wrapperOrigins, ∀ p : Provenance,
    p.Grows (Provision.Config.openshift c).Resolves Beside (p.add e.1 e.2) := fun e he p => by
  obtain ⟨hknown, hbeside⟩ := c.isPart_of_mem he
  exact (Provenance.grows_add hknown p e.2).mono fun q hq => hq ▸ hbeside

theorem grows_wrapped (c : Config) (p : Provenance) :
    (p.under (.source []) (.target configTrail)).Grows (Provision.Config.openshift c).Resolves
      Beside (c.wrapped p) :=
  Provenance.grows_foldl grows_step _

/-- **The parts of the config in the wrapper come from where they came from.** -/
theorem find?_wrapped {t : Trail} (ht : t ≠ []) :
    (c.wrapped p).find? (configTrail ++ t) = p.find? t := by
  have hbeside : ¬Beside (configTrail ++ t) := by
    rintro (h | h)
    · exact ht (List.append_right_eq_self.mp h)
    · exact h (List.prefix_append _ _)
  rw [(grows_wrapped c p).beside _ hbeside]
  refine (p.find?_under (.source []) (.target configTrail) t).trans ?_
  cases p.find? t <;> rfl

theorem isSome_wrapped {origin place : Trail} (h : (origin, place) ∈ c.wrapperOrigins) :
    ((c.wrapped p).find? place).isSome = true := by
  refine Provenance.isSome_foldl grows_step h (fun p => ?_) _
  rw [Provenance.find?_add]
  rfl

theorem target_wrapped (c : Config) (p : Provenance) : (c.wrapped p).target = .target := by
  have hadd : ∀ (entries : List (Trail × Trail)) (p : Provenance),
      (entries.foldl (fun p (origin, place) => p.add origin place) p).target = p.target := by
    intro entries
    induction entries with
    | nil => exact fun _ => rfl
    | cons e rest ih => exact fun p => ih _
  exact hadd _ _

/-- All origins are in the config if those of the config in the wrapper were. -/
theorem resolves_wrapped
    (h : ∀ e ∈ p.origins, (Provision.Config.openshift c).Resolves e.2) :
    ∀ e ∈ (c.wrapped p).origins, (Provision.Config.openshift c).Resolves e.2 := by
  refine (grows_wrapped c p).forall_known fun e he => ?_
  obtain ⟨⟨t, o⟩, ho, rfl⟩ := List.mem_map.mp he
  exact h (t, o) ho

/-- **The config in the wrapper is covered** if it was before. -/
theorem covers_wrapped {config : Json} (h : p.Covers [] config) :
    (c.wrapped p).Covers configTrail config := by
  intro t y hy hne
  right
  cases t with
  | nil =>
    have hmem : (versionTrail, configTrail) ∈ c.wrapperOrigins := by
      simp [wrapperOrigins]
    rw [List.append_nil]
    exact isSome_wrapped hmem
  | cons step u =>
    rw [find?_wrapped (List.cons_ne_nil _ _)]
    exact (h _ y hy hne).resolve_left (List.cons_ne_nil _ _)

/-! ## No part is without an origin -/

/-- The name and the labels have origins. -/
theorem missing_metadata (c : Config) (p : Provenance)
    (hne : (⟨c.metadata.name, c.metadata.labels⟩ : MachineConfig.Metadata) ≠ {}) :
    (c.wrapped p).missingAt [.key "metadata"]
      (MachineConfig.Metadata.codec.write ⟨c.metadata.name, c.metadata.labels⟩) = [] := by
  have hgiven : c.metadata.name.isEmpty = false ∨ c.metadata.labels.isEmpty = false := by
    refine Decidable.byContradiction fun hnone => hne ?_
    rw [not_or, Bool.not_eq_false, Bool.not_eq_false] at hnone
    rw [String.isEmpty_iff.mp hnone.1, List.isEmpty_iff.mp hnone.2]
  have hhere : (([.key "metadata"], [.key "metadata"]) : Trail × Trail) ∈ c.wrapperOrigins := by
    rcases hgiven with hgiven | hgiven <;> simp [wrapperOrigins, hgiven]
  refine Provenance.missingAt_members (.inr (isSome_wrapped hhere)) ?_
  simp only [MachineConfig.Metadata.fields, List.forall_mem_cons, List.not_mem_nil,
    false_implies, implies_true, and_true]
  refine ⟨fun y hy => ?_, fun y hy => ?_⟩
  · simp only [RecordField.sparse] at hy
    split at hy
    · cases hy
    · next hname =>
      cases hy
      have hmem : (([.key "metadata", .key "name"], [.key "metadata", .key "name"]) :
          Trail × Trail) ∈ c.wrapperOrigins := by
        simp [wrapperOrigins, hname, Trail.key]
      exact Provenance.missingAt_str (isSome_wrapped hmem)
  · simp only [RecordField.sparse] at hy
    split at hy
    · cases hy
    · next hlabels =>
      cases hy
      have hmem : (([.key "metadata", .key "labels"], [.key "metadata", .key "labels"]) :
          Trail × Trail) ∈ c.wrapperOrigins := by
        simp [wrapperOrigins, hlabels, Trail.key]
      refine Provenance.missingAt_obj (fun _ => .inr (isSome_wrapped hmem)) fun e he => ?_
      obtain ⟨⟨label, value⟩, hlabel, rfl⟩ := List.mem_map.mp he
      have hmem : (([.key "metadata", .key "labels", .key label],
          [.key "metadata", .key "labels", .key label]) : Trail × Trail) ∈ c.wrapperOrigins := by
        simp only [wrapperOrigins, List.mem_append, List.mem_map]
        exact .inl (.inl (.inl (.inl (.inr ⟨_, hlabel, rfl⟩))))
      exact Provenance.missingAt_str (isSome_wrapped hmem)

/-- A list among the settings has origins, and so have its items. -/
theorem missing_texts {texts : List String} {origin place : Trail}
    (h : ∀ e ∈ listOrigins origin place texts.length, e ∈ c.wrapperOrigins) :
    (c.wrapped p).missingAt place (.arr (texts.map .str)) = [] := by
  refine Provenance.missingAt_texts (fun hne => ?_) fun i hi => ?_
  · refine isSome_wrapped (h (origin, place) (mem_listOrigins.mpr ⟨?_, .inl rfl⟩))
    exact mt List.length_eq_zero_iff.mp hne
  · exact isSome_wrapped (h (origin.index i, place.index i) (mem_listOrigins.mpr
      ⟨Nat.ne_zero_of_lt hi, .inr ⟨i, hi, rfl⟩⟩))

/-- The config and the settings have origins. -/
theorem missing_spec (c : Config) {config : Ignition.Config}
    (hd : (Ignition.Config.codec.write config).isDistinct = true)
    (h : p.Covers [] (Ignition.Config.codec.write config)) :
    (c.wrapped p).missingAt [.key "spec"] (MachineConfig.Spec.codec.write (c.wrap config).spec) =
      [] := by
  have hhere : ((versionTrail, [.key "spec"]) : Trail × Trail) ∈ c.wrapperOrigins := by
    simp [wrapperOrigins]
  refine Provenance.missingAt_members (.inr (isSome_wrapped hhere)) ?_
  simp only [MachineConfig.Spec.fields, List.forall_mem_cons, List.not_mem_nil,
    false_implies, implies_true, and_true]
  refine ⟨fun y hy => ?_, fun y hy => ?_, fun y hy => ?_, fun y hy => ?_, fun y hy => ?_⟩
  · cases hy
    exact (Provenance.missingAt_eq_nil_iff _ _ _ hd).mpr (covers_wrapped h)
  · simp only [RecordField.sparse] at hy
    split at hy
    · cases hy
    · cases hy
      have hmem : ∀ e ∈ listOrigins [.key "openshift", .key "kernel_arguments"]
          [.key "spec", .key "kernelArguments"] c.openshift.kernelArguments.length,
          e ∈ c.wrapperOrigins := fun e he => by
        simp only [wrapperOrigins, List.mem_append]
        exact .inl (.inl (.inl (.inr he)))
      exact missing_texts hmem
  · simp only [RecordField.sparse] at hy
    split at hy
    · cases hy
    · cases hy
      have hmem : ∀ e ∈ listOrigins [.key "openshift", .key "extensions"]
          [.key "spec", .key "extensions"] c.openshift.extensions.length,
          e ∈ c.wrapperOrigins := fun e he => by
        simp only [wrapperOrigins, List.mem_append]
        exact .inl (.inl (.inr he))
      exact missing_texts hmem
  · obtain ⟨b, hb, rfl⟩ := Option.map_eq_some_iff.mp hy
    have hfips : c.openshift.fips = some b := hb
    have hmem : (([.key "openshift", .key "fips"], [.key "spec", .key "fips"]) : Trail × Trail) ∈
        c.wrapperOrigins := by
      simp [wrapperOrigins, hfips, Trail.key]
    exact (Provenance.unknown_eq_nil_iff _ _).mpr (.inr (isSome_wrapped hmem))
  · obtain ⟨kind, hkind, rfl⟩ := Option.map_eq_some_iff.mp hy
    have hfilter : c.openshift.kernelType.filter (!·.isEmpty) = some kind := hkind
    obtain ⟨hsome, hne⟩ := Option.filter_eq_some_iff.mp hfilter
    have hmem : (([.key "openshift", .key "kernel_type"], [.key "spec", .key "kernelType"]) :
        Trail × Trail) ∈ c.wrapperOrigins := by
      rw [wrapperOrigins, hsome, Option.any_some, if_pos hne]
      exact List.mem_append_right _ (List.mem_singleton.mpr rfl)
    exact Provenance.missingAt_str (isSome_wrapped hmem)

/-- **No part of a wrapped config is without an origin** if no part of the config was. -/
theorem missing_wrapped (c : Config) {config : Ignition.Config}
    (hd : (Ignition.Config.codec.write config).isDistinct = true)
    (h : p.Covers [] (Ignition.Config.codec.write config)) :
    (c.wrapped p).missing (MachineConfig.codec.write (c.wrap config)) = [] := by
  refine Provenance.missingAt_members (.inl rfl) ?_
  simp only [MachineConfig.fields, List.forall_mem_cons, List.not_mem_nil,
    false_implies, implies_true, and_true]
  refine ⟨fun y hy => ?_, fun y hy => ?_, fun y hy => ?_, fun y hy => ?_⟩
  · cases hy
    have hmem : ((versionTrail, [.key "apiVersion"]) : Trail × Trail) ∈ c.wrapperOrigins := by
      simp [wrapperOrigins]
    exact Provenance.missingAt_str (isSome_wrapped hmem)
  · cases hy
    have hmem : ((versionTrail, [.key "kind"]) : Trail × Trail) ∈ c.wrapperOrigins := by
      simp [wrapperOrigins]
    exact Provenance.missingAt_str (isSome_wrapped hmem)
  · simp only [RecordField.sparse] at hy
    split at hy
    · cases hy
    · next hne =>
      cases hy
      exact missing_metadata c p hne
  · cases hy
    exact missing_spec c hd h

end Config

end Openshift

/-! ## What is made of a config -/

namespace Config

/-- The document is the config that is read from the draft, as it is, in its wrapper, or taken out of
its wrapper. -/
theorem translate_cases {spec : Spec} {w : Workspace} {raw : Bool} {config : Config}
    {document : Document} (h : (config.translate spec w raw).value = some document) :
    ∃ made, (stamp spec (config.draft spec w)).value = some made ∧
      ((document = .ignition made ∧ (config.translate spec w raw).provenance =
          (stamp spec (config.draft spec w)).provenance) ∨
        ∃ c, config = .openshift c ∧
          ((document = .machineConfig (c.wrap made) ∧ (config.translate spec w raw).provenance =
              c.wrapped (stamp spec (config.draft spec w)).provenance) ∨
            (document = .ignition made ∧ (config.translate spec w raw).provenance =
              (c.wrapped (stamp spec (config.draft spec w)).provenance).below
                (.target Openshift.configTrail)))) := by
  cases config with
  | fcos c =>
    obtain ⟨made, hmade, rfl⟩ := Option.map_eq_some_iff.mp h
    exact ⟨made, hmade, .inl ⟨rfl, rfl⟩⟩
  | flatcar c =>
    obtain ⟨made, hmade, rfl⟩ := Option.map_eq_some_iff.mp h
    exact ⟨made, hmade, .inl ⟨rfl, rfl⟩⟩
  | fiot c =>
    obtain ⟨made, hmade, rfl⟩ := Option.map_eq_some_iff.mp h
    exact ⟨made, hmade, .inl ⟨rfl, rfl⟩⟩
  | openshift c =>
    have hinner : c.inner spec w = stamp spec ((Config.openshift c).draft spec w) := rfl
    rw [translate, Openshift.Config.translate] at h ⊢
    dsimp only at h ⊢
    rw [hinner] at h ⊢
    cases hmade : (stamp spec ((Config.openshift c).draft spec w)).value with
    | none =>
      rw [hmade] at h
      cases h
    | some made =>
      rw [hmade] at h
      refine ⟨made, rfl, .inr ⟨c, rfl, ?_⟩⟩
      cases raw with
      | false =>
        cases h
        refine .inl ⟨rfl, ?_⟩
        simp only [Bool.false_eq_true, if_false]
        rw [Openshift.Config.wrapped]
      | true =>
        cases h
        refine .inr ⟨rfl, ?_⟩
        simp only [if_true]
        rw [Openshift.Config.wrapped]

/-- The document has the config that is read from the draft. -/
theorem value_stamp {spec : Spec} {w : Workspace} {raw : Bool} {config : Config}
    {document : Document}
    (h : (config.translate spec w raw).value = some document) :
    (stamp spec (config.draft spec w)).value = some document.config := by
  obtain ⟨made, hmade, hcases⟩ := translate_cases h
  rcases hcases with ⟨rfl, -⟩ | ⟨c, -, ⟨rfl, -⟩ | ⟨rfl, -⟩⟩ <;> exact hmade

/-! ## Every part is traced -/

/-- **No part of the document that is made of a config is without an origin, and every origin is a
node of the config**, if all volumes have names. -/
theorem translate_covered (spec : Spec) (w : Workspace) (raw : Bool) (config : Config)
    {document : Document} (hvolumes : ∀ volume ∈ config.base.storage.luks, volume.name ≠ "")
    (h : (config.translate spec w raw).value = some document) :
    (config.translate spec w raw).provenance.missing document.json = [] ∧
      ∀ e ∈ (config.translate spec w raw).provenance.origins,
        (config.json.at? e.2).isSome = true := by
  obtain ⟨made, hmade, hcases⟩ := translate_cases h
  have hdraft := sound_draft spec w config hvolumes
  obtain ⟨hcovers, hknown⟩ := covers_stamp hdraft config.resolves_version hmade
  have hdistinct := (kept_of_stamp hdraft.toShaped hmade).distinct
  rcases hcases with ⟨rfl, hp⟩ | ⟨c, rfl, ⟨rfl, hp⟩ | ⟨rfl, hp⟩⟩
  · rw [hp]
    exact ⟨(Provenance.missing_eq_nil_iff _ _ hdistinct).mpr hcovers, hknown⟩
  · rw [hp]
    exact ⟨c.missing_wrapped hdistinct hcovers, Openshift.Config.resolves_wrapped hknown⟩
  · rw [hp]
    refine ⟨(Provenance.missing_eq_nil_iff _ _ hdistinct).mpr fun t y hy hne => ?_, fun e he =>
      Openshift.Config.resolves_wrapped hknown (Openshift.configTrail ++ e.1, e.2)
        (Provenance.mem_below he)⟩
    have hwrapped := Openshift.Config.covers_wrapped (c := c) hcovers t y hy hne
    rw [List.nil_append, Provenance.find?_below _ (Openshift.Config.target_wrapped c _).symm]
    exact .inr (hwrapped.resolve_left (by simp [Openshift.configTrail]))

/-- A config for the operator with a volume for which a cipher is chosen. -/
def encrypted : Config := .openshift
  { variant := "openshift", version := "4.14.0"
    metadata := ⟨"disks", [(MachineConfig.roleLabel, "worker")]⟩
    base := { storage := { luks := [{ name := "data", device := some "/dev/vdb" }] } }
    openshift := { fips := some true } }

theorem encrypted_covered :
    ∃ document, (encrypted.translate (.of .openshift 4 14 3 4) .bare false).value =
        some document ∧
      (encrypted.translate (.of .openshift 4 14 3 4) .bare false).provenance.missing
        document.json = [] ∧
      ∀ e ∈ (encrypted.translate (.of .openshift 4 14 3 4) .bare false).provenance.origins,
        (encrypted.json.at? e.2).isSome = true := by
  obtain ⟨document, h⟩ := Option.isSome_iff_exists.mp (by decide +kernel :
    (encrypted.translate (.of .openshift 4 14 3 4) .bare false).value.isSome = true)
  exact ⟨document, h, translate_covered _ _ _ _ (by decide) h⟩

end Config

end Provision
