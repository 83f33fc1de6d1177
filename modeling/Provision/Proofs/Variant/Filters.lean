import Provision.Proofs.Filter
import Provision.Proofs.Source.Report
import Provision.Proofs.Transpile
import Provision.Proofs.Trees.Files

/-!
# What is not supported is not made

Variants look for what they do not support before a document gets its version, and before it is read
as a config. Nothing that they forbid is left in what is read.

* `Config.filters`: the filters of a variant.
* `Config.report_draft`: what is reported of a document on its way.
* `Config.exists_of_not_isFatal`: a config without errors is made into a document.
* `Filter.Lasting`: the filters that see in a config what they saw in the document it is read from.
-/

set_option autoImplicit false

namespace Provision

open Draft (Shaped)

/-! ## Reports on the way -/

/-- Nothing is wrong with what follows from the description of the boot device. -/
theorem BootDevice.report_plan (b : BootDevice) (start : Trail) : (b.plan start).report = [] := by
  suffices h : ∀ (entries : List (Cause × String × Json)) (d : Draft), d.report = [] →
      (entries.foldl (fun d e => d.push (e.1.trail start) e.2.1 e.2.2) d).report = [] from
    h b.nodes .empty rfl
  intro entries
  induction entries with
  | nil => exact fun _ h => h
  | cons e rest ih => exact fun d h => ih _ ((Draft.report_push _ _ _ _).trans h)

theorem Fcos.Config.report_lower (w : Workspace) (c : Fcos.Config) : (c.lower w).report = [] := by
  rw [lower]
  split
  · exact c.bootDevice.report_plan []
  · rw [Merge.merge, c.bootDevice.report_plan []]
    rfl

theorem Openshift.Config.report_withCiphers (c : Openshift.Config) (d : Draft) :
    (c.withCiphers d).report = d.report := by
  rw [withCiphers]
  split <;> rfl

namespace Filter

theorem applyAll_nil (root : Path) (document : Json) : applyAll [] root document = [] := by
  rw [applyAll_eq]
  exact List.flatMap_eq_nil_iff.mpr fun _ _ => rfl

end Filter

namespace Config

/-- The filters for what a variant does not support. -/
def filters (spec : Spec) : Config → List Filter
  | .fcos _ => []
  | .flatcar _ => Plain.flatcarFilters
  | .openshift _ => Openshift.filters spec
  | .fiot _ => Plain.fiotFilters

/-- What is reported of a document on its way: what stops it from being made, and what the filters
find in it. -/
theorem report_draft (spec : Spec) (w : Workspace) (config : Config) : ∃ stops : Report,
    stops.Stops ∧ (config.draft spec w).report =
      stops ++ Filter.applyAll (config.filters spec) (.target []) (config.draft spec w).value := by
  have hsections := fun w => Source.stops_translate w config.base
  cases config with
  | fcos c =>
    refine ⟨_, hsections w, ?_⟩
    rw [filters, Filter.applyAll_nil, List.append_nil, draft, Merge.merge, Fcos.Config.report_lower]
    rfl
  | flatcar c => exact ⟨_, hsections w, rfl⟩
  | openshift c =>
    refine ⟨_, hsections (Openshift.workspace spec w), ?_⟩
    rw [draft, Draft.checked, Openshift.Config.report_withCiphers, Merge.merge,
      c.bootDevice.report_plan []]
    rfl
  | fiot c => exact ⟨_, hsections w, rfl⟩

/-- If nothing is wrong with what is made of a config, nothing is wrong on its way. -/
theorem isFatal_draft {spec : Spec} {w : Workspace} {raw : Bool} {config : Config}
    (h : (config.translate spec w raw).report.isFatal = false) :
    (config.draft spec w).report.isFatal = false := by
  have hstamp : ∀ d : Draft, (stamp spec d).report.isFatal = false → d.report.isFatal = false := by
    intro d hd
    rw [stamp] at hd
    split at hd
    · exact hd
    · rw [Report.isFatal_append, Bool.or_eq_false_iff] at hd
      exact hd.1
  cases config with
  | fcos c => exact hstamp _ h
  | flatcar c => exact hstamp _ h
  | openshift c =>
    refine hstamp ((Config.openshift c).draft spec w) ?_
    rw [translate, Openshift.Config.translate] at h
    dsimp only at h
    split at h
    · rwa [Report.isFatal_under] at h
    · split at h
      · rw [Report.isFatal_traced, Report.isFatal_append, Report.isFatal_under,
          Bool.or_eq_false_iff] at h
        exact h.1
      · rwa [Report.isFatal_under] at h
  | fiot c => exact hstamp _ h

/-- A config of which something is made is made of its draft. -/
theorem exists_of_not_isFatal {spec : Spec} {w : Workspace} {raw : Bool} {config : Config}
    (h : (config.translate spec w raw).report.isFatal = false) :
    ∃ document, (config.translate spec w raw).value = some document ∧
      (stamp spec (config.draft spec w)).value = some document.config := by
  cases hvalue : (config.translate spec w raw).value with
  | none =>
    rw [isFatal_translate hvalue] at h
    cases h
  | some document => exact ⟨document, rfl, value_stamp hvalue⟩

end Config

/-! ## What filters see -/

/-- What is read of a document is at its place, but for the version. -/
theorem at?_withVersion {x : Json} (h : Ignition.Config.shape.Fits x) (version : String) {k : String}
    (hk : k ≠ "ignition") (u : Trail) :
    (withVersion version x).at? (.key k :: u) = x.at? (.key k :: u) := by
  obtain ⟨root, rfl⟩ := h.eq_obj
  have hlookup : (withVersion version (.obj root)).child? (.key k) = Json.lookup k root := by
    rw [withVersion]
    split
    · exact Json.lookup_insert_of_ne hk _ _
    · rfl
  rw [Json.at?_cons, Json.at?_cons, hlookup, Json.child?_key_obj]

namespace Filter

/-- Whether an outline is about one of the sections of a config, but not about its settings, among
which is the version. -/
def isInSection : Outline → Bool
  | some k :: _ => k ≠ "ignition"
  | _ => false

/-- Whether an outline is that of leaves whose values are kept when a config is read. Only numbers may
be left out. -/
def isKeptLeaf (o : Outline) : Bool :=
  (match Ignition.Config.shape.at? o.trail with
    | some .leaf => true
    | _ => false) && o.getLast? ≠ some (some "number")

/-- A filter sees in a config what it saw in the document that the config is read from: it is not
about the version, and it catches either everything at its places, or leaves by their values. -/
structure Lasting (f : Filter) : Prop where
  inSection : isInSection f.pattern.outline = true
  catches : (∀ x, f.catches x = true) ∨ isKeptLeaf f.pattern.outline = true

theorem shape_of_isKeptLeaf {t : Trail} (h : isKeptLeaf t.outline = true) :
    Ignition.Config.shape.at? t = some .leaf ∧ t.getLast? ≠ some (.key "number") := by
  obtain ⟨hleaf, hlast⟩ := Bool.and_eq_true_iff.mp h
  rw [Shape.at?_congr (Outline.outline_trail _)] at hleaf
  refine ⟨?_, fun hk => of_decide_eq_true hlast ?_⟩
  · split at hleaf
    · assumption
    · cases hleaf
  · rw [Trail.outline, List.getLast?_map, hk]
    rfl

/-- **What a filter catches in a config it catches in the document** that the config is read from. -/
theorem Lasting.applies {f : Filter} (hf : f.Lasting) {d : Draft} (hd : Shaped d) {spec : Spec}
    {config : Ignition.Config} (hc : (stamp spec d).value = some config) {t : Trail} {x : Json}
    (hx : (Ignition.Config.codec.write config).at? t = some x) (happlies : f.applies t x = true) :
    ∃ z, d.value.at? t = some z ∧ f.applies t z = true := by
  obtain ⟨hfits, hne, hcatches⟩ := applies_iff.mp happlies
  have hkept := kept_of_stamp hd hc
  obtain ⟨z, hz, hzne⟩ := hkept.backed t x hx hne
  refine ⟨z, ?_, applies_iff.mpr ⟨hfits, hzne, ?_⟩⟩
  · have hsection : isInSection t.outline = true := hfits ▸ hf.inSection
    match t with
    | [] => cases hsection
    | .index _ :: _ => cases hsection
    | .key k :: u => rwa [at?_withVersion hd.fits _ (of_decide_eq_true hsection)] at hz
  · rcases hf.catches with hall | hleaf
    · exact hall z
    · -- The value of a leaf is read as it is.
      obtain ⟨hshape, hnumber⟩ := shape_of_isKeptLeaf (hfits ▸ hleaf)
      have hscalar : z.isScalar = true := by
        have hallows := ((shaped_withVersion hd spec.target.text).fits.at_of hz hshape).allows
        cases z <;> first | rfl | (cases hallows; done) | cases hzne
      cases hx.symm.trans (hkept.leaf t z hz hscalar hzne fun hu => hnumber hu.1)
      exact hcatches

end Filter

/-! ## The filters of the variants -/

/-- What a variant does not support it forbids. -/
theorem Config.severity_filters {spec : Spec} {config : Config} :
    ∀ f ∈ config.filters spec, f.severity = .error := by
  cases config with
  | fcos => exact nofun
  | openshift =>
    rw [filters, Openshift.filters]
    cases Openshift.isCapable spec <;> decide
  | flatcar => exact List.forall_mem_singleton.mpr rfl
  | fiot => exact (by decide : ∀ f ∈ Plain.fiotFilters, f.severity = .error)

theorem Openshift.lasting_filters (spec : Spec) : ∀ f ∈ filters spec, f.Lasting := by
  have hsection : ∀ f ∈ filters spec, Filter.isInSection f.pattern.outline = true := by
    rw [filters]
    cases isCapable spec <;> decide
  have hcatches : ∀ f ∈ filters spec,
      (∀ x, f.catches x = true) ∨ Filter.isKeptLeaf f.pattern.outline = true := by
    refine List.forall_mem_append.mpr ⟨List.forall_mem_append.mpr ⟨?_, ?_⟩, ?_⟩
    · simp only [List.forall_mem_cons, List.not_mem_nil, false_implies, implies_true, and_true]
      and_intros <;> first | exact .inl fun _ => rfl | exact .inr (by decide)
    · split
      · exact nofun
      · simp only [List.forall_mem_cons, List.not_mem_nil, false_implies, implies_true, and_true]
        exact ⟨.inl fun _ => rfl, .inl fun _ => rfl⟩
    · exact List.forall_mem_map.mpr fun _ _ => .inl fun _ => rfl
  exact fun f hf => ⟨hsection f hf, hcatches f hf⟩

/-- **The filters of all variants see in a config what they saw in the document** that it is read
from. -/
theorem Config.lasting_filters (spec : Spec) (config : Config) :
    ∀ f ∈ config.filters spec, f.Lasting := by
  cases config with
  | fcos => exact nofun
  | flatcar => exact List.forall_mem_singleton.mpr ⟨by decide, .inl fun _ => rfl⟩
  | openshift => exact Openshift.lasting_filters spec
  | fiot =>
    have hsection : ∀ f ∈ Plain.fiotFilters, Filter.isInSection f.pattern.outline = true := by
      decide
    refine fun f hf => ⟨hsection f hf, .inl ?_⟩
    revert f
    simp only [filters, Plain.fiotFilters, List.forall_mem_cons, List.not_mem_nil, false_implies,
      implies_true, and_true]
    exact ⟨fun _ => rfl, fun _ => rfl, fun _ => rfl, fun _ => rfl⟩

/-- **Nothing that a variant forbids is left** in the config that is made, if no error is reported. -/
theorem Config.not_applies {spec : Spec} {w : Workspace} {raw : Bool} {config : Config}
    (h : (config.translate spec w raw).report.isFatal = false) {made : Ignition.Config}
    (hmade : (stamp spec (config.draft spec w)).value = some made) {f : Filter}
    (hf : f ∈ config.filters spec) {t : Trail} {x : Json}
    (hx : (Ignition.Config.codec.write made).at? t = some x) : f.applies t x = false := by
  have hshaped := shaped_draft spec w config
  rw [← Bool.not_eq_true]
  intro happlies
  obtain ⟨z, hz, hzapplies⟩ :=
    (config.lasting_filters spec f hf).applies hshaped hmade hx happlies
  obtain ⟨stops, -, hreport⟩ := config.report_draft spec w
  have hdraft := isFatal_draft h
  rw [hreport, Report.isFatal_append, Bool.or_eq_false_iff] at hdraft
  have hnone := Filter.not_applies_of_not_isFatal hshaped.distinct hdraft.2 hf
    (severity_filters f hf) hz
  rw [hzapplies] at hnone
  cases hnone

end Provision
