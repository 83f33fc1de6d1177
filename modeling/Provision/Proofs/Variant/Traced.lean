import Provision.Proofs.Ignition.Findings
import Provision.Proofs.Variant.Anchored
import Provision.Proofs.Variant.Lost

/-!
# Reports about documents are about configs

What is found in a document on its way is reported where it comes from in the config. It does not
matter for this whether the document is wrapped, and how often it is moved.

* `Config.traceable_stamp`: all that is reported of a draft is about parts with an origin.
* `Config.traced_report`: what is reported of a config that is translated.
* `Config.find?_translate`: where the parts of a document come from.
-/

set_option autoImplicit false

namespace Provision

open Draft (Shaped Anchored volumePlace)

namespace Config

variable {spec : Spec} {w : Workspace} {config : Config}

/-- The draft with its version is about the config and the document. -/
theorem aligned_stamp (spec : Spec) (w : Workspace) (config : Config) :
    (stamp spec (config.draft spec w)).provenance.Aligned :=
  Provision.aligned_stamp (anchored_draft spec w config).aligned spec

/-- The filters of a variant are not about whole documents, and those of an operator not about whole
volumes. -/
theorem outline_filters : ∀ f ∈ config.filters spec,
    f.pattern.outline ≠ [] ∧ ¬config.Excused f.pattern.outline := by
  cases config with
  | fcos => exact nofun
  | flatcar =>
    exact List.forall_mem_singleton.mpr ⟨by decide, id⟩
  | openshift =>
    rw [filters, Openshift.filters]
    simp only [Excused]
    cases Openshift.isCapable spec <;> decide
  | fiot =>
    have h : ∀ f ∈ Plain.fiotFilters, f.pattern.outline ≠ [] := by decide
    exact fun f hf => ⟨h f hf, id⟩

/-- Where a filter applies to a draft there is an origin. -/
theorem isSome_of_applies {f : Filter} (hf : f ∈ config.filters spec) {t : Trail} {x : Json}
    (hx : (config.draft spec w).value.at? t = some x) (happlies : f.applies t x = true) :
    t ≠ [] ∧ ((stamp spec (config.draft spec w)).provenance.find? t).isSome = true := by
  obtain ⟨hplace, hne, -⟩ := Filter.applies_iff.mp happlies
  obtain ⟨hnil, hexcused⟩ := outline_filters f hf
  rw [hplace] at hnil hexcused
  have ht : t ≠ [] := fun h => hnil (h ▸ rfl)
  refine ⟨ht, ?_⟩
  rw [stamp_provenance]
  exact (@grows_stamp (fun _ => True) trivial _).isSome t
    ((anchored_draft spec w config).covers t x hx hne ht hexcused)

/-- **All that is reported of a draft is traceable.** -/
theorem traceable_stamp (spec : Spec) (w : Workspace) (config : Config) :
    ∀ e ∈ (stamp spec (config.draft spec w)).report,
      e.IsTraceable (stamp spec (config.draft spec w)).provenance := by
  have hdraft : ∀ e ∈ (config.draft spec w).report,
      e.IsTraceable (stamp spec (config.draft spec w)).provenance := by
    obtain ⟨stops, hstops, hreport⟩ := config.report_draft spec w
    rw [hreport]
    refine List.forall_mem_append.mpr ⟨fun e he => .inl (hstops e he).schema, fun e he => ?_⟩
    obtain ⟨f, hf, t, x, hx, happlies, rfl⟩ :=
      (Filter.mem_applyAll_iff (shaped_draft spec w config).distinct).mp he
    exact .inr ⟨rfl, isSome_of_applies hf hx happlies⟩
  generalize (stamp spec (config.draft spec w)).provenance = p at hdraft ⊢
  rw [stamp]
  split
  · exact hdraft
  · exact List.forall_mem_append.mpr ⟨hdraft, List.forall_mem_singleton.mpr (.inl rfl)⟩

/-! ### What is reported of a config that is translated -/

/-- What is reported of settings that are lost in what is made of a config. -/
def lost (config : Config) (raw : Bool) (made : Option Ignition.Config) : Report :=
  match config with
  | .openshift c => if raw then (made.map c.lost).getD [] else []
  | _ => []

/-- What is lost is reported as a warning at a place of the source. -/
theorem of_mem_lost {raw : Bool} {made : Option Ignition.Config} {e : Entry}
    (h : e ∈ config.lost raw made) : e.path.schema = .source ∧ e.severity = .warning := by
  cases config with
  | openshift c =>
    cases raw with
    | false => cases h
    | true =>
      cases made with
      | none => cases h
      | some made =>
        obtain ⟨_, -, rfl⟩ := List.mem_map.mp h
        exact ⟨rfl, rfl⟩
  | _ => cases h

/-- **What is reported of a config that is translated** is what is reported of the draft, where it
comes from, and of the settings that are lost. -/
theorem traced_report (spec : Spec) (w : Workspace) (raw : Bool) (config : Config) :
    (config.translate spec w raw).report.traced (config.translate spec w raw).provenance =
      (stamp spec (config.draft spec w)).report.traced
        (stamp spec (config.draft spec w)).provenance ++
          config.lost raw (stamp spec (config.draft spec w)).value := by
  have haligned := config.aligned_stamp spec w
  have htraceable := config.traceable_stamp spec w
  cases config with
  | fcos c => exact (List.append_nil _).symm
  | flatcar c => exact (List.append_nil _).symm
  | fiot c => exact (List.append_nil _).symm
  | openshift c =>
    have hinner : c.inner spec w = stamp spec ((Config.openshift c).draft spec w) := rfl
    rw [translate, Openshift.Config.translate]
    dsimp only
    rw [hinner]
    generalize stamp spec ((Config.openshift c).draft spec w) = inner at haligned htraceable ⊢
    have hwrapped : (inner.report.under (.target Openshift.configTrail)).traced
        (c.wrapped inner.provenance) = inner.report.traced inner.provenance :=
      Report.traced_under haligned (c.aligned_wrapped _)
        (fun t ht => Openshift.Config.find?_wrapped ht) htraceable
    have hlost : ∀ made, ∀ e ∈ c.lost made, e.path.schema = .source := fun made =>
      List.forall_mem_map.mpr fun _ _ => rfl
    cases inner.value with
    | none =>
      have hmoved : (inner.report.under (.target Openshift.configTrail)).traced
          (inner.provenance.under (.source []) (.target Openshift.configTrail)) =
            inner.report.traced inner.provenance := by
        refine Report.traced_under haligned ⟨rfl, rfl⟩ (fun t _ => ?_) htraceable
        refine (inner.provenance.find?_under (.source []) _ t).trans ?_
        cases inner.provenance.find? t <;> rfl
      cases raw <;> exact hmoved.trans (List.append_nil _).symm
    | some made =>
      cases raw with
      | false => exact hwrapped.trans (List.append_nil _).symm
      | true =>
        -- What was traced in the wrapper is not traced again.
        change (((inner.report.under _) ++ _).traced (c.wrapped inner.provenance)).traced _ = _
        rw [Report.traced_append, hwrapped, c.traced_lost]
        exact Report.traced_source (List.forall_mem_append.mpr
          ⟨Report.schema_traced haligned htraceable, hlost made⟩)

/-- Only a draft with an error keeps a config from being made, whether it is wrapped or not. -/
theorem isFatal_report (spec : Spec) (w : Workspace) (raw : Bool) (config : Config) :
    (config.translate spec w raw).report.isFatal =
      (stamp spec (config.draft spec w)).report.isFatal := by
  have hlost : (config.lost raw (stamp spec (config.draft spec w)).value).isFatal = false :=
    List.any_eq_false.mpr fun e he => by
      rw [Entry.isError, (of_mem_lost he).2]
      decide
  have htraced := congrArg Report.isFatal (config.traced_report spec w raw)
  rwa [Report.isFatal_append, Report.isFatal_traced, Report.isFatal_traced, hlost,
    Bool.or_false] at htraced

/-- If no error is found on the way, nothing is found at all. -/
theorem report_stamp {raw : Bool} (h : (config.translate spec w raw).report.isFatal = false) :
    (stamp spec (config.draft spec w)).report = [] := by
  have hstamp := (config.isFatal_report spec w raw).symm.trans h
  have hdraft : (config.draft spec w).report = [] := by
    have herrors : ∀ e ∈ (config.draft spec w).report, e.isError = true := by
      obtain ⟨stops, hstops, hreport⟩ := config.report_draft spec w
      rw [hreport]
      refine List.forall_mem_append.mpr ⟨fun e he => decide_eq_true (hstops e he).severity, fun e he => ?_⟩
      obtain ⟨f, hf, t, x, -, -, rfl⟩ :=
        (Filter.mem_applyAll_iff (shaped_draft spec w config).distinct).mp he
      exact decide_eq_true (severity_filters f hf)
    refine List.eq_nil_iff_forall_not_mem.mpr fun e he => ?_
    exact List.any_eq_false.mp (isFatal_draft h) e he (herrors e he)
  rw [stamp] at hstamp ⊢
  split at hstamp
  · exact hdraft
  · rw [Report.isFatal_append] at hstamp
    exact absurd hstamp (by simp [Report.sourceError, Report.isFatal, Entry.error, Entry.isError])

/-! ### Where the parts of a document come from -/

theorem aligned_translate {raw : Bool} {document : Document}
    (h : (config.translate spec w raw).value = some document) :
    (config.translate spec w raw).provenance.Aligned := by
  obtain ⟨made, -, ⟨-, hp⟩ | ⟨c, -, ⟨-, hp⟩ | ⟨-, hp⟩⟩⟩ := translate_cases h
  · rw [hp]
    exact config.aligned_stamp spec w
  · rw [hp]
    exact c.aligned_wrapped _
  · rw [hp]
    exact (c.aligned_wrapped _).below _

/-- **The parts of a document come from where they came from**, wherever the config is in it. -/
theorem find?_translate {raw : Bool} {document : Document}
    (h : (config.translate spec w raw).value = some document) {t : Trail} (ht : t ≠ []) :
    (config.translate spec w raw).provenance.find? (document.configTrail ++ t) =
      (stamp spec (config.draft spec w)).provenance.find? t := by
  obtain ⟨made, -, ⟨rfl, hp⟩ | ⟨c, -, ⟨rfl, hp⟩ | ⟨rfl, hp⟩⟩⟩ := translate_cases h
  · rw [hp]
    rfl
  · rw [hp]
    exact Openshift.Config.find?_wrapped ht
  · rw [hp, Provenance.find?_below _ (Openshift.Config.target_wrapped c _).symm]
    exact Openshift.Config.find?_wrapped ht

/-! ### Flaws -/

section Flaws

variable {raw : Bool} {document : Document} {f : Ignition.Finding}

/-- **A flaw of a node with content is about a part with an origin.** -/
theorem isSome_of_flaw (h : (config.translate spec w raw).value = some document)
    (hf : f ∈ Ignition.validate document.config) {x : Json}
    (hx : document.json.at? (document.configTrail ++ f.trail) = some x)
    (hne : x.isEmpty = false) :
    ((config.translate spec w raw).provenance.find?
      (document.configTrail ++ f.trail)).isSome = true := by
  have hplaced := Ignition.placed_of_mem hf
  have hexcused : ¬config.Excused f.trail.outline := by
    cases config with
    | openshift c => exact hplaced.outline_ne
    | _ => exact id
  rw [at?_document] at hx
  rw [find?_translate h hplaced.ne_nil]
  exact (anchored_stamp (anchored_draft spec w config) (value_stamp h)).1 _ x hx hne
    hplaced.ne_nil hexcused

/-- **A flaw that is no error is about a part with an origin**, whatever is in it. -/
theorem isSome_of_warning (h : (config.translate spec w raw).value = some document)
    (hf : f ∈ Ignition.validate document.config) (hwarning : f.severity ≠ .error) :
    ((stamp spec (config.draft spec w)).provenance.find? f.trail).isSome = true := by
  obtain ⟨i, u, hu, hcontents, htrail⟩ := (Ignition.placed_of_mem hf).error_or.resolve_left hwarning
  obtain ⟨text, htext⟩ := Option.isSome_iff_exists.mp hcontents
  rw [htrail]
  exact (anchored_stamp (anchored_draft spec w config) (value_stamp h)).2 i u text hu htext

end Flaws

end Config

end Provision
