import Provision.Proofs.Unused
import Provision.Proofs.Variant.Checked
import Provision.Proofs.Variant.Traced

/-!
# Stages of a transpilation

A document is refused as it is read, or stopped on its way because of errors that are found there, or
it is made and checked.

* `Accepts`: a document is a config in which no error is found.
* `accepts_or_refused`: if not, then the document is refused, whatever was to be made of it.
* `transpile_of_stopped`, `transpile_of_made`: what comes of a document that is accepted.
* `found_of_stopped`, `found_of_made`: what is found in it.
-/

set_option autoImplicit false

namespace Provision

open Text (Bytes)
open Yaml (Datum)

/-! ## Reading -/

/-- What is found in a document as it is read. -/
def findings (strict : Bool) (bytes : Bytes) (config : Config) : Report :=
  unused strict [] (Yaml.Tree.ofBytes bytes) config.json ++ config.validate

/-- All of it is about the source. -/
theorem ofSource_findings (strict : Bool) (bytes : Bytes) (config : Config) :
    (findings strict bytes config).OfSource :=
  (ofSource_unused [] _ _).append config.ofSource_validate

/-- A document is a config in which no error is found. -/
structure Accepts (strict : Bool) (bytes : Bytes) (spec : Spec) (config : Config) : Prop where
  decodes : ∃ source, Decodes bytes spec source config
  sound : (findings strict bytes config).isFatal = false

/-- What is decoded, and what is found on the way. -/
theorem Decodes.decode_eq {bytes : Bytes} {spec : Spec} {source : Datum} {config : Config}
    (h : Decodes bytes spec source config) (strict : Bool) :
    decode spec.variant strict (Yaml.Tree.ofBytes bytes) bytes =
      (some config, unused strict [] (Yaml.Tree.ofBytes bytes) config.json) := by
  rw [decode, h.values]
  simp only [h.read]

/-- **A document is accepted, or it is refused whatever is to be made of it**, and all that is found is
about the source. -/
theorem accepts_or_refused (strict : Bool) (bytes : Bytes) :
    (∃ spec config, Accepts strict bytes spec config) ∨
      ∃ (refusal : Refusal) (r : Report), (∀ e ∈ r, e.path.schema = .source) ∧
        refusal.report = r.located (Yaml.Tree.ofBytes bytes) ∧
        ∀ (w : Workspace) (request : Request), request.strict = strict →
          transpile w request bytes = .error refusal := by
  cases hheader : Header.ofBytes? bytes with
  | error e =>
    obtain ⟨problem, trail⟩ := e
    refine .inr ⟨dispatchError (Yaml.Tree.ofBytes bytes) problem trail,
      .sourceError trail problem, List.forall_mem_singleton.mpr rfl, rfl, fun w request _ => ?_⟩
    rw [transpile, hheader]
  | ok header =>
    cases hspec : Spec.lookup header.variant header.version with
    | error problem =>
      refine .inr ⟨dispatchError (Yaml.Tree.ofBytes bytes) problem versionTrail,
        .sourceError versionTrail problem, List.forall_mem_singleton.mpr rfl, rfl,
        fun w request _ => ?_⟩
      rw [transpile, hheader]
      simp only [hspec]
    | ok spec =>
      have hrun : ∀ (w : Workspace) (request : Request), transpile w request bytes =
          transpileAs spec w request (Yaml.Tree.ofBytes bytes) bytes := fun w request => by
        rw [transpile, hheader]
        simp only [hspec]
      suffices h : (∃ spec config, Accepts strict bytes spec config) ∨ ∃ r : Report, r.OfSource ∧
          ∀ (w : Workspace) (request : Request), request.strict = strict →
            transpileAs spec w request (Yaml.Tree.ofBytes bytes) bytes =
              .error (.invalidSource (r.located (Yaml.Tree.ofBytes bytes))) by
        refine h.imp_right ?_
        rintro ⟨r, hr, hrefused⟩
        exact ⟨_, r, fun e he => (hr e he).schema, rfl,
          fun w request hrequest => (hrun w request).trans (hrefused w request hrequest)⟩
      cases hconfig : (decode spec.variant strict (Yaml.Tree.ofBytes bytes) bytes).1 with
      | none =>
        refine .inr ⟨_, ofSource_decode spec.variant strict (Yaml.Tree.ofBytes bytes) bytes,
          fun w request hrequest => ?_⟩
        rw [transpileAs, hrequest]
        simp only [hconfig]
      | some config =>
        obtain ⟨source, hsource, hread⟩ := decode_eq_some hconfig
        have h : Decodes bytes spec source config := ⟨⟨header, hheader, hspec⟩, hsource, hread⟩
        cases hfatal : (findings strict bytes config).isFatal with
        | false => exact .inl ⟨spec, config, ⟨source, h⟩, hfatal⟩
        | true =>
          refine .inr ⟨_, ofSource_findings strict bytes config, fun w request hrequest => ?_⟩
          rw [transpileAs, hrequest, h.decode_eq]
          exact if_pos hfatal

/-! ## Making -/

/-- What is found in a document and on the way to what is made of it, at its place in the source. -/
def passed (spec : Spec) (w : Workspace) (request : Request) (bytes : Bytes) (config : Config) :
    Report :=
  findings request.strict bytes config ++
    ((stamp spec (config.draft spec w)).report.traced (stamp spec (config.draft spec w)).provenance
      ++ config.lost request.raw (stamp spec (config.draft spec w)).value)

section Accepted

variable {w : Workspace} {request : Request} {bytes : Bytes} {spec : Spec} {config : Config}
  {document : Document}

/-- All that is reported until something is made is traced to the source. -/
theorem traced_passed (flaws : Report) :
    (findings request.strict bytes config ++ (config.translate spec w request.raw).report ++
      flaws).traced (config.translate spec w request.raw).provenance =
        passed spec w request bytes config ++
          flaws.traced (config.translate spec w request.raw).provenance := by
  have hfindings := fun e he => (ofSource_findings request.strict bytes config e he).schema
  rw [Report.traced_append, Report.traced_append, Report.traced_source hfindings,
    config.traced_report, passed]

theorem schema_passed : ∀ e ∈ passed spec w request bytes config, e.path.schema = .source := by
  refine List.forall_mem_append.mpr
    ⟨fun e he => (ofSource_findings _ bytes config e he).schema, List.forall_mem_append.mpr
      ⟨Report.schema_traced (config.aligned_stamp spec w) (config.traceable_stamp spec w),
        fun e he => (config.of_mem_lost he).1⟩⟩

/-- **A document is stopped on its way** if an error is found there. -/
theorem transpile_of_stopped (h : Accepts request.strict bytes spec config)
    (hfatal : (stamp spec (config.draft spec w)).report.isFatal = true) :
    transpile w request bytes = .error (.invalidSource
      ((passed spec w request bytes config).located (Yaml.Tree.ofBytes bytes))) := by
  obtain ⟨⟨source, hdecodes⟩, hsound⟩ := h
  obtain ⟨header, hheader, hspec⟩ := hdecodes.header
  have htraced := @traced_passed w request bytes spec config []
  rw [← config.isFatal_report spec w request.raw] at hfatal
  have hreport : (findings request.strict bytes config ++
      (config.translate spec w request.raw).report).isFatal = true := by
    rw [Report.isFatal_append, hfatal, Bool.or_true]
  rw [List.append_nil] at htraced
  rw [transpile, hheader]
  simp only [hspec]
  rw [transpileAs, hdecodes.decode_eq]
  dsimp only
  rw [← findings, hsound, if_neg Bool.false_ne_true, htraced, hreport]
  split
  · exact congrArg _ (congrArg _ (congrArg _ (List.append_nil _)))
  · exact congrArg _ (congrArg _ (congrArg _ (List.append_nil _)))

/-- What is found in all, if a document is made. -/
def foundIn (spec : Spec) (w : Workspace) (request : Request) (bytes : Bytes) (config : Config)
    (document : Document) : Report :=
  (passed spec w request bytes config ++
    document.validate.traced (config.translate spec w request.raw).provenance).located
      (Yaml.Tree.ofBytes bytes)

/-- **A document that is made is checked**, and given if nothing speaks against it. -/
theorem transpile_of_made (h : Accepts request.strict bytes spec config)
    (hfatal : (stamp spec (config.draft spec w)).report.isFatal = false)
    (hvalue : (config.translate spec w request.raw).value = some document) :
    transpile w request bytes =
      if document.validate.isFatal then
        .error (.invalidResult (foundIn spec w request bytes config document))
      else if request.strict && !(foundIn spec w request bytes config document).isEmpty then
        .error (.invalidSource (foundIn spec w request bytes config document))
      else .ok
        { output := render request.pretty document
          report := foundIn spec w request bytes config document
          uncovered := if w.options.debug then
            (config.translate spec w request.raw).provenance.missing document.json else [] } := by
  obtain ⟨⟨source, hdecodes⟩, hsound⟩ := h
  obtain ⟨header, hheader, hspec⟩ := hdecodes.header
  have htraced := @traced_passed w request bytes spec config document.validate
  rw [← config.isFatal_report spec w request.raw] at hfatal
  have hreport : (findings request.strict bytes config ++
      (config.translate spec w request.raw).report).isFatal = false := by
    rw [Report.isFatal_append, hsound, hfatal, Bool.or_false]
  rw [transpile, hheader]
  simp only [hspec]
  rw [transpileAs, hdecodes.decode_eq]
  dsimp only
  rw [← findings, hsound, if_neg Bool.false_ne_true, hvalue]
  dsimp only
  rw [hreport, if_neg Bool.false_ne_true, htraced]
  rfl

/-- What is found in a document that is stopped on its way. -/
theorem found_of_stopped (h : Accepts request.strict bytes spec config)
    (hfatal : (stamp spec (config.draft spec w)).report.isFatal = true) :
    found (transpile w request bytes) =
      (passed spec w request bytes config).located (Yaml.Tree.ofBytes bytes) := by
  rw [transpile_of_stopped h hfatal]
  rfl

/-- What is found in a document that is made. -/
theorem found_of_made (h : Accepts request.strict bytes spec config)
    (hfatal : (stamp spec (config.draft spec w)).report.isFatal = false)
    (hvalue : (config.translate spec w request.raw).value = some document) :
    found (transpile w request bytes) = foundIn spec w request bytes config document := by
  rw [transpile_of_made h hfatal hvalue]
  split
  · rfl
  · split <;> rfl

end Accepted

end Provision
