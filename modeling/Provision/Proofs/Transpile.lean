import Provision.Proofs.Variant.Printed

/-!
# Results and reports

There are many ways for a transpilation to end: the document cannot be dispatched, is not a config,
is not valid, cannot be translated, is translated into something that is not valid, has warnings
that are not wanted, or goes through. The report tells which of them it was.

* `found`: the report, whatever came of a document.
* `transpile_isOk`, `transpile_isOk_strict`: there is a result if and only if nothing speaks against
  it in the report.
* `transpile_output`: a result is a document with the version that its header asks for.
-/

set_option autoImplicit false

namespace Provision

open Text (Bytes)
open Yaml (Datum)

/-! ## Reports on the way -/

namespace Report

/-- Entries that are moved keep their severities. -/
theorem isFatal_map {f : Entry → Entry} (h : ∀ e, (f e).severity = e.severity) (r : Report) :
    isFatal (r.map f) = isFatal r := by
  have hf : Entry.isError ∘ f = Entry.isError := by
    funext e
    rw [Function.comp, Entry.isError, Entry.isError, h]
  rw [isFatal, isFatal, List.any_map, hf]

@[simp] theorem isFatal_located (tree : Yaml.Tree) (r : Report) :
    (r.located tree).isFatal = r.isFatal :=
  isFatal_map (fun e => by split <;> rfl) r

@[simp] theorem isFatal_traced (r : Report) (p : Provenance) : (r.traced p).isFatal = r.isFatal := by
  refine isFatal_map (fun e => ?_) r
  split
  · rfl
  · split <;> rfl

@[simp] theorem isFatal_under (start : Path) (r : Report) : (r.under start).isFatal = r.isFatal :=
  isFatal_map (fun e => by split <;> rfl) r

theorem ne_nil_of_isFatal {r : Report} (h : r.isFatal = true) : r ≠ [] := by
  rintro rfl
  cases h

end Report

/-! ## Stages -/

/-- A draft that is no config is reported. -/
theorem isFatal_stamp {spec : Spec} {d : Draft} (h : (stamp spec d).value = none) :
    (stamp spec d).report.isFatal = true := by
  rw [stamp] at h ⊢
  split at h
  · cases h
  · rw [Report.isFatal_append]
    exact Bool.or_true _

/-- **A config of which nothing is made is reported.** -/
theorem Config.isFatal_translate {spec : Spec} {w : Workspace} {raw : Bool} {config : Config}
    (h : (config.translate spec w raw).value = none) :
    (config.translate spec w raw).report.isFatal = true := by
  cases config with
  | fcos c => exact isFatal_stamp (Option.map_eq_none_iff.mp h)
  | flatcar c => exact isFatal_stamp (Option.map_eq_none_iff.mp h)
  | fiot c => exact isFatal_stamp (Option.map_eq_none_iff.mp h)
  | openshift c =>
    rw [translate, Openshift.Config.translate] at h ⊢
    dsimp only at h ⊢
    split at h
    · next hinner =>
      rw [Report.isFatal_under]
      exact isFatal_stamp hinner
    · split at h <;> cases h

/-- **A document that is no config is reported.** -/
theorem isFatal_decode {variant : Variant} {strict : Bool} {tree : Yaml.Tree} {bytes : Bytes}
    (h : (decode variant strict tree bytes).1 = none) :
    (decode variant strict tree bytes).2.isFatal = true := by
  rw [decode] at h ⊢
  split at h
  · rfl
  · split at h
    · rfl
    · cases h

/-- A config comes from a document. -/
theorem decode_eq_some {variant : Variant} {strict : Bool} {tree : Yaml.Tree} {bytes : Bytes}
    {config : Config} (h : (decode variant strict tree bytes).1 = some config) :
    ∃ document, Datum.ofBytes? bytes = some document ∧
      Config.ofDatum variant document = .ok config := by
  rw [decode] at h
  split at h
  · cases h
  · next document hdocument =>
    split at h
    · cases h
    · next hread =>
      cases h
      exact ⟨document, hdocument, hread⟩

/-! ## The whole way -/

/-- What was found, whatever came of a document. -/
def found : Except Refusal Transpiled → Report
  | .ok made => made.report
  | .error refusal => refusal.report

/-- Whether a report lets a document through: on request nothing at all may be found in it. -/
def Report.passes (strict : Bool) (r : Report) : Bool := if strict then r.isEmpty else !r.isFatal

theorem Report.passes_of_isFatal {r : Report} (h : r.isFatal = true) (strict : Bool) :
    r.passes strict = false := by
  cases strict with
  | false => rw [passes, if_neg Bool.false_ne_true, h, Bool.not_true]
  | true => rw [passes, if_pos rfl, List.isEmpty_eq_false_iff.mpr (ne_nil_of_isFatal h)]

theorem Report.passes_of_not_isFatal {r : Report} (h : r.isFatal = false) (strict : Bool) :
    r.passes strict = !(strict && !r.isEmpty) := by
  cases strict with
  | false => rw [passes, if_neg Bool.false_ne_true, h, Bool.false_and]
  | true => rw [passes, if_pos rfl, Bool.true_and, Bool.not_not]

/-- **There is a result if and only if the report lets the document through.** -/
theorem isOk_transpileAs (spec : Spec) (w : Workspace) (request : Request) (tree : Yaml.Tree)
    (bytes : Bytes) :
    (transpileAs spec w request tree bytes).isOk =
      (found (transpileAs spec w request tree bytes)).passes request.strict := by
  have refused : ∀ {refusal : Refusal}, refusal.report.isFatal = true →
      (Except.error refusal : Except Refusal Transpiled).isOk =
        (found (.error refusal)).passes request.strict :=
    fun h => (Report.passes_of_isFatal h _).symm
  have hdecode := @isFatal_decode spec.variant request.strict tree bytes
  rw [transpileAs]
  generalize decode spec.variant request.strict tree bytes = decoded at hdecode ⊢
  obtain ⟨config, report⟩ := decoded
  dsimp only at hdecode ⊢
  split
  · exact refused ((Report.isFatal_located tree report).trans (hdecode rfl))
  · next config =>
    split
    · next hchecked => exact refused ((Report.isFatal_located tree _).trans hchecked)
    · next hchecked =>
      split
      · next hvalue =>
        refine refused ?_
        rw [Refusal.report, Report.isFatal_located, Report.isFatal_traced, Report.isFatal_append,
          Config.isFatal_translate hvalue, Bool.or_true]
      · next document hvalue =>
        split
        · next hreport =>
          refine refused ?_
          rw [Refusal.report, Report.isFatal_located, Report.isFatal_traced]
          exact hreport
        · next hreport =>
          split
          · next hflaws =>
            refine refused ?_
            rw [Refusal.report, Report.isFatal_located, Report.isFatal_traced,
              Report.isFatal_append, hflaws, Bool.or_true]
          · next hflaws =>
            have hall : ((((report ++ config.validate ++
                (config.translate spec w request.raw).report ++ document.validate).traced
                (config.translate spec w request.raw).provenance).located tree)).isFatal =
                false := by
              rw [Report.isFatal_located, Report.isFatal_traced, Report.isFatal_append,
                eq_false_of_ne_true hreport, eq_false_of_ne_true hflaws,
                Bool.or_false]
            split
            · next hrefused =>
              have hpasses := Report.passes_of_not_isFatal hall request.strict
              rw [hrefused] at hpasses
              exact hpasses.symm
            · next hgo =>
              have hpasses := Report.passes_of_not_isFatal hall request.strict
              rw [eq_false_of_ne_true hgo] at hpasses
              exact hpasses.symm

theorem transpile_cases (w : Workspace) (request : Request) (bytes : Bytes) :
    (∃ problem trail, transpile w request bytes =
        .error (dispatchError (Yaml.Tree.ofBytes bytes) problem trail)) ∨
      ∃ header spec, Header.ofBytes? bytes = .ok header ∧
        Spec.lookup header.variant header.version = .ok spec ∧
        transpile w request bytes =
          transpileAs spec w request (Yaml.Tree.ofBytes bytes) bytes := by
  rw [transpile]
  split
  · exact .inl ⟨_, _, rfl⟩
  · next header hheader =>
    split
    · exact .inl ⟨_, _, rfl⟩
    · next spec hspec => exact .inr ⟨header, spec, hheader, hspec, rfl⟩

/-- **There is a result if and only if the report lets the document through.** -/
theorem isOk_transpile (w : Workspace) (request : Request) (bytes : Bytes) :
    (transpile w request bytes).isOk =
      (found (transpile w request bytes)).passes request.strict := by
  rcases transpile_cases w request bytes with ⟨problem, trail, h⟩ | ⟨_, spec, -, -, h⟩
  · have hfatal : (dispatchError (Yaml.Tree.ofBytes bytes) problem trail).report.isFatal = true :=
      Report.isFatal_located _ _
    rw [h, found, Report.passes_of_isFatal hfatal]
    rfl
  · rw [h]
    exact isOk_transpileAs spec w request _ bytes

/-- A result is the text of the document that is made of the config that was read. -/
theorem transpileAs_eq_ok {spec : Spec} {w : Workspace} {request : Request} {tree : Yaml.Tree}
    {bytes : Bytes} {made : Transpiled} (h : transpileAs spec w request tree bytes = .ok made) :
    ∃ config document, (decode spec.variant request.strict tree bytes).1 = some config ∧
      (config.translate spec w request.raw).value = some document ∧
      made.output = render request.pretty document := by
  rw [transpileAs] at h
  generalize decode spec.variant request.strict tree bytes = decoded at h ⊢
  obtain ⟨config, report⟩ := decoded
  dsimp only at h ⊢
  split at h
  · cases h
  · next config =>
    split at h
    · cases h
    · split at h
      · cases h
      · next document hvalue =>
        split at h
        · cases h
        · split at h
          · cases h
          · split at h
            · cases h
            · cases h
              exact ⟨config, document, rfl, hvalue, rfl⟩

/-- **A result is a JSON document that has, where its config has it, the version that the catalog
gives for the header.** -/
theorem transpile_version {w : Workspace} {request : Request} {bytes : Bytes} {made : Transpiled}
    (h : transpile w request bytes = .ok made) :
    ∃ header spec document, Header.ofBytes? bytes = .ok header ∧
      Spec.lookup header.variant header.version = .ok spec ∧
      Json.parse made.output = .ok document ∧
      document.at? (Config.configPlace spec.variant request.raw ++ stampPlace) =
        some (.str spec.target.text) := by
  rcases transpile_cases w request bytes with ⟨_, _, herror⟩ | ⟨header, spec, hheader, hspec, hmade⟩
  · rw [herror] at h
    cases h
  · rw [hmade] at h
    obtain ⟨config, document, hconfig, hdocument, houtput⟩ := transpileAs_eq_ok h
    obtain ⟨source, -, hread⟩ := decode_eq_some hconfig
    have hversion := Config.translate_version hdocument
    rw [Config.variant_ofDatum hread] at hversion
    refine ⟨header, spec, document.json, hheader, hspec, ?_, hversion⟩
    rw [houtput]
    exact parse_render (Config.readable_translate hread hdocument) request.pretty

end Provision
