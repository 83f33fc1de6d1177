import Provision.Proofs.Diagnostics

/-!
# With and without a wrapper

A document for an operator is accepted or refused in the same way whether its config is to be wrapped or
not, and the config is the same. Without the wrapper there are warnings of the settings that are lost.

* `Unwraps`: a config without its wrapper, and what is reported of it.
* `transpile_raw`: the two ways to make something of a document agree.
-/

set_option autoImplicit false

namespace Provision

open Text (Bytes)
open Openshift (lostSettings configTrail)

/-! ## Documents for an operator -/

/-- The names of variants differ. -/
theorem Variant.eq_openshift {v : Variant} (h : v.name = "openshift") : v = .openshift := by
  cases v with
  | openshift => rfl
  | _ => exact absurd h (by decide)

/-- A spec is for the variant that it is asked for. -/
theorem Spec.name_of_lookup {name : String} {version : Version} {spec : Spec}
    (h : Spec.lookup name version = .ok spec) : spec.variant.name = name := by
  rw [lookup] at h
  split at h
  · next hfind =>
    cases h
    have hmatch := List.find?_some hfind
    exact of_decide_eq_true (Bool.and_eq_true_iff.mp hmatch).1
  · cases h

/-- A document whose header is that of a config for the operator is one. -/
theorem Accepts.exists_openshift {strict : Bool} {bytes : Bytes} {spec : Spec} {config : Config}
    (h : Accepts strict bytes spec config)
    (hvariant : ∀ header, Header.ofBytes? bytes = .ok header → header.variant = "openshift") :
    ∃ c, config = .openshift c := by
  obtain ⟨⟨source, hdecodes⟩, -⟩ := h
  obtain ⟨header, hheader, hspec⟩ := hdecodes.header
  have hname := (Spec.name_of_lookup hspec).trans (hvariant header hheader)
  have hconfig := (Config.variant_ofDatum hdecodes.read).trans (Variant.eq_openshift hname)
  cases config with
  | openshift c => exact ⟨c, rfl⟩
  | _ => cases hconfig

/-! ## What is lost -/

/-- The warnings of the settings in a wrapper that are lost without it, with their places. -/
def elided (tree : Yaml.Tree) (m : MachineConfig) : Report :=
  (lostSettings.filter fun s =>
    ((MachineConfig.codec.write m).at? [.key "spec", .key s.1]).isSome).map fun s =>
      let origin : Trail := [.key "openshift", .key s.2]
      ⟨.warning, .source origin, .elided, some (tree.markerFor origin)⟩

/-- What is lost is reported with its place. -/
theorem located_lost (tree : Yaml.Tree) (c : Openshift.Config) (made : Ignition.Config) :
    (c.lost made).located tree = elided tree (c.wrap made) := by
  have hat : ∀ s : String × String,
      (MachineConfig.codec.write (c.wrap made)).at? [.key "spec", .key s.1] =
        (MachineConfig.Spec.codec.write (c.wrap made).spec).get? s.1 := fun s => by
    rw [Config.at?_spec, Json.at?_cons]
    exact Option.bind_fun_some _
  rw [elided, Openshift.Config.lost, Report.located, List.map_map]
  simp only [hat]
  rfl

/-- What a transpilation gives is a wrapper, and what another one gives is the config in it. They
report the same, but for what is lost without the wrapper. -/
structure Unwraps (tree : Yaml.Tree) (wrapped raw : Transpiled) (m : MachineConfig) : Prop where
  wrapper : Json.parse wrapped.output = .ok (MachineConfig.codec.write m)
  config : Json.parse raw.output = .ok (Ignition.Config.codec.write m.spec.config)
  place : (MachineConfig.codec.write m).at? configTrail =
    some (Ignition.Config.codec.write m.spec.config)
  reports : ∃ before flaws : Report, wrapped.report = before ++ flaws ∧
    raw.report = before ++ elided tree m ++ flaws ∧
    (∀ e ∈ before, e.problem.isOfResult = false) ∧
    flaws.map (fun e => (e.severity, e.problem)) =
      (Ignition.validate m.spec.config).map fun f => (f.severity, .flaw f.flaw)

/-! ## The two ways -/

section Ways

variable {spec : Spec} {w : Workspace} {pretty : Bool} {bytes : Bytes} {c : Openshift.Config}

/-- A document has an error if the config in it has one. -/
theorem isFatal_validate (document : Document) :
    document.validate.isFatal = (Ignition.validate document.config).any Ignition.Finding.isError :=
  List.any_map

/-- The flaws of a config at the places that its parts come from. -/
def flawsFrom (p : Provenance) (made : Ignition.Config) : Report :=
  (Ignition.validate made).map fun f =>
    ⟨f.severity, .source ((p.find? f.trail).getD []), .flaw f.flaw, none⟩

/-- **Flaws that do not matter are found at the same places of the source**, wherever the config is in
the document. -/
theorem traced_flaws {config : Config} {raw : Bool} {document : Document}
    (h : (config.translate spec w raw).value = some document)
    (hflaws : document.validate.isFatal = false) :
    document.validate.traced (config.translate spec w raw).provenance =
      flawsFrom (stamp spec (config.draft spec w)).provenance document.config := by
  rw [Document.validate, Report.traced_eq, List.map_map, flawsFrom]
  refine List.map_congr_left fun f hf => ?_
  have hwarning : f.severity ≠ .error := fun herror =>
    List.any_eq_false.mp hflaws _ (List.mem_map_of_mem hf) (decide_eq_true herror)
  obtain ⟨origin, horigin⟩ := Option.isSome_iff_exists.mp (Config.isSome_of_warning h hf hwarning)
  have hfind := (Config.find?_translate h (Ignition.placed_of_mem hf).ne_nil).trans horigin
  rw [horigin]
  exact Entry.traced_of_find (Config.aligned_translate h) rfl hfind

/-- What is made of a config for the operator, with a wrapper and without. -/
theorem value_openshift {made : Ignition.Config}
    (h : (stamp spec ((Config.openshift c).draft spec w)).value = some made) :
    ((Config.openshift c).translate spec w false).value = some (.machineConfig (c.wrap made)) ∧
      ((Config.openshift c).translate spec w true).value = some (.ignition made) := by
  have hinner : (c.inner spec w).value = some made := h
  rw [Config.translate, Config.translate, Openshift.Config.translate, Openshift.Config.translate]
  dsimp only
  rw [hinner]
  exact ⟨rfl, rfl⟩

/-- Until something is made only what is read is reported, and what is lost without the wrapper. -/
theorem passed_openshift (raw : Bool) {made : Ignition.Config}
    (hfatal : (stamp spec ((Config.openshift c).draft spec w)).report.isFatal = false)
    (hmade : (stamp spec ((Config.openshift c).draft spec w)).value = some made) :
    passed spec w { pretty, strict := false, raw } bytes (.openshift c) =
      findings false bytes (.openshift c) ++ if raw then c.lost made else [] := by
  have hreport := Config.report_stamp ((Config.isFatal_report spec w raw _).trans hfatal)
  rw [passed, hreport, hmade]
  rfl

/-- **What is given without a wrapper is what would have been in it.** -/
theorem unwraps (h : Accepts false bytes spec (.openshift c))
    (hfatal : (stamp spec ((Config.openshift c).draft spec w)).report.isFatal = false)
    {made : Ignition.Config}
    (hmade : (stamp spec ((Config.openshift c).draft spec w)).value = some made)
    (hflaws : (Ignition.validate made).any Ignition.Finding.isError = false)
    {wrapped raw : Transpiled}
    (hwrappedOutput : wrapped.output = render pretty (.machineConfig (c.wrap made)))
    (hrawOutput : raw.output = render pretty (.ignition made))
    (hwrappedReport : wrapped.report = foundIn spec w { pretty, strict := false, raw := false } bytes
      (.openshift c) (.machineConfig (c.wrap made)))
    (hrawReport : raw.report = foundIn spec w { pretty, strict := false, raw := true } bytes
      (.openshift c) (.ignition made)) :
    Unwraps (Yaml.Tree.ofBytes bytes) wrapped raw (c.wrap made) := by
  obtain ⟨hwrappedValue, hrawValue⟩ := value_openshift hmade
  obtain ⟨⟨source, hdecodes⟩, -⟩ := h
  refine ⟨?_, ?_, ?_, ?_⟩
  · rw [hwrappedOutput]
    exact parse_render (Config.readable_translate hdecodes.read hwrappedValue) pretty
  · rw [hrawOutput]
    exact parse_render (Config.readable_translate hdecodes.read hrawValue) pretty
  · have hat := Config.at?_configTrail (c.wrap made) []
    rwa [List.append_nil] at hat
  · rw [foundIn, passed_openshift false hfatal hmade,
      traced_flaws hwrappedValue ((isFatal_validate _).trans hflaws)] at hwrappedReport
    rw [foundIn, passed_openshift true hfatal hmade,
      traced_flaws hrawValue ((isFatal_validate _).trans hflaws)] at hrawReport
    let tree := Yaml.Tree.ofBytes bytes
    let p := (stamp spec ((Config.openshift c).draft spec w)).provenance
    refine ⟨(findings false bytes (.openshift c)).located tree, (flawsFrom p made).located tree,
      hwrappedReport.trans ?_, hrawReport.trans ?_, ?_, ?_⟩
    · rw [if_neg Bool.false_ne_true, List.append_nil]
      exact Report.located_append _ _ _
    · rw [if_pos rfl, Report.located_append, Report.located_append, located_lost]
      rfl
    · refine List.forall_mem_map.mpr fun e he => ?_
      have hproblem := (ofSource_findings false bytes _ e he).problem
      split
      · exact hproblem
      · exact hproblem
    · rw [Report.located, flawsFrom, List.map_map, List.map_map]
      rfl

end Ways

/-- **What is made of a document for an operator without its wrapper agrees with what is made with
it.** It is refused for the same reason, or it is the config in the wrapper, and what is found in it is
the same but for warnings of the settings that are lost, which come before the flaws of the config. -/
theorem transpile_raw (w : Workspace) (pretty : Bool) (bytes : Bytes)
    (hvariant : ∀ header, Header.ofBytes? bytes = .ok header → header.variant = "openshift") :
    let wrapped := transpile w { pretty, strict := false, raw := false } bytes
    let raw := transpile w { pretty, strict := false, raw := true } bytes
    (∃ problem report, wrapped = .error (.dispatch problem report) ∧
      raw = .error (.dispatch problem report)) ∨
    (∃ report report', wrapped = .error (.invalidSource report) ∧
      raw = .error (.invalidSource report')) ∨
    (∃ report report', wrapped = .error (.invalidResult report) ∧
      raw = .error (.invalidResult report')) ∨
    ∃ made made' m, wrapped = .ok made ∧ raw = .ok made' ∧
      Unwraps (Yaml.Tree.ofBytes bytes) made made' m := by
  dsimp only
  rcases accepts_or_refused false bytes with
    ⟨spec, config, h⟩ | ⟨refusal, -, -, -, hrefused⟩
  · obtain ⟨c, rfl⟩ := h.exists_openshift hvariant
    cases hfatal : (stamp spec ((Config.openshift c).draft spec w)).report.isFatal with
    | true =>
      exact .inr (.inl ⟨_, _, transpile_of_stopped h hfatal, transpile_of_stopped h hfatal⟩)
    | false =>
      obtain ⟨document, -, hmade⟩ := Config.exists_of_not_isFatal
        ((Config.isFatal_report spec w true (.openshift c)).trans hfatal)
      obtain ⟨hwrappedValue, hrawValue⟩ := value_openshift hmade
      have hwrapped := @transpile_of_made w { pretty, strict := false, raw := false } _ _ _ _ h
        hfatal hwrappedValue
      have hraw := @transpile_of_made w { pretty, strict := false, raw := true } _ _ _ _ h
        hfatal hrawValue
      rw [isFatal_validate] at hwrapped hraw
      cases hflaws : (Ignition.validate document.config).any Ignition.Finding.isError with
      | true =>
        exact .inr (.inr (.inl ⟨_, _, hwrapped.trans (if_pos hflaws),
          hraw.trans (if_pos hflaws)⟩))
      | false =>
        have hgo := ne_true_of_eq_false hflaws
        exact .inr (.inr (.inr ⟨_, _, _, hwrapped.trans (if_neg hgo), hraw.trans (if_neg hgo),
          unwraps h hfatal hmade hflaws rfl rfl rfl rfl⟩))
  · have hwrapped := hrefused w { pretty, strict := false, raw := false } rfl
    have hraw := hrefused w { pretty, strict := false, raw := true } rfl
    cases refusal with
    | dispatch problem report => exact .inl ⟨problem, report, hwrapped, hraw⟩
    | invalidSource report => exact .inr (.inl ⟨report, report, hwrapped, hraw⟩)
    | invalidResult report => exact .inr (.inr (.inl ⟨report, report, hwrapped, hraw⟩))

/-- A document for an operator with a setting beside the config. -/
def settled : Bytes :=
  Text.encodeUtf8 ("variant: openshift\nversion: 4.14.0\nmetadata:\n  name: a\n  labels:\n    " ++
    "machineconfiguration.openshift.io/role: worker\nopenshift:\n  fips: false\n").toList

/-- The setting is lost without the wrapper, and that is all that is found. -/
theorem settled_raw : ∃ made made' m,
    transpile .bare { raw := false } settled = .ok made ∧
    transpile .bare { raw := true } settled = .ok made' ∧
    Unwraps (Yaml.Tree.ofBytes settled) made made' m ∧
    made'.report.map (·.path) = [.source [.key "openshift", .key "fips"]] := by
  have hheader : (Header.ofBytes? settled).toOption = some ⟨"openshift", .release 4 14 0⟩ := by
    decide +kernel
  have hreport : (transpile .bare { raw := true } settled).toOption.map
      (·.report.map (·.path)) = some [.source [.key "openshift", .key "fips"]] := by
    decide +kernel
  rcases transpile_raw .bare false settled (fun header h => by
    rw [h] at hheader
    rw [Option.some.inj hheader]) with
    ⟨_, _, -, h⟩ | ⟨_, _, -, h⟩ | ⟨_, _, -, h⟩ | ⟨made, made', m, hmade, hmade', hm⟩
  · rw [h] at hreport
    cases hreport
  · rw [h] at hreport
    cases hreport
  · rw [h] at hreport
    cases hreport
  · rw [hmade'] at hreport
    exact ⟨made, made', m, hmade, hmade', hm, Option.some.inj hreport⟩

end Provision
