import Provision.Proofs.Transpile.Stages

/-!
# Diagnostics are anchored

Whatever comes of a document, each diagnostic about it tells where in its text it belongs, and a
diagnostic about what is made of it is left only where there is nothing.

* `Report.located_append`, `Report.exists_located`: what giving places to entries does.
* `transpile_anchored`: where the diagnostics of a transpilation are.
-/

set_option autoImplicit false

namespace Provision

open Text (Bytes)

/-! ## Places in the text -/

namespace Report

section Located

variable {tree : Yaml.Tree} {r : Report} {e : Entry}

theorem located_append (tree : Yaml.Tree) (r r' : Report) :
    (r ++ r').located tree = r.located tree ++ r'.located tree :=
  List.map_append

/-- An entry about the source has a place in its text. -/
theorem isSome_marker (h : e ∈ r.located tree) (hsource : e.path.schema = .source) :
    e.marker.isSome = true := by
  obtain ⟨e', -, rfl⟩ := List.mem_map.mp h
  split
  · rfl
  · next hkept =>
    rw [if_neg hkept] at hsource
    rw [Bool.and_eq_true, not_and, decide_eq_true_eq] at hkept
    cases hmarker : e'.marker with
    | none => exact absurd hsource (hkept (by rw [hmarker]; rfl))
    | some marker => rfl

/-- An entry about the document that is made is as it was. -/
theorem mem_of_located (h : e ∈ r.located tree) (htarget : e.path.schema = .target) : e ∈ r := by
  obtain ⟨e', he', rfl⟩ := List.mem_map.mp h
  split at htarget
  · next hmoved =>
    rw [Bool.and_eq_true, decide_eq_true_eq] at hmoved
    cases hmoved.2.symm.trans htarget
  · next hkept => rwa [if_neg hkept]

/-- An entry about the source without a place gets one, and is the same otherwise. -/
theorem exists_located {severity : Severity} {origin : Trail} {problem : Problem}
    (h : ⟨severity, .source origin, problem, none⟩ ∈ r) :
    ⟨severity, .source origin, problem, some (tree.markerFor origin)⟩ ∈ r.located tree :=
  List.mem_map.mpr ⟨_, h, rfl⟩

end Located

end Report

/-! ## The whole way -/

section Anchored

variable {w : Workspace} {request : Request} {bytes : Bytes} {spec : Spec} {config : Config}
  {document : Document}

/-- What is reported of a draft is still reported when it has its version. -/
theorem mem_report_stamp {d : Draft} {e : Entry} (h : e ∈ d.report) : e ∈ (stamp spec d).report := by
  rw [stamp]
  split
  · exact h
  · exact List.mem_append_left _ h

/-- **What a filter finds is found at the place of the source that it comes from.** -/
theorem exists_found_of_applies (h : Accepts request.strict bytes spec config) {f : Filter}
    (hf : f ∈ config.filters spec) {t : Trail} {x : Json}
    (hx : (config.draft spec w).value.at? t = some x) (happlies : f.applies t x = true) :
    ∃ origin, (stamp spec (config.draft spec w)).provenance.find? t = some origin ∧
      ⟨f.severity, .source origin, f.problem,
        some ((Yaml.Tree.ofBytes bytes).markerFor origin)⟩ ∈ found (transpile w request bytes) := by
  obtain ⟨-, hsome⟩ := Config.isSome_of_applies hf hx happlies
  obtain ⟨origin, horigin⟩ := Option.isSome_iff_exists.mp hsome
  refine ⟨origin, horigin, ?_⟩
  have hpassed : ⟨f.severity, .source origin, f.problem, none⟩ ∈
      passed spec w request bytes config := by
    refine List.mem_append_right _ (List.mem_append_left _ ?_)
    obtain ⟨stops, -, hdraft⟩ := config.report_draft spec w
    have hmem : ⟨f.severity, .target t, f.problem, none⟩ ∈ (config.draft spec w).report := by
      rw [hdraft]
      exact List.mem_append_right _ ((Filter.mem_applyAll_iff
        (Config.shaped_draft spec w config).distinct).mpr ⟨f, hf, t, x, hx, happlies, rfl⟩)
    exact Report.mem_traced (config.aligned_stamp spec w) (mem_report_stamp hmem) rfl horigin
  cases hfatal : (stamp spec (config.draft spec w)).report.isFatal with
  | true =>
    rw [found_of_stopped h hfatal]
    exact Report.exists_located hpassed
  | false =>
    obtain ⟨document, hvalue, -⟩ :=
      Config.exists_of_not_isFatal ((config.isFatal_report spec w request.raw).trans hfatal)
    rw [found_of_made h hfatal hvalue, foundIn, Report.located_append]
    exact List.mem_append_left _ (Report.exists_located hpassed)

/-- **A flaw of a node with content is found at the place of the source that it comes from.** -/
theorem exists_found_of_flaw (h : Accepts request.strict bytes spec config)
    (hvalue : (config.translate spec w request.raw).value = some document)
    (hreport : (config.translate spec w request.raw).report.isFatal = false)
    {f : Ignition.Finding} (hf : f ∈ Ignition.validate document.config) {x : Json}
    (hx : document.json.at? (document.configTrail ++ f.trail) = some x)
    (hne : x.isEmpty = false) :
    ∃ origin, (config.translate spec w request.raw).provenance.find?
        (document.configTrail ++ f.trail) = some origin ∧
      ⟨f.severity, .source origin, .flaw f.flaw,
        some ((Yaml.Tree.ofBytes bytes).markerFor origin)⟩ ∈ found (transpile w request bytes) := by
  obtain ⟨origin, horigin⟩ := Option.isSome_iff_exists.mp (Config.isSome_of_flaw hvalue hf hx hne)
  refine ⟨origin, horigin, ?_⟩
  rw [config.isFatal_report] at hreport
  rw [found_of_made h hreport hvalue, foundIn, Report.located_append]
  exact List.mem_append_right _ (Report.exists_located
    (Report.mem_traced (Config.aligned_translate hvalue) (List.mem_map_of_mem hf) rfl horigin))

/-- **A flaw that is left in the document is about a part without content.** -/
theorem remains_of_traced (hvalue : (config.translate spec w request.raw).value = some document)
    {e : Entry}
    (he : e ∈ document.validate.traced (config.translate spec w request.raw).provenance)
    (htarget : e.path.schema = .target) : e ∈ document.validate ∧
      ∀ x, document.json.at? e.path.trail = some x → x.isEmpty = true := by
  have haligned := Config.aligned_translate hvalue
  obtain ⟨e', he', htraced⟩ := List.mem_map.mp he
  have htraced : e'.traced (config.translate spec w request.raw).provenance = e := htraced
  obtain ⟨f, hf, rfl⟩ := List.mem_map.mp he'
  cases hfind : (config.translate spec w request.raw).provenance.find?
      (document.configTrail ++ f.trail) with
  | some origin =>
    rw [Entry.traced_of_find haligned rfl hfind] at htraced
    rw [← htraced] at htarget
    cases htarget
  | none =>
    rw [Entry.traced_of_none haligned rfl hfind] at htraced
    rw [← htraced]
    refine ⟨List.mem_map_of_mem hf, fun x hx => ?_⟩
    rw [← Bool.not_eq_false]
    intro hne
    have hsome := Config.isSome_of_flaw hvalue hf hx hne
    rw [hfind] at hsome
    cases hsome

end Anchored

/-- **Diagnostics are anchored.** Each that is about the source has a place in its text. Each that is
left in what is made is a flaw of it, about a part that is not there or has nothing in it. What a filter
finds, and a flaw of a node with content, is found at the place of the source that it comes from. -/
theorem transpile_anchored (w : Workspace) (request : Request) (bytes : Bytes) :
    (∀ e ∈ found (transpile w request bytes), e.path.schema = .source → e.marker.isSome = true) ∧
    (∀ e ∈ found (transpile w request bytes), e.path.schema = .target →
      ∃ spec config document, Accepts request.strict bytes spec config ∧
        (config.translate spec w request.raw).value = some document ∧ e ∈ document.validate ∧
        ∀ x, document.json.at? e.path.trail = some x → x.isEmpty = true) ∧
    (∀ spec config, Accepts request.strict bytes spec config →
      ∀ f ∈ config.filters spec, ∀ t x, (config.draft spec w).value.at? t = some x →
        f.applies t x = true →
        ∃ origin, (stamp spec (config.draft spec w)).provenance.find? t = some origin ∧
          ⟨f.severity, .source origin, f.problem,
            some ((Yaml.Tree.ofBytes bytes).markerFor origin)⟩ ∈
              found (transpile w request bytes)) ∧
    (∀ spec config document, Accepts request.strict bytes spec config →
      (config.translate spec w request.raw).value = some document →
      (config.translate spec w request.raw).report.isFatal = false →
      ∀ f ∈ Ignition.validate document.config, ∀ x,
        document.json.at? (document.configTrail ++ f.trail) = some x → x.isEmpty = false →
        ∃ origin, (config.translate spec w request.raw).provenance.find?
            (document.configTrail ++ f.trail) = some origin ∧
          ⟨f.severity, .source origin, .flaw f.flaw,
            some ((Yaml.Tree.ofBytes bytes).markerFor origin)⟩ ∈
              found (transpile w request bytes)) := by
  suffices h : ∃ r : Report,
      found (transpile w request bytes) = r.located (Yaml.Tree.ofBytes bytes) ∧
      ∀ e ∈ r, e.path.schema = .target →
        ∃ spec config document, Accepts request.strict bytes spec config ∧
          (config.translate spec w request.raw).value = some document ∧ e ∈ document.validate ∧
          ∀ x, document.json.at? e.path.trail = some x → x.isEmpty = true by
    obtain ⟨r, hr, htargets⟩ := h
    refine ⟨fun e he hsource => ?_, fun e he htarget => ?_,
      fun spec config h f hf t x hx happlies => exists_found_of_applies h hf hx happlies,
      fun spec config document h hvalue hreport f hf x hx hne =>
        exists_found_of_flaw h hvalue hreport hf hx hne⟩
    · exact Report.isSome_marker (hr ▸ he) hsource
    · exact htargets e (Report.mem_of_located (hr ▸ he) htarget) htarget
  have source : ∀ {r : Report}, (∀ e ∈ r, e.path.schema = .source) → ∀ e ∈ r,
      e.path.schema = .target → False := fun h e he htarget => by
    cases (h e he).symm.trans htarget
  rcases accepts_or_refused request.strict bytes with
    ⟨spec, config, h⟩ | ⟨refusal, r, hr, hreport, hrefused⟩
  · cases hfatal : (stamp spec (config.draft spec w)).report.isFatal with
    | true =>
      exact ⟨_, found_of_stopped h hfatal, fun e he htarget =>
        (source schema_passed e he htarget).elim⟩
    | false =>
      obtain ⟨document, hvalue, -⟩ :=
        Config.exists_of_not_isFatal ((config.isFatal_report spec w request.raw).trans hfatal)
      refine ⟨_, found_of_made h hfatal hvalue, fun e he htarget => ?_⟩
      rcases List.mem_append.mp he with he | he
      · exact (source schema_passed e he htarget).elim
      · exact ⟨spec, config, document, h, hvalue, remains_of_traced hvalue he htarget⟩
  · refine ⟨r, ?_, fun e he htarget => (source hr e he htarget).elim⟩
    rw [hrefused w request rfl]
    exact hreport

/-- A document with a file whose path is not absolute and a link that leads nowhere. -/
def strayed : Bytes :=
  Text.encodeUtf8
    "variant: fcos\nversion: 1.5.0\nstorage:\n  files:\n    - path: a\n  links:\n    - path: /b\n".toList

/-- A document with a volume that is unlocked in a way that the variant does not support. -/
def pinned : Bytes :=
  Text.encodeUtf8
    "variant: flatcar\nversion: 1.0.0\nstorage:\n  luks:\n    - name: a\n      clevis:\n        tpm2: true\n".toList

/-- The path is found in the document, and the target that is missing is not. -/
theorem strayed_anchored :
    (∃ e ∈ found (transpile .bare {} strayed), e.path.schema = .source ∧ e.marker.isSome = true) ∧
    (∃ e ∈ found (transpile .bare {} strayed), e.path.schema = .target ∧
      ∃ spec config document, Accepts false strayed spec config ∧
        (config.translate spec .bare false).value = some document ∧ e ∈ document.validate ∧
        ∀ x, document.json.at? e.path.trail = some x → x.isEmpty = true) ∧
    (∃ origin marker, ⟨.error, .source origin, .flaw .notAbsolute, some marker⟩ ∈
      found (transpile .bare {} strayed)) ∧
    ∃ origin marker, ⟨.error, .source origin, .unsupportedClevis, some marker⟩ ∈
      found (transpile .bare {} pinned) := by
  obtain ⟨hmarker, htarget, -, hflaw⟩ := transpile_anchored .bare {} strayed
  have hfilter := (transpile_anchored .bare {} pinned).2.2.1
  have hschemas : ∀ schema ∈ [Schema.source, Schema.target],
      ∃ e ∈ found (transpile .bare {} strayed), e.path.schema = schema := by decide +kernel
  refine ⟨?_, ?_, ?_, ?_⟩
  · obtain ⟨e, he, hschema⟩ := hschemas .source (by decide)
    exact ⟨e, he, hschema, hmarker e he hschema⟩
  · obtain ⟨e, he, hschema⟩ := hschemas .target (by decide)
    exact ⟨e, he, hschema, htarget e he hschema⟩
  · let translated (config : Config) := config.translate (.of .fcos 1 5 3 4) .bare false
    obtain ⟨source, config, h, hp⟩ := @exists_decodes strayed ⟨"fcos", .release 1 5 0⟩
      (.of .fcos 1 5 3 4) (by decide +kernel) (by decide +kernel)
      (fun _ config => !(findings false strayed config).isFatal &&
        !(translated config).report.isFatal && (translated config).value.any fun document =>
          (Ignition.validate document.config).any fun f => f.flaw = .notAbsolute &&
            (document.json.at? (document.configTrail ++ f.trail)).any (!·.isEmpty))
      (by decide +kernel)
    simp only [Bool.and_eq_true, Bool.not_eq_true', Option.any_eq_true, List.any_eq_true,
      decide_eq_true_eq] at hp
    obtain ⟨⟨hsound, hreport⟩, document, hvalue, f, hf, hproblem, x, hx, hne⟩ := hp
    obtain ⟨origin, -, hfound⟩ :=
      hflaw _ config document ⟨⟨source, h⟩, hsound⟩ hvalue hreport f hf x hx hne
    rw [Ignition.Finding.severity, hproblem] at hfound
    exact ⟨origin, _, hfound⟩
  · let trail : Trail := [.key "storage", .key "luks", .index 0, .key "clevis"]
    let clevis : Filter := .forbid "storage.luks.*.clevis" .unsupportedClevis
    obtain ⟨source, config, h, hp⟩ := @exists_decodes pinned ⟨"flatcar", .release 1 0 0⟩
      (.of .flatcar 1 0 3 3) (by decide +kernel) (by decide +kernel)
      (fun _ config => !(findings false pinned config).isFatal && config.variant = .flatcar &&
        ((config.draft (.of .flatcar 1 0 3 3) .bare).value.at? trail).any (clevis.applies trail))
      (by decide +kernel)
    simp only [Bool.and_eq_true, Bool.not_eq_true', Option.any_eq_true, decide_eq_true_eq] at hp
    obtain ⟨⟨hsound, hvariant⟩, x, hx, happlies⟩ := hp
    have hmem : clevis ∈ config.filters (.of .flatcar 1 0 3 3) := by
      cases config with
      | flatcar => exact List.mem_singleton.mpr rfl
      | _ => cases hvariant
    obtain ⟨origin, -, hfound⟩ :=
      hfilter _ config ⟨⟨source, h⟩, hsound⟩ clevis hmem trail x hx happlies
    exact ⟨origin, _, hfound⟩

end Provision
