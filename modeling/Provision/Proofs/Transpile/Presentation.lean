import Provision.Proofs.Transpile.Stages

/-!
# Requests that do not change the meaning

Whether the result is indented, whether warnings are refused and whether parts without an origin are
looked for does not change what a document means. Strict or not, the same is made of a document in
which nothing is found; the same value is written with and without indentation; and what is looked
for is shown beside the result.

* `transpile_eq_ok_iff`: when something is made of a document, and what.
* `unused_strict`: in strict mode the same keys are reported, as errors.
* `transpile_presentation`: what the three choices change, and what they do not.
-/

set_option autoImplicit false

namespace Provision

open Text (Bytes)

/-! ## What is made -/

section Made

variable {w : Workspace} {request : Request} {bytes : Bytes} {made : Transpiled}

/-- A document is accepted, translated and found to be valid, and nothing is found in it if that is
asked for. -/
structure Makes (w : Workspace) (request : Request) (bytes : Bytes) (spec : Spec) (config : Config)
    (document : Document) : Prop where
  accepts : Accepts request.strict bytes spec config
  sound : (stamp spec (config.draft spec w)).report.isFatal = false
  value : (config.translate spec w request.raw).value = some document
  valid : document.validate.isFatal = false
  silent : request.strict = true → foundIn spec w request bytes config document = []

/-- What is made of a document that is not refused. -/
def Transpiled.ofDocument (w : Workspace) (request : Request) (bytes : Bytes) (spec : Spec)
    (config : Config) (document : Document) : Transpiled where
  output := render request.pretty document
  report := foundIn spec w request bytes config document
  uncovered := if w.options.debug then
    (config.translate spec w request.raw).provenance.missing document.json else []

theorem Makes.transpile_eq {spec : Spec} {config : Config} {document : Document}
    (h : Makes w request bytes spec config document) :
    transpile w request bytes = .ok (.ofDocument w request bytes spec config document) := by
  rw [transpile_of_made h.accepts h.sound h.value, h.valid, if_neg Bool.false_ne_true]
  refine if_neg fun hrefused => ?_
  obtain ⟨hstrict, hfound⟩ := Bool.and_eq_true_iff.mp hrefused
  rw [h.silent hstrict] at hfound
  cases hfound

/-- **Something is made of a document if and only if no stage refuses it.** -/
theorem transpile_eq_ok_iff : transpile w request bytes = .ok made ↔
    ∃ spec config document, Makes w request bytes spec config document ∧
      made = .ofDocument w request bytes spec config document := by
  constructor
  · intro h
    rcases accepts_or_refused request.strict bytes with
      ⟨spec, config, haccepts⟩ | ⟨refusal, -, -, -, hrefused⟩
    · cases hfatal : (stamp spec (config.draft spec w)).report.isFatal with
      | true =>
        rw [transpile_of_stopped haccepts hfatal] at h
        cases h
      | false =>
        obtain ⟨document, hvalue, -⟩ := Config.exists_of_not_isFatal
          ((Config.isFatal_report spec w request.raw config).trans hfatal)
        rw [transpile_of_made haccepts hfatal hvalue] at h
        split at h
        · cases h
        · next hvalid =>
          split at h
          · cases h
          · next hgo =>
            cases h
            refine ⟨spec, config, document, ⟨haccepts, hfatal, hvalue, eq_false_of_ne_true hvalid,
              fun hstrict => ?_⟩, rfl⟩
            rw [hstrict, Bool.true_and, Bool.not_eq_true', Bool.not_eq_false] at hgo
            exact List.isEmpty_iff.mp hgo
    · rw [hrefused w request rfl] at h
      cases h
  · rintro ⟨spec, config, document, hmakes, rfl⟩
    exact hmakes.transpile_eq

end Made

/-! ## Strict or not -/

/-- An entry as an error. -/
def Entry.raised (e : Entry) : Entry := { e with severity := .error }

mutual

/-- **In strict mode the same keys of a part are reported, as errors.** -/
theorem unused_strict (here : Trail) : (t : Yaml.Tree) → (x : Json) →
    unused true here t x = (unused false here t x).map Entry.raised
  | .leaf _ _, _ => by simp only [unused, List.map_nil]
  | .map entries _, x => by
    cases x with
    | obj members =>
      rw [unused, unused]
      exact unusedEntries_strict here entries members
    | _ => simp only [unused, List.map_nil]
  | .sequence items _, x => by
    cases x with
    | arr values =>
      rw [unused, unused]
      exact unusedItems_strict here 0 items values
    | _ => simp only [unused, List.map_nil]

theorem unusedEntries_strict (here : Trail) : (entries : List (String × Marker × Yaml.Tree)) →
    (members : List (String × Json)) → unusedEntries true here entries members =
      (unusedEntries false here entries members).map Entry.raised
  | [], _ => by simp only [unusedEntries, List.map_nil]
  | (key, marker, t) :: rest, members => by
    rw [unusedEntries, unusedEntries, List.map_append, unusedEntries_strict here rest members]
    cases Json.lookup key members with
    | none => rfl
    | some x => exact congrArg (· ++ _) (unused_strict (here.key key) t x)

theorem unusedItems_strict (here : Trail) : (position : Nat) → (trees : List Yaml.Tree) →
    (values : List Json) → unusedItems true here position trees values =
      (unusedItems false here position trees values).map Entry.raised
  | _, [], _ | _, _ :: _, [] => by simp only [unusedItems, List.map_nil]
  | position, t :: trees, x :: values => by
    rw [unusedItems, unusedItems, List.map_append, unused_strict _ t x,
      unusedItems_strict here (position + 1) trees values]

end

/-- Nothing is found in a document in strict mode if and only if nothing is found in it
otherwise. -/
theorem findings_strict_eq_nil {bytes : Bytes} {config : Config} :
    findings true bytes config = [] ↔ findings false bytes config = [] := by
  rw [findings, findings, unused_strict, List.append_eq_nil_iff, List.append_eq_nil_iff,
    List.map_eq_nil_iff]

section Strict

variable {w : Workspace} {request request' : Request} {bytes : Bytes} {spec : Spec}
  {config : Config} {document : Document}

/-- What is found in all starts with what is found as the document is read. -/
theorem findings_of_foundIn (h : foundIn spec w request bytes config document = []) :
    findings request.strict bytes config = [] := by
  rw [foundIn, Report.located, List.map_eq_nil_iff, List.append_eq_nil_iff, passed,
    List.append_eq_nil_iff] at h
  exact h.1.1

/-- Nothing is found in all in one mode if nothing is found in another. -/
theorem foundIn_eq_nil (hraw : request.raw = request'.raw)
    (h : foundIn spec w request bytes config document = []) :
    findings request'.strict bytes config = [] ∧
      foundIn spec w request' bytes config document = [] := by
  have hread := findings_of_foundIn h
  have hread' : findings request'.strict bytes config = [] := by
    cases hs : request.strict <;> cases hs' : request'.strict <;> rw [hs] at hread
    · exact hread
    · exact findings_strict_eq_nil.mpr hread
    · exact findings_strict_eq_nil.mp hread
    · exact hread
  refine ⟨hread', ?_⟩
  rw [foundIn, passed, hread, hraw] at h
  rw [foundIn, passed, hread']
  exact h

/-- **A document in which nothing is found is translated in the same way in all modes.** -/
theorem Makes.of_silent (h : Makes w request bytes spec config document)
    (hraw : request.raw = request'.raw)
    (hfound : foundIn spec w request bytes config document = []) :
    Makes w request' bytes spec config document := by
  obtain ⟨hread, hsilent⟩ := foundIn_eq_nil hraw hfound
  exact ⟨⟨h.accepts.decodes, by rw [hread]; rfl⟩, h.sound, hraw ▸ h.value, h.valid,
    fun _ => hsilent⟩

/-- What is made of it is the same, too. -/
theorem ofDocument_of_silent (hraw : request.raw = request'.raw)
    (hpretty : request.pretty = request'.pretty)
    (h : foundIn spec w request bytes config document = []) :
    Transpiled.ofDocument w request bytes spec config document =
      .ofDocument w request' bytes spec config document := by
  rw [Transpiled.ofDocument, Transpiled.ofDocument, h, (foundIn_eq_nil hraw h).2, hraw, hpretty]

end Strict

/-! ## With and without indentation -/

/-- Two results are the same refusal, or they report the same and the one is the compact text and
the other the indented text of one value, which both are read as. -/
inductive WrittenAlike : (compact indented : Except Refusal Transpiled) → Prop where
  | refused (refusal : Refusal) : WrittenAlike (.error refusal) (.error refusal)
  | made {compact indented : Transpiled} (document : Json)
      (report : compact.report = indented.report) (output : compact.output = document.compact)
      (indentedOutput : indented.output = document.pretty 0 ++ "\n")
      (parses : Json.parse compact.output = .ok document)
      (indentedParses : Json.parse indented.output = .ok document) :
      WrittenAlike (.ok compact) (.ok indented)

theorem writtenAlike_transpile (w : Workspace) (request : Request) (bytes : Bytes) :
    WrittenAlike (transpile w { request with pretty := false } bytes)
      (transpile w { request with pretty := true } bytes) := by
  rcases accepts_or_refused request.strict bytes with
    ⟨spec, config, h⟩ | ⟨refusal, -, -, -, hrefused⟩
  · cases hfatal : (stamp spec (config.draft spec w)).report.isFatal with
    | true =>
      rw [@transpile_of_stopped w { request with pretty := false } _ _ _ h hfatal,
        @transpile_of_stopped w { request with pretty := true } _ _ _ h hfatal]
      exact .refused _
    | false =>
      obtain ⟨document, hvalue, -⟩ := Config.exists_of_not_isFatal
        ((Config.isFatal_report spec w request.raw config).trans hfatal)
      rw [@transpile_of_made w { request with pretty := false } _ _ _ _ h hfatal hvalue,
        @transpile_of_made w { request with pretty := true } _ _ _ _ h hfatal hvalue]
      -- What is found does not depend on the indentation, so both runs go the same way.
      change WrittenAlike (if document.validate.isFatal then _ else
        if request.strict && !(foundIn spec w request bytes config document).isEmpty then _ else _)
        (if document.validate.isFatal then _ else
        if request.strict && !(foundIn spec w request bytes config document).isEmpty then _ else _)
      split
      · exact .refused _
      · split
        · exact .refused _
        · obtain ⟨source, hdecodes⟩ := h.decodes
          have hreadable := Config.readable_translate hdecodes.read hvalue
          exact .made document.json rfl rfl rfl (parse_render hreadable false)
            (parse_render hreadable true)
  · rw [hrefused w { request with pretty := false } rfl,
      hrefused w { request with pretty := true } rfl]
    exact .refused _

/-! ## Looking for parts without an origin -/

/-- A workspace in which parts without an origin are looked for, or are not. -/
def Workspace.debugging (w : Workspace) (debug : Bool) : Workspace :=
  { w with options := { w.options with debug } }

/-- What is made of a config does not depend on what is looked for. -/
theorem Config.translate_debugging (spec : Spec) (w : Workspace) (debug raw : Bool) (c : Config) :
    c.translate spec (w.debugging debug) raw = c.translate spec w raw := by
  cases c with
  | fcos c => rfl
  | flatcar c => rfl
  | fiot c => rfl
  | openshift c =>
    have hinner : c.inner spec (w.debugging debug) = c.inner spec w := by
      rw [Openshift.Config.inner, Openshift.Config.inner]
      split <;> rfl
    rw [translate, translate, Openshift.Config.translate, Openshift.Config.translate, hinner]

/-- What is given back of a document that was made: its text and the report. The parts without an
origin are only shown. -/
def Transpiled.given (made : Transpiled) : String × Report := (made.output, made.report)

theorem given_transpileAs (spec : Spec) (w : Workspace) (debug : Bool) (request : Request)
    (tree : Yaml.Tree) (bytes : Bytes) :
    (transpileAs spec (w.debugging debug) request tree bytes).map Transpiled.given =
      (transpileAs spec w request tree bytes).map Transpiled.given := by
  rw [transpileAs, transpileAs]
  simp only [Config.translate_debugging]
  split
  · rfl
  · split
    · rfl
    · split
      · rfl
      · split
        · rfl
        · split
          · rfl
          · split <;> rfl

theorem given_transpile (w : Workspace) (debug : Bool) (request : Request) (bytes : Bytes) :
    (transpile (w.debugging debug) request bytes).map Transpiled.given =
      (transpile w request bytes).map Transpiled.given := by
  rw [transpile, transpile]
  split
  · rfl
  · split
    · rfl
    · exact given_transpileAs _ w debug request _ bytes

/-! ## All three -/

/-- **Requests that differ in strictness, indentation or in what is looked for mean the same.** In
strict mode the same is made of a document as without it if nothing is found in it, and else
nothing; with and without indentation the same value is written and the same is reported; and what
is looked for changes nothing that is given back. -/
theorem transpile_presentation (w : Workspace) (request : Request) (bytes : Bytes) :
    (∀ made, transpile w { request with strict := true } bytes = .ok made ↔
      transpile w { request with strict := false } bytes = .ok made ∧ made.report = []) ∧
    WrittenAlike (transpile w { request with pretty := false } bytes)
      (transpile w { request with pretty := true } bytes) ∧
    ∀ debug, (transpile (w.debugging debug) request bytes).map Transpiled.given =
      (transpile w request bytes).map Transpiled.given := by
  refine ⟨fun made => ?_, writtenAlike_transpile w request bytes,
    fun debug => given_transpile w debug request bytes⟩
  rw [transpile_eq_ok_iff, transpile_eq_ok_iff]
  constructor
  · rintro ⟨spec, config, document, h, rfl⟩
    have hfound := h.silent rfl
    exact ⟨⟨spec, config, document, h.of_silent rfl hfound, ofDocument_of_silent rfl rfl hfound⟩,
      hfound⟩
  · rintro ⟨⟨spec, config, document, h, rfl⟩, hfound⟩
    exact ⟨spec, config, document, h.of_silent rfl hfound, ofDocument_of_silent rfl rfl hfound⟩

end Provision
