import Provision.CommandLine.Run
import Provision.Proofs.Transpile

/-!
# Exit codes

The command ends well if and only if something was made of the document, and with 1 if and only if
the document was refused. Nothing is written then.

* `run_tells`: what is left of a run tells what came of the document.
* `outcome_agrees`: results, reports, documents and exit codes agree.
-/

set_option autoImplicit false

namespace Provision.CommandLine

open Text (Bytes)
open Files (FileSystem)

/-- The result, if there is one, can be written where arguments ask for it. -/
def Writable (a : Arguments) (files : FileSystem) (made : Except Refusal Transpiled) : Prop :=
  ∀ t path, made = .ok t → a.output = some path →
    (files.write path (Text.encodeUtf8 t.output.toList)).isOk = true

/-- What is left of a run tells whether something was made, and holds nothing if not. -/
structure Outcome.Tells (o : Outcome) (files : FileSystem) (made : Except Refusal Transpiled) :
    Prop where
  success : o.exitCode = 0 ↔ made.isOk = true
  refusal : o.exitCode = 1 ↔ made.isOk = false
  silent : made.isOk = false → o.output = "" ∧ o.written = none ∧ o.files = files

/-- **What is left of a run tells what came of the document.** -/
theorem run_tells {words : List String} {a : Arguments} (ha : Arguments.parse words = .ok a)
    (hlist : a.listVariants = false) {files : FileSystem} {input bytes : Bytes}
    (hsource : source a files input = .ok bytes)
    (hwritable : Writable a files (transpile (workspace a files) (request a) bytes))
    (colour : Bool) :
    (run words colour files input).Tells files
      (transpile (workspace a files) (request a) bytes) := by
  rw [run, ha]
  dsimp only
  rw [runWith, hlist, if_neg Bool.false_ne_true, hsource]
  dsimp only [bind, Except.bind]
  cases hmade : transpile (workspace a files) (request a) bytes with
  | error refusal =>
    constructor
    · exact iff_of_false (by decide : (1 : Nat) ≠ 0) Bool.false_ne_true
    · exact iff_of_true rfl rfl
    · exact fun _ => ⟨rfl, rfl, rfl⟩
  | ok t =>
    delta Except.mapError
    dsimp only
    cases houtput : a.output with
    | none =>
      constructor
      · exact iff_of_true rfl rfl
      · exact iff_of_false (by decide : (0 : Nat) ≠ 1) Bool.false_ne_true.symm
      · exact fun h => absurd h Bool.false_ne_true.symm
    | some path =>
      have hwrite := hwritable t path hmade houtput
      dsimp only
      cases hfiles : files.write path (Text.encodeUtf8 t.output.toList) with
      | error fault =>
        rw [hfiles] at hwrite
        cases hwrite
      | ok files' =>
        constructor
        · exact iff_of_true rfl rfl
        · exact iff_of_false (by decide : (0 : Nat) ≠ 1) Bool.false_ne_true.symm
        · exact fun h => absurd h Bool.false_ne_true.symm

/-- **Results, reports, documents and exit codes agree.** Something is made of a document if and
only if its report has no error, or on request nothing at all; a refusal is one of three kinds; what
is made is a JSON document with the version that the catalog gives for the header; and a run of the
command tells by its exit code what came of the document. -/
theorem outcome_agrees :
    (∀ (w : Workspace) (request : Request) (bytes : Bytes),
      (request.strict = false →
        ((transpile w request bytes).isOk = true ↔
          (found (transpile w request bytes)).isFatal = false)) ∧
      (request.strict = true →
        ((transpile w request bytes).isOk = true ↔ found (transpile w request bytes) = [])) ∧
      (∀ refusal, transpile w request bytes = .error refusal →
        (∃ problem report, refusal = .dispatch problem report) ∨
          (∃ report, refusal = .invalidSource report) ∨ ∃ report, refusal = .invalidResult report) ∧
      (∀ made, transpile w request bytes = .ok made →
        ∃ header spec document, Header.ofBytes? bytes = .ok header ∧
          Spec.lookup header.variant header.version = .ok spec ∧
          Json.parse made.output = .ok document ∧
          document.at? (Config.configPlace spec.variant request.raw ++ stampPlace) =
            some (.str spec.target.text))) ∧
    (∀ (words : List String) (a : Arguments) (files : FileSystem) (input bytes : Bytes)
      (colour : Bool), Arguments.parse words = .ok a → a.listVariants = false →
      source a files input = .ok bytes →
      Writable a files (transpile (workspace a files) (request a) bytes) →
      (run words colour files input).Tells files
        (transpile (workspace a files) (request a) bytes)) := by
  refine ⟨fun w request bytes => ⟨fun hlenient => ?_, fun hstrict => ?_, fun refusal _ => ?_,
    fun made hmade => transpile_version hmade⟩, fun words a files input bytes colour ha hlist
    hsource hwritable => run_tells ha hlist hsource hwritable colour⟩
  · rw [isOk_transpile, Report.passes, hlenient, if_neg Bool.false_ne_true, Bool.not_eq_true']
  · rw [isOk_transpile, Report.passes, hstrict, if_pos rfl, List.isEmpty_iff]
  · cases refusal with
    | dispatch problem report => exact .inl ⟨problem, report, rfl⟩
    | invalidSource report => exact .inr (.inl ⟨report, rfl⟩)
    | invalidResult report => exact .inr (.inr ⟨report, rfl⟩)

/-- A document that says nothing but what it is. -/
def bareDocument : Bytes := Text.encodeUtf8 "variant: fcos\nversion: 1.5.0\n".toList

theorem bareDocument_outcome :
    (run ["--strict"] false Workspace.bare.files bareDocument).exitCode = 0 ∧
      found (transpile .bare { strict := true } bareDocument) = [] := by
  have hok : (transpile .bare { strict := true } bareDocument).isOk = true := by decide +kernel
  have hwords : Arguments.parse ["--strict"] = .ok { strict := true } := by
    have hname : Arguments.isName "--strict" = true := by decide +kernel
    rw [Arguments.parse, Arguments.readWords, if_neg (by decide), if_pos hname, Arguments.readName]
    rfl
  have hrun := outcome_agrees.2 ["--strict"] { strict := true } Workspace.bare.files bareDocument
    bareDocument false hwords rfl rfl nofun
  have hreport := (outcome_agrees.1 .bare { strict := true } bareDocument).2.1 rfl
  exact ⟨hrun.success.mpr hok, hreport.mp hok⟩

end Provision.CommandLine
