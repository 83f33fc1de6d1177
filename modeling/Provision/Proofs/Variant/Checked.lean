import Provision.Proofs.Source.Report
import Provision.Transpile

/-!
# What is reported of a config before anything is made of it

A document that is read and the config in it are reported on at places of the source, and what is
found there is never something that is found in a document that is made.

* `Entry.OfSource`: an entry about what is read.
* `ofSource_decode`, `Config.ofSource_validate`: reading and checking report nothing else.
-/

set_option autoImplicit false

namespace Provision

/-- Whether a problem is found in a document that is made. -/
def Problem.isOfResult : Problem → Bool
  | .flaw _ | .elided => true
  | _ => false

/-- An entry at a place of the source, about what is read there. -/
structure Entry.OfSource (e : Entry) : Prop where
  schema : e.path.schema = .source
  problem : e.problem.isOfResult = false

/-- Every entry of a report is about what is read. -/
def Report.OfSource (r : Report) : Prop := ∀ e ∈ r, e.OfSource

namespace Report

section OfSource

variable {r r' : Report} {trail : Trail} {problem : Problem}

theorem ofSource_nil : OfSource [] := fun _ h => absurd h List.not_mem_nil

theorem OfSource.append (h : r.OfSource) (h' : r'.OfSource) : (r ++ r').OfSource :=
  List.forall_mem_append.mpr ⟨h, h'⟩

theorem ofSource_error (h : problem.isOfResult = false) : (sourceError trail problem).OfSource :=
  List.forall_mem_singleton.mpr ⟨rfl, h⟩

theorem ofSource_warning (h : problem.isOfResult = false) :
    (sourceWarning trail problem).OfSource :=
  List.forall_mem_singleton.mpr ⟨rfl, h⟩

theorem ofSource_ite {c : Prop} [Decidable c] (h : r.OfSource) :
    OfSource (if c then r else []) := by
  split
  · exact h
  · exact ofSource_nil

end OfSource

end Report

/-! ## Checks -/

open Report (ofSource_nil ofSource_error ofSource_warning ofSource_ite)

namespace Source

theorem ofSource_checkItems {α : Type} {check : Trail → α → Report} {trail : Trail}
    {items : List α} (h : ∀ t x, (check t x).OfSource) : (checkItems trail check items).OfSource := by
  intro e he
  obtain ⟨⟨x, i⟩, -, he⟩ := List.mem_flatMap.mp he
  exact h _ x e he

variable (trail : Trail)

theorem ofSource_checkResource (r : Resource) : (checkResource trail r).OfSource := by
  rw [checkResource]
  split
  · exact ofSource_error rfl
  · exact ofSource_nil

theorem ofSource_checkMode (isDirectory : Bool) (mode : Option Int) :
    (checkMode trail isDirectory mode).OfSource :=
  ofSource_ite (ofSource_warning rfl)

theorem ofSource_checkFile (f : File) : (checkFile trail f).OfSource :=
  ((ofSource_checkResource _ _).append (ofSource_checkItems ofSource_checkResource)).append
    (ofSource_checkMode _ _ _)

theorem ofSource_checkFilesystem (fs : Filesystem) : (checkFilesystem trail fs).OfSource := by
  rw [checkFilesystem]
  split
  · exact ofSource_nil
  · exact (ofSource_ite (ofSource_error rfl)).append (ofSource_ite (ofSource_error rfl))

theorem ofSource_checkContents (contents contentsLocal : Option String) :
    (checkContents trail contents contentsLocal).OfSource :=
  ofSource_ite (ofSource_error rfl)

theorem ofSource_checkUnit (u : Unit) : (checkUnit trail u).OfSource :=
  (ofSource_checkContents _ _ _).append
    (ofSource_checkItems fun _ _ => ofSource_checkContents _ _ _)

/-- **The shared sections are checked at their places in the source.** -/
theorem ofSource_validate (start : Trail) (c : Config) : (validate start c).OfSource := by
  rw [validate]
  exact ((((((((ofSource_checkItems ofSource_checkResource).append
    (ofSource_checkResource _ _)).append (ofSource_checkItems ofSource_checkResource)).append
    (ofSource_checkItems ofSource_checkFile)).append
    (ofSource_checkItems fun _ _ => ofSource_checkMode _ _ _)).append
    (ofSource_checkItems fun _ _ => ofSource_checkResource _ _)).append
    (ofSource_checkItems fun _ _ => ofSource_ite (ofSource_error rfl))).append
    (ofSource_checkItems ofSource_checkFilesystem)).append
    (ofSource_checkItems ofSource_checkUnit)

end Source

theorem BootDevice.ofSource_validate (b : BootDevice) (start : Trail) :
    (b.validate start).OfSource :=
  (ofSource_ite (ofSource_error rfl)).append (ofSource_ite (ofSource_error rfl))

theorem Fcos.ofSource_checkRootPartitions (c : Source.Config) :
    (checkRootPartitions c).OfSource := by
  refine Source.ofSource_checkItems fun _ _ => ofSource_ite ?_
  exact Source.ofSource_checkItems fun _ _ => ofSource_ite (ofSource_warning rfl)

/-- **A config is checked at places of the source.** -/
theorem Config.ofSource_validate (config : Config) : config.validate.OfSource := by
  cases config with
  | fcos c =>
    exact (((Source.ofSource_validate _ _).append (c.bootDevice.ofSource_validate _)).append
      (Source.ofSource_checkItems fun _ _ => ofSource_ite (ofSource_error rfl))).append
        (Fcos.ofSource_checkRootPartitions _)
  | flatcar c => exact Source.ofSource_validate _ _
  | openshift c =>
    exact (((((Source.ofSource_validate _ _).append (ofSource_ite (ofSource_error rfl))).append
      (ofSource_ite (ofSource_error rfl))).append (ofSource_ite (ofSource_error rfl))).append
        (c.bootDevice.ofSource_validate _)).append (Fcos.ofSource_checkRootPartitions _)
  | fiot c => exact Source.ofSource_validate _ _

/-! ## Keys that mean nothing -/

section Unused

variable {strict : Bool}

mutual

theorem ofSource_unused (here : Trail) : (t : Yaml.Tree) → (x : Json) →
    (unused strict here t x).OfSource
  | .leaf _ _, _ => by
    simp only [unused]
    exact ofSource_nil
  | .map entries _, x => by
    cases x with
    | obj members =>
      rw [unused]
      exact ofSource_unusedEntries here entries members
    | _ =>
      simp only [unused]
      exact ofSource_nil
  | .sequence items _, x => by
    cases x with
    | arr values =>
      rw [unused]
      exact ofSource_unusedItems here 0 items values
    | _ =>
      simp only [unused]
      exact ofSource_nil

theorem ofSource_unusedEntries (here : Trail) :
    (entries : List (String × Marker × Yaml.Tree)) → (members : List (String × Json)) →
      (unusedEntries strict here entries members).OfSource
  | [], _ => by
    rw [unusedEntries]
    exact ofSource_nil
  | (key, marker, t) :: rest, members => by
    rw [unusedEntries]
    refine Report.OfSource.append ?_ (ofSource_unusedEntries here rest members)
    split
    · exact ofSource_unused _ t _
    · exact List.forall_mem_singleton.mpr ⟨rfl, rfl⟩

theorem ofSource_unusedItems (here : Trail) : (position : Nat) → (trees : List Yaml.Tree) →
    (values : List Json) → (unusedItems strict here position trees values).OfSource
  | _, [], _ | _, _ :: _, [] => by
    simp only [unusedItems]
    exact ofSource_nil
  | position, t :: trees, x :: values => by
    rw [unusedItems]
    exact (ofSource_unused _ t x).append (ofSource_unusedItems here (position + 1) trees values)

end

/-- **A document is read with reports at places of the source.** -/
theorem ofSource_decode (variant : Variant) (strict : Bool) (tree : Yaml.Tree)
    (bytes : Text.Bytes) : (decode variant strict tree bytes).2.OfSource := by
  rw [decode]
  split
  · exact ofSource_error rfl
  · split
    · exact List.forall_mem_singleton.mpr ⟨rfl, rfl⟩
    · exact ofSource_unused _ _ _

end Unused

end Provision
