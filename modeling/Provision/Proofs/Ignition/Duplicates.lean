import Mathlib.Data.List.Perm.Basic
import Mathlib.Data.List.Zip
import Provision.Proofs.Ignition.Series

/-!
# What repeats an earlier entry is found

Each check of a list goes through it with the keys that it has seen. Together they find the entries
that repeat an earlier one of their series, and nothing else is found to be repeated.

* `flatMap_repeats`: going through a list with the keys seen gives what is repeated in a series.
* `finds_validateAs`: what is found to be repeated is what is repeated in the series of a config.
* `exact_validate`: repetitions are found exactly where they are.
-/

set_option autoImplicit false

namespace Provision.Ignition

/-! ## What checks find -/

section Checks

variable {findings findings' : List Finding} {ss ss' : List Series} {trail : Trail}

@[simp] theorem duplicatesOf_nil : duplicatesOf [] = [] := rfl

@[simp] theorem duplicatesOf_append (findings findings' : List Finding) :
    duplicatesOf (findings ++ findings') = duplicatesOf findings ++ duplicatesOf findings' :=
  List.filterMap_append

@[simp] theorem duplicatesOf_cons (t : Trail) (flaw : Flaw) :
    duplicatesOf (⟨t, flaw⟩ :: findings) =
      if flaw = .duplicate then t :: duplicatesOf findings else duplicatesOf findings := by
  by_cases h : flaw = .duplicate <;> simp [duplicatesOf, h]

@[simp] theorem duplicatesOf_flawIf (bad : Bool) (t : Trail) (flaw : Flaw) :
    duplicatesOf (flawIf bad t flaw) = if bad = true ∧ flaw = .duplicate then [t] else [] := by
  cases bad <;> simp [flawIf]

theorem duplicatesOf_flatMap {α : Type} (items : List α) (check : α → List Finding) :
    duplicatesOf (items.flatMap check) = items.flatMap fun x => duplicatesOf (check x) :=
  List.filterMap_flatMap

theorem duplicatesOf_each {α : Type} (check : Trail → α → List Finding) (items : List α) :
    duplicatesOf (each trail check items) =
      items.zipIdx.flatMap fun e => duplicatesOf (check (trail.index e.2) e.1) :=
  duplicatesOf_flatMap _ _

theorem duplicatesOf_each_eq_nil {α : Type} {check : Trail → α → List Finding} {items : List α}
    (h : ∀ t x, duplicatesOf (check t x) = []) : duplicatesOf (each trail check items) = [] := by
  rw [duplicatesOf_each]
  exact List.flatMap_eq_nil_iff.mpr fun e _ => h _ e.1

/-! ### Checks that find no repetitions -/

@[simp] theorem duplicatesOf_absolute (path : String) :
    duplicatesOf (checkAbsolute path trail) = [] := by
  simp [checkAbsolute]

@[simp] theorem duplicatesOf_since (declared : Version) (given : Bool) (major minor : Nat) :
    duplicatesOf (checkSince declared given major minor trail) = [] := by
  simp [checkSince]

@[simp] theorem duplicatesOf_url (url : String) : duplicatesOf (checkUrl url trail) = [] := by
  rw [checkUrl]
  split <;> simp

@[simp] theorem duplicatesOf_hash (hash : String) : duplicatesOf (checkHash hash trail) = [] := by
  rw [checkHash]
  split
  · dsimp only
    split <;> simp
  · simp

@[simp] theorem duplicatesOf_partition (p : Partition) :
    duplicatesOf (checkPartition trail p) = [] := by
  rw [checkPartition]
  split <;> simp

@[simp] theorem duplicatesOf_raid (r : Raid) : duplicatesOf (checkRaid trail r) = [] := by
  rw [checkRaid]
  split <;> simp

@[simp] theorem duplicatesOf_filesystem (f : Filesystem) :
    duplicatesOf (checkFilesystem trail f) = [] := by
  rw [checkFilesystem]
  simp only [duplicatesOf_append, List.append_eq_nil_iff]
  refine ⟨⟨?_, ?_⟩, ?_⟩ <;> split <;> simp

@[simp] theorem duplicatesOf_tang (declared : Version) (t : Tang) :
    duplicatesOf (checkTang declared trail t) = [] := by
  rw [checkTang]
  split <;> simp

@[simp] theorem duplicatesOf_clevis (declared : Version) (c : Clevis) :
    duplicatesOf (checkClevis declared trail c) = [] := by
  rw [checkClevis]
  split <;> simp [duplicatesOf_each_eq_nil]

@[simp] theorem duplicatesOf_node (path : String) (user : NodeUser) (group : NodeGroup) :
    duplicatesOf (checkNode trail path user group) = [] := by
  rw [checkNode]
  split <;> simp

@[simp] theorem duplicatesOf_mode (mode : Option Int) :
    duplicatesOf (checkMode trail mode) = [] := by
  simp [checkMode]

@[simp] theorem duplicatesOf_directory (d : Directory) :
    duplicatesOf (checkDirectory trail d) = [] := by
  simp [checkDirectory]

@[simp] theorem duplicatesOf_link (l : Link) : duplicatesOf (checkLink trail l) = [] := by
  simp [checkLink]

@[simp] theorem duplicatesOf_kernelArguments (k : KernelArguments) :
    duplicatesOf (checkKernelArguments trail k) = [] :=
  duplicatesOf_each_eq_nil fun _ _ => by simp

/-! ### Repetitions -/

@[simp] theorem length_repeats {κ : Type} [DecidableEq κ] (seen : List κ)
    (keys : List (Option κ)) : (repeats seen keys).length = keys.length := by
  fun_induction repeats seen keys with simp [*]

/-- The items of which a list of flags says that they are repeated. -/
theorem flatMap_repeats {α κ : Type} [DecidableEq κ] {key : α → Option κ} {wrap : κ → Mark}
    (hwrap : Function.Injective wrap) (place : α → Trail) (seen : List κ) (items : List α) :
    ((items.zip (repeats seen (items.map key))).flatMap fun e =>
        if e.2 = true then [place e.1] else []) =
      repeatedFrom (seen.map wrap) (items.map fun x => (place x, (key x).map wrap)) := by
  induction items generalizing seen with
  | nil => rfl
  | cons x rest ih =>
    rw [List.map_cons, List.map_cons]
    cases hkey : key x with
    | none => exact ih seen
    | some k =>
      rw [repeats, List.zip_cons_cons, List.flatMap_cons, ih (k :: seen), Option.map_some,
        repeatedFrom, List.map_cons]
      simp only [decide_eq_true_eq, List.mem_map_of_injective hwrap]
      split <;> rfl

/-- Flags with their positions. -/
theorem zipIdx_flags {α : Type} (items : List α) {flags : List Bool}
    (h : flags.length = items.length) :
    flags.zipIdx = (items.zipIdx.zip flags).map fun e => (e.2, e.1.2) := by
  rw [List.zipIdx_eq_zip_range', h, ← List.zip_swap, ← List.zipIdx_map_snd 0 items,
    List.zip_map_left, List.map_map]
  rfl

/-- The rows of a column of which flags say that they are repeated. -/
theorem flatMap_flags {α κ : Type} [DecidableEq κ] {key : α → Option κ} {wrap : κ → Mark}
    (hwrap : Function.Injective wrap) (field : String) (items : List α) :
    ((repeats [] (items.map key)).zipIdx.flatMap fun e =>
        if e.1 = true then [(trail.index e.2).key field] else []) =
      repeated (column trail field (fun x => (key x).map wrap) items) := by
  have hkeys : items.map key = items.zipIdx.map (key ∘ Prod.fst) := by
    rw [← List.map_map, List.zipIdx_map_fst]
  rw [zipIdx_flags items (by simp), List.flatMap_map, hkeys]
  exact flatMap_repeats hwrap (fun e => (trail.index e.2).key field) [] items.zipIdx

/-! ### Parts -/

theorem Finds.append (h : Finds findings ss) (h' : Finds findings' ss') :
    Finds (findings ++ findings') (ss ++ ss') := by
  rw [Finds, duplicatesOf_append, List.flatMap_append]
  exact List.Perm.append h h'

theorem finds_of_eq_nil (h : duplicatesOf findings = []) : Finds findings [] := by
  rw [Finds, h]
  exact .nil

/-- A check before that finds no repetitions. -/
theorem Finds.after (h : Finds findings' ss) (hf : duplicatesOf findings = []) :
    Finds (findings ++ findings') ss :=
  (finds_of_eq_nil hf).append h

/-- A check afterwards that finds no repetitions. -/
theorem Finds.before (h : Finds findings ss) (hf : duplicatesOf findings' = []) :
    Finds (findings ++ findings') ss := by
  have happend := h.append (finds_of_eq_nil hf)
  rwa [List.append_nil] at happend

theorem finds_each {α : Type} {check : Trail → α → List Finding}
    {series : Trail → α → List Series} (h : ∀ t x, Finds (check t x) (series t x))
    (items : List α) : Finds (each trail check items) (eachSeries trail series items) := by
  rw [Finds, duplicatesOf_each, eachSeries, List.flatMap_assoc]
  exact List.Perm.flatMap_left _ fun e _ => h _ e.1

/-- Flags for items say what is repeated in a column. -/
theorem finds_column {α κ : Type} [DecidableEq κ] {check : Trail → α × Bool → List Finding}
    {key : α → Option κ} {wrap : κ → Mark} {field : String} {items : List α}
    (hwrap : Function.Injective wrap)
    (h : ∀ t, ∀ x ∈ withRepeats key items,
      duplicatesOf (check t x) = if x.2 = true then [t.key field] else []) :
    Finds (each trail check (withRepeats key items))
      [column trail field (fun x => (key x).map wrap) items] := by
  have hflags : (withRepeats key items).map Prod.snd = repeats [] (items.map key) :=
    List.map_snd_zip (by simp)
  rw [Finds, duplicatesOf_each, List.flatMap_singleton, ← flatMap_flags hwrap, ← hflags,
    List.zipIdx_map, List.flatMap_map]
  refine .of_eq (List.flatMap_congr fun e he => ?_)
  exact h _ _ (List.fst_mem_of_mem_zipIdx he)

theorem text_injective : Function.Injective Mark.text := fun _ _ h => Mark.text.inj h

theorem number_injective : Function.Injective Mark.number := fun _ _ h => Mark.number.inj h

theorem finds_duplicates {α : Type} {key : α → Option String} {field : String} {items : List α} :
    Finds (duplicates trail field key items)
      [column trail field (fun x => (key x).map .text) items] :=
  finds_column text_injective fun t x _ => by simp

theorem finds_resource (r : Resource) : Finds (checkResource trail r) (resourceSeries trail r) := by
  rw [checkResource, resourceSeries]
  refine (finds_duplicates.after ?_).before (by simp)
  simp only [duplicatesOf_append, List.append_eq_nil_iff]
  refine ⟨⟨⟨?_, ?_⟩, ?_⟩, duplicatesOf_each_eq_nil fun _ _ => by simp⟩ <;> split <;> simp

/-- A resource that is not given has no headers. -/
theorem finds_given (r : Resource) : Finds (checkGiven trail r) (resourceSeries trail r) := by
  rw [checkGiven]
  split
  · next h =>
    rw [h]
    exact .nil
  · exact finds_resource r

theorem finds_names {α : Type} {name : α → String} {items : List α} :
    Finds (checkNames trail name items) [column trail "name" (fun x => filled (name x)) items] :=
  finds_column text_injective fun t x _ => by simp

theorem finds_disk (d : Disk) : Finds (checkDisk trail d) (diskSeries trail d) := by
  have hmark : (fun p : Partition => if p.number = 0 then none else some (.number p.number)) =
      fun p => (if p.number = 0 then none else some p.number).map Mark.number := by
    funext p
    split <;> rfl
  rw [checkDisk, diskSeries]
  refine Finds.after ?_ ?_
  · rw [Finds, duplicatesOf_each, List.flatMap_cons, List.flatMap_singleton, hmark,
      ← flatMap_flags text_injective, ← flatMap_flags number_injective]
    generalize hlabels : repeats [] (d.partitions.map (·.label)) = labels
    generalize hnumbers : repeats [] (d.partitions.map fun p =>
      if p.number = 0 then none else some p.number) = numbers
    have hlength : labels.length = numbers.length := by simp [← hlabels, ← hnumbers]
    have hfst : (labels.zip numbers).map Prod.fst = labels := List.map_fst_zip (by omega)
    have hsnd : (labels.zip numbers).map Prod.snd = numbers := List.map_snd_zip (by omega)
    -- Labels and numbers take turns in what is found.
    simp only [duplicatesOf_append, duplicatesOf_flawIf, and_true]
    refine (List.flatMap_append_perm _ _ _).symm.trans (.of_eq (congrArg₂ (· ++ ·) ?_ ?_))
    · rw [← hfst, List.zipIdx_map, List.flatMap_map, hfst]
      rfl
    · rw [← hsnd, List.zipIdx_map, List.flatMap_map, hsnd]
      rfl
  · simp only [duplicatesOf_append, List.append_eq_nil_iff]
    refine ⟨?_, duplicatesOf_each_eq_nil fun _ _ => by simp⟩
    split <;> simp

theorem finds_luks (declared : Version) (l : Luks) :
    Finds (checkLuks declared trail l) (resourceSeries (trail.key "keyFile") l.keyFile) := by
  rw [checkLuks]
  refine ((((finds_given l.keyFile).after ?_).before ?_).before ?_).before ?_
  · split <;> simp
  all_goals simp

theorem finds_file (f : File) : Finds (checkFile trail f) (fileSeries trail f) := by
  rw [checkFile, fileSeries]
  refine ((finds_given f.contents).after (by simp)).append ?_
  exact finds_each (fun _ r => finds_resource r) _

theorem finds_paths (s : Storage) : Finds (checkPaths trail s) [nodeSeries trail s] := by
  rw [checkPaths, Finds, duplicatesOf_flatMap, List.flatMap_singleton, withRepeats]
  simp only [duplicatesOf_flawIf, and_true]
  rw [flatMap_repeats text_injective fun n : String × Nat × String =>
    ((trail.key n.1).index n.2.1).key "path"]
  refine .of_eq (congrArg (repeatedFrom []) ?_)
  simp only [List.map_append, List.map_map]
  rfl

theorem finds_storage (declared : Version) (s : Storage) :
    Finds (checkStorage declared trail s) (storageSeries trail s) := by
  rw [checkStorage, storageSeries]
  refine ((((((((finds_each (fun _ d => finds_disk d) _).before ?_).before ?_).append
    (finds_each (fun _ l => finds_luks declared l) _)).append
      (finds_each (fun _ f => finds_file f) _)).before ?_).before ?_).append
        (finds_paths s)).append finds_duplicates
  all_goals exact duplicatesOf_each_eq_nil fun _ _ => by simp

/-- Only what has a key repeats. -/
theorem isSome_of_mem_withRepeats {α κ : Type} [DecidableEq κ] {key : α → Option κ} {x : α}
    {items : List α} (h : (x, true) ∈ withRepeats key items) : (key x).isSome = true := by
  rw [withRepeats] at h
  generalize ([] : List κ) = seen at h
  induction items generalizing seen with
  | nil => cases h
  | cons y rest ih =>
    rw [List.map_cons] at h
    cases hkey : key y with
    | none =>
      rw [hkey, repeats, List.zip_cons_cons] at h
      rcases List.mem_cons.mp h with h | h
      · cases h
      · exact ih seen h
    | some k =>
      rw [hkey, repeats, List.zip_cons_cons] at h
      rcases List.mem_cons.mp h with h | h
      · cases (Prod.mk.inj h).1
        rw [hkey]
        rfl
      · exact ih _ h

theorem finds_unit (u : Unit) : Finds (checkUnit trail u) (unitSeries trail u) := by
  have hmark : (fun d : Dropin => if isDropinName d.name then some (Mark.text d.name) else none) =
      fun d => (if isDropinName d.name then some d.name else none).map .text := by
    funext d
    split <;> rfl
  rw [checkUnit, unitSeries, hmark]
  refine Finds.after (finds_column text_injective fun t x hx => ?_) ?_
  · obtain ⟨d, again⟩ := x
    rw [checkDropin]
    cases again with
    | false => split <;> [skip; split] <;> simp
    | true =>
      have hname : isDropinName d.name = true := by
        by_contra hname
        have hkey := isSome_of_mem_withRepeats hx
        rw [if_neg hname] at hkey
        cases hkey
      have hne : d.name.isEmpty = false := by
        refine Bool.eq_false_iff.mpr fun hempty => ?_
        rw [String.isEmpty_iff.mp hempty] at hname
        exact absurd hname (by decide)
      simp [hname, hne]
  · simp only [duplicatesOf_append, List.append_eq_nil_iff]
    refine ⟨?_, by simp⟩
    split <;> simp

theorem finds_systemd (s : Systemd) : Finds (checkSystemd trail s) (systemdSeries trail s) :=
  (finds_each (fun _ u => finds_unit u) _).append finds_duplicates

theorem finds_settings (s : Settings) : Finds (checkSettings trail s) (settingsSeries trail s) := by
  rw [checkSettings, settingsSeries]
  refine ((((finds_each (fun _ r => finds_resource r) _).append (finds_given _)).append
    (finds_each (fun _ r => finds_resource r) _)).before ?_).before ?_
  all_goals simp

theorem finds_passwd (p : Passwd) : Finds (checkPasswd trail p) (passwdSeries trail p) :=
  finds_names.append finds_names

/-- **What a config repeats is what its check finds to be repeated.** -/
theorem finds_validateAs (declared : Version) (c : Config) :
    Finds (validateAs declared c) (series c) := by
  rw [validateAs, series]
  exact (((((finds_settings _).before (by simp)).before (by simp)).append
    (finds_passwd _)).append (finds_storage declared _)).append (finds_systemd _)

end Checks

/-! ## Configs -/

/-- **The entries of a config that repeat an earlier one are found, once each, and no others.** Of
the entries with one mark all but one are found, and where there are no errors, all marks differ. -/
theorem exact_validate {c : Config} {version : Version}
    (hversion : Version.ofText? c.ignition.version = some version)
    (hsupported : version ∈ supportedVersions) : Exact (validate c) (series c) := by
  rw [validate, hversion]
  dsimp only
  rw [if_pos hsupported]
  exact (finds_validateAs version c).exact (nodup_trailsOf_series c)

/-- A link at the path of the second of two files. -/
def linkAtFile : Config where
  ignition := { version := "3.4.0" }
  storage := {
    files := [{ path := "/etc/a" }, { path := "/etc/b" }]
    links := [{ path := "/etc/b", target := some "/etc/a" }] }

theorem exact_linkAtFile : Exact (validate linkAtFile) (series linkAtFile) ∧
    ⟨[.key "storage", .key "links", .index 0, .key "path"], .duplicate⟩ ∈ validate linkAtFile := by
  have hexact := @exact_validate linkAtFile (.release 3 4 0) (by decide) (by decide)
  have hnodes : nodeSeries [.key "storage"] linkAtFile.storage ∈ series linkAtFile := by
    simp [series, storageSeries, linkAtFile]
  exact ⟨hexact, (hexact.mem_iff _ hnodes
    [([.key "storage", .key "files", .index 0, .key "path"], some (.text "/etc/a")),
      ([.key "storage", .key "files", .index 1, .key "path"], some (.text "/etc/b"))]
    _ (some (.text "/etc/b")) [] rfl).mpr ⟨rfl, by decide⟩⟩

end Provision.Ignition
