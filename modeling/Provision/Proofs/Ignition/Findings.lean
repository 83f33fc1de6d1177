import Provision.Ignition.Validate
import Provision.Proofs.Outline

/-!
# Where the flaws of a config are

Every check of a part finds flaws in fields of the part, and all but one kind of flaw are errors. No
flaw is about the whole config or about a whole volume. Only what a check finds that is told the
version may be early, that is, about a field that came with a later one.

* `Finding.ErrorIn`: a finding is an error in a field of a part, and may be early or not.
* `each_eq_nil`, `duplicates_eq_nil`: where nothing is found in a list.
* `placed_of_mem`: where the flaws of a config are, and which of them is no error.
-/

set_option autoImplicit false

namespace Provision.Ignition

/-! ## Errors in fields -/

/-- Whether the flaw is that a field came with a later version. -/
def Flaw.isEarly : Flaw → Bool
  | .tooEarly .. => true
  | _ => false

/-- Whether the flaw is an error. Only where it may be early, it is that a field came with a later
version. -/
def Flaw.isError (early : Bool) (flaw : Flaw) : Bool :=
  flaw.severity = .error && (!flaw.isEarly || early)

/-- A finding is an error in a field of the part at a trail. -/
def Finding.ErrorIn (early : Bool) (trail : Trail) (f : Finding) : Prop :=
  f.flaw.isError early = true ∧ ∃ k, trail.key k <+: f.trail

/-- All findings are errors in fields of the part at a trail. -/
def ErrorsIn (early : Bool) (trail : Trail) (findings : List Finding) : Prop :=
  ∀ f ∈ findings, f.ErrorIn early trail

section Errors

variable {early : Bool} {trail : Trail} {findings findings' : List Finding} {k : String}
  {flaw : Flaw}

theorem Finding.ErrorIn.severity {f : Finding} (h : f.ErrorIn early trail) : f.severity = .error :=
  of_decide_eq_true (Bool.and_eq_true_iff.mp h.1).1

theorem Finding.ErrorIn.not_isEarly {f : Finding} (h : f.ErrorIn false trail) :
    f.flaw.isEarly = false := by
  have herror := (Bool.and_eq_true_iff.mp h.1).2
  rwa [Bool.or_false, Bool.not_eq_true'] at herror

theorem errorsIn_nil : ErrorsIn early trail [] := fun _ h => absurd h List.not_mem_nil

theorem ErrorsIn.append (h : ErrorsIn early trail findings) (h' : ErrorsIn early trail findings') :
    ErrorsIn early trail (findings ++ findings') :=
  List.forall_mem_append.mpr ⟨h, h'⟩

/-- What is in a field of a field is in the field. -/
theorem ErrorsIn.widen (h : ErrorsIn early (trail.key k) findings) :
    ErrorsIn early trail findings :=
  fun f hf => ⟨(h f hf).1, k, by
    obtain ⟨-, l, hl⟩ := h f hf
    exact (List.prefix_append _ _).trans hl⟩

theorem errorsIn_one (h : flaw.isError early = true) : ErrorsIn early trail [⟨trail.key k, flaw⟩] :=
  List.forall_mem_singleton.mpr ⟨h, k, List.prefix_refl _⟩

theorem errorsIn_flawIf (bad : Bool) (h : flaw.isError early = true) :
    ErrorsIn early trail (flawIf bad (trail.key k) flaw) := by
  rw [flawIf]
  split
  · exact errorsIn_one h
  · exact errorsIn_nil

theorem mem_each {α : Type} {check : Trail → α → List Finding} {items : List α} {f : Finding} :
    f ∈ each trail check items ↔ ∃ i x, items[i]? = some x ∧ f ∈ check (trail.index i) x := by
  rw [each, List.mem_flatMap]
  constructor
  · rintro ⟨⟨x, i⟩, hx, hf⟩
    exact ⟨i, x, List.mk_mem_zipIdx_iff_getElem?.mp hx, hf⟩
  · rintro ⟨i, x, hx, hf⟩
    exact ⟨(x, i), List.mk_mem_zipIdx_iff_getElem?.mpr hx, hf⟩

/-- Nothing is found in a list if nothing is found in its items. -/
theorem each_eq_nil {α : Type} {check : Trail → α → List Finding} {items : List α}
    (h : ∀ t, ∀ x ∈ items, check t x = []) : each trail check items = [] := by
  refine List.eq_nil_iff_forall_not_mem.mpr fun f hf => ?_
  obtain ⟨i, x, hx, hf⟩ := mem_each.mp hf
  rw [h _ x (List.mem_of_getElem? hx)] at hf
  cases hf

/-- Keys that differ do not repeat each other. -/
theorem repeats_of_nodup {α κ : Type} [DecidableEq κ] {key : α → Option κ} {items : List α}
    {seen : List κ} (hn : (items.filterMap key).Nodup)
    (hseen : ∀ k ∈ items.filterMap key, k ∉ seen) :
    ∀ again ∈ repeats seen (items.map key), again = false := by
  induction items generalizing seen with
  | nil => exact fun _ h => absurd h List.not_mem_nil
  | cons x items ih =>
    rw [List.map_cons]
    cases hkey : key x with
    | none =>
      rw [List.filterMap_cons_none hkey] at hn hseen
      exact List.forall_mem_cons.mpr ⟨rfl, ih hn hseen⟩
    | some k =>
      rw [List.filterMap_cons_some hkey] at hn hseen
      obtain ⟨hk, hn⟩ := List.nodup_cons.mp hn
      obtain ⟨hfirst, hrest⟩ := List.forall_mem_cons.mp hseen
      refine List.forall_mem_cons.mpr ⟨decide_eq_false hfirst, ih hn fun l hl hm => ?_⟩
      rcases List.mem_cons.mp hm with rfl | hm
      · exact hk hl
      · exact hrest l hl hm

theorem duplicates_eq_nil {α κ : Type} [DecidableEq κ] {key : α → Option κ} {items : List α}
    {field : String} (h : (items.filterMap key).Nodup) :
    duplicates trail field key items = [] :=
  each_eq_nil fun _ x hx => by
    have hagain : x.2 = false :=
      repeats_of_nodup h (fun _ _ => List.not_mem_nil) x.2 (List.of_mem_zip hx).2
    rw [flawIf, hagain]
    rfl

/-- What is in fields of items is in the field for the items. -/
theorem errorsIn_each {α : Type} {check : Trail → α → List Finding} {items : List α}
    (h : ∀ i x, ErrorsIn early ((trail.key k).index i) (check ((trail.key k).index i) x)) :
    ErrorsIn early trail (each (trail.key k) check items) := by
  intro f hf
  obtain ⟨i, x, -, hf⟩ := mem_each.mp hf
  obtain ⟨herror, l, hl⟩ := h i x f hf
  exact ⟨herror, k, (List.prefix_append _ [.index i]).trans ((List.prefix_append _ _).trans hl)⟩

theorem errorsIn_duplicates {α κ : Type} [DecidableEq κ] {key : α → Option κ} {items : List α}
    {field : String} : ErrorsIn early trail (duplicates (trail.key k) field key items) :=
  errorsIn_each fun _ _ => errorsIn_flawIf _ rfl

end Errors

/-! ## Resources -/

section Parts

variable {early : Bool} {trail : Trail}

theorem errorsIn_absolute (path k : String) :
    ErrorsIn early trail (checkAbsolute path (trail.key k)) :=
  errorsIn_flawIf _ rfl

theorem errorsIn_url (url k : String) : ErrorsIn early trail (checkUrl url (trail.key k)) := by
  rw [checkUrl]
  split
  · exact errorsIn_flawIf _ rfl
  · exact errorsIn_one rfl

theorem errorsIn_since (declared : Version) (given : Bool) (major minor : Nat) (k : String) :
    ErrorsIn true trail (checkSince declared given major minor (trail.key k)) :=
  errorsIn_flawIf _ rfl

theorem errorsIn_hash (hash k : String) : ErrorsIn early trail (checkHash hash (trail.key k)) := by
  rw [checkHash]
  split
  · dsimp only
    split
    · exact errorsIn_flawIf _ rfl
    · exact errorsIn_one rfl
  · exact errorsIn_one rfl

theorem errorsIn_resource (r : Resource) : ErrorsIn early trail (checkResource trail r) := by
  have hplace : trail.dotted "verification.hash" = (trail.key "verification").key "hash" := by
    rw [Trail.dotted, (by decide : Trail.ofText "verification.hash" =
      [.key "verification", .key "hash"]), Trail.key, Trail.key, List.append_assoc]
    rfl
  rw [checkResource]
  refine ((((ErrorsIn.append ?_ ?_).append ?_).append ?_).append ?_).append ?_
  · split
    · exact errorsIn_url _ _
    · exact errorsIn_nil
  · split
    · exact errorsIn_flawIf _ rfl
    · exact errorsIn_nil
  · split
    · rw [hplace]
      exact (errorsIn_hash _ _).widen
    · exact errorsIn_nil
  · exact errorsIn_each fun _ _ => errorsIn_flawIf _ rfl
  · exact errorsIn_duplicates
  · exact errorsIn_flawIf _ rfl

theorem errorsIn_given (r : Resource) : ErrorsIn early trail (checkGiven trail r) := by
  rw [checkGiven]
  split
  · exact errorsIn_nil
  · exact errorsIn_resource r

/-! ## Storage -/

theorem errorsIn_partition (p : Partition) : ErrorsIn early trail (checkPartition trail p) := by
  rw [checkPartition]
  dsimp only
  refine (((ErrorsIn.append ?_ (errorsIn_flawIf _ rfl)).append (errorsIn_flawIf _ rfl)).append
    (errorsIn_flawIf _ rfl))
  split
  · exact (errorsIn_flawIf _ rfl).append (errorsIn_flawIf _ rfl)
  · exact errorsIn_nil

theorem errorsIn_disk (d : Disk) : ErrorsIn early trail (checkDisk trail d) := by
  rw [checkDisk]
  refine (ErrorsIn.append ?_ (errorsIn_each fun _ p => errorsIn_partition p)).append
    (errorsIn_each fun _ _ => (errorsIn_flawIf _ rfl).append (errorsIn_flawIf _ rfl))
  split
  · exact errorsIn_one rfl
  · exact errorsIn_absolute _ _

theorem errorsIn_raid (r : Raid) : ErrorsIn early trail (checkRaid trail r) := by
  rw [checkRaid]
  refine ((errorsIn_flawIf _ rfl).append ?_).append (errorsIn_flawIf _ rfl)
  split
  · exact errorsIn_flawIf _ rfl
  · exact errorsIn_one rfl

theorem errorsIn_filesystem (f : Filesystem) : ErrorsIn early trail (checkFilesystem trail f) := by
  rw [checkFilesystem]
  refine (ErrorsIn.append ?_ ?_).append ?_
  · split
    · exact errorsIn_one rfl
    · exact errorsIn_absolute _ _
  · split
    · exact errorsIn_flawIf _ rfl
    · exact errorsIn_nil
  · split
    · exact (errorsIn_absolute _ _).append (errorsIn_flawIf _ rfl)
    · exact errorsIn_nil

theorem errorsIn_tang (declared : Version) (t : Tang) :
    ErrorsIn true trail (checkTang declared trail t) := by
  rw [checkTang]
  refine ErrorsIn.append ?_ (errorsIn_since _ _ _ _ _)
  split
  · exact errorsIn_one rfl
  · exact errorsIn_url _ _

theorem errorsIn_clevis (declared : Version) (c : Clevis) :
    ErrorsIn true trail (checkClevis declared trail c) := by
  rw [checkClevis]
  refine ((errorsIn_each fun _ t => errorsIn_tang declared t).append
    (errorsIn_flawIf _ rfl)).append ?_
  split
  · exact errorsIn_nil
  · exact (errorsIn_flawIf _ rfl).widen.append (errorsIn_flawIf _ rfl)

theorem errorsIn_luks (declared : Version) (l : Luks) :
    ErrorsIn true trail (checkLuks declared trail l) := by
  rw [checkLuks]
  refine (((((errorsIn_flawIf _ rfl).append ?_).append (errorsIn_given l.keyFile).widen).append
    (errorsIn_since _ _ _ _ _)).append (errorsIn_since _ _ _ _ _)).append
      (errorsIn_clevis declared l.clevis).widen
  split
  · exact errorsIn_absolute _ _
  · exact errorsIn_one rfl

theorem errorsIn_node (path : String) (user : NodeUser) (group : NodeGroup) :
    ErrorsIn early trail (checkNode trail path user group) := by
  rw [checkNode]
  refine (ErrorsIn.append ?_ (errorsIn_flawIf _ rfl)).append (errorsIn_flawIf _ rfl)
  split
  · exact errorsIn_one rfl
  · exact errorsIn_absolute _ _

theorem errorsIn_mode (mode : Option Int) : ErrorsIn early trail (checkMode trail mode) :=
  errorsIn_flawIf _ rfl

theorem errorsIn_file (f : File) : ErrorsIn early trail (checkFile trail f) :=
  (((errorsIn_node _ _ _).append (errorsIn_mode _)).append (errorsIn_given _).widen).append
    (errorsIn_each fun _ r => errorsIn_resource r)

theorem errorsIn_directory (d : Directory) : ErrorsIn early trail (checkDirectory trail d) :=
  (errorsIn_node _ _ _).append (errorsIn_mode _)

theorem errorsIn_link (l : Link) : ErrorsIn early trail (checkLink trail l) :=
  (errorsIn_node _ _ _).append (errorsIn_flawIf _ rfl)

end Parts

/-- **The flaws of the storage are errors in fields of its nodes.** -/
theorem flaws_storage {declared : Version} {trail : Trail} {s : Storage} {f : Finding}
    (h : f ∈ checkStorage declared trail s) :
    ∃ kind i, f.ErrorIn true ((trail.key kind).index i) := by
  have each : ∀ {α : Type} {kind : String} {check : Trail → α → List Finding} {items : List α},
      (∀ t x, ErrorsIn true t (check t x)) → f ∈ each (trail.key kind) check items →
        ∃ kind i, f.ErrorIn true ((trail.key kind).index i) := by
    intro α kind check items hcheck hf
    obtain ⟨i, x, -, hf⟩ := mem_each.mp hf
    exact ⟨kind, i, hcheck _ x f hf⟩
  rw [checkStorage] at h
  simp only [List.mem_append] at h
  rcases h with (((((((h | h) | h) | h) | h) | h) | h) | h) | h
  · exact each (fun _ => errorsIn_disk) h
  · exact each (fun _ => errorsIn_raid) h
  · exact each (fun _ => errorsIn_filesystem) h
  · exact each (fun _ => errorsIn_luks declared) h
  · exact each (fun _ => errorsIn_file) h
  · exact each (fun _ => errorsIn_directory) h
  · exact each (fun _ => errorsIn_link) h
  · rw [checkPaths] at h
    obtain ⟨⟨⟨kind, i, path⟩, again⟩, -, hf⟩ := List.mem_flatMap.mp h
    exact ⟨kind, i, errorsIn_flawIf _ rfl f hf⟩
  · exact each (fun _ _ => errorsIn_flawIf _ rfl) h

/-! ## Other sections -/

section Sections

variable {early : Bool} {trail : Trail}

theorem errorsIn_names {α : Type} {k : String} (name : α → String) (items : List α) :
    ErrorsIn early trail (checkNames (trail.key k) name items) :=
  errorsIn_each fun _ _ => (errorsIn_flawIf _ rfl).append (errorsIn_flawIf _ rfl)

theorem errorsIn_passwd (p : Passwd) : ErrorsIn early trail (checkPasswd trail p) :=
  (errorsIn_names _ _).append (errorsIn_names _ _)

theorem errorsIn_kernelArguments (k : KernelArguments) :
    ErrorsIn early trail (checkKernelArguments trail k) := by
  intro f hf
  rw [checkKernelArguments] at hf
  obtain ⟨i, a, -, hf⟩ := mem_each.mp hf
  rw [flawIf] at hf
  split at hf
  · cases List.mem_singleton.mp hf
    exact ⟨rfl, _, List.prefix_append _ _⟩
  · cases hf

theorem errorsIn_settings (s : Settings) : ErrorsIn early trail (checkSettings trail s) := by
  have hmerge : trail.dotted "config.merge" = (trail.key "config").key "merge" := by
    rw [Trail.dotted, (by decide : Trail.ofText "config.merge" =
      [.key "config", .key "merge"]), Trail.key, Trail.key, List.append_assoc]
    rfl
  have hreplace : trail.dotted "config.replace" = (trail.key "config").key "replace" := by
    rw [Trail.dotted, (by decide : Trail.ofText "config.replace" =
      [.key "config", .key "replace"]), Trail.key, Trail.key, List.append_assoc]
    rfl
  have hauthorities : trail.dotted "security.tls.certificateAuthorities" =
      ((trail.key "security").key "tls").key "certificateAuthorities" := by
    rw [Trail.dotted, (by decide : Trail.ofText "security.tls.certificateAuthorities" =
      [.key "security", .key "tls", .key "certificateAuthorities"]), Trail.key, Trail.key,
      Trail.key, List.append_assoc, List.append_assoc]
    rfl
  rw [checkSettings]
  dsimp only
  rw [hmerge, hreplace, hauthorities]
  exact ((((errorsIn_each fun _ r => errorsIn_resource r).widen.append
    (errorsIn_given _).widen.widen).append
      (errorsIn_each fun _ r => errorsIn_resource r).widen.widen).append
        (errorsIn_flawIf _ rfl).widen).append (errorsIn_flawIf _ rfl).widen

end Sections

/-! ## Units -/

theorem errorsIn_dropin {early : Bool} (trail : Trail) (x : Dropin × Bool) :
    ErrorsIn early trail (checkDropin trail x) := by
  rw [checkDropin]
  split
  · exact errorsIn_one rfl
  · split
    · exact errorsIn_one rfl
    · exact errorsIn_flawIf _ rfl

/-- **A flaw of a unit is an error in one of its fields, or that it has contents that a mask
hides.** -/
theorem flaws_unit {early : Bool} {trail : Trail} {u : Unit} {f : Finding}
    (h : f ∈ checkUnit trail u) : f.ErrorIn early trail ∨
      (u.contents.isSome = true ∧ f = ⟨trail.key "contents", .maskedContents⟩) := by
  rw [checkUnit, List.mem_append, List.mem_append] at h
  rcases h with (h | h) | h
  · refine .inl ((?_ : ErrorsIn early trail _) f h)
    split
    · exact errorsIn_one rfl
    · exact errorsIn_flawIf _ rfl
  · rw [flawIf] at h
    split at h
    · next hmasked => exact .inr ⟨(Bool.and_eq_true_iff.mp hmasked).2, List.mem_singleton.mp h⟩
    · cases h
  · exact .inl (errorsIn_each (fun _ x => errorsIn_dropin _ x) f h)

/-! ## Configs -/

/-- A finding is neither about a whole config nor about a whole volume, and if it is no error, it is
about the contents of a unit. -/
structure Finding.Placed (c : Config) (f : Finding) : Prop where
  ne_nil : f.trail ≠ []
  outline_ne : f.trail.outline ≠ [some "storage", some "luks", none]
  error_or : f.severity = .error ∨ ∃ i u, c.systemd.units[i]? = some u ∧ u.contents.isSome = true ∧
    f.trail = [.key "systemd", .key "units", .index i, .key "contents"]

/-- An error in a section other than the storage is placed. -/
theorem Finding.ErrorIn.placed {c : Config} {f : Finding} {k : String} (h : f.ErrorIn true [.key k])
    (hk : k ≠ "storage") : f.Placed c := by
  have herror := h.severity
  obtain ⟨-, l, u, hu⟩ := h
  refine ⟨fun hnil => ?_, fun hplace => hk ?_, .inl herror⟩
  · cases hu.trans hnil
  · rw [← hu] at hplace
    exact Option.some.inj (List.cons.inj hplace).1

/-- **All flaws of a config are placed.** -/
theorem placed_of_mem {c : Config} {f : Finding} (h : f ∈ validate c) : f.Placed c := by
  have version : ∀ flaw : Flaw, flaw.isError true = true →
      f ∈ [⟨[.key "ignition", .key "version"], flaw⟩] → f.Placed c := by
    intro flaw hflaw hf
    have herror : ErrorsIn true [.key "ignition"] [⟨[.key "ignition", .key "version"], flaw⟩] :=
      errorsIn_one (k := "version") hflaw
    exact (herror f hf).placed (by decide)
  rw [validate] at h
  split at h
  · exact version _ rfl h
  split at h
  · rw [validateAs] at h
    simp only [List.mem_append] at h
    rcases h with ((((h | h) | h) | h) | h) | h
    · exact (errorsIn_settings _ f h).placed (by decide)
    · rw [checkSince, flawIf] at h
      split at h
      · cases List.mem_singleton.mp h
        refine ⟨List.cons_ne_nil _ _, fun hplace => ?_, .inl rfl⟩
        exact absurd (List.cons.inj hplace).1 (by decide)
      · cases h
    · exact (errorsIn_kernelArguments _ f h).placed (by decide)
    · exact (errorsIn_passwd _ f h).placed (by decide)
    · obtain ⟨kind, i, herror⟩ := flaws_storage h
      obtain ⟨-, k, u, hu⟩ := id herror
      refine ⟨fun hnil => ?_, fun hplace => ?_, .inl herror.severity⟩
      · cases hu.trans hnil
      · -- A field of a node is four steps away.
        rw [← hu] at hplace
        exact absurd (congrArg List.length hplace) (by simp [Trail.key, Trail.index, Trail.outline])
    · rw [checkSystemd, List.mem_append] at h
      rcases h with h | h
      · obtain ⟨i, u, hu, hf⟩ := mem_each.mp h
        rcases @flaws_unit true _ _ _ hf with ⟨herror, hfield⟩ | ⟨hcontents, rfl⟩
        · obtain ⟨k, v, hv⟩ := hfield
          have hin : f.ErrorIn true [.key "systemd"] :=
            ⟨herror, "units", [.index i, .key k] ++ v, by rw [← hv]; rfl⟩
          exact hin.placed (by decide)
        · refine ⟨List.cons_ne_nil _ _, fun hplace => ?_, .inr ⟨i, u, hu, hcontents, rfl⟩⟩
          exact absurd (List.cons.inj hplace).1 (by decide)
      · exact (@errorsIn_duplicates true [.key "systemd"] _ _ _ _ _ _ _ f h).placed (by decide)
  · exact version _ rfl h

end Provision.Ignition
