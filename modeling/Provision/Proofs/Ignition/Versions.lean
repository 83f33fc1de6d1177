import Provision.Proofs.Ignition.Findings

/-!
# Newer versions

A field that came with a later version than the declared one is a flaw, and nothing else depends on
the version. So a config that declares a newer version has the flaws that it has for an older one,
without those of the fields that came in between.

* `Config.arrivals`: the fields of a config that came with a version.
* `Dated`: how what is found depends on the version.
* `dated_config`: what is found in a config depends on the version by its arrivals alone.
* `validateAs_newer`: what is found for a newer version.
-/

set_option autoImplicit false

namespace Provision

/-- A version that is not above another has reached nothing that the other has not. -/
theorem Version.hasReached_mono {v v' : Version}
    (h : v.major < v'.major ∨ v.major = v'.major ∧ v.minor ≤ v'.minor) {major minor : Nat}
    (hv : v.hasReached major minor = true) : v'.hasReached major minor = true := by
  simp only [hasReached, Bool.or_eq_true, Bool.and_eq_true, decide_eq_true_eq] at hv ⊢
  omega

namespace Ignition

/-! ## Arrivals -/

/-- A field that is given, and the version that it came with. -/
structure Arrival where
  trail : Trail
  major : Nat
  minor : Nat
  deriving DecidableEq, Repr

/-- Whether the field came after a version. -/
def Arrival.isAfter (v : Version) (a : Arrival) : Bool := !v.hasReached a.major a.minor

/-- What is found of the field in a version before it. -/
def Arrival.finding (v : Version) (a : Arrival) : Finding := ⟨a.trail, .tooEarly v a.major a.minor⟩

/-- A field that came with a version, if it is given. -/
def arrivalIf (given : Bool) (trail : Trail) (major minor : Nat) : List Arrival :=
  if given then [⟨trail, major, minor⟩] else []

/-- The arrivals in each item of a list. -/
def eachArrival {α : Type} (trail : Trail) (arrivals : Trail → α → List Arrival) (items : List α) :
    List Arrival :=
  items.zipIdx.flatMap fun (x, i) => arrivals (trail.index i) x

/-- The fields of a server that helps unlocking. -/
def Tang.arrivals (trail : Trail) (t : Tang) : List Arrival :=
  arrivalIf t.advertisement.isSome (trail.key "advertisement") 3 4

/-- The fields of an encrypted volume. -/
def Luks.arrivals (trail : Trail) (l : Luks) : List Arrival :=
  arrivalIf l.discard.isSome (trail.key "discard") 3 4 ++
  arrivalIf (!l.openOptions.isEmpty) (trail.key "openOptions") 3 4 ++
  eachArrival ((trail.key "clevis").key "tang") Tang.arrivals l.clevis.tang

/-- **The fields of a config that came with a version**, in the order of the document. -/
def Config.arrivals (c : Config) : List Arrival :=
  arrivalIf (c.kernelArguments ≠ {}) [.key "kernelArguments"] 3 3 ++
  eachArrival [.key "storage", .key "luks"] Luks.arrivals c.storage.luks

/-! ## Findings for two versions -/

namespace Finding

/-- Whether the finding is of a field that a version has. -/
def isOutgrown (v : Version) (f : Finding) : Bool :=
  match f.flaw with
  | .tooEarly _ major minor => v.hasReached major minor
  | _ => false

/-- The finding in a config that declares another version. -/
def redeclared (v : Version) (f : Finding) : Finding :=
  match f.flaw with
  | .tooEarly _ major minor => { f with flaw := .tooEarly v major minor }
  | _ => f

theorem isOutgrown_of_not_isEarly {f : Finding} (h : f.flaw.isEarly = false) (v : Version) :
    f.isOutgrown v = false := by
  rw [isOutgrown]
  split
  · next hflaw =>
    rw [hflaw] at h
    cases h
  · rfl

theorem redeclared_of_not_isEarly {f : Finding} (h : f.flaw.isEarly = false) (v : Version) :
    f.redeclared v = f := by
  rw [redeclared]
  split
  · next hflaw =>
    rw [hflaw] at h
    cases h
  · rfl

/-- Where a finding is and how much it matters does not depend on the version. -/
theorem key_redeclared (v : Version) (f : Finding) :
    ((f.redeclared v).trail, (f.redeclared v).severity) = (f.trail, f.severity) := by
  rw [redeclared]
  split
  · next hflaw => rw [severity, severity, hflaw]; rfl
  · rfl

end Finding

/-- What is found depends on the version by some arrivals: those after the version are found to be
early, and a newer version has the same findings without those that it outgrew. -/
structure Dated (found : Version → List Finding) (arrivals : List Arrival) : Prop where
  early : ∀ v, (found v).filter (·.flaw.isEarly) =
    (arrivals.filter (·.isAfter v)).map (·.finding v)
  newer : ∀ v v' : Version, (v.major < v'.major ∨ v.major = v'.major ∧ v.minor ≤ v'.minor) →
    found v' = ((found v).filter fun f => !f.isOutgrown v').map (·.redeclared v')

section Dated

variable {found found' : Version → List Finding} {arrivals arrivals' : List Arrival}

/-- What is not early does not depend on the version. -/
theorem dated_steady {findings : List Finding} (h : ∀ f ∈ findings, f.flaw.isEarly = false) :
    Dated (fun _ => findings) [] where
  early v := List.filter_eq_nil_iff.mpr fun f hf => by rw [h f hf]; exact Bool.false_ne_true
  newer v v' _ := by
    have hkept : (findings.filter fun f => !f.isOutgrown v') = findings :=
      List.filter_eq_self.mpr fun f hf => by rw [Finding.isOutgrown_of_not_isEarly (h f hf)]; rfl
    have hsame : ∀ f ∈ findings, f.redeclared v' = id f := fun f hf =>
      Finding.redeclared_of_not_isEarly (h f hf) v'
    rw [hkept, List.map_congr_left hsame, List.map_id]

/-- Errors in fields that may not be early do not depend on the version. -/
theorem dated_errors {trail : Trail} {findings : List Finding}
    (h : ErrorsIn false trail findings) : Dated (fun _ => findings) [] :=
  dated_steady fun f hf => (h f hf).not_isEarly

theorem Dated.append (h : Dated found arrivals) (h' : Dated found' arrivals') :
    Dated (fun v => found v ++ found' v) (arrivals ++ arrivals') where
  early v := by
    rw [List.filter_append, List.filter_append, List.map_append, h.early, h'.early]
  newer v v' hv := by
    rw [List.filter_append, List.map_append, ← h.newer v v' hv, ← h'.newer v v' hv]

/-- What does not depend on the version may stand before what does. -/
theorem Dated.after (h : Dated found' arrivals) (h' : Dated found []) :
    Dated (fun v => found v ++ found' v) arrivals :=
  h'.append h

/-- What does not depend on the version may stand after what does. -/
theorem Dated.before (h : Dated found arrivals) (h' : Dated found' []) :
    Dated (fun v => found v ++ found' v) arrivals := by
  have happend := h.append h'
  rwa [List.append_nil] at happend

theorem dated_flatMap {α : Type} {found : Version → α → List Finding} {arrivals : α → List Arrival}
    {items : List α} (h : ∀ x ∈ items, Dated (fun v => found v x) (arrivals x)) :
    Dated (fun v => items.flatMap (found v)) (items.flatMap arrivals) := by
  induction items with
  | nil => exact dated_steady nofun
  | cons x items ih =>
    obtain ⟨hx, hitems⟩ := List.forall_mem_cons.mp h
    exact hx.append (ih hitems)

theorem dated_each {α : Type} {check : Version → Trail → α → List Finding}
    {arrivals : Trail → α → List Arrival} {trail : Trail} {items : List α}
    (h : ∀ t x, Dated (fun v => check v t x) (arrivals t x)) :
    Dated (fun v => each trail (check v) items) (eachArrival trail arrivals items) :=
  dated_flatMap fun x _ => h (trail.index x.2) x.1

/-- **A field that came with a version is found to be early in those before it.** -/
theorem dated_since (given : Bool) (major minor : Nat) (trail : Trail) :
    Dated (fun v => checkSince v given major minor trail) (arrivalIf given trail major minor) where
  early v := by
    cases given with
    | false => rfl
    | true => cases hv : v.hasReached major minor <;> simp [checkSince, flawIf, arrivalIf, hv,
        Flaw.isEarly, Arrival.isAfter, Arrival.finding]
  newer v v' h := by
    cases given with
    | false => rfl
    | true =>
      cases hv : v.hasReached major minor with
      | true => simp [checkSince, flawIf, hv, Version.hasReached_mono h hv]
      | false => cases hv' : v'.hasReached major minor <;> simp [checkSince, flawIf, hv, hv',
          Finding.isOutgrown, Finding.redeclared]

end Dated

/-! ## Sections -/

theorem dated_tang (trail : Trail) (t : Tang) :
    Dated (fun v => checkTang v trail t) (t.arrivals trail) := by
  refine (dated_since _ 3 4 _).after (dated_errors (?_ : ErrorsIn false trail _))
  split
  · exact errorsIn_one rfl
  · exact errorsIn_url _ _

theorem dated_clevis (trail : Trail) (c : Clevis) :
    Dated (fun v => checkClevis v trail c)
      (eachArrival (trail.key "tang") Tang.arrivals c.tang) := by
  refine ((dated_each dated_tang).before (dated_errors (errorsIn_flawIf _ rfl))).before
    (dated_errors (?_ : ErrorsIn false trail _))
  split
  · exact errorsIn_nil
  · exact (errorsIn_flawIf _ rfl).widen.append (errorsIn_flawIf _ rfl)

theorem dated_luks (trail : Trail) (l : Luks) :
    Dated (fun v => checkLuks v trail l) (l.arrivals trail) := by
  refine (((dated_since _ 3 4 _).after (@dated_errors trail _ ?_)).append
    (dated_since _ 3 4 _)).append (dated_clevis _ _)
  refine ((errorsIn_flawIf _ rfl).append ?_).append (errorsIn_given l.keyFile).widen
  split
  · exact errorsIn_absolute _ _
  · exact errorsIn_one rfl

/-- What is found in items that do not depend on the version. -/
theorem steady_each {α : Type} {check : Trail → α → List Finding} {trail : Trail} {items : List α}
    (h : ∀ t x, ErrorsIn false t (check t x)) : Dated (fun _ => each trail check items) [] := by
  refine dated_steady fun f hf => ?_
  obtain ⟨i, x, -, hf⟩ := mem_each.mp hf
  exact (h _ x f hf).not_isEarly

theorem dated_storage (trail : Trail) (s : Storage) :
    Dated (fun v => checkStorage v trail s)
      (eachArrival (trail.key "luks") Luks.arrivals s.luks) := by
  have hbefore : Dated (fun _ => each (trail.key "disks") checkDisk s.disks ++
      each (trail.key "raid") checkRaid s.raid ++
      each (trail.key "filesystems") checkFilesystem s.filesystems) [] :=
    ((steady_each fun _ => errorsIn_disk).before (steady_each fun _ => errorsIn_raid)).before
      (steady_each fun _ => errorsIn_filesystem)
  have hpaths : Dated (fun _ => checkPaths trail s) [] := by
    refine dated_steady fun f hf => ?_
    obtain ⟨⟨⟨kind, i, path⟩, again⟩, -, hf⟩ := List.mem_flatMap.mp hf
    have herror : f.ErrorIn false ((trail.key kind).index i) := errorsIn_flawIf _ rfl f hf
    exact herror.not_isEarly
  exact ((((((dated_each dated_luks).after hbefore).before
    (steady_each fun _ => errorsIn_file)).before (steady_each fun _ => errorsIn_directory)).before
      (steady_each fun _ => errorsIn_link)).before hpaths).before
        (steady_each fun _ _ => errorsIn_flawIf _ rfl)

theorem dated_systemd (trail : Trail) (s : Systemd) :
    Dated (fun _ => checkSystemd trail s) [] := by
  have hunits : Dated (fun _ => each (trail.key "units") checkUnit s.units) [] := by
    refine dated_steady fun f hf => ?_
    obtain ⟨i, u, -, hf⟩ := mem_each.mp hf
    obtain herror | ⟨-, rfl⟩ := @flaws_unit false _ _ _ hf
    · exact Finding.ErrorIn.not_isEarly herror
    · rfl
  exact hunits.before (steady_each fun _ _ => errorsIn_flawIf _ rfl)

/-- **What is found in a config depends on the version by its arrivals alone.** -/
theorem dated_config (c : Config) : Dated (fun v => validateAs v c) c.arrivals :=
  ((((((dated_since _ 3 3 _).after (dated_errors (errorsIn_settings _))).before
    (dated_errors (errorsIn_kernelArguments _))).before (dated_errors (errorsIn_passwd _))).append
      (dated_storage _ _)).before (dated_systemd _ _))

/-! ## Newer versions -/

section Newer

variable {found : Version → List Finding} {arrivals : List Arrival}

/-- What a newer version outgrew is the arrivals after the older version and not after the newer
one. -/
theorem Dated.outgrown (h : Dated found arrivals) (v v' : Version) :
    ((found v).filter fun f => f.isOutgrown v') =
      (arrivals.filter fun a => a.isAfter v && !a.isAfter v').map (·.finding v) := by
  have hearly : ∀ f ∈ found v,
      f.isOutgrown v' = (f.isOutgrown v' && f.flaw.isEarly) := fun f _ => by
    cases hf : f.flaw.isEarly with
    | true => rw [Bool.and_true]
    | false => rw [Finding.isOutgrown_of_not_isEarly hf, Bool.and_false]
  have harrival : ∀ a : Arrival, (a.finding v).isOutgrown v' = !a.isAfter v' := fun a => by
    rw [Arrival.isAfter, Bool.not_not]
    rfl
  calc (found v).filter (fun f => f.isOutgrown v')
      = ((found v).filter (·.flaw.isEarly)).filter (fun f => f.isOutgrown v') := by
        rw [List.filter_filter]
        exact List.filter_congr hearly
    _ = ((arrivals.filter (·.isAfter v)).map (·.finding v)).filter
          (fun f => f.isOutgrown v') := by rw [h.early]
    _ = ((arrivals.filter (·.isAfter v)).filter fun a => !a.isAfter v').map (·.finding v) := by
        rw [List.filter_map]
        exact congrArg _ (List.filter_congr fun a _ => harrival a)
    _ = _ := by
        rw [List.filter_filter]
        exact congrArg _ (List.filter_congr fun a _ => Bool.and_comm _ _)

/-- Where the findings for a newer version are and how much they matter is a part of what it is for
the older one. -/
theorem Dated.sublist (h : Dated found arrivals) {v v' : Version}
    (hv : v.major < v'.major ∨ v.major = v'.major ∧ v.minor ≤ v'.minor) :
    ((found v').map fun f => (f.trail, f.severity)).Sublist
      ((found v).map fun f => (f.trail, f.severity)) := by
  have hkept : ((found v').map fun f => (f.trail, f.severity)) =
      (((found v).filter fun f => !f.isOutgrown v').map fun f => (f.trail, f.severity)) := by
    rw [h.newer v v' hv, List.map_map]
    exact List.map_congr_left fun f _ => Finding.key_redeclared v' f
  rw [hkept]
  exact List.filter_sublist.map _

end Newer

/-- **What is found for a newer version.** Let the first two numbers of a version be not above those
of another. The fields found to be flawed for the newer version are, in their order, some of those
found for the older one, as severe as there; so a config without errors for the older version has
none for the newer one. The findings for the newer version are the others without those that it
outgrew, and these are the fields that came after the older version and not after the newer one. -/
theorem validateAs_newer (c : Config) {v v' : Version}
    (h : v.major < v'.major ∨ v.major = v'.major ∧ v.minor ≤ v'.minor) :
    ((validateAs v' c).map fun f => (f.trail, f.severity)).Sublist
        ((validateAs v c).map fun f => (f.trail, f.severity)) ∧
      ((validateAs v c).any (·.isError) = false → (validateAs v' c).any (·.isError) = false) ∧
      validateAs v' c =
        ((validateAs v c).filter fun f => !f.isOutgrown v').map (·.redeclared v') ∧
      ((validateAs v c).filter fun f => f.isOutgrown v') =
        (c.arrivals.filter fun a => a.isAfter v && !a.isAfter v').map (·.finding v) := by
  have hdated := dated_config c
  have hsublist := hdated.sublist h
  refine ⟨hsublist, fun haccepted => ?_, hdated.newer v v' h, hdated.outgrown v v'⟩
  rw [List.any_eq_false] at haccepted ⊢
  intro f hf herror
  obtain ⟨g, hg, heq⟩ := List.mem_map.mp (hsublist.subset (List.mem_map_of_mem hf))
  refine haccepted g hg ?_
  rwa [Finding.isError, (Prod.mk.inj heq).2]

/-- A config with an argument for the kernel, and with a volume without a device that a server helps
to unlock. -/
def Config.sealed : Config where
  kernelArguments := { shouldExist := ["quiet"] }
  storage := { luks := [{ name := "data", discard := some false, clevis :=
    { tang := [{ url := "http://tang", advertisement := some "" }] } }] }

/-- The argument is no flaw any more for a version in between. -/
theorem sealed_newer :
    (validateAs (.release 3 3 0) Config.sealed).map (·.flaw) =
        [.luksWithoutDevice, .tooEarly (.release 3 3 0) 3 4, .tooEarly (.release 3 3 0) 3 4] ∧
      ((validateAs (.release 3 2 0) Config.sealed).filter fun f => f.isOutgrown (.release 3 3 0)) =
        [⟨[.key "kernelArguments"], .tooEarly (.release 3 2 0) 3 3⟩] := by
  obtain ⟨-, -, hnewer, houtgrown⟩ :=
    @validateAs_newer Config.sealed (.release 3 2 0) (.release 3 3 0) (by decide)
  rw [hnewer, houtgrown]
  with_unfolding_all decide

end Ignition

end Provision
