import Provision.Ignition.Validate
import Provision.Proofs.MountUnit
import Provision.Proofs.MountUnit.Escape
import Provision.Source.Validate

/-!
# Units for filesystems that are checked

A filesystem asks for a unit by a field. Whether what it says is enough for one is decided twice: a
check reports what is missing, and the units are made of the filesystems that lack nothing. Where
the check finds no error, every filesystem that asks gets a unit, and no other does.

* `unitFor?_eq`: a filesystem without errors gets a unit exactly if it asks for one.
* `isUnitName_nameFor`: the unit has a name that is one.
* `nameFor_eq_iff`: which filesystems get units of one name.
* `find?_units`: a unit comes from the field of its filesystem, and so does all that is in it.
* `units_of_checked`: all of this for the units of a config.
-/

set_option autoImplicit false

namespace Provision.MountUnit

open Source (Filesystem)

/-! ## The unit for a filesystem -/

/-- The filesystems that ask for a unit, with their positions. -/
def asking (filesystems : List Filesystem) : List (Filesystem × Nat) :=
  filesystems.zipIdx.filter fun e => e.1.withMountUnit = some true

/-- The field that asks for the unit of the filesystem at a position. -/
def askingField (start : Trail) (position : Nat) : Trail :=
  ((start.dotted "storage.filesystems").index position).key "with_mount_unit"

/-- The name of the unit for a filesystem, made of its device if it is swap, and else of its path. -/
def nameFor (fs : Filesystem) : String :=
  if fs.format = some "swap" then escapePath fs.device ++ ".swap"
  else escapePath (fs.path.getD "") ++ ".mount"

/-- The contents of the unit for a filesystem. -/
def contentsFor (fs : Filesystem) : String :=
  if fs.format = some "swap" then swapContents fs
  else mountContents fs (fs.path.getD "") (fs.format.getD "")

/-- The unit for a filesystem. -/
def unitOf (fs : Filesystem) : Ignition.Unit :=
  { name := nameFor fs, enabled := some true, contents := some (contentsFor fs) }

/-- The unit for a filesystem as it is written. -/
def writtenUnit (fs : Filesystem) : Json :=
  .obj [("name", .str (nameFor fs)), ("enabled", .bool true), ("contents", .str (contentsFor fs))]

section Filesystem

variable {fs fs' : Filesystem}

/-- What is needed for a unit is there if nothing is wrong with a filesystem that asks for one. -/
theorem of_checked {t : Trail} (h : (Source.checkFilesystem t fs).isFatal = false)
    (hasks : fs.withMountUnit = some true) :
    (fs.path.getD "" ≠ "" ∨ fs.format = some "swap") ∧ fs.format.getD "" ≠ "" := by
  rw [Source.checkFilesystem, if_neg (not_not_intro hasks), Report.isFatal_append,
    Bool.or_eq_false_iff] at h
  obtain ⟨hpath, hformat⟩ := h
  constructor
  · by_cases hswap : fs.format = some "swap"
    · exact .inr hswap
    · refine .inl fun hempty => ?_
      rw [if_pos (by simp [hempty, hswap])] at hpath
      cases hpath
  · intro hempty
    rw [if_pos (by simp [hempty])] at hformat
    cases hformat

/-- **A filesystem without errors gets a unit exactly if it asks for one.** -/
theorem unitFor?_eq {t : Trail} (h : (Source.checkFilesystem t fs).isFatal = false) :
    unitFor? fs =
      if fs.withMountUnit = some true then some (nameFor fs, contentsFor fs) else none := by
  rw [unitFor?]
  by_cases hasks : fs.withMountUnit = some true
  · obtain ⟨hpath, hformat⟩ := of_checked h hasks
    rw [if_pos hasks, if_neg (not_not_intro hasks), nameFor, contentsFor]
    cases hf : fs.format with
    | none => rw [hf] at hformat; exact absurd rfl hformat
    | some format =>
      rw [hf] at hpath hformat
      have hne : format ≠ "" := hformat
      by_cases hswap : format = "swap"
      · simp [hswap, Option.filter]
      · have hname : fs.path.getD "" ≠ "" := hpath.resolve_right (by simpa using hswap)
        cases hp : fs.path with
        | none => rw [hp] at hname; exact absurd rfl hname
        | some path =>
          rw [hp] at hname
          have hpne : path ≠ "" := hname
          simp [hne, hswap, hpne, Option.filter]
  · rw [if_pos hasks, if_neg hasks]
    rfl

/-! ## Names -/

/-- What comes before a last dot and a kind is the start of a name. -/
theorem isUnitName_of {name : String} {stem kind : List Char}
    (h : name.toList = stem ++ '.' :: kind) (hne : stem ≠ []) (hslash : '/' ∉ stem) (hdot : '.' ∉ kind)
    (hkind : String.ofList kind ∈ Ignition.unitKinds) : Ignition.isUnitName name = true := by
  have hlast : ((stem ++ '.' :: kind).reverse.takeWhile (· ≠ '.')).reverse = kind := by
    have hall : ∀ c ∈ kind.reverse, decide (c ≠ '.') = true := fun c hc =>
      decide_eq_true fun h => hdot (h ▸ List.mem_reverse.mp hc)
    rw [List.reverse_append, List.reverse_cons, List.append_assoc, List.singleton_append,
      List.takeWhile_append_of_pos hall, List.takeWhile_cons_of_neg (by simp), List.append_nil,
      List.reverse_reverse]
  have hfirst : (stem ++ '.' :: kind).take
      ((stem ++ '.' :: kind).length - kind.length - 1) = stem := by
    refine List.take_left' ?_
    rw [List.length_append, List.length_cons]
    omega
  simp only [Ignition.isUnitName]
  rw [h, hlast, hfirst]
  simp [hne, hslash, hkind]

/-- **The name of the unit for any filesystem is the name of a unit.** -/
theorem isUnitName_nameFor (fs : Filesystem) : Ignition.isUnitName (nameFor fs) = true := by
  have hswap : ".swap".toList = '.' :: "swap".toList := by decide
  have hmount : ".mount".toList = '.' :: "mount".toList := by decide
  rw [nameFor]
  split
  · exact isUnitName_of (by rw [String.toList_append, hswap]) (escapePath_ne_nil _)
      (not_mem_escapePath _) (by decide) (by decide)
  · exact isUnitName_of (by rw [String.toList_append, hmount]) (escapePath_ne_nil _)
      (not_mem_escapePath _) (by decide) (by decide)

theorem nameFor_ne_empty (fs : Filesystem) : nameFor fs ≠ "" := by
  intro hempty
  have hname := isUnitName_nameFor fs
  rw [hempty] at hname
  exact absurd hname (by decide)

/-- Nothing is wrong with the unit for a filesystem. -/
theorem checkUnit_unitOf (t : Trail) (fs : Filesystem) : Ignition.checkUnit t (unitOf fs) = [] := by
  rw [Ignition.checkUnit, unitOf]
  dsimp only
  rw [if_neg (by simpa using nameFor_ne_empty fs), isUnitName_nameFor]
  rfl

/-- The unit for a filesystem is written in the form of units. -/
theorem write_unitOf (fs : Filesystem) :
    Ignition.Unit.codec.write (unitOf fs) = writtenUnit fs := by
  change Json.obj (Decode.RecordField.members Ignition.Unit.fields (unitOf fs)) = writtenUnit fs
  have hname : (unitOf fs).name ≠ "" := nameFor_ne_empty fs
  rw [Decode.RecordField.members, Ignition.Unit.fields, List.filterMap_cons,
    Decode.RecordField.sparse]
  dsimp only
  rw [if_neg hname]
  rfl

/-- Two filesystems have their units under one name: both are mounted at paths of the same steps, or
both are swap on devices of the same steps. -/
def SameUnit (fs fs' : Filesystem) : Prop :=
  (fs.format ≠ some "swap" ∧ fs'.format ≠ some "swap" ∧
      Files.steps (fs.path.getD "") = Files.steps (fs'.path.getD "")) ∨
    (fs.format = some "swap" ∧ fs'.format = some "swap" ∧
      Files.steps fs.device = Files.steps fs'.device)

/-- A name tells the kind of the unit. -/
theorem swap_ne_mount (p q : String) : p ++ ".swap" ≠ q ++ ".mount" := by
  intro h
  have hlast := congrArg (fun s => s.toList.getLast?) h
  simp only [String.toList_append] at hlast
  rw [(by decide : ".swap".toList = ['.', 's', 'w', 'a'] ++ ['p']),
    (by decide : ".mount".toList = ['.', 'm', 'o', 'u', 'n'] ++ ['t']), ← List.append_assoc,
    ← List.append_assoc, List.getLast?_concat, List.getLast?_concat] at hlast
  exact absurd hlast (by decide)

/-- **Units have one name exactly if they are of one kind and their paths or devices have the same
steps.** -/
theorem nameFor_eq_iff : nameFor fs = nameFor fs' ↔ SameUnit fs fs' := by
  rw [nameFor, nameFor, SameUnit]
  by_cases h : fs.format = some "swap" <;> by_cases h' : fs'.format = some "swap"
  · rw [if_pos h, if_pos h', String.append_left_inj, escapePath_inj]
    simp [h, h']
  · rw [if_pos h, if_neg h']
    simp [h, h', swap_ne_mount]
  · rw [if_neg h, if_pos h']
    simp [h, h', Ne.symm (swap_ne_mount _ _)]
  · rw [if_neg h, if_neg h', String.append_left_inj, escapePath_inj]
    simp [h, h']

end Filesystem

/-! ## The units of a config -/

/-- The document with a unit for each filesystem that asks for one. -/
def document (filesystems : List Filesystem) : Json :=
  if asking filesystems = [] then .obj []
  else .obj [("systemd", .obj [("units",
    .arr ((asking filesystems).map fun e => Ignition.Unit.codec.write (unitOf e.1)))])]

section Config

variable {c : Source.Config} {start : Trail} {filesystems : List Filesystem}

/-- A unit and the field that asks for it, as they are recorded. -/
def entry (start : Trail) (e : Filesystem × Nat) : Trail × Json :=
  (askingField start e.2, writtenUnit e.1)

/-- The place of a unit. -/
def unitTrail (j : Nat) : Trail := [.key "systemd", .key "units", .index j]

/-- Nothing is wrong with any of some filesystems. -/
def Passing (filesystems : List Filesystem) : Prop :=
  ∀ fs ∈ filesystems, ∃ t, (Source.checkFilesystem t fs).isFatal = false

theorem passing_of_validate (h : (Source.validate start c).isFatal = false) :
    Passing c.storage.filesystems := by
  intro fs hfs
  rw [Source.validate] at h
  simp only [Report.isFatal_append, Bool.or_eq_false_iff] at h
  obtain ⟨⟨-, hitems⟩, -⟩ := h
  obtain ⟨i, hi⟩ := List.mem_iff_getElem?.mp hfs
  refine ⟨((start.key "storage").key "filesystems").index i,
    List.any_eq_false.mpr fun entry hentry => ?_⟩
  exact List.any_eq_false.mp hitems entry
    (List.mem_flatMap.mpr ⟨(fs, i), List.mk_mem_zipIdx_iff_getElem?.mpr hi, hentry⟩)

/-- The units that are made are those that are asked for, if nothing is wrong. -/
theorem wanted_eq (h : Passing filesystems) :
    (filesystems.zipIdx.filterMap fun e => (unitFor? e.1).map fun unit =>
      (((start.dotted "storage.filesystems").index e.2).key "with_mount_unit",
        Json.obj [("name", .str unit.1), ("enabled", .bool true), ("contents", .str unit.2)])) =
      (asking filesystems).map (entry start) := by
  have hall : ∀ e ∈ filesystems.zipIdx, ∃ t, (Source.checkFilesystem t e.1).isFatal = false :=
    fun e he => h e.1 (List.fst_mem_of_mem_zipIdx he)
  rw [asking]
  generalize filesystems.zipIdx = entries at hall
  induction entries with
  | nil => rfl
  | cons e rest ih =>
    obtain ⟨⟨t, ht⟩, hrest⟩ := List.forall_mem_cons.mp hall
    rw [List.filterMap_cons, unitFor?_eq ht, List.filter_cons]
    by_cases hasks : e.1.withMountUnit = some true
    · rw [if_pos hasks, if_pos (decide_eq_true hasks), List.map_cons, ← ih hrest]
      rfl
    · rw [if_neg hasks, if_neg (by simpa using hasks), ← ih hrest]
      rfl

/-- The units of filesystems that pass. -/
theorem units_eq (h : Passing filesystems) :
    units filesystems start = ⟨document filesystems,
      ((asking filesystems).map (entry start)).zipIdx.foldl record {}, []⟩ := by
  rw [units, document]
  dsimp only
  rw [wanted_eq h, List.map_map]
  by_cases hnone : asking filesystems = []
  · rw [hnone]
    rfl
  · rw [if_neg (by simpa using hnone), if_neg hnone]
    simp only [write_unitOf]
    rfl

/-! ## Where units come from -/

/-- The contents of a unit are not empty. -/
theorem contentsFor_ne_empty (fs : Filesystem) : contentsFor fs ≠ "" := by
  have happend : ∀ {a : String} (b : String), a ≠ "" → a ++ b ≠ "" := fun b ha h =>
    ha (String.append_eq_empty_iff.mp h).1
  rw [contentsFor]
  split
  · delta swapContents
    iterate 4 refine happend _ ?_
    simp
  · delta mountContents
    dsimp only
    iterate 12 refine happend _ ?_
    simp

/-- No part of a unit is empty. -/
theorem not_isEmpty_of_at?_writtenUnit {fs : Filesystem} {u : Trail} {v : Json}
    (h : (writtenUnit fs).at? u = some v) : v.isEmpty = false := by
  cases u with
  | nil =>
    cases h
    rfl
  | cons step u =>
    obtain ⟨x, hx, hv⟩ := Option.bind_eq_some_iff.mp h
    cases step with
    | index => cases hx
    | key k =>
      rw [writtenUnit, Json.child?_key_obj] at hx
      have hmem := Json.mem_of_lookup hx
      have hleaf : x.isScalar = true ∧ x.isEmpty = false := by
        simp only [List.mem_cons, Prod.mk.injEq, List.not_mem_nil, or_false] at hmem
        rcases hmem with ⟨-, rfl⟩ | ⟨-, rfl⟩ | ⟨-, rfl⟩
        · exact ⟨rfl, by simpa [Json.isEmpty] using nameFor_ne_empty fs⟩
        · exact ⟨rfl, rfl⟩
        · exact ⟨rfl, by simpa [Json.isEmpty] using contentsFor_ne_empty fs⟩
      cases u with
      | nil =>
        cases hv
        exact hleaf.2
      | cons step u =>
        rw [Json.at?_cons, Json.child?_of_isScalar hleaf.1] at hv
        cases hv

/-- Whatever is recorded at a unit or below has the origin that belongs to the unit. -/
def Owned (wanted : List (Trail × Json)) (p : Provenance) : Prop :=
  ∀ e ∈ p.origins, ∀ j w, wanted[j]? = some w → unitTrail j <+: e.1 → e.2 = w.1

theorem owned_record {wanted : List (Trail × Json)} {p : Provenance} (h : Owned wanted p)
    {e : (Trail × Json) × Nat} (he : wanted[e.2]? = some e.1) : Owned wanted (record p e) := by
  have hvalue := @Provenance.grows_addValue (· = e.1.1) e.1.1 rfl p (unitTrail e.2) e.1.2
  have hlist := @Provenance.grows_add (· = e.1.1) e.1.1 rfl
    (p.addValue e.1.1 (unitTrail e.2) e.1.2) [.key "systemd", .key "units"]
  have hsystemd := @Provenance.grows_add (· = e.1.1) e.1.1 rfl
    ((p.addValue e.1.1 (unitTrail e.2) e.1.2).add e.1.1 [.key "systemd", .key "units"])
    [.key "systemd"]
  intro o ho j w hw hj
  -- What is recorded for containers is not below any unit.
  rcases hsystemd.mem o ho with ho | ⟨hplace, -⟩
  · rcases hlist.mem o ho with ho | ⟨hplace, -⟩
    · rcases hvalue.mem o ho with ho | ⟨hplace, hknown⟩
      · exact h o ho j w hw hj
      · have hsame : unitTrail j = unitTrail e.2 :=
          (List.prefix_of_prefix_length_le hj hplace (Nat.le_refl _)).eq_of_length rfl
        have : j = e.2 := by simpa [unitTrail] using hsame
        subst this
        cases he.symm.trans hw
        exact hknown
    · exact absurd (hplace ▸ hj).length_le (by simp [unitTrail])
  · exact absurd (hplace ▸ hj).length_le (by simp [unitTrail])

theorem owned_foldl {wanted : List (Trail × Json)} {entries : List ((Trail × Json) × Nat)}
    (h : ∀ e ∈ entries, wanted[e.2]? = some e.1) {p : Provenance} (hp : Owned wanted p) :
    Owned wanted (entries.foldl record p) := by
  induction entries generalizing p with
  | nil => exact hp
  | cons e rest ih =>
    obtain ⟨he, hrest⟩ := List.forall_mem_cons.mp h
    exact ih hrest (owned_record hp he)

/-- All origins are fields that ask for a unit. -/
theorem sound_units_asking (h : Passing filesystems) :
    Draft.Sound (fun o => ∃ e ∈ asking filesystems, o = askingField start e.2)
      (units filesystems start) := by
  rw [units_eq h, document]
  split
  · next hnone =>
    rw [hnone]
    exact Draft.sound_empty _
  · next hne =>
    have hunits : ∀ w ∈ (asking filesystems).map (entry start),
        IsUnit (fun o => ∃ e ∈ asking filesystems, o = askingField start e.2) w := by
      intro w hw
      obtain ⟨e, he, rfl⟩ := List.mem_map.mp hw
      exact ⟨⟨e, he, rfl⟩, fits_unit _ _, rfl⟩
    have hsound := sound_of_units hunits (by simpa using hne) []
    simp only [write_unitOf]
    rwa [List.map_map] at hsound

/-- **Each part of a unit comes from the field that asks for the unit**, if nothing is wrong. -/
theorem find?_units (h : Passing filesystems) {j : Nat} {e : Filesystem × Nat}
    (he : (asking filesystems)[j]? = some e) {u : Trail}
    (hu : ((writtenUnit e.1).at? u).isSome = true) :
    (units filesystems start).provenance.find? (unitTrail j ++ u) =
      some (askingField start e.2) := by
  obtain ⟨v, hv⟩ := Option.isSome_iff_exists.mp hu
  have hplace : (units filesystems start).value.at? (unitTrail j ++ u) = some v := by
    rw [units_eq h, document, if_neg (List.ne_nil_of_mem (List.mem_of_getElem? he)),
      Json.at?_append]
    change (((asking filesystems).map _)[j]?.bind some).bind _ = _
    rw [List.getElem?_map, he, ← hv, ← write_unitOf]
    rfl
  have hsome := (sound_units_asking h).isSome_find? hplace (not_isEmpty_of_at?_writtenUnit hv)
    (List.cons_ne_nil _ _)
  obtain ⟨o, ho⟩ := Option.isSome_iff_exists.mp hsome
  have howned : Owned ((asking filesystems).map (entry start))
      (units filesystems start).provenance := by
    rw [units_eq h]
    exact owned_foldl (fun w hw => List.mk_mem_zipIdx_iff_getElem?.mp hw) nofun
  have hown := howned _ (Origins.mem_of_find? ho) j (entry start e)
    (by rw [List.getElem?_map, he]; rfl) (List.prefix_append _ _)
  rw [ho]
  exact congrArg some hown

/-- **The units of a config without errors are those that its filesystems ask for.** There is one
for each filesystem that asks, in their order, and no other; nothing is wrong with any of them; two
have one name exactly if they are for the same path or the same device; and all that is in the
document comes from the fields that ask, each unit from its own. -/
theorem units_of_checked (h : (Source.validate start c).isFatal = false) :
    (units c.storage.filesystems start).value = document c.storage.filesystems ∧
      (∀ e ∈ asking c.storage.filesystems, ∀ t, Ignition.checkUnit t (unitOf e.1) = []) ∧
      (∀ e ∈ asking c.storage.filesystems, ∀ e' ∈ asking c.storage.filesystems,
        (unitOf e.1).name = (unitOf e'.1).name ↔ SameUnit e.1 e'.1) ∧
      (units c.storage.filesystems start).provenance.missing
        (document c.storage.filesystems) = [] ∧
      (∀ o ∈ (units c.storage.filesystems start).provenance.origins,
        ∃ e ∈ asking c.storage.filesystems, o.2 = askingField start e.2) ∧
      ∀ j e, (asking c.storage.filesystems)[j]? = some e → ∀ u,
        ((Ignition.Unit.codec.write (unitOf e.1)).at? u).isSome = true →
          (units c.storage.filesystems start).provenance.find? (unitTrail j ++ u) =
            some (askingField start e.2) := by
  have hpassing := passing_of_validate h
  have hsound := @sound_units_asking start _ hpassing
  have hvalue : (units c.storage.filesystems start).value = document c.storage.filesystems := by
    rw [units_eq hpassing]
  refine ⟨hvalue, fun e _ t => checkUnit_unitOf t e.1, fun e _ e' _ => nameFor_eq_iff, ?_,
    hsound.known, fun j e he u hu => find?_units hpassing he (write_unitOf e.1 ▸ hu)⟩
  rw [← hvalue]
  exact (Provenance.missing_eq_nil_iff _ _ hsound.distinct).mpr hsound.covers

/-- A filesystem to mount, one that stays as it is, and swap. -/
def threeFilesystems : List Filesystem :=
  [ { device := "/dev/vda", format := some "xfs", path := some "/var//lib/",
      withMountUnit := some true },
    { device := "/dev/vdb", format := some "xfs" },
    { device := "/dev/disk/by-label/s", format := some "swap", withMountUnit := some true } ]

theorem units_threeFilesystems :
    (Source.validate [] { storage := { filesystems := threeFilesystems } }).isFatal = false ∧
      (asking threeFilesystems).map (fun e => (unitOf e.1).name) =
        ["var-lib.mount", "dev-disk-by\\x2dlabel-s.swap"] ∧
      (units threeFilesystems []).value = document threeFilesystems ∧
      (units threeFilesystems []).provenance.find?
          [.key "systemd", .key "units", .index 1, .key "name"] =
        some [.key "storage", .key "filesystems", .index 2, .key "with_mount_unit"] := by
  have hchecked :
      (Source.validate [] { storage := { filesystems := threeFilesystems } }).isFatal = false := by
    decide
  obtain ⟨hvalue, -, -, -, -, hown⟩ := units_of_checked hchecked
  refine ⟨hchecked, by decide, hvalue, ?_⟩
  exact hown 1 _ rfl [.key "name"] rfl

end Config

end Provision.MountUnit
