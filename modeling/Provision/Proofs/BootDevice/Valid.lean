import Provision.Proofs.BootDevice.Closed
import Provision.Proofs.Ignition.Findings

/-!
# The plan for the boot device is accepted

Machines find no fault in the config that a plan is read as: labels are short and differ, devices
are absolute, and formats and levels are known.

* `Plannable`: what a description must be like.
* `validateAs_made`: nothing is wrong with the config that is planned.
* `plan_accepted`: a plan is valid and closed, and all its parts have origins.
-/

set_option autoImplicit false

namespace Provision.BootDevice

variable {b : BootDevice}

/-! ## Disks -/

/-- A label is not too long, and no colon is in it. -/
theorem checkPartition_made {role : String} (hlength : role.length ≤ 8)
    (hcolon : ':' ∉ role.toList) {n : Nat} (hn : n ≤ Word.count) {size : Option Int}
    (hsize : size.any (· < 0) = false) (guid : Option String) (trail : Trail) :
    Ignition.checkPartition trail (Made.partition role n size guid) = [] := by
  have hlong : ¬(role ++ "-" ++ toString n).length > 36 := by
    have hdigits : (Nat.toDigits 10 n).length ≤ 20 :=
      (Nat.length_toDigits_le_iff (by decide) (by decide)).mpr
        (Nat.lt_of_le_of_lt hn (by decide : Word.count < 10 ^ 20))
    rw [← String.length_toList, toList_label, List.length_append, List.length_cons,
      String.length_toList]
    omega
  have hcontains : (role ++ "-" ++ toString n).contains ':' = false := by
    rw [String.contains_char_eq, toList_label]
    simp [hcolon, not_mem_toDigits (by decide : ':'.isDigit = false)]
  simp only [Ignition.checkPartition, Made.partition, Ignition.flawIf, hlong, hcontains, hsize]
  rfl

/-- An absolute path is a text, and nothing is wrong with it. -/
theorem checkAbsolute_of {device : String} (h : device.startsWith "/" = true) :
    device.isEmpty = false ∧ ∀ trail, Ignition.checkAbsolute device trail = [] := by
  refine ⟨?_, fun trail => ?_⟩
  · cases hempty : device.isEmpty with
    | false => rfl
    | true =>
      rw [String.isEmpty_iff.mp hempty, String.startsWith_string_iff] at h
      exact absurd h (by decide)
  · rw [Ignition.checkAbsolute, h]
    rfl

/-- Nothing is wrong with a disk if its partitions are in order and differ. -/
theorem checkDisk_eq_nil {d : Ignition.Disk} (h : d.device.startsWith "/" = true)
    (hpartitions : ∀ t, ∀ p ∈ d.partitions, Ignition.checkPartition t p = [])
    (hlabels : (d.partitions.filterMap (·.label)).Nodup)
    (hnumbers : (d.partitions.filterMap fun p =>
      if p.number = 0 then none else some p.number).Nodup) (trail : Trail) :
    Ignition.checkDisk trail d = [] := by
  obtain ⟨hdevice, habsolute⟩ := checkAbsolute_of h
  have hlabel := Ignition.repeats_of_nodup hlabels fun _ _ => List.not_mem_nil
  have hnumber := Ignition.repeats_of_nodup hnumbers fun _ _ => List.not_mem_nil
  rw [Ignition.checkDisk, if_neg (hdevice ▸ Bool.false_ne_true), habsolute,
    Ignition.each_eq_nil hpartitions, Ignition.each_eq_nil fun t x hx => ?_]
  · rfl
  · obtain ⟨hfirst, hsecond⟩ := List.of_mem_zip hx
    rw [hlabel x.1 hfirst, hnumber x.2 hsecond]
    rfl

/-- **Nothing is wrong with a disk** that is planned: its partitions have labels that differ, and
no numbers. -/
theorem checkDisk_made (layout : String) {device : String} (h : device.startsWith "/" = true)
    {n : Nat} (hn : n ≤ Word.count) (trail : Trail) :
    Ignition.checkDisk trail (Made.disk layout device n) = [] := by
  refine checkDisk_eq_nil h (fun t p hp => ?_) ?_ ?_ trail
  · obtain ⟨part, hpart, rfl⟩ := List.mem_map.mp hp
    obtain ⟨hlength, hcolon, -, hsize⟩ := role_of_mem hpart
    exact checkPartition_made hlength hcolon hn hsize _ _
  · have hlabels : (Made.disk layout device n).partitions.filterMap (·.label) =
        ((parts layout).map Prod.fst).map fun role => role ++ "-" ++ toString n := by
      simp [Made.disk, Made.partition, List.filterMap_map, Function.comp_def]
    rw [hlabels]
    exact List.Nodup.map (fun _ _ heq =>
      (String.append_left_inj _).mp ((String.append_left_inj _).mp heq)) (nodup_roles layout)
  · simp [Made.disk, Made.partition, List.filterMap_map]

/-- What a description must be like for machines to accept what follows from it: something is
wanted, devices are absolute and those of a mirror are distinct and not too many, and the ways to
unlock the volume are such that machines take them. -/
structure Plannable (b : BootDevice) : Prop where
  wanted : b.wantsMirror = true ∨ b.wantsLuks = true
  absolute : ∀ device ∈ b.mirror.devices, device.startsWith "/" = true
  distinct : b.mirror.devices.Nodup
  few : b.mirror.devices.length < Word.count
  encrypted : ∀ device ∈ b.luks.device, device.startsWith "/" = true
  urls : ∀ t ∈ b.luks.tang, Ignition.checkUrl t.url [] = []
  threshold : ∀ n ∈ b.luks.threshold, 1 ≤ n ∧ Word.holdsSigned n = true

/-- A URL is taken or not, wherever it is. -/
theorem checkUrl_of {url : String} (h : Ignition.checkUrl url [] = []) (trail : Trail) :
    url.isEmpty = false ∧ Ignition.checkUrl url trail = [] := by
  constructor
  · cases hempty : url.isEmpty with
    | false => rfl
    | true =>
      rw [String.isEmpty_iff.mp hempty] at h
      exact absurd h (by decide)
  · rw [Ignition.checkUrl] at h ⊢
    split at h
    · rw [Ignition.flawIf] at h ⊢
      split at h
      · cases h
      · next hknown => rw [if_neg hknown]
    · cases h

/-- The device that is encrypted is absolute. -/
theorem absolute_encryptedDevice (h : Plannable b) :
    b.encryptedDevice.startsWith "/" = true := by
  rw [encryptedDevice]
  split
  · rw [String.startsWith_string_iff]
    decide
  · cases hdevice : b.luks.device with
    | none =>
      rw [Option.getD_none, String.startsWith_string_iff]
      decide
    | some device => exact h.encrypted device hdevice

/-- **Nothing is wrong with the volume** from version 3.4 on. -/
theorem checkLuks_made (h : Plannable b) {version : Version}
    (hversion : version.hasReached 3 4 = true) (trail : Trail) :
    Ignition.checkLuks version trail (Made.volume b.luks b.encryptedDevice) = [] := by
  have htang : ∀ t, ∀ x ∈ b.luks.tang.map Made.tang, Ignition.checkTang version t x = [] := by
    intro t x hx
    obtain ⟨tang, htang, rfl⟩ := List.mem_map.mp hx
    obtain ⟨hempty, hurl⟩ := checkUrl_of (h.urls tang htang) (t.key "url")
    simp [Ignition.checkTang, Made.tang, hempty, hurl, Ignition.checkSince, hversion,
      Ignition.flawIf]
  have hthreshold : b.luks.threshold.any (· < 1) = false := by
    cases hthreshold : b.luks.threshold with
    | none => rfl
    | some n => exact decide_eq_false (by have := (h.threshold n hthreshold).1; omega)
  have habsolute := (checkAbsolute_of (absolute_encryptedDevice h)).2
  simp [Ignition.checkLuks, Ignition.checkClevis, Made.volume, Made.clevis, habsolute,
    Ignition.each_eq_nil htang, hthreshold, Ignition.checkSince, hversion, Ignition.flawIf,
    Ignition.checkGiven]

theorem checkArray_made {role : String} {count : Nat} (h : count ≠ 0) (options : List String)
    (trail : Trail) : Ignition.checkRaid trail (Made.array role count options) = [] := by
  have hname : ("md-" ++ role).isEmpty = false := by
    simp
  simp [Ignition.checkRaid, Made.array, hname, Ignition.flawIf, Ignition.raidLevels, h]

/-- Only known formats are planned, and all devices of filesystems are absolute. -/
theorem formatted_of_mem {mirror luks esp : Bool} {e : String × String × String}
    (h : e ∈ formatted mirror luks esp) :
    e.1.startsWith "/" = true ∧ e.2.1 ∈ Ignition.formats := by
  have hall : ∀ mirror luks esp, ∀ e ∈ formatted mirror luks esp,
      "/".toList <+: e.1.toList ∧ e.2.1 ∈ Ignition.formats := by decide
  exact (hall _ _ _ e h).imp_left String.startsWith_string_iff.mpr

theorem checkFilesystem_made {device format : String} (h : device.startsWith "/" = true)
    (hformat : format ∈ Ignition.formats) (label : String) (trail : Trail) :
    Ignition.checkFilesystem trail (Made.filesystem device format label) = [] := by
  obtain ⟨hdevice, habsolute⟩ := checkAbsolute_of h
  simp [Ignition.checkFilesystem, Made.filesystem, hdevice, habsolute, hformat, Ignition.flawIf]

/-- Arrays are planned only over devices. -/
theorem count_ne_zero {r : String × List String} (h : r ∈ arrayRoles b.wantsMirror b.mirrorsEsp) :
    b.mirror.devices.length ≠ 0 := by
  intro hzero
  have hnone : b.wantsMirror = false := by simp [wantsMirror, List.length_eq_zero_iff.mp hzero]
  rw [hnone] at h
  cases h

/-- **Nothing is wrong with the storage that is planned** from version 3.4 on. -/
theorem checkStorage_made (h : Plannable b) {version : Version}
    (hversion : version.hasReached 3 4 = true) (trail : Trail) :
    Ignition.checkStorage version trail (Made.storage b) = [] := by
  have hdisks : ∀ t, ∀ d ∈ (Made.storage b).disks, Ignition.checkDisk t d = [] := by
    intro t d hd
    obtain ⟨⟨device, i⟩, hdevice, rfl⟩ := List.mem_map.mp hd
    obtain ⟨hi, -⟩ := List.getElem?_eq_some_iff.mp (List.mk_mem_zipIdx_iff_getElem?.mp hdevice)
    have hfew := h.few
    exact checkDisk_made _ (h.absolute device (List.fst_mem_of_mem_zipIdx hdevice)) (by omega) t
  have harrays : ∀ t, ∀ r ∈ (Made.storage b).raid, Ignition.checkRaid t r = [] := by
    intro t r hr
    obtain ⟨⟨role, options⟩, hrole, rfl⟩ := List.mem_map.mp hr
    exact checkArray_made (count_ne_zero hrole) options t
  have hfilesystems : ∀ t, ∀ f ∈ (Made.storage b).filesystems,
      Ignition.checkFilesystem t f = [] := by
    intro t f hf
    obtain ⟨e, he, rfl⟩ := List.mem_map.mp hf
    obtain ⟨hdevice, hformat⟩ := formatted_of_mem he
    exact checkFilesystem_made hdevice hformat _ _
  have hvolumes : ∀ t, ∀ v ∈ (Made.storage b).luks, Ignition.checkLuks version t v = [] := by
    intro t v hv
    obtain ⟨-, rfl⟩ := mem_luks_made.mp hv
    exact checkLuks_made h hversion t
  have hdevices : (Made.storage b).disks.filterMap (fun d => Ignition.nonEmpty d.device) =
      b.mirror.devices := by
    have hmap : (Made.storage b).disks.filterMap (fun d => Ignition.nonEmpty d.device) =
        ((Made.storage b).disks.map (·.device)).filterMap Ignition.nonEmpty := by
      rw [List.filterMap_map]
      rfl
    have hsome : b.mirror.devices.filterMap Ignition.nonEmpty = b.mirror.devices.filterMap some :=
      List.filterMap_congr fun device hd => by
        rw [Ignition.nonEmpty, (checkAbsolute_of (h.absolute device hd)).1]
        rfl
    rw [hmap, devices_made, hsome, List.filterMap_some]
  rw [Ignition.checkStorage, Ignition.each_eq_nil hdisks, Ignition.each_eq_nil harrays,
    Ignition.each_eq_nil hfilesystems, Ignition.each_eq_nil hvolumes,
    Ignition.duplicates_eq_nil (hdevices ▸ h.distinct)]
  rfl

/-- **Nothing is wrong with the config that is planned** from version 3.4 on. -/
theorem validateAs_made (h : Plannable b) {version : Version}
    (hversion : version.hasReached 3 4 = true) (text : String) :
    Ignition.validateAs version (Made.config b text) = [] := by
  rw [Ignition.validateAs]
  simp only [Made.config, checkStorage_made h hversion]
  rfl

/-- **A plan is accepted, closed and traced**: it is read, whatever version it is stamped with,
nothing is wrong with it from version 3.4 on, its parts refer to parts that are planned, and each
part comes from the mirror or from the encryption that the description asks for. -/
theorem plan_accepted (h : Plannable b) (start : Trail) (spec : Spec) :
    ∃ config, (stamp spec (b.plan start)).value = some config ∧
      (∀ version : Version, version.hasReached 3 4 = true →
        Ignition.validateAs version config = []) ∧
      (spec.target ∈ Ignition.supportedVersions → spec.target.hasReached 3 4 = true →
        Ignition.validate config = []) ∧
      Closed b config.storage ∧
      (b.plan start).provenance.missing (b.plan start).value = [] ∧
      ∀ e ∈ (b.plan start).provenance.origins,
        e.2 = (start.key "boot_device").key "mirror" ∨
          e.2 = (start.key "boot_device").key "luks" := by
  have hthreshold : Word.HoldsAll b.luks.threshold.toList := fun n hn =>
    (h.threshold n (Option.mem_toList.mp hn)).2
  have hsound : Draft.Sound (fun t => t = (start.key "boot_device").key "mirror" ∨
      t = (start.key "boot_device").key "luks") (b.plan start) :=
    sound_plan b fun cause => by
      cases cause
      · exact .inl rfl
      · exact .inr rfl
  refine ⟨Made.config b spec.target.text, stamp_plan hthreshold start spec,
    fun version hversion => validateAs_made h hversion _, fun hsupported hversion => ?_,
    closed_made h.wanted,
    (Provenance.missing_eq_nil_iff _ _ hsound.distinct).mpr hsound.covers, hsound.known⟩
  have htext : ∀ version ∈ Ignition.supportedVersions,
      Version.ofText? version.text = some version := by decide
  rw [Ignition.validate]
  simp only [Made.config, htext _ hsupported, if_pos hsupported]
  exact validateAs_made h hversion _

/-- A root that is mirrored over two devices and encrypted. -/
def mirroredVolume : BootDevice where
  luks := { tang := [⟨"http://tang.example", none, none⟩], threshold := some 1 }
  mirror := ⟨["/dev/sda", "/dev/sdb"]⟩

theorem mirroredVolume_accepted : Plannable mirroredVolume ∧ ∃ config,
    (stamp (.of .fcos 1 6 3 5) (mirroredVolume.plan [])).value = some config ∧
      Ignition.validate config = [] ∧ Closed mirroredVolume config.storage := by
  have absolute : ∀ device ∈ mirroredVolume.mirror.devices, "/".toList <+: device.toList := by
    decide
  have h : Plannable mirroredVolume := {
    wanted := .inl rfl
    absolute := fun device hd => String.startsWith_string_iff.mpr (absolute device hd)
    distinct := by decide
    few := by decide
    encrypted := nofun
    urls := by decide +kernel
    threshold := by decide }
  obtain ⟨config, hconfig, -, hvalid, hclosed, -⟩ := plan_accepted h [] (.of .fcos 1 6 3 5)
  exact ⟨h, config, hconfig, hvalid (by decide) (by decide), hclosed⟩

/-- A root that is encrypted on an array that was there before. -/
def foreignArray : BootDevice where
  luks := { device := some "/dev/md/data", tpm2 := some true }

/-- The array that a description gives as the device of the volume is not planned, and no config is
valid if its version is later than those that can be checked. -/
theorem foreignArray_unplanned : Plannable foreignArray ∧ foreignArray.validate [] = [] ∧
    ∃ config, (stamp (.of .fcos 1 6 3 6) (foreignArray.plan [])).value = some config ∧
      (∃ v ∈ config.storage.luks, v.device = some "/dev/md/data") ∧
      (∀ r ∈ config.storage.raid, r.name ≠ "data") ∧
      Ignition.validate config =
        [⟨[.key "ignition", .key "version"], .unsupportedVersion "3.6.0"⟩] := by
  have absolute : ∀ device ∈ foreignArray.luks.device, "/".toList <+: device.toList := by decide
  have h : Plannable foreignArray := {
    wanted := .inr rfl
    absolute := nofun
    distinct := by decide
    few := by decide
    encrypted := fun device hd => String.startsWith_string_iff.mpr (absolute device hd)
    urls := nofun
    threshold := nofun }
  exact ⟨h, by decide, _, stamp_plan (by decide) [] _, by decide, by decide, by decide +kernel⟩

end Provision.BootDevice
