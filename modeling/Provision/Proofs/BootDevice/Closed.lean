import Mathlib.Data.List.Nodup
import Provision.Proofs.BootDevice.Reading

/-!
# The plan for the boot device is closed

The parts of a plan refer to each other by labels of partitions and by names of arrays and of the
volume. Whatever is referred to is planned.

* `label_injective`: a label tells its role and the number of its disk.
* `Closed`: how the parts of a storage refer to each other.
* `closed_made`: what is planned is closed.
-/

set_option autoImplicit false

namespace Provision.BootDevice

variable {b : BootDevice}

/-! ## Labels -/

/-- The roles of partitions are short, and neither a colon nor a dash is in them. -/
theorem role_of_mem {layout : String} {p : String × Option Int × Option String}
    (h : p ∈ parts layout) :
    p.1.length ≤ 8 ∧ ':' ∉ p.1.toList ∧ '-' ∉ p.1.toList ∧ p.2.1.any (· < 0) = false := by
  have hall : ∀ p ∈ parts layout,
      p.1.length ≤ 8 ∧ ':' ∉ p.1.toList ∧ '-' ∉ p.1.toList ∧ p.2.1.any (· < 0) = false := by
    rw [parts]
    split
    · decide
    · split <;> decide
  exact hall p h

/-- No two partitions of a disk have one role. -/
theorem nodup_roles (layout : String) : ((parts layout).map Prod.fst).Nodup := by
  rw [parts]
  split
  · decide
  · split <;> decide

theorem toList_label (role : String) (n : Nat) :
    (role ++ "-" ++ toString n).toList = role.toList ++ '-' :: Nat.toDigits 10 n := by
  rw [String.toList_append, String.toList_append, List.append_assoc]
  exact congrArg (role.toList ++ '-' :: ·) String.toList_ofList

theorem not_mem_toDigits {c : Char} (h : c.isDigit = false) (n : Nat) : c ∉ Nat.toDigits 10 n := by
  intro hc
  rw [Nat.isDigit_of_mem_toDigits (by decide) (by decide) hc] at h
  cases h

/-- **A label tells its role and its number.** -/
theorem label_injective {role role' : String} {m n : Nat} (h : '-' ∉ role.toList)
    (heq : role ++ "-" ++ toString m = role' ++ "-" ++ toString n) : role = role' ∧ m = n := by
  have hlist := congrArg String.toList heq
  rw [toList_label, toList_label,
    List.append_cons_inj_of_notMem h (not_mem_toDigits (by decide) m)] at hlist
  refine ⟨String.toList_inj.mp hlist.1, ?_⟩
  rw [← Nat.ofDigitChars_ten_toDigits (n := m), hlist.2.2, Nat.ofDigitChars_ten_toDigits]

/-! ## Parts -/

/-- There is a disk for each device of a mirror, in their order. -/
theorem devices_made (b : BootDevice) :
    (Made.storage b).disks.map (·.device) = b.mirror.devices := by
  rw [Made.storage, List.map_map]
  exact List.zipIdx_map_fst 0 _

/-- The volume is the only one, if it is wanted. -/
theorem mem_luks_made {v : Ignition.Luks} : v ∈ (Made.storage b).luks ↔
    b.wantsLuks = true ∧ v = Made.volume b.luks b.encryptedDevice := by
  rw [Made.storage]
  split
  · next hluks => simp [hluks]
  · next hluks => simp [hluks]

/-! ## References -/

/-- A storage has a partition with a label, at a position of a disk. -/
def Carries (s : Ignition.Storage) (label : String) (disk position : Nat) : Prop :=
  ∃ d p, s.disks[disk]? = some d ∧ d.partitions[position]? = some p ∧ p.label = some label

/-- The roles of arrays are roles of partitions. -/
theorem role_mem_parts {mirror : Bool} {layout : String} {r : String × List String}
    (h : r ∈ arrayRoles mirror (layout ≠ "ppc64le")) : r.1 ∈ (parts layout).map Prod.fst := by
  have hall : ∀ r ∈ arrayRoles mirror (layout ≠ "ppc64le"),
      r.1 ∈ (parts layout).map Prod.fst := by
    by_cases hppc : layout = "ppc64le"
    · rw [hppc]
      cases mirror <;> decide
    · rw [parts]
      simp only [hppc, if_false, ne_eq, not_false_eq_true, decide_true]
      split <;> cases mirror <;> decide
  exact hall r h

/-- The disk with a number is the one for the device with this number. -/
theorem disk_made (b : BootDevice) (m : Nat) : (Made.storage b).disks[m]? =
    b.mirror.devices[m]?.map fun device =>
      Made.disk (b.layout.getD "x86_64") device (m + 1) := by
  rw [Made.storage, List.getElem?_map, List.getElem?_zipIdx, Option.map_map, Nat.zero_add]
  rfl

/-- The partitions with a label are those with its role on the disk with its number. -/
theorem carries_made {label : String} {m k : Nat} : Carries (Made.storage b) label m k ↔
    m < b.mirror.devices.length ∧ ∃ role,
      ((parts (b.layout.getD "x86_64")).map Prod.fst)[k]? = some role ∧
        role ++ "-" ++ toString (m + 1) = label := by
  constructor
  · rintro ⟨d, p, hd, hp, hlabel⟩
    obtain ⟨device, hdevice, rfl⟩ := Option.map_eq_some_iff.mp (disk_made b m ▸ hd)
    rw [Made.disk, List.getElem?_map] at hp
    obtain ⟨part, hpart, rfl⟩ := Option.map_eq_some_iff.mp hp
    refine ⟨(List.getElem?_eq_some_iff.mp hdevice).1, part.1, ?_, Option.some.inj hlabel⟩
    rw [List.getElem?_map, hpart]
    rfl
  · rintro ⟨hm, role, hrole, rfl⟩
    rw [List.getElem?_map] at hrole
    obtain ⟨part, hpart, rfl⟩ := Option.map_eq_some_iff.mp hrole
    refine ⟨Made.disk (b.layout.getD "x86_64") b.mirror.devices[m] (m + 1),
      Made.partition part.1 (m + 1) part.2.1 part.2.2,
      (disk_made b m).trans (congrArg _ (List.getElem?_eq_getElem hm)), ?_, rfl⟩
    rw [Made.disk, List.getElem?_map, hpart]
    rfl

/-- **A member of an array is carried by one partition**, on the disk with the member's number. -/
theorem carries_member {role : String}
    (h : role ∈ (parts (b.layout.getD "x86_64")).map Prod.fst) {i : Nat}
    (hi : i < b.mirror.devices.length) :
    ∃ j, ∀ m k, Carries (Made.storage b) (role ++ "-" ++ toString (i + 1)) m k ↔
      m = i ∧ k = j := by
  obtain ⟨part, hpart, hrole⟩ := List.mem_map.mp h
  have hdash : '-' ∉ role.toList := hrole ▸ (role_of_mem hpart).2.2.1
  obtain ⟨j, hj⟩ := List.getElem?_of_mem h
  refine ⟨j, fun m k => carries_made.trans ⟨?_, ?_⟩⟩
  · rintro ⟨-, role', hk, hlabel⟩
    obtain ⟨rfl, hnumber⟩ := label_injective hdash hlabel.symm
    refine ⟨by omega, ?_⟩
    have hbound := (List.getElem?_eq_some_iff.mp hk).1
    exact (List.getElem?_inj hbound (nodup_roles _)).mp (hk.trans hj.symm)
  · rintro ⟨rfl, rfl⟩
    exact ⟨hi, role, hj, rfl⟩

/-- The filesystems are on arrays and on the volume that are planned, and one is the root. -/
theorem formatted_closed (mirror luks esp : Bool) :
    (∀ e ∈ formatted mirror luks esp, "/dev/md/".toList <+: e.1.toList →
      ∃ r ∈ arrayRoles mirror esp, e.1 = "/dev/md/" ++ ("md-" ++ r.1)) ∧
    ((∃ e ∈ formatted mirror luks esp, e.1 = "/dev/mapper/root") ↔ luks = true) ∧
    (mirror = true ∨ luks = true →
      (formatted mirror luks esp).countP (·.2.2 = "root") = 1) ∧
    (mirror = true → ∃ r ∈ arrayRoles mirror esp, r.1 = "root") := by
  revert mirror luks esp
  decide

/-- How the parts of a storage for a description refer to each other. -/
structure Closed (b : BootDevice) (s : Ignition.Storage) : Prop where
  /-- There is a disk for each device of a mirror, in their order. -/
  disks : s.disks.map (·.device) = b.mirror.devices
  /-- Each array has a member for each device. The member is a label that one partition carries,
  and this partition is on the disk for the device. -/
  members : ∀ r ∈ s.raid, r.devices.length = b.mirror.devices.length ∧
    ∀ i device, r.devices[i]? = some device → ∃ label j,
      device = "/dev/disk/by-partlabel/" ++ label ∧ ∀ m k, Carries s label m k ↔ m = i ∧ k = j
  /-- A filesystem on an array is on one of the storage. -/
  arrays : ∀ f ∈ s.filesystems, ∀ name, f.device = "/dev/md/" ++ name → ∃ r ∈ s.raid, r.name = name
  /-- So is a volume, if it is not on the device that the description gives. -/
  volumes : ∀ v ∈ s.luks, ∀ name, v.device = some ("/dev/md/" ++ name) →
    (∃ r ∈ s.raid, r.name = name) ∨ (b.wantsMirror = false ∧ v.device = b.luks.device)
  /-- A filesystem is on a volume if and only if there is this volume. -/
  mapped : (∃ f ∈ s.filesystems, f.device = "/dev/mapper/root") ↔ ∃ v ∈ s.luks, v.name = "root"
  /-- One filesystem is the root. -/
  root : s.filesystems.countP (·.label = some "root") = 1

/-- The member of an array with a number. -/
theorem member_made {role : String} {count i : Nat} {options : List String} {device : String}
    (h : (Made.array role count options).devices[i]? = some device) :
    i < count ∧ device = "/dev/disk/by-partlabel/" ++ (role ++ "-" ++ toString (i + 1)) := by
  rw [Made.array, List.getElem?_map] at h
  obtain ⟨n, hn, rfl⟩ := Option.map_eq_some_iff.mp h
  obtain ⟨hi, rfl⟩ := List.getElem?_eq_some_iff.mp hn
  rw [List.length_range'] at hi
  rw [List.getElem_range', Nat.one_mul, Nat.add_comm 1 i]
  exact ⟨hi, by simp only [String.append_assoc]⟩

/-- What is under the devices of arrays begins like them. -/
theorem prefix_of_array {device name : String} (h : device = "/dev/md/" ++ name) :
    "/dev/md/".toList <+: device.toList := by
  rw [h, String.toList_append]
  exact List.prefix_append _ _

/-- The volume is on a planned array, or on the device that the description gives. -/
theorem encryptedDevice_closed {name : String} (h : b.encryptedDevice = "/dev/md/" ++ name) :
    (∃ r ∈ (Made.storage b).raid, r.name = name) ∨
      (b.wantsMirror = false ∧ some b.encryptedDevice = b.luks.device) := by
  rw [encryptedDevice] at h ⊢
  cases hmirror : b.wantsMirror with
  | true =>
    rw [hmirror, if_pos rfl] at h
    obtain ⟨r, hr, hroot⟩ := (formatted_closed b.wantsMirror b.wantsLuks b.mirrorsEsp).2.2.2 hmirror
    have hdevice : "/dev/md/" ++ ("md-" ++ r.1) = "/dev/md/md-root" := by
      rw [hroot]
      decide
    refine .inl ⟨_, List.mem_map_of_mem hr, ?_⟩
    exact (String.append_right_inj _).mp (hdevice.trans h)
  | false =>
    rw [hmirror] at h
    refine .inr ⟨rfl, ?_⟩
    cases hdevice : b.luks.device with
    | some device => rfl
    | none =>
      rw [hdevice] at h
      exact absurd (prefix_of_array h) (by decide)

/-- **The storage that is planned is closed.** -/
theorem closed_made (h : b.wantsMirror = true ∨ b.wantsLuks = true) :
    Closed b (Made.storage b) := by
  obtain ⟨harrays, hmapped, hroot, -⟩ :=
    formatted_closed b.wantsMirror b.wantsLuks b.mirrorsEsp
  refine ⟨devices_made b, fun r hr => ?_, fun f hf name hname => ?_, fun v hv name hname => ?_,
    ?_, ?_⟩
  · obtain ⟨⟨role, options⟩, hrole, rfl⟩ := List.mem_map.mp hr
    refine ⟨by simp [Made.array], fun i device hi => ?_⟩
    obtain ⟨hcount, rfl⟩ := member_made hi
    obtain ⟨j, hj⟩ := carries_member (role_mem_parts hrole) hcount
    exact ⟨_, j, rfl, hj⟩
  · obtain ⟨e, he, rfl⟩ := List.mem_map.mp hf
    obtain ⟨r, hr, hdevice⟩ := harrays e he (prefix_of_array hname)
    refine ⟨_, List.mem_map_of_mem hr, ?_⟩
    exact (String.append_right_inj _).mp (hdevice.symm.trans hname)
  · obtain ⟨-, rfl⟩ := mem_luks_made.mp hv
    exact encryptedDevice_closed (Option.some.inj hname)
  · constructor
    · rintro ⟨f, hf, hdevice⟩
      obtain ⟨e, he, rfl⟩ := List.mem_map.mp hf
      exact ⟨_, mem_luks_made.mpr ⟨hmapped.mp ⟨e, he, hdevice⟩, rfl⟩, rfl⟩
    · rintro ⟨v, hv, -⟩
      obtain ⟨e, he, hdevice⟩ := hmapped.mpr (mem_luks_made.mp hv).1
      exact ⟨_, List.mem_map_of_mem he, hdevice⟩
  · rw [Made.storage, List.countP_map, ← hroot h]
    exact List.countP_congr fun e _ => by simp [Made.filesystem]

end Provision.BootDevice
