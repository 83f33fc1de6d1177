import Provision.BootDevice
import Provision.Proofs.Draft

/-!
# The plan for the boot device is sound

What follows from the description of the boot device is appended node by node. Every node has the
shape that machines know. A plan has the nodes that follow, each in the list of its kind, and no
others.

* `takes_node`: the nodes of the plan.
* `sound_plan`: the plan is sound.
* `nodes_plan`: the nodes of a plan are those that follow.
* `disks`, `arrays`, `volumes`, `filesystems`: which these are, kind by kind (`nodes_eq`).
-/

set_option autoImplicit false

namespace Provision.BootDevice

open Draft (Shaped Sound)
open Shape
open Draft (Shaped)

/-! ## Nodes -/

theorem takes_partition (role : String) (n : Nat) (size : Option Int) (guid : Option String) :
    Ignition.Partition.shape.Takes (partition role n size guid) := by
  refine @takes_obj _ _ ["label", "sizeMiB", "typeGuid"] ?_ (by decide) ?_
  · rw [List.map_cons, List.map_append]
    exact ((names_toList _ _ _).append (names_toList _ _ _)).cons_cons _
  · refine List.forall_mem_cons.mpr ⟨⟨.leaf, rfl, takes_str _⟩, ?_⟩
    refine List.forall_mem_append.mpr ⟨forall_toList fun n => ?_, forall_toList fun x => ?_⟩
    · exact ⟨.leaf, rfl, takes_int n⟩
    · exact ⟨.leaf, rfl, takes_str x⟩

theorem takes_disk (layout device : String) (n : Nat) :
    Ignition.Disk.shape.Takes (mirrorDisk layout device n) := by
  refine takes_obj (.refl _) (by decide : ["device", "partitions", "wipeTable"].Nodup) ?_
  simp only [List.forall_mem_cons, List.not_mem_nil, false_implies, implies_true, and_true]
  refine ⟨⟨.leaf, rfl, takes_str _⟩, ⟨.list Ignition.Partition.shape, rfl, takes_list ?_⟩,
    ⟨.leaf, rfl, takes_bool _⟩⟩
  refine List.forall_mem_append.mpr ⟨?_, ?_⟩
  · rw [firmwarePartitions]
    split
    · simp only [List.forall_mem_cons, List.not_mem_nil, false_implies, implies_true, and_true]
      exact ⟨takes_partition _ _ _ _, takes_partition _ _ _ _⟩
    · split
      · simp only [List.forall_mem_cons, List.not_mem_nil, false_implies, implies_true, and_true]
        exact ⟨takes_partition _ _ _ _, takes_partition _ _ _ _⟩
      · simp only [List.forall_mem_cons, List.not_mem_nil, false_implies, implies_true, and_true]
        exact ⟨takes_partition _ _ _ _, takes_partition _ _ _ _⟩
  · simp only [List.forall_mem_cons, List.not_mem_nil, false_implies, implies_true, and_true]
    exact ⟨takes_partition _ _ _ _, takes_partition _ _ _ _⟩

theorem takes_texts (texts : List String) : (Shape.list .leaf).Takes (.arr (texts.map .str)) :=
  takes_list fun v hv => by
    obtain ⟨text, -, rfl⟩ := List.mem_map.mp hv
    exact takes_str text

theorem takes_array (role : String) (count : Nat) (options : List String) :
    Ignition.Raid.shape.Takes (mirrorArray role count options) := by
  refine @takes_obj _ _ ["name", "level", "devices", "options"] ?_ (by decide) ?_
  · rw [List.map_append]
    refine @List.Sublist.append _ _ ["name", "level", "devices"] _ ["options"] (.refl _) ?_
    split
    · exact List.nil_sublist _
    · exact .refl _
  · refine List.forall_mem_append.mpr ⟨?_, ?_⟩
    · simp only [List.forall_mem_cons, List.not_mem_nil, false_implies, implies_true, and_true]
      refine ⟨⟨.leaf, rfl, takes_str _⟩, ⟨.leaf, rfl, takes_str _⟩, .list .leaf, rfl,
        takes_list fun v hv => ?_⟩
      obtain ⟨n, -, rfl⟩ := List.mem_map.mp hv
      exact takes_str _
    · split
      · exact nofun
      · exact List.forall_mem_singleton.mpr ⟨.list .leaf, rfl, takes_texts _⟩

theorem takes_filesystem (device format label : String) :
    Ignition.Filesystem.shape.Takes (filesystem device format label) := by
  refine takes_obj (.refl _) (by decide : ["device", "format", "label", "wipeFilesystem"].Nodup) ?_
  simp only [List.forall_mem_cons, List.not_mem_nil, false_implies, implies_true, and_true]
  exact ⟨⟨.leaf, rfl, takes_str _⟩, ⟨.leaf, rfl, takes_str _⟩, ⟨.leaf, rfl, takes_str _⟩,
    ⟨.leaf, rfl, takes_bool _⟩⟩

theorem takes_tang (t : Source.Tang) : Ignition.Tang.shape.Takes (tangServer t) := by
  refine @takes_obj _ _ ["url", "thumbprint", "advertisement"] ?_ (by decide) ?_
  · rw [List.map_cons, List.map_append]
    exact ((names_toList _ _ _).append (names_toList _ _ _)).cons_cons _
  · refine List.forall_mem_cons.mpr ⟨⟨.leaf, rfl, takes_str _⟩, ?_⟩
    refine List.forall_mem_append.mpr ⟨forall_toList fun x => ?_, forall_toList fun x => ?_⟩
    · exact ⟨.leaf, rfl, takes_str x⟩
    · exact ⟨.leaf, rfl, takes_str x⟩

theorem takes_unlocking (e : Encryption) : Ignition.Clevis.shape.Takes (unlocking e) := by
  refine @takes_obj _ _ ["tang", "threshold", "tpm2"] ?_ (by decide) ?_
  · rw [List.map_append, List.map_append]
    refine @List.Sublist.append _ _ ["tang", "threshold"] _ ["tpm2"]
      (@List.Sublist.append _ _ ["tang"] _ ["threshold"] ?_ (names_toList _ _ _)) (names_toList _ _ _)
    split
    · exact List.nil_sublist _
    · exact .refl _
  · refine List.forall_mem_append.mpr ⟨List.forall_mem_append.mpr ⟨?_, forall_toList fun n => ?_⟩,
      forall_toList fun b => ?_⟩
    · split
      · exact nofun
      · refine List.forall_mem_singleton.mpr ⟨.list Ignition.Tang.shape, rfl, takes_list ?_⟩
        intro v hv
        obtain ⟨t, -, rfl⟩ := List.mem_map.mp hv
        exact takes_tang t
    · exact ⟨.leaf, rfl, takes_int n⟩
    · exact ⟨.leaf, rfl, takes_bool b⟩

theorem takes_volume (e : Encryption) (device : String) :
    Ignition.Luks.shape.Takes (volume e device) := by
  refine @takes_obj _ _ ["name", "label", "device", "clevis", "wipeVolume", "discard"] ?_
    (by decide) ?_
  · rw [List.map_append]
    exact @List.Sublist.append _ _ ["name", "label", "device", "clevis", "wipeVolume"] _
      ["discard"] (.refl _) (names_toList _ _ _)
  · refine List.forall_mem_append.mpr ⟨?_, forall_toList fun b => ⟨.leaf, rfl, takes_bool b⟩⟩
    simp only [List.forall_mem_cons, List.not_mem_nil, false_implies, implies_true, and_true]
    exact ⟨⟨.leaf, rfl, takes_str _⟩, ⟨.leaf, rfl, takes_str _⟩, ⟨.leaf, rfl, takes_str _⟩,
      ⟨Ignition.Clevis.shape, rfl, takes_unlocking e⟩, ⟨.leaf, rfl, takes_bool _⟩⟩

/-- A node for one of the lists of the storage. -/
def IsNode (kind : String) (node : Json) : Prop :=
  ∃ s, Ignition.Storage.shape.child? (.key kind) = some (.list s) ∧ s.Takes node ∧
    node.isEmpty = false

/-- **All nodes of the plan have the shapes that machines know.** -/
theorem isNode_of_mem {b : BootDevice} {e : Cause × String × Json} (h : e ∈ b.nodes) :
    IsNode e.2.1 e.2.2 := by
  have array : ∀ role count options, IsNode "raid" (mirrorArray role count options) :=
    fun _ _ _ => ⟨_, rfl, takes_array _ _ _, rfl⟩
  have fs : ∀ device format label, IsNode "filesystems" (filesystem device format label) :=
    fun _ _ _ => ⟨_, rfl, takes_filesystem _ _ _, rfl⟩
  rw [nodes] at h
  dsimp only at h
  split at h
  · cases h
  · simp only [List.mem_append] at h
    rcases h with (((((h | h) | h) | h) | h) | h) | h
    · obtain ⟨⟨device, i⟩, -, rfl⟩ := List.mem_map.mp h
      exact ⟨_, rfl, takes_disk _ _ _, rfl⟩
    · split at h
      · cases List.mem_singleton.mp h
        exact array _ _ _
      · cases h
    · split at h
      · simp only [List.mem_cons, List.not_mem_nil, or_false] at h
        rcases h with rfl | rfl
        · exact array _ _ _
        · exact array _ _ _
      · cases h
    · split at h
      · cases List.mem_singleton.mp h
        exact ⟨_, rfl, takes_volume _ _, rfl⟩
      · cases h
    · split at h
      · cases List.mem_singleton.mp h
        exact fs _ _ _
      · cases h
    · split at h
      · cases List.mem_singleton.mp h
        exact fs _ _ _
      · cases h
    · split at h
      · cases List.mem_singleton.mp h
        exact fs _ _ _
      · cases List.mem_singleton.mp h
        exact fs _ _ _

/-- **The plan is sound**, if the description is known. -/
theorem sound_plan {known : Trail → Prop} (b : BootDevice) {start : Trail}
    (h : ∀ cause : Cause, known (cause.trail start)) : Sound known (b.plan start) := by
  refine (Draft.grown_foldl (fun e he d _ => ?_) (Draft.sound_empty known).toShaped).sound
    (Draft.sound_empty known)
  obtain ⟨s, hs, ⟨hf, hd⟩, hne⟩ := isNode_of_mem he
  exact Draft.Grown.refl.push (h e.1) hs hf hd hne

theorem shaped_plan (b : BootDevice) (start : Trail) : Shaped (b.plan start) :=
  (@sound_plan (fun _ => True) b start fun _ => trivial).toShaped

/-! ## The nodes of a plan -/

/-- The nodes of a kind that follow from a description. -/
def ofKind (b : BootDevice) (kind : String) : List Json :=
  (b.nodes.filter (·.2.1 = kind)).map (·.2.2)

/-- **The nodes of a kind in a plan** are those that follow from the description, in their order. -/
theorem nodes_plan (b : BootDevice) (start : Trail) (kind : String) :
    (b.plan start).nodes kind = b.ofKind kind := by
  suffices h : ∀ entries : List (Cause × String × Json), (∀ e ∈ entries, IsNode e.2.1 e.2.2) →
      ∀ d, Shaped d →
        (entries.foldl (fun d e => d.push (e.1.trail start) e.2.1 e.2.2) d).nodes kind =
          d.nodes kind ++ (entries.filter (·.2.1 = kind)).map (·.2.2) from
    h b.nodes (fun e he => isNode_of_mem he) .empty (Draft.sound_empty fun _ => True).toShaped
  intro entries
  induction entries with
  | nil => exact fun _ d _ => (List.append_nil _).symm
  | cons e rest ih =>
    intro h d hd
    obtain ⟨⟨s, hs, ⟨hf, hdistinct⟩, -⟩, hrest⟩ := List.forall_mem_cons.mp h
    rw [List.foldl_cons, ih hrest _ (hd.push hs hf hdistinct), Draft.nodes_push (hd.lists hs)]
    by_cases hkind : e.2.1 = kind
    · rw [if_pos hkind.symm, List.filter_cons_of_pos (by simpa using hkind), List.map_cons,
        List.append_assoc, hkind, List.singleton_append]
    · rw [if_neg (Ne.symm hkind), List.filter_cons_of_neg (by simpa using hkind)]

/-! ## The nodes of each kind -/

/-- The roles of the partitions on each device of a layout, with their sizes and kinds if these are
fixed. -/
def parts (layout : String) : List (String × Option Int × Option String) :=
  (if layout = "aarch64" then
    [("reserved", some 1, some "8DA63339-0007-60C0-C436-083AC8230908"),
      ("esp", some 127, some "C12A7328-F81F-11D2-BA4B-00A0C93EC93B")]
  else if layout = "ppc64le" then
    [("prep", some 4, some "9E1A2D38-C612-4316-AA26-8B49521E5A8B"),
      ("reserved", some 1, some "8DA63339-0007-60C0-C436-083AC8230908")]
  else
    [("bios", some 1, some "21686148-6449-6E6F-744E-656564454649"),
      ("esp", some 127, some "C12A7328-F81F-11D2-BA4B-00A0C93EC93B")]) ++
  [("boot", some 384, none), ("root", none, none)]

theorem mirrorDisk_eq (layout device : String) (n : Nat) : mirrorDisk layout device n =
    .obj [("device", .str device),
      ("partitions", .arr ((parts layout).map fun (role, size, guid) =>
        partition role n size guid)), ("wipeTable", .bool true)] := by
  rw [mirrorDisk, firmwarePartitions, parts]
  split
  · rfl
  · split <;> rfl

/-- The disks that a boot device is mirrored over. -/
def disks (b : BootDevice) : List Json :=
  b.mirror.devices.zipIdx.map fun (device, i) =>
    mirrorDisk (b.layout.getD "x86_64") device (i + 1)

/-- Whether the partition that firmware starts from is mirrored, too. -/
def mirrorsEsp (b : BootDevice) : Bool := b.layout.getD "x86_64" ≠ "ppc64le"

/-- The roles of the arrays of their partitions, with the options of each array. -/
def arrayRoles (mirror esp : Bool) : List (String × List String) :=
  if mirror then
    (if esp then [("esp", ["--metadata=1.0"])] else []) ++
      [("boot", ["--metadata=1.0"]), ("root", [])]
  else []

/-- The arrays of their partitions. -/
def arrays (b : BootDevice) : List Json :=
  (arrayRoles b.wantsMirror b.mirrorsEsp).map fun (role, options) =>
    mirrorArray role b.mirror.devices.length options

/-- The encrypted volume. -/
def volumes (b : BootDevice) : List Json :=
  if b.wantsLuks then [volume b.luks b.encryptedDevice] else []

/-- The devices, formats and labels of the filesystems: those on the arrays and that of the root. -/
def formatted (mirror luks esp : Bool) : List (String × String × String) :=
  (if mirror then
    (if esp then [("/dev/md/md-esp", "vfat", "EFI-SYSTEM")] else []) ++
      [("/dev/md/md-boot", "ext4", "boot")]
  else []) ++
  (if luks then [("/dev/mapper/root", "xfs", "root")]
    else if mirror then [("/dev/md/md-root", "xfs", "root")] else [])

/-- The filesystems on the arrays and on the volume. -/
def filesystems (b : BootDevice) : List Json :=
  (formatted b.wantsMirror b.wantsLuks b.mirrorsEsp).map fun (device, format, label) =>
    filesystem device format label

/-- **The nodes that follow from a description**, kind by kind. -/
theorem nodes_eq (b : BootDevice) : b.nodes.map Prod.snd =
    b.disks.map ("disks", ·) ++ b.arrays.map ("raid", ·) ++ b.volumes.map ("luks", ·) ++
      b.filesystems.map ("filesystems", ·) := by
  have hnone : b.wantsMirror = false → b.mirror.devices = [] := by simp [wantsMirror]
  simp only [nodes, disks, arrays, arrayRoles, volumes, filesystems, formatted, mirrorsEsp]
  cases hm : b.wantsMirror <;> cases hl : b.wantsLuks <;>
    by_cases hlayout : b.layout.getD "x86_64" = "ppc64le" <;>
    simp [hlayout, hnone, hm, Function.comp_def]

/-- The nodes of a kind are those of this kind that follow. -/
theorem ofKind_eq (b : BootDevice) : b.ofKind "disks" = b.disks ∧ b.ofKind "raid" = b.arrays ∧
    b.ofKind "luks" = b.volumes ∧ b.ofKind "filesystems" = b.filesystems ∧
      b.ofKind "files" = [] := by
  have hkind : ∀ kind, b.ofKind kind =
      ((b.nodes.map Prod.snd).filter (·.1 = kind)).map Prod.snd := fun kind => by
    rw [List.filter_map, List.map_map]
    rfl
  have hall : ∀ nodes : List Json, nodes.filter (fun _ => true) = nodes := fun nodes =>
    List.filter_eq_self.mpr fun _ _ => rfl
  have hnone : ∀ nodes : List Json, nodes.filter (fun _ => false) = [] := fun nodes =>
    List.filter_eq_nil_iff.mpr fun _ _ => Bool.false_ne_true
  simp only [hkind, nodes_eq, List.filter_append, List.filter_map, Function.comp_def,
    List.map_append, List.map_map]
  simp [hall, hnone]

/-- No file follows from a description. -/
theorem files_plan (b : BootDevice) (start : Trail) : (b.plan start).nodes "files" = [] := by
  rw [nodes_plan, (ofKind_eq b).2.2.2.2]

/-- A volume follows if the root filesystem is encrypted. -/
theorem volumes_plan (b : BootDevice) (start : Trail) :
    (b.plan start).nodes "luks" = b.volumes := by
  rw [nodes_plan, (ofKind_eq b).2.2.1]

end Provision.BootDevice
