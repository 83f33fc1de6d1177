import Provision.Proofs.BootDevice
import Provision.Proofs.Ignition.Lossless
import Provision.Proofs.Variant.Document

/-!
# What the plan for the boot device is read as

The nodes of a plan are written in an order of their own, and machines read them as disks, arrays,
filesystems and a volume.

* `value_plan`: the document of a plan, list by list.
* `Made.storage`, `Made.config`: what it is read as.
* `stamp_plan`: a plan is read, whatever version it is stamped with.
-/

set_option autoImplicit false

namespace Provision.BootDevice

open Decode Decode.Codec Decode.RecordField
open Ignition (given_bool given_int given_text)
open Word (HoldsAll)

/-! ## The document -/

/-- The list of a kind, if there are nodes. -/
def listing (kind : String) (nodes : List Json) : List (String × Json) :=
  if nodes.isEmpty then [] else [(kind, .arr nodes)]

/-- A document with a storage, if this has members. -/
def document (members : List (String × Json)) : Json :=
  .obj (if members.isEmpty then [] else [("storage", .obj members)])

/-- **A node that is appended is the last one in the list of its kind**, if this list is the last
one of the storage or is still without nodes. -/
theorem value_push {d : Draft} {kind : String} {members : List (String × Json)}
    {nodes : List Json} (hd : d.value = document (members ++ listing kind nodes))
    (h : kind ∉ members.map Prod.fst) (origin : Trail) (node : Json) :
    (d.push origin kind node).value = document (members ++ listing kind (nodes ++ [node])) := by
  have hstorage : (Json.lookup "storage" d.value.members).getD (.obj []) =
      .obj (members ++ listing kind nodes) := by
    rw [hd, document]
    split
    · next hempty =>
      rw [List.isEmpty_iff.mp hempty]
      rfl
    · rfl
  have hroot : ∀ storage, Json.insert "storage" storage d.value.members =
      [("storage", storage)] := by
    intro storage
    rw [hd, document]
    split <;> rfl
  have hlist : (Json.lookup kind (members ++ listing kind nodes)).getD (.arr []) =
      .arr nodes := by
    rw [Json.lookup, List.lookup_append, ← Json.lookup, Json.lookup_eq_none_iff.mpr h,
      Option.none_or]
    cases nodes with
    | nil => rfl
    | cons x nodes => simp [listing]
  have hinsert : Json.insert kind (.arr (nodes ++ [node])) (members ++ listing kind nodes) =
      members ++ listing kind (nodes ++ [node]) := by
    rw [Json.insert_append h]
    cases nodes with
    | nil => rfl
    | cons x nodes => simp [listing, Json.insert]
  rw [Draft.push]
  simp only [hstorage, hlist, hinsert, hroot]
  simp [document, listing]

/-- The document after all nodes of another kind are appended. -/
theorem value_listing {kind : String} {members : List (String × Json)}
    (h : kind ∉ members.map Prod.fst) (start : Trail) {entries : List (Cause × String × Json)}
    {nodes : List Json} (hnodes : entries.map Prod.snd = nodes.map (kind, ·)) {d : Draft}
    (hd : d.value = document members) :
    (entries.foldl (fun d e => d.push (e.1.trail start) e.2.1 e.2.2) d).value =
      document (members ++ listing kind nodes) := by
  suffices hall : ∀ before (d : Draft), d.value = document (members ++ listing kind before) →
      (entries.foldl (fun d e => d.push (e.1.trail start) e.2.1 e.2.2) d).value =
        document (members ++ listing kind (before ++ nodes)) from
    hall [] d (hd.trans (congrArg document (List.append_nil members).symm))
  clear hd d
  induction entries generalizing nodes with
  | nil =>
    intro before d hd
    rw [List.map_eq_nil_iff.mp hnodes.symm, List.append_nil]
    exact hd
  | cons e entries ih =>
    intro before d hd
    obtain ⟨node, nodes, rfl, hnode, htail⟩ := List.map_eq_cons_iff.mp hnodes.symm
    obtain ⟨cause, kind', node'⟩ := e
    cases hnode
    rw [List.foldl_cons, List.append_cons]
    exact ih htail.symm _ _ (value_push hd h _ _)

theorem names_listing (kind : String) (nodes : List Json) :
    ((listing kind nodes).map Prod.fst).Sublist [kind] := by
  rw [listing]
  split
  · exact List.nil_sublist _
  · exact .refl _

theorem not_mem_listing {kind k : String} (h : k ≠ kind) (nodes : List Json) :
    k ∉ (listing kind nodes).map Prod.fst :=
  fun hk => h (List.mem_singleton.mp ((names_listing kind nodes).subset hk))

/-- **The document of a plan** lists the disks, the arrays, the volume and the filesystems. -/
theorem value_plan (b : BootDevice) (start : Trail) : (b.plan start).value =
    document (listing "disks" b.disks ++ listing "raid" b.arrays ++
      listing "luks" b.volumes ++ listing "filesystems" b.filesystems) := by
  obtain ⟨rest, filesystems, hsplit, hrest, hfilesystems⟩ := List.map_eq_append_iff.mp b.nodes_eq
  obtain ⟨rest, volumes, rfl, hrest, hvolumes⟩ := List.map_eq_append_iff.mp hrest
  obtain ⟨disks, arrays, rfl, hdisks, harrays⟩ := List.map_eq_append_iff.mp hrest
  change (b.nodes.foldl (fun (d : Draft) e => d.push (e.1.trail start) e.2.1 e.2.2)
    Draft.empty).value = _
  rw [hsplit, List.foldl_append, List.foldl_append, List.foldl_append]
  refine value_listing ?_ start hfilesystems (value_listing ?_ start hvolumes
    (value_listing ?_ start harrays
      (@value_listing "disks" [] List.not_mem_nil start disks b.disks hdisks .empty rfl)))
  all_goals simp [not_mem_listing]

/-! ## Nodes -/

namespace Made

/-- A partition as machines read it. -/
def partition (role : String) (n : Nat) (size : Option Int) (guid : Option String) :
    Ignition.Partition :=
  { label := some (role ++ "-" ++ toString n), sizeMib := size, typeGuid := guid }

/-- A disk with the partitions of a layout. -/
def disk (layout device : String) (n : Nat) : Ignition.Disk where
  device
  wipeTable := some true
  partitions := (parts layout).map fun (role, size, guid) => partition role n size guid

/-- An array with a member on each of some devices. -/
def array (role : String) (count : Nat) (options : List String) : Ignition.Raid where
  name := "md-" ++ role
  level := some "raid1"
  devices := (List.range' 1 count).map fun n =>
    "/dev/disk/by-partlabel/" ++ role ++ "-" ++ toString n
  options

/-- A filesystem that is made anew. -/
def filesystem (device format label : String) : Ignition.Filesystem :=
  { device, format := some format, label := some label, wipeFilesystem := some true }

/-- A server that helps unlocking. -/
def tang (t : Source.Tang) : Ignition.Tang := ⟨t.url, t.thumbprint, t.advertisement⟩

/-- The ways to unlock the volume. -/
def clevis (e : Encryption) : Ignition.Clevis :=
  { tang := e.tang.map tang, threshold := e.threshold, tpm2 := e.tpm2 }

/-- The encrypted volume on a device. -/
def volume (e : Encryption) (device : String) : Ignition.Luks :=
  { name := "root", label := some "luks-root", device := some device, clevis := clevis e,
    wipeVolume := some true, discard := e.discard }

/-- The storage that follows from a description. -/
def storage (b : BootDevice) : Ignition.Storage where
  disks := b.mirror.devices.zipIdx.map fun (device, i) =>
    disk (b.layout.getD "x86_64") device (i + 1)
  raid := (arrayRoles b.wantsMirror b.mirrorsEsp).map fun (role, options) =>
    array role b.mirror.devices.length options
  luks := if b.wantsLuks then [volume b.luks b.encryptedDevice] else []
  filesystems := (formatted b.wantsMirror b.wantsLuks b.mirrorsEsp).map
    fun (device, format, label) => filesystem device format label

/-- The config that follows from a description, with a version. -/
def config (b : BootDevice) (version : String) : Ignition.Config :=
  { ignition := { version }, storage := storage b }

end Made

/-- A record of which no field must be given is read from entries with different names. -/
theorem read_record {σ : Type} {name : String} {empty r : σ} {fields : List (RecordField σ)}
    (hn : (fields.map (·.name)).Nodup) (hrequired : ∀ f ∈ fields, f.required = false)
    {entries : List (String × Json)} (hd : (entries.map Prod.fst).Nodup)
    (h : ReadsInto fields entries empty r) :
    (Codec.record name empty fields).ofJson (.obj entries) = .ok r :=
  record_ofJson hn hd h fun f hf hf' => absurd (hrequired f hf) (hf' ▸ Bool.noConfusion)

/-- The names of what has a shape differ. -/
theorem nodup_names {s : Shape} {entries : List (String × Json)} (h : s.Takes (.obj entries)) :
    (entries.map Prod.fst).Nodup := (Json.isDistinct_obj.mp h.2).1

theorem read_partition (role : String) (n : Nat) {size : Option Int} (h : HoldsAll size.toList)
    (guid : Option String) : Ignition.Partition.codec.ofJson (partition role n size guid) =
      .ok (Made.partition role n size guid) := by
  refine read_record (by decide) (by decide) (nodup_names (takes_partition role n size guid))
    (.next 0 rfl rfl rfl ?_)
  rw [← List.append_nil (Option.toList _ ++ _), List.append_assoc]
  exact .given 2 rfl (given_int h) rfl (.given 4 rfl given_text rfl .nil)

/-- The sizes of all partitions fit into a word. -/
theorem holdsAll_parts {layout role : String} {size : Option Int} {guid : Option String}
    (h : (role, size, guid) ∈ parts layout) : HoldsAll size.toList := by
  have hall : ∀ p ∈ parts layout, HoldsAll p.2.1.toList := by
    rw [parts]
    split
    · decide
    · split <;> decide
  exact hall _ h

theorem read_disk (layout device : String) (n : Nat) :
    Ignition.Disk.codec.ofJson (mirrorDisk layout device n) = .ok (Made.disk layout device n) := by
  have ht := takes_disk layout device n
  have hparts : (list Ignition.Partition.codec).ofJson (.arr ((parts layout).map
      fun (role, size, guid) => partition role n size guid)) =
        .ok (Made.disk layout device n).partitions := by
    exact list_ofJson fun p hp => read_partition p.1 n (holdsAll_parts hp) p.2.2
  rw [mirrorDisk_eq] at ht ⊢
  exact read_record (by decide) (by decide) (nodup_names ht) (.next 0 rfl rfl rfl
    (.next 2 rfl rfl (congrArg (Except.map _) hparts) (.next 1 rfl rfl rfl .nil)))

theorem read_array (role : String) (count : Nat) (options : List String) :
    Ignition.Raid.codec.ofJson (mirrorArray role count options) =
      .ok (Made.array role count options) := by
  have hdevices : (list text).ofJson (.arr ((List.range' 1 count).map fun n =>
      .str ("/dev/disk/by-partlabel/" ++ role ++ "-" ++ toString n))) =
        .ok (Made.array role count options).devices :=
    list_ofJson fun _ _ => rfl
  refine read_record (by decide) (by decide) (nodup_names (takes_array role count options))
    (.next 0 rfl rfl rfl (.next 1 rfl rfl rfl
      (.next 2 rfl rfl (congrArg (Except.map _) hdevices) ?_)))
  rw [← List.append_nil (ite _ _ _)]
  exact .listed 4 rfl List.isEmpty_map (restores_list fun s _ => restores_text s) rfl .nil

theorem read_filesystem (device format label : String) :
    Ignition.Filesystem.codec.ofJson (filesystem device format label) =
      .ok (Made.filesystem device format label) :=
  read_record (by decide) (by decide) (nodup_names (takes_filesystem device format label))
    (.next 0 rfl rfl rfl (.next 1 rfl rfl rfl (.next 4 rfl rfl rfl (.next 3 rfl rfl rfl .nil))))

theorem read_tang (t : Source.Tang) :
    Ignition.Tang.codec.ofJson (tangServer t) = .ok (Made.tang t) := by
  refine read_record (by decide) (by decide) (nodup_names (takes_tang t)) (.next 0 rfl rfl rfl ?_)
  rw [← List.append_nil (Option.toList _ ++ _), List.append_assoc]
  exact .given 1 rfl given_text rfl (.given 2 rfl given_text rfl .nil)

theorem read_clevis {e : Encryption} (h : HoldsAll e.threshold.toList) :
    Ignition.Clevis.codec.ofJson (unlocking e) = .ok (Made.clevis e) := by
  have htang : (list Ignition.Tang.codec).ofJson (.arr (e.tang.map tangServer)) =
      .ok (e.tang.map Made.tang) := list_ofJson fun t _ => read_tang t
  refine read_record (by decide) (by decide) (nodup_names (takes_unlocking e)) ?_
  rw [← List.append_nil (_ ++ Option.toList _), List.append_assoc, List.append_assoc]
  exact .listed 1 rfl List.isEmpty_map htang rfl (.given 2 rfl (given_int h) rfl
    (.given 3 rfl given_bool rfl .nil))

theorem read_volume {e : Encryption} (h : HoldsAll e.threshold.toList) (device : String) :
    Ignition.Luks.codec.ofJson (volume e device) = .ok (Made.volume e device) := by
  refine read_record (by decide) (by decide) (nodup_names (takes_volume e device)) ?_
  rw [← List.append_nil (Option.toList _)]
  exact .next 0 rfl rfl rfl (.next 3 rfl rfl rfl (.next 1 rfl rfl rfl
    (.next 7 rfl rfl (congrArg (Except.map _) (read_clevis h)) (.next 6 rfl rfl rfl
      (.given 8 rfl given_bool rfl .nil)))))

/-! ## The plan -/

/-- What is stored is read as the storage that follows. -/
theorem read_storage {b : BootDevice} (h : HoldsAll b.luks.threshold.toList) :
    Ignition.Storage.codec.ofJson (.obj (listing "disks" b.disks ++ listing "raid" b.arrays ++
      listing "luks" b.volumes ++ listing "filesystems" b.filesystems)) =
        .ok (Made.storage b) := by
  have hdisks : (list Ignition.Disk.codec).ofJson (.arr b.disks) = .ok (Made.storage b).disks :=
    list_ofJson fun _ _ => read_disk _ _ _
  have harrays : (list Ignition.Raid.codec).ofJson (.arr b.arrays) = .ok (Made.storage b).raid :=
    list_ofJson fun _ _ => read_array _ _ _
  have hvolumes : (list Ignition.Luks.codec).ofJson (.arr b.volumes) =
      .ok (Made.storage b).luks := by
    rw [volumes, Made.storage]
    split
    · exact @list_ofJson _ _ _ [b.encryptedDevice] _ _ fun device _ => read_volume h device
    · rfl
  have hfilesystems : (list Ignition.Filesystem.codec).ofJson (.arr b.filesystems) =
      .ok (Made.storage b).filesystems := list_ofJson fun _ _ => read_filesystem _ _ _
  refine read_record (by decide) (by decide) ?_ ?_
  · refine @List.Nodup.sublist _ _ ["disks", "raid", "luks", "filesystems"] ?_ (by decide)
    simp only [List.map_append]
    exact (((names_listing _ _).append (names_listing _ _)).append (names_listing _ _)).append
      (names_listing _ _)
  · rw [← List.append_nil (_ ++ listing "filesystems" _), List.append_assoc, List.append_assoc,
      List.append_assoc]
    exact .listed 0 rfl rfl hdisks rfl (.listed 1 rfl rfl harrays rfl
      (.listed 3 rfl rfl hvolumes rfl (.listed 2 rfl rfl hfilesystems rfl .nil)))

/-- **A plan is read as the config that follows**, whatever version it is stamped with. -/
theorem stamp_plan {b : BootDevice} (h : HoldsAll b.luks.threshold.toList) (start : Trail)
    (spec : Spec) :
    (stamp spec (b.plan start)).value = some (Made.config b spec.target.text) := by
  have hread : Ignition.Config.codec.ofJson
      (withVersion spec.target.text (b.plan start).value) =
        .ok (Made.config b spec.target.text) := by
    have hstorage := read_storage h
    rw [value_plan, document]
    split
    · next hempty =>
      rw [List.isEmpty_iff.mp hempty] at hstorage
      have hnone : Made.storage b = {} := (Except.ok.inj hstorage).symm
      rw [Made.config, hnone]
      rfl
    · exact read_record (by decide) (by decide) (by decide : ["storage", "ignition"].Nodup)
        (.next 3 rfl rfl (congrArg (Except.map _) hstorage) (.next 0 rfl rfl rfl .nil))
  rw [stamp]
  simp only [hread]

end Provision.BootDevice
