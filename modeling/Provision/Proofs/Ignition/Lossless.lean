import Provision.Proofs.Decode.Restores
import Provision.Proofs.Ignition.Readable

/-!
# The JSON of configs is lossless

Fields that are unset, empty or zero are not written, and what is not written is read as unset,
empty or zero: so a config is read again as it was, whatever is in it, if its numbers fit into a
word. A config in its wrapper is, too, if its labels are in their order.

* `Config.numbers`: the numbers in a config.
* `Config.restores`, `MachineConfig.restores`: what is written of a config is read as the config.
* `schema_lossless`: configs are read again from their JSON, as a value and as a text.
-/

set_option autoImplicit false

namespace Provision

/-- Numbers that a word with a sign holds. -/
def Word.HoldsAll (numbers : List Int) : Prop := ∀ n ∈ numbers, holdsSigned n = true

namespace Word.HoldsAll

instance (numbers : List Int) : Decidable (HoldsAll numbers) :=
  inferInstanceAs (Decidable (∀ n ∈ numbers, holdsSigned n = true))

variable {α : Type} {numbers numbers' : List Int}

theorem left (h : HoldsAll (numbers ++ numbers')) : HoldsAll numbers :=
  (List.forall_mem_append.mp h).1

theorem right (h : HoldsAll (numbers ++ numbers')) : HoldsAll numbers' :=
  (List.forall_mem_append.mp h).2

theorem item {f : α → List Int} {items : List α} (h : HoldsAll (items.flatMap f)) {a : α}
    (ha : a ∈ items) : HoldsAll (f a) :=
  fun n hn => h n (List.mem_flatMap_of_mem ha hn)

end Word.HoldsAll

namespace Ignition

open Decode Decode.Codec Decode.RecordField
open Word (HoldsAll)

/-! ## Numbers -/

/-- The numbers in timeouts. -/
def Timeouts.numbers (t : Timeouts) : List Int := t.httpResponseHeaders.toList ++ t.httpTotal.toList

/-- The numbers in users and groups. -/
def Passwd.numbers (p : Passwd) : List Int :=
  p.users.flatMap (·.uid.toList) ++ p.groups.flatMap (·.gid.toList)

/-- The numbers in a partition. -/
def Partition.numbers (p : Partition) : List Int :=
  [p.number] ++ p.sizeMib.toList ++ p.startMib.toList

/-- The numbers in a disk. -/
def Disk.numbers (d : Disk) : List Int := d.partitions.flatMap Partition.numbers

/-- The numbers of an owner and a group. -/
def ownerNumbers (user : NodeUser) (group : NodeGroup) : List Int :=
  user.id.toList ++ group.id.toList

/-- The numbers in a file. -/
def File.numbers (f : File) : List Int := ownerNumbers f.user f.group ++ f.mode.toList

/-- The numbers in a directory. -/
def Directory.numbers (d : Directory) : List Int := ownerNumbers d.user d.group ++ d.mode.toList

/-- The numbers in a link. -/
def Link.numbers (l : Link) : List Int := ownerNumbers l.user l.group

/-- The numbers in what is on disks. -/
def Storage.numbers (s : Storage) : List Int :=
  s.disks.flatMap Disk.numbers ++ s.raid.flatMap (·.spares.toList) ++
    s.luks.flatMap (·.clevis.threshold.toList) ++ s.files.flatMap File.numbers ++
    s.directories.flatMap Directory.numbers ++ s.links.flatMap Link.numbers

/-- The numbers in a config. -/
def Config.numbers (c : Config) : List Int :=
  c.ignition.timeouts.numbers ++ c.passwd.numbers ++ c.storage.numbers

/-! ## Fields -/

section Fields

variable {n : Option Int}

theorem given_text {o : Option String} : ∀ a ∈ o, text.Restores a ∧ text.write a ≠ .null :=
  fun a _ => ⟨restores_text a, nofun⟩

theorem given_bool {o : Option Bool} : ∀ a ∈ o, bool.Restores a ∧ bool.write a ≠ .null :=
  fun a _ => ⟨restores_bool a, nofun⟩

theorem given_int (h : HoldsAll n.toList) : ∀ a ∈ n, int.Restores a ∧ int.write a ≠ .null :=
  fun a ha => ⟨restores_int (h a (Option.mem_toList.mpr ha)), nofun⟩

theorem restores_textList (texts : List String) : (list text).Restores texts :=
  restores_list fun s _ => restores_text s

end Fields

/-! ## Resources -/

theorem Header.restores (h : Header) : Header.codec.Restores h :=
  restores_record (by decide) (.sparse (restores_text _) rfl (.optional given_text rfl .nil))

theorem Verification.restores (v : Verification) : Verification.codec.Restores v :=
  restores_record (by decide) (.optional given_text rfl .nil)

theorem Resource.restores (r : Resource) : Resource.codec.Restores r :=
  restores_record (by decide)
    (.optional given_text rfl (.sparse (restores_list fun h _ => h.restores) rfl
      (.optional given_text rfl (.sparse r.verification.restores rfl .nil))))

theorem restores_resources (resources : List Resource) :
    (list Resource.codec).Restores resources :=
  restores_list fun r _ => r.restores

/-! ## Settings -/

theorem References.restores (r : References) : References.codec.Restores r :=
  restores_record (by decide)
    (.sparse (restores_resources _) rfl (.sparse r.replace.restores rfl .nil))

theorem Proxy.restores (p : Proxy) : Proxy.codec.Restores p :=
  restores_record (by decide)
    (.optional given_text rfl (.optional given_text rfl (.sparse (restores_textList _) rfl .nil)))

theorem Tls.restores (t : Tls) : Tls.codec.Restores t :=
  restores_record (by decide) (.sparse (restores_resources _) rfl .nil)

theorem Security.restores (s : Security) : Security.codec.Restores s :=
  restores_record (by decide) (.sparse s.tls.restores rfl .nil)

theorem Timeouts.restores {t : Timeouts} (h : HoldsAll t.numbers) : Timeouts.codec.Restores t :=
  restores_record (by decide)
    (.optional (given_int h.left) rfl (.optional (given_int h.right) rfl .nil))

theorem Settings.restores {s : Settings} (h : HoldsAll s.timeouts.numbers) :
    Settings.codec.Restores s :=
  restores_record (by decide)
    (.plain (restores_text _) (.sparse s.config.restores rfl (.sparse s.proxy.restores rfl
      (.sparse s.security.restores rfl (.sparse (Timeouts.restores h) rfl .nil)))))

theorem KernelArguments.restores (k : KernelArguments) : KernelArguments.codec.Restores k :=
  restores_record (by decide)
    (.sparse (restores_textList _) rfl (.sparse (restores_textList _) rfl .nil))

/-! ## Users and groups -/

theorem User.restores {u : User} (h : HoldsAll u.uid.toList) : User.codec.Restores u :=
  restores_record (by decide)
    (.sparse (restores_text _) rfl (.optional given_text rfl (.sparse (restores_textList _) rfl
      (.optional (given_int h) rfl (.optional given_text rfl (.optional given_text rfl
        (.optional given_bool rfl (.optional given_text rfl (.sparse (restores_textList _) rfl
          (.optional given_bool rfl (.optional given_bool rfl (.optional given_text rfl
            (.optional given_bool rfl (.optional given_bool rfl .nil))))))))))))))

theorem Group.restores {g : Group} (h : HoldsAll g.gid.toList) : Group.codec.Restores g :=
  restores_record (by decide)
    (.sparse (restores_text _) rfl (.optional (given_int h) rfl (.optional given_text rfl
      (.optional given_bool rfl (.optional given_bool rfl .nil)))))

theorem Passwd.restores {p : Passwd} (h : HoldsAll p.numbers) : Passwd.codec.Restores p :=
  restores_record (by decide)
    (.sparse (restores_list fun _ hu => User.restores (h.left.item hu)) rfl
      (.sparse (restores_list fun _ hg => Group.restores (h.right.item hg)) rfl .nil))

/-! ## Storage -/

theorem Partition.restores {p : Partition} (h : HoldsAll p.numbers) : Partition.codec.Restores p :=
  restores_record (by decide)
    (.optional given_text rfl (.sparse (restores_int (h.left.left _ List.mem_cons_self)) rfl
      (.optional (given_int h.left.right) rfl (.optional (given_int h.right) rfl
        (.optional given_text rfl (.optional given_text rfl (.optional given_bool rfl
          (.optional given_bool rfl (.optional given_bool rfl .nil)))))))))

theorem Disk.restores {d : Disk} (h : HoldsAll d.numbers) : Disk.codec.Restores d :=
  restores_record (by decide)
    (.sparse (restores_text _) rfl (.optional given_bool rfl
      (.sparse (restores_list fun _ hp => Partition.restores (h.item hp)) rfl .nil)))

theorem Raid.restores {r : Raid} (h : HoldsAll r.spares.toList) : Raid.codec.Restores r :=
  restores_record (by decide)
    (.sparse (restores_text _) rfl (.optional given_text rfl (.sparse (restores_textList _) rfl
      (.optional (given_int h) rfl (.sparse (restores_textList _) rfl .nil)))))

theorem Filesystem.restores (f : Filesystem) : Filesystem.codec.Restores f :=
  restores_record (by decide)
    (.sparse (restores_text _) rfl (.optional given_text rfl (.optional given_text rfl
      (.optional given_bool rfl (.optional given_text rfl (.optional given_text rfl
        (.sparse (restores_textList _) rfl (.sparse (restores_textList _) rfl .nil))))))))

theorem ClevisCustom.restores (c : ClevisCustom) : ClevisCustom.codec.Restores c :=
  restores_record (by decide)
    (.optional given_text rfl (.optional given_bool rfl (.optional given_text rfl .nil)))

theorem Tang.restores (t : Tang) : Tang.codec.Restores t :=
  restores_record (by decide)
    (.sparse (restores_text _) rfl (.optional given_text rfl (.optional given_text rfl .nil)))

theorem Clevis.restores {c : Clevis} (h : HoldsAll c.threshold.toList) : Clevis.codec.Restores c :=
  restores_record (by decide)
    (.sparse c.custom.restores rfl (.sparse (restores_list fun t _ => t.restores) rfl
      (.optional (given_int h) rfl (.optional given_bool rfl .nil))))

theorem Luks.restores {l : Luks} (h : HoldsAll l.clevis.threshold.toList) : Luks.codec.Restores l :=
  restores_record (by decide)
    (.sparse (restores_text _) rfl (.optional given_text rfl (.sparse l.keyFile.restores rfl
      (.optional given_text rfl (.optional given_text rfl (.sparse (restores_textList _) rfl
        (.optional given_bool rfl (.sparse (Clevis.restores h) rfl (.optional given_bool rfl
          (.sparse (restores_textList _) rfl .nil))))))))))

theorem NodeUser.restores {u : NodeUser} (h : HoldsAll u.id.toList) : NodeUser.codec.Restores u :=
  restores_record (by decide) (.optional (given_int h) rfl (.optional given_text rfl .nil))

theorem NodeGroup.restores {g : NodeGroup} (h : HoldsAll g.id.toList) :
    NodeGroup.codec.Restores g :=
  restores_record (by decide) (.optional (given_int h) rfl (.optional given_text rfl .nil))

theorem File.restores {f : File} (h : HoldsAll f.numbers) : File.codec.Restores f :=
  restores_record (by decide)
    (.sparse (restores_text _) rfl (.optional given_bool rfl
      (.sparse (NodeUser.restores h.left.left) rfl (.sparse (NodeGroup.restores h.left.right) rfl
        (.sparse f.contents.restores rfl (.sparse (restores_resources _) rfl
          (.optional (given_int h.right) rfl .nil)))))))

theorem Directory.restores {d : Directory} (h : HoldsAll d.numbers) : Directory.codec.Restores d :=
  restores_record (by decide)
    (.sparse (restores_text _) rfl (.optional given_bool rfl
      (.sparse (NodeUser.restores h.left.left) rfl (.sparse (NodeGroup.restores h.left.right) rfl
        (.optional (given_int h.right) rfl .nil)))))

theorem Link.restores {l : Link} (h : HoldsAll l.numbers) : Link.codec.Restores l :=
  restores_record (by decide)
    (.sparse (restores_text _) rfl (.optional given_bool rfl
      (.sparse (NodeUser.restores h.left) rfl (.sparse (NodeGroup.restores h.right) rfl
        (.optional given_text rfl (.optional given_bool rfl .nil))))))

theorem Storage.restores {s : Storage} (h : HoldsAll s.numbers) : Storage.codec.Restores s :=
  have hfiles := h.left.left
  have hluks := hfiles.left.left
  restores_record (by decide)
    (.sparse (restores_list fun _ hd => Disk.restores (hluks.left.item hd)) rfl
      (.sparse (restores_list fun _ hr => Raid.restores (hluks.right.item hr)) rfl
        (.sparse (restores_list fun f _ => f.restores) rfl
          (.sparse (restores_list fun _ hl => Luks.restores (hfiles.left.right.item hl)) rfl
            (.sparse (restores_list fun _ hf => File.restores (hfiles.right.item hf)) rfl
              (.sparse (restores_list fun _ hd => Directory.restores (h.left.right.item hd)) rfl
                (.sparse (restores_list fun _ hl => Link.restores (h.right.item hl)) rfl
                  .nil)))))))

/-! ## Services -/

theorem Dropin.restores (d : Dropin) : Dropin.codec.Restores d :=
  restores_record (by decide) (.sparse (restores_text _) rfl (.optional given_text rfl .nil))

theorem Unit.restores (u : Unit) : Unit.codec.Restores u :=
  restores_record (by decide)
    (.sparse (restores_text _) rfl (.optional given_bool rfl (.optional given_bool rfl
      (.optional given_text rfl (.sparse (restores_list fun d _ => d.restores) rfl .nil)))))

theorem Systemd.restores (s : Systemd) : Systemd.codec.Restores s :=
  restores_record (by decide) (.sparse (restores_list fun u _ => u.restores) rfl .nil)

/-! ## Configs -/

/-- **What is written of a config is read as the config** if its numbers fit into a word. -/
theorem Config.restores {c : Config} (h : HoldsAll c.numbers) : Config.codec.Restores c :=
  restores_record (by decide)
    (.plain (Settings.restores h.left.left) (.sparse c.kernelArguments.restores rfl
      (.sparse (Passwd.restores h.left.right) rfl (.sparse (Storage.restores h.right) rfl
        (.sparse c.systemd.restores rfl .nil)))))

/-- What is written of a config is not too deep to be read. -/
theorem Config.readable_write {c : Config} (h : HoldsAll c.numbers) :
    Json.Readable 8 (Config.codec.write c) :=
  Config.reads _ _ (Config.restores h)

end Ignition

/-! ## The wrapper -/

namespace MachineConfig

open Decode Decode.Codec Decode.RecordField
open Ignition (given_text given_bool restores_textList)

theorem Metadata.restores {m : Metadata} (h : Ordered m.labels) : Metadata.codec.Restores m :=
  restores_record (by decide)
    (.sparse (restores_text _) rfl (.sparse (restores_texts h) rfl .nil))

theorem Spec.restores {s : Spec} (h : Word.HoldsAll s.config.numbers) : Spec.codec.Restores s :=
  restores_record (by decide)
    (.plain (Ignition.Config.restores h) (.sparse (restores_textList _) rfl
      (.sparse (restores_textList _) rfl (.optional given_bool rfl
        (.optional given_text rfl .nil)))))

/-- **What is written of a wrapped config is read as it** if the numbers in it fit into a word and
its labels are in their order. -/
theorem restores {m : MachineConfig} (hlabels : Ordered m.metadata.labels)
    (h : Word.HoldsAll m.spec.config.numbers) : codec.Restores m :=
  restores_record (by decide)
    (.needed (restores_text _) (.needed (restores_text _)
      (.sparse (Metadata.restores hlabels) rfl (.plain (Spec.restores h) .nil))))

theorem readable_write {m : MachineConfig} (hlabels : Ordered m.metadata.labels)
    (h : Word.HoldsAll m.spec.config.numbers) : Json.Readable 10 (codec.write m) :=
  readable hlabels.nodup (Ignition.Config.readable_write h)

end MachineConfig

/-! ## Both -/

/-- A form loses nothing of a value: what it writes is printed to texts that are read as what was
written, and this is read as the value. -/
structure Decode.Codec.Lossless {α : Type} (c : Decode.Codec α) (a : α) : Prop where
  compact : Json.parse (c.write a).compact = .ok (c.write a)
  pretty : Json.parse ((c.write a).pretty 0 ++ "\n") = .ok (c.write a)
  restores : c.Restores a

namespace Decode.Codec.Lossless

variable {α : Type} {c : Decode.Codec α} {a : α}

theorem of_readable {depth : Nat} (hrestores : c.Restores a)
    (h : Json.Readable depth (c.write a)) (hdepth : depth ≤ 127) : c.Lossless a where
  compact := Json.parse_compact (h.mono hdepth)
  pretty := Json.parse_pretty (h.mono hdepth)
  restores := hrestores

/-- What was written is written again of what is read of it. -/
theorem write_again {x : Json} (h : c.Lossless a) (hx : c.write a = x) :
    ∃ b, c.ofJson x = .ok b ∧ c.write b = x :=
  ⟨a, hx ▸ h.restores, hx⟩

end Decode.Codec.Lossless

open Word (HoldsAll)

/-- **Nothing is lost in the JSON of configs**, bare or in the wrapper, if their numbers fit into a
word: a config is read again as it was, from the value that is written and from both of its texts,
and a value that was written of some config is written again, with its keys in the same order, of
what is read of it. -/
theorem schema_lossless :
    (∀ c : Ignition.Config, HoldsAll c.numbers → Ignition.Config.codec.Lossless c) ∧
      (∀ m : MachineConfig, Decode.Codec.Ordered m.metadata.labels →
        HoldsAll m.spec.config.numbers → MachineConfig.codec.Lossless m) ∧
      (∀ x, (∃ c : Ignition.Config, HoldsAll c.numbers ∧ Ignition.Config.codec.write c = x) →
        ∃ c, Ignition.Config.codec.ofJson x = .ok c ∧ Ignition.Config.codec.write c = x) ∧
      ∀ x, (∃ m : MachineConfig, Decode.Codec.Ordered m.metadata.labels ∧
          HoldsAll m.spec.config.numbers ∧ MachineConfig.codec.write m = x) →
        ∃ m, MachineConfig.codec.ofJson x = .ok m ∧ MachineConfig.codec.write m = x := by
  have hbare : ∀ c : Ignition.Config, HoldsAll c.numbers → Ignition.Config.codec.Lossless c :=
    fun c h => .of_readable (Ignition.Config.restores h) (Ignition.Config.readable_write h)
      (by decide)
  have hwrapped : ∀ m : MachineConfig, Decode.Codec.Ordered m.metadata.labels →
      HoldsAll m.spec.config.numbers → MachineConfig.codec.Lossless m :=
    fun m hlabels h => .of_readable (MachineConfig.restores hlabels h)
      (MachineConfig.readable_write hlabels h) (by decide)
  refine ⟨hbare, hwrapped, ?_, ?_⟩
  · rintro x ⟨c, h, hx⟩
    exact (hbare c h).write_again hx
  · rintro x ⟨m, hlabels, h, hx⟩
    exact (hwrapped m hlabels h).write_again hx

/-- A wrapped config of values that are empty, zero or false, and of entries with nothing in
them. -/
def MachineConfig.hollow : MachineConfig where
  metadata := { labels := [("", ""), ("a", "")] }
  spec.config.ignition.timeouts.httpTotal := some (-9223372036854775808)
  spec.config.passwd.users := [{}, { uid := some 0, gecos := some "", system := some false }]
  spec.config.storage.disks := [{ partitions := [{ label := some "", sizeMib := some 0 }] }]
  spec.config.storage.files := [{ append := [{}], mode := some 0 }]
  spec.kernelArguments := [""]
  spec.fips := some false
  spec.kernelType := some ""

theorem hollow_lossless :
    Ignition.Config.codec.Lossless MachineConfig.hollow.spec.config ∧
      MachineConfig.codec.Lossless MachineConfig.hollow ∧
      (∃ c, Ignition.Config.codec.ofJson (Ignition.Config.codec.write
          MachineConfig.hollow.spec.config) = .ok c ∧
        Ignition.Config.codec.write c =
          Ignition.Config.codec.write MachineConfig.hollow.spec.config) ∧
      ∃ m, MachineConfig.codec.ofJson (MachineConfig.codec.write MachineConfig.hollow) = .ok m ∧
        MachineConfig.codec.write m = MachineConfig.codec.write MachineConfig.hollow := by
  have hnumbers : HoldsAll MachineConfig.hollow.spec.config.numbers := by decide
  have hlabels : Decode.Codec.Ordered MachineConfig.hollow.metadata.labels := by
    unfold Decode.Codec.Ordered
    decide
  obtain ⟨hbare, hwrapped, hagain, hwrappedAgain⟩ := schema_lossless
  exact ⟨hbare _ hnumbers, hwrapped _ hlabels hnumbers, hagain _ ⟨_, hnumbers, rfl⟩,
    hwrappedAgain _ ⟨_, hlabels, hnumbers, rfl⟩⟩

end Provision
