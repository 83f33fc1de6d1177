import Provision.Proofs.Contents.Texts
import Provision.Proofs.Source.Sound
import Provision.Proofs.Translator.Steps

/-!
# What is made of the files of a config

Each file of the shared sections becomes a file of the document, at the same position. It has the
path of the file, and what is made of its contents.

* `getElem?_walked`: the files of the document before trees and units.
* `get?_path`, `get?_contents`: the path and the contents of such a file.
* `says_file`: the texts of the contents, if nothing is wrong with them.
-/

set_option autoImplicit false

namespace Provision.Source

open Translator (content)

variable {w : Workspace} {c : Config} {i : Nat} {u : File}

/-- The place of a file, before and after. -/
def fileTrail (i : Nat) : Trail := [.key "storage", .key "files", .index i]

/-- The place of the contents of a file. -/
def contentsTrail (i : Nat) : Trail := (fileTrail i).key "contents"

/-! ## Places without rules -/

theorem rule?_eq_none {t : Trail} (h : t.outline ∉ resourcePlaces ++ unitPlaces ++ [userPlace]) :
    (translator w).rule? t = none := by
  cases hr : (translator w).rule? t with
  | none => rfl
  | some rule =>
    refine absurd ?_ h
    rcases rule?_cases hr with ⟨hp, -⟩ | ⟨hp, -⟩ | ⟨hp, -⟩
    · exact List.mem_append_left _ (List.mem_append_left _ hp)
    · exact List.mem_append_left _ (List.mem_append_right _ hp)
    · exact List.mem_append_right _ (List.mem_singleton.mpr hp)

theorem translateAt_of_rule {t place : Trail} {x : Json}
    (h : t.outline ∉ resourcePlaces ++ unitPlaces ++ [userPlace]) :
    (translator w).translateAt t place x = (translator w).walk t place x := by
  rw [Translator.translateAt_eq, rule?_eq_none h]
  rfl

/-- Contents that are embedded have the rule for contents. -/
theorem translateAt_resource {t : Trail} (h : t.outline ∈ resourcePlaces) (place : Trail)
    (x : Json) : (translator w).translateAt t place x = Contents.translate w x t place := by
  rw [Translator.translateAt_eq]
  cases hr : (translator w).rule? t with
  | none => exact absurd h (not_mem_resourcePlaces hr)
  | some rule =>
    rcases rule?_cases hr with ⟨-, rfl⟩ | ⟨hp, -⟩ | ⟨hp, -⟩
    · rfl
    · exact absurd hp ((by decide : ∀ o ∈ resourcePlaces, o ∉ unitPlaces) _ h)
    · exact absurd hp ((by decide : ∀ o ∈ resourcePlaces, o ≠ userPlace) _ h)

theorem translateAt_contents (place : Trail) (x : Json) :
    (translator w).translateAt (contentsTrail i) place x =
      Contents.translate w x (contentsTrail i) place :=
  translateAt_resource (t := contentsTrail i)
    (by decide : [some "storage", some "files", none, some "contents"] ∈ resourcePlaces) place x

/-! ## Files -/

theorem isSkipped_eq_false {t : Trail} (h : t.outline ∉ skippedPlaces) :
    (translator w).isSkipped t = false := by
  rw [← Bool.not_eq_true, isSkipped_iff]
  exact h

/-- Keys of the shared sections that have one name are the same. -/
theorem eq_of_nameOf {keys : List String} (h : ∀ l ∈ keys, (names.lookup l).isSome = true)
    {k : String} (hk : k ∈ keys) :
    ∀ l ∈ keys, (translator w).nameOf l = (translator w).nameOf k → l = k := by
  intro l hl heq
  obtain ⟨n, hn⟩ := Option.isSome_iff_exists.mp (h l hl)
  obtain ⟨m, hm⟩ := Option.isSome_iff_exists.mp (h k hk)
  rw [nameOf_of_lookup w hn, nameOf_of_lookup w hm] at heq
  exact eq_of_name hn (heq ▸ hm)

/-- What leads from a record of the shared sections to a member of it, which is not left out. -/
structure Leads (x : Json) (t : Trail) (k n : String) (y : Json) : Prop where
  eq_obj : ∃ members, x = .obj members ∧ Json.lookup k members = some y ∧
    (members.map Prod.fst).Nodup ∧ ∀ l ∈ members.map Prod.fst, (names.lookup l).isSome = true
  name : names.lookup k = some n
  kept : (t.key k).outline ∉ skippedPlaces

section Step

variable {t place : Trail} {k n : String} {x y : Json}

/-- **A member of the shared sections is made of the member of its name**, and so is its report. -/
theorem Leads.made (h : Leads x t k n y) :
    ((translator w).walk t place x).value.bind (·.get? n) =
        content ((translator w).translateAt (t.key k) (place.key n) y) ∧
      (((translator w).walk t place x).report.isFatal = false →
        ((translator w).translateAt (t.key k) (place.key n) y).report.isFatal = false) := by
  obtain ⟨members, rfl, hk, hn, hnamed⟩ := h.eq_obj
  have hskip := isSkipped_eq_false (w := w) h.kept
  have hwalk := @Translator.get?_walk (translator w) t place members k y hn hk hskip
    (eq_of_nameOf hnamed (List.mem_map_of_mem (Json.mem_of_lookup hk)))
  have hreport := @Translator.isFatal_member (translator w) t place members k y
  rw [nameOf_of_lookup w h.name] at hwalk hreport
  exact ⟨hwalk, fun hf => hreport hf hk hskip⟩

/-- A member without a rule is walked. -/
theorem Leads.walked (h : Leads x t k n y)
    (hr : (t.key k).outline ∉ resourcePlaces ++ unitPlaces ++ [userPlace]) :
    ((translator w).walk t place x).value.bind (·.get? n) =
        ((translator w).walk (t.key k) (place.key n) y).value ∧
      (((translator w).walk t place x).report.isFatal = false →
        ((translator w).walk (t.key k) (place.key n) y).report.isFatal = false) := by
  have hmade := @Leads.made w t place k n x y h
  rwa [translateAt_of_rule hr, Translator.content_walk] at hmade

end Step

/-! ## Lists of the sections -/

theorem get?_getD (m : Option Json) (k : String) :
    (m.getD (.obj [])).get? k = m.bind (·.get? k) := by
  cases m <;> rfl

/-- The sections are walked from the root. -/
theorem walked_eq_walk (w : Workspace) (c : Config) : walked w c =
    ((translator w).walk [] [] (Config.codec.write c)).map (·.getD (.obj [])) :=
  congrArg (·.map (·.getD (.obj []))) (translateAt_of_rule (by decide))

/-- **A list in a section is walked**, whatever is made of all else. -/
theorem walked_list {w : Workspace} {c : Config} {k l : String} {x y : Json}
    (hx : Leads (Config.codec.write c) [] k k x) (hy : Leads x [.key k] l l y)
    (hk : [some k] ∉ resourcePlaces ++ unitPlaces ++ [userPlace])
    (hl : [some k, some l] ∉ resourcePlaces ++ unitPlaces ++ [userPlace]) :
    ((walked w c).value.get? k).bind (·.get? l) =
        ((translator w).walk [.key k, .key l] [.key k, .key l] y).value ∧
      ((walked w c).report.isFatal = false →
        ((translator w).walk [.key k, .key l] [.key k, .key l] y).report.isFatal = false) := by
  have hsection : ((translator w).walk [] [] (Config.codec.write c)).value.bind (·.get? k) =
        ((translator w).walk [.key k] [.key k] x).value ∧
      (((translator w).walk [] [] (Config.codec.write c)).report.isFatal = false →
        ((translator w).walk [.key k] [.key k] x).report.isFatal = false) := hx.walked hk
  have hlist : ((translator w).walk [.key k] [.key k] x).value.bind (·.get? l) =
        ((translator w).walk [.key k, .key l] [.key k, .key l] y).value ∧
      (((translator w).walk [.key k] [.key k] x).report.isFatal = false →
        ((translator w).walk [.key k, .key l] [.key k, .key l] y).report.isFatal = false) :=
    hy.walked hl
  rw [walked_eq_walk, Translated.value_map, Translated.report_map, get?_getD, hsection.1, hlist.1]
  exact ⟨rfl, fun h => hlist.2 (hsection.2 h)⟩

/-! ## Files -/

theorem leads_storage (c : Config) :
    Leads (Config.codec.write c) [] "storage" "storage" (Storage.codec.write c.storage) where
  eq_obj := ⟨_, rfl, rfl,
    (by decide : ["ignition", "kernel_arguments", "passwd", "storage", "systemd"].Nodup),
    (by decide : ∀ l ∈ ["ignition", "kernel_arguments", "passwd", "storage", "systemd"],
      (names.lookup l).isSome = true)⟩
  name := rfl
  kept := by decide

theorem leads_files (s : Storage) : Leads (Storage.codec.write s) [.key "storage"] "files" "files"
    ((Decode.Codec.list File.codec).write s.files) where
  eq_obj := ⟨_, rfl, rfl,
    (by decide : ["disks", "raid", "filesystems", "luks", "files", "directories", "links",
      "trees"].Nodup),
    (by decide : ∀ l ∈ ["disks", "raid", "filesystems", "luks", "files", "directories", "links",
      "trees"], (names.lookup l).isSome = true)⟩
  name := rfl
  kept := by decide

theorem leads_file {k : String} {y : Json} (i : Nat) (u : File)
    (hk : (File.codec.write u).get? k = some y) (hname : names.lookup k = some k) :
    Leads (File.codec.write u) (fileTrail i) k k y where
  eq_obj := ⟨_, rfl, hk,
    (by decide : ["path", "overwrite", "user", "group", "contents", "append", "mode"].Nodup),
    (by decide : ∀ l ∈ ["path", "overwrite", "user", "group", "contents", "append", "mode"],
      (names.lookup l).isSome = true)⟩
  name := hname
  kept := by
    have hlength : ∀ o ∈ skippedPlaces, o.take 3 ≠ [some "storage", some "files", none] := by decide
    intro hm
    exact hlength _ hm rfl

/-- What a file becomes. -/
def madeFile (w : Workspace) (i : Nat) (u : File) : Json :=
  ((translator w).walk (fileTrail i) (fileTrail i) (File.codec.write u)).value.getD (.obj [])

/-- The list of files is walked, whatever is made of all else. -/
theorem walked_files (w : Workspace) (c : Config) :
    let files := (translator w).walk [.key "storage", .key "files"] [.key "storage", .key "files"]
      (.arr (c.storage.files.map File.codec.write))
    ((walked w c).value.get? "storage").bind (·.get? "files") = files.value ∧
      ((walked w c).report.isFatal = false → files.report.isFatal = false) := by
  exact walked_list (leads_storage c) (leads_files c.storage) (by decide) (by decide)

theorem translateAt_file (i : Nat) (x : Json) :
    (translator w).translateAt (fileTrail i) (fileTrail i) x =
      (translator w).walk (fileTrail i) (fileTrail i) x :=
  translateAt_of_rule (by
    decide : [some "storage", some "files", none] ∉ resourcePlaces ++ unitPlaces ++ [userPlace])

/-- **The files of the document before trees and units** are what the files of the config become. -/
theorem getElem?_walked (w : Workspace) (c : Config) (i : Nat) :
    ((walked w c).nodes "files")[i]? = c.storage.files[i]?.map (madeFile w i) := by
  have hitem := @Translator.getElem?_walk (translator w) [.key "storage", .key "files"]
    [.key "storage", .key "files"] (c.storage.files.map File.codec.write) i
  rw [Draft.nodes, (walked_files w c).1, hitem, List.getElem?_map, Option.map_map]
  refine Option.map_congr fun u _ => ?_
  have hvacant : Translator.vacant (File.codec.write u) = .obj [] := rfl
  rw [Function.comp_apply, hvacant, madeFile, ← translateAt_file]
  rfl

/-- Nothing is wrong with a file if nothing is wrong with the document. -/
theorem isFatal_file (h : (walked w c).report.isFatal = false) (hu : c.storage.files[i]? = some u) :
    ((translator w).walk (fileTrail i) (fileTrail i) (File.codec.write u)).report.isFatal =
      false := by
  have hwritten : (c.storage.files.map File.codec.write)[i]? = some (File.codec.write u) := by
    rw [List.getElem?_map, hu]
    rfl
  have hitem := Translator.isFatal_item ((walked_files w c).2 h) hwritten
  rwa [← translateAt_file]

theorem leads_path (i : Nat) (u : File) :
    Leads (File.codec.write u) (fileTrail i) "path" "path" (.str u.path) :=
  leads_file i u rfl rfl

theorem leads_contents (i : Nat) (u : File) : Leads (File.codec.write u) (fileTrail i) "contents"
    "contents" (Resource.codec.write u.contents) :=
  leads_file i u rfl rfl

/-- A file has its path, unless that is empty. -/
theorem get?_path (w : Workspace) (i : Nat) (u : File) :
    (madeFile w i u).get? "path" = if u.path = "" then none else some (.str u.path) := by
  have hrule : ((fileTrail i).key "path").outline ∉
      resourcePlaces ++ unitPlaces ++ [userPlace] :=
    (by decide : [some "storage", some "files", none, some "path"] ∉
      resourcePlaces ++ unitPlaces ++ [userPlace])
  rw [madeFile, get?_getD, ((leads_path i u).walked hrule).1, Translator.value_walk_str]

/-- What is made of the contents of a file is in what is made of the file. -/
theorem get?_contents (w : Workspace) (i : Nat) (u : File) :
    (madeFile w i u).get? "contents" =
      content (Contents.ofResource w (contentsTrail i) (contentsTrail i) u.contents) := by
  rw [madeFile, get?_getD, (leads_contents i u).made.1]
  exact congrArg content ((translateAt_contents _ _).trans Contents.translate_write)

/-- **The contents of a file say what they may**, if nothing is wrong with the document. -/
theorem says_file (h : (walked w c).report.isFatal = false) (hu : c.storage.files[i]? = some u) :
    ∃ t, Contents.Says w (contentsTrail i) u.contents t ∧
      t.In ((madeFile w i u).get? "contents") := by
  have hmade := (leads_contents i u).made.2 (isFatal_file h hu)
  have htranslate := (@translateAt_contents w i (contentsTrail i) _).trans
    (@Contents.translate_write w (contentsTrail i) (contentsTrail i) u.contents)
  obtain ⟨t, hsays, hin⟩ := Contents.says_ofResource (htranslate ▸ hmade)
  refine ⟨t, hsays, ?_⟩
  rw [get?_contents]
  exact ⟨(Translator.get?_content _ _).trans hin.source,
    (Translator.get?_content _ _).trans hin.compression⟩

end Provision.Source
