import Provision.Proofs.Files.Follow
import Provision.Workspace

/-!
# Local files lie in the files directory

A local file is checked at the copy of its path that has no dots, and read at the path itself. What
is read lies in the files directory as long as the path leads nowhere else than its copy, whatever
links there are.

* `Workspace.local_contained`: what a local path leads to lies in the files directory.
* `Workspace.copyAgrees_of_neverReturns`: paths that do not go up once they went down by a name
  lead where their copies lead.
* `Workspace.local_escapes`: going up from a link leads out of the files directory.
-/

set_option autoImplicit false

namespace Provision.Workspace

open Provision.Files (FileSystem)

/-- Wherever a path leads, its copy without dots leads as well. -/
def CopyAgrees (fs : FileSystem) (path : String) : Prop :=
  ∀ r, fs.realSteps true path = .ok r →
    fs.realSteps true (Files.absolute (Files.normalize fs.current path)) = .ok r

theorem resolveLocal_eq_ok_iff {w : Workspace} {directory path p : String}
    (hd : w.options.filesDirectory = some directory) :
    w.resolveLocal path = .ok p ↔
      p = Files.join directory path ∧ isWithin w.files directory (Files.join directory path) := by
  rw [resolveLocal, hd]
  dsimp only
  split
  · next h => exact ⟨fun hp => by cases hp; exact ⟨rfl, h⟩, fun ⟨hp, _⟩ => by rw [hp]⟩
  · next h => exact ⟨fun hp => (by cases hp), fun ⟨_, hp⟩ => absurd hp h⟩

/-- What is read is a file that the path leads to. -/
theorem read_eq_ok {w : Workspace} {path : String} {bytes : Text.Bytes}
    (h : w.read path = .ok bytes) :
    ∃ r mode, w.files.realSteps true path = .ok r ∧
      w.files.root.find? r = some (.file bytes mode) := by
  rw [read, FileSystem.read, FileSystem.locate] at h
  delta Except.mapError at h
  cases hr : w.files.realSteps true path with
  | error f => rw [hr] at h; cases h
  | ok r =>
    rw [hr] at h
    cases hn : w.files.root.find? r with
    | none => simp [hn, bind, Except.bind] at h
    | some n =>
      cases n with
      | file contents mode =>
        simp [hn, bind, Except.bind] at h
        exact ⟨r, mode, rfl, by rw [hn, h]⟩
      | _ => simp [hn, bind, Except.bind] at h

theorem isWithin_real {fs : FileSystem} {directory path : String} {base r : List String}
    (h : isWithin fs directory path = true)
    (hb : fs.realSteps true (Files.absolute (Files.normalize fs.current directory)) = .ok base)
    (hr : fs.realSteps true (Files.absolute (Files.normalize fs.current path)) = .ok r) :
    isAbove base r = true := by
  rw [isWithin, Bool.and_eq_true] at h
  have h := h.2
  rwa [hb, hr] at h

/-- Where the copy of a path leads nowhere, only its steps are checked. -/
theorem isWithin_of_missing {fs : FileSystem} {directory path : String} {fault : Files.Fault}
    (h : isAbove (Files.normalize fs.current directory) (Files.normalize fs.current path) = true)
    (hr : fs.realSteps true (Files.absolute (Files.normalize fs.current path)) = .error fault) :
    isWithin fs directory path = true := by
  rw [isWithin, Bool.and_eq_true, hr]
  refine ⟨h, ?_⟩
  cases fs.realSteps true (Files.absolute (Files.normalize fs.current directory)) <;> rfl

/-- **What a local path leads to lies in the files directory**, if the files directory is there and
neither it nor the path leads elsewhere than its copy without dots. So no file outside is read. -/
theorem local_contained {w : Workspace} {directory path : String} {base : List String}
    (hd : w.options.filesDirectory = some directory)
    (hb : w.files.realSteps true directory = .ok base)
    (hdir : CopyAgrees w.files directory)
    (hpath : CopyAgrees w.files (Files.join directory path)) :
    (∀ p r, w.resolveLocal path = .ok p → w.files.realSteps true p = .ok r →
        isAbove base r = true) ∧
      ∀ bytes, w.readLocal path = .ok bytes →
        ∃ r mode, w.files.root.find? r = some (.file bytes mode) ∧ isAbove base r = true := by
  have contained : ∀ p r, w.resolveLocal path = .ok p → w.files.realSteps true p = .ok r →
      isAbove base r = true := by
    intro p r hp hr
    obtain ⟨rfl, hw⟩ := (resolveLocal_eq_ok_iff hd).mp hp
    exact isWithin_real hw (hdir base hb) (hpath r hr)
  refine ⟨contained, fun bytes h => ?_⟩
  rw [readLocal] at h
  cases hp : w.resolveLocal path with
  | error e => rw [hp] at h; cases h
  | ok p =>
    rw [hp] at h
    obtain ⟨r, mode, hr, hf⟩ := read_eq_ok h
    exact ⟨r, mode, hf, contained p r hp hr⟩

/-- **Paths that do not go up once they went down by a name lead where their copies lead**, through
whatever links, as long as the copy is not too long. -/
theorem copyAgrees_of_neverReturns {fs : FileSystem} (hs : fs.Settled) {path : String}
    (hn : FileSystem.neverReturns (Files.steps path) = true)
    (hl : (Files.absolute (Files.normalize fs.current path)).utf8ByteSize ≤
      FileSystem.longestPath) : CopyAgrees fs path :=
  fun _ h => FileSystem.realSteps_normalize hs hn hl h

/-! ## Links in the files directory -/

/-- A directory of local files with two links in it, and a directory beside it. -/
def linkedFiles : FileSystem where
  root := .directory
    [("o", .directory [("secret", .file [83] 0o644), ("d", .directory [])]),
      ("files", .directory
        [("real", .file [89] 0o644), ("inside", .link "real"), ("dd", .link "../o/d")])]
  current := []

/-- They are the local files. -/
def linkedWorkspace : Workspace where
  files := linkedFiles
  options := { filesDirectory := some "files" }

theorem settled_linkedFiles : linkedFiles.Settled where
  directory := ⟨_, rfl⟩
  name n hn := by cases hn

theorem realSteps_files : linkedFiles.realSteps true "files" = .ok ["files"] := by
  refine FileSystem.realSteps_eq_ok_iff.mpr
    ⟨by decide, by decide, by decide, FileSystem.mostLinks, ?_⟩
  rw [show FileSystem.lookupSteps "files" = ["files"] by with_unfolding_all decide,
    show Files.isAbsolute "files" = false by with_unfolding_all decide]
  exact @FileSystem.follow_directories _ _ [] _ ⟨_, rfl⟩ (by decide)

theorem realSteps_inside : linkedFiles.realSteps true "files/inside" = .ok ["files", "real"] := by
  refine FileSystem.realSteps_eq_ok_iff.mpr
    ⟨by decide, by decide, by decide, 39, ?_⟩
  rw [show FileSystem.lookupSteps "files/inside" = ["files", "inside"] by with_unfolding_all decide,
    show Files.isAbsolute "files/inside" = false by with_unfolding_all decide]
  refine (FileSystem.follow_entry rfl (by decide) rfl (by simp)).trans ?_
  refine (FileSystem.follow_link rfl (by decide) rfl).trans ?_
  rw [show Files.isAbsolute "real" = false by with_unfolding_all decide,
    show FileSystem.lookupSteps "real" ++ [] = ["real"] by with_unfolding_all decide]
  refine (FileSystem.follow_entry rfl (by decide) rfl (by simp)).trans ?_
  rw [FileSystem.follow]
  rfl

/-- A link to a file of the files directory is followed. -/
theorem local_contained_inside :
    CopyAgrees linkedFiles "files" ∧ CopyAgrees linkedFiles (Files.join "files" "inside") ∧
      linkedFiles.realSteps true "files/inside" = .ok ["files", "real"] ∧
      (linkedWorkspace.resolveLocal "inside" = .ok "files/inside" →
        isAbove ["files"] ["files", "real"] = true) := by
  have hdir : CopyAgrees linkedFiles "files" :=
    copyAgrees_of_neverReturns settled_linkedFiles (by decide) (by with_unfolding_all decide)
  have hpath : CopyAgrees linkedFiles (Files.join "files" "inside") :=
    copyAgrees_of_neverReturns settled_linkedFiles (by with_unfolding_all decide)
      (by with_unfolding_all decide)
  refine ⟨hdir, hpath, realSteps_inside, fun h => ?_⟩
  exact (@local_contained linkedWorkspace "files" "inside" ["files"] rfl realSteps_files hdir
    hpath).1 _ _ h realSteps_inside

theorem realSteps_escaped :
    linkedFiles.realSteps true "files/dd/../secret" = .ok ["o", "secret"] := by
  refine FileSystem.realSteps_eq_ok_iff.mpr
    ⟨by decide, by decide, by decide, 39, ?_⟩
  rw [show FileSystem.lookupSteps "files/dd/../secret" = ["files", "dd", "..", "secret"] by
      with_unfolding_all decide,
    show Files.isAbsolute "files/dd/../secret" = false by with_unfolding_all decide]
  refine (FileSystem.follow_entry rfl (by decide) rfl (by simp)).trans ?_
  refine (FileSystem.follow_link rfl (by decide) rfl).trans ?_
  rw [show Files.isAbsolute "../o/d" = false by with_unfolding_all decide,
    show FileSystem.lookupSteps "../o/d" ++ ["..", "secret"] = ["..", "o", "d", "..", "secret"] by
      with_unfolding_all decide]
  refine FileSystem.follow_up_iff.mpr ⟨⟨_, rfl⟩, ?_⟩
  refine (FileSystem.follow_entry rfl (by decide) rfl (by simp)).trans ?_
  refine (FileSystem.follow_entry rfl (by decide) rfl (by simp)).trans ?_
  refine FileSystem.follow_up_iff.mpr ⟨⟨_, rfl⟩, ?_⟩
  refine (FileSystem.follow_entry rfl (by decide) rfl (by simp)).trans ?_
  rw [FileSystem.follow]
  rfl

theorem realSteps_copy_of_escaped :
    linkedFiles.realSteps true "/files/secret" = .error .notFound := by
  rw [FileSystem.realSteps]
  dsimp only
  rw [if_neg (by decide), if_neg (by decide), if_neg (by decide),
    show Files.isAbsolute "/files/secret" = true by with_unfolding_all decide,
    show FileSystem.lookupSteps "/files/secret" = ["files", "secret"] by with_unfolding_all decide]
  rw [if_pos rfl, FileSystem.follow_entry rfl (by decide) rfl (by simp)]
  rw [FileSystem.follow]
  rfl

/-- **Going up from a link leads out of the files directory**: the copy without dots leads nowhere,
so nothing but its text is checked. -/
theorem local_escapes :
    linkedWorkspace.resolveLocal "dd/../secret" = .ok "files/dd/../secret" ∧
      linkedFiles.realSteps true "files/dd/../secret" = .ok ["o", "secret"] ∧
      linkedFiles.realSteps true "files" = .ok ["files"] ∧
      isAbove ["files"] ["o", "secret"] = false ∧
      linkedWorkspace.readLocal "dd/../secret" = .ok [83] := by
  have hr : linkedWorkspace.resolveLocal "dd/../secret" = .ok "files/dd/../secret" := by
    have hc : Files.absolute (Files.normalize linkedFiles.current
        (Files.join "files" "dd/../secret")) = "/files/secret" := by with_unfolding_all decide
    have hm := realSteps_copy_of_escaped
    rw [← hc] at hm
    exact (resolveLocal_eq_ok_iff rfl).mpr
      ⟨by with_unfolding_all decide, isWithin_of_missing (by with_unfolding_all decide) hm⟩
  refine ⟨hr, realSteps_escaped, realSteps_files, by decide, ?_⟩
  rw [readLocal, hr]
  have hl : linkedFiles.locate "files/dd/../secret" = .ok (.file [83] 0o644) := by
    rw [FileSystem.locate, realSteps_escaped]
    rfl
  show (linkedFiles.read "files/dd/../secret").mapError _ = _
  rw [FileSystem.read, hl]
  rfl

end Provision.Workspace
