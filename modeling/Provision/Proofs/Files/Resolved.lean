import Provision.Proofs.Files.Containment

/-!
# Paths without links

Where no link is in the way, a path leads to where its steps go when they are taken one after the
other from the root, if it leads anywhere. So the check with links followed finds nothing that the
check of the steps has not found, and a local file is accepted exactly if its steps end beneath the
files directory.

* `FileSystem.resolved`: the steps of the absolute path, taken from the root.
* `FileSystem.realSteps_unlinked`: a path without links leads nowhere else than its steps.
* `Workspace.resolveLocal_exact`: which local paths are accepted, whatever exists.
-/

set_option autoImplicit false

namespace Provision.Files

/-! ## The steps of a joined path -/

theorem pieces_append_slash (s t : List Char) :
    pieces (s ++ '/' :: t) = pieces s ++ pieces t := by
  induction s with
  | nil =>
    obtain ⟨piece, rest, ht, hc⟩ := pieces_cons '/' t
    rw [List.nil_append, hc, if_pos rfl, ht]
    rfl
  | cons c s ih =>
    obtain ⟨piece, rest, hs, hc⟩ := pieces_cons c s
    obtain ⟨piece', rest', hst, hc'⟩ := pieces_cons c (s ++ '/' :: t)
    rw [ih, hs, List.cons_append, List.cons.injEq] at hst
    rw [List.cons_append, hc, hc', ← hst.1, ← hst.2]
    split <;> rfl

/-- A slash only parts the steps. -/
theorem steps_append_slash (a b : String) : steps (a ++ "/" ++ b) = steps a ++ steps b := by
  rw [steps, steps, steps, ← List.map_append, ← List.filter_append, ← pieces_append_slash]
  simp

/-- The steps of a path that is seen from a directory. -/
theorem steps_join (directory path : String) :
    steps (join directory path) =
      if isAbsolute path then steps path else steps directory ++ steps path := by
  rw [join]
  split
  · rfl
  · split
    · next h =>
      rcases Bool.or_eq_true_iff.mp h with h | h
      · rw [String.isEmpty_iff.mp h]
        simp [steps, pieces]
      · obtain ⟨front, hf⟩ := List.singleton_suffix_iff_getLast?_eq_some.mpr
          ((endsWith_slash_iff directory).mp h)
        have he : directory = String.ofList front ++ "/" := by
          rw [← String.ofList_toList (s := directory), ← hf, String.ofList_append]
        have hd := steps_append_slash (String.ofList front) ""
        rw [String.append_empty] at hd
        rw [he, steps_append_slash, hd]
        simp [steps, pieces]
    · exact steps_append_slash directory path

/-! ## Steps from the root -/

/-- Takes one step of a path. At the root, two dots lead nowhere. -/
def enter (here : List String) (step : String) : List String :=
  if step = "." then here else if step = ".." then here.dropLast else here ++ [step]

theorem climb_eq_foldl (here xs : List String) : climb here xs = xs.foldl enter here := by
  induction xs generalizing here with
  | nil => rfl
  | cons step rest ih =>
    rw [climb, List.foldl_cons, ih, ih, ih, enter]
    by_cases hs : step = "."
    · rw [if_pos hs, if_pos hs, if_neg (by rw [hs]; decide)]
    · rw [if_neg hs, if_neg hs]
      split <;> rfl

theorem foldl_enter_names {xs : List String} (h : ∀ n ∈ xs, n ≠ "." ∧ n ≠ "..")
    (here : List String) : xs.foldl enter here = here ++ xs := by
  induction xs generalizing here with
  | nil => exact (List.append_nil here).symm
  | cons name rest ih =>
    obtain ⟨hn, hr⟩ := List.forall_mem_cons.mp h
    rw [List.foldl_cons, ih hr, enter, if_neg hn.1, if_neg hn.2, List.append_assoc]
    rfl

theorem not_mem_climb {here xs : List String} (h : ∀ n ∈ here, n ≠ "." ∧ n ≠ "..") :
    ∀ n ∈ climb here xs, n ≠ "." ∧ n ≠ ".." := by
  induction xs generalizing here with
  | nil => exact h
  | cons step rest ih =>
    rw [climb]
    split
    · exact ih fun n hn => h n (List.dropLast_subset here hn)
    · next hup =>
      split
      · exact ih h
      · next hdot =>
        refine ih fun n hn => ?_
        rcases List.mem_append.mp hn with hn | hn
        · exact h n hn
        · cases List.mem_singleton.mp hn
          exact ⟨hdot, hup⟩

namespace FileSystem

/-- The current directory is given by names, as the system gives it. -/
def IsPlaced (fs : FileSystem) : Prop := ∀ n ∈ fs.current, IsName n ∧ n ≠ "." ∧ n ≠ ".."

/-- The absolute path of a path. -/
def absolutePath (fs : FileSystem) (path : String) : String := join (absolute fs.current) path

/-- Where the absolute path of a path leads, if its steps are taken from the root and no link is
followed. -/
def resolved (fs : FileSystem) (path : String) : List String :=
  (steps (fs.absolutePath path)).foldl enter []

variable {fs : FileSystem}

/-- A path without dots is where its steps lead. -/
theorem normalize_eq_resolved (hc : fs.IsPlaced) (path : String) :
    normalize fs.current path = fs.resolved path := by
  rw [normalize, climb_eq_foldl, resolved, absolutePath, steps_join]
  split
  · rfl
  · rw [List.foldl_append, steps_absolute fun n hn => (hc n hn).1,
      foldl_enter_names fun n hn => (hc n hn).2]
    rfl

/-- The steps lead through no link, as far as they lead. -/
def Unlinked (root : Node) (xs : List String) : Prop :=
  ∀ ys, ys <+: xs → ∀ path, root.find? ys ≠ some (.link path)

/-- Nothing lies beneath a link, so none is in the way of another node. -/
theorem unlinked_of_find? {root n : Node} {xs : List String} (h : root.find? xs = some n)
    (hk : ∀ path, n ≠ .link path) : Unlinked root xs := by
  rintro ys ⟨zs, rfl⟩ path hy
  rw [find?_append, hy, Option.bind_some] at h
  cases zs with
  | nil => exact hk path (Option.some.inj h).symm
  | cons => cases h

/-- Names that lead through no link lead to what they name. -/
theorem follow_unlinked {root : Node} {links : Nat} {here xs : List String}
    {q : List String × Nat} (hk : Unlinked root (here ++ xs)) (hn : ∀ n ∈ xs, n ≠ "." ∧ n ≠ "..")
    (h : follow root true links here xs = .ok q) : q.1 = here ++ xs := by
  induction xs generalizing here with
  | nil =>
    rw [follow] at h
    cases h
    exact (List.append_nil here).symm
  | cons name rest ih =>
    obtain ⟨hname, hr⟩ := List.forall_mem_cons.mp hn
    rw [List.append_cons] at hk ⊢
    rw [follow] at h
    split at h
    · next entries hd =>
      rw [if_neg hname.1, if_neg hname.2] at h
      split at h
      · cases h
      · split at h
        · cases h
        · next path hl =>
          refine absurd ?_ (hk (here ++ [name]) (List.prefix_append _ _) path)
          rw [find?_append, hd]
          simp [Node.find?, Node.entry?, hl]
        · exact ih hk hr h
    · cases h

/-- **A path that leads through no link leads nowhere else than its steps.** -/
theorem realSteps_unlinked {xs r : List String} (hn : ∀ n ∈ xs, IsName n ∧ n ≠ "." ∧ n ≠ "..")
    (hk : Unlinked fs.root xs) (h : fs.realSteps true (absolute xs) = .ok r) : r = xs := by
  obtain ⟨-, -, -, left, hf⟩ := realSteps_eq_ok_iff.mp h
  rw [isAbsolute_absolute, if_pos rfl] at hf
  by_cases hne : xs = []
  · subst hne
    rw [lookupSteps_absolute_nil] at hf
    have hf := (follow_dot_iff.mp hf).2
    rw [follow] at hf
    cases hf
    rfl
  · rw [lookupSteps_absolute (fun n hm => (hn n hm).1) hne] at hf
    exact follow_unlinked hk (fun n hm => (hn n hm).2) hf

theorem name_of_mem_resolved (hc : fs.IsPlaced) (path : String) :
    ∀ n ∈ fs.resolved path, IsName n ∧ n ≠ "." ∧ n ≠ ".." := by
  rw [← normalize_eq_resolved hc, normalize]
  have hcur : ∀ n ∈ (if isAbsolute path then [] else fs.current),
      IsName n ∧ n ≠ "." ∧ n ≠ ".." := by
    intro n hn
    split at hn
    · cases hn
    · exact hc n hn
  intro n hn
  refine ⟨?_, not_mem_climb (fun m hm => (hcur m hm).2) n hn⟩
  rcases mem_of_mem_climb hn with hn | hn
  · exact (hcur n hn).1
  · exact isName_of_mem_steps hn

end FileSystem

end Provision.Files

namespace Provision.Workspace

open Provision.Files (FileSystem)

theorem isAbove_iff {base target : List String} :
    isAbove base target = true ↔ base <+: target ∧ base ≠ target := by
  rw [isAbove, Bool.and_eq_true, List.isPrefixOf_iff_prefix, decide_eq_true_iff]
  refine and_congr_right fun hp => ⟨fun hl he => ?_, fun hne => ?_⟩
  · rw [he] at hl
    exact Nat.lt_irrefl _ hl
  · exact Nat.lt_of_le_of_ne hp.length_le fun he => hne (hp.eq_of_length he)

/-- Following links adds nothing to the check of the steps where there are none. -/
theorem isWithin_unlinked {fs : FileSystem} {directory path : String} (hc : fs.IsPlaced)
    (hb : FileSystem.Unlinked fs.root (fs.resolved directory))
    (ht : FileSystem.Unlinked fs.root (fs.resolved path)) :
    isWithin fs directory path = isAbove (fs.resolved directory) (fs.resolved path) := by
  rw [isWithin, FileSystem.normalize_eq_resolved hc, FileSystem.normalize_eq_resolved hc]
  split
  · next base target hbase htarget =>
    rw [FileSystem.realSteps_unlinked (FileSystem.name_of_mem_resolved hc directory) hb hbase,
      FileSystem.realSteps_unlinked (FileSystem.name_of_mem_resolved hc path) ht htarget,
      Bool.and_self]
  · exact Bool.and_true _

/-- **Without links the check of the files directory is exact.** A local path is accepted, and
joined to the files directory, exactly if the steps of the joined path lead strictly beneath where
those of the files directory lead; otherwise it is refused. Nothing of this depends on what exists:
with any other files that have no link in the way, the answer is the same. -/
theorem resolveLocal_exact {w : Workspace} {directory path : String}
    (hd : w.options.filesDirectory = some directory) (hc : w.files.IsPlaced)
    (hb : FileSystem.Unlinked w.files.root (w.files.resolved directory))
    (ht : FileSystem.Unlinked w.files.root (w.files.resolved (Files.join directory path))) :
    (w.resolveLocal path =
      if w.files.resolved directory <+: w.files.resolved (Files.join directory path) ∧
          w.files.resolved directory ≠ w.files.resolved (Files.join directory path)
      then .ok (Files.join directory path) else .error .outsideFilesDirectory) ∧
    ∀ root, FileSystem.Unlinked root (w.files.resolved directory) →
      FileSystem.Unlinked root (w.files.resolved (Files.join directory path)) →
      ({ w with files := { w.files with root := root } } : Workspace).resolveLocal path =
        w.resolveLocal path := by
  have exact (root : Files.Node) (hb : FileSystem.Unlinked root (w.files.resolved directory))
      (ht : FileSystem.Unlinked root (w.files.resolved (Files.join directory path))) :
      ({ w with files := { w.files with root := root } } : Workspace).resolveLocal path =
        if isAbove (w.files.resolved directory) (w.files.resolved (Files.join directory path))
        then .ok (Files.join directory path) else .error .outsideFilesDirectory := by
    rw [resolveLocal, hd]
    dsimp only
    rw [@isWithin_unlinked { w.files with root := root } directory _ hc hb ht]
    rfl
  have here := exact w.files.root hb ht
  refine ⟨?_, fun root hb' ht' => (exact root hb' ht').trans here.symm⟩
  simpa only [isAbove_iff] using here

/-- A directory beside that of the user, with files in it and a link that is in no one's way. -/
def besideFiles : FileSystem where
  root := .directory
    [("home", .directory
      [("u", .directory []),
        ("srv", .directory [("files", .directory [("a", .file [65] 0o644), ("up", .link "..")])])])]
  current := ["home", "u"]

/-- Its files are the local files, in a way of writing it that takes some steps too many. -/
def besideWorkspace : Workspace where
  files := besideFiles
  options := { filesDirectory := some "..//./srv/files/" }

/-- A path that leaves the files directory and comes back to it is accepted. -/
theorem resolveLocal_beside :
    besideFiles.IsPlaced ∧ besideFiles.resolved "..//./srv/files/" = ["home", "srv", "files"] ∧
      besideWorkspace.resolveLocal "x/../../files/a" = .ok "..//./srv/files/x/../../files/a" := by
  have hb : besideFiles.resolved "..//./srv/files/" = ["home", "srv", "files"] := by
    with_unfolding_all decide
  have hj : Files.join "..//./srv/files/" "x/../../files/a" = "..//./srv/files/x/../../files/a" := by
    with_unfolding_all decide
  have ht : besideFiles.resolved "..//./srv/files/x/../../files/a" =
      ["home", "srv", "files", "a"] := by
    with_unfolding_all decide
  have hc : besideFiles.IsPlaced := by
    rw [FileSystem.IsPlaced]
    simp only [Files.IsName]
    decide
  refine ⟨hc, hb, ?_⟩
  refine ((@resolveLocal_exact besideWorkspace "..//./srv/files/" "x/../../files/a" rfl hc
    ?_ ?_).1).trans ?_
  · show FileSystem.Unlinked besideFiles.root (besideFiles.resolved _)
    rw [hb]
    exact FileSystem.unlinked_of_find? rfl nofun
  · show FileSystem.Unlinked besideFiles.root (besideFiles.resolved _)
    rw [hj, ht]
    exact FileSystem.unlinked_of_find? rfl nofun
  · show (if besideFiles.resolved _ <+: besideFiles.resolved _ ∧
        besideFiles.resolved _ ≠ besideFiles.resolved _ then _ else _) = _
    rw [hj, ht, hb]
    exact if_pos (by decide)

end Provision.Workspace
