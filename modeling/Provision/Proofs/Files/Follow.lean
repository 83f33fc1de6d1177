import Provision.Files.Tree

/-!
# Paths as they are written and as they are followed

Taking the dots out of a path as it is written gives another path. Both lead to the same place as
long as the path does not go up again once it went down by a name, since only a name can be that of
a link.

* `follow_append`: steps are followed one part after the other.
* `steps_absolute`: the steps of a path that is made of steps.
* `FileSystem.Settled`: relative paths begin in a directory that is there.
* `realSteps_normalize`: where a path leads to, its copy without dots leads to as well.
-/

set_option autoImplicit false

namespace Provision.Files

/-! ## The steps of a path -/

/-- A name is neither empty nor cut by a slash. -/
def IsName (name : String) : Prop := name ≠ "" ∧ '/' ∉ name.toList

theorem pieces_cons (c : Char) (s : List Char) :
    ∃ piece rest, pieces s = piece :: rest ∧
      pieces (c :: s) = if c = '/' then [] :: piece :: rest else (c :: piece) :: rest := by
  induction s generalizing c with
  | nil =>
    refine ⟨[], [], rfl, ?_⟩
    simp [pieces]
  | cons d s ih =>
    obtain ⟨piece, rest, -, hd⟩ := ih d
    have hp : ∃ p r, pieces (d :: s) = p :: r := by
      rw [hd]
      split
      · exact ⟨_, _, rfl⟩
      · exact ⟨_, _, rfl⟩
    obtain ⟨p, r, hpr⟩ := hp
    refine ⟨p, r, hpr, ?_⟩
    rw [pieces, List.foldr_cons]
    rw [pieces] at hpr
    rw [hpr]

/-- No piece has a slash in it. -/
theorem not_mem_of_mem_pieces {s piece : List Char} (h : piece ∈ pieces s) : '/' ∉ piece := by
  induction s generalizing piece with
  | nil =>
    cases List.mem_singleton.mp h
    exact List.not_mem_nil
  | cons c s ih =>
    obtain ⟨first, rest, hs, hc⟩ := pieces_cons c s
    rw [hc] at h
    rw [hs] at ih
    split at h
    · rcases List.mem_cons.mp h with rfl | h
      · exact List.not_mem_nil
      · exact ih h
    · next hne =>
      rcases List.mem_cons.mp h with rfl | h
      · rintro hm
        rcases List.mem_cons.mp hm with he | hm
        · exact hne he.symm
        · exact ih List.mem_cons_self hm
      · exact ih (List.mem_cons_of_mem _ h)

/-- The steps of a path are names. -/
theorem isName_of_mem_steps {path name : String} (h : name ∈ steps path) : IsName name := by
  obtain ⟨piece, hp, rfl⟩ := List.mem_map.mp h
  obtain ⟨hp, hne⟩ := List.mem_filter.mp hp
  refine ⟨fun he => ?_, by rw [String.toList_ofList]; exact not_mem_of_mem_pieces hp⟩
  have hl := congrArg String.toList he
  rw [String.toList_ofList] at hl
  subst hl
  cases hne

/-- A name in front of a slash is the first piece. -/
theorem pieces_name_slash {name : List Char} (h : '/' ∉ name) (s : List Char) :
    pieces (name ++ '/' :: s) = name :: pieces s := by
  induction name with
  | nil =>
    obtain ⟨piece, rest, hs, hc⟩ := pieces_cons '/' s
    rw [List.nil_append, hc, hs]
    rfl
  | cons c name ih =>
    rw [List.mem_cons, not_or] at h
    obtain ⟨piece, rest, hs, hc⟩ := pieces_cons c (name ++ '/' :: s)
    rw [ih h.2, List.cons.injEq] at hs
    rw [List.cons_append, hc, if_neg (Ne.symm h.1), ← hs.1, ← hs.2]

theorem pieces_name {name : List Char} (h : '/' ∉ name) : pieces name = [name] := by
  induction name with
  | nil => rfl
  | cons c name ih =>
    rw [List.mem_cons, not_or] at h
    obtain ⟨piece, rest, hs, hc⟩ := pieces_cons c name
    rw [ih h.2, List.cons.injEq] at hs
    rw [hc, if_neg (Ne.symm h.1), ← hs.1, ← hs.2]

theorem pieces_intercalate {names : List (List Char)} (h : ∀ n ∈ names, '/' ∉ n)
    (hne : names ≠ []) : pieces (['/'].intercalate names) = names := by
  induction names with
  | nil => exact absurd rfl hne
  | cons name rest ih =>
    obtain ⟨hn, hr⟩ := List.forall_mem_cons.mp h
    cases rest with
    | nil => rw [List.intercalate_singleton, pieces_name hn]
    | cons next rest =>
      rw [List.intercalate_cons_cons, List.append_assoc, List.singleton_append,
        pieces_name_slash hn, ih hr (List.cons_ne_nil _ _)]

theorem toList_absolute (xs : List String) :
    (absolute xs).toList = '/' :: ['/'].intercalate (xs.map String.toList) := by
  rw [absolute, String.toList_append, String.toList_intercalate]
  rfl

/-- A path made of names has these names as its steps. -/
theorem steps_absolute {xs : List String} (h : ∀ n ∈ xs, IsName n) : steps (absolute xs) = xs := by
  have hp := @pieces_name_slash [] List.not_mem_nil
    (['/'].intercalate (xs.map String.toList))
  rw [steps, toList_absolute]
  rw [List.nil_append] at hp
  rw [hp]
  by_cases hne : xs = []
  · subst hne
    rfl
  · rw [pieces_intercalate (by simpa using fun n hn => (h n hn).2) (by simpa using hne),
      List.filter_cons_of_neg (by simp), List.filter_eq_self.mpr, List.map_map]
    · simp [Function.comp_def]
    · intro n hn
      obtain ⟨name, hm, rfl⟩ := List.mem_map.mp hn
      simpa using (h name hm).1

theorem endsWith_slash_iff (path : String) :
    path.endsWith "/" = true ↔ path.toList.getLast? = some '/' := by
  have h : path.endsWith "/" = true ↔ ['/'] <:+ path.toList := by
    have := @String.Slice.endsWith_string_iff "/" path.toSlice
    simpa using this
  rw [h, List.singleton_suffix_iff_getLast?_eq_some]

theorem isAbsolute_iff (path : String) :
    isAbsolute path = true ↔ path.toList.head? = some '/' := by
  rw [isAbsolute, String.startsWith_string_iff]
  cases path.toList <;> simp [List.cons_prefix_cons, eq_comm]

theorem isAbsolute_absolute (xs : List String) : isAbsolute (absolute xs) = true := by
  rw [isAbsolute_iff, toList_absolute]
  rfl

/-- Names between slashes do not end with a slash. -/
theorem getLast?_intercalate {names : List String} (h : ∀ n ∈ names, IsName n)
    (hne : names ≠ []) :
    ∃ c, (['/'].intercalate (names.map String.toList)).getLast? = some c ∧ c ≠ '/' := by
  induction names with
  | nil => exact absurd rfl hne
  | cons name rest ih =>
    obtain ⟨hn, hr⟩ := List.forall_mem_cons.mp h
    cases rest with
    | nil =>
      have hl : name.toList ≠ [] := by simpa using hn.1
      refine ⟨name.toList.getLast hl, ?_, fun he => hn.2 (he ▸ List.getLast_mem hl)⟩
      rw [List.map_cons, List.map_nil, List.intercalate_singleton, List.getLast?_eq_some_getLast hl]
    | cons next rest =>
      obtain ⟨c, hc, hne⟩ := ih hr (List.cons_ne_nil _ _)
      rw [List.map_cons] at hc
      refine ⟨c, ?_, hne⟩
      rw [List.map_cons, List.map_cons, List.intercalate_cons_cons, List.getLast?_append, hc]
      rfl

/-- The steps that are looked up for a path made of names. -/
theorem lookupSteps_absolute {xs : List String} (h : ∀ n ∈ xs, IsName n) (hne : xs ≠ []) :
    FileSystem.lookupSteps (absolute xs) = xs := by
  obtain ⟨c, hc, hcs⟩ := getLast?_intercalate h hne
  have he : (absolute xs).endsWith "/" = false := by
    rw [Bool.eq_false_iff, ne_eq, endsWith_slash_iff, toList_absolute, List.getLast?_cons, hc]
    simpa using hcs
  rw [FileSystem.lookupSteps, steps_absolute h, he]
  exact List.append_nil xs

theorem lookupSteps_absolute_nil : FileSystem.lookupSteps (absolute []) = ["."] := by
  rw [FileSystem.lookupSteps, steps_absolute (fun n hn => by cases hn),
    (endsWith_slash_iff _).mpr (by rw [toList_absolute]; rfl)]
  rfl

/-! ## Following steps -/

namespace FileSystem

variable {root : Node} {links : Nat} {here : List String}

/-- **Steps are followed one part after the other.** -/
theorem follow_append (xs ys : List String) :
    follow root true links here (xs ++ ys) =
      (follow root true links here xs).bind fun q => follow root true q.2 q.1 ys := by
  fun_induction follow root true links here xs with
  | case1 => rfl
  | case2 links here rest entries hd ih =>
    rw [List.cons_append, follow, hd]
    exact ih
  | case3 links here rest entries hd _ ih =>
    rw [List.cons_append, follow, hd]
    exact ih
  | case4 links here step rest entries hd h₁ h₂ h₃ =>
    rw [List.cons_append, follow, hd]
    simp only [h₁, h₂, h₃, if_true, if_false]
    rfl
  | case5 links here step rest entries hd h₁ h₂ h₃ hn =>
    rw [List.cons_append, follow, hd]
    simp only [h₁, h₂, h₃, if_false, hn]
    rfl
  | case6 links here step rest entries hd h₁ h₂ h₃ path hl h => simp at h
  | case7 here step rest entries hd h₁ h₂ h₃ path hl h =>
    rw [List.cons_append, follow, hd]
    simp only [h₁, h₂, h₃, if_false, hl, Bool.not_true, Bool.and_false, Bool.false_eq_true]
    rfl
  | case8 here step rest entries hd h₁ h₂ h₃ path hl h links ih =>
    rw [List.cons_append, follow, hd]
    simp only [h₁, h₂, h₃, if_false, hl, Bool.not_true, Bool.and_false, Bool.false_eq_true,
      ← List.append_assoc]
    exact ih
  | case9 links here step rest entries hd h₁ h₂ h₃ n hn hl ih =>
    rw [List.cons_append, follow, hd]
    simp only [h₁, h₂, h₃, if_false]
    cases n with
    | link path => exact absurd rfl (hn path)
    | _ => simp only [hl]; exact ih
  | case10 links here step rest hd =>
    rw [List.cons_append, follow]
    cases hf : root.find? here with
    | none => rfl
    | some n =>
      cases n with
      | directory entries => exact absurd hf (hd entries)
      | _ => rfl

/-- The steps lead to a directory, none of them through a link. -/
def IsDirectory (root : Node) (here : List String) : Prop :=
  ∃ entries, root.find? here = some (.directory entries)

theorem find?_append (xs ys : List String) (n : Node) :
    n.find? (xs ++ ys) = (n.find? xs).bind (Node.find? ys) := by
  induction xs generalizing n with
  | nil => rfl
  | cons name rest ih =>
    rw [List.cons_append, Node.find?, Node.find?]
    cases n.entry? name with
    | none => rfl
    | some child => exact ih child

/-- What leads to a directory leads through directories. -/
theorem isDirectory_of_append {xs ys : List String} (h : IsDirectory root (xs ++ ys)) :
    IsDirectory root xs := by
  obtain ⟨entries, h⟩ := h
  rw [find?_append, Option.bind_eq_some_iff] at h
  obtain ⟨n, hn, h⟩ := h
  cases n with
  | directory inner => exact ⟨inner, hn⟩
  | _ => cases ys <;> cases h

theorem isDirectory_dropLast (h : IsDirectory root here) : IsDirectory root here.dropLast := by
  refine @isDirectory_of_append root _ (here.drop here.dropLast.length) ?_
  rwa [List.dropLast_eq_take, List.length_take, Nat.min_eq_left (Nat.sub_le _ _),
    List.take_append_drop]

/-- One dot asks for a directory. -/
theorem follow_dot_iff {rest : List String} {q : List String × Nat} :
    follow root true links here ("." :: rest) = .ok q ↔
      IsDirectory root here ∧ follow root true links here rest = .ok q := by
  rw [follow]
  split
  · next entries h => exact ⟨fun hq => ⟨⟨entries, h⟩, hq⟩, And.right⟩
  · next hn =>
    refine iff_of_false (fun hq => by cases hq) ?_
    rintro ⟨⟨entries, h⟩, -⟩
    exact hn entries h

/-- Two dots ask for a directory and lead out of it. -/
theorem follow_up_iff {rest : List String} {q : List String × Nat} :
    follow root true links here (".." :: rest) = .ok q ↔
      IsDirectory root here ∧ follow root true links here.dropLast rest = .ok q := by
  rw [follow]
  split
  · next entries h => exact ⟨fun hq => ⟨⟨entries, h⟩, hq⟩, And.right⟩
  · next hn =>
    refine iff_of_false (fun hq => by cases hq) ?_
    rintro ⟨⟨entries, h⟩, -⟩
    exact hn entries h

/-- A name of a directory can be looked up: it has a length that is allowed, and is not one of the
dots. -/
def IsEntryName (name : String) : Prop :=
  name ≠ "." ∧ name ≠ ".." ∧ name.utf8ByteSize ≤ longestName

instance (name : String) : Decidable (IsEntryName name) :=
  inferInstanceAs (Decidable (_ ∧ _ ∧ _))

/-- A name of a directory leads to its entry. -/
theorem follow_entry {name : String} {rest : List String} {entries : List (String × Node)}
    {n : Node} (hd : root.find? here = some (.directory entries)) (hn : IsEntryName name)
    (hl : entries.lookup name = some n) (hk : ∀ path, n ≠ .link path) :
    follow root true links here (name :: rest) =
      follow root true links (here ++ [name]) rest := by
  obtain ⟨h₁, h₂, h₃⟩ := hn
  rw [follow, hd]
  simp only [h₁, h₂, Nat.not_lt.mpr h₃, if_false, hl]

/-- The name of a link leads to where the link does. -/
theorem follow_link {name path : String} {rest : List String} {entries : List (String × Node)}
    (hd : root.find? here = some (.directory entries)) (hn : IsEntryName name)
    (hl : entries.lookup name = some (.link path)) :
    follow root true (links + 1) here (name :: rest) =
      follow root true links (if isAbsolute path then [] else here) (lookupSteps path ++ rest) := by
  obtain ⟨h₁, h₂, h₃⟩ := hn
  rw [follow, hd]
  simp only [h₁, h₂, Nat.not_lt.mpr h₃, if_false, hl, Bool.not_true, Bool.and_false,
    Bool.false_eq_true]

/-- **Names lead to what they name**, if none of them names a link. -/
theorem follow_names {xs : List String} {n : Node} (hf : root.find? (here ++ xs) = some n)
    (hk : ∀ path, n ≠ .link path) (hn : ∀ name ∈ xs, IsEntryName name) :
    follow root true links here xs = .ok (here ++ xs, links) := by
  induction xs generalizing here with
  | nil => rw [follow, List.append_nil]
  | cons name rest ih =>
    obtain ⟨hname, hr⟩ := List.forall_mem_cons.mp hn
    rw [List.append_cons] at hf ⊢
    obtain ⟨m, hm, hrest⟩ := Option.bind_eq_some_iff.mp ((find?_append _ _ _).symm.trans hf)
    obtain ⟨d, hd, hentry⟩ := Option.bind_eq_some_iff.mp ((find?_append _ _ _).symm.trans hm)
    -- What has an entry is a directory, and a link has none.
    have hlink : ∀ path, m ≠ .link path := by
      rintro path rfl
      cases rest with
      | nil => exact hk path (Option.some.inj hrest).symm
      | cons => cases hrest
    cases d with
    | directory entries =>
      have hl : entries.lookup name = some m := by simpa [Node.find?, Node.entry?] using hentry
      rw [follow_entry hd hname hl hlink]
      exact ih hf hr
    | _ => cases hentry

/-- Directories are entered as they are named. -/
theorem follow_directories {xs : List String} (hd : IsDirectory root (here ++ xs))
    (hn : ∀ n ∈ xs, IsEntryName n) : follow root true links here xs = .ok (here ++ xs, links) := by
  obtain ⟨entries, he⟩ := hd
  exact follow_names he nofun hn

/-- Single dots can be left out. -/
theorem follow_without_dots {xs : List String} {q : List String × Nat}
    (h : follow root true links here xs = .ok q) :
    follow root true links here (xs.filter (· ≠ ".")) = .ok q := by
  induction xs generalizing links here with
  | nil => exact h
  | cons step rest ih =>
    by_cases hs : step = "."
    · subst hs
      rw [List.filter_cons_of_neg (by simp)]
      exact ih (follow_dot_iff.mp h).2
    · rw [List.filter_cons_of_pos (by simpa using hs), ← List.singleton_append, follow_append]
      rw [← List.singleton_append, follow_append] at h
      cases hq : follow root true links here [step] with
      | error f => rw [hq] at h; cases h
      | ok p =>
        rw [hq] at h
        exact ih h

/-! ## Paths without dots -/

/-- The steps do not go up once they went down by a name. -/
def neverReturns : List String → Bool
  | [] => true
  | step :: rest =>
    if step = "." ∨ step = ".." then neverReturns rest else rest.all (· ≠ "..")

theorem climb_names {xs : List String} (h : ∀ n ∈ xs, n ≠ "..") :
    climb here xs = here ++ xs.filter (· ≠ ".") := by
  induction xs generalizing here with
  | nil => rw [climb, List.filter_nil, List.append_nil]
  | cons step rest ih =>
    obtain ⟨hs, hr⟩ := List.forall_mem_cons.mp h
    rw [climb, if_neg hs]
    split
    · next hd => rw [ih hr, List.filter_cons_of_neg (by simpa using hd)]
    · next hd =>
      rw [ih hr, List.filter_cons_of_pos (by simpa using hd), List.append_assoc,
        List.singleton_append]

/-- **Where steps lead to that do not return, the steps without dots lead from the root.** -/
theorem follow_climb {xs : List String} {q : List String × Nat} (hd : IsDirectory root here)
    (hn : ∀ n ∈ here, IsEntryName n) (hr : neverReturns xs = true)
    (h : follow root true links here xs = .ok q) :
    follow root true links [] (climb here xs) = .ok q := by
  induction xs generalizing here with
  | nil =>
    rw [climb, @follow_directories root _ [] here hd hn, ← h, follow]
    rfl
  | cons step rest ih =>
    rw [neverReturns] at hr
    by_cases hdot : step = "."
    · subst hdot
      exact ih hd hn hr (follow_dot_iff.mp h).2
    by_cases hup : step = ".."
    · subst hup
      exact ih (isDirectory_dropLast hd) (fun n hm => hn n (List.dropLast_subset here hm)) hr
        (follow_up_iff.mp h).2
    rw [if_neg (by simp [hdot, hup])] at hr
    have hnames : ∀ n ∈ step :: rest, n ≠ ".." :=
      List.forall_mem_cons.mpr ⟨hup, by simpa using hr⟩
    rw [climb_names hnames, follow_append, @follow_directories root _ [] here hd hn]
    exact follow_without_dots h

/-- Relative paths begin in a directory that is there, and its steps are names. -/
structure Settled (fs : FileSystem) : Prop where
  directory : IsDirectory fs.root fs.current
  name : ∀ n ∈ fs.current, IsName n ∧ IsEntryName n ∧ Char.ofNat 0 ∉ n.toList

theorem mem_of_mem_pieces {s piece : List Char} {c : Char} (hp : piece ∈ pieces s)
    (hc : c ∈ piece) : c ∈ s := by
  induction s generalizing piece with
  | nil =>
    cases List.mem_singleton.mp hp
    cases hc
  | cons d s ih =>
    obtain ⟨first, rest, hs, hd⟩ := pieces_cons d s
    rw [hd] at hp
    rw [hs] at ih
    split at hp
    · rcases List.mem_cons.mp hp with rfl | hp
      · cases hc
      · exact List.mem_cons_of_mem _ (ih hp hc)
    · rcases List.mem_cons.mp hp with rfl | hp
      · rcases List.mem_cons.mp hc with rfl | hc
        · exact List.mem_cons_self
        · exact List.mem_cons_of_mem _ (ih List.mem_cons_self hc)
      · exact List.mem_cons_of_mem _ (ih (List.mem_cons_of_mem _ hp) hc)

theorem mem_of_mem_climb {xs : List String} {n : String} (h : n ∈ climb here xs) :
    n ∈ here ∨ n ∈ xs := by
  induction xs generalizing here with
  | nil => exact .inl h
  | cons step rest ih =>
    rw [climb] at h
    split at h
    · exact (ih h).imp (List.dropLast_subset here ·) (List.mem_cons_of_mem _)
    · split at h
      · exact (ih h).imp_right (List.mem_cons_of_mem _)
      · rcases ih h with h | h
        · rcases List.mem_append.mp h with h | h
          · exact .inl h
          · cases List.mem_singleton.mp h
            exact .inr List.mem_cons_self
        · exact .inr (List.mem_cons_of_mem _ h)

theorem climb_lookupSteps (path : String) :
    climb here (lookupSteps path) = climb here (steps path) := by
  rw [lookupSteps]
  split
  · induction steps path generalizing here with
    | nil => rfl
    | cons step rest ih => rw [List.cons_append, climb, climb, ih, ih, ih]
  · rw [List.append_nil]

theorem neverReturns_lookupSteps {path : String} (h : neverReturns (steps path) = true) :
    neverReturns (lookupSteps path) = true := by
  rw [lookupSteps]
  split
  · generalize steps path = xs at h ⊢
    induction xs with
    | nil => rfl
    | cons step rest ih =>
      rw [neverReturns] at h
      rw [List.cons_append, neverReturns]
      split
      · next hs => exact ih (by rwa [if_pos hs] at h)
      · next hs =>
        rw [if_neg hs] at h
        rw [List.all_append, h]
        rfl
  · rwa [List.append_nil]

/-- The names of a path without dots. -/
theorem name_of_mem_normalize {fs : FileSystem} (hs : fs.Settled) {path n : String}
    (hp : Char.ofNat 0 ∉ path.toList) (h : n ∈ normalize fs.current path) :
    IsName n ∧ Char.ofNat 0 ∉ n.toList := by
  have hcur : ∀ m ∈ (if isAbsolute path then [] else fs.current), m ∈ fs.current := by
    intro m hm
    split at hm
    · cases hm
    · exact hm
  rcases mem_of_mem_climb h with h | h
  · exact ⟨(hs.name n (hcur n h)).1, (hs.name n (hcur n h)).2.2⟩
  · refine ⟨isName_of_mem_steps h, fun h0 => hp ?_⟩
    obtain ⟨piece, hm, rfl⟩ := List.mem_map.mp h
    rw [String.toList_ofList] at h0
    exact mem_of_mem_pieces (List.mem_filter.mp hm).1 h0

theorem not_mem_absolute {xs : List String} (h : ∀ n ∈ xs, Char.ofNat 0 ∉ n.toList) :
    Char.ofNat 0 ∉ (absolute xs).toList := by
  rw [toList_absolute, List.mem_cons, not_or]
  refine ⟨by decide, ?_⟩
  induction xs with
  | nil => exact List.not_mem_nil
  | cons name rest ih =>
    obtain ⟨hn, hr⟩ := List.forall_mem_cons.mp h
    cases rest with
    | nil => rwa [List.map_cons, List.map_nil, List.intercalate_singleton]
    | cons next rest =>
      rw [List.map_cons, List.map_cons, List.intercalate_cons_cons, List.mem_append,
        List.mem_append, List.mem_singleton]
      rintro ((h | h) | h)
      · exact hn h
      · exact absurd h (by decide)
      · exact ih hr h

theorem realSteps_eq_ok_iff {fs : FileSystem} {path : String} {r : List String} :
    fs.realSteps true path = .ok r ↔
      Char.ofNat 0 ∉ path.toList ∧ path ≠ "" ∧ path.utf8ByteSize ≤ longestPath ∧
        ∃ left, follow fs.root true mostLinks (if isAbsolute path then [] else fs.current)
          (lookupSteps path) = .ok (r, left) := by
  rw [realSteps]
  dsimp only
  split
  · next h => exact ⟨nofun, fun ⟨h', _⟩ => absurd (List.contains_iff_mem.mp h) h'⟩
  · next h₁ =>
    split
    · next h => exact ⟨nofun, fun ⟨_, h', _⟩ => absurd (String.isEmpty_iff.mp h) h'⟩
    · next h₂ =>
      split
      · next h => exact ⟨nofun, fun ⟨_, _, h', _⟩ => absurd h (Nat.not_lt.mpr h')⟩
      · next h₃ =>
        refine ⟨fun h => ⟨fun hm => h₁ (List.contains_iff_mem.mpr hm),
          fun he => h₂ (String.isEmpty_iff.mpr he), Nat.not_lt.mp h₃, ?_⟩, fun ⟨_, _, _, h⟩ => ?_⟩
        · cases hf : follow fs.root true mostLinks (if isAbsolute path then [] else fs.current)
            (lookupSteps path) with
          | error f => rw [hf] at h; cases h
          | ok q => rw [hf] at h; cases h; exact ⟨q.2, rfl⟩
        · obtain ⟨left, h⟩ := h
          rw [h]
          rfl

/-- **A path of names leads to what they name**, if none of them names a link. -/
theorem realSteps_names {fs : FileSystem} {path : String} {xs : List String} {n : Node}
    (hpath : Char.ofNat 0 ∉ path.toList ∧ path ≠ "" ∧ path.utf8ByteSize ≤ longestPath)
    (hx : (if isAbsolute path then [] else fs.current) ++ lookupSteps path = xs)
    (hf : fs.root.find? xs = some n) (hk : ∀ p, n ≠ .link p)
    (hn : ∀ name ∈ lookupSteps path, IsEntryName name) : fs.realSteps true path = .ok xs := by
  subst hx
  exact realSteps_eq_ok_iff.mpr
    ⟨hpath.1, hpath.2.1, hpath.2.2, mostLinks, follow_names hf hk hn⟩

/-- **Where a path leads to that does not return, its copy without dots leads to as well**, if the
copy is not too long. -/
theorem realSteps_normalize {fs : FileSystem} (hs : fs.Settled) {path : String} {r : List String}
    (hn : neverReturns (steps path) = true)
    (hl : (absolute (normalize fs.current path)).utf8ByteSize ≤ longestPath)
    (h : fs.realSteps true path = .ok r) :
    fs.realSteps true (absolute (normalize fs.current path)) = .ok r := by
  obtain ⟨h0, -, -, left, hf⟩ := realSteps_eq_ok_iff.mp h
  have hnames := fun n hm => name_of_mem_normalize (n := n) hs h0 hm
  have hroot : IsDirectory fs.root [] := @isDirectory_of_append fs.root [] _ hs.directory
  have hfollow : follow fs.root true mostLinks [] (normalize fs.current path) = .ok (r, left) := by
    rw [normalize, ← climb_lookupSteps]
    have hr := neverReturns_lookupSteps hn
    split at hf
    · next ha =>
      rw [if_pos ha]
      exact follow_climb hroot (fun n hm => by cases hm) hr hf
    · next ha =>
      rw [if_neg ha]
      exact follow_climb hs.directory (fun n hm => (hs.name n hm).2.1) hr hf
  refine realSteps_eq_ok_iff.mpr ⟨not_mem_absolute fun n hm => (hnames n hm).2, ?_, hl, left, ?_⟩
  · intro he
    have := toList_absolute (normalize fs.current path)
    rw [he] at this
    cases this
  · rw [isAbsolute_absolute, if_pos rfl]
    by_cases hne : normalize fs.current path = []
    · rw [hne] at hfollow ⊢
      rw [lookupSteps_absolute_nil]
      exact follow_dot_iff.mpr ⟨hroot, hfollow⟩
    · rwa [lookupSteps_absolute (fun n hm => (hnames n hm).1) hne]

end FileSystem

end Provision.Files
