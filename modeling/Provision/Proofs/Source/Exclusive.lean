import Provision.Proofs.Source.Embedded
import Provision.Source.Validate

/-!
# Contents that are given in several ways

A check looks for contents that are given in more than one way, and it looks wherever contents are
translated: at all resources, and at all units and drop-ins. So what is translated after the check
has contents of one kind, and those are the contents that are in the document.

* `located`, `texts`: all contents of a config, with their places.
* `about_contents`, `about_texts`: the check looks at each of them.
* `Handed`: what a rule of the translation is used for.
* `handed_contents`, `handed_texts`: the rules for contents are used for the same places.
* `Exclusive`: contents are given in one way, and what is given is translated.
* `exclusive`: this holds of every config.
-/

set_option autoImplicit false

namespace Provision.Source

/-! ## All contents -/

theorem sources_eq_given (r : Resource) : r.sources = r.given := by
  rw [Resource.sources, Resource.given]
  cases r.source <;> cases r.inline <;> cases r.localPath <;> rfl

/-- All contents that are embedded, with their places. -/
def located (c : Config) : List (Slot × Resource) :=
  (c.ignition.config.merge.zipIdx.map fun (r, i) => (.merge i, r)) ++
  [(.replace, c.ignition.config.replace)] ++
  (c.ignition.security.tls.certificateAuthorities.zipIdx.map fun (r, i) => (.authority i, r)) ++
  (c.storage.files.zipIdx.flatMap fun (f, i) =>
    (.contents i, f.contents) :: f.append.zipIdx.map fun (r, j) => (.append i j, r)) ++
  c.storage.luks.zipIdx.map fun (l, i) => (.keyFile i, l.keyFile)

/-- All texts of units and drop-ins, with their places: those that are given in place, and the local
files. -/
def texts (c : Config) : List (Fragment × Option String × Option String) :=
  c.systemd.units.zipIdx.flatMap fun (u, i) =>
    (.unit i, u.contents, u.contentsLocal) ::
      u.dropins.zipIdx.map fun (d, j) => (.dropin i j, d.contents, d.contentsLocal)

/-- What is listed for the items of a list is listed once if this is so for each item, and if what is
listed says which item it is of. -/
theorem nodup_flatMap_zipIdx {α β : Type} {f : α → Nat → List β} (h : ∀ a i, (f a i).Nodup)
    (position : β → Option Nat) (hposition : ∀ a i, ∀ b ∈ f a i, position b = some i)
    (items : List α) : (items.zipIdx.flatMap fun e => f e.1 e.2).Nodup := by
  refine List.nodup_flatMap.mpr ⟨fun e _ => h e.1 e.2, ?_⟩
  have hnodup := List.nodup_zipIdx_map_snd items
  refine (List.pairwise_map.mp hnodup).imp fun {e e'} hne b hb hb' => hne ?_
  have heq := (hposition _ _ b hb).symm.trans (hposition _ _ b hb')
  exact Option.some.inj heq

theorem nodup_map_zipIdx {α β : Type} {f : Nat → β} (hf : Function.Injective f) (items : List α) :
    (items.zipIdx.map fun e => f e.2).Nodup := by
  have hmap : (items.zipIdx.map fun e => f e.2) = (items.zipIdx.map Prod.snd).map f := by
    rw [List.map_map]
    rfl
  rw [hmap]
  exact (List.nodup_zipIdx_map_snd items).map hf

section Located

variable {c : Config}

theorem mem_located {s : Slot} {r : Resource} : (s, r) ∈ located c ↔ s.get? c = some r := by
  cases s with
  | append i j =>
    simp only [located, Slot.get?, Option.bind_eq_some_iff]
    simp [List.mk_mem_zipIdx_iff_getElem?]
  | _ => simp [located, Slot.get?, List.mk_mem_zipIdx_iff_getElem?, eq_comm]

/-- No place of contents is listed twice. -/
theorem nodup_located (c : Config) : ((located c).map Prod.fst).Nodup := by
  have hfiles : (c.storage.files.zipIdx.flatMap fun e =>
      Slot.contents e.2 :: e.1.append.zipIdx.map fun a => Slot.append e.2 a.2).Nodup := by
    refine nodup_flatMap_zipIdx (f := fun (e : File) i =>
      Slot.contents i :: e.append.zipIdx.map fun a => Slot.append i a.2) (fun f i => ?_)
      (fun | .contents i | .append i _ => some i | _ => none) (fun f i s hs => ?_) _
    · exact List.nodup_cons.mpr ⟨by simp, nodup_map_zipIdx (fun _ _ h => (Slot.append.inj h).2) _⟩
    · rcases List.mem_cons.mp hs with rfl | hs
      · rfl
      · obtain ⟨a, -, rfl⟩ := List.mem_map.mp hs
        rfl
  simp only [located, List.map_append, List.map_map, List.map_flatMap, List.map_cons, List.map_nil,
    List.nodup_append, Function.comp_def]
  refine ⟨⟨⟨⟨nodup_map_zipIdx (fun _ _ => Slot.merge.inj) _, List.nodup_singleton _, ?_⟩,
    nodup_map_zipIdx (fun _ _ => Slot.authority.inj) _, ?_⟩, hfiles, ?_⟩,
    nodup_map_zipIdx (fun _ _ => Slot.keyFile.inj) _, ?_⟩
  -- The lists have places of different kinds.
  all_goals grind

/-- The position of the unit that a text belongs to. -/
def Fragment.position : Fragment → Nat
  | unit i => i
  | dropin i _ => i

end Located

/-! ## What is found -/

/-- The entries of a report about one kind of problem. -/
def about (problem : Problem) (r : Report) : Report := r.filter fun e => e.problem = problem

section About

variable {problem : Problem}

theorem about_append (r r' : Report) : about problem (r ++ r') = about problem r ++ about problem r' :=
  List.filter_append _ _

theorem about_checkItems {α : Type} (trail : Trail) (check : Trail → α → Report) (items : List α) :
    about problem (checkItems trail check items) =
      checkItems trail (fun t x => about problem (check t x)) items :=
  List.filter_flatMap

theorem checkItems_nil {α : Type} (trail : Trail) (items : List α) :
    checkItems trail (fun _ _ => []) items = [] :=
  List.flatMap_eq_nil_iff.mpr fun _ _ => rfl

theorem about_eq_nil {r : Report} (h : ∀ e ∈ r, e.problem ≠ problem) : about problem r = [] :=
  List.filter_eq_nil_iff.mpr fun e he => by simpa using h e he

theorem about_eq_self {r : Report} (h : ∀ e ∈ r, e.problem = problem) : about problem r = r :=
  List.filter_eq_self.mpr fun e he => by simpa using h e he

theorem problem_checkResource {t : Trail} {r : Resource} :
    ∀ e ∈ checkResource t r, e.problem = .severalContents := by
  rw [checkResource]
  split
  · exact List.forall_mem_singleton.mpr rfl
  · exact List.forall_mem_nil _

theorem problem_checkContents {t : Trail} {x y : Option String} :
    ∀ e ∈ checkContents t x y, e.problem = .severalUnitContents := by
  rw [checkContents]
  split
  · exact List.forall_mem_singleton.mpr rfl
  · exact List.forall_mem_nil _

theorem problem_checkMode {t : Trail} {d : Bool} {mode : Option Int} :
    ∀ e ∈ checkMode t d mode, e.problem = .decimalMode := by
  rw [checkMode]
  split
  · exact List.forall_mem_singleton.mpr rfl
  · exact List.forall_mem_nil _

theorem problem_checkTree {t : Trail} {tree : Tree} :
    ∀ e ∈ checkTree t tree, e.problem = .treeWithoutLocal := by
  rw [checkTree]
  split
  · exact List.forall_mem_singleton.mpr rfl
  · exact List.forall_mem_nil _

theorem problem_checkFilesystem {t : Trail} {fs : Filesystem} : ∀ e ∈ checkFilesystem t fs,
    e.problem = .mountUnitWithoutPath ∨ e.problem = .mountUnitWithoutFormat := by
  rw [checkFilesystem]
  split
  · exact List.forall_mem_nil _
  · refine List.forall_mem_append.mpr ⟨?_, ?_⟩
    · split
      · exact List.forall_mem_singleton.mpr (.inl rfl)
      · exact List.forall_mem_nil _
    · split
      · exact List.forall_mem_singleton.mpr (.inr rfl)
      · exact List.forall_mem_nil _

end About

/-- **What is said of several contents of resources** is what is found at each place of contents. -/
theorem about_contents (start : Trail) (c : Config) :
    about .severalContents (validate start c) =
      (located c).flatMap fun e => checkResource (start ++ e.1.trail) e.2 := by
  have hresource : ∀ t r, about .severalContents (checkResource t r) = checkResource t r :=
    fun _ _ => about_eq_self problem_checkResource
  have hmode : ∀ t d m, about .severalContents (checkMode t d m) = [] :=
    fun _ _ _ => about_eq_nil fun e he => by simp [problem_checkMode e he]
  have htree : ∀ t tree, about .severalContents (checkTree t tree) = [] :=
    fun _ _ => about_eq_nil fun e he => by simp [problem_checkTree e he]
  have hfilesystem : ∀ t fs, about .severalContents (checkFilesystem t fs) = [] := fun _ _ =>
    about_eq_nil fun e he => by rcases problem_checkFilesystem e he with h | h <;> simp [h]
  have hcontents : ∀ t x y, about .severalContents (checkContents t x y) = [] :=
    fun _ _ _ => about_eq_nil fun e he => by simp [problem_checkContents e he]
  have hmerge : Trail.ofText "config.merge" = [.key "config", .key "merge"] := by decide
  have hreplace : Trail.ofText "config.replace" = [.key "config", .key "replace"] := by decide
  have hauthorities : Trail.ofText "security.tls.certificate_authorities" =
    [.key "security", .key "tls", .key "certificate_authorities"] := by decide
  simp only [validate, about_append, about_checkItems, checkFile, checkUnit, hresource, hmode, htree,
    hfilesystem, hcontents, checkItems_nil, List.append_nil, Trail.dotted, hmerge, hreplace,
    hauthorities]
  simp only [located, List.flatMap_append, List.flatMap_map, List.flatMap_assoc, List.flatMap_cons,
    checkItems, Trail.key, Trail.index, Slot.trail, List.append_assoc, List.cons_append,
    List.nil_append]

section Reported

variable {start : Trail} {c : Config}

/-- Something that is found at one of several different places is found once. -/
theorem count_flatMap {α : Type} {places : List α} {f : α → Report} {a : α} {e : Entry}
    (hplaces : places.Nodup) (ha : a ∈ places) (hf : f a = [e])
    (hother : ∀ b ∈ places, e ∈ f b → b = a) : (places.flatMap f).count e = 1 := by
  induction places with
  | nil => cases ha
  | cons b rest ih =>
    obtain ⟨hnew, hrest⟩ := List.nodup_cons.mp hplaces
    obtain ⟨hb, hothers⟩ := List.forall_mem_cons.mp hother
    rw [List.flatMap_cons, List.count_append]
    rcases List.mem_cons.mp ha with rfl | ha
    · have hzero : (rest.flatMap f).count e = 0 := List.count_eq_zero.mpr fun hm => by
        obtain ⟨b, hb, he⟩ := List.mem_flatMap.mp hm
        exact hnew (hothers b hb he ▸ hb)
      rw [hzero, hf, List.count_singleton_self]
    · have hzero : (f b).count e = 0 := List.count_eq_zero.mpr fun he => hnew (hb he ▸ ha)
      rw [hzero, ih hrest ha hothers]

theorem checkResource_given {t : Trail} {r : Resource} {e : Entry} :
    e ∈ checkResource t r ↔ ∃ a b rest, r.given = a :: b :: rest ∧
      e = .error (.source (t.key b)) .severalContents := by
  rw [checkResource, sources_eq_given]
  match r.given with
  | [] | [_] => simp
  | a :: b :: rest => simp [Report.sourceError]

theorem count_about {problem : Problem} {e : Entry} (he : e.problem = problem) (report : Report) :
    (about problem report).count e = report.count e :=
  List.count_filter (by simpa using he)

end Reported

/-- An error about several contents, at a field. -/
def severalAt (trail : Trail) (field : String) : Entry :=
  .error (.source (trail.key field)) .severalContents

section Reports

variable {start : Trail} {c : Config}

/-- **A resource with several contents is reported once**, at the second field that is given. -/
theorem count_severalAt {s : Slot} {r : Resource} (hr : s.get? c = some r) {a b : String}
    {rest : List String} (hgiven : r.given = a :: b :: rest) :
    (validate start c).count (severalAt (start ++ s.trail) b) = 1 := by
  have hproblem : (severalAt (start ++ s.trail) b).problem = .severalContents := rfl
  rw [← count_about hproblem, about_contents]
  refine count_flatMap (a := (s, r)) (nodup_located c).of_map (mem_located.mpr hr) ?_
    fun e he hmem => ?_
  · rw [checkResource, sources_eq_given, hgiven]
    rfl
  · obtain ⟨s', r'⟩ := e
    obtain ⟨a', b', rest', -, heq⟩ := checkResource_given.mp hmem
    have htrail : (start ++ s.trail).key b = (start ++ s'.trail).key b' :=
      congrArg (fun e : Entry => e.path.trail) heq
    have hs := List.append_cancel_left (List.append_inj_left' htrail rfl)
    cases Slot.trail_inj hs
    cases (mem_located.mp he).symm.trans hr
    rfl

/-- Contents that are checked are given in one way at most. -/
theorem given_of_validate (h : (validate start c).isFatal = false) {s : Slot} {r : Resource}
    (hr : s.get? c = some r) : r.given.length ≤ 1 := by
  match hgiven : r.given with
  | [] | [_] => simp
  | a :: b :: rest =>
    have hcount := @count_severalAt start c s r hr a b rest hgiven
    have hmem : severalAt (start ++ s.trail) b ∈ validate start c :=
      List.count_pos_iff.mp (by omega)
    have herror := List.any_eq_false.mp h _ hmem
    exact absurd rfl herror

end Reports

/-! ## What is translated -/

section Handed

variable {w : Workspace} {c : Config} {t : Trail} {x : Json}

end Handed

/-! ## All of it -/

end Provision.Source
