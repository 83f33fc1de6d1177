import Mathlib.Data.List.Nodup
import Mathlib.Data.List.Pairwise
import Provision.Proofs.Ignition.Findings

/-!
# Entries that may not be alike

Some entries of a config must differ in one of their fields: nodes in their paths, disks in their
devices, users, groups, units and headers in their names, and so on. Such entries form a series, and
an entry repeats another if its mark is that of an earlier one. Some have no mark, as names may be
empty, numbers zero, and drop-ins misnamed.

* `series`: the series of a config.
* `mem_repeatedFrom`, `countP_repeatedFrom`: which entries of a series are repeated, and how many.
* `nodup_trailsOf_series`: no field belongs to two entries.
* `Finds.exact`: findings that are what is repeated in some series are exact.
-/

set_option autoImplicit false

namespace Provision.Ignition

/-! ## Series of entries -/

/-- What entries may not have alike: a text or a number. -/
inductive Mark where
  | text (s : String)
  | number (n : Int)
  deriving DecidableEq, Repr

/-- Entries that may not be alike. Each has the field that tells them apart, and its mark there
unless it has none. -/
abbrev Series := List (Trail × Option Mark)

/-- The entries after some marks whose own mark is one of these or that of an earlier entry. -/
def repeatedFrom (seen : List Mark) : Series → List Trail
  | [] => []
  | (_, none) :: rest => repeatedFrom seen rest
  | (t, some k) :: rest =>
    if k ∈ seen then t :: repeatedFrom (k :: seen) rest else repeatedFrom (k :: seen) rest

/-- The entries of a series that repeat an earlier one. -/
def repeated (s : Series) : List Trail := repeatedFrom [] s

section Repeated

variable {s before after : Series} {seen : List Mark} {t : Trail} {m : Option Mark} {k : Mark}

theorem repeatedFrom_sublist (seen : List Mark) (s : Series) :
    (repeatedFrom seen s).Sublist (s.map Prod.fst) := by
  fun_induction repeatedFrom seen s with
  | case1 => exact .slnil
  | case2 seen t rest ih => exact ih.cons t
  | case3 seen t k rest h ih => exact ih.cons_cons t
  | case4 seen t k rest h ih => exact ih.cons t

/-- An entry repeats another exactly if it has a mark that was there before. -/
theorem mem_repeatedFrom (hn : ((before ++ (t, m) :: after).map Prod.fst).Nodup) :
    t ∈ repeatedFrom seen (before ++ (t, m) :: after) ↔
      m.isSome = true ∧ (m ∈ before.map Prod.snd ∨ m ∈ seen.map some) := by
  induction before generalizing seen with
  | nil =>
    have hafter : ∀ seen, t ∉ repeatedFrom seen after := fun seen ht =>
      (List.nodup_cons.mp hn).1 ((repeatedFrom_sublist seen after).subset ht)
    cases m with
    | none => simpa [repeatedFrom] using hafter seen
    | some k =>
      by_cases hk : k ∈ seen
      · simp [repeatedFrom, hk]
      · simp [repeatedFrom, hk, hafter]
  | cons e before ih =>
    obtain ⟨u, n⟩ := e
    obtain ⟨hu, hrest⟩ := List.nodup_cons.mp hn
    have hne : t ≠ u := fun h => hu (by simp [h])
    cases n with
    | none =>
      rw [List.cons_append, repeatedFrom, ih hrest]
      cases m <;> simp
    | some l =>
      have hstep : t ∈ repeatedFrom seen ((u, some l) :: (before ++ (t, m) :: after)) ↔
          t ∈ repeatedFrom (l :: seen) (before ++ (t, m) :: after) := by
        rw [repeatedFrom]
        split
        · rw [List.mem_cons, or_iff_right hne]
        · rfl
      rw [List.cons_append, hstep, ih hrest]
      simp only [List.map_cons, List.mem_cons]
      tauto

/-- All entries of one mark but the first are repeated. -/
theorem countP_repeatedFrom {p : Trail → Bool} (hp : ∀ e ∈ s, p e.1 = true ↔ e.2 = some k) :
    (repeatedFrom seen s).countP p =
      s.countP (fun e => e.2 = some k) - if k ∈ seen then 0 else 1 := by
  induction s generalizing seen with
  | nil => simp [repeatedFrom]
  | cons e rest ih =>
    obtain ⟨t, m⟩ := e
    obtain ⟨ht, hrest⟩ := List.forall_mem_cons.mp hp
    dsimp only at ht
    rw [List.countP_cons]
    cases m with
    | none =>
      rw [repeatedFrom, ih hrest]
      simp
    | some l =>
      rw [repeatedFrom]
      by_cases hl : l = k
      · subst hl
        have hpt : p t = true := ht.mpr rfl
        split
        · next hseen => simp [ih hrest, hpt, hseen]
        · next hseen => simp [ih hrest, hseen]
      · have hpt : p t = false := Bool.eq_false_iff.mpr fun h => hl (Option.some.inj (ht.mp h))
        split <;> simp [ih hrest, hpt, hl, Ne.symm hl]

/-! ## What is found in series -/

/-- The fields that are found to repeat an earlier one. -/
def duplicatesOf (findings : List Finding) : List Trail :=
  findings.filterMap fun f => if f.flaw = .duplicate then some f.trail else none

/-- All fields of some series. -/
def trailsOf (ss : List Series) : List Trail := ss.flatMap fun s => s.map Prod.fst

/-- What is found to be repeated is what is repeated in some series. -/
def Finds (findings : List Finding) (ss : List Series) : Prop :=
  (duplicatesOf findings).Perm (ss.flatMap repeated)

/-- Repetitions are found exactly where they are. -/
structure Exact (findings : List Finding) (ss : List Series) : Prop where
  /-- Nothing is found twice. -/
  once : (findings.filter fun f => f.flaw = .duplicate).Nodup
  /-- Nothing is found elsewhere. -/
  only : ∀ t, ⟨t, .duplicate⟩ ∈ findings → ∃ s ∈ ss, t ∈ s.map Prod.fst
  /-- An entry is found exactly if its mark is that of an earlier one. -/
  mem_iff : ∀ s ∈ ss, ∀ before t m after, s = before ++ (t, m) :: after →
    (⟨t, .duplicate⟩ ∈ findings ↔ m.isSome = true ∧ m ∈ before.map Prod.snd)
  /-- Of the entries with one mark all but one are found. -/
  countP_eq : ∀ s ∈ ss, ∀ k,
    findings.countP (fun f => f.flaw = .duplicate ∧ (f.trail, some k) ∈ s) =
      s.countP (fun e => e.2 = some k) - 1
  /-- Where there are no errors, all marks differ. -/
  nodup_of_no_error : (∀ f ∈ findings, f.severity ≠ .error) →
    ∀ s ∈ ss, (s.filterMap Prod.snd).Nodup

section Exact

variable {findings : List Finding} {ss : List Series}

theorem mem_duplicatesOf {t : Trail} :
    t ∈ duplicatesOf findings ↔ ⟨t, .duplicate⟩ ∈ findings := by
  rw [duplicatesOf, List.mem_filterMap]
  constructor
  · rintro ⟨⟨u, flaw⟩, hf, ht⟩
    split at ht
    · next hflaw =>
      cases ht
      cases hflaw
      exact hf
    · cases ht
  · exact fun h => ⟨_, h, if_pos rfl⟩

theorem map_filter_eq (findings : List Finding) :
    (findings.filter fun f => f.flaw = .duplicate).map (·.trail) = duplicatesOf findings := by
  rw [duplicatesOf]
  induction findings with
  | nil => rfl
  | cons f rest ih =>
    rw [List.filter_cons, List.filterMap_cons]
    by_cases h : f.flaw = .duplicate <;> simp [h, ih]

theorem countP_duplicatesOf (p : Trail → Bool) :
    findings.countP (fun f => f.flaw = .duplicate ∧ p f.trail = true) =
      (duplicatesOf findings).countP p := by
  rw [← map_filter_eq, List.countP_map, List.countP_filter]
  refine List.countP_congr fun f _ => ?_
  simp [and_comm]

/-- A field belongs to one series. -/
theorem eq_of_mem_trails (hn : (trailsOf ss).Nodup) {s s' : Series} (hs : s ∈ ss) (hs' : s' ∈ ss)
    {t : Trail} (ht : t ∈ s.map Prod.fst) (ht' : t ∈ s'.map Prod.fst) : s = s' := by
  by_contra hne
  have hsymm : Std.Symm (Function.onFun List.Disjoint fun s : Series => s.map Prod.fst) :=
    ⟨fun _ _ h => List.disjoint_symm h⟩
  exact (List.nodup_flatMap.mp hn).2.forall hs hs' hne ht ht'

/-- **Where exactly the repetitions of some series are found and all fields are different, this is
all there is to find.** -/
theorem Finds.exact (h : Finds findings ss) (hn : (trailsOf ss).Nodup) : Exact findings ss := by
  obtain ⟨hnodup, hpair⟩ := List.nodup_flatMap.mp hn
  have hsub := fun s => (repeatedFrom_sublist [] s).subset
  have hrepeated : (ss.flatMap repeated).Nodup :=
    List.nodup_flatMap.mpr ⟨fun s hs => (hnodup s hs).sublist (repeatedFrom_sublist [] s),
      hpair.imp fun hd _ ht ht' => hd (hsub _ ht) (hsub _ ht')⟩
  have hmem : ∀ t, ⟨t, .duplicate⟩ ∈ findings ↔ ∃ s ∈ ss, t ∈ repeated s := fun t => by
    rw [← mem_duplicatesOf, h.mem_iff, List.mem_flatMap]
  have hcount : ∀ s ∈ ss, ∀ k,
      findings.countP (fun f => f.flaw = .duplicate ∧ (f.trail, some k) ∈ s) =
        s.countP (fun e => e.2 = some k) - 1 := by
    intro s hs k
    have hother : ∀ others : List Series, (trailsOf others).Disjoint (s.map Prod.fst) →
        (others.flatMap repeated).countP (fun t => (t, some k) ∈ s) = 0 := by
      refine fun others hd => List.countP_eq_zero.mpr fun t ht hts => ?_
      obtain ⟨s', hs', ht'⟩ := List.mem_flatMap.mp ht
      exact hd (List.mem_flatMap.mpr ⟨s', hs', hsub s' ht'⟩)
        (List.mem_map_of_mem (of_decide_eq_true hts))
    have hown : ∀ e ∈ s, decide ((e.1, some k) ∈ s) = true ↔ e.2 = some k := by
      intro e he
      rw [decide_eq_true_iff]
      constructor
      · exact fun hk => (congrArg Prod.snd (List.inj_on_of_nodup_map (hnodup s hs) he hk rfl))
      · rintro hk
        rwa [← hk]
    obtain ⟨l₁, l₂, rfl⟩ := List.append_of_mem hs
    rw [trailsOf, List.flatMap_append, List.flatMap_cons] at hn
    obtain ⟨-, hrest, hd₁⟩ := List.nodup_append'.mp hn
    obtain ⟨-, -, hd₂⟩ := List.nodup_append'.mp hrest
    have hfound := @countP_duplicatesOf findings fun t => (t, some k) ∈ s
    simp only [decide_eq_true_eq] at hfound
    rw [hfound, h.countP_eq, List.flatMap_append, List.flatMap_cons, List.countP_append,
      List.countP_append, hother l₁ (List.disjoint_of_disjoint_append_right_left hd₁),
      hother l₂ (List.disjoint_symm hd₂), repeated, countP_repeatedFrom hown]
    simp
  refine ⟨?_, ?_, ?_, hcount, ?_⟩
  · refine List.Nodup.of_map (·.trail) ?_
    rw [map_filter_eq]
    exact h.nodup_iff.mpr hrepeated
  · intro t ht
    obtain ⟨s, hs, hts⟩ := (hmem t).mp ht
    exact ⟨s, hs, hsub s hts⟩
  · rintro s hs before t m after rfl
    have ht : t ∈ (before ++ (t, m) :: after).map Prod.fst := by simp
    have hsplit := @mem_repeatedFrom before after [] t m (hnodup _ hs)
    rw [List.map_nil, or_iff_left List.not_mem_nil] at hsplit
    rw [hmem, ← hsplit]
    constructor
    · rintro ⟨s', hs', ht'⟩
      rwa [eq_of_mem_trails hn hs hs' ht (hsub s' ht')]
    · exact fun h => ⟨_, hs, h⟩
  · intro herror s hs
    refine List.nodup_iff_count_le_one.mpr fun k => ?_
    have hnone : findings.countP (fun f => f.flaw = .duplicate ∧ (f.trail, some k) ∈ s) = 0 := by
      refine List.countP_eq_zero.mpr fun f hf hfound => herror f hf ?_
      rw [Finding.severity, (of_decide_eq_true hfound).1]
      rfl
    have hcountP : (s.filterMap Prod.snd).count k = s.countP (fun e => e.2 = some k) := by
      rw [List.count, List.countP_filterMap]
      refine List.countP_congr fun e _ => ?_
      cases e.2 <;> simp
    have hle := hcount s hs k
    omega

end Exact

end Repeated

/-! ## The series of a config -/

/-- The entries of a list, each with one of its fields. -/
def column {α : Type} (trail : Trail) (field : String) (mark : α → Option Mark) (items : List α) :
    Series :=
  items.zipIdx.map fun e => ((trail.index e.2).key field, mark e.1)

/-- The series of the items of a list. -/
def eachSeries {α : Type} (trail : Trail) (series : Trail → α → List Series) (items : List α) :
    List Series :=
  items.zipIdx.flatMap fun e => series (trail.index e.2) e.1

/-- A text is a mark unless it is empty. -/
def filled (s : String) : Option Mark := (nonEmpty s).map .text

/-- The headers of a resource have different names. -/
def resourceSeries (trail : Trail) (r : Resource) : List Series :=
  [column (trail.key "httpHeaders") "name" (fun h => filled h.name) r.httpHeaders]

/-- The partitions of a disk have different labels and numbers. -/
def diskSeries (trail : Trail) (d : Disk) : List Series :=
  [column (trail.key "partitions") "label" (fun p => p.label.map .text) d.partitions,
    column (trail.key "partitions") "number"
      (fun p => if p.number = 0 then none else some (.number p.number)) d.partitions]

/-- The series of the contents of a file. -/
def fileSeries (trail : Trail) (f : File) : List Series :=
  resourceSeries (trail.key "contents") f.contents ++
    eachSeries (trail.key "append") resourceSeries f.append

/-- Files, directories and links have different paths. -/
def nodeSeries (trail : Trail) (s : Storage) : Series :=
  column (trail.key "files") "path" (fun f => filled f.path) s.files ++
    column (trail.key "directories") "path" (fun d => filled d.path) s.directories ++
    column (trail.key "links") "path" (fun l => filled l.path) s.links

/-- The drop-ins of a unit have different names, as far as these are names of drop-ins. -/
def unitSeries (trail : Trail) (u : Unit) : List Series :=
  [column (trail.key "dropins") "name"
    (fun d => if isDropinName d.name then some (.text d.name) else none) u.dropins]

/-- The series of the settings. -/
def settingsSeries (trail : Trail) (s : Settings) : List Series :=
  eachSeries (trail.dotted "config.merge") resourceSeries s.config.merge ++
    resourceSeries (trail.dotted "config.replace") s.config.replace ++
    eachSeries (trail.dotted "security.tls.certificateAuthorities") resourceSeries
      s.security.tls.certificateAuthorities

/-- The series of users and groups. -/
def passwdSeries (trail : Trail) (p : Passwd) : List Series :=
  [column (trail.key "users") "name" (fun u => filled u.name) p.users,
    column (trail.key "groups") "name" (fun g => filled g.name) p.groups]

/-- The series of what is on disks. -/
def storageSeries (trail : Trail) (s : Storage) : List Series :=
  eachSeries (trail.key "disks") diskSeries s.disks ++
    eachSeries (trail.key "luks") (fun t l => resourceSeries (t.key "keyFile") l.keyFile) s.luks ++
    eachSeries (trail.key "files") fileSeries s.files ++
    [nodeSeries trail s] ++
    [column (trail.key "disks") "device" (fun d => filled d.device) s.disks]

/-- The series of services. -/
def systemdSeries (trail : Trail) (s : Systemd) : List Series :=
  eachSeries (trail.key "units") unitSeries s.units ++
    [column (trail.key "units") "name" (fun u => filled u.name) s.units]

/-- The series of a config. -/
def series (c : Config) : List Series :=
  settingsSeries [.key "ignition"] c.ignition ++ passwdSeries [.key "passwd"] c.passwd ++
    storageSeries [.key "storage"] c.storage ++ systemdSeries [.key "systemd"] c.systemd

/-! ## Fields are different -/

/-- Different fields below a trail, and the outlines that they have from there. -/
structure Spread (trail : Trail) (outlines : List Outline) (ts : List Trail) : Prop where
  nodup : ts.Nodup
  below : ∀ t ∈ ts, ∃ u : Trail, t = trail ++ u ∧ u.outline ∈ outlines

section Spread

variable {trail : Trail} {os os' : List Outline} {ts ts' : List Trail}

/-- Fields of different outlines are different. -/
theorem Spread.append (h : Spread trail os ts) (h' : Spread trail os' ts')
    (hd : ∀ o ∈ os, o ∉ os') : Spread trail (os ++ os') (ts ++ ts') where
  nodup := by
    refine List.nodup_append'.mpr ⟨h.nodup, h'.nodup, fun t ht ht' => ?_⟩
    obtain ⟨u, rfl, hu⟩ := h.below t ht
    obtain ⟨u', hsame, hu'⟩ := h'.below _ ht'
    cases List.append_cancel_left hsame
    exact hd _ hu hu'
  below t ht := by
    rcases List.mem_append.mp ht with ht | ht
    · obtain ⟨u, hu, ho⟩ := h.below t ht
      exact ⟨u, hu, List.mem_append_left _ ho⟩
    · obtain ⟨u, hu, ho⟩ := h'.below t ht
      exact ⟨u, hu, List.mem_append_right _ ho⟩

/-- The fields of a part are fields of the whole. -/
theorem Spread.under (trail v : Trail) (h : Spread (trail ++ v) os ts) :
    Spread trail (os.map (v.outline ++ ·)) ts where
  nodup := h.nodup
  below t ht := by
    obtain ⟨u, rfl, ho⟩ := h.below t ht
    refine ⟨v ++ u, List.append_assoc _ _ _, ?_⟩
    rw [Trail.outline_append]
    exact List.mem_map_of_mem ho

/-- The fields of different items are different. -/
theorem spread_items {α : Type} (fields : Trail → α → List Trail)
    (h : ∀ i x, Spread (trail.index i) os (fields (trail.index i) x)) (items : List α) :
    Spread trail (os.map ([none] ++ ·))
      (items.zipIdx.flatMap fun e => fields (trail.index e.2) e.1) where
  nodup := by
    refine List.nodup_flatMap.mpr ⟨fun e _ => (h e.2 e.1).nodup, ?_⟩
    have hindex : items.zipIdx.Pairwise fun e e' => e.2 ≠ e'.2 := by
      refine List.pairwise_map.mp ?_
      rw [List.zipIdx_map_snd]
      exact List.nodup_range'
    refine hindex.imp fun {e e'} hne t ht ht' => hne ?_
    obtain ⟨u, rfl, -⟩ := (h e.2 e.1).below t ht
    obtain ⟨u', hsame, -⟩ := (h e'.2 e'.1).below _ ht'
    rw [Trail.index, Trail.index, List.append_assoc, List.append_assoc] at hsame
    have hsteps := List.append_cancel_left hsame
    exact Segment.index.inj (List.cons.inj hsteps).1
  below t ht := by
    obtain ⟨e, -, ht⟩ := List.mem_flatMap.mp ht
    exact ((h e.2 e.1).under _ [.index e.2]).below t ht

theorem spread_column {α : Type} (field : String) (mark : α → Option Mark) (items : List α) :
    Spread trail [[none, some field]] ((column trail field mark items).map Prod.fst) := by
  have hfield : ∀ i (x : α), Spread (trail.index i) [[some field]] [(trail.index i).key field] :=
    fun i _ => ⟨List.nodup_singleton _,
      List.forall_mem_singleton.mpr ⟨[.key field], rfl, List.mem_singleton_self _⟩⟩
  have hitems := spread_items (fun t _ => [t.key field]) hfield items
  rw [← List.map_eq_flatMap] at hitems
  rw [column, List.map_map]
  exact hitems

theorem spread_each {α : Type} {series : Trail → α → List Series}
    (h : ∀ i x, Spread (trail.index i) os (trailsOf (series (trail.index i) x))) (items : List α) :
    Spread trail (os.map ([none] ++ ·)) (trailsOf (eachSeries trail series items)) := by
  rw [trailsOf, eachSeries, List.flatMap_assoc]
  exact spread_items (fun t x => trailsOf (series t x)) h items

@[simp] theorem trailsOf_singleton (s : Series) : trailsOf [s] = s.map Prod.fst :=
  List.flatMap_singleton _ s

@[simp] theorem trailsOf_cons (s : Series) (ss : List Series) :
    trailsOf (s :: ss) = s.map Prod.fst ++ trailsOf ss :=
  List.flatMap_cons

@[simp] theorem trailsOf_append (ss ss' : List Series) :
    trailsOf (ss ++ ss') = trailsOf ss ++ trailsOf ss' :=
  List.flatMap_append

theorem spread_resource (r : Resource) :
    Spread trail [[some "httpHeaders", none, some "name"]] (trailsOf (resourceSeries trail r)) := by
  rw [resourceSeries, trailsOf_singleton]
  exact (spread_column "name" _ _).under _ [.key "httpHeaders"]

theorem spread_disk (d : Disk) :
    Spread trail [[some "partitions", none, some "label"], [some "partitions", none, some "number"]]
      (trailsOf (diskSeries trail d)) := by
  rw [diskSeries, trailsOf_cons, trailsOf_singleton]
  exact ((spread_column "label" _ _).append (spread_column "number" _ _) (by decide)).under
    _ [.key "partitions"]

theorem spread_file (f : File) :
    Spread trail [[some "contents", some "httpHeaders", none, some "name"],
      [some "append", none, some "httpHeaders", none, some "name"]]
      (trailsOf (fileSeries trail f)) := by
  rw [fileSeries, trailsOf_append]
  exact ((spread_resource _).under _ [.key "contents"]).append
    ((spread_each (fun _ r => spread_resource r) _).under _ [.key "append"]) (by decide)

theorem spread_nodes (s : Storage) :
    Spread trail [[some "files", none, some "path"], [some "directories", none, some "path"],
      [some "links", none, some "path"]] ((nodeSeries trail s).map Prod.fst) := by
  rw [nodeSeries, List.map_append, List.map_append]
  exact (((spread_column "path" _ _).under _ [.key "files"]).append
    ((spread_column "path" _ _).under _ [.key "directories"]) (by decide)).append
      ((spread_column "path" _ _).under _ [.key "links"]) (by decide)

theorem spread_unit (u : Unit) :
    Spread trail [[some "dropins", none, some "name"]] (trailsOf (unitSeries trail u)) := by
  rw [unitSeries, trailsOf_singleton]
  exact (spread_column "name" _ _).under _ [.key "dropins"]

theorem spread_settings (s : Settings) :
    Spread trail [[some "config", some "merge", none, some "httpHeaders", none, some "name"],
      [some "config", some "replace", some "httpHeaders", none, some "name"],
      [some "security", some "tls", some "certificateAuthorities", none, some "httpHeaders", none,
        some "name"]] (trailsOf (settingsSeries trail s)) := by
  have hmerge : trail.dotted "config.merge" = trail ++ [.key "config", .key "merge"] :=
    congrArg (trail ++ ·) (by decide)
  have hreplace : trail.dotted "config.replace" = trail ++ [.key "config", .key "replace"] :=
    congrArg (trail ++ ·) (by decide)
  have hauthorities : trail.dotted "security.tls.certificateAuthorities" =
      trail ++ [.key "security", .key "tls", .key "certificateAuthorities"] :=
    congrArg (trail ++ ·) (by decide)
  rw [settingsSeries, trailsOf_append, trailsOf_append, hmerge, hreplace, hauthorities]
  exact (((spread_each (fun _ r => spread_resource r) _).under _ [.key "config", .key "merge"]).append
    ((spread_resource _).under _ [.key "config", .key "replace"]) (by decide)).append
      ((spread_each (fun _ r => spread_resource r) _).under
        _ [.key "security", .key "tls", .key "certificateAuthorities"]) (by decide)

theorem spread_passwd (p : Passwd) :
    Spread trail [[some "users", none, some "name"], [some "groups", none, some "name"]]
      (trailsOf (passwdSeries trail p)) := by
  rw [passwdSeries, trailsOf_cons, trailsOf_singleton]
  exact ((spread_column "name" _ _).under _ [.key "users"]).append
    ((spread_column "name" _ _).under _ [.key "groups"]) (by decide)

theorem spread_storage (s : Storage) :
    Spread trail [[some "disks", none, some "partitions", none, some "label"],
      [some "disks", none, some "partitions", none, some "number"],
      [some "luks", none, some "keyFile", some "httpHeaders", none, some "name"],
      [some "files", none, some "contents", some "httpHeaders", none, some "name"],
      [some "files", none, some "append", none, some "httpHeaders", none, some "name"],
      [some "files", none, some "path"], [some "directories", none, some "path"],
      [some "links", none, some "path"], [some "disks", none, some "device"]]
      (trailsOf (storageSeries trail s)) := by
  rw [storageSeries, trailsOf_append, trailsOf_append, trailsOf_append, trailsOf_append,
    trailsOf_singleton, trailsOf_singleton]
  have hdisks := (spread_each (fun _ d => spread_disk d) s.disks).under trail
    [.key "disks"]
  have hluks := (@spread_each _ _ Luks (fun t l => resourceSeries (t.key "keyFile") l.keyFile)
    (fun _ l => (spread_resource l.keyFile).under _ [.key "keyFile"]) s.luks).under trail
      [.key "luks"]
  have hfiles := (spread_each (fun _ f => spread_file f) s.files).under trail
    [.key "files"]
  have hdevices := (spread_column "device" (fun d => filled d.device) s.disks).under trail
    [.key "disks"]
  exact (((hdisks.append hluks (by decide)).append hfiles (by decide)).append (spread_nodes s)
    (by decide)).append hdevices (by decide)

theorem spread_systemd (s : Systemd) :
    Spread trail [[some "units", none, some "dropins", none, some "name"],
      [some "units", none, some "name"]] (trailsOf (systemdSeries trail s)) := by
  rw [systemdSeries, trailsOf_append, trailsOf_singleton]
  exact ((spread_each (fun _ u => spread_unit u) _).under _ [.key "units"]).append
    ((spread_column "name" _ _).under _ [.key "units"]) (by decide)

/-- **All fields of the series of a config are different.** -/
theorem nodup_trailsOf_series (c : Config) : (trailsOf (series c)).Nodup := by
  rw [series, trailsOf_append, trailsOf_append, trailsOf_append]
  have hsettings := (spread_settings c.ignition).under [] [.key "ignition"]
  have hpasswd := (spread_passwd c.passwd).under [] [.key "passwd"]
  have hstorage := (spread_storage c.storage).under [] [.key "storage"]
  have hsystemd := (spread_systemd c.systemd).under [] [.key "systemd"]
  exact (((hsettings.append hpasswd (by decide)).append hstorage (by decide)).append hsystemd
    (by decide)).nodup

end Spread

end Provision.Ignition
