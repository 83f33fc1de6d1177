import Provision.Proofs.Translator.Steps
import Provision.Proofs.Trees
import Provision.Source.Translate

/-!
# What may stop the shared sections

Files that are named may be missing or unreadable, and what they hold may have no place in the
document. Nothing else is reported on the way, and each such report is an error at a place of the
source.

* `Problem.stops`: the problems that may come up.
* `Entry.Stops`: an entry about one of them.
* `Source.stops_translate`: all that is reported for the sections is such an entry.
-/

set_option autoImplicit false

namespace Provision

/-! ## Problems on the way -/

/-- Whether a problem may come up while a document is made. -/
def Problem.stops : Problem → Bool
  | .noFilesDirectory | .outsideFilesDirectory | .specialFile | .treeNotDirectory
  | .unreadable .. | .rendering .. | .nodeExists | .undecodable _ => true
  | _ => false

/-- An error about such a problem, at a place of the source. -/
structure Entry.Stops (e : Entry) : Prop where
  severity : e.severity = .error
  schema : e.path.schema = .source
  problem : e.problem.stops = true

/-- Every entry of a report is such an error. -/
def Report.Stops (r : Report) : Prop := ∀ e ∈ r, e.Stops

namespace Report

theorem stops_nil : Stops [] := List.forall_mem_nil _

theorem stops_append {r r' : Report} (h : r.Stops) (h' : r'.Stops) : (r ++ r').Stops :=
  List.forall_mem_append.mpr ⟨h, h'⟩

theorem stops_sourceError (trail : Trail) {problem : Problem} (h : problem.stops = true) :
    (sourceError trail problem).Stops :=
  List.forall_mem_singleton.mpr ⟨rfl, rfl, h⟩

end Report

namespace Workspace

variable {w : Workspace} {problem : Problem}

theorem stops_resolveLocal {path : String} (h : w.resolveLocal path = .error problem) :
    problem.stops = true := by
  rw [resolveLocal] at h
  split at h
  · cases h
    rfl
  · dsimp only at h
    split at h <;> cases h
    rfl

theorem stops_read {path : String} (h : w.read path = .error problem) : problem.stops = true := by
  rw [read] at h
  cases hr : w.files.read path with
  | error fault =>
    rw [hr] at h
    cases h
    rfl
  | ok data =>
    rw [hr] at h
    cases h

theorem stops_render {name : String} {contents : Text.Bytes}
    (h : w.render name contents = .error problem) : problem.stops = true := by
  rw [render] at h
  split at h
  · split at h <;> cases h
    rfl
  · cases h

/-- What goes wrong with one of two steps goes wrong with both. -/
theorem stops_bind {α β : Type} {x : Except Problem α} {f : α → Except Problem β}
    (hx : ∀ p, x = .error p → p.stops = true) (hf : ∀ a p, f a = .error p → p.stops = true)
    (h : x >>= f = .error problem) : problem.stops = true := by
  cases x with
  | error p =>
    cases h
    exact hx _ rfl
  | ok a => exact hf a _ h

theorem stops_readLocal {path : String} (h : w.readLocal path = .error problem) :
    problem.stops = true :=
  stops_bind (fun _ => stops_resolveLocal) (fun _ _ => stops_read) h

end Workspace

/-! ## Rules -/

namespace Contents

theorem stops_assemble (origin place : Trail) (members : List Member) :
    (assemble origin place members).report.Stops := by
  rw [assemble]
  dsimp only
  split <;> exact Report.stops_nil

theorem stops_body? {w : Workspace} {origin : Trail} {r : Source.Resource} {field : String}
    {problem : Problem} (h : body? w origin r = some (field, .error problem)) :
    problem.stops = true := by
  rw [body?] at h
  split at h
  · cases h
  · split at h
    · obtain ⟨-, h⟩ := Prod.mk.inj (Option.some.inj h)
      exact Workspace.stops_render h
    · obtain ⟨-, h⟩ := Prod.mk.inj (Option.some.inj h)
      exact Workspace.stops_bind (fun _ => Workspace.stops_readLocal)
        (fun _ _ => Workspace.stops_render) h
    · cases h

/-- All that is reported of contents stops them from being made. -/
theorem stops_contents (w : Workspace) (value : Json) (origin place : Trail) :
    (translate w value origin place).report.Stops := by
  rw [translate]
  split
  · exact Report.stops_sourceError _ rfl
  · rw [ofResource]
    split
    · exact stops_assemble _ _ _
    · exact stops_assemble _ _ _
    · next hbody => exact Report.stops_sourceError _ (stops_body? hbody)

end Contents

namespace Source

variable {w : Workspace}

theorem stops_unitRule {m : Translated (Option Json)} (h : m.report.Stops) (x : Json)
    (origin place : Trail) : (unitRule w m x origin place).report.Stops := by
  rw [unitRule]
  split
  · exact h
  · dsimp only
    split
    · next hread =>
      exact Report.stops_append h (Report.stops_sourceError _
        (Workspace.stops_bind (fun _ => Workspace.stops_readLocal)
          (fun _ _ => Workspace.stops_render) hread))
    · split <;> exact h

theorem stops_addKeys {place : Trail} {hadKeys : Bool} {keys : Keys} (h : keys.report.Stops)
    (entry : Json × Trail) : (addKeys w place hadKeys keys entry).report.Stops := by
  rw [addKeys]
  split
  · split
    · next hread =>
      exact Report.stops_append h (Report.stops_sourceError _ (Workspace.stops_readLocal hread))
    · exact h
  · exact h

theorem stops_foldl_addKeys {place : Trail} {hadKeys : Bool} (entries : List (Json × Trail)) :
    ∀ keys : Keys, keys.report.Stops →
      (entries.foldl (addKeys w place hadKeys) keys).report.Stops := by
  induction entries with
  | nil => exact fun _ h => h
  | cons e rest ih => exact fun keys h => ih _ (stops_addKeys h e)

theorem stops_userRule {m : Translated (Option Json)} (h : m.report.Stops) (x : Json)
    (origin place : Trail) : (userRule w m x origin place).report.Stops := by
  rw [userRule]
  split
  · exact h
  · dsimp only
    split
    · exact stops_foldl_addKeys _ _ h
    · split <;> exact stops_foldl_addKeys _ _ h

theorem rulesReport (w : Workspace) : (translator w).RulesReport Entry.Stops := by
  intro origin rule hr m x place hm
  obtain ⟨⟨pattern, rule'⟩, hfind, rfl⟩ := Option.map_eq_some_iff.mp hr
  rcases List.mem_append.mp (List.mem_of_find?_eq_some hfind) with h | h
  · obtain ⟨field, -, he⟩ := List.mem_map.mp h
    cases he
    exact Contents.stops_contents w x origin place
  · simp only [List.mem_cons, List.not_mem_nil, or_false] at h
    rcases h with h | h | h <;> cases h
    · exact stops_unitRule hm x origin place
    · exact stops_unitRule hm x origin place
    · exact stops_userRule hm x origin place

end Source

/-! ## Trees -/

namespace Trees

variable {w : Workspace} {d : Draft} {origin : Trail}

theorem stops_error (h : d.report.Stops) (trail : Trail) {problem : Problem}
    (hp : problem.stops = true) : (d.error trail problem).report.Stops :=
  Report.stops_append h (Report.stops_sourceError trail hp)

theorem stops_addFile (h : d.report.Stops) (localPath path : String) (mode : Nat) :
    (addFile w origin localPath path mode d).report.Stops := by
  have hw := fileWritten_addFile w origin localPath path mode d
  generalize addFile w origin localPath path mode d = d' at hw ⊢
  cases hw with
  | taken => exact stops_error h _ rfl
  | unread hr =>
    exact stops_error h _ (Workspace.stops_bind (fun _ => Workspace.stops_read)
      (fun _ _ => Workspace.stops_render) hr)
  | new =>
    rw [Draft.report_push]
    exact h
  | filled => exact h

theorem stops_addLink (h : d.report.Stops) (path target : String) :
    (addLink origin path target d).report.Stops := by
  have hw := linkWritten_addLink origin path target d
  generalize addLink origin path target d = d' at hw ⊢
  cases hw with
  | taken => exact stops_error h _ rfl
  | new =>
    rw [Draft.report_push]
    exact h
  | filled => exact h

theorem stops_addNode (h : d.report.Stops) (root destination : String)
    (entry : List String × Files.Node) : (addNode w origin root destination d entry).report.Stops := by
  rw [addNode]
  split
  · exact stops_addFile h _ _ _
  · exact stops_addLink h _ _
  · exact stops_error h _ rfl

theorem stops_foldl {α : Type} {f : Draft → α → Draft}
    (h : ∀ d e, d.report.Stops → (f d e).report.Stops) (entries : List α) :
    ∀ d : Draft, d.report.Stops → (entries.foldl f d).report.Stops := by
  induction entries with
  | nil => exact fun _ hd => hd
  | cons e rest ih => exact fun d hd => ih _ (h d e hd)

theorem stops_addTree (h : d.report.Stops) (tree : Source.Tree) :
    (addTree w d tree origin).report.Stops := by
  rw [addTree]
  split
  · exact h
  dsimp only
  split
  · next hopened =>
    refine stops_error h _ (Workspace.stops_bind (fun _ => Workspace.stops_resolveLocal)
      (fun root p hp => Workspace.stops_bind (fun p hp => ?_) (fun node p hp => ?_) hp) hopened)
    · cases hl : w.files.locate root with
      | error fault =>
        rw [hl] at hp
        cases hp
        rfl
      | ok node =>
        rw [hl] at hp
        cases hp
    · split at hp <;> cases hp
      rfl
  · exact stops_foldl (fun _ e hd => stops_addNode hd _ _ e) _ d h

theorem stops_expand (h : d.report.Stops) (trees : List Source.Tree) (start : Trail) :
    (expand w trees start d).report.Stops := by
  rw [expand]
  exact stops_foldl (fun _ e hd => stops_addTree hd e.1) _ d h

end Trees

/-! ## The sections -/

/-- No problem comes up with units for filesystems. -/
theorem MountUnit.report_units (filesystems : List Source.Filesystem) (start : Trail) :
    (units filesystems start).report = [] := by
  rw [units]
  dsimp only
  split <;> rfl

/-- **All that is reported for the shared sections stops them from being made.** -/
theorem Source.stops_translate (w : Workspace) (c : Source.Config) :
    (translate w c).report.Stops := by
  have hexpanded : (Trees.expand w c.storage.trees []
      (((translator w).translate (Config.codec.write c)).map (·.getD (.obj [])))).report.Stops := by
    refine Trees.stops_expand ?_ _ _
    rw [Translated.report_map]
    exact Translator.report_translateAt (rulesReport w) [] [] _
  rw [translate]
  split
  · rw [Merge.merge, MountUnit.report_units]
    exact hexpanded
  · exact hexpanded

end Provision
