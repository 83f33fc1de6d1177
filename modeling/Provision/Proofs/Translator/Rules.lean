import Provision.Proofs.Filter
import Provision.Proofs.Translator
import Provision.Proofs.Translator.Origins
import Provision.Proofs.Translator.Walk

/-!
# Translations with rules

A rule may leave a part out, make something else of it, or go on from what the walk makes of it. If
whatever a rule makes comes with origins for all of it, the same holds of the whole document,
wherever rules apply, but for one case: an item of which its rule makes nothing cannot be left out
of its list, and what stands for it then may have content, for which nobody has recorded an origin.

* `Provenance.missingAt_mono`: with more origins, no more parts lack one.
* `Translator.RulesCover`: what rules make has origins.
* `Translator.GivesUp`: a rule makes nothing of a node that has content in a list.
* `Translator.mem_missing_translate`: only what stands for such items lacks origins.

All that is found in a part is found by the rules of the nodes in it that are not left out. If each
rule adds to what is found below its node, the report is made of what the rules add, node by node.

* `Translator.Adds`: what rules add to what is found below their nodes.
* `Translator.report_perm`: the report holds what is added at each node that is kept, once each.
* `Translator.mem_report_iff`, `Translator.nodup_paths`: so its entries are those that some node adds,
  and no two of them are about one place if no node adds two about one place.
-/

set_option autoImplicit false

namespace Provision

namespace Provenance

section Missing

variable {p p' : Provenance} {q : Trail}

theorem unknown_mono (h : (p.find? q).isSome = true → (p'.find? q).isSome = true) {here : Trail}
    (hq : q ∈ p'.unknown here) : q ∈ p.unknown here := by
  rw [mem_unknown_iff] at hq ⊢
  obtain ⟨rfl, hne, hnone⟩ := hq
  refine ⟨rfl, hne, Option.not_isSome_iff_eq_none.mp fun hsome => ?_⟩
  rw [hnone] at h
  cases h hsome

mutual

/-- **With more origins, no more parts lack one.** -/
theorem missingAt_mono (h : (p.find? q).isSome = true → (p'.find? q).isSome = true)
    {here : Trail} : (x : Json) → q ∈ p'.missingAt here x → q ∈ p.missingAt here x
  | .null => id
  | .arr items => by
    rw [missingAt, missingAt]
    split
    · exact id
    · rw [List.mem_append, List.mem_append]
      exact Or.imp (unknown_mono h) (missingItems_mono h 0 items)
  | .obj members => by
    rw [missingAt, missingAt]
    split
    · exact id
    · rw [List.mem_append, List.mem_append]
      exact Or.imp (unknown_mono h) (missingMembers_mono h members)
  | .str s => by
    rw [missingAt, missingAt]
    split
    · exact id
    · exact unknown_mono h
  | .bool _ | .num _ => unknown_mono h

theorem missingItems_mono (h : (p.find? q).isSome = true → (p'.find? q).isSome = true)
    {here : Trail} : (position : Nat) → (items : List Json) →
      q ∈ p'.missingItems here position items → q ∈ p.missingItems here position items
  | _, [] => id
  | position, x :: rest => by
    rw [missingItems, missingItems, List.mem_append, List.mem_append]
    exact Or.imp (missingAt_mono h x) (missingItems_mono h (position + 1) rest)

theorem missingMembers_mono (h : (p.find? q).isSome = true → (p'.find? q).isSome = true)
    {here : Trail} : (members : List (String × Json)) →
      q ∈ p'.missingMembers here members → q ∈ p.missingMembers here members
  | [] => id
  | (_, x) :: rest => by
    rw [missingMembers, missingMembers, List.mem_append, List.mem_append]
    exact Or.imp (missingAt_mono h x) (missingMembers_mono h rest)

end

/-- What lacks an origin in a value lies at it or below it, and the value has content. -/
theorem of_mem_missingAt {here : Trail} {x : Json} (hx : x.isDistinct = true)
    (hq : q ∈ p.missingAt here x) : here <+: q ∧ x.isEmpty = false := by
  obtain ⟨u, y, hy, hne, rfl, -⟩ := (mem_missingAt_iff p here x hx).mp hq
  refine ⟨List.prefix_append _ _, Bool.eq_false_iff.mpr fun hempty => ?_⟩
  rw [Json.isEmpty_of_at hempty hy] at hne
  cases hne

/-- What lacks an origin in a value that has one lies below it. -/
theorem mem_missingAt_known {here : Trail} {x : Json} (h : p.unknown here = [])
    (hq : q ∈ p.missingAt here x) :
    (∃ items, x = .arr items ∧ q ∈ p.missingItems here 0 items) ∨
      ∃ members, x = .obj members ∧ q ∈ p.missingMembers here members := by
  cases x with
  | arr items =>
    rw [missingAt, h] at hq
    split at hq
    · cases hq
    · exact .inl ⟨items, rfl, hq⟩
  | obj members =>
    rw [missingAt, h] at hq
    split at hq
    · cases hq
    · exact .inr ⟨members, rfl, hq⟩
  | str s =>
    rw [missingAt, h] at hq
    split at hq <;> cases hq
  | bool | num =>
    change q ∈ p.unknown here at hq
    rw [h] at hq
    cases hq
  | null => cases hq

end Missing

end Provenance

namespace Translator

variable {t : Translator} {document : Json}

/-- Whatever the rule of a node of a document makes of it has origins for all of it. It may rely on
what the walk makes of the node, or not. -/
def RulesCover (t : Translator) (document : Json) : Prop :=
  ∀ o x rule v, document.at? o = some x → t.rule? o = some rule →
    (rule (t.walk o (t.rename o) x) x o (t.rename o)).value = some v →
      (rule (t.walk o (t.rename o) x) x o (t.rename o)).provenance.missingAt (t.rename o) v = []

/-- The rule of a node makes nothing of it, although what would stand for it in a list has content:
it is a scalar or a list, and is not empty. -/
def GivesUp (t : Translator) (document : Json) (o : Trail) : Prop :=
  ∃ x rule, document.at? o = some x ∧ (vacant x).isEmpty = false ∧ t.rule? o = some rule ∧
    (rule (t.walk o (t.rename o) x) x o (t.rename o)).value = none

/-- A place is in what stands for an item that is given up. -/
def InGivenUp (t : Translator) (document : Json) (q : Trail) : Prop :=
  ∃ o i, t.GivesUp document (Trail.index o i) ∧ t.rename (o.index i) <+: q

theorem rename_concat (t : Translator) (o : Trail) (s : Segment) :
    t.rename (o ++ [s]) = t.rename o ++ [t.renameStep s] :=
  List.map_append

theorem isDistinct_vacant {x : Json} (h : x.isDistinct = true) : (vacant x).isDistinct = true := by
  cases x <;> first | exact h | rfl

/-! ## One step -/

section Written

variable {origin place : Trail} {r : Translated Json} {v : Json}

/-- What is written is the value, with content, and has an origin unless it is the root. -/
theorem written_eq_some (h : (written origin place r).value = some v) :
    v = r.value ∧ v.isEmpty = false ∧ (written origin place r).provenance.unknown place = [] := by
  rw [written] at h ⊢
  split at h
  · cases h
  · next hne =>
    cases h
    rw [if_neg hne]
    refine ⟨rfl, Bool.eq_false_iff.mpr hne, ?_⟩
    dsimp only
    split
    · next hroot => rw [Provenance.unknown, hroot]; rfl
    · rw [Provenance.unknown, Provenance.find?_add]
      simp

/-- Nothing is made of a part by the walk only if nothing would stand for it in a list. -/
theorem isEmpty_vacant_of_walk {x : Json} (h : (t.walk origin place x).value = none) :
    (vacant x).isEmpty = true := by
  have hwritten : ∀ r : Translated Json, (written origin place r).value = none →
      r.value.isEmpty = true := fun r hr => by
    rw [written] at hr
    split at hr
    · assumption
    · cases hr
  cases x with
  | arr items =>
    have hempty := hwritten _ h
    cases items with
    | nil => rfl
    | cons y rest =>
      rw [walkItems] at hempty
      cases hempty
  | obj => rfl
  | _ => exact hwritten _ h

end Written

/-- Only what stands for items that are given up lacks origins in what is made of a part. -/
def Excused (t : Translator) (document : Json) (o : Trail) (x : Json) : Prop :=
  ∀ v, (t.translateAt o (t.rename o) x).value = some v →
    ∀ q ∈ (t.translateAt o (t.rename o) x).provenance.missingAt (t.rename o) v,
      t.InGivenUp document q

/-- What stands for an item lacks origins only if the item is given up, or where what is made of it
does. -/
theorem Excused.item {o : Trail} {i : Nat} {y : Json} (h : t.Excused document (o.index i) y)
    (hd : document.isDistinct = true) (hy : document.at? (o.index i) = some y) {q : Trail}
    (hq : q ∈ (t.translateAt (o.index i) (t.rename (o.index i)) y).provenance.missingAt
      (t.rename (o.index i)) (made y (t.translateAt (o.index i) (t.rename (o.index i)) y))) :
    t.InGivenUp document q := by
  rw [made] at hq
  cases hmade : (t.translateAt (o.index i) (t.rename (o.index i)) y).value with
  | some v =>
    rw [hmade] at hq
    exact h v hmade q hq
  | none =>
    rw [hmade, Option.getD_none] at hq
    obtain ⟨hbelow, hcontent⟩ :=
      Provenance.of_mem_missingAt (isDistinct_vacant (Json.isDistinct_of_at hd hy)) hq
    refine ⟨o, i, ?_, hbelow⟩
    rw [translateAt_eq] at hmade
    cases hrule : t.rule? (o.index i) with
    | none =>
      rw [hrule] at hmade
      rw [isEmpty_vacant_of_walk hmade] at hcontent
      cases hcontent
    | some rule =>
      rw [hrule] at hmade
      exact ⟨y, rule, hy, hcontent, hrule, hmade⟩

/-- **What the walk makes of a part lacks origins only where what is made of its items and members
does**, or what stands for its items. -/
theorem inGivenUp_walk {x : Json} {o : Trail} (hd : document.isDistinct = true)
    (hx : document.at? o = some x)
    (ih : ∀ s y, x.child? s = some y → t.Excused document (o ++ [s]) y)
    {v : Json} (hv : (t.walk o (t.rename o) x).value = some v) {q : Trail}
    (hq : q ∈ (t.walk o (t.rename o) x).provenance.missingAt (t.rename o) v) :
    t.InGivenUp document q := by
  cases x with
  | arr items =>
    obtain ⟨hvalue, -, hunknown⟩ := written_eq_some hv
    rcases Provenance.mem_missingAt_known hunknown hq with ⟨list, hlist, hq⟩ | ⟨_, hobj, -⟩
    · cases hvalue.symm.trans hlist
      obtain ⟨i, w, hw, hq⟩ := (Provenance.mem_missingItems_iff _ _ _ _ _).mp hq
      rw [getElem?_walkItems] at hw
      obtain ⟨y, hy, rfl⟩ := Option.map_eq_some_iff.mp hw
      rw [Nat.zero_add] at hq
      have hplace : (t.rename o).index i = t.rename (o.index i) :=
        (t.rename_concat o (.index i)).symm
      have hnode : document.at? (o.index i) = some y := by
        rw [Trail.index, Json.at?_append, hx]
        exact @Json.at?_cons_of_child (.index i) (.arr items) y hy []
      rw [hplace] at hq
      refine Excused.item (ih (.index i) y hy) hd hnode
        (Provenance.missingAt_mono (fun h => ?_) _ hq)
      -- The list has the origins that are recorded for the item.
      refine isSome_written (isSome_walkItems hy ?_)
      rwa [Nat.zero_add, hplace]
    · cases hvalue.symm.trans hobj
  | obj members =>
    obtain ⟨hvalue, -, hunknown⟩ := written_eq_some hv
    rcases Provenance.mem_missingAt_known hunknown hq with ⟨_, hlist, -⟩ | ⟨made, hmade, hq⟩
    · cases hvalue.symm.trans hlist
    · cases hvalue.symm.trans hmade
      obtain ⟨⟨n, w⟩, hmem, hq⟩ := (Provenance.mem_missingMembers_iff _ _ _ _).mp hq
      rcases mem_walkMembers hmem with hdone | ⟨⟨k, y⟩, hy, hs, rfl, hw, -⟩
      · cases hdone
      · have hplace : (t.rename o).key (t.nameOf k) = t.rename (o.key k) :=
          (t.rename_concat o (.key k)).symm
        have hkeys := (Json.isDistinct_obj.mp (Json.isDistinct_of_at hd hx)).1
        rw [hplace] at hw hq
        refine ih (.key k) y ((Json.lookup_eq_some_iff hkeys).mpr hy) w hw q
          (Provenance.missingAt_mono (fun h => ?_) _ hq)
        -- The object has the origins that are recorded for the member.
        refine isSome_written (isSome_walkMembers (.inr ⟨(k, y), hy, hs, ?_⟩))
        rwa [hplace]
  | _ =>
    obtain ⟨hvalue, -, hunknown⟩ := written_eq_some hv
    rcases Provenance.mem_missingAt_known hunknown hq with ⟨_, hlist, -⟩ | ⟨_, hobj, -⟩
    · cases hvalue.symm.trans hlist
    · cases hvalue.symm.trans hobj

/-! ## Documents -/

/-- **Only what stands for items that are given up lacks origins in what is made of a node.** -/
theorem excused_translateAt (hd : document.isDistinct = true) (h : t.RulesCover document)
    (x : Json) : ∀ o, document.at? o = some x → t.Excused document o x := by
  induction x using Json.child_induction with
  | step x ih =>
    intro o hx v hv q hq
    rw [translateAt_eq] at hv hq
    cases hrule : t.rule? o with
    | some rule =>
      rw [hrule] at hv hq
      have hcovers := h o x rule v hx hrule hv
      exact absurd (hcovers ▸ hq) List.not_mem_nil
    | none =>
      rw [hrule] at hv hq
      refine inGivenUp_walk hd hx (fun s y hy => ih s y hy (o ++ [s]) ?_) hv hq
      rw [Json.at?_append, hx]
      exact Json.at?_cons_of_child hy []

/-- **With rules, only what stands for items that are given up lacks origins.** Let each rule,
called at a node of a document, make nothing, or something with origins for all of it. Then every
part with content of what is made of the document has an origin, unless it is in what stands for an
item of which its rule makes nothing, though it is no object and not empty. Keys may get the same
new names. -/
theorem mem_missing_translate (hd : document.isDistinct = true) (h : t.RulesCover document)
    {v : Json} (hv : (t.translate document).value = some v) {q : Trail}
    (hq : q ∈ (t.translate document).provenance.missing v) :
    ∃ o i, t.GivesUp document (Trail.index o i) ∧ t.rename (o.index i) <+: q :=
  excused_translateAt hd h document [] rfl v hv q hq

/-- Makes nothing of names, and doubles the size. -/
def dropping : Translator where
  rules := [(.ofText "names.*", fun _ _ _ _ => ⟨none, {}, []⟩),
    (.ofText "size", fun _ _ origin place =>
      ⟨some (.num (.int 2)), ({} : Provenance).add origin place, []⟩)]

/-- A document with a name and a size. -/
def dropped : Json := .obj [("names", .arr [.str "old"]), ("size", .num (.int 1))]

theorem rulesCover_dropping : dropping.RulesCover dropped := by
  intro o x rule v _ hrule hv
  obtain ⟨⟨p, r⟩, hfind, rfl⟩ := Option.map_eq_some_iff.mp hrule
  rcases List.mem_cons.mp (List.mem_of_find?_eq_some hfind) with hnames | hsize
  · cases hnames
    cases hv
  · cases List.mem_singleton.mp hsize
    cases hv
    change Provenance.unknown _ _ = []
    rw [Provenance.unknown, Provenance.find?_add]
    simp

/-- **The name of which its rule makes nothing stays where it was, and has no origin**, although
nothing that rules make lacks one. -/
theorem dropped_uncovered : dropping.RulesCover dropped ∧
    (dropping.translate dropped).value =
      some (.obj [("names", .arr [.str "old"]), ("size", .num (.int 2))]) ∧
    (dropping.translate dropped).provenance.missing
      (.obj [("names", .arr [.str "old"]), ("size", .num (.int 2))]) =
        [[.key "names", .index 0]] :=
  ⟨rulesCover_dropping, by decide, by decide⟩

theorem dropped_missing : dropped.isDistinct = true ∧ dropping.RulesCover dropped ∧
    ∃ o i, dropping.GivesUp dropped (Trail.index o i) ∧
      dropping.rename (o.index i) <+: [.key "names", .index 0] :=
  ⟨by decide, rulesCover_dropping,
    @mem_missing_translate dropping dropped (by decide) rulesCover_dropping
      (.obj [("names", .arr [.str "old"]), ("size", .num (.int 2))]) (by decide)
      [.key "names", .index 0] (by decide)⟩

/-! ## What rules find -/

section Found

variable {own : Trail → Json → Report}

/-- The rules add entries to what is found below their nodes, whatever the places are. -/
def Adds (t : Translator) (own : Trail → Json → Report) : Prop :=
  ∀ origin place x,
    (t.translateAt origin place x).report = (t.walk origin place x).report ++ own origin x

/-- What is added at a node of a part, unless it is left out. -/
def addedAt (t : Translator) (own : Trail → Json → Report) (origin : Trail) (n : Trail × Json) :
    Report :=
  if t.isKept origin n.1 then own (origin ++ n.1) n.2 else []

/-- What is added in a member is added in the object, if the member is not left out. -/
theorem flatMap_addedAt (s : Segment) (origin : Trail) (nodes : List (Trail × Json)) :
    (nodes.map fun n => (s :: n.1, n.2)).flatMap (t.addedAt own origin) =
      if t.leadsOn origin s then nodes.flatMap (t.addedAt own (origin ++ [s])) else [] := by
  rw [List.flatMap_map]
  have hstep : ∀ n : Trail × Json, t.addedAt own origin (s :: n.1, n.2) =
      if t.leadsOn origin s then t.addedAt own (origin ++ [s]) n else [] := fun n => by
    rw [addedAt, addedAt, isKept, List.append_cons]
    cases t.leadsOn origin s <;> simp
  simp only [hstep]
  split <;> simp

mutual

/-- **The report of a part holds what rules add at the nodes that are kept**, once each. -/
theorem report_perm (h : t.Adds own) (origin place : Trail) : (x : Json) →
    (t.translateAt origin place x).report.Perm (x.nodes.flatMap (t.addedAt own origin))
  | .arr items => by
    rw [h, walk, report_written, Json.nodes, List.flatMap_cons, addedAt, isKept, List.append_nil]
    exact List.perm_append_comm.trans
      (List.Perm.append_left _ (report_walkItems_perm h origin place 0 items))
  | .obj members => by
    rw [h, walk, report_written, Json.nodes, List.flatMap_cons, addedAt, isKept, List.append_nil]
    exact List.perm_append_comm.trans
      (List.Perm.append_left _ (report_walkMembers_perm h origin place members ⟨[], {}, []⟩))
  | .null | .bool _ | .num _ | .str _ => by
    simp [h _ _ _, walk, report_written, Json.nodes, addedAt, isKept]

theorem report_walkItems_perm (h : t.Adds own) (origin place : Trail) :
    (position : Nat) → (items : List Json) →
      (t.walkItems origin place position items).report.Perm
        ((Json.itemNodes position items).flatMap (t.addedAt own origin))
  | _, [] => by
    rw [walkItems]
    exact List.Perm.refl _
  | position, x :: rest => by
    rw [walkItems, Json.itemNodes, List.flatMap_append, flatMap_addedAt]
    exact (report_perm h _ _ x).append (report_walkItems_perm h origin place (position + 1) rest)

theorem report_walkMembers_perm (h : t.Adds own) (origin place : Trail) :
    (members : List (String × Json)) → (done : Translated (List (String × Json))) →
      (t.walkMembers origin place members done).report.Perm
        (done.report ++ (Json.memberNodes members).flatMap (t.addedAt own origin))
  | [], done => by
    rw [walkMembers, Json.memberNodes, List.flatMap_nil, List.append_nil]
  | (k, x) :: rest, done => by
    rw [Json.memberNodes, List.flatMap_append, flatMap_addedAt, leadsOn]
    cases hs : t.isSkipped (origin.key k) with
    | true =>
      rw [walkMembers, if_pos hs]
      exact report_walkMembers_perm h origin place rest done
    | false =>
      rw [walkMembers_cons hs, ← List.append_assoc]
      exact (report_walkMembers_perm h origin place rest _).trans
        (((report_perm h _ _ x).append_left _).append_right _)

end

variable {origin place : Trail} {x : Json}

/-- **What is found is what some node adds** that is kept. -/
theorem mem_report_iff (h : t.Adds own) (hx : x.isDistinct = true) {e : Entry} :
    e ∈ (t.translateAt origin place x).report ↔ ∃ u y, x.at? u = some y ∧
      t.isKept origin u = true ∧ e ∈ own (origin ++ u) y := by
  rw [(report_perm h origin place x).mem_iff, List.mem_flatMap]
  constructor
  · rintro ⟨⟨u, y⟩, hn, he⟩
    rw [addedAt] at he
    split at he
    · next hk => exact ⟨u, y, (Json.mem_nodes_iff hx).mp hn, hk, he⟩
    · cases he
  · rintro ⟨u, y, hy, hk, he⟩
    exact ⟨(u, y), (Json.mem_nodes_iff hx).mpr hy, by rwa [addedAt, if_pos hk]⟩

/-- **No two entries are about one place** if this is so at every node, and each entry says which
node it is about. -/
theorem nodup_paths (h : t.Adds own) (hx : x.isDistinct = true) (owner : Path → Trail)
    (howner : ∀ o y, ∀ e ∈ own o y, owner e.path = o)
    (hown : ∀ o y, ((own o y).map Entry.path).Nodup) :
    ((t.translateAt origin place x).report.map Entry.path).Nodup := by
  rw [((report_perm h origin place x).map _).nodup_iff, List.map_flatMap, List.nodup_flatMap]
  have hadded : ∀ n, ∀ e ∈ t.addedAt own origin n, owner e.path = origin ++ n.1 := by
    intro n e he
    rw [addedAt] at he
    split at he
    · exact howner _ _ e he
    · cases he
  refine ⟨fun n _ => ?_, ?_⟩
  · rw [addedAt]
    split
    · exact hown _ _
    · exact List.nodup_nil
  · refine (List.pairwise_map.mp (Json.nodup_nodes x hx)).imp fun {n m} hne p hp hq => hne ?_
    obtain ⟨e, he, rfl⟩ := List.mem_map.mp hp
    obtain ⟨e', he', heq⟩ := List.mem_map.mp hq
    have howners := (congrArg owner heq).symm
    rw [hadded n e he, hadded m e' he'] at howners
    exact List.append_cancel_left howners

end Found

end Translator

end Provision
