import Provision.Proofs.Decode.Invariant
import Provision.Proofs.Decode.Record
import Provision.Proofs.Json.RoundTrip

/-!
# What is read can be printed and read again

What a form writes of a value that was read is readable: its numbers fit into a word, no object has
a key twice, and it has as many levels of containers as the form.

* `Codec.Reads`: what a form reads is written readably.
* `Codec.reads_list`, `Codec.reads_record`: lists and records are, if their parts are.
-/

set_option autoImplicit false

namespace Provision.Decode

open Json (Readable)

/-- What is read is written with at most a number of levels of containers, and can be read back. -/
def Codec.Reads {α : Type} (c : Codec α) (depth : Nat) : Prop :=
  c.Yields jsonView fun a => Readable depth (c.write a)

namespace Codec

theorem reads_text : text.Reads 0 := fun _ a _ => .str a

theorem reads_bool : bool.Reads 0 := fun _ a _ => .bool a

theorem reads_int : int.Reads 0 := by
  intro x n h
  refine .int ?_
  have hsigned : Word.holdsSigned n = true := by
    cases x with
    | num m =>
      cases m with
      | int m =>
        change (if Word.holdsSigned m then _ else _) = _ at h
        split at h
        · next hm =>
          cases h
          exact hm
        · cases h
      | float => cases h
    | _ => cases h
  simp only [Word.holdsSigned, Word.holds, Bool.and_eq_true, decide_eq_true_eq] at hsigned ⊢
  have hhalf : (Word.half : Int) ≤ Word.count := by decide
  omega

theorem reads_list {α : Type} {c : Codec α} {depth : Nat} (hc : c.Reads depth) :
    (list c).Reads (depth + 1) := by
  intro x as h
  obtain ⟨items, -, h⟩ := bind_eq_ok h
  have hitems : ∀ (items : List Json) position as, readItems (c.read jsonView) position items = .ok as →
      ∀ a ∈ as, Readable depth (c.write a) := by
    intro items
    induction items with
    | nil =>
      intro position as h
      cases h
      exact nofun
    | cons y items ih =>
      intro position as h
      obtain ⟨a, ha, h⟩ := bind_eq_ok h
      obtain ⟨rest, hrest, h⟩ := bind_eq_ok h
      cases h
      exact List.forall_mem_cons.mpr ⟨hc y a (below_eq_ok ha), ih _ _ hrest⟩
  refine .arr fun y hy => ?_
  obtain ⟨a, ha, rfl⟩ := List.mem_map.mp hy
  exact hitems items 0 as h a ha

end Codec

/-! ## Fields -/

section Records

variable {σ α : Type} {depth : Nat}

namespace RecordField

/-- What a field writes is readable, whether it was read or is as in an empty record. -/
structure ReadsFrom (depth : Nat) (empty : σ) (f : RecordField σ) : Prop where
  unread : ∀ y, f.write empty = some y → Readable depth y
  read : ∀ x r r' y, f.read jsonView x r = .ok r' → f.write r' = some y → Readable depth y

/-- What each of the fields writes is readable. -/
def ReadAll (depth : Nat) (empty : σ) : List (RecordField σ) → Prop
  | [] => True
  | f :: fields => f.ReadsFrom depth empty ∧ ReadAll depth empty fields

theorem ReadAll.mem {empty : σ} {fields : List (RecordField σ)} (h : ReadAll depth empty fields) :
    ∀ f ∈ fields, f.ReadsFrom depth empty := by
  induction fields with
  | nil => exact nofun
  | cons f fields ih => exact List.forall_mem_cons.mpr ⟨h.1, ih h.2⟩

section Fields

variable {name : String} {c : Codec α} {empty : σ} {level : Nat}

theorem reads_plain {get : σ → α} {set : α → σ → σ} (hc : c.Reads level)
    (hempty : Readable depth (c.write (get empty)))
    (hget : (fun a r => get (set a r)) = fun a _ => a) (hle : level.ble depth = true) :
    (plain name c get set).ReadsFrom depth empty where
  unread y hy := by
    cases hy
    exact hempty
  read x r r' y hread hy := by
    obtain ⟨a, ha, rfl⟩ := map_eq_ok hread
    cases hy
    have hgot : get (set a r) = a := congrFun (congrFun hget a) r
    rw [hgot]
    exact (hc x a ha).mono (Nat.le_of_ble_eq_true hle)

theorem reads_sparse [DecidableEq α] {least : α} {get : σ → α} {set : α → σ → σ}
    (hc : c.Reads level) (hget : (fun a r => get (set a r)) = fun a _ => a)
    (hleast : get empty = least) (hle : level.ble depth = true) :
    (sparse least name c get set).ReadsFrom depth empty where
  unread y hy := by
    simp only [sparse, hleast, if_true, reduceCtorEq] at hy
  read x r r' y hread hy := by
    obtain ⟨a, ha, rfl⟩ := map_eq_ok hread
    have hgot : get (set a r) = a := congrFun (congrFun hget a) r
    simp only [sparse, hgot] at hy
    split at hy
    · cases hy
    · cases hy
      exact (hc x a ha).mono (Nat.le_of_ble_eq_true hle)

theorem reads_optional {get : σ → Option α} {set : Option α → σ → σ} (hc : c.Reads level)
    (hget : (fun a r => get (set a r)) = fun a _ => a) (hnone : get empty = none)
    (hle : level.ble depth = true) :
    (optional name c get set).ReadsFrom depth empty where
  unread y hy := by
    simp only [optional, hnone, Option.map_none, reduceCtorEq] at hy
  read x r r' y hread hy := by
    have hgot : ∀ a, get (set a r) = a := fun a => congrFun (congrFun hget a) r
    rcases read_optional hread with ⟨-, rfl⟩ | ⟨a, ha, rfl⟩
    · simp only [optional, hgot, Option.map_none, reduceCtorEq] at hy
    · simp only [optional, hgot, Option.map_some, Option.some.injEq] at hy
      exact hy ▸ (hc x a ha).mono (Nat.le_of_ble_eq_true hle)

end Fields

end RecordField

/-! ## Records -/

namespace RecordField

variable {name : String} {c : Codec α} {r : σ}

theorem readable_plain {get : σ → α} {set : α → σ → σ} (h : Readable depth (c.write (get r))) :
    ∀ y, (plain name c get set).write r = some y → Readable depth y := by
  intro y hy
  cases hy
  exact h

theorem readable_needed {get : σ → α} {set : α → σ → σ} (h : Readable depth (c.write (get r))) :
    ∀ y, (needed name c get set).write r = some y → Readable depth y :=
  @readable_plain _ _ _ name _ _ _ set h

theorem readable_sparse [DecidableEq α] {least : α} {get : σ → α} {set : α → σ → σ}
    (h : Readable depth (c.write (get r))) :
    ∀ y, (sparse least name c get set).write r = some y → Readable depth y := by
  intro y hy
  simp only [sparse] at hy
  split at hy
  · cases hy
  · cases hy
    exact h

theorem readable_optional {get : σ → Option α} {set : Option α → σ → σ}
    (h : ∀ a, Readable depth (c.write a)) :
    ∀ y, (optional name c get set).write r = some y → Readable depth y := by
  intro y hy
  obtain ⟨a, -, rfl⟩ := Option.map_eq_some_iff.mp hy
  exact h a

end RecordField

variable {fields : List (RecordField σ)}

/-- A record is readable if what is written of it is. -/
theorem readable_record {r : σ} (hn : (fields.map (·.name)).Nodup)
    (h : ∀ f ∈ fields, ∀ y, f.write r = some y → Readable depth y) :
    Readable (depth + 1) (.obj (RecordField.members fields r)) := by
  refine .obj (RecordField.nodup_members hn r) fun e he => ?_
  obtain ⟨f, hf, he⟩ := List.mem_filterMap.mp he
  obtain ⟨y, hy, rfl⟩ := Option.map_eq_some_iff.mp he
  exact h f hf y hy

/-- **A record that was read is written readably if its fields are.** -/
theorem Codec.reads_record {name : String} {empty : σ} (hi : RecordField.Independent fields)
    (hn : (fields.map (·.name)).Nodup) (h : RecordField.ReadAll depth empty fields) :
    (Codec.record name empty fields).Reads (depth + 1) := by
  have hall := h.mem
  refine fun x r hr => readable_record hn ?_
  refine yields_record (P := fun r => ∀ f ∈ fields, ∀ y, f.write r = some y → Readable depth y)
    (fun f hf => (hall f hf).unread) (fun g hg z r r' hbefore hread f hf y hy => ?_) x r hr
  -- Only the field that was read may be written in another way than before.
  by_cases hname : g.name = f.name
  · cases RecordField.eq_of_name_eq hn hg hf hname
    exact (hall g hg).read z r r' y hread hy
  · exact hbefore f hf y (hi.leaves hg hf hname hread ▸ hy)

end Records

end Provision.Decode
