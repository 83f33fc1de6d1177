import Provision.Path
import Provision.Yaml.Datum
import Provision.Yaml.Tree

/-!
# Parts of a document at a trail

The values of a document and its places are both looked up by trails. A key is known by its text,
whatever its tag and its style.

* `Datum.at?`, `Tree.at?`: the part at a trail.
* `Datum.replace`: a document with another value at a trail.
* `Datum.replace_key`, `Datum.replace_index`: what replacing does one step down.
-/

set_option autoImplicit false

namespace Provision.Yaml

namespace Datum

/-- Whether the value is a scalar. -/
def isScalar : Datum → Bool
  | .scalar _ _ _ _ _ => true
  | _ => false

/-- The text of a key. -/
def keyText? : Datum → Option String
  | .scalar _ _ _ s _ => some s
  | _ => none

/-- The first value of a key among entries. -/
def lookup (k : String) (entries : List (Datum × Datum)) : Option Datum :=
  (entries.find? fun e => keyText? e.1 = some k).map (·.2)

/-- The part one step down. -/
def child? : Segment → Datum → Option Datum
  | .key k, .mapping _ _ entries => lookup k entries
  | .index i, .sequence _ _ items => items[i]?
  | _, _ => none

/-- The part at a trail. -/
def at? : Trail → Datum → Option Datum
  | [], x => some x
  | s :: t, x => (x.child? s).bind (at? t)

/-- Changes the first value of a key. -/
def modifyEntry (k : String) (f : Datum → Datum) : List (Datum × Datum) → List (Datum × Datum)
  | [] => []
  | e :: rest =>
    if keyText? e.1 = some k then (e.1, f e.2) :: rest else e :: modifyEntry k f rest

/-- The document with another value at a trail, if the trail leads anywhere. -/
def replace : Trail → Datum → Datum → Datum
  | [], _, y => y
  | .key k :: t, .mapping m tag entries, y =>
    .mapping m tag (modifyEntry k (fun z => replace t z y) entries)
  | .index i :: t, .sequence m tag items, y =>
    .sequence m tag (items.modify i fun z => replace t z y)
  | _ :: _, x, _ => x

@[simp] theorem at?_nil (x : Datum) : x.at? [] = some x := rfl

@[simp] theorem at?_cons (s : Segment) (t : Trail) (x : Datum) :
    x.at? (s :: t) = (x.child? s).bind (at? t) := rfl

/-- A scalar has no parts. -/
theorem at?_of_isScalar {x z : Datum} {t : Trail} (hx : x.isScalar = true) (h : x.at? t = some z) :
    t = [] := by
  cases t with
  | nil => rfl
  | cons s t =>
    cases x with
    | scalar => cases s <;> cases h
    | _ => cases hx

/-- An entry with a key, and what changing the value of the key does to the entries. -/
theorem modifyEntry_of_lookup {k : String} {z : Datum} {entries : List (Datum × Datum)}
    (h : lookup k entries = some z) : ∃ before key after, entries = before ++ (key, z) :: after ∧
      keyText? key = some k ∧ ∀ f, modifyEntry k f entries = before ++ (key, f z) :: after := by
  induction entries with
  | nil => simp [lookup] at h
  | cons e rest ih =>
    by_cases he : keyText? e.1 = some k
    · have hz : e.2 = z := by simpa [lookup, he] using h
      exact ⟨[], e.1, rest, by simp [← hz], he, by simp [modifyEntry, he, hz]⟩
    · have hrest : lookup k rest = some z := by simpa [lookup, he] using h
      obtain ⟨before, key, after, hsplit, hkey, hmodify⟩ := ih hrest
      exact ⟨e :: before, key, after, by simp [hsplit], hkey, by simp [modifyEntry, he, hmodify]⟩

/-- A value with a key is a mapping, of which one entry is replaced. -/
theorem replace_key {k : String} {x z : Datum} (h : x.child? (.key k) = some z) :
    ∃ m tag before key after, x = .mapping m tag (before ++ (key, z) :: after) ∧
      keyText? key = some k ∧ ∀ t y, x.replace (.key k :: t) y =
        .mapping m tag (before ++ (key, z.replace t y) :: after) := by
  cases x with
  | scalar => cases h
  | sequence => cases h
  | mapping m tag entries =>
    obtain ⟨before, key, after, hsplit, hkey, hmodify⟩ := modifyEntry_of_lookup h
    refine ⟨m, tag, before, key, after, by rw [hsplit], hkey, fun t y => ?_⟩
    rw [replace, hmodify]

/-- A value with a position is a sequence, of which one item is replaced. -/
theorem replace_index {i : Nat} {x z : Datum} (h : x.child? (.index i) = some z) :
    ∃ m tag items, x = .sequence m tag items ∧ items[i]? = some z ∧ ∀ t y,
      x.replace (.index i :: t) y = .sequence m tag (items.modify i fun z => z.replace t y) := by
  cases x with
  | scalar => cases h
  | mapping => cases h
  | sequence m tag items => exact ⟨m, tag, items, rfl, h, fun _ _ => rfl⟩

end Datum

namespace Tree

/-- The part at a trail. -/
def at? : Trail → Tree → Option Tree
  | [], x => some x
  | s :: t, x => (x.step? s).bind fun e => at? t e.1

theorem mem_of_step_key {k : String} {x child : Tree} {marker : Marker}
    (h : x.step? (.key k) = some (child, marker)) :
    ∃ entries m, x = .map entries m ∧ (k, marker, child) ∈ entries := by
  cases x with
  | leaf => cases h
  | sequence => cases h
  | map entries m =>
    obtain ⟨e, he, hpair⟩ := Option.map_eq_some_iff.mp h
    cases hpair
    obtain ⟨before, after, rfl, -⟩ := List.lookup_eq_some_iff.mp he
    exact ⟨_, m, rfl, List.mem_append_right _ List.mem_cons_self⟩

theorem getElem?_of_step_index {i : Nat} {x child : Tree} {marker : Marker}
    (h : x.step? (.index i) = some (child, marker)) :
    ∃ items m, x = .sequence items m ∧ items[i]? = some child := by
  cases x with
  | leaf => cases h
  | map => cases h
  | sequence items m =>
    obtain ⟨item, hitem, hpair⟩ := Option.map_eq_some_iff.mp h
    cases hpair
    exact ⟨items, m, rfl, hitem⟩

end Tree

end Provision.Yaml
