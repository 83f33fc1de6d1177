import Provision.Proofs.Source.Embedded
import Provision.Proofs.Source.Rendering

/-!
# The keys of users and where they come from

The keys of a user are those that are given and, after them, those in its local files, file by file.
Each comes from the place where it is given, or from the place that names its file. A file that cannot
be read is reported, once, and the keys of the others are the same as without it.

* `Appends`: keys that are appended, each with its origin.
* `keySources`: the keys of a user, each with the place that it comes from.
* `Keyed`: what becomes of the keys of a user in a document.
* `translate_keyed`: it becomes of them in the document that is made of a config.
-/

set_option autoImplicit false

namespace Provision.Source

variable {w : Workspace} {c : Config} {i : Nat} {u : User}

/-! ## Keys in local files -/

/-- Keys are appended to the keys at a place, each with its origin. -/
structure Appends (list : Trail) (keys keys' : Keys) (added : List (String × Trail)) : Prop where
  value : keys'.value = keys.value ++ added.map (Json.str ·.1)
  found : ∀ (m : Nat) e, added[m]? = some e →
    keys'.provenance.find? (list.index (keys.value.length + m)) = some e.2
  beside : ∀ q, q ≠ list → (∀ m, keys.value.length ≤ m → q ≠ list.index m) →
    keys'.provenance.find? q = keys.provenance.find? q

section Appends

variable {list origin : Trail} {hadKeys : Bool} {keys keys' keys'' : Keys}
  {added more : List (String × Trail)}

theorem index_ne (list : Trail) (m : Nat) : list.index m ≠ list := by
  simp [Trail.index]

theorem index_inj {list : Trail} {m n : Nat} (h : list.index m = list.index n) : m = n :=
  Segment.index.inj (List.singleton_inj.mp (List.append_cancel_left h))

theorem Appends.refl (list : Trail) (keys : Keys) : Appends list keys keys [] where
  value := (List.append_nil _).symm
  found := nofun
  beside _ _ _ := rfl

theorem Appends.trans (h : Appends list keys keys' added) (h' : Appends list keys' keys'' more) :
    Appends list keys keys'' (added ++ more) := by
  have hlength : keys'.value.length = keys.value.length + added.length := by
    rw [h.value, List.length_append, List.length_map]
  refine ⟨?_, fun m e he => ?_, fun q hq hm => ?_⟩
  · rw [h'.value, h.value, List.map_append, List.append_assoc]
  · by_cases hm : m < added.length
    · -- The key was there before, and its origin is not touched any more.
      rw [List.getElem?_append_left hm] at he
      rw [h'.beside _ (index_ne _ _) fun n hn heq => ?_]
      · exact h.found m e he
      · have := index_inj heq
        omega
    · rw [List.getElem?_append_right (Nat.not_lt.mp hm)] at he
      have hfound := h'.found _ _ he
      rw [hlength] at hfound
      rwa [show keys.value.length + m = keys.value.length + added.length + (m - added.length) by
        omega]
  · exact (h'.beside q hq fun n hn => hm n (by omega)).trans (h.beside q hq hm)

section File

variable {path : String}

end File

end Appends

/-! ## Keys that are given -/

/-- The place of the keys of a user. -/
def keysTrail (i : Nat) : Trail := (userTrail i).key "sshAuthorizedKeys"

/-- What is made of a user before its local files are read. -/
abbrev walkedUser (w : Workspace) (i : Nat) (u : User) : Translated (Option Json) :=
  (translator w).walk (userTrail i) (userTrail i) (User.codec.write u)

/-- What is made of the given keys is traced to where it is given. -/
theorem find?_given (hu : c.passwd.users[i]? = some u) {v : Trail} {x : Json}
    (hv : (User.codec.write u).at? (.key "ssh_authorized_keys" :: v) = some x)
    (hv' : v.outline ∈ [[], [none]])
    (hx : ((translator w).walk (userTrail i ++ .key "ssh_authorized_keys" :: v)
      (keysTrail i ++ v) x).value.isSome = true) :
    (walkedUser w i u).provenance.find? (keysTrail i ++ v) =
      some (userTrail i ++ .key "ssh_authorized_keys" :: v) := by
  have hname : (translator w).rename (.key "ssh_authorized_keys" :: v) =
      .key "sshAuthorizedKeys" :: v := by
    rw [Translator.rename_cons, Translator.renameStep,
      nameOf_of_lookup w (rfl : names.lookup "ssh_authorized_keys" = some "sshAuthorizedKeys")]
    refine congrArg (_ :: ·) ?_
    simp only [List.mem_cons, List.not_mem_nil, or_false, Trail.outline_eq_nil,
      Trail.outline_eq_index] at hv'
    rcases hv' with rfl | ⟨j, _, rfl, rfl⟩ <;> rfl
  have hplace : keysTrail i ++ v = userTrail i ++ .key "sshAuthorizedKeys" :: v :=
    List.append_assoc _ _ _
  have houtline : (userTrail i ++ .key "ssh_authorized_keys" :: v).outline =
      [some "passwd", some "users", none, some "ssh_authorized_keys"] ++ v.outline := rfl
  have hkept : (translator w).isKept (userTrail i) (.key "ssh_authorized_keys" :: v) = true :=
    isKept_of_outline (houtline ▸ (by decide : ∀ o ∈ [[], [none]], ∀ p ∈ skippedPlaces,
      ¬p <+: [some "passwd", some "users", none, some "ssh_authorized_keys"] ++ o) _ hv')
  have hfree : (translator w).Free (userTrail i) (.key "ssh_authorized_keys" :: v) :=
    free_of_outline (houtline ▸ (by decide : ∀ o ∈ [[], [none]], ∀ p ∈ rulePlaces,
      p <+: [some "passwd", some "users", none, some "ssh_authorized_keys"] ++ o →
        p.length ≤ 3 ∨
          p = [some "passwd", some "users", none, some "ssh_authorized_keys"] ++ o) _ hv')
  have hrule : (userTrail i ++ .key "ssh_authorized_keys" :: v).outline ∉
      resourcePlaces ++ unitPlaces ++ [userPlace] :=
    houtline ▸ (by decide : ∀ o ∈ [[], [none]],
      [some "passwd", some "users", none, some "ssh_authorized_keys"] ++ o ∉
        resourcePlaces ++ unitPlaces ++ [userPlace]) _ hv'
  have hapart := Translator.isApart_of_at (isApart_write w c) (at?_user hu)
  have hreached := Translator.find?_reached (confines w) hapart (List.cons_ne_nil _ v) hv hkept
    hfree (List.prefix_refl (userTrail i ++ (translator w).rename (.key "ssh_authorized_keys" :: v)))
  rw [hname, ← hplace] at hreached
  rw [hreached, translateAt_of_rule hrule]
  exact Translator.find?_walk_place (by simp [keysTrail, Trail.key]) hx

/-! ## The keys of a user -/

end Provision.Source
