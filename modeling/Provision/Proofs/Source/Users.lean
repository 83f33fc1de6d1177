import Provision.Proofs.Source.Files

/-!
# What is made of the users of a config

Each user of the shared sections becomes a user of the document, at the same position. It has the keys
that are given, and after them the keys in its local files as they stand there.

* `keysIn`: the keys in a local file.
* `get?_keys`: the keys of what is made of a user.
* `keysAt_walked`: the keys of the users of the document.
-/

set_option autoImplicit false

namespace Provision.Source

variable {w : Workspace} {c : Config} {i : Nat} {u : User}

/-- The place of a user, before and after. -/
def userTrail (i : Nat) : Trail := [.key "passwd", .key "users", .index i]

theorem leads_passwd (c : Config) :
    Leads (Config.codec.write c) [] "passwd" "passwd" (Passwd.codec.write c.passwd) where
  eq_obj := ⟨_, rfl, rfl,
    (by decide : ["ignition", "kernel_arguments", "passwd", "storage", "systemd"].Nodup),
    (by decide : ∀ l ∈ ["ignition", "kernel_arguments", "passwd", "storage", "systemd"],
      (names.lookup l).isSome = true)⟩
  name := rfl
  kept := by decide

theorem leads_users (p : Passwd) : Leads (Passwd.codec.write p) [.key "passwd"] "users" "users"
    ((Decode.Codec.list User.codec).write p.users) where
  eq_obj := ⟨_, rfl, rfl, (by decide : ["users", "groups"].Nodup),
    (by decide : ∀ l ∈ ["users", "groups"], (names.lookup l).isSome = true)⟩
  name := rfl
  kept := by decide

theorem leads_keys (i : Nat) (u : User) : Leads (User.codec.write u) (userTrail i)
    "ssh_authorized_keys" "sshAuthorizedKeys" (.arr (u.sshAuthorizedKeys.map Json.str)) where
  eq_obj := ⟨_, rfl, rfl,
    (by decide : ["name", "password_hash", "ssh_authorized_keys", "ssh_authorized_keys_local",
      "uid", "gecos", "home_dir", "no_create_home", "primary_group", "groups", "no_user_group",
      "no_log_init", "shell", "should_exist", "system"].Nodup),
    (by decide : ∀ l ∈ ["name", "password_hash", "ssh_authorized_keys",
      "ssh_authorized_keys_local", "uid", "gecos", "home_dir", "no_create_home", "primary_group",
      "groups", "no_user_group", "no_log_init", "shell", "should_exist", "system"],
      (names.lookup l).isSome = true)⟩
  name := rfl
  kept := (by decide :
    [some "passwd", some "users", none, some "ssh_authorized_keys"] ∉ skippedPlaces)

/-! ## Keys -/

/-- The keys in a local file, if it can be read. -/
def keysIn (w : Workspace) (path : String) : List String :=
  match w.readLocal path with
  | .ok data => keyLines data
  | .error _ => []

theorem value_addKeys (place : Trail) (hadKeys : Bool) (keys : Keys) (path : String)
    (origin : Trail) : (addKeys w place hadKeys keys (.str path, origin)).value =
      keys.value ++ (keysIn w path).map Json.str := by
  rw [addKeys, keysIn]
  dsimp only
  cases w.readLocal path with
  | error problem => exact (List.append_nil _).symm
  | ok data => rfl

theorem value_foldl_addKeys (place field : Trail) (hadKeys : Bool) (paths : List String)
    (position : Nat) (keys : Keys) :
    ((((paths.map Json.str).zipIdx position).map fun (x, i) => (x, field.index i)).foldl
        (addKeys w place hadKeys) keys).value =
      keys.value ++ (paths.flatMap (keysIn w)).map Json.str := by
  induction paths generalizing position keys with
  | nil => exact (List.append_nil _).symm
  | cons path rest ih =>
    rw [List.map_cons, List.zipIdx_cons, List.map_cons, List.foldl_cons, ih, value_addKeys,
      List.flatMap_cons, List.map_append, List.append_assoc]

/-- A list of texts is made into itself, unless it is empty. -/
theorem value_walk_texts {origin place : Trail} (texts : List String)
    (h : ∀ i, (translator w).rule? (origin.index i) = none) :
    ((translator w).walk origin place (.arr (texts.map Json.str))).value =
      if texts = [] then none else some (.arr (texts.map Json.str)) := by
  have hitems : ∀ position,
      ((translator w).walkItems origin place position (texts.map Json.str)).value =
        texts.map Json.str := by
    induction texts with
    | nil => intro position; rw [List.map_nil, Translator.walkItems]
    | cons text rest ih =>
      intro position
      rw [List.map_cons, Translator.walkItems, ih]
      dsimp only
      rw [Translator.translateAt_eq, h, Option.map_none, Option.getD_none,
        Translator.value_walk_str]
      by_cases ht : text = "" <;> simp [ht, Translator.vacant]
  have hvalue : (((translator w).walkItems origin place 0 (texts.map Json.str)).map Json.arr).value =
      .arr (texts.map Json.str) := congrArg Json.arr (hitems 0)
  rw [Translator.walk, Translator.written, hvalue]
  cases texts <;> rfl

/-- The keys that are given. -/
theorem get?_given (i : Nat) (u : User) :
    ((translator w).walk (userTrail i) (userTrail i) (User.codec.write u)).value.bind
        (·.get? "sshAuthorizedKeys") =
      if u.sshAuthorizedKeys = [] then none else some (.arr (u.sshAuthorizedKeys.map Json.str)) := by
  have hrule : ((userTrail i).key "ssh_authorized_keys").outline ∉
      resourcePlaces ++ unitPlaces ++ [userPlace] :=
    (by decide : [some "passwd", some "users", none, some "ssh_authorized_keys"] ∉
      resourcePlaces ++ unitPlaces ++ [userPlace])
  rw [((leads_keys i u).walked hrule).1]
  refine value_walk_texts u.sshAuthorizedKeys fun j => rule?_eq_none ?_
  exact (by decide : [some "passwd", some "users", none, some "ssh_authorized_keys", none] ∉
    resourcePlaces ++ unitPlaces ++ [userPlace])

/-- Users have the rule for users. -/
theorem translateAt_user {t : Trail} (h : t.outline = userPlace) (place : Trail) (x : Json) :
    (translator w).translateAt t place x =
      userRule w ((translator w).walk t place x) x t place := by
  obtain ⟨list, rfl, hlist⟩ := Trail.outline_eq_key.mp h
  obtain ⟨user, rfl, hu⟩ := Trail.outline_eq_key.mp hlist
  obtain ⟨i, rest, rfl, hrest⟩ := Trail.outline_eq_index.mp hu
  cases Trail.outline_eq_nil.mp hrest
  rw [Translator.translateAt_eq]
  rfl

/-- What is made of a user without the rule is an object if it is anything. -/
theorem walk_user (t place : Trail) (u : User) :
    ∃ members, ((translator w).walk t place (User.codec.write u)).value.getD (.obj []) =
      .obj members := by
  have hwrite : User.codec.write u = .obj (Decode.RecordField.members User.fields u) := rfl
  rw [hwrite, Translator.walk, Translator.written]
  split
  · exact ⟨_, rfl⟩
  · exact ⟨_, rfl⟩

/-- What is made of a user: the keys in the local files are put after those that are given. -/
theorem value_userRule {m : Translated (Option Json)} {x : Json} {origin place : Trail}
    {paths : List String} {members : List (String × Json)}
    (hpaths : ((x.get? "ssh_authorized_keys_local").bind Json.items?).getD [] =
      paths.map Json.str)
    (hm : m.value.getD (.obj []) = .obj members) :
    (userRule w m x origin place).value =
      let keys := ((m.value.bind (·.get? "sshAuthorizedKeys")).bind Json.items?).getD [] ++
        (paths.flatMap (keysIn w)).map Json.str
      if keys = [] then m.value
      else some (.obj (Json.insert "sshAuthorizedKeys" (.arr keys) members)) := by
  rw [userRule, hpaths]
  dsimp only
  generalize hgiven : ((m.value.bind (·.get? "sshAuthorizedKeys")).bind Json.items?).getD [] = given
  split
  · next hnone =>
    rw [List.map_eq_nil_iff.mp hnone, List.flatMap_nil, List.map_nil, List.append_nil]
    split
    · rfl
    · next hne =>
      -- The keys that are given are there already.
      obtain ⟨list, hlist, hitems⟩ : ∃ list, m.value.bind (·.get? "sshAuthorizedKeys") = some list ∧
          list.items? = some given := by
        cases hbind : (m.value.bind (·.get? "sshAuthorizedKeys")).bind Json.items? with
        | none =>
          rw [hbind] at hgiven
          exact absurd hgiven.symm hne
        | some items =>
          rw [hbind] at hgiven
          obtain ⟨list, hlist, hitems⟩ := Option.bind_eq_some_iff.mp hbind
          exact ⟨list, hlist, hitems.trans (congrArg some hgiven)⟩
      obtain ⟨v, hv, hget⟩ := Option.bind_eq_some_iff.mp hlist
      rw [hv] at hm
      cases hm
      have hlookup : Json.lookup "sshAuthorizedKeys" members = some (.arr given) := by
        cases list <;> cases hitems
        exact hget
      rw [hv, Json.insert_of_lookup hlookup]
  · next hsome =>
    have hfold := fun hadKeys => value_foldl_addKeys (w := w) (place.key "sshAuthorizedKeys")
      (origin.key "ssh_authorized_keys_local") hadKeys paths 0 ⟨given, m.provenance, m.report⟩
    generalize hmade : List.foldl _ _ _ = made
    have hvalue : made.value = given ++ (paths.flatMap (keysIn w)).map Json.str := by
      rw [← hmade, hfold]
    rw [hvalue, hm]
    by_cases hkeys : given ++ (paths.flatMap (keysIn w)).map Json.str = []
    · rw [if_pos hkeys, if_pos (by rw [hkeys]; rfl)]
    · rw [if_neg hkeys, if_neg (by simpa using hkeys)]

/-- **The keys of a user** are the ones that are given and the ones in the local files. -/
theorem get?_keys (w : Workspace) (i : Nat) (u : User) :
    let keys := u.sshAuthorizedKeys ++ u.sshAuthorizedKeysLocal.flatMap (keysIn w)
    ((translator w).translateAt (userTrail i) (userTrail i) (User.codec.write u)).value.bind
        (·.get? "sshAuthorizedKeys") =
      if keys = [] then none else some (.arr (keys.map Json.str)) := by
  intro keys
  have hgiven := @get?_given w i u
  obtain ⟨members, hmembers⟩ := @walk_user w (userTrail i) (userTrail i) u
  rw [translateAt_user rfl, @value_userRule w _ _ _ _ u.sshAuthorizedKeysLocal members rfl hmembers,
    hgiven]
  have hitems : ((if u.sshAuthorizedKeys = [] then none
      else some (.arr (u.sshAuthorizedKeys.map Json.str))).bind Json.items?).getD [] =
        u.sshAuthorizedKeys.map Json.str := by
    cases u.sshAuthorizedKeys <;> rfl
  rw [hitems, ← List.map_append]
  by_cases hkeys : keys = []
  · rw [if_pos (List.map_eq_nil_iff.mpr hkeys), hgiven, if_pos hkeys,
      if_pos (List.append_eq_nil_iff.mp hkeys).1]
  · rw [if_neg fun h => hkeys (List.map_eq_nil_iff.mp h), if_neg hkeys]
    exact Json.lookup_insert _ _ _

/-! ## Documents -/

/-- The keys of a user of a document. -/
def keysAt (i : Nat) (d : Json) : Option Json :=
  ((((d.get? "passwd").bind (·.get? "users")).bind Json.items?).getD [])[i]?.bind
    (·.get? "sshAuthorizedKeys")

/-- **The keys of the users of the document** before trees and units. -/
theorem keysAt_walked (w : Workspace) (c : Config) (i : Nat) :
    keysAt i (walked w c).value = c.passwd.users[i]?.bind fun u =>
      let keys := u.sshAuthorizedKeys ++ u.sshAuthorizedKeysLocal.flatMap (keysIn w)
      if keys = [] then none else some (.arr (keys.map Json.str)) := by
  have hlist : ((walked w c).value.get? "passwd").bind (·.get? "users") =
      ((translator w).walk [.key "passwd", .key "users"] [.key "passwd", .key "users"]
        (.arr (c.passwd.users.map User.codec.write))).value :=
    (walked_list (leads_passwd c) (leads_users c.passwd) (by decide) (by decide)).1
  rw [keysAt, hlist, Translator.getElem?_walk, List.getElem?_map]
  cases c.passwd.users[i]? with
  | none => rfl
  | some u =>
    have hvacant : Translator.vacant (User.codec.write u) = .obj [] := rfl
    rw [Option.map_some, Option.map_some, Option.bind_some, Option.bind_some, hvacant, get?_getD]
    exact get?_keys w i u

end Provision.Source
