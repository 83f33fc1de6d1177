import Mathlib.Data.List.Sigma
import Provision.Proofs.Source.Places
import Provision.Proofs.Source.Users
import Provision.Proofs.Translator.Agree
import Provision.Proofs.Translator.Rules

/-!
# What is found in the shared sections

Contents that cannot be read or rendered are found by the rule for the place that they are at. Each
rule adds what it finds to what is found below, so the report can be read off the places of the
config.

* `foundAt`: what the rule for a place finds there.
* `adds`: that is what it adds to the report.
* `mem_report_walked`, `nodup_report_walked`: the entries for a config, no two about one place.
-/

set_option autoImplicit false

namespace Provision

open Text (Bytes)

/-! ## Parts without rules -/

namespace Translator

variable {t : Translator} {origin : Trail}

/-- Nothing is found in a part below which there are no rules. -/
theorem report_walk_of_rules (h : ∀ s u, t.rule? (origin ++ s :: u) = none) (place : Trail)
    (x : Json) : (t.walk origin place x).report = [] := by
  let bare : Translator := { t with rules := [] }
  have hsame : ∀ s, SameRules t bare (origin ++ [s]) := fun s u => by
    rw [List.append_assoc, List.singleton_append, h]
    rfl
  have hwalk : t.walk origin place x = bare.walk origin place x :=
    @walk_same t bare origin ⟨rfl, rfl⟩ (fun i => hsame (.index i)) (fun k => hsame (.key k)) place x
  rw [hwalk, ← translateAt_of_rules (t := bare) rfl]
  exact report_eq_nil rfl origin place x

end Translator

/-! ## What rules find -/

/-- What is wrong with contents that were to be read, if there are any, at a place of the source. -/
def Report.ofContents (trail : Trail) : Option (Except Problem Bytes) → Report
  | some (.error problem) => .sourceError trail problem
  | _ => []

theorem Report.mem_ofContents {trail : Trail} {contents : Option (Except Problem Bytes)}
    {e : Entry} : e ∈ Report.ofContents trail contents ↔
      ∃ problem, contents = some (.error problem) ∧ e = .error (.source trail) problem := by
  match contents with
  | some (.error problem) => simp [ofContents, sourceError]
  | some (.ok _) | none => simp [ofContents]

/-- There is at most one entry for contents. -/
theorem Report.nodup_ofContents (trail : Trail) (contents : Option (Except Problem Bytes)) :
    ((Report.ofContents trail contents).map Entry.path).Nodup := by
  match contents with
  | some (.error problem) => exact List.nodup_singleton _
  | some (.ok _) | none => exact List.nodup_nil

/-- If no two entries are about one place, one that is about a place is the only one. -/
theorem Report.filter_path {r : Report} (h : (r.map Entry.path).Nodup) {e : Entry} (he : e ∈ r) :
    r.filter (fun e' => decide (e'.path = e.path)) = [e] := by
  induction r with
  | nil => cases he
  | cons x rest ih =>
    obtain ⟨hx, hrest⟩ := List.nodup_cons.mp h
    rcases List.mem_cons.mp he with rfl | he
    · rw [List.filter_cons_of_pos (by simp), List.filter_eq_nil_iff.mpr fun e' he' heq => hx ?_]
      exact List.mem_map.mpr ⟨e', he', of_decide_eq_true heq⟩
    · rw [List.filter_cons_of_neg, ih hrest he]
      intro heq
      exact hx (List.mem_map.mpr ⟨e, he, (of_decide_eq_true heq).symm⟩)

/-- What is found in contents that are embedded. -/
def Contents.found (w : Workspace) (origin : Trail) (r : Source.Resource) : Report :=
  match body? w origin r with
  | some (field, contents) => .ofContents (origin.key field) (some contents)
  | none => []

theorem Contents.mem_found {w : Workspace} {origin : Trail} {r : Source.Resource} {e : Entry} :
    e ∈ found w origin r ↔ ∃ field problem, body? w origin r = some (field, .error problem) ∧
      e = .error (.source (origin.key field)) problem := by
  rw [found]
  cases body? w origin r with
  | none => simp
  | some b => simp [Report.mem_ofContents, Prod.ext_iff]

theorem Contents.report_ofResource (w : Workspace) (origin place : Trail) (r : Source.Resource) :
    (ofResource w origin place r).report = found w origin r := by
  have hassemble : ∀ members, (assemble origin place members).report = [] := by
    intro members
    rw [assemble]
    dsimp only
    split <;> rfl
  rw [ofResource, found]
  cases body? w origin r with
  | none => exact hassemble _
  | some b =>
    obtain ⟨field, contents⟩ := b
    cases contents with
    | ok data => exact hassemble _
    | error problem => rfl

/-- What is found in a value that stands for contents that are embedded. -/
def Contents.foundIn (w : Workspace) (origin : Trail) (x : Json) : Report :=
  match Source.Resource.codec.ofJson x with
  | .error failure => .sourceError origin (.undecodable failure)
  | .ok r => found w origin r

theorem Contents.report_translate (w : Workspace) (origin place : Trail) (x : Json) :
    (translate w x origin place).report = foundIn w origin x := by
  rw [translate, foundIn]
  cases Source.Resource.codec.ofJson x with
  | error failure => rfl
  | ok r => exact report_ofResource w origin place r

namespace Source

variable {w : Workspace} {c : Config} {origin place : Trail} {x : Json}

/-- What is found in the local file of a unit or a drop-in. -/
def unitFound (w : Workspace) (origin : Trail) (x : Json) : Report :=
  .ofContents (origin.key "contents_local") <| ((x.get? "contents_local").bind Json.text?).map
    fun path => w.readLocal path >>= w.render path

/-- What is found in the local files with the keys of a user. -/
def userFound (w : Workspace) (origin : Trail) (x : Json) : Report :=
  (((x.get? "ssh_authorized_keys_local").bind Json.items?).getD []).zipIdx.flatMap fun file =>
    Report.ofContents ((origin.key "ssh_authorized_keys_local").index file.2)
      (file.1.text?.map w.readLocal)

theorem report_unitRule (m : Translated (Option Json)) :
    (unitRule w m x origin place).report = m.report ++ unitFound w origin x := by
  rw [unitRule, unitFound]
  cases (x.get? "contents_local").bind Json.text? with
  | none => exact (List.append_nil _).symm
  | some path =>
    dsimp only [Option.map_some]
    cases w.readLocal path >>= w.render path with
    | error problem => rfl
    | ok data =>
      dsimp only [Report.ofContents]
      rw [List.append_nil]
      split <;> rfl

theorem report_addKeys (list : Trail) (hadKeys : Bool) (keys : Keys) (entry : Json × Trail) :
    (addKeys w list hadKeys keys entry).report =
      keys.report ++ Report.ofContents entry.2 (entry.1.text?.map w.readLocal) := by
  rw [addKeys]
  split
  · next path hpath =>
    rw [hpath]
    dsimp only [Json.text?, Option.map_some]
    cases w.readLocal path with
    | error problem => rfl
    | ok data => exact (List.append_nil _).symm
  · next hne =>
    have hnone : entry.1.text? = none := by
      cases h : entry.1 <;> first | rfl | exact absurd h (hne _)
    rw [hnone]
    exact (List.append_nil _).symm

theorem report_foldl_addKeys (list : Trail) (hadKeys : Bool) (entries : List (Json × Trail))
    (keys : Keys) : (entries.foldl (addKeys w list hadKeys) keys).report =
      keys.report ++ entries.flatMap fun e =>
        Report.ofContents e.2 (e.1.text?.map w.readLocal) := by
  induction entries generalizing keys with
  | nil => exact (List.append_nil _).symm
  | cons e rest ih =>
    rw [List.foldl_cons, ih, report_addKeys, List.flatMap_cons, List.append_assoc]

theorem report_userRule (m : Translated (Option Json)) :
    (userRule w m x origin place).report = m.report ++ userFound w origin x := by
  have hfold := fun given hadKeys entries => report_foldl_addKeys (w := w)
    (place.key "sshAuthorizedKeys") hadKeys entries ⟨given, m.provenance, m.report⟩
  rw [userRule]
  dsimp only
  split
  · next hnil =>
    rw [userFound, hnil]
    exact (List.append_nil _).symm
  · split
    · exact (hfold _ _ _).trans (by rw [List.flatMap_map]; rfl)
    · split
      · exact (hfold _ _ _).trans (by rw [List.flatMap_map]; rfl)
      · exact (hfold _ _ _).trans (by rw [List.flatMap_map]; rfl)

/-- What the rule for a place finds there. -/
def foundAt (w : Workspace) (origin : Trail) (x : Json) : Report :=
  if origin.outline ∈ resourcePlaces then Contents.foundIn w origin x
  else if origin.outline ∈ unitPlaces then unitFound w origin x
  else if origin.outline = userPlace then userFound w origin x
  else []

/-- There are no rules below contents that are embedded. -/
theorem rule?_below_resource {o : Trail} (h : o.outline ∈ resourcePlaces) (s : Segment)
    (u : Trail) : (translator w).rule? (o ++ s :: u) = none := by
  refine rule?_eq_none fun hm => ?_
  have hall : ∀ p ∈ resourcePlaces, ∀ q ∈ resourcePlaces ++ unitPlaces ++ [userPlace],
      p <+: q → p = q := by decide
  have hpre : o.outline <+: (o ++ s :: u).outline := by
    rw [Trail.outline_append]
    exact List.prefix_append _ _
  have hlength := congrArg List.length (hall _ h _ hm hpre)
  rw [Trail.outline_append, List.length_append] at hlength
  simp at hlength

/-- **Each rule adds what it finds** to what is found below its place. -/
theorem adds (w : Workspace) : (translator w).Adds (foundAt w) := by
  intro origin place x
  rw [foundAt]
  split
  · next h =>
    rw [translateAt_resource h, Contents.report_translate,
      Translator.report_walk_of_rules (rule?_below_resource h)]
    rfl
  · next hresource =>
    split
    · next h =>
      rw [translateAt_unitPlace h]
      exact report_unitRule _
    · next hunit =>
      split
      · next h =>
        rw [translateAt_user h]
        exact report_userRule _
      · next huser =>
        rw [translateAt_of_rule, List.append_nil]
        simp [hresource, hunit, huser]

/-! ## What is found in a config -/

theorem report_walked (w : Workspace) (c : Config) :
    (walked w c).report = ((translator w).translateAt [] [] (Config.codec.write c)).report :=
  rfl

/-- The place of a local file with keys of a user. -/
def keyFileTrail (i j : Nat) : Trail := ((userTrail i).key "ssh_authorized_keys_local").index j

theorem foundAt_slot (s : Slot) (r : Resource) :
    foundAt w s.trail (Resource.codec.write r) = Contents.found w s.trail r := by
  rw [foundAt, if_pos s.outline_trail, Contents.foundIn, r.restores]

theorem mem_foundAt_fragment {f : Fragment} (h : f.written? c = some x) {e : Entry} :
    e ∈ foundAt w f.trail x ↔ ∃ p path problem, f.texts? c = some (p, some path) ∧
      (w.readLocal path >>= w.render path) = .error problem ∧
        e = .error (.source (f.trail.key "contents_local")) problem := by
  obtain ⟨⟨contents, local'⟩, htexts, hlocal⟩ := contentsLocal_of_written h
  have hresource : f.trail.outline ∉ resourcePlaces :=
    (by decide : ∀ o ∈ unitPlaces, o ∉ resourcePlaces) _ f.outline_trail
  rw [foundAt, if_neg hresource, if_pos f.outline_trail, unitFound, hlocal, htexts,
    Report.mem_ofContents]
  cases local' <;> simp

theorem mem_foundAt_user {i : Nat} {u : User} {e : Entry} :
    e ∈ foundAt w (userTrail i) (User.codec.write u) ↔ ∃ j path problem,
      u.sshAuthorizedKeysLocal[j]? = some path ∧ w.readLocal path = .error problem ∧
        e = .error (.source (keyFileTrail i j)) problem := by
  have hfiles : (((User.codec.write u).get? "ssh_authorized_keys_local").bind Json.items?).getD [] =
      u.sshAuthorizedKeysLocal.map Json.str := rfl
  have houtline : (userTrail i).outline = userPlace := rfl
  rw [foundAt, houtline, if_neg (by decide), if_neg (by decide), if_pos rfl, userFound, hfiles]
  simp only [List.mem_flatMap, Prod.exists, List.mk_mem_zipIdx_iff_getElem?, List.getElem?_map,
    Report.mem_ofContents]
  constructor
  · rintro ⟨x, j, hx, problem, hproblem, rfl⟩
    obtain ⟨path, hpath, rfl⟩ := Option.map_eq_some_iff.mp hx
    exact ⟨j, path, problem, hpath, Option.some.inj hproblem, rfl⟩
  · rintro ⟨j, path, problem, hpath, hproblem, rfl⟩
    exact ⟨.str path, j, by rw [hpath]; rfl, problem, congrArg some hproblem, rfl⟩

/-- A trail of the outline of users leads to a user. -/
theorem user_of_place {t : Trail} (h : t.outline = userPlace)
    (hx : (Config.codec.write c).at? t = some x) : ∃ (i : Nat) (u : User), t = userTrail i ∧
      c.passwd.users[i]? = some u ∧ x = User.codec.write u := by
  obtain ⟨list, rfl, hlist⟩ := Trail.outline_eq_key.mp h
  obtain ⟨user, rfl, hu⟩ := Trail.outline_eq_key.mp hlist
  obtain ⟨i, rest, rfl, hrest⟩ := Trail.outline_eq_index.mp hu
  cases Trail.outline_eq_nil.mp hrest
  have hlist : (Config.codec.write c).at? [.key "passwd", .key "users"] =
      some (.arr (c.passwd.users.map User.codec.write)) := rfl
  obtain ⟨u, hu, rfl⟩ := Option.map_eq_some_iff.mp ((Json.at?_index_map hlist i).symm.trans hx)
  exact ⟨i, u, rfl, hu, rfl⟩

theorem at?_user {i : Nat} {u : User} (h : c.passwd.users[i]? = some u) :
    (Config.codec.write c).at? (userTrail i) = some (User.codec.write u) := by
  refine (@Json.at?_index_map _ User.codec.write c.passwd.users [.key "passwd", .key "users"] _
    rfl i).trans ?_
  rw [h]
  rfl

/-- Texts are written. -/
theorem exists_written {f : Fragment} {p : Option String × Option String}
    (h : f.texts? c = some p) : ∃ x, f.written? c = some x := by
  cases f with
  | unit i =>
    obtain ⟨u, hu, -⟩ := Option.map_eq_some_iff.mp h
    exact ⟨_, by rw [Fragment.written?, hu]; rfl⟩
  | dropin i j =>
    obtain ⟨d, hd, -⟩ := Option.map_eq_some_iff.mp h
    exact ⟨_, by rw [Fragment.written?, hd]; rfl⟩

/-- **The entries for a config** before trees and units: they are about contents that are embedded,
about local files of units, and about local files with keys. -/
theorem mem_report_walked {e : Entry} : e ∈ (walked w c).report ↔
    (∃ s r, Slot.get? c s = some r ∧ e ∈ Contents.found w s.trail r) ∨
    (∃ f p path problem, Fragment.texts? c f = some (p, some path) ∧
      (w.readLocal path >>= w.render path) = .error problem ∧
        e = .error (.source (f.trail.key "contents_local")) problem) ∨
    ∃ i u j path problem, c.passwd.users[i]? = some u ∧
      u.sshAuthorizedKeysLocal[j]? = some path ∧ w.readLocal path = .error problem ∧
        e = .error (.source (keyFileTrail i j)) problem := by
  rw [report_walked, Translator.mem_report_iff (adds w) (Config.writes c).isDistinct]
  constructor
  · rintro ⟨t, x, hx, -, he⟩
    rw [List.nil_append] at he
    by_cases hresource : t.outline ∈ resourcePlaces
    · obtain ⟨s, rfl⟩ := exists_slot hresource
      obtain ⟨r, hr, rfl⟩ := Option.map_eq_some_iff.mp ((at?_slot c s).symm.trans hx)
      exact .inl ⟨s, r, hr, foundAt_slot s r ▸ he⟩
    by_cases hunit : t.outline ∈ unitPlaces
    · obtain ⟨f, rfl⟩ := exists_fragment hunit
      obtain ⟨p, path, problem, h⟩ :=
        (mem_foundAt_fragment ((at?_fragment c f).symm.trans hx)).mp he
      exact .inr (.inl ⟨f, p, path, problem, h⟩)
    by_cases huser : t.outline = userPlace
    · obtain ⟨i, u, rfl, hu, rfl⟩ := user_of_place huser hx
      obtain ⟨j, path, problem, h⟩ := mem_foundAt_user.mp he
      exact .inr (.inr ⟨i, u, j, path, problem, hu, h⟩)
    · rw [foundAt, if_neg hresource, if_neg hunit, if_neg huser] at he
      cases he
  · have hmem : ∀ {o : Outline}, o ∈ resourcePlaces ∨ o ∈ unitPlaces ∨ o = userPlace →
        o ∈ rulePlaces := fun h => by simpa [rulePlaces, or_assoc] using h
    rintro (⟨s, r, hr, he⟩ | ⟨f, p, path, problem, h⟩ | ⟨i, u, j, path, problem, hu, h⟩)
    · refine ⟨s.trail, Resource.codec.write r, ?_, isKept_of_rule (hmem (.inl s.outline_trail)), ?_⟩
      · rw [at?_slot, hr]
        rfl
      · rw [List.nil_append, foundAt_slot]
        exact he
    · obtain ⟨x, hx⟩ := exists_written h.1
      refine ⟨f.trail, x, (at?_fragment c f).trans hx,
        isKept_of_rule (hmem (.inr (.inl f.outline_trail))), ?_⟩
      rw [List.nil_append]
      exact (mem_foundAt_fragment hx).mpr ⟨p, path, problem, h⟩
    · refine ⟨userTrail i, _, at?_user hu, isKept_of_rule (hmem (.inr (.inr rfl))), ?_⟩
      rw [List.nil_append]
      exact mem_foundAt_user.mpr ⟨j, path, problem, h⟩

/-! ## One entry for each place -/

/-- The place with the rule that finds an entry. -/
def ownerOf (path : Path) : Trail :=
  if path.trail.outline ∈ resourcePlaces then path.trail
  else match path.trail.getLast? with
    | some (.index _) => path.trail.dropLast.dropLast
    | _ => path.trail.dropLast

theorem ownerOf_resource {o : Trail} (h : o.outline ∈ resourcePlaces) :
    ownerOf (.source o) = o :=
  if_pos h

theorem ownerOf_key {o : Trail} {k : String} (h : o.outline ++ [some k] ∉ resourcePlaces) :
    ownerOf (.source (o.key k)) = o := by
  rw [← Trail.outline_key] at h
  rw [ownerOf, Path.source, if_neg h, Trail.key, List.getLast?_concat, List.dropLast_concat]

theorem ownerOf_index {o : Trail} {k : String} {i : Nat}
    (h : o.outline ++ [some k, none] ∉ resourcePlaces) :
    ownerOf (.source ((o.key k).index i)) = o := by
  have houtline : ((o.key k).index i).outline = o.outline ++ [some k, none] := by
    rw [Trail.outline_index, Trail.outline_key, List.append_assoc]
    rfl
  rw [← houtline] at h
  rw [ownerOf, Path.source, if_neg h, Trail.index, List.getLast?_concat, List.dropLast_concat,
    Trail.key, List.dropLast_concat]

theorem owner_foundAt {o : Trail} : ∀ e ∈ foundAt w o x, ownerOf e.path = o := by
  intro e he
  rw [foundAt] at he
  split at he
  · next hresource =>
    have hbelow : ∀ k, o.outline ++ [some k] ∉ resourcePlaces := fun k hm => by
      have hall : ∀ p ∈ resourcePlaces, ∀ q ∈ resourcePlaces, p <+: q → p = q := by decide
      exact absurd (hall _ hresource _ hm (List.prefix_append _ _)) (by simp)
    rw [Contents.foundIn] at he
    split at he
    · cases List.mem_singleton.mp he
      exact ownerOf_resource hresource
    · obtain ⟨field, problem, -, rfl⟩ := Contents.mem_found.mp he
      exact ownerOf_key (hbelow field)
  · split at he
    · next hunit =>
      obtain ⟨problem, -, rfl⟩ := Report.mem_ofContents.mp he
      exact ownerOf_key ((by decide :
        ∀ o ∈ unitPlaces, o ++ [some "contents_local"] ∉ resourcePlaces) _ hunit)
    · split at he
      · next huser =>
        obtain ⟨file, -, he⟩ := List.mem_flatMap.mp he
        obtain ⟨problem, -, rfl⟩ := Report.mem_ofContents.mp he
        exact ownerOf_index (by rw [huser]; decide)
      · cases he

theorem nodup_userFound (o : Trail) (x : Json) : ((userFound w o x).map Entry.path).Nodup := by
  rw [userFound, List.map_flatMap, List.nodup_flatMap]
  refine ⟨fun e _ => Report.nodup_ofContents _ _, ?_⟩
  -- Each entry is about the position of its file.
  have hpositions := List.nodup_zipIdx_map_snd
    (((x.get? "ssh_authorized_keys_local").bind Json.items?).getD [])
  refine (List.pairwise_map.mp hpositions).imp fun {e e'} hne p hp hp' => hne ?_
  obtain ⟨entry, hentry, rfl⟩ := List.mem_map.mp hp
  obtain ⟨entry', hentry', heq⟩ := List.mem_map.mp hp'
  obtain ⟨problem, -, rfl⟩ := Report.mem_ofContents.mp hentry
  obtain ⟨problem', -, rfl⟩ := Report.mem_ofContents.mp hentry'
  have htrail := congrArg Path.trail heq
  exact (Segment.index.inj (List.singleton_inj.mp (List.append_cancel_left htrail))).symm

theorem nodup_foundAt (o : Trail) (x : Json) : ((foundAt w o x).map Entry.path).Nodup := by
  rw [foundAt]
  split
  · rw [Contents.foundIn]
    split
    · exact List.nodup_singleton _
    · rw [Contents.found]
      split
      · exact Report.nodup_ofContents _ _
      · exact List.nodup_nil
  · split
    · exact Report.nodup_ofContents _ _
    · split
      · exact nodup_userFound o x
      · exact List.nodup_nil

/-- **No two entries for a config are about one place.** -/
theorem nodup_report_walked (w : Workspace) (c : Config) :
    ((walked w c).report.map Entry.path).Nodup := by
  rw [report_walked]
  exact Translator.nodup_paths (adds w) (Config.writes c).isDistinct ownerOf
    (fun _ _ => owner_foundAt) nodup_foundAt

end Source
end Provision
