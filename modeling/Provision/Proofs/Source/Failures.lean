import Provision.Proofs.Source.Exclusive
import Provision.Proofs.Source.Keys

/-!
# Failures are isolated

Texts are taken into the document from contents of resources, which are given in place or in a local
file, from local files of units and drop-ins, and from local files with keys. If a text cannot be read
or rendered, this is reported at its field, and the document is the same as without it, but for the
place that the text is for.

* `agree_translate`: whatever a resource says, only its place in the document depends on it.
* `value_walked_fragment`, `value_walked_keys`: units and users are made of the same without a local
  file that fails.
* `Body`: a text that is taken into the document, with its field, its place and what is read of it.
* `mem_report_iff`: what is reported of a config that is checked.
* `failures_isolated`: failures are reported, once each, and isolated.
-/

set_option autoImplicit false

namespace Provision.Source

open Text (Bytes)
open Translator (Differ AgreeBeside)

variable {w : Workspace} {c : Config}

/-! ## Documents without trees -/

theorem expand_no_trees (w : Workspace) (ht : c.storage.trees = []) :
    Trees.expand w c.storage.trees [] (walked w c) = walked w c := by
  rw [ht]
  rfl

/-- Without trees, what is made is laid over the units for filesystems, member by member. -/
theorem get?_translate (w : Workspace) (ht : c.storage.trees = []) (k : String) :
    (translate w c).value.get? k =
      match (MountUnit.units c.storage.filesystems []).value.get? k, (walked w c).value.get? k with
      | some v, some u => some (Merge.mergeValue [.key k] [.key k] v u).value
      | some v, none => some v
      | none, u => u := by
  rw [translate_eq, expand_no_trees w ht]
  dsimp only
  split
  · exact Merge.get?_mergeValue [] [] k (shaped_units c).fits.eq_obj (shaped_walked w c).fits.eq_obj
  · next hnone =>
    have hunits : (MountUnit.units c.storage.filesystems []).value.get? k = none := by
      by_cases hk : k = "systemd"
      · rw [hk]
        exact Option.not_isSome_iff_eq_none.mp hnone
      · exact get?_units hk
    rw [hunits]

/-- Without trees, all that is found is found before units. -/
theorem report_translate (w : Workspace) (ht : c.storage.trees = []) :
    (translate w c).report = (walked w c).report := by
  rw [translate_eq, expand_no_trees w ht]
  dsimp only
  split
  · rw [Merge.merge, MountUnit.report_units]
    rfl
  · rfl

/-- Without trees, what is made depends on what is made before units, and on the filesystems. -/
theorem value_translate_congr {c' : Config} (ht : c.storage.trees = [])
    (ht' : c'.storage.trees = []) (hfs : c'.storage.filesystems = c.storage.filesystems)
    (h : (walked w c).value = (walked w c').value) :
    (translate w c).value = (translate w c').value := by
  rw [translate_eq, translate_eq, expand_no_trees w ht, expand_no_trees w ht', hfs]
  dsimp only
  split
  · change (Merge.mergeValue [] [] _ (walked w c).value).value = _
    rw [h]
    rfl
  · exact h

/-! ## Resources -/

/-- The config with another resource at the place. -/
def Slot.modify (f : Resource → Resource) (c : Config) : Slot → Config
  | merge i =>
    let merge := c.ignition.config.merge.modify i f
    { c with ignition := { c.ignition with config := { c.ignition.config with merge } } }
  | replace =>
    let replace := f c.ignition.config.replace
    { c with ignition := { c.ignition with config := { c.ignition.config with replace } } }
  | authority i =>
    let certificateAuthorities := c.ignition.security.tls.certificateAuthorities.modify i f
    { c with ignition := { c.ignition with security := { tls := { certificateAuthorities } } } }
  | contents i =>
    let files := c.storage.files.modify i fun file => { file with contents := f file.contents }
    { c with storage := { c.storage with files } }
  | append i j =>
    let files := c.storage.files.modify i fun file =>
      { file with append := file.append.modify j f }
    { c with storage := { c.storage with files } }
  | keyFile i =>
    let luks := c.storage.luks.modify i fun volume => { volume with keyFile := f volume.keyFile }
    { c with storage := { c.storage with luks } }

theorem differ_slot (f : Resource → Resource) {s : Slot} {r : Resource} (hs : s.get? c = some r) :
    Differ (Resource.codec.write r) (Resource.codec.write (f r)) s.trail (Config.codec.write c)
      (Config.codec.write (s.modify f c)) := by
  cases s with
  | merge i =>
    exact .member [] _ (.member [] _ (.member [] _ (Translator.differ_modify hs .here)))
  | replace =>
    cases hs
    exact .member [] _ (.member [] _ (.member [_] _ .here))
  | authority i =>
    exact .member [] _ (.member [_, _] _ (.member [] _ (.member [] _
      (Translator.differ_modify hs .here))))
  | contents i =>
    obtain ⟨file, hfile, rfl⟩ := Option.map_eq_some_iff.mp hs
    have hmember : Differ (Resource.codec.write file.contents)
        (Resource.codec.write (f file.contents)) [.key "contents"] (File.codec.write file)
        (File.codec.write { file with contents := f file.contents }) :=
      .member [_, _, _, _] _ .here
    exact .member [_, _, _] _ (.member [_, _, _, _] _ (Translator.differ_modify
      (g := fun file => { file with contents := f file.contents }) hfile hmember))
  | append i j =>
    obtain ⟨file, hfile, hr⟩ := Option.bind_eq_some_iff.mp hs
    have hmember : Differ (Resource.codec.write r) (Resource.codec.write (f r))
        [.key "append", .index j] (File.codec.write file)
        (File.codec.write { file with append := file.append.modify j f }) :=
      .member [_, _, _, _, _] _ (Translator.differ_modify hr .here)
    exact .member [_, _, _] _ (.member [_, _, _, _] _ (Translator.differ_modify
      (g := fun file => { file with append := file.append.modify j f }) hfile hmember))
  | keyFile i =>
    obtain ⟨volume, hvolume, rfl⟩ := Option.map_eq_some_iff.mp hs
    have hmember : Differ (Resource.codec.write volume.keyFile)
        (Resource.codec.write (f volume.keyFile)) [.key "key_file"] (Luks.codec.write volume)
        (Luks.codec.write { volume with keyFile := f volume.keyFile }) :=
      .member [_, _] _ .here
    exact .member [_, _, _] _ (.member [_, _, _] _ (Translator.differ_modify
      (g := fun volume => { volume with keyFile := f volume.keyFile }) hvolume hmember))

/-- What stands for nothing has no scalars. -/
theorem at?_getD_iff {m : Option Json} {q : Trail} {z : Json} (hz : z.isScalar = true) :
    (m.getD (.obj [])).at? q = some z ↔ m.bind (·.at? q) = some z := by
  cases m with
  | some v => rfl
  | none =>
    refine iff_of_false (fun h => ?_) nofun
    cases q with
    | nil =>
      cases h
      cases hz
    | cons s q => cases s <;> cases h

/-- The units are made of the same, whatever a resource says, as none is among them. -/
theorem get?_systemd_modify (w : Workspace) (f : Resource → Resource) {s : Slot} {r : Resource}
    (hs : s.get? c = some r) :
    (walked w c).value.get? "systemd" = (walked w (s.modify f c)).value.get? "systemd" := by
  have hdiffer := differ_slot f hs
  have hbeside : ∀ k u, s.trail = .key k :: u → "systemd" ≠ (translator w).nameOf k →
      (walked w c).value.get? "systemd" = (walked w (s.modify f c)).value.get? "systemd" := by
    intro k u hk hn
    rw [walked_eq_walk, walked_eq_walk, Translated.value_map, Translated.value_map, get?_getD,
      get?_getD]
    exact Differ.get?_walk (hk ▸ hdiffer) hn
  have hignition := nameOf_of_lookup w (rfl : names.lookup "ignition" = some "ignition")
  have hstorage := nameOf_of_lookup w (rfl : names.lookup "storage" = some "storage")
  cases s
  case merge | replace | authority => exact hbeside _ _ rfl (by rw [hignition]; decide)
  all_goals exact hbeside _ _ rfl (by rw [hstorage]; decide)

/-- **Whatever a resource says, only its place in the document depends on it**, without trees. -/
theorem agree_translate (w : Workspace) (ht : c.storage.trees = []) (f : Resource → Resource)
    {s : Slot} {r : Resource} (hs : s.get? c = some r) :
    AgreeBeside ((translator w).rename s.trail) (some (translate w c).value)
      (some (translate w (s.modify f c)).value) := by
  have ht' : (s.modify f c).storage.trees = [] := by cases s <;> exact ht
  have hfs : (s.modify f c).storage.filesystems = c.storage.filesystems := by cases s <;> rfl
  have hdiffer := differ_slot f hs
  have hfree := @free_of_outer w s.trail (List.mem_append_left _ s.outline_trail)
  have hnil : s.trail ≠ [] := by cases s <;> exact List.cons_ne_nil _ _
  have hwalk : AgreeBeside ((translator w).rename s.trail)
      ((translator w).walk [] [] (Config.codec.write c)).value
      ((translator w).walk [] [] (Config.codec.write (s.modify f c))).value :=
    Translator.agree_walk hdiffer hnil (isApart_write w c) hfree
  have hsystemd := get?_systemd_modify w f hs
  obtain ⟨made, hmade⟩ := (shaped_translate w c).fits.eq_obj
  obtain ⟨made', hmade'⟩ := (shaped_translate w (s.modify f c)).fits.eq_obj
  intro q z hz hq
  rw [Option.bind_some, Option.bind_some]
  match q with
  | [] =>
    rw [hmade, hmade']
    refine iff_of_false (fun h => ?_) (fun h => ?_) <;> cases h <;> cases hz
  | .index _ :: _ =>
    rw [hmade, hmade']
    exact iff_of_false nofun nofun
  | .key k :: q =>
    have hat : ∀ x : Json, x.at? (.key k :: q) = (x.get? k).bind (·.at? q) := fun _ => rfl
    rw [hat, hat, get?_translate w ht, get?_translate w ht', hfs]
    by_cases hk : k = "systemd"
    · rw [hk, hsystemd]
    · rw [get?_units hk]
      dsimp only
      rw [← hat, ← hat, walked_eq_walk, walked_eq_walk, Translated.value_map, Translated.value_map,
        at?_getD_iff hz, at?_getD_iff hz]
      exact hwalk _ z hz hq

/-! ## Texts of units -/

/-- The config without the local file of a unit or of a drop-in. -/
def Fragment.without (c : Config) : Fragment → Config
  | unit i =>
    let units := c.systemd.units.modify i fun u => { u with contentsLocal := none }
    { c with systemd := { units } }
  | dropin i j =>
    let units := c.systemd.units.modify i fun u =>
      { u with dropins := u.dropins.modify j fun d => { d with contentsLocal := none } }
    { c with systemd := { units } }

/-- If the same is made of a unit that is modified, the same is made of the config. -/
theorem value_walked_unit {i : Nat} {u : Unit} (hu : c.systemd.units[i]? = some u) (g : Unit → Unit)
    (hsame : ∀ place,
      ((translator w).translateAt (Fragment.unit i).trail place (Unit.codec.write u)).value =
        ((translator w).translateAt (Fragment.unit i).trail place (Unit.codec.write (g u))).value) :
    (walked w c).value =
      (walked w { c with systemd := { units := c.systemd.units.modify i g } }).value := by
  have hdiffer : Differ (Unit.codec.write u) (Unit.codec.write (g u)) (Fragment.unit i).trail
      (Config.codec.write c)
      (Config.codec.write { c with systemd := { units := c.systemd.units.modify i g } }) :=
    .member [_, _, _, _] _ (.member [] _ (Translator.differ_modify hu .here))
  have hfree : (translator w).Free [] (Fragment.unit i).trail :=
    free_of_outer (by exact (by decide : [some "systemd", some "units", none] ∈ outerPlaces))
  rw [walked_eq_walk, walked_eq_walk, Translated.value_map, Translated.value_map,
    Translator.value_walk hdiffer (List.cons_ne_nil _ _) hfree hsame rfl]

section Rule

variable {m m' : Translated (Option Json)} {x x' : Json} {origin place : Trail}

/-- A local file that cannot be read or rendered leaves a unit as it is. -/
theorem value_unitRule_of_error {path : String} {problem : Problem}
    (hpath : (x.get? "contents_local").bind Json.text? = some path)
    (herror : (w.readLocal path >>= w.render path) = .error problem) :
    (unitRule w m x origin place).value = m.value := by
  rw [unitRule, hpath]
  dsimp only
  rw [herror]

theorem unitRule_of_none (hpath : (x.get? "contents_local").bind Json.text? = none) :
    unitRule w m x origin place = m := by
  rw [unitRule, hpath]

/-- What the rule for units makes depends on what the walk makes and on the local file. -/
theorem value_unitRule_congr (hm : m.value = m'.value)
    (hx : x.get? "contents_local" = x'.get? "contents_local") :
    (unitRule w m x origin place).value = (unitRule w m' x' origin place).value := by
  rw [unitRule, unitRule, hx]
  cases (x'.get? "contents_local").bind Json.text? with
  | none => exact hm
  | some path =>
    dsimp only
    cases w.readLocal path >>= w.render path with
    | error problem => exact hm
    | ok data =>
      dsimp only
      rw [hm]
      cases m'.value.getD (.obj []) <;> first | rfl | exact hm

end Rule

theorem isSkipped_contentsLocal (w : Workspace) (f : Fragment) :
    (translator w).isSkipped (f.trail.key "contents_local") = true := by
  rw [isSkipped_iff, Trail.outline_key]
  exact (by decide : ∀ o ∈ unitPlaces, o ++ [some "contents_local"] ∈ skippedPlaces) _
    f.outline_trail

/-- A local file that cannot be read or rendered makes no difference to what is made of a unit or
drop-in at its place. -/
theorem value_translateAt_without {f : Fragment} {place : Trail} {x x' : Json} {path : String}
    {problem : Problem}
    (hwalk : (translator w).walk f.trail place x = (translator w).walk f.trail place x')
    (hpath : (x.get? "contents_local").bind Json.text? = some path)
    (hnone : (x'.get? "contents_local").bind Json.text? = none)
    (herror : (w.readLocal path >>= w.render path) = .error problem) :
    ((translator w).translateAt f.trail place x).value =
      ((translator w).translateAt f.trail place x').value := by
  rw [translateAt_unitPlace f.outline_trail, translateAt_unitPlace f.outline_trail,
    unitRule_of_none hnone, ← hwalk]
  exact value_unitRule_of_error hpath herror

/-- **A unit or drop-in is made of the same with a local file that cannot be read or rendered, and
without one.** -/
theorem value_walked_fragment {f : Fragment} {contents : Option String} {path : String}
    {problem : Problem} (hf : f.texts? c = some (contents, some path))
    (herror : (w.readLocal path >>= w.render path) = .error problem) :
    (walked w c).value = (walked w (f.without c)).value := by
  cases f with
  | unit i =>
    obtain ⟨u, hu, heq⟩ := Option.map_eq_some_iff.mp hf
    have hlocal : u.contentsLocal = some path := congrArg Prod.snd heq
    refine value_walked_unit hu _ fun place => ?_
    have hwalk : (translator w).walk (Fragment.unit i).trail place (Unit.codec.write u) =
        (translator w).walk (Fragment.unit i).trail place
          (Unit.codec.write { u with contentsLocal := none }) :=
      @Translator.walk_skipped _ _ _ [_, _, _, _] _ _ (isSkipped_contentsLocal w (.unit i)) _ _
    refine value_translateAt_without hwalk ?_ rfl herror
    change ((u.contentsLocal.map Json.str).getD .null).text? = _
    rw [hlocal]
    rfl
  | dropin i j =>
    obtain ⟨d, hd, heq⟩ := Option.map_eq_some_iff.mp hf
    obtain ⟨u, hu, hd⟩ := Option.bind_eq_some_iff.mp hd
    have hlocal : d.contentsLocal = some path := congrArg Prod.snd heq
    refine value_walked_unit hu _ fun place => ?_
    rw [translateAt_unitPlace (Fragment.unit i).outline_trail,
      translateAt_unitPlace (Fragment.unit i).outline_trail]
    refine value_unitRule_congr ?_ rfl
    have hdiffer : Differ (Dropin.codec.write d)
        (Dropin.codec.write { d with contentsLocal := none }) [.key "dropins", .index j]
        (Unit.codec.write u) (Unit.codec.write
          { u with dropins := u.dropins.modify j fun d => { d with contentsLocal := none } }) :=
      .member [_, _, _, _, _] _ (Translator.differ_modify
        (g := fun d => { d with contentsLocal := none }) hd .here)
    have hfree : (translator w).Free (Fragment.unit i).trail [.key "dropins", .index j] :=
      free_of_outline (by decide : ∀ p ∈ rulePlaces,
        p <+: [some "systemd", some "units", none, some "dropins", none] →
          p.length ≤ 3 ∨ p = [some "systemd", some "units", none, some "dropins", none])
    refine Translator.value_walk hdiffer (List.cons_ne_nil _ _) hfree (fun place => ?_) rfl
    have hwalk : (translator w).walk (Fragment.dropin i j).trail place (Dropin.codec.write d) =
        (translator w).walk (Fragment.dropin i j).trail place
          (Dropin.codec.write { d with contentsLocal := none }) :=
      @Translator.walk_skipped _ _ _ [_, _] _ _ (isSkipped_contentsLocal w (.dropin i j)) _ _
    refine value_translateAt_without hwalk ?_ rfl herror
    change ((d.contentsLocal.map Json.str).getD .null).text? = _
    rw [hlocal]
    rfl

/-! ## Keys of users -/

/-- The config without a local file with keys of a user. -/
def Config.withoutKeys (c : Config) (i j : Nat) : Config :=
  let users := c.passwd.users.modify i fun u =>
    { u with sshAuthorizedKeysLocal := u.sshAuthorizedKeysLocal.eraseIdx j }
  { c with passwd := { c.passwd with users } }

/-- Files without keys do not matter. -/
theorem flatMap_eraseIdx {α β : Type} {f : α → List β} {items : List α} {j : Nat} {a : α}
    (ha : items[j]? = some a) (hf : f a = []) :
    (items.eraseIdx j).flatMap f = items.flatMap f := by
  obtain ⟨hj, rfl⟩ := List.getElem?_eq_some_iff.mp ha
  have hsplit : items = items.take j ++ items[j] :: items.drop (j + 1) := by simp
  conv => rhs; rw [hsplit]
  rw [List.eraseIdx_eq_take_drop_succ, List.flatMap_append, List.flatMap_append, List.flatMap_cons,
    hf, List.nil_append]

/-- **A user is made of the same with a local file that cannot be read, and without it.** -/
theorem value_walked_keys {i j : Nat} {u : User} {path : String} {problem : Problem}
    (hu : c.passwd.users[i]? = some u) (hpath : u.sshAuthorizedKeysLocal[j]? = some path)
    (herror : w.readLocal path = .error problem) :
    (walked w c).value = (walked w (c.withoutKeys i j)).value := by
  let u' := { u with sshAuthorizedKeysLocal := u.sshAuthorizedKeysLocal.eraseIdx j }
  have hdiffer : Differ (User.codec.write u) (User.codec.write u') (userTrail i)
      (Config.codec.write c) (Config.codec.write (c.withoutKeys i j)) :=
    .member [_, _] _ (.member [] _ (Translator.differ_modify (g := fun u : User =>
      { u with sshAuthorizedKeysLocal := u.sshAuthorizedKeysLocal.eraseIdx j }) hu .here))
  have hfree : (translator w).Free [] (userTrail i) :=
    free_of_outer (by exact (by decide : userPlace ∈ outerPlaces))
  have hskip : (translator w).isSkipped ((userTrail i).key "ssh_authorized_keys_local") = true :=
    (isSkipped_iff w _).mpr (by
      exact (by decide : [some "passwd", some "users", none, some "ssh_authorized_keys_local"] ∈
        skippedPlaces))
  have hempty : keysIn w path = [] := by rw [keysIn, herror]
  rw [walked_eq_walk, walked_eq_walk, Translated.value_map, Translated.value_map,
    Translator.value_walk hdiffer (List.cons_ne_nil _ _) hfree (fun place => ?_) rfl]
  have hwalk : (translator w).walk (userTrail i) place (User.codec.write u) =
      (translator w).walk (userTrail i) place (User.codec.write u') :=
    @Translator.walk_skipped _ _ _ [_, _, _] _ _ hskip _ _
  obtain ⟨members, hmembers⟩ := @walk_user w (userTrail i) place u'
  rw [List.nil_append, translateAt_user rfl, translateAt_user rfl, hwalk,
    @value_userRule w _ _ _ _ u.sshAuthorizedKeysLocal _ rfl hmembers,
    @value_userRule w _ _ _ _ (u.sshAuthorizedKeysLocal.eraseIdx j) _ rfl hmembers,
    flatMap_eraseIdx hpath hempty]

/-! ## Texts that are taken into the document -/

/-- A text that is taken into the document: the contents of a resource, given in place or in a local
file, the local file of a unit or a drop-in, or a local file with keys of a user. -/
inductive Body where
  | inline (s : Slot)
  | stored (s : Slot)
  | text (f : Fragment)
  | keys (i j : Nat)

namespace Body

/-- The field that gives the text. -/
def field : Body → Trail
  | inline s => s.trail.key "inline"
  | stored s => s.trail.key "local"
  | text f => f.trail.key "contents_local"
  | keys i j => keyFileTrail i j

/-- What is read and rendered, or what is wrong with it. Files with keys are only read. -/
def outcome? (w : Workspace) (c : Config) : Body → Option (Except Problem Bytes)
  | inline s => ((s.get? c).bind (·.inline)).map fun text =>
    w.render (s.trail.key "inline").text (Text.encodeUtf8 text.toList)
  | stored s => ((s.get? c).bind (·.localPath)).map fun path => w.readLocal path >>= w.render path
  | text f => ((f.texts? c).bind Prod.snd).map fun path => w.readLocal path >>= w.render path
  | keys i j => (c.passwd.users[i]?.bind (·.sshAuthorizedKeysLocal[j]?)).map w.readLocal

/-- The config in which the text is left out. -/
def without (c : Config) : Body → Config
  | inline s => s.modify (fun r => { r with inline := none }) c
  | stored s => s.modify (fun r => { r with localPath := none }) c
  | text f => f.without c
  | keys i j => c.withoutKeys i j

/-- The place in the document that the text is for: a resource, the contents of a unit or a drop-in,
or the keys of a user. -/
def place (w : Workspace) : Body → Trail
  | inline s | stored s => (translator w).rename s.trail
  | text f => ((translator w).rename f.trail).key "contents"
  | keys i _ => keysTrail i

end Body

/-! ## What is reported -/

/-- **What is reported of a config that is checked** are the texts that cannot be read or rendered, at
the fields that give them. -/
theorem mem_report_iff (hvalid : (validate [] c).isFatal = false) {e : Entry} :
    e ∈ (walked w c).report ↔ ∃ (b : Body) (problem : Problem),
      b.outcome? w c = some (.error problem) ∧ e = .error (.source b.field) problem := by
  have hsingle : ∀ {s : Slot} {r : Resource}, s.get? c = some r → r.IsSingle := fun hs =>
    (Resource.isSingle_iff _).mpr (given_of_validate hvalid hs)
  rw [mem_report_walked]
  constructor
  · rintro (⟨s, r, hs, he⟩ | ⟨f, p, path, problem, hf, herror, rfl⟩ |
      ⟨i, u, j, path, problem, hu, hpath, herror, rfl⟩)
    · obtain ⟨field, problem, hbody, rfl⟩ := Contents.mem_found.mp he
      generalize hout : Except.error problem = out at hbody
      cases (Contents.supplied_iff (hsingle hs)).mpr hbody with
      | @written text h =>
        exact ⟨.inline s, problem, by rw [Body.outcome?, hs, Option.bind_some, h, hout]; rfl, rfl⟩
      | @stored path h =>
        exact ⟨.stored s, problem, by rw [Body.outcome?, hs, Option.bind_some, h, hout]; rfl, rfl⟩
    · exact ⟨.text f, problem, by rw [Body.outcome?, hf, Option.bind_some, Option.map_some, herror],
        rfl⟩
    · exact ⟨.keys i j, problem, by
        rw [Body.outcome?, hu, Option.bind_some, hpath, Option.map_some, herror], rfl⟩
  · rintro ⟨b, problem, houtcome, rfl⟩
    cases b with
    | inline s =>
      obtain ⟨text, htext, herror⟩ := Option.map_eq_some_iff.mp houtcome
      obtain ⟨r, hs, hr⟩ := Option.bind_eq_some_iff.mp htext
      have hsupplied : Contents.Supplied w s.trail r "inline" _ := .written hr
      have hbody := (Contents.supplied_iff (hsingle hs)).mp hsupplied
      rw [herror] at hbody
      exact .inl ⟨s, r, hs, Contents.mem_found.mpr ⟨"inline", problem, hbody, rfl⟩⟩
    | stored s =>
      obtain ⟨path, hpath, herror⟩ := Option.map_eq_some_iff.mp houtcome
      obtain ⟨r, hs, hr⟩ := Option.bind_eq_some_iff.mp hpath
      have hsupplied : Contents.Supplied w s.trail r "local" _ := .stored hr
      have hbody := (Contents.supplied_iff (hsingle hs)).mp hsupplied
      rw [herror] at hbody
      exact .inl ⟨s, r, hs, Contents.mem_found.mpr ⟨"local", problem, hbody, rfl⟩⟩
    | text f =>
      obtain ⟨path, hpath, herror⟩ := Option.map_eq_some_iff.mp houtcome
      obtain ⟨⟨p, path'⟩, hf, hp⟩ := Option.bind_eq_some_iff.mp hpath
      cases hp
      exact .inr (.inl ⟨f, p, path, problem, hf, herror, rfl⟩)
    | keys i j =>
      obtain ⟨path, hpath, herror⟩ := Option.map_eq_some_iff.mp houtcome
      obtain ⟨u, hu, hpath⟩ := Option.bind_eq_some_iff.mp hpath
      exact .inr (.inr ⟨i, u, j, path, problem, hu, hpath, herror, rfl⟩)

/-! ## Failures are isolated -/

/-- A text of a unit or a user that fails leaves the document as it is without it. -/
theorem value_without (ht : c.storage.trees = []) {b : Body} {problem : Problem}
    (h : b.outcome? w c = some (.error problem)) (hb : ∀ s, b ≠ .inline s ∧ b ≠ .stored s) :
    (translate w c).value = (translate w (b.without c)).value := by
  cases b with
  | inline s => exact absurd rfl (hb s).1
  | stored s => exact absurd rfl (hb s).2
  | text f =>
    obtain ⟨path, hpath, herror⟩ := Option.map_eq_some_iff.mp h
    obtain ⟨⟨p, path'⟩, hf, hp⟩ := Option.bind_eq_some_iff.mp hpath
    cases hp
    have hwithout : (f.without c).storage = c.storage := by cases f <;> rfl
    exact value_translate_congr ht (hwithout ▸ ht) (congrArg (·.filesystems) hwithout)
      (value_walked_fragment hf herror)
  | keys i j =>
    obtain ⟨path, hpath, herror⟩ := Option.map_eq_some_iff.mp h
    obtain ⟨u, hu, hpath⟩ := Option.bind_eq_some_iff.mp hpath
    exact value_translate_congr ht ht rfl (value_walked_keys hu hpath herror)

/-- **Only the place that a failing text is for is affected.** -/
theorem agree_without (ht : c.storage.trees = []) {b : Body} {problem : Problem}
    (h : b.outcome? w c = some (.error problem)) :
    AgreeBeside (b.place w) (some (translate w c).value)
      (some (translate w (b.without c)).value) := by
  cases b with
  | inline s =>
    obtain ⟨_, htext, -⟩ := Option.map_eq_some_iff.mp h
    obtain ⟨r, hs, -⟩ := Option.bind_eq_some_iff.mp htext
    exact agree_translate w ht _ hs
  | stored s =>
    obtain ⟨_, hpath, -⟩ := Option.map_eq_some_iff.mp h
    obtain ⟨r, hs, -⟩ := Option.bind_eq_some_iff.mp hpath
    exact agree_translate w ht _ hs
  | text | keys =>
    rw [value_without ht h fun s => ⟨nofun, nofun⟩]
    exact fun _ _ _ _ => .rfl

/-- What failures do to what is made of a config. -/
structure Isolated (w : Workspace) (c : Config) (d : Draft) : Prop where
  /-- Each text that cannot be read or rendered is reported once, at its field. -/
  reported : ∀ (b : Body) problem, b.outcome? w c = some (.error problem) →
    d.report.filter (fun e => decide (e.path = .source b.field)) =
      [.error (.source b.field) problem]
  /-- Nothing else is reported. -/
  only : ∀ e ∈ d.report, ∃ (b : Body) (problem : Problem),
    b.outcome? w c = some (.error problem) ∧ e = .error (.source b.field) problem
  /-- The document has the scalars that it has without the text, but for the place that the text is
  for. -/
  beside : ∀ (b : Body) problem, b.outcome? w c = some (.error problem) →
    AgreeBeside (b.place w) (some d.value) (some (translate w (b.without c)).value)

/-- **Texts that fail are reported, once each, and isolated**: in a config without trees that is
checked, what cannot be read or rendered is an error at its field, and nothing else is. All else in the
document is as if the text was left out. -/
theorem failures_isolated (w : Workspace) (c : Config) (ht : c.storage.trees = [])
    (hvalid : (validate [] c).isFatal = false) : Isolated w c (translate w c) where
  reported b problem h := by
    rw [report_translate w ht]
    exact Report.filter_path (nodup_report_walked w c)
      ((mem_report_iff hvalid).mpr ⟨b, problem, h, rfl⟩)
  only e he := by
    rw [report_translate w ht] at he
    exact (mem_report_iff hvalid).mp he
  beside b problem h := agree_without ht h

/-! ## Keys that are not rendered -/

/-- A local file with keys, and a renderer that always fails. -/
def failing : Workspace :=
  let keys := keyring "ssh-rsa a"
  { keys with options := { keys.options with renderer := some fun _ _ => .error "m" } }

/-- The contents of a file that cannot be rendered. -/
theorem keyed_isolated : keyed.storage.trees = [] ∧ (validate [] keyed).isFatal = false ∧
    Isolated failing keyed (translate failing keyed) :=
  ⟨rfl, rfl, failures_isolated failing keyed rfl rfl⟩

/-- A config with nothing but a user whose keys are in the file. -/
def filed : Config where
  passwd := keyed.passwd

/-- **Files with keys are not rendered**: the file cannot be rendered, and nothing is reported. -/
theorem filed_unreported :
    (failing.readLocal "keys" >>= failing.render "keys") = .error (.rendering "keys" "m") ∧
      (translate failing filed).report = [] := by
  have hread : failing.readLocal "keys" = .ok (Text.encodeUtf8 "ssh-rsa a".toList) :=
    readLocal_keyring "ssh-rsa a"
  refine ⟨?_, ?_⟩
  · rw [hread]
    with_unfolding_all decide
  · rw [report_translate failing rfl, List.eq_nil_iff_forall_not_mem]
    intro e he
    obtain ⟨b, problem, houtcome, -⟩ := (mem_report_iff (by rfl)).mp he
    cases b with
    | inline s | stored s => cases s <;> simp [Body.outcome?, Slot.get?, filed] at houtcome
    | text f => cases f <;> simp [Body.outcome?, Fragment.texts?, filed] at houtcome
    | keys i j =>
      obtain ⟨path, hpath, herror⟩ := Option.map_eq_some_iff.mp houtcome
      obtain ⟨u, hu, hpath⟩ := Option.bind_eq_some_iff.mp hpath
      cases List.mem_singleton.mp (List.mem_of_getElem? hu)
      cases List.mem_singleton.mp (List.mem_of_getElem? hpath)
      cases hread.symm.trans herror

end Provision.Source
