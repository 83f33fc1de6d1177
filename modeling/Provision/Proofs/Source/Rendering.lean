import Provision.Proofs.Files.Containment
import Provision.Proofs.Rendering
import Provision.Proofs.Source.Users
import Provision.Proofs.Translator.Agree

/-!
# Configs whose texts are rendered beforehand

The sections of a config embed texts at several kinds of places: contents, units and trees. If a
renderer only looks at the texts, the same is made without it once all of them are rendered, the ones
in the config and the ones in the files. The keys of users are the exception. They are read from files
too, but never rendered, so the rendered files must have the same keys.

* `Config.rendered`: the config with the texts rendered that are given in place.
* `KeepsKeys`: the rendered files have the keys of the files.
* `Same`: the same is made of two parts; `same_record` and `same_list` put parts together.
* `translate_rendering`: the document is the same, with its provenance and report.
-/

set_option autoImplicit false

namespace Provision.Source

open Decode (Codec RecordField)
open Files (FileSystem)
open Translator (Alike Agrees SameRules)
open Workspace (renderBytes)

/-! ## Rendered configs -/

section Rendered

variable (r : String → String)

/-- References with all texts rendered. -/
def References.rendered (x : References) : References where
  merge := x.merge.map (Resource.rendered r)
  replace := x.replace.rendered r

/-- Certificates with all texts rendered. -/
def Tls.rendered (x : Tls) : Tls where
  certificateAuthorities := x.certificateAuthorities.map (Resource.rendered r)

/-- Settings with all texts rendered: the configs they refer to, and certificates. -/
def Settings.rendered (x : Settings) : Settings :=
  { x with
    config := x.config.rendered r
    security := { x.security with tls := x.security.tls.rendered r } }

/-- A volume with the key file rendered. -/
def Luks.rendered (x : Luks) : Luks := { x with keyFile := x.keyFile.rendered r }

/-- A file with all contents rendered. -/
def File.rendered (x : File) : File :=
  { x with
    contents := x.contents.rendered r
    append := x.append.map (Resource.rendered r) }

/-- Storage with all texts rendered. -/
def Storage.rendered (x : Storage) : Storage :=
  { x with
    luks := x.luks.map (Luks.rendered r)
    files := x.files.map (File.rendered r) }

/-- A config with all texts rendered that are given in place. -/
def Config.rendered (x : Config) : Config :=
  { x with
    ignition := x.ignition.rendered r
    storage := x.storage.rendered r }

end Rendered

/-- The local files with the keys of users have the same keys after they are rendered. -/
def KeepsKeys (r : String → String) (w : Workspace) (c : Config) : Prop :=
  ∀ u ∈ c.passwd.users, ∀ path ∈ u.sshAuthorizedKeysLocal, ∀ data, w.readLocal path = .ok data →
    keyLines (renderBytes r data) = keyLines data

/-! ## Rules -/

section Rules

variable {w : Workspace} {r : String → String} {t : Trail}

theorem alike_rendering : Alike (translator (w.rendering r)) (translator (w.rendered r)) where
  skips := rfl
  names := rfl

/-- Units and drop-ins are read from the same contents. -/
theorem unitRule_rendering : unitRule (w.rendering r) = unitRule (w.rendered r) := by
  funext walked value origin place
  rw [unitRule, unitRule]
  simp only [Workspace.readLocal_render]

/-- The places at which the rules differ. -/
def renderedPlaces : List Outline := resourcePlaces ++ [userPlace]

/-- **The rules elsewhere are the same.** -/
theorem rule?_rendering (h : t.outline ∉ renderedPlaces) :
    (translator (w.rendering r)).rule? t = (translator (w.rendered r)).rule? t := by
  have hresource : ∀ rule : Translator.Rule,
      (resourceFields.map fun field => (Pattern.ofText field, rule)).find?
        (fun e => e.1.fits t) = none := by
    intro rule
    rw [List.find?_eq_none]
    intro e he hfits
    obtain ⟨field, hfield, rfl⟩ := List.mem_map.mp he
    refine h (List.mem_append_left _ ?_)
    rw [← resourcePlaces_eq, ← (Pattern.fits_iff _ t).mp hfits]
    exact List.mem_map_of_mem hfield
  have huser : (Pattern.ofText "passwd.users.*").fits t = false := by
    rw [← Bool.not_eq_true, Pattern.fits_iff, outline_users]
    exact fun ht => h (List.mem_append_right _ (List.mem_singleton.mpr ht.symm))
  simp only [Translator.rule?, translator, List.find?_append, hresource, Option.none_or,
    List.find?_cons, huser, List.find?_nil, unitRule_rendering]

theorem sameRules_rendering (h : ∀ p ∈ renderedPlaces, ¬ t.outline <+: p) :
    SameRules (translator (w.rendering r)) (translator (w.rendered r)) t := fun u =>
  rule?_rendering fun hm =>
    h _ hm ((Trail.outline_append t u).symm ▸ List.prefix_append _ _)

end Rules

/-! ## Parts of which the same is made -/

/-- The same is made of two parts at all places of an outline: of one with the renderer, of the other
with all texts rendered. -/
def Same (w : Workspace) (r : String → String) (o : Outline) (x x' : Json) : Prop :=
  ∀ t : Trail, t.outline = o →
    Agrees (translator (w.rendering r)) (translator (w.rendered r)) t x x'

/-- The same is made of a field of two records. -/
def SameAt {σ : Type} (w : Workspace) (r : String → String) (o : Outline) (x x' : σ)
    (f : RecordField σ) : Prop :=
  ∃ y y', f.write x = some y ∧ f.write x' = some y' ∧ Same w r (o ++ [some f.name]) y y'

section Same

variable {w : Workspace} {r : String → String} {o : Outline}

theorem same_refl (h : ∀ p ∈ renderedPlaces, ¬ o <+: p) (x : Json) : Same w r o x x :=
  fun _ ht => Translator.agrees_same alike_rendering (sameRules_rendering (ht ▸ h)) x

section Field

variable {σ α : Type} {x x' : σ} {name : String} {c : Codec α} {get : σ → α} {set : α → σ → σ}

theorem sameAt_of (h : Same w r (o ++ [some name]) (c.write (get x)) (c.write (get x'))) :
    SameAt w r o x x' (.plain name c get set) :=
  ⟨_, _, rfl, rfl, h⟩

/-- The same is made of a field that is the same and has no rule that differs in it. -/
theorem sameAt_refl (hget : get x' = get x) (h : ∀ p ∈ renderedPlaces, ¬ o ++ [some name] <+: p) :
    SameAt w r o x x' (.plain name c get set) :=
  sameAt_of (by rw [hget]; exact same_refl h _)

end Field

/-- **The same is made of two records** if it is made of their fields. -/
theorem same_record {σ : Type} {name : String} {empty x x' : σ} {fields : List (RecordField σ)}
    (ho : o ∉ resourcePlaces ++ unitPlaces ++ [userPlace])
    (hfields : ∀ f ∈ fields, SameAt w r o x x' f) :
    Same w r o ((Codec.record name empty fields).write x)
      ((Codec.record name empty fields).write x') := by
  intro t ht
  refine Translator.agrees_record alike_rendering (rule?_eq_none (ht ▸ ho))
    (rule?_eq_none (ht ▸ ho)) fun f hf => ?_
  obtain ⟨y, y', hy, hy', hsame⟩ := hfields f hf
  exact ⟨y, y', hy, hy', hsame _ (by rw [Trail.outline_key, ht])⟩

/-- **The same is made of two lists** if it is made of their items. -/
theorem same_list {σ : Type} {name : String} {empty : σ} {fields : List (RecordField σ)}
    {items : List σ} {f : σ → σ} (ho : o ∉ resourcePlaces ++ unitPlaces ++ [userPlace])
    (hitems : ∀ x ∈ items, Same w r (o ++ [none]) ((Codec.record name empty fields).write x)
      ((Codec.record name empty fields).write (f x))) :
    Same w r o ((Codec.record name empty fields).list.write items)
      ((Codec.record name empty fields).list.write (items.map f)) := fun t ht =>
  Translator.agrees_list (rule?_eq_none (ht ▸ ho)) (rule?_eq_none (ht ▸ ho)) fun x hx =>
    ⟨rfl, fun i => hitems x hx _ (by rw [Trail.outline_index, ht])⟩

/-! ## Contents -/

/-- **The same is made of contents.** -/
theorem same_resource (ho : o ∈ resourcePlaces) (x : Resource) :
    Same w r o (Resource.codec.write x) (Resource.codec.write (x.rendered r)) := by
  intro t ht place
  have hplace : t.outline ∈ resourcePlaces := ht ▸ ho
  rw [translateAt_resource hplace, translateAt_resource hplace, Contents.translate_write,
    Contents.translate_write, Contents.ofResource_rendered]

theorem same_resources (ho : o ∉ resourcePlaces ++ unitPlaces ++ [userPlace])
    (hitem : o ++ [none] ∈ resourcePlaces) (items : List Resource) :
    Same w r o (Resource.codec.list.write items)
      (Resource.codec.list.write (items.map (Resource.rendered r))) :=
  same_list ho fun x _ => same_resource hitem x

theorem same_references (x : References) : Same w r [some "ignition", some "config"]
    (References.codec.write x) (References.codec.write (x.rendered r)) := by
  refine same_record (by decide) ?_
  simp only [References.fields, List.forall_mem_cons]
  exact ⟨sameAt_of (same_resources (by decide) (by decide) x.merge),
    sameAt_of (same_resource (by decide) x.replace), by simp⟩

theorem same_tls (x : Tls) : Same w r [some "ignition", some "security", some "tls"]
    (Tls.codec.write x) (Tls.codec.write (x.rendered r)) := by
  refine same_record (by decide) ?_
  simp only [Tls.fields, List.forall_mem_cons]
  exact ⟨sameAt_of (same_resources (by decide) (by decide) x.certificateAuthorities), by simp⟩

theorem same_settings (x : Settings) : Same w r [some "ignition"]
    (Settings.codec.write x) (Settings.codec.write (x.rendered r)) := by
  refine same_record (by decide) ?_
  simp only [Settings.fields, List.forall_mem_cons]
  refine ⟨sameAt_of (same_references x.config), sameAt_refl rfl (by decide), sameAt_of ?_,
    sameAt_refl rfl (by decide), by simp⟩
  refine same_record (by decide) ?_
  simp only [Security.fields, List.forall_mem_cons]
  exact ⟨sameAt_of (same_tls x.security.tls), by simp⟩

/-! ## Storage -/

theorem same_luks (x : Luks) : Same w r [some "storage", some "luks", none]
    (Luks.codec.write x) (Luks.codec.write (x.rendered r)) := by
  refine same_record (by decide) ?_
  simp only [Luks.fields, List.forall_mem_cons]
  refine ⟨?_, ?_, sameAt_of (same_resource (by decide) x.keyFile), ?_, ?_, ?_, ?_, ?_, ?_, ?_,
    by simp⟩ <;> exact sameAt_refl rfl (by decide)

theorem same_file (x : File) : Same w r [some "storage", some "files", none]
    (File.codec.write x) (File.codec.write (x.rendered r)) := by
  refine same_record (by decide) ?_
  simp only [File.fields, List.forall_mem_cons]
  refine ⟨?_, ?_, ?_, ?_, sameAt_of (same_resource (by decide) x.contents),
    sameAt_of (same_resources (by decide) (by decide) x.append), ?_, by simp⟩ <;>
  exact sameAt_refl rfl (by decide)

theorem same_storage (x : Storage) : Same w r [some "storage"]
    (Storage.codec.write x) (Storage.codec.write (x.rendered r)) := by
  refine same_record (by decide) ?_
  simp only [Storage.fields, List.forall_mem_cons]
  refine ⟨?_, ?_, ?_, sameAt_of (same_list (by decide) fun x _ => same_luks x),
    sameAt_of (same_list (by decide) fun x _ => same_file x), ?_, ?_, ?_, by simp⟩ <;>
  exact sameAt_refl rfl (by decide)

/-! ## Users -/

variable {u : User} {c : Config}

/-- The same keys are read from a file. -/
theorem addKeys_rendered {path : String} (h : ∀ data, w.readLocal path = .ok data →
    keyLines (renderBytes r data) = keyLines data) (place : Trail) (hadKeys : Bool) (keys : Keys)
    (origin : Trail) :
    addKeys (w.rendering r) place hadKeys keys (.str path, origin) =
      addKeys (w.rendered r) place hadKeys keys (.str path, origin) := by
  have hread : (w.rendering r).readLocal path = w.readLocal path := rfl
  rw [addKeys, addKeys]
  dsimp only
  rw [Workspace.readLocal_rendered, hread]
  cases hdata : w.readLocal path with
  | error problem => rfl
  | ok data =>
    dsimp only [Except.map]
    rw [h data hdata]

theorem foldl_addKeys_rendered {place : Trail} {hadKeys : Bool} {entries : List (Json × Trail)}
    (h : ∀ e ∈ entries, ∀ keys, addKeys (w.rendering r) place hadKeys keys e =
      addKeys (w.rendered r) place hadKeys keys e) (keys : Keys) :
    entries.foldl (addKeys (w.rendering r) place hadKeys) keys =
      entries.foldl (addKeys (w.rendered r) place hadKeys) keys := by
  induction entries generalizing keys with
  | nil => rw [List.foldl_nil, List.foldl_nil]
  | cons e rest ih =>
    obtain ⟨he, hrest⟩ := List.forall_mem_cons.mp h
    rw [List.foldl_cons, List.foldl_cons, he, ih hrest]

/-- The same is made of a user by the rule for users. -/
theorem userRule_rendered (h : ∀ path ∈ u.sshAuthorizedKeysLocal, ∀ data,
    w.readLocal path = .ok data → keyLines (renderBytes r data) = keyLines data)
    (walked : Translated (Option Json)) (origin place : Trail) :
    userRule (w.rendering r) walked (User.codec.write u) origin place =
      userRule (w.rendered r) walked (User.codec.write u) origin place := by
  have hfiles : (((User.codec.write u).get? "ssh_authorized_keys_local").bind Json.items?).getD [] =
      u.sshAuthorizedKeysLocal.map Json.str := rfl
  have hkeys : ∀ (field place : Trail) (hadKeys : Bool) (keys : Keys),
      (((u.sshAuthorizedKeysLocal.map Json.str).zipIdx.map fun e =>
          (e.1, field.index e.2)).foldl (addKeys (w.rendering r) place hadKeys) keys) =
        (((u.sshAuthorizedKeysLocal.map Json.str).zipIdx.map fun e =>
          (e.1, field.index e.2)).foldl (addKeys (w.rendered r) place hadKeys) keys) := by
    refine fun field place hadKeys => foldl_addKeys_rendered fun e he keys => ?_
    obtain ⟨⟨x, i⟩, hx, rfl⟩ := List.mem_map.mp he
    obtain ⟨path, hpath, rfl⟩ := List.mem_map.mp (List.fst_mem_of_mem_zipIdx hx)
    exact addKeys_rendered (h path hpath) _ _ _ _
  rw [userRule, userRule, hfiles]
  generalize u.sshAuthorizedKeysLocal.map Json.str = files at hkeys
  cases files with
  | nil => rfl
  | cons x rest =>
    dsimp only
    rw [hkeys]

theorem same_user (h : ∀ path ∈ u.sshAuthorizedKeysLocal, ∀ data,
    w.readLocal path = .ok data → keyLines (renderBytes r data) = keyLines data) :
    Same w r userPlace (User.codec.write u) (User.codec.write u) := by
  intro t ht place
  have hbelow : ∀ s : Segment, ∀ p ∈ renderedPlaces, ¬ Trail.outline (t ++ [s]) <+: p := by
    intro s p hp hprefix
    rw [Trail.outline_append, ht] at hprefix
    have hlength := (by decide : ∀ p ∈ renderedPlaces, userPlace <+: p → p.length ≤ 3) p hp
      ((List.prefix_append _ _).trans hprefix)
    exact absurd (Nat.le_trans hprefix.length_le hlength) (Nat.not_succ_le_self 3)
  rw [translateAt_user ht, translateAt_user ht,
    Translator.walk_same alike_rendering (fun i => sameRules_rendering (hbelow (.index i)))
      (fun k => sameRules_rendering (hbelow (.key k))), userRule_rendered h]

theorem same_passwd (h : KeepsKeys r w c) :
    Same w r [some "passwd"] (Passwd.codec.write c.passwd) (Passwd.codec.write c.passwd) := by
  have husers := same_list (w := w) (r := r) (o := [some "passwd", some "users"])
    (f := id) (by decide) fun u hu => same_user (h u hu)
  rw [List.map_id] at husers
  refine same_record (by decide) ?_
  simp only [Passwd.fields, List.forall_mem_cons]
  exact ⟨sameAt_of husers, sameAt_refl rfl (by decide), by simp⟩

/-! ## Configs -/

theorem same_config (h : KeepsKeys r w c) :
    Same w r [] (Config.codec.write c) (Config.codec.write (c.rendered r)) := by
  refine same_record (by decide) ?_
  simp only [Config.fields, List.forall_mem_cons]
  refine ⟨sameAt_of (same_settings c.ignition), ?_, sameAt_of (same_passwd h),
    sameAt_of (same_storage c.storage), ?_, by simp⟩ <;>
  exact sameAt_refl rfl (by decide)

/-- **A renderer that only looks at the texts makes the document that is made without it once all
texts are rendered**, in the config and in the files, if that changes no key of a user. -/
theorem translate_rendering (h : KeepsKeys r w c) :
    translate (w.rendering r) c = translate (w.rendered r) (c.rendered r) := by
  have hwalked : (translator (w.rendering r)).translate (Config.codec.write c) =
      (translator (w.rendered r)).translate (Config.codec.write (c.rendered r)) :=
    same_config h [] rfl []
  rw [translate, translate, hwalked]
  simp only [Trees.expand_rendered]
  rfl

end Same

/-! ## Keys in a file -/

/-- A renderer that writes one letter for another. -/
def swapLetter (text : String) : String :=
  String.ofList (text.toList.map fun c => if c = 'a' then 'b' else c)

/-- A local file with the keys of a user. -/
def keyring (keys : String) : Workspace where
  files := {
    root := .directory [("files", .directory
      [("keys", .file (Text.encodeUtf8 keys.toList) 0o644)])]
    current := [] }
  options := { filesDirectory := some "files" }

/-- A config with a user who has these keys, and with a file. -/
def keyed : Config where
  passwd := { users := [{ name := "core", sshAuthorizedKeysLocal := ["keys"] }] }
  storage := { files := [{ path := "/a", contents := { inline := some "a" } }] }

theorem readLocal_keyring (keys : String) :
    (keyring keys).readLocal "keys" = .ok (Text.encodeUtf8 keys.toList) := by
  have hdir : (keyring keys).files.realSteps true "/files" = .ok ["files"] :=
    FileSystem.realSteps_names (by decide)
      (by with_unfolding_all decide : (if Files.isAbsolute "/files" then [] else []) ++
        FileSystem.lookupSteps "/files" = ["files"]) rfl nofun (by with_unfolding_all decide)
  have hfile : (keyring keys).files.realSteps true "/files/keys" = .ok ["files", "keys"] :=
    FileSystem.realSteps_names (by decide)
      (by with_unfolding_all decide : (if Files.isAbsolute "/files/keys" then [] else []) ++
        FileSystem.lookupSteps "/files/keys" = ["files", "keys"]) rfl nofun
      (by with_unfolding_all decide)
  have hjoined : (keyring keys).files.realSteps true "files/keys" = .ok ["files", "keys"] :=
    FileSystem.realSteps_names (by decide)
      (by with_unfolding_all decide : (if Files.isAbsolute "files/keys" then [] else []) ++
        FileSystem.lookupSteps "files/keys" = ["files", "keys"]) rfl nofun
      (by with_unfolding_all decide)
  have hresolve : (keyring keys).resolveLocal "keys" = .ok "files/keys" := by
    refine (Workspace.resolveLocal_eq_ok_iff rfl).mpr ⟨by with_unfolding_all decide, ?_⟩
    rw [show Files.join "files" "keys" = "files/keys" by with_unfolding_all decide,
      Workspace.isWithin,
      show Files.normalize (keyring keys).files.current "files" = ["files"] from
        (by with_unfolding_all decide : Files.normalize [] "files" = ["files"]),
      show Files.normalize (keyring keys).files.current "files/keys" = ["files", "keys"] from
        (by with_unfolding_all decide : Files.normalize [] "files/keys" = ["files", "keys"]),
      show Files.absolute ["files"] = "/files" by decide,
      show Files.absolute ["files", "keys"] = "/files/keys" by decide, hdir, hfile]
    decide
  have hlocate : (keyring keys).files.locate "files/keys" =
      .ok (.file (Text.encodeUtf8 keys.toList) 0o644) := by
    rw [FileSystem.locate, hjoined]
    rfl
  rw [Workspace.readLocal, hresolve]
  show ((keyring keys).files.read "files/keys").mapError _ = _
  rw [FileSystem.read, hlocate]
  rfl

theorem keysIn_keyring (keys : String) :
    keysIn (keyring keys) "keys" = keyLines (Text.encodeUtf8 keys.toList) := by
  rw [keysIn, readLocal_keyring]

/-- Keys without the letter are kept. -/
theorem keyed_rendering : KeepsKeys swapLetter (keyring "ssh-rsb b") keyed ∧
    translate ((keyring "ssh-rsb b").rendering swapLetter) keyed =
      translate ((keyring "ssh-rsb b").rendered swapLetter) (keyed.rendered swapLetter) := by
  have hkeys : KeepsKeys swapLetter (keyring "ssh-rsb b") keyed := by
    intro u hu path hpath data hdata
    cases List.mem_singleton.mp hu
    cases List.mem_singleton.mp hpath
    cases (readLocal_keyring _).symm.trans hdata
    with_unfolding_all decide
  exact ⟨hkeys, translate_rendering hkeys⟩

/-- **The keys of users are not rendered**: with the renderer there is the key of the file, without it
the key of the rendered file. -/
theorem keyed_unrendered :
    (translate ((keyring "ssh-rsa a").rendering swapLetter) keyed).value ≠
      (translate ((keyring "ssh-rsa a").rendered swapLetter) (keyed.rendered swapLetter)).value := by
  have hwalked : ∀ (w : Workspace) (c : Config), c.storage.trees = [] →
      c.storage.filesystems = [] → translate w c = walked w c := by
    intro w c ht hf
    rw [translate_eq, ht, hf]
    rfl
  have hkeys : ∀ (w : Workspace) (c : Config), c.passwd = keyed.passwd →
      keysAt 0 (walked w c).value = if keysIn w "keys" = [] then none else
        some (.arr ((keysIn w "keys").map Json.str)) := by
    intro w c hc
    rw [keysAt_walked, hc]
    simp [keyed]
  have hrendering : keysIn ((keyring "ssh-rsa a").rendering swapLetter) "keys" = ["ssh-rsa a"] :=
    (keysIn_keyring _).trans (by with_unfolding_all decide)
  have hrendered : keysIn ((keyring "ssh-rsa a").rendered swapLetter) "keys" = ["ssh-rsb b"] := by
    rw [keysIn, Workspace.readLocal_rendered, readLocal_keyring]
    with_unfolding_all decide
  intro h
  have hsame := congrArg (keysAt 0) h
  rw [hwalked _ _ rfl rfl, hwalked _ _ rfl rfl, hkeys _ keyed rfl,
    hkeys _ (keyed.rendered swapLetter) rfl, hrendering, hrendered] at hsame
  revert hsame
  decide

end Provision.Source
