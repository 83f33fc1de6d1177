import Mathlib.Computability.Primrec.List
import Provision.Proofs.Source.Shape
import Provision.Proofs.Translator
import Provision.Proofs.Translator.CamelCase
import Provision.Source.Translate

/-!
# Names and places of the shared sections

The keys of what is made have names of their own. Some places are left out on the way, and rules make
something else of others; which they are is a matter of outlines.

* `names`: the keys of the shared sections with their names in what is made of them.
* `nameOf_of_lookup`, `eq_of_name`: these are the names, and no two keys share one.
* `isNamed_of_at`, `eq_of_renamed`: so places have new names, and no two share them.
* `camelCase_faithful`: the keys are made of words, and such keys are read back from their names.
* `isSkipped_iff`, `rule?_cases`: the places that are left out, and those that have rules.
-/

set_option autoImplicit false

namespace Provision.Source

/-! ## Names -/

/-- All keys of the shared sections, with their names in what is made of them. -/
def names : List (String × String) :=
  [ ("ignition", "ignition"), ("kernel_arguments", "kernelArguments"), ("passwd", "passwd"),
    ("storage", "storage"), ("systemd", "systemd"), ("config", "config"), ("proxy", "proxy"),
    ("security", "security"), ("timeouts", "timeouts"), ("merge", "merge"),
    ("replace", "replace"), ("tls", "tls"), ("certificate_authorities", "certificateAuthorities"),
    ("http_proxy", "httpProxy"), ("https_proxy", "httpsProxy"), ("no_proxy", "noProxy"),
    ("http_response_headers", "httpResponseHeaders"), ("http_total", "httpTotal"),
    ("should_exist", "shouldExist"), ("should_not_exist", "shouldNotExist"), ("users", "users"),
    ("groups", "groups"), ("name", "name"), ("password_hash", "passwordHash"),
    ("ssh_authorized_keys", "sshAuthorizedKeys"), ("uid", "uid"), ("gecos", "gecos"),
    ("home_dir", "homeDir"), ("no_create_home", "noCreateHome"),
    ("primary_group", "primaryGroup"), ("no_user_group", "noUserGroup"),
    ("no_log_init", "noLogInit"), ("shell", "shell"), ("system", "system"), ("gid", "gid"),
    ("disks", "disks"), ("raid", "raid"), ("filesystems", "filesystems"), ("luks", "luks"),
    ("files", "files"), ("directories", "directories"), ("links", "links"), ("device", "device"),
    ("wipe_table", "wipeTable"), ("partitions", "partitions"), ("label", "label"),
    ("number", "number"), ("size_mib", "sizeMiB"), ("start_mib", "startMiB"),
    ("type_guid", "typeGuid"), ("guid", "guid"), ("wipe_partition_entry", "wipePartitionEntry"),
    ("resize", "resize"), ("level", "level"), ("devices", "devices"), ("spares", "spares"),
    ("options", "options"), ("format", "format"), ("path", "path"),
    ("wipe_filesystem", "wipeFilesystem"), ("uuid", "uuid"), ("mount_options", "mountOptions"),
    ("key_file", "keyFile"), ("wipe_volume", "wipeVolume"), ("clevis", "clevis"),
    ("discard", "discard"), ("open_options", "openOptions"), ("custom", "custom"),
    ("tang", "tang"), ("threshold", "threshold"), ("tpm2", "tpm2"),
    ("needs_network", "needsNetwork"), ("pin", "pin"), ("url", "url"),
    ("thumbprint", "thumbprint"), ("advertisement", "advertisement"), ("overwrite", "overwrite"),
    ("user", "user"), ("group", "group"), ("contents", "contents"), ("append", "append"),
    ("mode", "mode"), ("target", "target"), ("hard", "hard"), ("id", "id"), ("units", "units"),
    ("enabled", "enabled"), ("mask", "mask"), ("dropins", "dropins"), ("trees", "trees"),
    ("local", "local"), ("with_mount_unit", "withMountUnit"),
    ("ssh_authorized_keys_local", "sshAuthorizedKeysLocal"), ("contents_local", "contentsLocal"),
    ("compression", "compression"), ("http_headers", "httpHeaders"), ("source", "source"),
    ("inline", "inline"), ("verification", "verification"), ("hash", "hash"), ("value", "value") ]

/-- The name of a key does not depend on what local files there are. -/
theorem nameOf_eq (w : Workspace) (k : String) : (translator w).nameOf k =
    (([("size_mib", "sizeMiB"), ("start_mib", "startMiB")] : List (String × String)).lookup
      k).getD (camelCase k) :=
  rfl

theorem nameOf_of_mem (w : Workspace) : ∀ e ∈ names, (translator w).nameOf e.1 = e.2 := by
  simp only [nameOf_eq]
  decide +kernel

/-- **The names are those that follow from the rule for names.** -/
theorem nameOf_of_lookup (w : Workspace) {k n : String} (h : names.lookup k = some n) :
    (translator w).nameOf k = n :=
  nameOf_of_mem w (k, n) (List.mem_of_lookup_eq_some h)

/-- **No two keys share a name.** -/
theorem eq_of_name {k l n : String} (hk : names.lookup k = some n) (hl : names.lookup l = some n) :
    k = l := by
  have hn : (names.map Prod.snd).Nodup := by decide +kernel
  have hn' : (names.map fun e => (e.2, e.1)).map Prod.fst = names.map Prod.snd := by
    rw [List.map_map]
    rfl
  have mem : ∀ {k}, names.lookup k = some n → (names.map fun e => (e.2, e.1)).lookup n = some k :=
    fun h => (List.lookup_eq_some_iff_mem (hn' ▸ hn)).mpr
      (List.mem_map.mpr ⟨_, List.mem_of_lookup_eq_some h, rfl⟩)
  exact Option.some.inj ((mem hk).symm.trans (mem hl))

/-- Whether all keys have names. -/
def isNamed (o : Outline) : Bool := o.all fun step => step.all fun k => (names.lookup k).isSome

/-- An outline under the names of its keys. -/
def renamed (o : Outline) : Outline := o.map fun step => step.map fun k => (names.lookup k).getD k

@[simp] theorem renamed_cons (step : Option String) (o : Outline) :
    renamed (step :: o) = (step.map fun k => (names.lookup k).getD k) :: renamed o := rfl

set_option maxRecDepth 8000 in
/-- Every key of the shared sections has a name. -/
theorem isNamed_of_at {t : Trail} {s : Shape} (h : Config.shape.at? t = some s) :
    isNamed t.outline = true := by
  have hplaces : Config.shape.places.all isNamed = true := by cbv
  exact List.all_eq_true.mp hplaces _ (Shape.outline_mem_places h)

/-- The keys are made of words. -/
theorem isSnakeCase_of_lookup {k n : String} (h : names.lookup k = some n) :
    isSnakeCase k = true := by
  have hkeys : ∀ e ∈ names, isSnakeCase e.1 = true := by decide +kernel
  exact hkeys (k, n) (List.mem_of_lookup_eq_some h)

/-- The keys on the way to a place of the shared sections are made of words. -/
theorem isSnakeCase_of_at {t : Trail} {s : Shape} (h : Config.shape.at? t = some s) {k : String}
    (hk : Segment.key k ∈ t) : isSnakeCase k = true := by
  have hstep : some k ∈ t.outline := List.mem_map.mpr ⟨.key k, hk, rfl⟩
  have hnamed := List.all_eq_true.mp (isNamed_of_at h) (some k) hstep
  obtain ⟨n, hn⟩ := Option.isSome_iff_exists.mp hnamed
  exact isSnakeCase_of_lookup hn

/-- **Names tell keys apart.** A key that is made of words is read back from the name that follows
from it, so no two such keys share a name; all keys of the shared sections are made of words; and a
name, of whatever text, is its own name. -/
theorem camelCase_faithful :
    (∀ k, isSnakeCase k = true → snakeCase (camelCase k) = k) ∧
    (∀ k l, isSnakeCase k = true → isSnakeCase l = true → camelCase k = camelCase l → k = l) ∧
    (∀ t s, Config.shape.at? t = some s → ∀ k, Segment.key k ∈ t → isSnakeCase k = true) ∧
    ∀ s, camelCase (camelCase s) = camelCase s := by
  refine ⟨fun k hk => ?_, fun k l hk hl h => ?_, fun t s h k hk => ?_, camelCase_camelCase⟩
  · exact snakeCase_camelCase hk
  · exact camelCase_inj hk hl h
  · exact isSnakeCase_of_at h hk

/-- The list of keys of a user is at a place of its own, under a name that tells it. -/
theorem authorizedKeys_faithful :
    Config.shape.at? [.key "passwd", .key "users", .index 0, .key "ssh_authorized_keys"] =
        some (.list .leaf) ∧
      isSnakeCase "ssh_authorized_keys" = true ∧
      camelCase "ssh_authorized_keys" = "sshAuthorizedKeys" ∧
      snakeCase (camelCase "ssh_authorized_keys") = "ssh_authorized_keys" := by
  have hplace : Config.shape.at?
      [.key "passwd", .key "users", .index 0, .key "ssh_authorized_keys"] =
        some (.list .leaf) := by cbv
  have hkey := camelCase_faithful.2.2.1 _ _ hplace "ssh_authorized_keys" (by decide)
  exact ⟨hplace, hkey, by decide, camelCase_faithful.1 _ hkey⟩

/-- **No two outlines share their new names.** -/
theorem eq_of_renamed {o o' : Outline} (ho : isNamed o = true) (ho' : isNamed o' = true)
    (h : renamed o = renamed o') : o = o' := by
  induction o generalizing o' with
  | nil =>
    cases o' with
    | nil => rfl
    | cons => cases h
  | cons step o ih =>
    cases o' with
    | nil => cases h
    | cons step' o' =>
      rw [renamed_cons, renamed_cons, List.cons.injEq] at h
      rw [isNamed, List.all_cons, Bool.and_eq_true] at ho ho'
      rw [ih ho.2 ho'.2 h.2]
      congr 1
      cases step with
      | none =>
        cases step' with
        | none => rfl
        | some => cases h.1
      | some k =>
        cases step' with
        | none => cases h.1
        | some k' =>
          obtain ⟨n, hn⟩ := Option.isSome_iff_exists.mp ho.1
          obtain ⟨n', hn'⟩ := Option.isSome_iff_exists.mp ho'.1
          have hnames := h.1
          rw [Option.map_some, Option.map_some, hn, hn'] at hnames
          cases hnames
          rw [eq_of_name hn hn']

/-- What starts an outline under the new names starts it under the old ones. -/
theorem prefix_of_renamed {p o : Outline} (hp : isNamed p = true) (ho : isNamed o = true)
    (h : renamed p <+: renamed o) : p <+: o := by
  have hlength : (renamed p).length = p.length := List.length_map _
  have htake : renamed (o.take p.length) = renamed p := by
    rw [renamed, List.map_take, ← renamed, ← hlength]
    exact (List.prefix_iff_eq_take.mp h).symm
  have hnamed : isNamed (o.take p.length) = true :=
    List.all_eq_true.mpr fun step hs => List.all_eq_true.mp ho step (List.mem_of_mem_take hs)
  rw [← eq_of_renamed hnamed hp htake]
  exact List.take_prefix _ _

/-- The outline of a trail under its new names. -/
theorem outline_rename (w : Workspace) {t : Trail} (h : isNamed t.outline = true) :
    ((translator w).rename t).outline = renamed t.outline := by
  induction t with
  | nil => rfl
  | cons step t ih =>
    rw [Trail.outline_cons, isNamed, List.all_cons, Bool.and_eq_true] at h
    rw [Translator.rename_cons, Trail.outline_cons, Trail.outline_cons, renamed_cons, ih h.2]
    cases step with
    | key k =>
      obtain ⟨n, hn⟩ := Option.isSome_iff_exists.mp h.1
      rw [Translator.renameStep, nameOf_of_lookup w hn, Segment.key?_key, Segment.key?_key,
        Option.map_some, hn]
      rfl
    | index => rfl

/-! ## Places -/

/-- The outlines of the places that are left out. -/
def skippedPlaces : List Outline :=
  [ [some "storage", some "trees"],
    [some "storage", some "filesystems", none, some "with_mount_unit"],
    [some "systemd", some "units", none, some "contents_local"],
    [some "systemd", some "units", none, some "dropins", none, some "contents_local"],
    [some "passwd", some "users", none, some "ssh_authorized_keys_local"] ]

/-- The outlines of the places of contents that are embedded. -/
def resourcePlaces : List Outline :=
  [ [some "ignition", some "config", some "merge", none],
    [some "ignition", some "config", some "replace"],
    [some "ignition", some "security", some "tls", some "certificate_authorities", none],
    [some "storage", some "files", none, some "contents"],
    [some "storage", some "files", none, some "append", none],
    [some "storage", some "luks", none, some "key_file"] ]

/-- The outlines of the places of units and drop-ins. -/
def unitPlaces : List Outline :=
  [ [some "systemd", some "units", none],
    [some "systemd", some "units", none, some "dropins", none] ]

/-- The outline of the places of users. -/
def userPlace : Outline := [some "passwd", some "users", none]

theorem skippedPlaces_eq :
    sourceOnlyFields.map (fun field => (Pattern.ofText field).outline) = skippedPlaces := by
  decide

theorem resourcePlaces_eq :
    resourceFields.map (fun field => (Pattern.ofText field).outline) = resourcePlaces := by
  decide

theorem outline_units : (Pattern.ofText "systemd.units.*").outline =
    [some "systemd", some "units", none] := by
  decide

theorem outline_dropins : (Pattern.ofText "systemd.units.*.dropins.*").outline =
    [some "systemd", some "units", none, some "dropins", none] := by
  decide

theorem outline_users : (Pattern.ofText "passwd.users.*").outline = userPlace := by
  decide

/-- What is left out is known by its outline. -/
theorem isSkipped_iff (w : Workspace) (t : Trail) :
    (translator w).isSkipped t = true ↔ t.outline ∈ skippedPlaces := by
  rw [← skippedPlaces_eq, Translator.isSkipped, List.any_eq_true, List.mem_map]
  constructor
  · rintro ⟨p, hp, hfits⟩
    obtain ⟨field, hfield, rfl⟩ := List.mem_map.mp hp
    exact ⟨field, hfield, (Pattern.fits_iff _ t).mp hfits⟩
  · rintro ⟨field, hfield, heq⟩
    exact ⟨_, List.mem_map_of_mem hfield, (Pattern.fits_iff _ t).mpr heq⟩

/-- **The rules and the places that have them.** -/
theorem rule?_cases {w : Workspace} {t : Trail} {rule : Translator.Rule}
    (h : (translator w).rule? t = some rule) :
    (t.outline ∈ resourcePlaces ∧
        rule = fun _ value origin place => Contents.translate w value origin place) ∨
      (t.outline ∈ unitPlaces ∧ rule = unitRule w) ∨
        (t.outline = userPlace ∧ rule = userRule w) := by
  obtain ⟨e, he, rfl⟩ := Option.map_eq_some_iff.mp h
  have hfit : e.1.fits t = true :=
    @List.find?_some (Pattern × Translator.Rule) (fun e => e.1.fits t) _ _ he
  have hfits := (Pattern.fits_iff _ t).mp hfit
  rcases List.mem_append.mp (List.mem_of_find?_eq_some he) with hm | hm
  · obtain ⟨field, hfield, rfl⟩ := List.mem_map.mp hm
    refine .inl ⟨?_, rfl⟩
    rw [← resourcePlaces_eq, ← hfits]
    exact List.mem_map_of_mem hfield
  · simp only [List.mem_cons, List.not_mem_nil, or_false] at hm
    rcases hm with rfl | rfl | rfl
    · exact .inr (.inl ⟨by rw [← hfits, outline_units]; decide, rfl⟩)
    · exact .inr (.inl ⟨by rw [← hfits, outline_dropins]; decide, rfl⟩)
    · exact .inr (.inr ⟨by rw [← hfits, outline_users], rfl⟩)

/-- Contents that are embedded have a rule. -/
theorem not_mem_resourcePlaces {w : Workspace} {t : Trail} (h : (translator w).rule? t = none) :
    t.outline ∉ resourcePlaces := by
  intro hm
  rw [← resourcePlaces_eq, List.mem_map] at hm
  obtain ⟨field, hfield, heq⟩ := hm
  have hnone := List.find?_eq_none.mp (Option.map_eq_none_iff.mp h)
  exact hnone _ (List.mem_append_left _ (List.mem_map_of_mem hfield))
    ((Pattern.fits_iff _ t).mpr heq)

end Provision.Source
