import Provision.Proofs.Transpile
import Provision.Proofs.Variant.Heeds

/-!
# Keys that mean nothing

The keys of a document are compared with those of the config that was read of it. That finds all
keys that were not read among those that the tree of places knows, unless they are in a sequence
that stands for a record: the config writes the record with names.

* `unused_of_at`: a trail leads to something in what was read, or a key on it is reported.
* `transpile_reads`: in strict mode all keys that have a place are read, or one is reported.
* `anchored_unread`: a document with an anchor has no places, and a key that means nothing goes
  through.
-/

set_option autoImplicit false

namespace Provision

open Text (Bytes)
open Yaml (Datum)

/-! ## Reports -/

section Keys

variable {strict : Bool} {here : Trail} {e : Entry}

theorem mem_unusedEntries_of_none {entries : List (String × Marker × Yaml.Tree)}
    {members : List (String × Json)} {k : String} {marker : Marker} {tree : Yaml.Tree}
    (h : (k, marker, tree) ∈ entries) (hk : Json.lookup k members = none) :
    unusedKey strict here k marker ∈ unusedEntries strict here entries members := by
  induction entries with
  | nil => cases h
  | cons entry entries ih =>
    rw [unusedEntries]
    rcases List.mem_cons.mp h with rfl | h
    · simp [hk]
    · exact List.mem_append_right _ (ih h)

theorem mem_unusedEntries {entries : List (String × Marker × Yaml.Tree)}
    {members : List (String × Json)} {k : String} {marker : Marker} {tree : Yaml.Tree} {x : Json}
    (h : (k, marker, tree) ∈ entries) (hk : Json.lookup k members = some x)
    (he : e ∈ unused strict (here.key k) tree x) :
    e ∈ unusedEntries strict here entries members := by
  induction entries with
  | nil => cases h
  | cons entry entries ih =>
    rw [unusedEntries]
    rcases List.mem_cons.mp h with rfl | h
    · exact List.mem_append_left _ (by simpa [hk] using he)
    · exact List.mem_append_right _ (ih h)

theorem mem_unusedItems {trees : List Yaml.Tree} {values : List Json} {i position : Nat}
    {tree : Yaml.Tree} {x : Json} (ht : trees[i]? = some tree) (hx : values[i]? = some x)
    (he : e ∈ unused strict (here.index (position + i)) tree x) :
    e ∈ unusedItems strict here position trees values := by
  induction trees generalizing values i position with
  | nil => simp at ht
  | cons t trees ih =>
    cases values with
    | nil => simp at hx
    | cons v values =>
      rw [unusedItems]
      cases i with
      | zero =>
        cases ht
        cases hx
        exact List.mem_append_left _ he
      | succ i =>
        refine List.mem_append_right _ (ih ht hx ?_)
        rwa [Nat.add_assoc, Nat.add_comm 1]

end Keys

/-- **A trail leads to something in what was read, or a key on it is reported.** -/
theorem unused_of_at {strict : Bool} {here t : Trail} {tree : Yaml.Tree} {x : Datum} {w : Json}
    (htree : (tree.at? t).isSome) (hx : (x.at? t).isSome)
    (hkinds : ∀ u z y, x.at? u = some z → w.at? u = some y → Decode.Corresponds z y)
    (hlists : ∀ u i, u ++ [.index i] <+: t → ∃ values, w.at? u = some (.arr values)) :
    (w.at? t).isSome ∨ ∃ u k marker, u ++ [.key k] <+: t ∧
      unusedKey strict (here ++ u) k marker ∈ unused strict here tree w := by
  induction t generalizing here tree x w with
  | nil => exact .inl rfl
  | cons s t ih =>
    obtain ⟨below, hbelow⟩ := Option.isSome_iff_exists.mp htree
    obtain ⟨⟨child, marker⟩, hchild, hbelow⟩ := Option.bind_eq_some_iff.mp hbelow
    obtain ⟨z, hz⟩ := Option.isSome_iff_exists.mp hx
    obtain ⟨x', hx', hz'⟩ := Option.bind_eq_some_iff.mp hz
    -- What holds of the whole holds of the part one step down.
    have descend : ∀ w', w.child? s = some w' →
        (w'.at? t).isSome ∨ ∃ u k marker, u ++ [.key k] <+: t ∧
          unusedKey strict (here ++ [s] ++ u) k marker ∈ unused strict (here ++ [s]) child w' := by
      intro w' hw'
      refine ih (Option.isSome_iff_exists.mpr ⟨below, hbelow⟩)
        (Option.isSome_iff_exists.mpr ⟨z, hz'⟩) (fun u z y hz hy => ?_) fun u i hu => ?_
      · exact hkinds (s :: u) z y (by simpa [hx'] using hz) (by simpa [hw'] using hy)
      · obtain ⟨values, hvalues⟩ := hlists (s :: u) i (List.cons_prefix_cons.mpr ⟨rfl, hu⟩)
        exact ⟨values, by simpa [hw'] using hvalues⟩
    cases s with
    | key k =>
      obtain ⟨entries, m, rfl, hentry⟩ := Yaml.Tree.mem_of_step_key hchild
      obtain ⟨my, tag, before, key, after, rfl, -⟩ := Datum.replace_key hx'
      cases w with
      | obj members =>
        cases hk : Json.lookup k members with
        | none =>
          refine .inr ⟨[], k, marker, List.cons_prefix_cons.mpr ⟨rfl, List.nil_prefix⟩, ?_⟩
          rw [List.append_nil]
          exact mem_unusedEntries_of_none hentry hk
        | some w' =>
          rcases descend w' hk with h | ⟨u, k', marker', hprefix, hreport⟩
          · exact .inl (by simpa [hk] using h)
          · refine .inr ⟨.key k :: u, k', marker', List.cons_prefix_cons.mpr ⟨rfl, hprefix⟩, ?_⟩
            rw [List.append_cons]
            exact mem_unusedEntries hentry hk hreport
      | _ => cases hkinds [] _ _ rfl rfl
    | index i =>
      obtain ⟨trees, m, rfl, hitem⟩ := Yaml.Tree.getElem?_of_step_index hchild
      obtain ⟨my, tag, items, rfl, hitems, -⟩ := Datum.replace_index hx'
      obtain ⟨values, hvalues⟩ := hlists [] i (List.cons_prefix_cons.mpr ⟨rfl, List.nil_prefix⟩)
      cases hvalues
      have hlength : items.length = values.length := hkinds [] _ _ rfl rfl
      have hi : i < values.length := hlength ▸ (List.getElem?_eq_some_iff.mp hitems).1
      have hw' := List.getElem?_eq_getElem hi
      rcases descend _ hw' with h | ⟨u, k, marker', hprefix, hreport⟩
      · exact .inl (by simpa [hw'] using h)
      · refine .inr ⟨.index i :: u, k, marker', List.cons_prefix_cons.mpr ⟨rfl, hprefix⟩, ?_⟩
        rw [List.append_cons]
        exact mem_unusedItems hitem hw' (by simpa [Trail.index] using hreport)

/-! ## What is read -/

/-- A document is of a known kind, and the config it is has been read of it. -/
structure Decodes (bytes : Bytes) (spec : Spec) (document : Datum) (config : Config) : Prop where
  header : ∃ header, Header.ofBytes? bytes = .ok header ∧
    Spec.lookup header.variant header.version = .ok spec
  values : Datum.ofBytes? bytes = some document
  read : Config.ofDatum spec.variant document = .ok config

/-- A trail leads to a part of a document that has a place, and no sequence that it goes through
stands for a record. -/
structure Placed (bytes : Bytes) (document : Datum) (config : Config) (t : Trail) : Prop where
  value : (document.at? t).isSome
  place : ((Yaml.Tree.ofBytes bytes).at? t).isSome
  lists : ∀ u i, u ++ [.index i] <+: t → ∃ values, config.json.at? u = some (.arr values)

/-- A part that has a place is read, or a key on the way to it is found to mean nothing. -/
theorem Placed.reads_or_reports {bytes : Bytes} {spec : Spec} {document : Datum} {config : Config}
    {t : Trail} (h : Decodes bytes spec document config) (ht : Placed bytes document config t)
    (strict : Bool) : Config.IsRead spec.variant document t ∨ ∃ u k marker, u ++ [.key k] <+: t ∧
      unusedKey strict u k marker ∈ unused strict [] (Yaml.Tree.ofBytes bytes) config.json := by
  have hkinds : ∀ u z y, document.at? u = some z → config.json.at? u = some y →
      Decode.Corresponds z y := fun u z y hz hy => (Config.heeds h.read hz hy).1
  rcases @unused_of_at strict [] t _ document config.json ht.place ht.value hkinds ht.lists with
    hw | hreport
  · exact .inl (Config.isRead_of_at h.read ht.value hw)
  · exact .inr hreport

/-- A key that is found to mean nothing is refused in strict mode. -/
theorem transpile_unused {w : Workspace} {request : Request} {bytes : Bytes} {spec : Spec}
    {document : Datum} {config : Config} (h : Decodes bytes spec document config)
    (hstrict : request.strict = true) {u : Trail} {k : String} {marker : Marker}
    (hunused : unusedKey true u k marker ∈
      unused true [] (Yaml.Tree.ofBytes bytes) config.json) :
    ∃ report, transpile w request bytes = .error (.invalidSource report) ∧
      unusedKey true u k marker ∈ report := by
  obtain ⟨header, hheader, hspec⟩ := h.header
  have hdecode : decode spec.variant true (Yaml.Tree.ofBytes bytes) bytes =
      (some config, unused true [] (Yaml.Tree.ofBytes bytes) config.json) := by
    rw [decode, h.values]
    simp only [h.read]
  have hmem := List.mem_append_left config.validate hunused
  have hfatal : Report.isFatal (unused true [] (Yaml.Tree.ofBytes bytes) config.json ++
      config.validate) = true :=
    List.any_eq_true.mpr ⟨_, hmem, rfl⟩
  refine ⟨Report.located (Yaml.Tree.ofBytes bytes)
    (unused true [] (Yaml.Tree.ofBytes bytes) config.json ++ config.validate), ?_, ?_⟩
  · rw [transpile, hheader]
    simp only [hspec]
    rw [transpileAs, hstrict, hdecode]
    simp only [hfatal, if_true]
  -- An entry that has a place keeps it.
  · exact List.mem_map.mpr ⟨_, hmem, by simp [unusedKey]⟩

/-- **In strict mode no key is accepted that was not read**, if it has a place and is in no sequence
that stands for a record: such a key is reported, it or one that it is under. -/
theorem transpile_reads {w : Workspace} {request : Request} {bytes : Bytes}
    (hstrict : request.strict = true) :
    (∀ made, transpile w request bytes = .ok made →
      ∃ spec document config, Decodes bytes spec document config ∧
        ∀ t, Placed bytes document config t → Config.IsRead spec.variant document t) ∧
    (∀ spec document config, Decodes bytes spec document config →
      ∀ t, Placed bytes document config t → ¬Config.IsRead spec.variant document t →
        ∃ report u k marker, transpile w request bytes = .error (.invalidSource report) ∧
          u ++ [.key k] <+: t ∧
          ⟨.error, .source (Trail.key u k), .unusedKey k, some marker⟩ ∈ report) := by
  have reports : ∀ spec document config, Decodes bytes spec document config →
      ∀ t, Placed bytes document config t → ¬Config.IsRead spec.variant document t →
        ∃ report u k marker, transpile w request bytes = .error (.invalidSource report) ∧
          u ++ [.key k] <+: t ∧
          ⟨.error, .source (Trail.key u k), .unusedKey k, some marker⟩ ∈ report := by
    intro spec document config h t ht hunread
    rcases ht.reads_or_reports h true with hread | ⟨u, k, marker, hprefix, hunused⟩
    · exact absurd hread hunread
    · obtain ⟨report, htranspile, hreport⟩ := transpile_unused h hstrict hunused
      exact ⟨report, u, k, marker, htranspile, hprefix, hreport⟩
  refine ⟨fun made hmade => ?_, reports⟩
  rcases transpile_cases w request bytes with ⟨_, _, herror⟩ | ⟨header, spec, hheader, hspec, hrun⟩
  · rw [herror] at hmade
    cases hmade
  · obtain ⟨config, -, hconfig, -⟩ := transpileAs_eq_ok (hrun ▸ hmade)
    obtain ⟨document, hdocument, hread⟩ := decode_eq_some hconfig
    have h : Decodes bytes spec document config := ⟨⟨header, hheader, hspec⟩, hdocument, hread⟩
    refine ⟨spec, document, config, h, fun t ht => Classical.byContradiction fun hunread => ?_⟩
    obtain ⟨report, u, k, marker, htranspile, -⟩ := reports spec document config h t ht hunread
    rw [htranspile] at hmade
    cases hmade

/-! ## Documents -/

/-- A property of what a document says and of its config holds of a document that decodes. -/
theorem exists_decodes {bytes : Bytes} {header : Header} {spec : Spec}
    (hheader : (Header.ofBytes? bytes).toOption = some header)
    (hspec : (Spec.lookup header.variant header.version).toOption = some spec)
    {p : Datum → Config → Bool}
    (h : ((Datum.ofBytes? bytes).any fun document =>
      (Config.ofDatum spec.variant document).toOption.any (p document)) = true) :
    ∃ document config, Decodes bytes spec document config ∧ p document config = true := by
  have ok_of_toOption : ∀ {ε α : Type} {x : Except ε α} {a : α}, x.toOption = some a → x = .ok a := by
    intro ε α x a h
    cases x with
    | error e => cases h
    | ok b => exact congrArg Except.ok (Option.some.inj h)
  cases hdocument : Datum.ofBytes? bytes with
  | none => simp [hdocument] at h
  | some document =>
    cases hread : Config.ofDatum spec.variant document with
    | error e => simp [hdocument, hread, Except.toOption] at h
    | ok config =>
      refine ⟨document, config, ⟨⟨header, ok_of_toOption hheader, ok_of_toOption hspec⟩, hdocument,
        hread⟩, ?_⟩
      simpa [hdocument, hread, Except.toOption] using h

/-- A document that describes a file. -/
def filed : Bytes :=
  Text.encodeUtf8 "variant: fcos\nversion: 1.5.0\nstorage:\n  files:\n    - path: /a\n".toList

/-- The path of the file is read. -/
theorem filed_reads : (transpile .bare { strict := true } filed).isOk = true ∧
    ∃ document config, Decodes filed (.of .fcos 1 5 3 4) document config ∧
      Config.IsRead .fcos document [.key "storage", .key "files", .index 0, .key "path"] := by
  have hok : (transpile .bare { strict := true } filed).isOk = true := by decide +kernel
  obtain ⟨document, config, h, hp⟩ := @exists_decodes filed ⟨"fcos", .release 1 5 0⟩
    (.of .fcos 1 5 3 4) (by decide +kernel) (by decide +kernel)
    (fun document config =>
      (document.at? [.key "storage", .key "files", .index 0, .key "path"]).isSome &&
        ((config.json.at? [.key "storage", .key "files"]).bind Json.items?).isSome)
    (by decide +kernel)
  obtain ⟨hvalue, hlist⟩ := Bool.and_eq_true_iff.mp hp
  have hplaced : Placed filed document config
      [.key "storage", .key "files", .index 0, .key "path"] := by
    refine ⟨hvalue, by decide +kernel, fun u i hu => ?_⟩
    have hfiles : u = [.key "storage", .key "files"] := by
      match u, hu with
      | [], hu => simp at hu
      | [a], hu => simp at hu
      | [a, b], hu => simp_all
      | [a, b, c], hu => simp at hu
      | a :: b :: c :: d :: u, hu => simp at hu
    obtain ⟨values, hvalues⟩ := Option.isSome_iff_exists.mp hlist
    obtain ⟨x, hx, hitems⟩ := Option.bind_eq_some_iff.mp hvalues
    cases x with
    | arr items => exact ⟨items, hfiles ▸ hx⟩
    | _ => cases hitems
  refine ⟨hok, document, config, h, Classical.byContradiction fun hunread => ?_⟩
  obtain ⟨report, u, k, marker, herror, -⟩ :=
    (@transpile_reads .bare { strict := true } filed rfl).2 _ document config h _ hplaced hunread
  rw [herror] at hok
  cases hok

/-- A document with an anchor, and with a key that means nothing. -/
def anchored : Bytes :=
  Text.encodeUtf8 "variant: fcos\nversion: &v 1.5.0\nbogus: 1\n".toList

/-- In strict mode a document is accepted with a key that is not read. -/
theorem anchored_unread : (transpile .bare { strict := true } anchored).isOk = true ∧
    ∃ document config, Decodes anchored (.of .fcos 1 5 3 4) document config ∧
      (document.at? [.key "bogus"]).isSome ∧ ¬Config.IsRead .fcos document [.key "bogus"] := by
  refine ⟨by decide +kernel, ?_⟩
  obtain ⟨document, config, h, hp⟩ := @exists_decodes anchored ⟨"fcos", .release 1 5 0⟩
    (.of .fcos 1 5 3 4) (by decide +kernel) (by decide +kernel)
    (fun document config =>
      (document.child? (.key "bogus")).isSome && (config.json.get? "bogus").isNone)
    (by decide +kernel)
  obtain ⟨hkey, hnone⟩ := Bool.and_eq_true_iff.mp hp
  obtain ⟨z, hz⟩ := Option.isSome_iff_exists.mp hkey
  refine ⟨document, config, h, by simp [hz], fun hread => ?_⟩
  have hsome := (Config.isRead_iff h.read hz).mp hread
  rw [Option.isNone_iff_eq_none.mp hnone] at hsome
  cases hsome

end Provision
