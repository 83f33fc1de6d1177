import Provision.Proofs.Variant.FileContents
import Provision.Proofs.Variant.Filters

/-!
# Documents without what is not supported

Older operators do not decompress contents. So contents that are embedded for them are never
compressed unless the config says so, and only a config that says so is refused.

* `Draft.Uncompressed`: no file of a document says that it is compressed.
* `Config.uncompressed_draft`: that is so where contents may not be compressed and no file of the
  config says so.
* `Config.translate_supported`: what filters find, and that nothing they forbid is made.
-/

set_option autoImplicit false

namespace Provision

open Draft (Shaped)

/-! ## Files that are not compressed -/

/-- A file of a document does not say that it is compressed. -/
def Uncompressed (file : Json) : Prop :=
  ∀ x, (file.get? "contents").bind (·.get? "compression") = some x → x.isEmpty = true

/-- No file of a document says that it is compressed. -/
def Draft.Uncompressed (d : Draft) : Prop := ∀ file ∈ d.nodes "files", Provision.Uncompressed file

theorem DataUrl.isCompressed_embed (bytes : Text.Bytes) :
    (embed false bytes).isCompressed = false := rfl

/-- Contents that are not compressed do not say so. -/
theorem uncompressed_of_get? {file : Json} {e : DataUrl.Embedded} (he : e.isCompressed = false)
    (h : file.get? "contents" = some e.json) : Uncompressed file := by
  intro x hx
  have htexts := e.texts_json.compression
  rw [DataUrl.Embedded.texts, he] at htexts
  rw [h, htexts] at hx
  cases hx

namespace Contents

variable {w : Workspace} {origin place : Trail} {r : Source.Resource}

/-- Where contents may not be compressed, only those are said to be that are said to be by the
config. -/
theorem compression_ofResource (hw : w.options.compress = false) {x : Json}
    (hx : (ofResource w origin place r).value.bind (·.get? "compression") = some x) :
    r.compression.map .str = some x := by
  rw [ofResource] at hx
  have hrest : ∀ m ∈ headers r ++ verification r, m.name ≠ "compression" := fun m hm =>
    (names_rest m hm).2
  split at hx
  · rw [get?_assemble _ _ hrest, fetched] at hx
    cases hs : r.source <;> cases hm : r.compression <;> rw [hs, hm] at hx <;> exact hx
  · rw [get?_assemble _ _ hrest, embed] at hx
    cases hm : r.compression <;> simp only [hm] at hx
    · rw [hw, DataUrl.isCompressed_embed] at hx
      cases hx
    · exact hx
  · cases hx

end Contents

section Sections

variable {w : Workspace} {d : Draft} {origin : Trail}

/-- What a file of the config becomes is not compressed if the config does not say so. -/
theorem Source.uncompressed_madeFile (hw : w.options.compress = false) (i : Nat) {u : Source.File}
    (hu : ∀ method, u.contents.compression = some method → method = "") :
    Uncompressed (madeFile w i u) := by
  intro x hx
  rw [get?_contents, Translator.get?_content] at hx
  have hsame := Contents.compression_ofResource hw hx
  cases hm : u.contents.compression with
  | none =>
    rw [hm] at hsame
    cases hsame
  | some method =>
    rw [hm] at hsame
    cases hsame
    rw [hu method hm]
    rfl

namespace Trees

/-- Where contents may not be compressed, a local file that is written is not. -/
theorem uncompressed_addFile (hw : w.options.compress = false) (h : Shaped d)
    (hd : d.Uncompressed) (localPath path : String) (mode : Nat) :
    (addFile w origin localPath path mode d).Uncompressed := by
  have hwritten := fileWritten_addFile w origin localPath path mode d
  generalize addFile w origin localPath path mode d = d' at hwritten ⊢
  cases hwritten with
  | taken => exact hd
  | unread => exact hd
  | @new body hr hfree =>
    have hlists : Draft.Lists "files" d.value := h.lists (s := Ignition.File.shape) rfl
    have hembedded := DataUrl.isCompressed_embed body
    rw [hw, Draft.Uncompressed, Draft.nodes_push hlists, if_pos rfl]
    exact List.forall_mem_append.mpr
      ⟨hd, List.forall_mem_singleton.mpr (uncompressed_of_get? hembedded rfl)⟩
  | @filled body before after file hr hi hnodes hbefore hp hopen =>
    have hembedded := DataUrl.isCompressed_embed body
    have hset := Draft.nodes_modifyNode_between hnodes
      (Json.setMembers (addedTo file (DataUrl.embed w.options.compress body).json mode))
    have hcontents :=
      (@get?_addedTo file (DataUrl.embed w.options.compress body).json path hp mode).1
    rw [hw] at hset hcontents ⊢
    intro x hx
    change x ∈ (d.modifyNode "files" _ _).nodes "files" at hx
    rw [hset] at hx
    rcases List.mem_append.mp hx with hx | hx
    · exact hd x (hnodes ▸ List.mem_append_left _ hx)
    · rcases List.mem_cons.mp hx with rfl | hx
      · exact uncompressed_of_get? hembedded hcontents
      · exact hd x (hnodes ▸ List.mem_append_right _ (List.mem_cons_of_mem _ hx))

theorem uncompressed_addLink (h : Shaped d) (hd : d.Uncompressed) (path target : String) :
    (addLink origin path target d).Uncompressed := by
  have hwritten := linkWritten_addLink origin path target d
  generalize addLink origin path target d = d' at hwritten ⊢
  cases hwritten with
  | taken => exact hd
  | new =>
    have hlists : Draft.Lists "links" d.value := h.lists (s := Ignition.Link.shape) rfl
    rw [Draft.Uncompressed, Draft.nodes_push hlists, if_neg (by decide)]
    exact hd
  | @filled i link hi hn hp hopen =>
    have hnodes := Draft.nodes_modifyNode d "links" "files" i
      (Json.setMembers [("target", .str target)])
    rw [if_neg (by decide)] at hnodes
    intro file hfile
    exact hd file (hnodes ▸ hfile)

theorem uncompressed_addNode (hw : w.options.compress = false) (h : Shaped d)
    (hd : d.Uncompressed) (root destination : String) (entry : List String × Files.Node) :
    (addNode w origin root destination d entry).Uncompressed := by
  rw [addNode]
  split
  · exact uncompressed_addFile hw h hd _ _ _
  · exact uncompressed_addLink h hd _ _
  · exact hd

/-- Several steps, each of which keeps the shape of a document and compresses nothing. -/
theorem uncompressed_foldl {α : Type} {f : Draft → α → Draft}
    (h : ∀ d e, Shaped d → d.Uncompressed → Shaped (f d e) ∧ (f d e).Uncompressed)
    (entries : List α) : ∀ d : Draft, Shaped d → d.Uncompressed →
      Shaped (entries.foldl f d) ∧ (entries.foldl f d).Uncompressed := by
  induction entries with
  | nil => exact fun _ hs hd => ⟨hs, hd⟩
  | cons e rest ih =>
    intro d hs hd
    obtain ⟨hs', hd'⟩ := h d e hs hd
    exact ih _ hs' hd'

theorem uncompressed_addTree (hw : w.options.compress = false) (h : Shaped d)
    (hd : d.Uncompressed) (tree : Source.Tree) : (addTree w d tree origin).Uncompressed := by
  rw [addTree]
  split
  · exact hd
  dsimp only
  split
  · exact hd
  · refine (uncompressed_foldl (fun d e hs hd => ⟨?_, ?_⟩) _ d h hd).2
    · exact (@grown_addNode (fun _ => True) d origin w hs trivial _ _ e).shaped hs
    · exact uncompressed_addNode hw hs hd _ _ e

theorem uncompressed_expand (hw : w.options.compress = false) (h : Shaped d)
    (hd : d.Uncompressed) (trees : List Source.Tree) (start : Trail) :
    (expand w trees start d).Uncompressed := by
  rw [expand]
  refine (uncompressed_foldl (fun d e hs hd => ⟨?_, ?_⟩) _ d h hd).2
  · exact (@grown_addTree (fun _ => True) d _ w hs e.1 trivial).shaped hs
  · exact uncompressed_addTree hw hs hd e.1

end Trees

/-- **The files of the shared sections are not compressed** where they may not be, if the config does
not say so. -/
theorem Source.uncompressed_translate (hw : w.options.compress = false) (c : Source.Config)
    (hc : ∀ u ∈ c.storage.files, ∀ method, u.contents.compression = some method → method = "") :
    (Source.translate w c).Uncompressed := by
  rw [Draft.Uncompressed, files_translate]
  refine Trees.uncompressed_expand hw (shaped_walked w c) (fun file hfile => ?_) _ _
  obtain ⟨i, hi⟩ := List.mem_iff_getElem?.mp hfile
  rw [getElem?_walked] at hi
  obtain ⟨u, hu, rfl⟩ := Option.map_eq_some_iff.mp hi
  exact uncompressed_madeFile hw i (hc u (List.mem_of_getElem? hu))

end Sections

/-! ## The operator -/

namespace Openshift

theorem files_withCiphers (c : Config) (d : Draft) :
    (c.withCiphers d).nodes "files" = d.nodes "files" := by
  rw [Config.withCiphers]
  split
  · change Draft.nodes ⟨(Fips.choose _ [] d.value d.provenance).1,
      (Fips.choose _ [] d.value d.provenance).2, d.report⟩ "files" = d.nodes "files"
    rw [Fips.choose]
    split
    · rfl
    · rw [Draft.nodes, Json.get?_modify_eq, Draft.nodes]
      cases d.value.get? "storage" with
      | none => rfl
      | some storage =>
        rw [Option.map_some, if_pos rfl, Option.bind_some, Json.get?_modify_eq]
        cases hf : storage.get? "files" <;> simp [hf]
  · rfl

/-- **The files for an operator that does not decompress contents are not compressed**, if the config
does not say so. -/
theorem uncompressed_draft {spec : Spec} (hspec : isCapable spec = false) (w : Workspace) (c : Config)
    (hc : ∀ u ∈ c.base.storage.files, ∀ method, u.contents.compression = some method →
      method = "") : Draft.Uncompressed ((Provision.Config.openshift c).draft spec w) := by
  have hw : (workspace spec w).options.compress = false := by rw [workspace, hspec]; rfl
  intro file hfile
  rw [Provision.Config.draft, Draft.checked] at hfile
  change file ∈ Draft.nodes (c.withCiphers _) "files" at hfile
  rw [files_withCiphers, Merge.nodes_merge (c.bootDevice.shaped_plan [])
    (Source.shaped_translate _ c.base) (s := Ignition.File.shape) rfl, BootDevice.files_plan,
    Merge.laidItems_nil] at hfile
  exact Source.uncompressed_translate hw c.base hc file hfile

/-- The outline of the compression of contents of files. -/
def compressionPlace : Outline :=
  [some "storage", some "files", none, some "contents", some "compression"]

/-- Only operators that do not decompress contents refuse that files say they are compressed. -/
theorem of_unsupportedCompression {spec : Spec} {f : Filter} (hf : f ∈ filters spec)
    (hp : f.problem = .unsupportedCompression) :
    isCapable spec = false ∧ f.pattern.outline = compressionPlace := by
  revert f
  rw [filters]
  cases isCapable spec <;> decide

end Openshift

/-! ## What is reported -/

namespace Report

/-- Entries that are moved keep their problems. -/
theorem problem_of_mem_map {f : Entry → Entry} (h : ∀ e, (f e).problem = e.problem) {r : Report}
    {e : Entry} (he : e ∈ r.map f) : ∃ e' ∈ r, e'.problem = e.problem := by
  obtain ⟨e', he', rfl⟩ := List.mem_map.mp he
  exact ⟨e', he', (h e').symm⟩

theorem problem_of_mem_under {start : Path} {r : Report} {e : Entry} (he : e ∈ r.under start) :
    ∃ e' ∈ r, e'.problem = e.problem :=
  problem_of_mem_map (fun e => by split <;> rfl) he

theorem problem_of_mem_traced {p : Provenance} {r : Report} {e : Entry} (he : e ∈ r.traced p) :
    ∃ e' ∈ r, e'.problem = e.problem := by
  refine problem_of_mem_map (fun e => ?_) he
  split
  · rfl
  · split <;> rfl

end Report

namespace Draft

/-- A node of a kind is in the list of its kind. -/
theorem mem_nodes_of_at {d : Draft} {kind : String} {i : Nat} {t : Trail} {x : Json}
    (h : d.value.at? (.key "storage" :: .key kind :: .index i :: t) = some x) :
    ∃ node ∈ d.nodes kind, node.at? t = some x := by
  obtain ⟨storage, hs, h⟩ := Option.bind_eq_some_iff.mp h
  obtain ⟨list, hl, h⟩ := Option.bind_eq_some_iff.mp h
  obtain ⟨node, hn, h⟩ := Option.bind_eq_some_iff.mp h
  refine ⟨node, ?_, h⟩
  have hs : d.value.get? "storage" = some storage := hs
  have hl : storage.get? kind = some list := hl
  rw [nodes, hs, Option.bind_some, hl]
  cases list with
  | arr items => exact List.mem_of_getElem? hn
  | _ => cases hn

end Draft

namespace Config

/-- **Contents are not refused for being compressed** if the config does not say that they are. -/
theorem problem_of_translate {spec : Spec} {w : Workspace} {raw : Bool} {c : Openshift.Config}
    (hc : ∀ u ∈ c.base.storage.files, ∀ method, u.contents.compression = some method → method = "")
    {e : Entry} (he : e ∈ ((openshift c).translate spec w raw).report) :
    e.problem ≠ .unsupportedCompression := by
  have hdraft : ∀ e ∈ ((openshift c).draft spec w).report, e.problem ≠ .unsupportedCompression := by
    obtain ⟨stops, hstops, hreport⟩ := (openshift c).report_draft spec w
    rw [hreport]
    refine List.forall_mem_append.mpr ⟨fun e he hp => ?_, fun e he hp => ?_⟩
    · have hproblem := (hstops e he).problem
      rw [hp] at hproblem
      cases hproblem
    · obtain ⟨f, hf, t, x, hx, happlies, rfl⟩ :=
        (Filter.mem_applyAll_iff (shaped_draft spec w (openshift c)).distinct).mp he
      obtain ⟨hspec, hplace⟩ := Openshift.of_unsupportedCompression hf hp
      obtain ⟨ht, hne, -⟩ := Filter.applies_iff.mp happlies
      -- The filter is about the compression of a file, which is not said.
      obtain ⟨t₁, rfl, h₁⟩ := Trail.outline_eq_key.mp (ht.symm.trans hplace)
      obtain ⟨t₂, rfl, h₂⟩ := Trail.outline_eq_key.mp h₁
      obtain ⟨i, t₃, rfl, h₃⟩ := Trail.outline_eq_index.mp h₂
      obtain ⟨t₄, rfl, h₄⟩ := Trail.outline_eq_key.mp h₃
      obtain ⟨t₅, rfl, h₅⟩ := Trail.outline_eq_key.mp h₄
      cases Trail.outline_eq_nil.mp h₅
      obtain ⟨file, hfile, hat⟩ := Draft.mem_nodes_of_at hx
      obtain ⟨contents, hcontents, hat⟩ := Option.bind_eq_some_iff.mp hat
      obtain ⟨y, hy, hyx⟩ := Option.bind_eq_some_iff.mp hat
      cases hyx
      have hget : file.get? "contents" = some contents := hcontents
      have hempty := Openshift.uncompressed_draft hspec w c hc file hfile x (by rw [hget]; exact hy)
      rw [hempty] at hne
      cases hne
  have hinner : ∀ e ∈ (stamp spec ((openshift c).draft spec w)).report,
      e.problem ≠ .unsupportedCompression := by
    rw [stamp]
    split
    · exact hdraft
    · refine List.forall_mem_append.mpr ⟨hdraft, List.forall_mem_singleton.mpr fun h => ?_⟩
      cases h
  have hmoved : ∀ e ∈ (stamp spec ((openshift c).draft spec w)).report.under
      (.target Openshift.configTrail), e.problem ≠ .unsupportedCompression := by
    intro e he hp
    obtain ⟨e', he', hsame⟩ := Report.problem_of_mem_under he
    exact hinner e' he' (hsame.trans hp)
  have hlost : ∀ f ∈ Openshift.wrapperFilters, f.problem ≠ .unsupportedCompression := by
    decide
  rw [translate, Openshift.Config.translate] at he
  dsimp only at he
  split at he
  · exact hmoved e he
  · split at he
    · obtain ⟨e', he', hsame⟩ := Report.problem_of_mem_traced he
      rw [← hsame]
      rcases List.mem_append.mp he' with he' | he'
      · exact hmoved e' he'
      · rw [Filter.applyAll_eq, List.mem_flatMap] at he'
        obtain ⟨n, -, he'⟩ := he'
        obtain ⟨f, hf, rfl⟩ := List.mem_map.mp he'
        exact hlost f (List.mem_filter.mp hf).1
    · exact hmoved e he

/-- **Filters find exactly what they are about, and nothing that they forbid is made.** In any
document they find an entry for each node with content and each filter whose pattern fits the trail
of the node and that catches its value, in the order of the document and then of the filters. A
config that is translated without an error is made into a document in which no filter for errors of
its variant applies to anything. An operator that does not decompress contents gets none that are
compressed, and unless the config itself says so it is not refused for contents that are. -/
theorem translate_supported :
    (∀ (filters : List Filter) (root : Path) (document : Json),
      Filter.applyAll filters root document = document.nodes.flatMap fun n =>
        (filters.filter fun f => f.pattern.outline = n.1.outline ∧ n.2.isEmpty = false ∧
          f.catches n.2 = true).map fun f =>
            ⟨f.severity, ⟨root.schema, root.trail ++ n.1⟩, f.problem, none⟩) ∧
    (∀ document : Json, document.isDistinct = true →
      (document.nodes.map Prod.fst).Nodup ∧
        ∀ t x, (t, x) ∈ document.nodes ↔ document.at? t = some x) ∧
    (∀ (spec : Spec) (w : Workspace) (raw : Bool) (config : Config),
      (config.translate spec w raw).report.isFatal = false →
        ∃ document, (config.translate spec w raw).value = some document ∧
          ∀ f ∈ config.filters spec, f.severity = .error ∧ ∀ t x,
            (Ignition.Config.codec.write document.config).at? t = some x → x.isEmpty = false →
              f.pattern.outline = t.outline → f.catches x = false) ∧
    (∀ (spec : Spec) (w : Workspace) (raw : Bool) (c : Openshift.Config),
      spec.atLeast 4 13 0 = false → ((openshift c).translate spec w raw).report.isFatal = false →
        ∃ document, ((openshift c).translate spec w raw).value = some document ∧
          ∀ t x, t.outline = Openshift.compressionPlace →
            (Ignition.Config.codec.write document.config).at? t = some x → x.isEmpty = true) ∧
    (∀ (spec : Spec) (w : Workspace) (raw : Bool) (c : Openshift.Config),
      (∀ u ∈ c.base.storage.files, ∀ method, u.contents.compression = some method →
        method = "") →
        ∀ e ∈ ((openshift c).translate spec w raw).report,
          e.problem ≠ .unsupportedCompression) := by
  refine ⟨fun filters root document => ?_, fun document hd => ⟨Json.nodup_nodes document hd,
    fun t x => Json.mem_nodes_iff hd⟩, fun spec w raw config h => ?_,
    fun spec w raw c hspec h => ?_, fun spec w raw c hc e he => problem_of_translate hc he⟩
  · rw [Filter.applyAll_eq]
    congr 1
    funext n
    congr 1
    refine List.filter_congr fun f _ => ?_
    rw [Bool.eq_iff_iff, Filter.applies_iff, decide_eq_true_iff]
  · obtain ⟨document, hvalue, hmade⟩ := exists_of_not_isFatal h
    refine ⟨document, hvalue, fun f hf => ⟨severity_filters f hf, fun t x hx hne hfits => ?_⟩⟩
    have hnone := not_applies h hmade hf hx
    rw [← Bool.not_eq_true] at hnone ⊢
    exact fun hcatches => hnone (Filter.applies_iff.mpr ⟨hfits, hne, hcatches⟩)
  · obtain ⟨document, hvalue, hmade⟩ := exists_of_not_isFatal h
    refine ⟨document, hvalue, fun t x ht hx => ?_⟩
    have hmem : Filter.forbid "storage.files.*.contents.compression" .unsupportedCompression ∈
        (openshift c).filters spec := by
      have hcapable : Openshift.isCapable spec = false := hspec
      refine List.mem_append_left _ (List.mem_append_right _ ?_)
      rw [hcapable]
      exact List.mem_cons_self
    have hplace : (Pattern.ofText "storage.files.*.contents.compression").outline =
        Openshift.compressionPlace := by decide
    have hnone := not_applies h hmade hmem hx
    rw [← Bool.not_eq_true] at hnone
    rw [← Bool.not_eq_false]
    exact fun hne => hnone (Filter.applies_iff.mpr ⟨hplace.trans ht.symm, hne, rfl⟩)

/-- A config for an operator that does not decompress contents, with contents that are shorter if
they are compressed. -/
def inlined : Openshift.Config where
  variant := "openshift"
  version := "4.12.0"
  metadata := ⟨"files", [(MachineConfig.roleLabel, "worker")]⟩
  base := { storage := { files :=
    [{ path := "/etc/motd", contents := { inline := some "((((((((((((((((" } }] } }

theorem inlined_supported :
    ((openshift inlined).translate (.of .openshift 4 12 3 2) .bare false).report.isFatal = false ∧
      (∃ document, ((openshift inlined).translate (.of .openshift 4 12 3 2) .bare false).value =
          some document ∧ ∀ t x, t.outline = Openshift.compressionPlace →
            (Ignition.Config.codec.write document.config).at? t = some x → x.isEmpty = true) ∧
      ∀ e ∈ ((openshift inlined).translate (.of .openshift 4 12 3 2) .bare false).report,
        e.problem ≠ .unsupportedCompression := by
  have hreport : ((openshift inlined).translate (.of .openshift 4 12 3 2) .bare
      false).report.isFatal = false := by with_unfolding_all decide
  obtain ⟨-, -, -, hcompression, hproblem⟩ := translate_supported
  exact ⟨hreport, hcompression _ _ _ _ (by decide) hreport, hproblem _ _ _ _ (by decide)⟩

end Config

end Provision
