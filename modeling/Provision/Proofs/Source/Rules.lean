import Provision.Proofs.Translator
import Provision.Source.Translate

/-!
# What is read from local files

Units, drop-ins and users may have contents and keys in local files. What is read is put beside what
the config itself says, with the field that names the file as its origin.

* `traced_insert`: a traced object with another member is traced.
* `traced_unitRule`, `traced_userRule`: units and users are traced, whatever is in the files.
-/

set_option autoImplicit false

namespace Provision.Source

open Translator (Traced made)

section Rules

variable {t : Translator} {known plain : Trail → Prop} {origin place : Trail}
  {fields : List (String × Shape)} {x : Json} {m : Translated (Option Json)}

/-- **A traced object with another member is traced**, if the member is covered and no plain leaf is
lost to it. -/
theorem traced_insert {members : List (String × Json)} {k : String} {c : Json} {s : Shape}
    {p : Provenance} (hrule : (t.rule? origin).isSome = true)
    (hm : Traced t known plain (.record fields) origin place x m)
    (hx : x.isScalar = false) (hmade : made x m = .obj members)
    (hs : fields.lookup k = some s) (hfits : s.Fits c) (hdistinct : c.isDistinct = true)
    (hgrows : m.provenance.Grows known (fun q => q = place ∨ place.key k <+: q) p)
    (hplace : (p.find? place).isSome = true) (hcovers : p.Covers (place.key k) c)
    (hcarries : ∀ u z u', x.at? u = some z → z.isScalar = true → plain (origin ++ u) →
      t.rename u = .key k :: u' → (made x m).at? (t.rename u) = some z →
        p.find? (place ++ t.rename u) = m.provenance.find? (place ++ t.rename u) ∧
          c.at? u' = some z) (report : Report) :
    Traced t known plain (.record fields) origin place x
      ⟨some (.obj (Json.insert k c members)), p, report⟩ := by
  have hput : Json.obj (Json.insert k c members) = Json.put c [.key k] (made x m) := by
    rw [hmade]
    rfl
  have hroom : Json.HasRoom [.key k] (made x m) := trivial
  have hshape : (Shape.record fields).at? [.key k] = some s := by
    rw [Shape.at?_cons, Shape.child?_key_record, hs]
    rfl
  rw [hput]
  refine ⟨hgrows.sorted hm.sorted, fun e he => ?_, ?_, nofun, ?_, ?_, ?_, ?_,
    Translator.returns_of_rule hrule _ _⟩
  · rcases hgrows.mem e he with he | ⟨rfl | hp, ho⟩
    · exact hm.origins e he
    · exact ⟨List.prefix_refl _, ho⟩
    · exact ⟨(Provenance.prefix_key _ _).trans hp, ho⟩
  · rintro v ⟨⟩
    exact Json.isEmpty_put_cons _ _ _ _
  · exact Json.isDistinct_put hdistinct _ hm.distinct
  · exact Shape.fits_put hroom (.inl hm.fits) hshape hfits
  · refine (Provenance.covers_iff _ _ _).mpr ⟨fun _ => .inr hplace, fun step y hy => ?_⟩
    by_cases hk : step = .key k
    · subst hk
      cases (Json.child?_put_key _ _ _ _).symm.trans hy
      exact hcovers
    · have hy' := Json.child?_put_of_ne _ _ hk hy hroom
      exact hgrows.covers (((Provenance.covers_iff _ _ _).mp hm.covers).2 step y hy')
  · intro u z hz hleaf hne hp
    obtain ⟨hv, ho⟩ := hm.carries u z hz hleaf hne hp
    cases u with
    | nil =>
      cases hz
      rw [hx] at hleaf
      cases hleaf
    | cons step u =>
      rw [Translator.rename_cons] at hv ho ⊢
      by_cases hk : t.renameStep step = .key k
      · obtain ⟨hfind, hc⟩ := hcarries (step :: u) z (t.rename u) hz hleaf hp
          (by rw [Translator.rename_cons, hk]) hv
        refine ⟨?_, hfind.trans ho⟩
        rw [hk]
        exact (Json.at?_cons_of_child (Json.child?_put_key _ _ _ _) _).trans hc
      · refine ⟨Shape.at?_put_of_leaf hroom hm.fits hshape hv hleaf fun hpre => ?_, ?_⟩
        · exact hk (List.cons_prefix_cons.mp hpre).1.symm
        · rw [hgrows.beside _ ?_]
          · exact ho
          · rintro (hq | hq)
            · simp at hq
            · rw [Trail.key, List.prefix_append_right_inj] at hq
              exact hk (List.cons_prefix_cons.mp hq).1.symm

/-- A traced part stays traced when more origins are recorded, if those of plain leaves stay. -/
theorem traced_grown {s : Shape} {places : Trail → Prop} {p : Provenance}
    (hm : Traced t known plain s origin place x m) (hgrows : m.provenance.Grows known places p)
    (hplaces : ∀ q, places q → place <+: q)
    (hcarries : ∀ u z, z.isScalar = true → (made x m).at? (t.rename u) = some z →
      ¬places (place ++ t.rename u)) (report : Report) :
    Traced t known plain s origin place x ⟨m.value, p, report⟩ where
  sorted := hgrows.sorted hm.sorted
  origins e he := by
    rcases hgrows.mem e he with he | ⟨hq, ho⟩
    · exact hm.origins e he
    · exact ⟨hplaces _ hq, ho⟩
  content := hm.content
  vacant := hm.vacant
  distinct := hm.distinct
  fits := hm.fits
  covers := hgrows.covers hm.covers
  carries u z hz hleaf hne hp := by
    obtain ⟨hv, ho⟩ := hm.carries u z hz hleaf hne hp
    exact ⟨hv, (hgrows.beside _ (hcarries u z hleaf hv)).trans ho⟩
  returns := hm.returns

/-- What is made of an object is an object. -/
theorem made_obj (hm : Traced t known plain (.record fields) origin place x m) :
    ∃ members, made x m = .obj members :=
  hm.fits.eq_obj

/-! ## Units -/

/-- **A unit is traced**, if no plain leaf is replaced by contents from a file. -/
theorem traced_unitRule (w : Workspace) {members : List (String × Json)}
    (hrule : (t.rule? origin).isSome = true)
    (hm : Traced t known plain (.record fields) origin place (.obj members) m)
    (hs : fields.lookup "contents" = some .leaf) (horigin : known origin)
    (hfield : known (origin.key "contents_local"))
    (hplain : ∀ path, (Json.obj members).get? "contents_local" = some (.str path) →
      ∀ u z u', (Json.obj members).at? u = some z → plain (origin ++ u) →
        t.rename u ≠ .key "contents" :: u') :
    Traced t known plain (.record fields) origin place (.obj members)
      (unitRule w m (.obj members) origin place) := by
  rw [unitRule]
  split
  · exact hm
  · next path hpath =>
    have hlocal : (Json.obj members).get? "contents_local" = some (.str path) := by
      obtain ⟨y, hy, hpath⟩ := Option.bind_eq_some_iff.mp hpath
      cases y <;> cases hpath
      exact hy
    dsimp only
    split
    · exact ⟨hm.sorted, hm.origins, hm.content, hm.vacant, hm.distinct, hm.fits, hm.covers,
        hm.carries, hm.returns⟩
    · next data _ =>
      split
      · next made' hmade =>
        have hcontents := Provenance.grows_add hfield m.provenance (place.key "contents")
        have hplace := Provenance.grows_add horigin
          (m.provenance.add (origin.key "contents_local") (place.key "contents")) place
        refine traced_insert hrule hm rfl hmade hs (Shape.fits_str _) rfl ?_ ?_ ?_ ?_ _
        · exact (hcontents.mono fun q hq => .inr (hq ▸ List.prefix_refl _)).trans
            (hplace.mono fun q hq => .inl hq)
        · rw [Provenance.find?_add]
          rfl
        · refine hplace.covers fun u y hy _ => .inr ?_
          cases u with
          | nil =>
            rw [List.append_nil, Provenance.find?_add]
            rfl
          | cons => simp at hy
        · exact fun u z u' hz _ hp hu _ => absurd hu (hplain path hlocal u z u' hz hp)
      · exact hm

/-! ## Keys of users -/

/-- What holds of the keys of a user after some of the files: those that were given come first, and
all others have origins. -/
structure KeysGrown (known : Trail → Prop) (list : Trail) (given : List Json) (p : Provenance)
    (keys : Keys) : Prop where
  value : ∃ lines : List String, keys.value = given ++ lines.map .str
  grows : p.Grows known
    (fun q => (q = list ∧ given = []) ∨ ∃ i, given.length ≤ i ∧ q = list.index i) keys.provenance
  item : ∀ i, given.length ≤ i → i < keys.value.length →
    (keys.provenance.find? (list.index i)).isSome = true
  list : given = [] → keys.value ≠ [] → (keys.provenance.find? list).isSome = true

theorem keysGrown_refl (known : Trail → Prop) (list : Trail) (given : List Json) (p : Provenance)
    (report : Report) : KeysGrown known list given p ⟨given, p, report⟩ where
  value := ⟨[], by rw [List.map_nil, List.append_nil]⟩
  grows := .refl _ _ _
  item i hi hlt := absurd hlt (Nat.not_lt.mpr hi)
  list hg hne := absurd hg hne

/-- The keys in one more file have origins as well. -/
theorem KeysGrown.step {w : Workspace} {list : Trail} {given : List Json} {p : Provenance}
    {keys : Keys} {entry : Json × Trail} (h : KeysGrown known list given p keys)
    (hknown : known entry.2) :
    KeysGrown known list given p (addKeys w list (!given.isEmpty) keys entry) := by
  obtain ⟨x, source⟩ := entry
  obtain ⟨before, hbefore⟩ := h.value
  have hlength : given.length ≤ keys.value.length := by
    rw [hbefore, List.length_append]
    exact Nat.le_add_right _ _
  rw [addKeys]
  split
  · next path _ =>
    split
    · exact ⟨h.value, h.grows, h.item, h.list⟩
    · next data _ =>
      dsimp only
      -- First each line gets its origin, then the list does unless it was there.
      have hline : ∀ e ∈ (keyLines data).zipIdx, ∀ p : Provenance,
          p.Grows known (fun q => ∃ i, given.length ≤ i ∧ q = list.index i)
            (p.add source (list.index (keys.value.length + e.2))) := fun e _ p =>
        (Provenance.grows_add hknown p _).mono fun q hq => ⟨_, by omega, hq⟩
      have hlines := Provenance.grows_foldl hline keys.provenance
      have hlist : ∀ p : Provenance, p.Grows known (fun q => q = list ∧ given = [])
          (if (!given.isEmpty) = true then p else p.add source list) := fun p => by
        split
        · exact .refl _ _ _
        · next hg =>
          have hg : given = [] := by simpa using hg
          exact (Provenance.grows_add hknown p list).mono fun q hq => ⟨hq, hg⟩
      refine ⟨⟨before ++ keyLines data, ?_⟩, ?_, fun i hi hlt => ?_, fun hg _ => ?_⟩
      · rw [hbefore, List.map_append, List.append_assoc]
      · exact (h.grows.trans (hlines.mono fun q hq => .inr hq)).trans
          ((hlist _).mono fun q hq => .inl hq)
      · refine (hlist _).isSome _ ?_
        by_cases hk : i < keys.value.length
        · exact hlines.isSome _ (h.item i hi hk)
        · rw [List.length_append, List.length_map] at hlt
          have hj : i - keys.value.length < (keyLines data).length := by omega
          have hmem : ((keyLines data)[i - keys.value.length], i - keys.value.length) ∈
              (keyLines data).zipIdx := by
            rw [List.mk_mem_zipIdx_iff_getElem?]
            exact List.getElem?_eq_getElem hj
          refine Provenance.isSome_foldl hline hmem (fun p => ?_) _
          rw [show keys.value.length + (i - keys.value.length) = i by omega, Provenance.find?_add]
          rfl
      · rw [hg, if_neg (by simp), Provenance.find?_add]
        rfl
  · exact h

theorem keysGrown_foldl {w : Workspace} {list : Trail} {given : List Json} {p : Provenance}
    {entries : List (Json × Trail)} (hknown : ∀ e ∈ entries, known e.2) {keys : Keys}
    (h : KeysGrown known list given p keys) :
    KeysGrown known list given p (entries.foldl (addKeys w list (!given.isEmpty)) keys) := by
  induction entries generalizing keys with
  | nil => exact h
  | cons e rest ih =>
    obtain ⟨he, hr⟩ := List.forall_mem_cons.mp hknown
    exact ih hr (h.step he)

/-- Only the part at a list and parts of it from some position on have got origins, so the items
before that have the origins they had. -/
theorem KeysGrown.find?_given {list : Trail} {given : List Json} {p : Provenance} {keys : Keys}
    (h : KeysGrown known list given p keys) {i : Nat} (hi : i < given.length) :
    keys.provenance.find? (list.index i) = p.find? (list.index i) := by
  refine h.grows.beside _ ?_
  rintro (⟨hq, -⟩ | ⟨j, hj, hq⟩)
  · exact absurd (congrArg List.length hq) (by simp [Trail.index])
  · have hs := List.append_cancel_left hq
    cases hs
    omega

/-- The keys that were given are those in what is made of a user without its files. -/
theorem given_eq (hm : Traced t known plain (.record fields) origin place x m)
    (hx : Translator.vacant x = .obj []) {k : String} (hs : fields.lookup k = some (.list .leaf)) :
    (made x m).get? k = some (.arr (((m.value.bind (·.get? k)).bind Json.items?).getD [])) ∨
      ((made x m).get? k = none ∧ ((m.value.bind (·.get? k)).bind Json.items?).getD [] = []) := by
  have hget : m.value.bind (·.get? k) = (made x m).get? k := by
    rw [made]
    cases m.value with
    | none => rw [Option.getD_none, hx]; rfl
    | some v => rfl
  rw [hget]
  cases hc : (made x m).get? k with
  | none => exact .inr ⟨rfl, rfl⟩
  | some c =>
    obtain ⟨items, rfl⟩ := (@Shape.Fits.child_of _ _ _ _ (.key k) hm.fits hc hs).eq_arr
    exact .inl rfl

/-- A leaf among the keys is one of those that were given. -/
theorem item_of_leaf {v z : Json} {k : String} {u : Trail} {given : List Json}
    (hv : (Shape.record fields).Fits v) (hs : fields.lookup k = some (.list .leaf))
    (hgiven : v.get? k = some (.arr given) ∨ (v.get? k = none ∧ given = []))
    (hz : v.at? (.key k :: u) = some z) (hleaf : z.isScalar = true) :
    ∃ i, u = [.index i] ∧ given[i]? = some z := by
  obtain ⟨s, hsu, -⟩ := hv.at hz
  rw [Shape.at?_cons, Shape.child?_key_record, hs, Option.bind_some] at hsu
  obtain ⟨c, hc, hz⟩ := Option.bind_eq_some_iff.mp hz
  rcases hgiven with hgiven | ⟨hnone, -⟩
  · cases hgiven.symm.trans hc
    match u with
    | [] =>
      cases hz
      cases hleaf
    | .key _ :: _ => cases hsu
    | [.index i] =>
      obtain ⟨y, hy, hz⟩ := Option.bind_eq_some_iff.mp hz
      cases hz
      exact ⟨i, rfl, hy⟩
    | .index _ :: step :: _ => cases step <;> cases hsu
  · cases hnone.symm.trans hc

/-- All keys have origins if those that were given had. -/
theorem KeysGrown.covers {list : Trail} {given : List Json} {p : Provenance} {keys : Keys}
    (h : KeysGrown known list given p keys) (hgiven : p.Covers list (.arr given)) :
    keys.provenance.Covers list (.arr keys.value) := by
  have hold := (Provenance.covers_iff _ _ _).mp (h.grows.covers hgiven)
  refine (Provenance.covers_iff _ _ _).mpr ⟨fun hne => ?_, fun step y hy => ?_⟩
  · cases given with
    | nil => exact .inr (h.list rfl fun he => by simp [he, Json.isEmpty] at hne)
    | cons => exact hold.1 rfl
  · cases step with
    | key => cases hy
    | index i =>
      obtain ⟨lines, hvalue⟩ := h.value
      rw [Json.child?_index_arr] at hy
      by_cases hi : i < given.length
      · rw [hvalue, List.getElem?_append_left hi] at hy
        exact hold.2 (.index i) y hy
      · have hlt := (List.getElem?_eq_some_iff.mp hy).1
        refine (Provenance.covers_iff _ _ _).mpr ⟨fun _ => .inr ?_, fun step z hz => ?_⟩
        · exact h.item i (Nat.le_of_not_lt hi) hlt
        · rw [hvalue, List.getElem?_append_right (Nat.le_of_not_lt hi), List.getElem?_map] at hy
          obtain ⟨line, -, rfl⟩ := Option.map_eq_some_iff.mp hy
          simp at hz

/-- The items of a list that names files are known. -/
theorem known_files {x : Json} {k : String} {field : Trail}
    (h : ∀ i, (x.at? [.key k, .index i]).isSome = true → known (field.index i)) :
    ∀ e ∈ (((x.get? k).bind Json.items?).getD []).zipIdx.map fun (x, i) => (x, field.index i),
      known e.2 := by
  intro e he
  obtain ⟨⟨y, i⟩, hy, rfl⟩ := List.mem_map.mp he
  refine h i ?_
  rw [List.mk_mem_zipIdx_iff_getElem?] at hy
  cases hl : x.get? k with
  | none =>
    rw [hl] at hy
    cases hy
  | some l =>
    rw [hl] at hy
    rw [@Json.at?_cons_of_child (.key k) _ _ hl]
    cases l with
    | arr items =>
      rw [@Json.at?_cons_of_child (.index i) (.arr items) _ hy]
      rfl
    | _ => cases hy

/-- **A user is traced**, whatever keys are read. Those that were given stay before them. -/
theorem traced_userRule (w : Workspace) {members : List (String × Json)}
    (hrule : (t.rule? origin).isSome = true)
    (hm : Traced t known plain (.record fields) origin place (.obj members) m)
    (hs : fields.lookup "sshAuthorizedKeys" = some (.list .leaf)) (horigin : known origin)
    (hfile : ∀ i, ((Json.obj members).at? [.key "ssh_authorized_keys_local", .index i]).isSome →
      known ((origin.key "ssh_authorized_keys_local").index i)) :
    Traced t known plain (.record fields) origin place (.obj members)
      (userRule w m (.obj members) origin place) := by
  obtain ⟨old, hold⟩ := made_obj hm
  have hentries := known_files hfile
  have hgiven := given_eq hm rfl hs
  rw [userRule]
  split
  · exact hm
  dsimp only
  generalize ((m.value.bind (·.get? "sshAuthorizedKeys")).bind Json.items?).getD [] = given at *
  have hkeys := keysGrown_foldl (w := w) hentries
    (keysGrown_refl known (place.key "sshAuthorizedKeys") given m.provenance m.report)
  generalize List.foldl _ _ _ = keys at *
  obtain ⟨lines, hvalue⟩ := hkeys.value
  -- What was given is a list of leaves, all of which have origins.
  obtain ⟨hfits, hdistinct, hcovers⟩ : (Shape.list .leaf).Fits (.arr given) ∧
      (Json.arr given).isDistinct = true ∧
        m.provenance.Covers (place.key "sshAuthorizedKeys") (.arr given) := by
    rcases hgiven with hc | ⟨-, rfl⟩
    · have hc : (made (.obj members) m).child? (.key "sshAuthorizedKeys") = some (.arr given) := hc
      exact ⟨hm.fits.child_of hc hs, Json.isDistinct_of_child hm.distinct hc,
        ((Provenance.covers_iff _ _ _).mp hm.covers).2 _ _ hc⟩
    · exact ⟨Shape.fits_list nofun, rfl, Provenance.covers_of_isEmpty _ _ rfl⟩
  have hplaces : ∀ q, ((q = place.key "sshAuthorizedKeys" ∧ given = []) ∨
      ∃ i, given.length ≤ i ∧ q = (place.key "sshAuthorizedKeys").index i) →
      place.key "sshAuthorizedKeys" <+: q := by
    rintro q (⟨rfl, -⟩ | ⟨i, -, rfl⟩)
    · exact List.prefix_refl _
    · exact Provenance.prefix_index _ _
  split
  · next hempty =>
    -- There are no keys at all, so no leaf is among them.
    have hgiven' : given = [] := by
      rw [List.isEmpty_iff.mp hempty] at hvalue
      exact (List.append_eq_nil_iff.mp hvalue.symm).1
    refine traced_grown hm hkeys.grows
      (fun q hq => (Provenance.prefix_key _ _).trans (hplaces q hq)) (fun u z hleaf hz hq => ?_) _
    obtain ⟨u', hu⟩ := hplaces _ hq
    rw [Trail.key, List.append_assoc, List.append_cancel_left_eq] at hu
    rw [← hu] at hz
    obtain ⟨i, -, hi⟩ := item_of_leaf hm.fits hs hgiven hz hleaf
    rw [hgiven'] at hi
    cases hi
  · split
    · next made' hmade =>
      have hroot := Provenance.grows_add horigin keys.provenance place
      have hline : ∀ {v}, v ∈ lines.map Json.str → Shape.leaf.Fits v ∧ v.isDistinct = true := by
        intro v hv
        obtain ⟨line, -, rfl⟩ := List.mem_map.mp hv
        exact ⟨Shape.fits_str line, rfl⟩
      refine traced_insert hrule hm rfl hmade hs (Shape.fits_list fun v hv => ?_)
        (Json.isDistinct_arr.mpr fun v hv => ?_)
        ((hkeys.grows.mono fun q hq => .inr (hplaces q hq)).trans
          (hroot.mono fun q hq => .inl hq)) ?_ (hroot.covers (hkeys.covers hcovers)) ?_ _
      · rw [hvalue] at hv
        rcases List.mem_append.mp hv with hv | hv
        · obtain ⟨i, hi⟩ := List.mem_iff_getElem?.mp hv
          exact @Shape.Fits.child_of _ _ _ _ (.index i) hfits hi rfl
        · exact (hline hv).1
      · rw [hvalue] at hv
        rcases List.mem_append.mp hv with hv | hv
        · exact Json.isDistinct_arr.mp hdistinct v hv
        · exact (hline hv).2
      · rw [Provenance.find?_add]
        rfl
      · intro u z u' hz hleaf hp hu hv
        rw [hu] at hv ⊢
        obtain ⟨i, rfl, hi⟩ := item_of_leaf hm.fits hs hgiven hv hleaf
        have hlt := (List.getElem?_eq_some_iff.mp hi).1
        refine ⟨?_, ?_⟩
        · rw [hroot.beside _ (by simp)]
          have hfind := hkeys.find?_given hlt
          rwa [Trail.index, Trail.key, List.append_assoc] at hfind
        · rw [hvalue]
          exact @Json.at?_cons_of_child (.index i) (.arr _) z
            ((List.getElem?_append_left hlt).trans hi) []
    · next hno => exact absurd hold (hno old)

end Rules

end Provision.Source
