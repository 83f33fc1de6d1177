import Provision.MountUnit
import Provision.Proofs.Files.Follow
import Provision.Proofs.Text.Utf8

/-!
# Paths in the names of units

The name of a unit holds a path in an escaped form, from which the bytes of the path can be read
back. Slashes at the ends of a path and slashes in a row are not part of it, so two paths have one
form exactly if they have the same steps.

* `splitOn_slash`: the names in a path are its steps.
* `unescape_escapePath`: an escaped path is read back.
* `escapePath_inj`: paths with different steps are escaped to different texts.
* `not_mem_escapePath`, `escapePath_ne_nil`, `head?_escapePath_ne`: an escaped path is the start of a
  name.
* `escapePath_exact`: all of this for two paths.
-/

set_option autoImplicit false

namespace Provision.MountUnit

open Provision.Text (Bytes encodeUtf8 decodeUtf8)

/-! ## The names in a path -/

theorem splitOn_slash (s : List Char) : Text.splitOn '/' s = Files.pieces s := by
  induction s with
  | nil => rfl
  | cons c s ih =>
    obtain ⟨piece, rest, hs, hc⟩ := Files.pieces_cons c s
    rw [Text.splitOn, ih, hc, hs]

/-- The bytes of a path are those of its steps with a slash between each two. -/
theorem pathBytes_eq (path : String) :
    pathBytes path = encodeUtf8 (['/'].intercalate ((Files.steps path).map String.toList)) := by
  rw [pathBytes, splitOn_slash, Files.steps, List.map_map]
  congr 2
  exact (List.map_id _).symm.trans (List.map_congr_left fun s _ => String.toList_ofList.symm)

theorem joined_inj {p q : String}
    (h : ['/'].intercalate ((Files.steps p).map String.toList) =
      ['/'].intercalate ((Files.steps q).map String.toList)) : Files.steps p = Files.steps q := by
  have habsolute : Files.absolute (Files.steps p) = Files.absolute (Files.steps q) := by
    rw [← String.toList_inj, Files.toList_absolute, Files.toList_absolute, h]
  have hp := Files.steps_absolute fun n => @Files.isName_of_mem_steps p n
  rw [← hp, habsolute]
  exact Files.steps_absolute fun n => Files.isName_of_mem_steps

/-- **The bytes of a path tell its steps.** -/
theorem pathBytes_inj {p q : String} :
    pathBytes p = pathBytes q ↔ Files.steps p = Files.steps q := by
  rw [pathBytes_eq, pathBytes_eq]
  refine ⟨fun h => joined_inj ?_, fun h => by rw [h]⟩
  have hdecoded := congrArg decodeUtf8 h
  rwa [Text.decodeUtf8_encodeUtf8, Text.decodeUtf8_encodeUtf8] at hdecoded

/-- No path is a lone slash once its outer slashes are gone. -/
theorem pathBytes_ne_slash (path : String) : pathBytes path ≠ [0x2f] := by
  intro h
  have hslash : ['/'].intercalate ((Files.steps path).map String.toList) = ['/'] := by
    have hbytes : [0x2f] = encodeUtf8 ['/'] := rfl
    have hdecoded := congrArg decodeUtf8 ((pathBytes_eq path).symm.trans (h.trans hbytes))
    rwa [Text.decodeUtf8_encodeUtf8, Text.decodeUtf8_encodeUtf8] at hdecoded
  have habsolute : Files.absolute (Files.steps path) = "//" := by
    rw [← String.toList_inj, Files.toList_absolute, hslash]
    rfl
  have hsteps := Files.steps_absolute fun n => @Files.isName_of_mem_steps path n
  have hnone : Files.steps "//" = [] := by decide
  rw [habsolute, hnone] at hsteps
  rw [← hsteps] at hslash
  cases hslash

/-! ## Reading an escaped path -/

/-- The value of a lower-case digit in base 16. -/
def digitValue (c : Char) : Nat := if c.isDigit then c.toNat - 48 else c.toNat - 87

/-- Reads the bytes of an escaped path: a dash is a slash. -/
def unescape : List Char → Bytes
  | [] => []
  | '\\' :: 'x' :: a :: b :: rest =>
    UInt8.ofNat (16 * digitValue a + digitValue b) :: unescape rest
  | c :: rest => (if c = '-' then 0x2f else UInt8.ofNat c.toNat) :: unescape rest

/-- A byte that stands for itself is not a sign that stands for something else, and is read as it
is. -/
theorem of_isPlain {b : UInt8} (h : isPlain b = true) :
    Char.ofNat b.toNat ∉ ['\\', '-', '/'] ∧ UInt8.ofNat (Char.ofNat b.toNat).toNat = b := by
  obtain ⟨hlt, hchar⟩ := Bool.and_eq_true_iff.mp h
  have hvalid : b.toNat.isValidChar := .inl (Nat.lt_trans b.toNat_lt (by decide))
  refine ⟨fun hmem => ?_, ?_⟩
  · simp only [List.mem_cons, List.not_mem_nil, or_false] at hmem
    rcases hmem with h | h | h
    all_goals
      rw [h] at hchar
      exact absurd hchar (by decide)
  · rw [Char.ofNat, dif_pos hvalid]
    exact UInt8.ofNat_toNat

theorem digitValue_digitChar : ∀ n < 16, digitValue (Nat.digitChar n) = n := by
  decide

theorem unescape_hexPair (b : UInt8) (rest : List Char) :
    unescape ('\\' :: 'x' :: hexPair b.toNat ++ rest) = b :: unescape rest := by
  have hb := b.toNat_lt
  have hsum : 16 * (b.toNat / 16) + b.toNat % 16 = b.toNat := Nat.div_add_mod _ _
  rw [hexPair]
  simp only [List.cons_append, List.nil_append]
  rw [unescape, digitValue_digitChar _ (by omega), digitValue_digitChar _ (by omega), hsum,
    UInt8.ofNat_toNat]

/-- **A byte is read from the start of an escaped path.** -/
theorem unescape_escapeByte (b : UInt8) (rest : List Char) :
    unescape (escapeByte b ++ rest) = b :: unescape rest := by
  rw [escapeByte]
  split
  · next hslash => rw [hslash]; rfl
  split
  · next hplain =>
    obtain ⟨hsign, hbyte⟩ := of_isPlain hplain
    have hdash : Char.ofNat b.toNat ≠ '-' := fun h => hsign (by rw [h]; decide)
    rw [List.singleton_append, unescape, if_neg hdash, hbyte]
    exact fun _ _ _ h _ => hsign (by rw [h]; decide)
  · exact unescape_hexPair b rest

theorem unescape_escapeFirst (b : UInt8) (rest : List Char) :
    unescape (escapeFirst b ++ rest) = b :: unescape rest := by
  rw [escapeFirst]
  split
  · next hdot => rw [hdot]; exact unescape_hexPair 0x2e rest
  · exact unescape_escapeByte b rest

theorem unescape_flatMap (bytes : Bytes) : unescape (bytes.flatMap escapeByte) = bytes := by
  induction bytes with
  | nil => rfl
  | cons b rest ih => rw [List.flatMap_cons, unescape_escapeByte, ih]

/-- **An escaped path is read back**, but for the dash that stands for the root. -/
theorem unescape_escapePath (path : String) :
    unescape (escapePath path).toList = if pathBytes path = [] then [0x2f] else pathBytes path := by
  rw [escapePath]
  cases pathBytes path with
  | nil => rfl
  | cons b rest =>
    rw [if_neg (List.cons_ne_nil _ _), String.toList_ofList, unescape_escapeFirst,
      unescape_flatMap]

/-- **Paths are escaped to one text exactly if they have the same steps.** -/
theorem escapePath_inj {p q : String} :
    escapePath p = escapePath q ↔ Files.steps p = Files.steps q := by
  refine ⟨fun h => pathBytes_inj.mp ?_, fun h => ?_⟩
  · have hread := congrArg (unescape ∘ String.toList) h
    rw [Function.comp, Function.comp, unescape_escapePath, unescape_escapePath] at hread
    split at hread <;> split at hread
    · next hp hq => rw [hp, hq]
    · exact absurd hread.symm (pathBytes_ne_slash q)
    · exact absurd hread (pathBytes_ne_slash p)
    · exact hread
  · rw [escapePath, escapePath, pathBytes_inj.mpr h]

/-! ## What an escaped path is made of -/

theorem not_mem_escapeByte (b : UInt8) : '/' ∉ escapeByte b ∧ escapeByte b ≠ [] := by
  have hdigit : ∀ n < 16, Nat.digitChar n ≠ '/' := by decide
  have hb := b.toNat_lt
  rw [escapeByte]
  split
  · decide
  split
  · next hplain =>
    refine ⟨fun h => (of_isPlain hplain).1 ?_, List.cons_ne_nil _ _⟩
    rw [← List.mem_singleton.mp h]
    decide
  · refine ⟨fun h => ?_, List.cons_ne_nil _ _⟩
    simp only [hexPair, List.mem_cons, List.not_mem_nil, or_false] at h
    rcases h with h | h | h | h
    · cases h
    · cases h
    · exact hdigit _ (by omega) h.symm
    · exact hdigit _ (by omega) h.symm

theorem not_mem_escapeFirst (b : UInt8) : '/' ∉ escapeFirst b ∧ escapeFirst b ≠ [] := by
  rw [escapeFirst]
  split
  · decide
  · exact not_mem_escapeByte b

/-- No slash is left in an escaped path. -/
theorem not_mem_escapePath (path : String) : '/' ∉ (escapePath path).toList := by
  rw [escapePath]
  cases pathBytes path with
  | nil => decide
  | cons b rest =>
    rw [String.toList_ofList, List.mem_append, List.mem_flatMap]
    rintro (h | ⟨c, -, h⟩)
    · exact (not_mem_escapeFirst b).1 h
    · exact (not_mem_escapeByte c).1 h

/-- Every path, also that of the root, is escaped to something. -/
theorem escapePath_ne_nil (path : String) : (escapePath path).toList ≠ [] := by
  rw [escapePath]
  cases pathBytes path with
  | nil => decide
  | cons b rest =>
    rw [String.toList_ofList]
    exact List.append_ne_nil_of_left_ne_nil (not_mem_escapeFirst b).2 _

theorem head?_escapeFirst_ne (b : UInt8) (rest : List Char) :
    (escapeFirst b ++ rest).head? ≠ some '.' := by
  intro h
  have hread := congrArg List.head? (unescape_escapeFirst b rest)
  obtain ⟨tail, htail⟩ := List.head?_eq_some_iff.mp h
  -- a dot would be read as the byte of a dot, and that one is escaped to a text with a backslash
  rw [htail, unescape] at hread
  · have hdot : b = 0x2e := by simpa [eq_comm] using hread
    rw [hdot] at h
    exact absurd h (by simp [escapeFirst])
  · simp

/-- An escaped path does not begin with a dot. -/
theorem head?_escapePath_ne (path : String) : (escapePath path).toList.head? ≠ some '.' := by
  rw [escapePath]
  cases pathBytes path with
  | nil => decide
  | cons b rest =>
    rw [String.toList_ofList]
    exact head?_escapeFirst_ne b _

/-! ## The steps of an escaped path -/

/-- Only the root is escaped to a dash. -/
theorem escapePath_eq_dash_iff (path : String) : escapePath path = "-" ↔ Files.steps path = [] := by
  have hroot : escapePath "/" = "-" := by decide
  have hsteps : Files.steps "/" = [] := by decide
  rw [← hroot, escapePath_inj, hsteps]

/-- The steps of a path are what stands between the slashes of its bytes. -/
theorem splitOn_decode_pathBytes {path : String} (h : Files.steps path ≠ []) :
    (Text.decodeUtf8? (pathBytes path)).map (Text.splitOn '/') =
      some ((Files.steps path).map String.toList) := by
  have hnames : ∀ name ∈ (Files.steps path).map String.toList, '/' ∉ name := by
    intro name hname
    obtain ⟨step, hstep, rfl⟩ := List.mem_map.mp hname
    exact (Files.isName_of_mem_steps hstep).2
  rw [pathBytes_eq, Text.decodeUtf8?_encodeUtf8, Option.map_some, splitOn_slash,
    Files.pieces_intercalate hnames (by simpa using h)]

/-- **Paths are escaped to one text exactly if they have the same steps.** From an escaped path other
than a lone dash, which stands for the root, the steps are read back: a dash is a slash, and a
backslash stands before the two digits of a byte. An escaped path is not empty, has no slash in it
and does not begin with a dot. -/
theorem escapePath_exact (p q : String) :
    (escapePath p = escapePath q ↔ Files.steps p = Files.steps q) ∧
      (escapePath p ≠ "-" →
        (Text.decodeUtf8? (unescape (escapePath p).toList)).map (Text.splitOn '/') =
          some ((Files.steps p).map String.toList)) ∧
      (escapePath p = "-" ↔ Files.steps p = []) ∧
      (escapePath p).toList ≠ [] ∧ '/' ∉ (escapePath p).toList ∧
      (escapePath p).toList.head? ≠ some '.' := by
  refine ⟨escapePath_inj, fun hdash => ?_, escapePath_eq_dash_iff p, escapePath_ne_nil p,
    not_mem_escapePath p, head?_escapePath_ne p⟩
  have hsteps : Files.steps p ≠ [] := fun h => hdash ((escapePath_eq_dash_iff p).mpr h)
  have hbytes : pathBytes p ≠ [] := fun h => hsteps (by
    rw [pathBytes_inj.mp (h.trans (show [] = pathBytes "/" by decide))]
    decide)
  rw [unescape_escapePath, if_neg hbytes]
  exact splitOn_decode_pathBytes hsteps

/-- A path whose first step begins with a dot, with a dash, a backslash and an escaped text in it and
slashes in a row, is told from the one that it would be if escaping left backslashes alone. -/
theorem escapePath_hidden :
    escapePath "/.a-b//\\x2d/" ≠ "-" ∧
      (Text.decodeUtf8? (unescape (escapePath "/.a-b//\\x2d/").toList)).map (Text.splitOn '/') =
        some [".a-b".toList, "\\x2d".toList] ∧
      escapePath "/.a-b//\\x2d/" ≠ escapePath "/.a-b/-" :=
  have hdash : escapePath "/.a-b//\\x2d/" ≠ "-" := by decide
  have hread := (escapePath_exact "/.a-b//\\x2d/" "/.a-b/-").2.1 hdash
  ⟨hdash, hread.trans (by decide), fun h =>
    absurd ((escapePath_exact "/.a-b//\\x2d/" "/.a-b/-").1.mp h) (by decide)⟩

end Provision.MountUnit
