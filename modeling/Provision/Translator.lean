import Provision.Pattern
import Provision.Provenance
import Provision.Text.Uppercase

/-!
# Translating a document key by key

A document is rebuilt with other names for its keys. Some of its parts are left out, and rules make
something else of others. Empty parts are not written, but items of a list keep their positions.

* `camelCase`: the name of a key in the document that is made.
* `Translator.translate`: the document that is made, with an origin for each part of it.
-/

set_option autoImplicit false

namespace Provision

/-- The word after each underscore starts with a capital letter, without the underscore. -/
def camelCase (name : String) : String :=
  let rec go : (capital : Bool) → List Char → List Char
    | _, [] => []
    | capital, c :: rest =>
      if c = '_' then go true rest
      else (if capital then Text.upper c else [c]) ++ go false rest
  String.ofList (go false name.toList)

/-- What a rule makes of a part, given what would be made of it without the rule, its value, and its
trails in the document that is read and in the one that is made. -/
abbrev Translator.Rule :=
  Translated (Option Json) → Json → (origin place : Trail) → Translated (Option Json)

/-- How a document is translated. -/
structure Translator where
  /-- The members that are left out. -/
  skips : List Pattern := []
  /-- Keys whose names do not follow from the rule for names. -/
  names : List (String × String) := []
  /-- The rules for parts; the first that fits counts. -/
  rules : List (Pattern × Translator.Rule) := []

namespace Translator

/-- The name of a key in the document that is made. -/
def nameOf (t : Translator) (key : String) : String := (t.names.lookup key).getD (camelCase key)

/-- Whether a member is left out. -/
def isSkipped (t : Translator) (trail : Trail) : Bool := t.skips.any (·.fits trail)

/-- The rule for a part. -/
def rule? (t : Translator) (trail : Trail) : Option Rule :=
  (t.rules.find? (·.1.fits trail)).map (·.2)

/-- A value written at its place, if it has content. The place of the whole document needs no
origin. -/
def written (origin place : Trail) (x : Translated Json) : Translated (Option Json) :=
  if x.value.isEmpty then ⟨none, x.provenance, x.report⟩
  else
    let provenance := if place.isEmpty then x.provenance else x.provenance.add origin place
    ⟨some x.value, provenance, x.report⟩

/-- What an item becomes for which nothing is made: it cannot be left out. -/
def vacant : Json → Json
  | .obj _ => .obj []
  | x => x

mutual

/-- Translates a part by its rule if it has one. -/
def translateAt (t : Translator) (origin place : Trail) : Json → Translated (Option Json)
  | .arr items =>
    let walked := written origin place ((walkItems t origin place 0 items).map .arr)
    ((t.rule? origin).map fun rule => rule walked (.arr items) origin place).getD walked
  | .obj members =>
    let walked := written origin place ((walkMembers t origin place members ⟨[], {}, []⟩).map .obj)
    ((t.rule? origin).map fun rule => rule walked (.obj members) origin place).getD walked
  | x =>
    let walked := written origin place ⟨x, {}, []⟩
    ((t.rule? origin).map fun rule => rule walked x origin place).getD walked

/-- Translates items from a position on. -/
def walkItems (t : Translator) (origin place : Trail) :
    (position : Nat) → List Json → Translated (List Json)
  | _, [] => ⟨[], {}, []⟩
  | position, x :: rest =>
    let item := translateAt t (origin.index position) (place.index position) x
    let items := walkItems t origin place (position + 1) rest
    ⟨item.value.getD (vacant x) :: items.value, item.provenance.merge items.provenance,
      item.report ++ items.report⟩

/-- Translates members after those that are done. -/
def walkMembers (t : Translator) (origin place : Trail) :
    List (String × Json) → Translated (List (String × Json)) → Translated (List (String × Json))
  | [], done => done
  | (key, x) :: rest, done =>
    if t.isSkipped (origin.key key) then walkMembers t origin place rest done
    else
      let name := t.nameOf key
      let made := translateAt t (origin.key key) (place.key name) x
      let members := match made.value with
        | some v => if v.isEmpty then done.value else Json.insert name v done.value
        | none => done.value
      walkMembers t origin place rest
        ⟨members, done.provenance.merge made.provenance, done.report ++ made.report⟩

end

/-- Translates a part without its own rule; rules within it still apply. -/
def walk (t : Translator) (origin place : Trail) : Json → Translated (Option Json)
  | .arr items => written origin place ((walkItems t origin place 0 items).map .arr)
  | .obj members =>
    written origin place ((walkMembers t origin place members ⟨[], {}, []⟩).map .obj)
  | x => written origin place ⟨x, {}, []⟩

/-- A part is translated by its rule if it has one, which is given what the walk makes of it. -/
theorem translateAt_eq (t : Translator) (origin place : Trail) (x : Json) :
    t.translateAt origin place x =
      ((t.rule? origin).map fun rule => rule (t.walk origin place x) x origin place).getD
        (t.walk origin place x) := by
  cases x <;> simp [translateAt, walk]

/-- Translates a document. -/
def translate (t : Translator) (document : Json) : Translated (Option Json) :=
  t.translateAt [] [] document

end Translator

end Provision
