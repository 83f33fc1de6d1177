import Provision.Provenance

/-!
# Approved ciphers

Where only approved ciphers are allowed, each encrypted volume has to choose one. Volumes that
choose a cipher themselves are left as they are.

* `choose`: chooses a cipher for the volumes of a document.
-/

set_option autoImplicit false

namespace Provision.Fips

/-- The cipher that is chosen. -/
def cipher : String := "aes-cbc-essiv:sha256"

/-- Whether an option chooses a cipher. -/
def isChoice (option : Json) : Bool :=
  match option with
  | .str s => s = "--cipher" || s = "-c" || s.startsWith "--cipher="
  | _ => false

/-- The options that choose the cipher. -/
def choice : List Json := [.str "--cipher", .str cipher]

/-- The options of a volume if it has none, or a list of them. -/
def optionsOf (volume : List (String × Json)) : Option (List Json) :=
  ((Json.lookup "options" volume).getD (.arr [])).items?

/-- Chooses the cipher for a volume whose options are at a place. -/
def chooseFor (origin options : Trail) (volume : Json) (p : Provenance) : Json × Provenance :=
  match volume with
  | .obj members => match optionsOf members with
    | none => (volume, p)
    | some given =>
      let volume := Json.obj (Json.insert "options"
        (.arr (if given.any isChoice then given else given ++ choice)) members)
      if given.any isChoice then (volume, p)
      else
        let p := if given.isEmpty then p.add origin options else p
        let n := given.length
        (volume, (p.add origin (options.index n)).add origin (options.index (n + 1)))
  | _ => (volume, p)

/-- Chooses the cipher for volumes from a position on. -/
def chooseForAll (origin list : Trail) :
    (position : Nat) → List Json → Provenance → List Json × Provenance
  | _, [], p => ([], p)
  | position, volume :: rest, p =>
    let (volume, p) := chooseFor origin ((list.index position).key "options") volume p
    let (volumes, p) := chooseForAll origin list (position + 1) rest p
    (volume :: volumes, p)

/-- Chooses the cipher for the volumes of a document. Its parts have origins below `start`, and what
is added comes from `origin`. -/
def choose (origin start : Trail) (document : Json) (p : Provenance) : Json × Provenance :=
  match ((document.get? "storage").bind (·.get? "luks")).bind Json.items? with
  | none => (document, p)
  | some volumes =>
    let (volumes, p) := chooseForAll origin (start.dotted "storage.luks") 0 volumes p
    (document.modify "storage" (Json.modify "luks" fun _ => .arr volumes), p)

end Provision.Fips
