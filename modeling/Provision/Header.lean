import Provision.Problem
import Provision.Yaml.Datum

/-!
# The header of a config

What kind of config a document is, and for which version. Nothing else of it can be read before
that is known.

* `Header.ofBytes?`: the header of a document, or the problem and where it is.
-/

set_option autoImplicit false

namespace Provision

open Yaml (Datum)
open Text (Bytes)

/-- The kind of a config and its version. -/
structure Header where
  variant : String
  version : Version
  deriving DecidableEq, Repr, Inhabited

namespace Header

/-- The header of a document that is read. The version has to be a text. -/
def ofDatum? (document : Datum) : Except (Problem × Trail) Header :=
  match ((document.get? "variant").bind Datum.text?).filter (!·.isEmpty) with
  | none => .error (.noVariant, [.key "variant"])
  | some variant =>
    match ((document.get? "version").bind Datum.text?).bind Version.ofText? with
    | none => .error (.invalidVersion, [.key "version"])
    | some version => .ok ⟨variant, version⟩

/-- The header of a document. -/
def ofBytes? (bytes : Bytes) : Except (Problem × Trail) Header :=
  match Datum.ofBytes? bytes with
  | none => .error (.malformed, [])
  | some document => ofDatum? document

end Header

end Provision
