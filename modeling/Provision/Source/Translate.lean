import Provision.Contents
import Provision.Merge
import Provision.MountUnit
import Provision.Text.Blank
import Provision.Text.Lines
import Provision.Translator
import Provision.Trees

/-!
# From what people write to what machines read

The shared sections are translated key by key. Contents are embedded on the way, and local files
with units and keys are read. Then trees are written into the result, and units for filesystems are
laid below it.

* `translate`: the document for the sections of a config. It does not have a version yet.
-/

set_option autoImplicit false

namespace Provision.Source

open Provision.Text (Bytes)

/-- The places of contents that are embedded. -/
def resourceFields : List String :=
  [ "ignition.config.merge.*", "ignition.config.replace",
    "ignition.security.tls.certificate_authorities.*", "storage.files.*.contents",
    "storage.files.*.append.*", "storage.luks.*.key_file" ]

/-- The fields that machines do not know. -/
def sourceOnlyFields : List String :=
  [ "storage.trees", "storage.filesystems.*.with_mount_unit", "systemd.units.*.contents_local",
    "systemd.units.*.dropins.*.contents_local", "passwd.users.*.ssh_authorized_keys_local" ]

/-- What is made of a unit or a drop-in whose contents may be in a local file. -/
def unitRule (w : Workspace) : Translator.Rule := fun walked value origin place =>
  match (value.get? "contents_local").bind Json.text? with
  | none => walked
  | some path =>
    let field := origin.key "contents_local"
    match w.readLocal path >>= w.render path with
    | .error problem => { walked with report := walked.report ++ .sourceError field problem }
    | .ok data =>
      let contents := Json.str (String.ofList (Text.decodeUtf8 data))
      match walked.value.getD (.obj []) with
      | .obj members =>
        ⟨some (.obj (Json.insert "contents" contents members)),
          (walked.provenance.add field (place.key "contents")).add origin place, walked.report⟩
      | _ => walked

/-- The keys in a file, one on each line that is not blank. -/
def keyLines (data : Bytes) : List String :=
  (((Text.lines (Text.decodeUtf8 data)).map Text.trim).filter (!·.isEmpty)).map String.ofList

/-- The keys of a user on the way, with their origins and what was found. -/
abbrev Keys := Translated (List Json)

/-- Appends the keys in a local file to the keys at a place. -/
def addKeys (w : Workspace) (place : Trail) (hadKeys : Bool) (keys : Keys)
    (entry : Json × Trail) : Keys :=
  match entry.1 with
  | .str path => match w.readLocal path with
    | .error problem => { keys with report := keys.report ++ .sourceError entry.2 problem }
    | .ok data =>
      let lines := keyLines data
      let n := keys.value.length
      let p := lines.zipIdx.foldl
        (fun (p : Provenance) (_, i) => p.add entry.2 (place.index (n + i)))
        keys.provenance
      ⟨keys.value ++ lines.map .str, if hadKeys then p else p.add entry.2 place, keys.report⟩
  | _ => keys

/-- What is made of a user whose keys may be in local files. -/
def userRule (w : Workspace) : Translator.Rule := fun walked value origin place =>
  let field := origin.key "ssh_authorized_keys_local"
  match ((value.get? "ssh_authorized_keys_local").bind Json.items?).getD [] with
  | [] => walked
  | files =>
    let given := ((walked.value.bind (·.get? "sshAuthorizedKeys")).bind Json.items?).getD []
    let keys := (files.zipIdx.map fun (x, i) => (x, field.index i)).foldl
      (addKeys w (place.key "sshAuthorizedKeys") (!given.isEmpty))
      ⟨given, walked.provenance, walked.report⟩
    if keys.value.isEmpty then ⟨walked.value, keys.provenance, keys.report⟩
    else match walked.value.getD (.obj []) with
      | .obj members =>
        ⟨some (.obj (Json.insert "sshAuthorizedKeys" (.arr keys.value) members)),
          keys.provenance.add origin place, keys.report⟩
      | x => ⟨some x, keys.provenance, keys.report⟩

/-- How the shared sections are translated. -/
def translator (w : Workspace) : Translator where
  skips := sourceOnlyFields.map Pattern.ofText
  names := [("size_mib", "sizeMiB"), ("start_mib", "startMiB")]
  rules :=
    resourceFields.map (fun field =>
      (Pattern.ofText field,
        fun _ value origin place => Contents.translate w value origin place)) ++
    [ (.ofText "systemd.units.*", unitRule w),
      (.ofText "systemd.units.*.dropins.*", unitRule w),
      (.ofText "passwd.users.*", userRule w) ]

/-- The document for the shared sections of a config. -/
def translate (w : Workspace) (c : Config) : Draft :=
  let walked := (translator w).translate (Config.codec.write c)
  let expanded := Trees.expand w c.storage.trees [] (walked.map (·.getD (.obj [])))
  let units := MountUnit.units c.storage.filesystems []
  if (units.value.get? "systemd").isSome then Merge.merge units expanded else expanded

end Provision.Source
