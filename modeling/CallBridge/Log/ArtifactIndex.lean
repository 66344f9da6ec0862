import CallBridge.Host.Files
import CallBridge.Json.Decoder
import CallBridge.Sha256

/-!
# Artifact indices

An index names the files a run produced, each with the digest of its content, so that a file that
was changed since can be told.
-/

namespace CallBridge.Log

/-- A file of a run. The size is known of a file whose content was looked at. -/
structure Artifact where
  path : String
  kind : String
  digest : String
  size : Option Nat := none
  deriving DecidableEq, Repr, Inhabited

namespace Artifact

/-- The artifact of a file's content. -/
def ofContent (path kind : String) (c : Content) : Artifact :=
  { path, kind, digest := Sha256.hex c, size := some c.length }

/-- Whether a content has the artifact's digest. -/
def isIntact (a : Artifact) (c : Content) : Bool := Sha256.hex c = a.digest

def toJson (a : Artifact) : Json :=
  .object ([("path", .str a.path), ("kind", .str a.kind), ("sha256", .str a.digest)] ++
    Json.optional "size_bytes" .nat a.size)

def record : Record Artifact :=
  .optional (.required (.required (.required (.of Artifact.mk)
    "path" .string) "kind" .string) "sha256" .string) "size_bytes" .word

def decode : Decoder Artifact := record.decode "ArtifactEntry"

end Artifact

/-- The files of a run. -/
structure ArtifactIndex where
  version : Nat := 1
  runId : String
  generated : String
  artifacts : List Artifact := []
  deriving DecidableEq, Repr, Inhabited

namespace ArtifactIndex

def add (x : ArtifactIndex) (a : Artifact) : ArtifactIndex :=
  { x with artifacts := x.artifacts ++ [a] }

/-- The paths of those files that are not intact, unless one of the files cannot be read. -/
def stale (x : ArtifactIndex) (read : String → Except FileError Content) :
    Except FileError (List String) := do
  let judged ← x.artifacts.mapM fun a => return (a, a.isIntact (← read a.path))
  return (judged.filter (!·.2)).map (·.1.path)

def toJson (x : ArtifactIndex) : Json :=
  .object [("index_version", .nat x.version), ("run_id", .str x.runId),
    ("generated_utc", .str x.generated), ("artifacts", .array (x.artifacts.map (·.toJson)))]

def jsonText (x : ArtifactIndex) : String := x.toJson.pretty

def record : Record ArtifactIndex :=
  .required (.required (.required (.required (.of ArtifactIndex.mk)
    "index_version" (.unsigned "u32" 32)) "run_id" .string) "generated_utc" .string)
    "artifacts" (.list Artifact.decode)

def decode : Decoder ArtifactIndex := record.decode "ArtifactIndex"

end ArtifactIndex
end CallBridge.Log
