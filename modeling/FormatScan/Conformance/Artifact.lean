import FormatScan.Conformance.Report

/-!
# The index of written files

A run that writes files ends by listing them with their digests and sizes.
-/

namespace FormatScan

/-- A file in the index. -/
structure Artifact where
  /-- The path of the file. -/
  path : String
  /-- What the file is. -/
  kind : String
  /-- The digest of its contents. -/
  digest : String
  /-- The size of its contents. -/
  size : Nat
deriving DecidableEq, Repr

/-- The list of the files of a run. -/
structure ArtifactIndex where
  /-- The run. -/
  runId : String
  /-- The time at which the list was made. -/
  generated : String
  /-- The files. -/
  artifacts : List Artifact := []
deriving DecidableEq, Repr

namespace Artifact

/-- The file with some contents. -/
def ofBytes (path kind : String) (contents : Bytes) : Artifact :=
  ⟨path, kind, Sha256.hexDigest contents, contents.length⟩

/-- The JSON form. -/
def toJson (artifact : Artifact) : Json :=
  .object [("path", .string artifact.path), ("kind", .string artifact.kind),
    ("sha256", .string artifact.digest), ("size_bytes", .ofNat artifact.size)]

end Artifact

namespace ArtifactIndex

/-- The version of the form. -/
def version : Nat := 1

/-- List one more file. -/
def add (index : ArtifactIndex) (path kind : String) (contents : Bytes) : ArtifactIndex :=
  { index with artifacts := index.artifacts ++ [.ofBytes path kind contents] }

/-- List one more file as it stands on a disk. -/
def addFile {m : Type → Type} [Monad m] (index : ArtifactIndex) (disk : Disk m)
    (path kind : String) : m (Except FileError ArtifactIndex) := do
  match ← disk.read path with
  | .ok contents => pure (.ok (index.add path kind contents))
  | .error e => pure (.error e)

/-- The JSON form. -/
def toJson (index : ArtifactIndex) : Json :=
  .object [("index_version", .ofNat version), ("run_id", .string index.runId),
    ("generated_utc", .string index.generated),
    ("artifacts", .array (index.artifacts.map Artifact.toJson))]

/-- The JSON text. -/
def text (index : ArtifactIndex) : String := index.toJson.indented

end ArtifactIndex

end FormatScan
