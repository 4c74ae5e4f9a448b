import KarsaSec.Remediation.Approval
import KarsaSec.Found.Dict

/-!
# Files and source snapshots

* `FileSystem` is what the remediation code sees of the disk: where a relative path resolves to
  (symbolic links followed) and which bytes the regular file at a resolved path holds.
* `FileSystem.writeBytes` is one `Path.write_bytes`; a `WriteOutcome` says whether it succeeds or
  raises, and what it leaves behind when it raises.
* `SourceSnapshot.capture` hashes the target files; a path that leaves the repository is the
  `ValueError` of the source.
-/

namespace KarsaSec.Remediation

open KarsaSec.Found

/-- The disk as seen from a repository root. `resolve rel` is `(repository_root / rel).resolve()`;
`content p` is the content of the regular file at the resolved path `p`, if there is one.
Kind: D -/
structure FileSystem where
  resolve : String → String
  content : String → Option ByteArray

/-- How one `write_bytes` call ends: it writes, or it raises and leaves `left` at the path.
Kind: D -/
inductive WriteOutcome
  | written
  | raises (left : Option ByteArray) (message : String)

/-- The disk with another content at one path. Kind: D -/
def FileSystem.put (fs : FileSystem) (path : String) (content : Option ByteArray) : FileSystem :=
  { fs with content := Function.update fs.content path content }

@[simp] theorem FileSystem.put_resolve (fs : FileSystem) (p : String) (c : Option ByteArray) :
    (fs.put p c).resolve = fs.resolve := rfl

@[simp] theorem FileSystem.put_content_self (fs : FileSystem) (p : String)
    (c : Option ByteArray) : (fs.put p c).content p = c := by
  simp [put]

theorem FileSystem.put_content_ne (fs : FileSystem) {p q : String} (c : Option ByteArray)
    (h : q ≠ p) : (fs.put p c).content q = fs.content q := by
  simp [put, Function.update_of_ne h]

/-- `Path.write_bytes`, with the error it raises, if any. Kind: D -/
def FileSystem.writeBytes (fs : FileSystem) (outcome : WriteOutcome) (path : String)
    (bytes : ByteArray) : Option String × FileSystem :=
  match outcome with
  | .written => (none, fs.put path (some bytes))
  | .raises left message => (some message, fs.put path left)

@[simp] theorem FileSystem.writeBytes_resolve (fs : FileSystem) (o : WriteOutcome) (p : String)
    (b : ByteArray) : (fs.writeBytes o p b).2.resolve = fs.resolve := by
  cases o <;> rfl

/-- The frame of one write. Kind: L -/
theorem FileSystem.writeBytes_content_ne (fs : FileSystem) (o : WriteOutcome) {p q : String}
    (b : ByteArray) (h : q ≠ p) : (fs.writeBytes o p b).2.content q = fs.content q := by
  cases o <;> simp [writeBytes, fs.put_content_ne _ h]

theorem FileSystem.writeBytes_content_self {fs : FileSystem} {o : WriteOutcome} {p : String}
    {b : ByteArray} (h : (fs.writeBytes o p b).1 = none) :
    (fs.writeBytes o p b).2.content p = some b := by
  cases o <;> simp_all [writeBytes]

/-- `path.is_relative_to(root)` on resolved paths. Kind: D -/
def isRelativeTo (root path : String) : Bool :=
  path = root || startsWith (rstripChar '/' root ++ "/") path

/-- State of one target file in a snapshot.
Source: `snapshot.py`, `FileSnapshot`
Kind: D -/
structure FileSnapshot where
  relativePath : String
  fileSize : ℕ
  sha256 : String
  fileExists : Bool
  deriving DecidableEq

/-- A snapshot of the target files.
Source: `snapshot.py`, `SourceSnapshot`
Kind: D -/
structure SourceSnapshot where
  repositoryRoot : String
  fileSnapshots : List FileSnapshot
  aggregateHash : String
  createdAt : String
  deriving DecidableEq

/-- `str(b)` of a boolean. Kind: D -/
def boolStr (b : Bool) : String := if b then "True" else "False"

/-- One record of the aggregate hash. Source: `snapshot.py`, `compute_aggregate_hash`. Kind: D -/
def FileSnapshot.record (f : FileSnapshot) : String :=
  normSlashes f.relativePath ++ ":" ++ f.sha256 ++ ":" ++ toString f.fileSize ++ ":"
    ++ boolStr f.fileExists

/-- The string that the aggregate hash hashes: the records sorted by path.
Source: `snapshot.py`, `SourceSnapshot.compute_aggregate_hash`
Kind: D -/
def aggregateRaw (snaps : List FileSnapshot) : String :=
  joinStr "|" ((snaps.insertionSort fun f g => f.relativePath ≤ g.relativePath).map
    FileSnapshot.record)

namespace SourceSnapshot

/-- The canonical aggregate hash. Source: `snapshot.py`, `compute_aggregate_hash`. Kind: D -/
def computeAggregateHash (host : Host) (snaps : List FileSnapshot) : String :=
  host.sha256Text (aggregateRaw snaps)

/-- The snapshot of one target file. The path is resolved, so it is no symbolic link and the
second guard of the source cannot fire.
Source: `snapshot.py`, `SourceSnapshot.capture`, loop body
Kind: D -/
def captureFile (host : Host) (root : String) (fs : FileSystem) (targetRel : String) :
    Except String FileSnapshot :=
  let normRel := normSlashes targetRel
  let targetPath := fs.resolve normRel
  if isRelativeTo root targetPath then
    match fs.content targetPath with
    | some content => .ok ⟨normRel, content.size, host.sha256 content, true⟩
    | none => .ok ⟨normRel, 0, "MISSING", false⟩
  else
    .error ("Path traversal detected: '" ++ targetRel ++ "' resolves outside '" ++ root ++ "'.")

/-- The snapshot of the target files, or the `ValueError` of a path that leaves the repository.
Source: `snapshot.py`, `SourceSnapshot.capture`
Kind: D -/
def capture (host : Host) (root : String) (fs : FileSystem) (targetFiles : List String)
    (createdAt : String) : Except String SourceSnapshot := do
  let snaps ← targetFiles.mapM (captureFile host root fs)
  return ⟨root, snaps, computeAggregateHash host snaps, createdAt⟩

end SourceSnapshot

end KarsaSec.Remediation
