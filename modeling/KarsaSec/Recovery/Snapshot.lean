import KarsaSec.Found.JsonText
import KarsaSec.Recovery.Replay

/-!
# Snapshots and checkpoints

`SnapshotManager`: the tasks of the table as a document with its hashes, and the table of such a document.

* A snapshot keeps the fields of a task that `create_snapshot` lists; the others come back as those of a new
  row.
* The document is kept as it is read back from its text.
* What is added to the table is checked against its unique columns when it is flushed.

`RecoveryCheckpoint`: a checkpoint keeps a snapshot under the lease token of a recovery; the restoration loads
it and replays the audit rows after it. A restoration that raises is rolled back by its caller.
-/

namespace KarsaSec.Recovery

open KarsaSec.Found KarsaSec.Workers KarsaSec.Events KarsaSec.Persistence

/-- Source: `snapshot.py`, `CURRENT_SCHEMA_VERSION`. Kind: D -/
def currentSchemaVersion : ℕ := 1

/-- A task of a snapshot. Source: `snapshot.py`, `tasks_data`. Kind: D -/
structure SnapshotTask where
  taskId : String
  findingId : String
  approvalTokenId : String
  fingerprint : String
  state : String
  attempts : ℤ
  maxAttempts : ℤ
  assignedWorkerId : Option String
  assignedWorkerFencingToken : Option ℤ
  recoveryFencingToken : Option ℤ
  leaseSeconds : ℤ
  leaseVersion : ℤ
  errorMessage : Option String
  deriving DecidableEq

/-- Source: `snapshot.py`, `create_snapshot`. Kind: D -/
structure Snapshot where
  snapshotGeneration : ℕ
  schemaVersion : ℕ
  rootHash : String
  snapshotHash : String
  auditHeadHash : String
  outboxHeadHash : String
  auditChainHead : String
  tasks : List SnapshotTask
  deriving DecidableEq

/-- Source: `snapshot.py`, `tasks_data`. Kind: D -/
def SnapshotTask.ofRow (taskId : String) (row : TaskRow) : SnapshotTask :=
  { taskId := taskId
    findingId := row.findingId
    approvalTokenId := row.approvalTokenId
    fingerprint := row.fingerprint
    state := row.state
    attempts := row.attempts
    maxAttempts := row.maxAttempts
    assignedWorkerId := row.assignedWorkerId
    assignedWorkerFencingToken := row.assignedWorkerFencingToken
    recoveryFencingToken := row.recoveryFencingToken
    leaseSeconds := row.leaseSeconds
    leaseVersion := row.leaseVersion
    errorMessage := row.errorMessage }

/-- The row that a snapshot's task is loaded into. Source: `snapshot.py`, `load_snapshot`. Kind: D -/
def SnapshotTask.toRow (t : SnapshotTask) : TaskRow :=
  { findingId := t.findingId
    approvalTokenId := t.approvalTokenId
    fingerprint := t.fingerprint
    state := t.state
    attempts := t.attempts
    maxAttempts := t.maxAttempts
    assignedWorkerId := t.assignedWorkerId
    assignedWorkerFencingToken := t.assignedWorkerFencingToken
    recoveryFencingToken := t.recoveryFencingToken
    leaseSeconds := t.leaseSeconds
    leaseVersion := t.leaseVersion
    errorMessage := t.errorMessage }

/-! ## Canonical text -/

/-- The floats of documents that have none. Kind: D -/
def noFloats : Floats Unit where
  numeral _ := none
  ofNumeral _ := ()
  name _ := ['N', 'a', 'N']
  nan := ()
  infinity := ()
  negInfinity := ()
  wellFormed _ _ h := nomatch h
  ofNumeral_numeral _ _ h := nomatch h

/-- Four hexadecimal digits. Source: `json/encoder.py`, `'\u{0:04x}'`. Kind: D -/
def hexFour (n : ℕ) : List Char :=
  [4096, 256, 16, 1].map fun place => hexDigit (n / place % 16)

/-- A character in a text of ASCII only; one beyond the basic plane is a pair of surrogates.
Source: `json/encoder.py`, `py_encode_basestring_ascii`
Kind: D -/
def asciiOnly (c : Char) : List Char :=
  if ' ' ≤ c ∧ c ≤ '~' then [c]
  else if c.toNat < 0x10000 then '\\' :: 'u' :: hexFour c.toNat
  else
    let n := c.toNat - 0x10000
    ('\\' :: 'u' :: hexFour (0xd800 + n / 1024)) ++ '\\' :: 'u' :: hexFour (0xdc00 + n % 1024)

/-- Source: `snapshot.py`, `canonical_json`. Kind: D -/
def canonicalJson (data : Json Unit) : String :=
  String.ofList ((Json.dumps noFloats data.sortKeys).flatMap asciiOnly)

/-- A value that may be absent. Kind: D -/
def orNull {α : Type} (wrap : α → Json Unit) (v : Option α) : Json Unit := (v.map wrap).getD .null

/-- Source: `snapshot.py`, `tasks_data`. Kind: D -/
def SnapshotTask.toJson (t : SnapshotTask) : Json Unit :=
  .obj
    [("task_id", .str t.taskId),
      ("finding_id", .str t.findingId),
      ("approval_token_id", .str t.approvalTokenId),
      ("fingerprint", .str t.fingerprint),
      ("state", .str t.state),
      ("attempts", .int t.attempts),
      ("max_attempts", .int t.maxAttempts),
      ("assigned_worker_id", orNull .str t.assignedWorkerId),
      ("assigned_worker_fencing_token", orNull .int t.assignedWorkerFencingToken),
      ("recovery_fencing_token", orNull .int t.recoveryFencingToken),
      ("lease_seconds", .int t.leaseSeconds),
      ("lease_version", .int t.leaseVersion),
      ("error_message", orNull .str t.errorMessage)]

/-! ## Taking and loading snapshots -/

namespace SnapshotManager

/-- The text whose hash stands for the tasks. Source: `snapshot.py`, `tasks_json`. Kind: D -/
def tasksJson (tasks : List SnapshotTask) : String := canonicalJson (.arr (tasks.map SnapshotTask.toJson))

/-- The latest audit row by place. Source: `snapshot.py`, `last_audit`. Kind: D -/
def lastAudit (audit : List AuditRow) : Option AuditRow := (AuditReplayEngine.chronological audit).getLast?

/-- The tasks of a snapshot, by identifier. Source: `snapshot.py`, `tasks`. Kind: D -/
def tasksData (tasks : Dict String TaskRow) : List SnapshotTask :=
  (tasks.entries.insertionSort fun a b => a.1 ≤ b.1).map fun entry => SnapshotTask.ofRow entry.1 entry.2

variable (sha256 : String → String)

/-- The hash of the latest event is given.
Source: `snapshot.py`, `create_snapshot`
Kind: D -/
def createSnapshot (db : Database) (outboxHeadHash : String) (generation : ℕ) : Snapshot :=
  let tasks := tasksData db.tasks
  let snapshotHash := sha256 (tasksJson tasks)
  let auditHeadHash := ((lastAudit db.audit).map AuditRow.eventHash).getD "GENESIS"
  { snapshotGeneration := generation
    schemaVersion := currentSchemaVersion
    rootHash := sha256 s!"{snapshotHash}:{auditHeadHash}:{outboxHeadHash}"
    snapshotHash := snapshotHash
    auditHeadHash := auditHeadHash
    outboxHeadHash := outboxHeadHash
    auditChainHead := auditHeadHash
    tasks := tasks }

/-- Source: `snapshot.py`, `verify_snapshot`. Kind: D -/
def verifySnapshot (snapshot : Snapshot) : Except RecoveryError Unit :=
  if sha256 (tasksJson snapshot.tasks) ≠ snapshot.snapshotHash then
    .error (.snapshotIntegrity "Snapshot tasks data payload hash mismatch.")
  else if sha256 s!"{snapshot.snapshotHash}:{snapshot.auditHeadHash}:{snapshot.outboxHeadHash}" ≠
      snapshot.rootHash then
    .error (.snapshotIntegrity "Merkle-lite composite root hash verification failed.")
  else .ok ()

/-- The table of a snapshot that is not behind the given generations.
Source: `snapshot.py`, `load_snapshot`
Kind: D -/
def loadSnapshot (generations : List ℕ) (snapshot : Snapshot) : Except RecoveryError (Dict String TaskRow) :=
  match verifySnapshot sha256 snapshot with
  | .error e => .error e
  | .ok _ =>
    if snapshot.schemaVersion ≠ currentSchemaVersion then
      .error (.schemaMismatch snapshot.schemaVersion currentSchemaVersion)
    else
      let latest := generations.foldl max 0
      if snapshot.snapshotGeneration < latest then
        .error (.snapshotFencing snapshot.snapshotGeneration latest)
      else if (snapshot.tasks.map SnapshotTask.taskId).Nodup then
        .ok (Dict.ofList (snapshot.tasks.map fun t => (t.taskId, t.toRow)))
      else .error (.integrity "tasks.task_id")

end SnapshotManager

/-! ## Checkpoints -/

/-- Source: `models.py`, `RecoveryCheckpointModel`. Kind: D -/
structure CheckpointRow where
  recoveryId : Option String
  recoveryLeaseToken : Option String
  snapshot : Snapshot
  deriving DecidableEq

/-- The tables of the repository and the checkpoints. Kind: D -/
structure RecoveryStore where
  db : Database := {}
  checkpoints : Dict String CheckpointRow := Dict.empty

namespace RecoveryCheckpoint

variable (sha256 : String → String)

/-- A checkpoint of the same name is overwritten. Source: `checkpoint.py`, `save_checkpoint`. Kind: D -/
def saveCheckpoint (store : RecoveryStore) (outboxHeadHash checkpointId : String) (generation : ℕ)
    (recoveryId recoveryLeaseToken : String) : RecoveryStore :=
  { store with
    checkpoints := store.checkpoints.set checkpointId
      { recoveryId := some recoveryId
        recoveryLeaseToken := some recoveryLeaseToken
        snapshot := SnapshotManager.createSnapshot sha256 store.db outboxHeadHash generation } }

/-- The checkpoint with the lease of a recovery; it must have no token, or the one of the recovery.
Source: `checkpoint.py`, `restore_checkpoint`, "Checkpoint lookup & Fencing validation"
Kind: D -/
def acquire (store : RecoveryStore) (checkpointId recoveryId recoveryLeaseToken : String) :
    Except RecoveryError CheckpointRow :=
  match store.checkpoints.get? checkpointId with
  | none => .error (.checkpointNotFound checkpointId)
  | some checkpoint =>
    let owner := checkpoint.recoveryLeaseToken.getD ""
    if owner ≠ "" ∧ owner ≠ recoveryLeaseToken then
      .error (.recoveryFencing recoveryId recoveryLeaseToken owner)
    else if checkpoint.recoveryLeaseToken = some recoveryLeaseToken ∨ checkpoint.recoveryLeaseToken = none then
      .ok { checkpoint with recoveryId := some recoveryId, recoveryLeaseToken := some recoveryLeaseToken }
    else .error .leaseAcquisition

/-- The tables after a restoration, and how many rows were replayed and how many events rebuilt.
Source: `checkpoint.py`, `restore_checkpoint`
Kind: D -/
def restoreCheckpoint (autoflush : Bool) (store : RecoveryStore)
    (checkpointId recoveryId recoveryLeaseToken : String) (pitrSequence : Option ℤ) :
    Except RecoveryError (RecoveryStore × ℕ × ℕ) := do
  let checkpoint ← acquire store checkpointId recoveryId recoveryLeaseToken
  SnapshotManager.verifySnapshot sha256 checkpoint.snapshot
  AuditReplayEngine.verifyAuditChain sha256 store.db.audit
  let loaded ← SnapshotManager.loadSnapshot sha256
    (store.checkpoints.values.map fun row => row.snapshot.snapshotGeneration) checkpoint.snapshot
  let (tasks, replayed) ← AuditReplayEngine.replayEvents sha256 autoflush store.db.audit loaded
    checkpoint.snapshot.auditChainHead pitrSequence
  let (outbox, rebuilt) ← AuditReplayEngine.rebuildOutboxFromAudit autoflush store.db.audit store.db.outbox
  return ({ db := { store.db with tasks := tasks, outbox := outbox }
            checkpoints := store.checkpoints.set checkpointId checkpoint }, replayed, rebuilt)

end RecoveryCheckpoint

end KarsaSec.Recovery
