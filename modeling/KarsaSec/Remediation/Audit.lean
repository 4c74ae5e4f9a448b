import KarsaSec.Found.Json
import KarsaSec.Remediation.Approval

/-!
# Audit events

One event of the remediation history, bound by a fingerprint over its fields.

* `sanitizeMetadata` turns away keys that name a secret, and sorts the rest.
* `LifecycleAuditEvent` is an event as `__post_init__` lets it be built. The text of a field is only asked for
  where the source needs it, so a document may hold any value in the others.
* `create` computes the fingerprint; `fromDict` calls it, and does not look at the fingerprint in the document.
-/

namespace KarsaSec.Remediation

open KarsaSec.Found

/-! ## Metadata -/

/-- Source: `audit.py`, `AuditEventType`. Kind: D -/
inductive AuditEventType
  | findingDetected
  | evidenceVerified
  | rcaEstablished
  | remediationProposed
  | approvalGranted
  | snapshotCaptured
  | patchApplied
  | verificationStarted
  | verifiedFixed
  | stillVulnerable
  | rollbackStarted
  | rollbackCompleted
  | criticalRecoveryFailure
  deriving DecidableEq, Repr

namespace AuditEventType

/-- The string value of an event type. Source: `audit.py`, `AuditEventType`. Kind: D -/
def value : AuditEventType → String
  | findingDetected => "FINDING_DETECTED"
  | evidenceVerified => "EVIDENCE_VERIFIED"
  | rcaEstablished => "RCA_ESTABLISHED"
  | remediationProposed => "REMEDIATION_PROPOSED"
  | approvalGranted => "APPROVAL_GRANTED"
  | snapshotCaptured => "SNAPSHOT_CAPTURED"
  | patchApplied => "PATCH_APPLIED"
  | verificationStarted => "VERIFICATION_STARTED"
  | verifiedFixed => "VERIFIED_FIXED"
  | stillVulnerable => "STILL_VULNERABLE"
  | rollbackStarted => "ROLLBACK_STARTED"
  | rollbackCompleted => "ROLLBACK_COMPLETED"
  | criticalRecoveryFailure => "CRITICAL_RECOVERY_FAILURE"

/-- The members, in order. Kind: D -/
def all : List AuditEventType :=
  [findingDetected, evidenceVerified, rcaEstablished, remediationProposed, approvalGranted,
    snapshotCaptured, patchApplied, verificationStarted, verifiedFixed, stillVulnerable,
    rollbackStarted, rollbackCompleted, criticalRecoveryFailure]

/-- `AuditEventType(text)`. Kind: D -/
def ofText (s : String) : Except String AuditEventType :=
  match all.find? fun t => t.value = s with
  | some t => .ok t
  | none => .error ("'" ++ s ++ "' is not a valid AuditEventType")

@[simp] theorem ofText_value (t : AuditEventType) : ofText t.value = .ok t := by
  cases t <;> rfl

end AuditEventType

/-- Source: `audit.py`, `_EXEMPT_METADATA_KEYS`. Kind: D -/
def exemptMetadataKeys : List String :=
  ["token_id", "approval_token_id", "proposal_fingerprint", "verification_fingerprint",
    "source_snapshot_hash", "post_apply_snapshot_hash", "pre_apply_snapshot_hash", "token_fingerprint",
    "provenance_fingerprint", "transaction_id", "verification_id", "proposal_id", "finding_id", "rule_id",
    "cwe_id", "file_path", "target_files", "status", "reason", "approver", "approved_by",
    "repository_identity"]

/-- Source: `audit.py`, `_SENSITIVE_KEY_SUBSTRINGS`. Kind: D -/
def sensitiveKeySubstrings : List String :=
  ["password", "passwd", "secret", "access_token", "api_key", "authorization", "cookie", "credential",
    "private_key", "source_code", "raw_source", "diff", "patch_content", "original_text",
    "proposed_text"]

section metadata

variable {F : Type} (w : Wording F)

/-- A key that may not be recorded. Source: `audit.py`, `sanitize_metadata`. Kind: D -/
def isSensitiveKey (k : String) : Bool :=
  let keyLower := strip (w.lower k)
  keyLower ∉ exemptMetadataKeys && sensitiveKeySubstrings.any fun sens => inStr sens keyLower

/-- One item of a sequence of pairs. Kind: D -/
def pairOf (item : Json F) : Except String (String × String) := do
  match ← item.iterate with
  | [k, v] => .ok (w.text k, w.text v)
  | _ => .error "ValueError: expected 2 values to unpack"

/-- The metadata of a document as pairs of texts. Source: `audit.py`, `sanitize_metadata`, `raw_items`.
Kind: D -/
def rawItems : Json F → Except String (List (String × String))
  | .obj members => .ok (members.map fun m => (m.1, w.text m.2))
  | v => do (← v.iterate).mapM (pairOf w)

/-- The loop over the items. Source: `audit.py`, `sanitize_metadata`. Kind: D -/
def sanitizeItems : List (String × String) → Except String (List (String × String))
  | [] => .ok []
  | (k, v) :: rest =>
    if isSensitiveKey w k then
      .error ("Sensitive metadata key detected and rejected (L27 Privacy Violation): '" ++ k ++ "'")
    else do
      let items ← sanitizeItems rest
      .ok ((strip k, strip v) :: items)

/-- Source: `audit.py`, `sanitize_metadata`. Kind: D -/
def sanitizeMetadata (items : List (String × String)) : Except String (List (String × String)) := do
  .ok (sortPairs (← sanitizeItems w items))

end metadata

/-! ## Events -/

/-- The fields that a caller binds an event to. Source: `audit.py`, `LifecycleAuditEvent`. Kind: D -/
structure EventBinding (F : Type) where
  eventId : String
  findingId : String
  lifecycleState : Json F
  actor : Json F
  timestamp : Json F
  repositoryIdentity : String
  predecessorEventId : Json F := .null
  predecessorEventFingerprint : Json F := .null
  proposalFingerprint : Json F := .null
  sourceSnapshotHash : Json F := .null
  postApplySnapshotHash : Json F := .null
  verificationRunId : Json F := .null
  verificationFingerprint : Json F := .null
  provenanceFingerprint : Json F := .null

/-- The fields of an event. Source: `audit.py`, `LifecycleAuditEvent`. Kind: D -/
structure EventFields (F : Type) extends EventBinding F where
  eventType : AuditEventType
  metadata : List (String × String) := []
  eventFingerprint : String := ""

/-- `value or 'NONE'` in a formatted text. Kind: D -/
def orNone {F : Type} (w : Wording F) (v : Json F) : String :=
  if v.truthy w then w.text v else "NONE"

/-- Source: `audit.py`, `LifecycleAuditEvent.compute_event_fingerprint`. Kind: D -/
def EventBinding.computeEventFingerprint {F : Type} (host : Host) (w : Wording F) (e : EventBinding F)
    (eventType : AuditEventType) (metadata : List (String × String)) : String :=
  let normRepo := rstripChar '/' (normSlashes e.repositoryIdentity)
  let sortedMetaStr := joinStr "|" ((sortPairs metadata).map fun m => m.1 ++ ":" ++ m.2)
  host.sha256Text (joinStr "|"
    [e.eventId, eventType.value, e.findingId, w.text e.lifecycleState, w.text e.actor,
      w.text e.timestamp, normRepo, orNone w e.predecessorEventId,
      orNone w e.predecessorEventFingerprint, orNone w e.proposalFingerprint,
      orNone w e.sourceSnapshotHash, orNone w e.postApplySnapshotHash, orNone w e.verificationRunId,
      orNone w e.verificationFingerprint, orNone w e.provenanceFingerprint, sortedMetaStr])

/-- The fingerprint that an event should have. Kind: D -/
def EventFields.expectedFp {F : Type} (host : Host) (w : Wording F) (e : EventFields F) : String :=
  e.computeEventFingerprint host w e.eventType e.metadata

/-- Source: `audit.py`, `LifecycleAuditEvent.__post_init__`. Kind: D -/
def EventFields.postInit {F : Type} (host : Host) (w : Wording F) (e : EventFields F) :
    Except String Unit := do
  if isBlank e.eventId then .error "event_id cannot be empty."
  else if isBlank e.findingId then .error "finding_id cannot be empty."
  else
    let _ ← sanitizeMetadata w e.metadata
    if e.eventFingerprint ≠ "" ∧ e.eventFingerprint ≠ e.expectedFp host w then
      .error ("Invalid or tampered event fingerprint for '" ++ e.eventId ++ "'. Expected '"
        ++ e.expectedFp host w ++ "', got '" ++ e.eventFingerprint ++ "'.")
    else .ok ()

/-- An event: fields that pass the checks of the constructor.
Source: `audit.py`, `LifecycleAuditEvent`
Kind: D -/
structure LifecycleAuditEvent {F : Type} (host : Host) (w : Wording F) extends EventFields F where
  /-- The constructor went through. -/
  checked : toEventFields.postInit host w = .ok ()

namespace LifecycleAuditEvent

variable {F : Type}

/-- The constructor. Source: `audit.py`, `LifecycleAuditEvent`. Kind: D -/
def build (host : Host) (w : Wording F) (e : EventFields F) :
    Except String (LifecycleAuditEvent host w) :=
  match h : e.postInit host w with
  | .ok () => .ok ⟨e, h⟩
  | .error message => .error message

/-- Source: `audit.py`, `LifecycleAuditEvent.create`. Kind: D -/
def create (host : Host) (w : Wording F) (e : EventBinding F) (eventType metadata : Json F) :
    Except String (LifecycleAuditEvent host w) := do
  let evType ← AuditEventType.ofText (w.text eventType)
  let metaTuple ← sanitizeMetadata w (← rawItems w metadata)
  build host w
    { e with
      eventType := evType, metadata := metaTuple
      eventFingerprint := e.computeEventFingerprint host w evType metaTuple }

/-- Source: `audit.py`, `LifecycleAuditEvent.to_dict`. Kind: D -/
def toDict {host : Host} {w : Wording F} (e : LifecycleAuditEvent host w) : Json F :=
  .obj [("event_id", .str e.eventId), ("event_type", .str e.eventType.value),
    ("finding_id", .str e.findingId), ("lifecycle_state", e.lifecycleState), ("actor", e.actor),
    ("timestamp", e.timestamp), ("repository_identity", .str e.repositoryIdentity),
    ("predecessor_event_id", e.predecessorEventId),
    ("predecessor_event_fingerprint", e.predecessorEventFingerprint),
    ("proposal_fingerprint", e.proposalFingerprint), ("source_snapshot_hash", e.sourceSnapshotHash),
    ("post_apply_snapshot_hash", e.postApplySnapshotHash),
    ("verification_run_id", e.verificationRunId),
    ("verification_fingerprint", e.verificationFingerprint),
    ("provenance_fingerprint", e.provenanceFingerprint),
    ("metadata", .obj ((Dict.ofList e.metadata).entries.map fun m => (m.1, .str m.2))),
    ("event_fingerprint", .str e.eventFingerprint)]

/-- Source: `audit.py`, `LifecycleAuditEvent.from_dict`. Kind: D -/
def fromDict (host : Host) (w : Wording F) (data : Json F) :
    Except String (LifecycleAuditEvent host w) := do
  let data ← data.asObj
  let eventId ← Json.require "event_id" data
  let eventType ← Json.require "event_type" data
  let findingId ← Json.require "finding_id" data
  let lifecycleState ← Json.require "lifecycle_state" data
  let actor ← Json.require "actor" data
  let timestamp ← Json.require "timestamp" data
  let repositoryIdentity ← Json.require "repository_identity" data
  let get (key : String) : Json F := Json.getD key data .null
  -- the methods of a text are called on these three, in the fingerprint or in the constructor
  let eventId ← eventId.asStr
  let findingId ← findingId.asStr
  let repositoryIdentity ← repositoryIdentity.asStr
  create host w
    { eventId, findingId, lifecycleState, actor, timestamp, repositoryIdentity
      predecessorEventId := get "predecessor_event_id"
      predecessorEventFingerprint := get "predecessor_event_fingerprint"
      proposalFingerprint := get "proposal_fingerprint"
      sourceSnapshotHash := get "source_snapshot_hash"
      postApplySnapshotHash := get "post_apply_snapshot_hash"
      verificationRunId := get "verification_run_id"
      verificationFingerprint := get "verification_fingerprint"
      provenanceFingerprint := get "provenance_fingerprint" }
    eventType (Json.getD "metadata" data (.obj []))

end LifecycleAuditEvent

end KarsaSec.Remediation
