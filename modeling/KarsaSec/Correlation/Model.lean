import KarsaSec.Found.Json
import KarsaSec.Found.OrderFree
import Mathlib.Data.Prod.Lex

/-!
# Findings, nodes and chains

The records that the correlation, the proof and the decision engine hand on.

* `RawFinding` is a finding as a dictionary; a field that may be missing is an option, and a flag is its truth value.
* `CrossBatchNode`, `CrossBatchEdge` and `ExploitChain` are the records of `correlation/models.py`, with the keys that
  they are sorted by.
-/

namespace KarsaSec.Correlation

open KarsaSec.Found

/-! ## Enumerations -/

/-- Source: `correlation/models.py`, `EvidenceSource`. Kind: D -/
inductive EvidenceSource
  | c13 | c14 | c15 | d1 | d2 | d3 | d4 | d5
  deriving DecidableEq

def EvidenceSource.value : EvidenceSource → String
  | .c13 => "C13"
  | .c14 => "C14"
  | .c15 => "C15"
  | .d1 => "D1"
  | .d2 => "D2"
  | .d3 => "D3"
  | .d4 => "D4"
  | .d5 => "D5"

theorem EvidenceSource.value_injective : Function.Injective EvidenceSource.value := by
  intro a b
  cases a <;> cases b <;> decide

/-- Source: `correlation/models.py`, `SecurityProperty`. Kind: D -/
inductive SecurityProperty
  | accountTakeover | rootAccess | cloudAdmin | tenantEscape | adminAccess | secretAccess | paymentModification
  | dataExfiltration | codeExecution | unknown
  deriving DecidableEq

namespace SecurityProperty

def value : SecurityProperty → String
  | accountTakeover => "ACCOUNT_TAKEOVER"
  | rootAccess => "ROOT_ACCESS"
  | cloudAdmin => "CLOUD_ADMIN"
  | tenantEscape => "TENANT_ESCAPE"
  | adminAccess => "ADMIN_ACCESS"
  | secretAccess => "SECRET_ACCESS"
  | paymentModification => "PAYMENT_MODIFICATION"
  | dataExfiltration => "DATA_EXFILTRATION"
  | codeExecution => "CODE_EXECUTION"
  | unknown => "UNKNOWN"

theorem value_injective : Function.Injective value := by
  intro a b
  cases a <;> cases b <;> decide

/-- `SecurityProperty.__members__`; names are values. Kind: D -/
def members : List SecurityProperty :=
  [accountTakeover, rootAccess, cloudAdmin, tenantEscape, adminAccess, secretAccess, paymentModification,
    dataExfiltration, codeExecution, unknown]

/-- The member with a text, if there is one. Kind: D -/
def ofText? (text : String) : Option SecurityProperty := members.find? fun p => p.value = text

end SecurityProperty

/-- Source: `correlation/models.py`, `EdgeRelation`. Kind: D -/
inductive EdgeRelation
  | causal | temporal | identity | privilege | tenant | delegation | boundary | reachability | correlationOnly
  deriving DecidableEq

def EdgeRelation.value : EdgeRelation → String
  | .causal => "CAUSAL"
  | .temporal => "TEMPORAL"
  | .identity => "IDENTITY"
  | .privilege => "PRIVILEGE"
  | .tenant => "TENANT"
  | .delegation => "DELEGATION"
  | .boundary => "BOUNDARY"
  | .reachability => "REACHABILITY"
  | .correlationOnly => "CORRELATION_ONLY"

theorem EdgeRelation.value_injective : Function.Injective EdgeRelation.value := by
  intro a b
  cases a <;> cases b <;> decide

/-- Source: `correlation/models.py`, `CausalEvidenceType`. Kind: D -/
inductive CausalEvidenceType
  | dataDependency | controlDependency | privilegeTransition | explicitDelegation | explicitProvenance
  | authorizationContext

/-- Source: `correlation/models.py`, `IdentityType`. Kind: D -/
inductive IdentityType
  | endUser | serviceAccount | delegatedIdentity | impersonatedIdentity | unknown

def IdentityType.value : IdentityType → String
  | .endUser => "END_USER"
  | .serviceAccount => "SERVICE_ACCOUNT"
  | .delegatedIdentity => "DELEGATED_IDENTITY"
  | .impersonatedIdentity => "IMPERSONATED_IDENTITY"
  | .unknown => "UNKNOWN"

/-- Source: `correlation/models.py`, `CorrelationResolution`. Kind: D -/
inductive CorrelationResolution
  | safe | vulnerable | unknown
  deriving DecidableEq

/-- Source: `correlation/models.py`, `CorrelationSeverity`. Kind: D -/
inductive CorrelationSeverity
  | critical | high | medium | low | info | unknown

/-- Source: `correlation/models.py`, `CorrelationConfidence`. Kind: D -/
inductive CorrelationConfidence
  | high | medium | low | unknown

def CorrelationConfidence.value : CorrelationConfidence → String
  | .high => "HIGH"
  | .medium => "MEDIUM"
  | .low => "LOW"
  | .unknown => "UNKNOWN"

/-! ## Records -/

/-- The keys of a finding that the three engines read. Source: `findings`, `raw_findings`. Kind: D -/
structure RawFinding where
  resolution : Option String := none
  securityProperty : Option String := none
  conflictPresent : Bool := false
  safeControlProven : Bool := false
  missingEvidence : Bool := false
  identityMissing : Bool := false
  tenantMissing : Bool := false
  causalMissing : Bool := false
  authzPresent : Bool := false
  authorized : Bool := false
  authzContext : Bool := false
  authzScopeMismatch : Bool := false
  rootCauseId : Option String := none
  component : Option String := none
  description : Option String := none
  proofId : Option String := none

/-- `f.get("resolution", "UNKNOWN")`. Kind: D -/
def RawFinding.resolutionText (f : RawFinding) : String := f.resolution.getD "UNKNOWN"

/-- `f.get("missing_evidence", False) or ...`, the proof obligations of a vulnerable finding. Kind: D -/
def RawFinding.lacksEvidence (f : RawFinding) : Bool :=
  f.missingEvidence || f.identityMissing || f.tenantMissing || f.causalMissing

/-- Source: `correlation/models.py`, `CrossBatchNode`. Kind: D -/
structure CrossBatchNode where
  nodeId : String
  sourceBatch : EvidenceSource
  sourceType : String
  sourceId : String
  correlationId : String
  actorIdentity : String := "anonymous"
  identityType : IdentityType := .endUser
  tenantId : String := "tenant_default"
  privilegeLevel : String := "LOW"
  capability : String := "NONE"
  action : String := "READ"
  resource : String := "resource_default"
  securityProperty : SecurityProperty := .unknown
  evidenceReferences : List String := []
  temporalMetadata : List String := []
  boundaryMetadata : List String := []
  causalEvidence : List CausalEvidenceType := []

namespace CrossBatchNode

/-- Source: `correlation/models.py`, `CrossBatchNode.to_dict`. Kind: D -/
def toDict (n : CrossBatchNode) : Json Empty :=
  .obj [("node_id", .str n.nodeId), ("source_batch", .str n.sourceBatch.value), ("source_type", .str n.sourceType),
    ("source_id", .str n.sourceId), ("correlation_id", .str n.correlationId), ("actor_identity", .str n.actorIdentity),
    ("identity_type", .str n.identityType.value), ("tenant_id", .str n.tenantId),
    ("privilege_level", .str n.privilegeLevel), ("capability", .str n.capability), ("action", .str n.action),
    ("resource", .str n.resource), ("security_property", .str n.securityProperty.value),
    ("evidence_references", .arr (n.evidenceReferences.map .str)),
    ("temporal_metadata", .arr (n.temporalMetadata.map .str)),
    ("boundary_metadata", .arr (n.boundaryMetadata.map .str))]

/-- `(n.source_batch.value, n.node_id)`. Kind: D -/
def sortKey (n : CrossBatchNode) : String ×ₗ String := toLex (n.sourceBatch.value, n.nodeId)

theorem sortKey_eq_iff {m n : CrossBatchNode} :
    m.sortKey = n.sortKey ↔ m.sourceBatch = n.sourceBatch ∧ m.nodeId = n.nodeId := by
  unfold sortKey
  rw [toLex_inj, Prod.mk.injEq, EvidenceSource.value_injective.eq_iff]

end CrossBatchNode

/-- Source: `correlation/models.py`, `CrossBatchEdge`. Kind: D -/
structure CrossBatchEdge where
  edgeId : String
  sourceNodeId : String
  targetNodeId : String
  relation : EdgeRelation
  evidenceId : String
  confidence : CorrelationConfidence := .high
  provenance : String := "D4_CORRELATION_ENGINE"

namespace CrossBatchEdge

/-- Source: `correlation/models.py`, `CrossBatchEdge.to_dict`. Kind: D -/
def toDict (e : CrossBatchEdge) : Json Empty :=
  .obj [("edge_id", .str e.edgeId), ("source_node_id", .str e.sourceNodeId), ("target_node_id", .str e.targetNodeId),
    ("relation", .str e.relation.value), ("evidence_id", .str e.evidenceId), ("confidence", .str e.confidence.value),
    ("provenance", .str e.provenance)]

/-- `(e.source_node_id, e.target_node_id, e.relation.value)`. Kind: D -/
def sortKey (e : CrossBatchEdge) : String ×ₗ String ×ₗ String :=
  toLex (e.sourceNodeId, toLex (e.targetNodeId, e.relation.value))

theorem sortKey_eq_iff {d e : CrossBatchEdge} : d.sortKey = e.sortKey ↔
    d.sourceNodeId = e.sourceNodeId ∧ d.targetNodeId = e.targetNodeId ∧ d.relation = e.relation := by
  unfold sortKey
  rw [toLex_inj, Prod.mk.injEq, toLex_inj, Prod.mk.injEq, EdgeRelation.value_injective.eq_iff]

end CrossBatchEdge

/-- Source: `correlation/models.py`, `ChainRootCause`. Kind: D -/
structure ChainRootCause where
  sourceBatch : EvidenceSource
  sourceId : String
  nodeId : String
  rationale : String

/-- Source: `correlation/models.py`, `ExploitChain`. Kind: D -/
structure ExploitChain where
  chainId : String
  resolution : CorrelationResolution
  severity : CorrelationSeverity
  confidence : CorrelationConfidence
  chainType : String
  securityProperty : SecurityProperty
  nodes : List CrossBatchNode
  edges : List CrossBatchEdge
  rootCause : ChainRootCause
  evidenceChain : List String

end KarsaSec.Correlation
