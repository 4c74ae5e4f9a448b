import KarsaSec.Found.Json
import KarsaSec.Found.Topo
import KarsaSec.Remediation.Approval

/-!
# The provenance graph

The chain of evidence behind a remediation, as nodes that name their predecessors.

* `ProvenanceNode` and `RemediationProvenanceGraph` carry what their constructors have checked, as a
  field each.
* `addNode` is the only way to grow a graph; it raises on a repeated, self-referring or orphan node.
* `toDict`, `fromDict` write a graph into a document and read it back. Reading puts the nodes in order
  first and adds them one by one.
-/

namespace KarsaSec.Remediation

open KarsaSec.Found

/-! ## Nodes -/

/-- Source: `provenance.py`, `ProvenanceNodeType`. Kind: D -/
inductive ProvenanceNodeType
  | finding
  | evidence
  | rca
  | strategy
  | proposal
  | approvalToken
  | sourceSnapshot
  | applicationResult
  | verificationResult
  deriving DecidableEq, Repr

namespace ProvenanceNodeType

/-- The string value of a node type. Source: `provenance.py`, `ProvenanceNodeType`. Kind: D -/
def value : ProvenanceNodeType → String
  | finding => "FINDING"
  | evidence => "EVIDENCE"
  | rca => "RCA"
  | strategy => "STRATEGY"
  | proposal => "PROPOSAL"
  | approvalToken => "APPROVAL_TOKEN"
  | sourceSnapshot => "SOURCE_SNAPSHOT"
  | applicationResult => "APPLICATION_RESULT"
  | verificationResult => "VERIFICATION_RESULT"

/-- The members, in order. Kind: D -/
def all : List ProvenanceNodeType :=
  [finding, evidence, rca, strategy, proposal, approvalToken, sourceSnapshot, applicationResult,
    verificationResult]

/-- `ProvenanceNodeType(value)`. Kind: D -/
def ofJson {F : Type} (w : Wording F) (v : Json F) : Except String ProvenanceNodeType :=
  match v with
  | .str s =>
    match all.find? fun t => t.value = s with
    | some t => .ok t
    | none => .error ("'" ++ s ++ "' is not a valid ProvenanceNodeType")
  | v => .error (w.text v ++ " is not a valid ProvenanceNodeType")

@[simp] theorem ofJson_value {F : Type} (w : Wording F) (t : ProvenanceNodeType) :
    ofJson w (.str t.value) = .ok t := by
  cases t <;> rfl

end ProvenanceNodeType

/-- The fields of a node. Source: `provenance.py`, `ProvenanceNode`. Kind: D -/
structure NodeFields where
  nodeId : String
  nodeType : ProvenanceNodeType
  fingerprint : String
  predecessorNodeIds : List String
  metadata : List (String × String) := []
  deriving DecidableEq

/-- Source: `provenance.py`, `ProvenanceNode.compute_fingerprint`. Kind: D -/
def NodeFields.computeFingerprint (host : Host) (nodeId : String) (nodeType : ProvenanceNodeType)
    (predecessorNodeIds : List String) (metadata : List (String × String)) : String :=
  let sortedPreds := joinStr "|" (sortStrings predecessorNodeIds)
  let sortedMeta := joinStr "|" ((sortPairs metadata).map fun m => m.1 ++ ":" ++ m.2)
  host.sha256Text (joinStr "|" [nodeId, nodeType.value, sortedPreds, sortedMeta])

/-- The fingerprint that a node should have. Kind: D -/
def NodeFields.expectedFp (host : Host) (n : NodeFields) : String :=
  computeFingerprint host n.nodeId n.nodeType n.predecessorNodeIds n.metadata

/-- Source: `provenance.py`, `ProvenanceNode.__post_init__`. Kind: D -/
def NodeFields.postInit (host : Host) (n : NodeFields) : Except String Unit :=
  if isBlank n.nodeId then .error "node_id cannot be empty."
  else if n.fingerprint ≠ n.expectedFp host then
    .error ("Tampered or invalid node fingerprint for '" ++ n.nodeId ++ "'. Expected '"
      ++ n.expectedFp host ++ "', got '" ++ n.fingerprint ++ "'.")
  else .ok ()

/-- A node: fields that pass the checks of the constructor.
Source: `provenance.py`, `ProvenanceNode`
Kind: D -/
structure ProvenanceNode (host : Host) extends NodeFields where
  /-- The constructor went through. -/
  checked : toNodeFields.postInit host = .ok ()

namespace ProvenanceNode

variable {host : Host}

theorem ext_fields {a b : ProvenanceNode host} (h : a.toNodeFields = b.toNodeFields) : a = b := by
  cases a
  cases b
  cases h
  rfl

instance : DecidableEq (ProvenanceNode host) := fun a b =>
  decidable_of_iff (a.toNodeFields = b.toNodeFields) ⟨ext_fields, congrArg toNodeFields⟩

theorem fingerprint_eq (n : ProvenanceNode host) : n.fingerprint = n.expectedFp host := by
  have h := n.checked
  unfold NodeFields.postInit at h
  split at h
  · cases h
  · simp_all

/-- The constructor. Source: `provenance.py`, `ProvenanceNode`. Kind: D -/
def create (host : Host) (n : NodeFields) : Except String (ProvenanceNode host) :=
  match h : n.postInit host with
  | .ok () => .ok ⟨n, h⟩
  | .error message => .error message

theorem create_ok {n : NodeFields} {node : ProvenanceNode host} :
    create host n = .ok node ↔ n = node.toNodeFields := by
  unfold create
  constructor
  · grind
  · rintro rfl
    split
    · rfl
    · next h =>
        rw [node.checked] at h
        cases h

/-- Source: `provenance.py`, `ProvenanceNode.to_dict`. Kind: D -/
def toDict {F : Type} (n : ProvenanceNode host) : Json F :=
  .obj [("node_id", .str n.nodeId), ("node_type", .str n.nodeType.value),
    ("fingerprint", .str n.fingerprint),
    ("predecessor_node_ids", .arr (n.predecessorNodeIds.map .str)),
    ("metadata", .obj ((Dict.ofList n.metadata).entries.map fun m => (m.1, .str m.2)))]

/-- Source: `provenance.py`, `ProvenanceNode.from_dict`. Kind: D -/
def fromDict {F : Type} (host : Host) (w : Wording F) (data : Json F) :
    Except String (ProvenanceNode host) := do
  let data ← data.asObj
  let metaDict ← (Json.getD "metadata" data (.obj [])).asObj
  let metaTuple := sortPairs (metaDict.map fun m => (m.1, w.text m.2))
  let nodeId ← Json.require "node_id" data
  let nodeType ← ProvenanceNodeType.ofJson w (← Json.require "node_type" data)
  let preds ← (Json.getD "predecessor_node_ids" data (.arr [])).iterate
  -- a text is asked of the predecessors when they are joined, of the identity when it is stripped
  let preds ← preds.mapM Json.asStr
  let nodeId ← nodeId.asStr
  let expected := NodeFields.computeFingerprint host nodeId nodeType preds metaTuple
  let given := Json.getD "fingerprint" data .null
  let fp ← if given.truthy w then given.asStr else .ok expected
  create host
    { nodeId, nodeType, fingerprint := fp, predecessorNodeIds := preds, metadata := metaTuple }

end ProvenanceNode

/-! ## The graph -/

namespace RemediationProvenanceGraph

variable {host : Host}

/-- The nodes by their identity; of nodes with one identity, the last.
Source: `provenance.py`, `from_dict`, `node_map`
Kind: D -/
def nodeMap (nodes : List (ProvenanceNode host)) : Dict String (ProvenanceNode host) :=
  Dict.ofList (nodes.map fun n => (n.nodeId, n))

/-- The edges, from predecessor to node. Source: `provenance.py`, `from_dict`, `adj`. Kind: D -/
def edges (nodes : List (ProvenanceNode host)) : List (String × String) :=
  nodes.flatMap fun n => n.predecessorNodeIds.map fun pred => (pred, n.nodeId)

/-- Source: `provenance.py`, `RemediationProvenanceGraph._detect_cycle`. Kind: D -/
def detectCycle (nodes : List (ProvenanceNode host)) : Except String Unit :=
  let ids := (nodeMap nodes).keys
  let visited := Topo.order ids ((edges nodes).filter fun e => e.1 ∈ ids)
  if visited.length ≠ nodes.length then .error "Cycle detected in provenance graph." else .ok ()

/-- The first loop over the nodes. Source: `provenance.py`, `validate_integrity`. Kind: D -/
def checkNodes : List String → List (ProvenanceNode host) → Except String Unit
  | _, [] => .ok ()
  | seenIds, node :: rest =>
    if node.nodeId ∈ seenIds then .error ("Duplicate node_id '" ++ node.nodeId ++ "'.")
    else if node.nodeId ∈ node.predecessorNodeIds then
      .error ("Self-reference in node '" ++ node.nodeId ++ "'.")
    else if node.fingerprint ≠ node.expectedFp host then
      .error ("Node fingerprint mismatch for node '" ++ node.nodeId ++ "'.")
    else checkNodes (seenIds ++ [node.nodeId]) rest

/-- The second loop over the nodes. Source: `provenance.py`, `validate_integrity`. Kind: D -/
def checkPredecessors (seenIds : List String) : List (ProvenanceNode host) → Except String Unit
  | [] => .ok ()
  | node :: rest =>
    match node.predecessorNodeIds.find? fun pred => pred ∉ seenIds with
    | some pred =>
      .error ("Orphan predecessor '" ++ pred ++ "' referenced by node '" ++ node.nodeId ++ "'.")
    | none => checkPredecessors seenIds rest

/-- Source: `provenance.py`, `RemediationProvenanceGraph.validate_integrity`. Kind: D -/
def validateIntegrity (nodes : List (ProvenanceNode host)) : Except String Unit := do
  checkNodes [] nodes
  checkPredecessors (nodes.map (·.nodeId)) nodes
  detectCycle nodes

end RemediationProvenanceGraph

/-- A graph: nodes that pass the checks of the constructor.
Source: `provenance.py`, `RemediationProvenanceGraph`
Kind: D -/
structure RemediationProvenanceGraph (host : Host) where
  nodes : List (ProvenanceNode host)
  /-- The constructor went through. -/
  checked : RemediationProvenanceGraph.validateIntegrity nodes = .ok ()

namespace RemediationProvenanceGraph

variable {host : Host}

/-- The graph without nodes. Source: `provenance.py`, `RemediationProvenanceGraph()`. Kind: D -/
def empty : RemediationProvenanceGraph host := ⟨[], rfl⟩

/-- The constructor. Source: `provenance.py`, `RemediationProvenanceGraph`. Kind: D -/
def create (nodes : List (ProvenanceNode host)) : Except String (RemediationProvenanceGraph host) :=
  match h : validateIntegrity nodes with
  | .ok () => .ok ⟨nodes, h⟩
  | .error message => .error message

/-- Source: `provenance.py`, `RemediationProvenanceGraph.add_node`. Kind: D -/
def addNode (g : RemediationProvenanceGraph host) (node : ProvenanceNode host) :
    Except String (RemediationProvenanceGraph host) := do
  let existingIds := g.nodes.map (·.nodeId)
  if node.nodeId ∈ existingIds then
    .error ("Duplicate node_id '" ++ node.nodeId ++ "' in provenance graph.")
  else if node.nodeId ∈ node.predecessorNodeIds then
    .error ("Self-reference detected for node_id '" ++ node.nodeId ++ "'.")
  else
    match node.predecessorNodeIds.find? fun pred => pred ∉ existingIds with
    | some pred =>
      .error ("Orphan node error: Predecessor '" ++ pred ++ "' for node '" ++ node.nodeId
        ++ "' does not exist in graph.")
    | none =>
      detectCycle (g.nodes ++ [node])
      create (g.nodes ++ [node])

/-- `sorted(nodes, key=lambda n: n.node_id)`. Kind: D -/
def sortNodes (nodes : List (ProvenanceNode host)) : List (ProvenanceNode host) :=
  nodes.insertionSort fun a b => a.nodeId ≤ b.nodeId

/-- Source: `provenance.py`, `RemediationProvenanceGraph.graph_fingerprint`. Kind: D -/
def graphFingerprint (g : RemediationProvenanceGraph host) : String :=
  host.sha256Text (joinStr "||" ((sortNodes g.nodes).map fun n =>
    joinStr ":" [n.nodeId, n.nodeType.value, n.fingerprint,
      joinStr "|" (sortStrings n.predecessorNodeIds)]))

/-- Source: `provenance.py`, `RemediationProvenanceGraph.to_dict`. Kind: D -/
def toDict {F : Type} (g : RemediationProvenanceGraph host) : List (String × Json F) :=
  [("graph_fingerprint", .str g.graphFingerprint), ("node_count", .int g.nodes.length),
    ("nodes", .arr ((sortNodes g.nodes).map ProvenanceNode.toDict))]

/-- The nodes of a document, in its order. Source: `provenance.py`, `from_dict`, `raw_nodes`. Kind: D -/
def readNodes {F : Type} (host : Host) (w : Wording F) (data : List (String × Json F)) :
    Except String (List (ProvenanceNode host)) := do
  let nodesData ← (Json.getD "nodes" data (.arr [])).iterate
  nodesData.mapM (ProvenanceNode.fromDict host w)

/-- The nodes that the queue reaches, predecessors first.
Source: `provenance.py`, `from_dict`, `sorted_nodes`
Kind: D -/
def arrange (raw : List (ProvenanceNode host)) : List (ProvenanceNode host) :=
  (Topo.order (nodeMap raw).keys (edges raw)).filterMap (nodeMap raw).get?

/-- Source: `provenance.py`, `RemediationProvenanceGraph.from_dict`. Kind: D -/
def fromDict {F : Type} (host : Host) (w : Wording F) (data : List (String × Json F)) :
    Except String (RemediationProvenanceGraph host) := do
  let raw ← readNodes host w data
  (arrange raw).foldlM addNode empty

end RemediationProvenanceGraph

end KarsaSec.Remediation
