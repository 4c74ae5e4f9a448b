import KarsaSec.Found.ShortestWalk
import KarsaSec.Query.Model

/-!
# Traversal of the graph

`MultiHopTraversalEngine.shortest_path`: breadth-first search over the edges of a code property graph.

* `nodeState` is the entry of the visited set for a node; it has the id of the node in front (`nodeState_injective`).
* `shortestPath_eq`: for two nodes of the graph the path is the first of the shortest walks, in the order in which the
  edges were added; it is empty where no walk is short enough.
-/

namespace KarsaSec.Query

open KarsaSec.Found

variable {F : Type} (L : Language F) (g : CPGGraph F)

/-- `attributes.get(a) or attributes.get(b) or …`, where that counts as true. Kind: D -/
def firstTruthy (node : CPGNode F) (names : List String) : Option (Value F) :=
  names.findSome? fun name => (node.attributes.get? name).filter L.truthy

/-- `str(attributes.get(a) or … or default)`. Kind: D -/
def attributeText (node : CPGNode F) (default : String) (names : List String) : String :=
  ((firstTruthy L node names).map L.text).getD default

/-- The length bound of a call context. Source: `traversal_engine.py`, `MAX_CONTEXT_STRING_LEN`. Kind: D -/
def maxContextStringLen : ℕ := 256

/-- Source: `traversal_engine.py`, `_get_node_state`. Kind: D -/
def nodeState (nodeId : String) : String × String × String :=
  match g.nodes.get? nodeId with
  | none => (nodeId, "v0", "global")
  | some node =>
    let ssaV := attributeText L node "v0" ["ssa_version", "variable_version", "version"]
    let cCtx := attributeText L node "global" ["call_context", "context", "function_name"]
    (nodeId, ssaV, String.ofList (cCtx.toList.take maxContextStringLen))

/-- The ends of the edges that leave a node, of the given types or of any.
Source: `traversal_engine.py`, `shortest_path`, `edge.target_id`
Kind: D -/
def successors (edgeTypes : List EdgeType) (nodeId : String) : List String :=
  ((g.getOutgoingEdges nodeId).filter fun e => edgeTypes.isEmpty || e.edgeType ∈ edgeTypes).map CPGEdge.targetId

/-- A node is queued once, so the edges bound the pops. Source: `traversal_engine.py`, `shortest_path`. Kind: D -/
def shortestPath (sourceId targetId : String) (edgeTypes : List EdgeType) (maxDepth : ℕ) : List String :=
  if g.nodes.contains sourceId = false ∨ g.nodes.contains targetId = false then []
  else (shortestWalk (successors g edgeTypes) (nodeState L g) (sourceId :: g.edges.map CPGEdge.targetId).length sourceId
    targetId maxDepth).getD []

theorem nodeState_fst (nodeId : String) : (nodeState L g nodeId).1 = nodeId := by
  unfold nodeState
  cases g.nodes.get? nodeId <;> rfl

theorem nodeState_injective : Function.Injective (nodeState L g) := fun a b h => by
  rw [← nodeState_fst L g a, h, nodeState_fst]

variable {g}

/-- The search stays with its start and the ends of edges. Kind: L -/
theorem mem_targets_of_mem_successors {edgeTypes : List EdgeType} {nodeId b : String}
    (h : b ∈ successors g edgeTypes nodeId) : b ∈ g.edges.map CPGEdge.targetId := by
  obtain ⟨edge, hedge, rfl⟩ := List.mem_map.mp h
  have hout : edge ∈ edgesAt g.adjacencyOut nodeId := List.mem_of_mem_filter hedge
  rw [g.out_eq] at hout
  exact List.mem_map_of_mem (List.mem_of_mem_filter hout)

/-- The path between two nodes of the graph is the first of the shortest walks. Kind: P -/
theorem shortestPath_eq {sourceId targetId : String} {edgeTypes : List EdgeType} {maxDepth : ℕ}
    (hsource : g.nodes.contains sourceId = true) (htarget : g.nodes.contains targetId = true) :
    shortestPath L g sourceId targetId edgeTypes maxDepth =
      (firstWalk (successors g edgeTypes) sourceId targetId maxDepth).getD [] := by
  have hpresent : ¬(g.nodes.contains sourceId = false ∨ g.nodes.contains targetId = false) := by simp_all
  unfold shortestPath
  rw [if_neg hpresent, shortestWalk_eq (nodeState_injective L g) List.mem_cons_self]
  exact fun a _ b hb => List.mem_cons_of_mem _ (mem_targets_of_mem_successors hb)

end KarsaSec.Query
