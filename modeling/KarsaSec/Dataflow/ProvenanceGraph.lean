import KarsaSec.Dataflow.AbstractState
import KarsaSec.Found.Dict
import KarsaSec.Found.SimplePaths

/-!
# The provenance graph

Nodes and edges of the flow of data, of `graph/dataflow/provenance.py`. The edges are kept in a list and, under their ends,
in two maps.

* `DataflowProvenanceGraph` carries what the maps say about the list; `addNode` and `addEdge` keep it.
* `findPaths_spec`: the search for all paths ends on graphs with cycles too, and returns each path without a repeated node
  once for each choice of edges between its nodes.
* `findPath_spec`: a single path is returned exactly if the edges lead to the target.
-/

namespace KarsaSec.Dataflow

open KarsaSec.Found

/-- Source: `provenance.py`, `ProvenanceNodeKind`. Kind: D -/
inductive ProvenanceNodeKind
  | source
  | assignment
  | transformation
  | parameter
  | call
  | guard
  | return_
  | sink
  deriving DecidableEq

/-- Source: `provenance.py`, `ProvenanceEdgeKind`. Kind: D -/
inductive ProvenanceEdgeKind
  | derivesFrom
  | assignedFrom
  | passesParameter
  | returns
  | calls
  | transforms
  | guardedBy
  | sanityCheckedBy
  | modifiedBy
  | reaches
  | invalidatedBy
  deriving DecidableEq

/-- Source: `provenance.py`, `ProvenanceNode`. Kind: D -/
structure ProvenanceNode where
  nodeId : String
  kind : ProvenanceNodeKind
  varName : String
  varVersion : String
  filePath : String := ""
  functionName : String := ""
  blockId : String := ""
  statement : String := ""
  constraints : List SemanticConstraint := []
  taintState : AbstractTaintState := .unknown
  callSiteId : String := ""
  deriving DecidableEq

/-- Source: `provenance.py`, `ProvenanceEdge`. Kind: D -/
structure ProvenanceEdge where
  srcNodeId : String
  targetNodeId : String
  kind : ProvenanceEdgeKind
  callSiteId : String := ""
  condition : String := ""
  deriving DecidableEq

/-- The graph, with what its maps say of its edges. Source: `provenance.py`, `DataflowProvenanceGraph`. Kind: D -/
structure DataflowProvenanceGraph where
  nodes : Dict String ProvenanceNode
  edges : List ProvenanceEdge
  outgoing : Dict String (List ProvenanceEdge)
  incoming : Dict String (List ProvenanceEdge)
  named : ∀ k node, nodes.get? k = some node → node.nodeId = k
  outgoing_eq : ∀ a, outgoing.getD a [] = edges.filter fun e => e.srcNodeId = a
  incoming_eq : ∀ a, incoming.getD a [] = edges.filter fun e => e.targetNodeId = a

/-- An element put behind its group is behind the list. Kind: L -/
theorem getD_pushAt {α : Type} {key : α → String} {d : Dict String (List α)} {l : List α}
    (h : ∀ k, d.getD k [] = l.filter fun x => key x = k) (a : α) (k : String) :
    (d.pushAt (key a) a).getD k [] = (l ++ [a]).filter fun x => key x = k := by
  rw [List.filter_append, ← h k]
  exact Dict.getD_foldl_pushAt key k [a] d

namespace DataflowProvenanceGraph

/-- Source: `provenance.py`, `DataflowProvenanceGraph.__init__`. Kind: D -/
def empty : DataflowProvenanceGraph where
  nodes := .empty
  edges := []
  outgoing := .empty
  incoming := .empty
  named := fun _ _ h => by cases h
  outgoing_eq := fun _ => rfl
  incoming_eq := fun _ => rfl

variable (graph : DataflowProvenanceGraph)

/-- Source: `provenance.py`, `add_node`. Kind: D -/
def addNode (node : ProvenanceNode) : DataflowProvenanceGraph :=
  { graph with
    nodes := graph.nodes.set node.nodeId node
    named := fun k other h => by
      rw [Dict.get?_set] at h
      split at h
      · next hk => rw [← Option.some.inj h, hk]
      · exact graph.named k other h }

/-- Source: `provenance.py`, `add_edge`. Kind: D -/
def addEdge (edge : ProvenanceEdge) : DataflowProvenanceGraph :=
  { graph with
    edges := graph.edges ++ [edge]
    outgoing := graph.outgoing.pushAt edge.srcNodeId edge
    incoming := graph.incoming.pushAt edge.targetNodeId edge
    outgoing_eq := getD_pushAt graph.outgoing_eq edge
    incoming_eq := getD_pushAt graph.incoming_eq edge }

/-- Source: `provenance.py`, `get_node`. Kind: D -/
def getNode (nodeId : String) : Option ProvenanceNode := graph.nodes.get? nodeId

/-- Source: `provenance.py`, `get_predecessors`. Kind: D -/
def getPredecessors (nodeId : String) : List ProvenanceNode :=
  (graph.incoming.getD nodeId []).filterMap fun e => graph.nodes.get? e.srcNodeId

/-- Source: `provenance.py`, `get_successors`. Kind: D -/
def getSuccessors (nodeId : String) : List ProvenanceNode :=
  (graph.outgoing.getD nodeId []).filterMap fun e => graph.nodes.get? e.targetNodeId

/-- The ends of the edges that leave a node. Source: `provenance.py`, `find_paths`, the loop over the edges. Kind: D -/
def heads (nodeId : String) : List String := (graph.outgoing.getD nodeId []).map ProvenanceEdge.targetNodeId

/-- The nodes on a way are different, and as many as an edge leads to and the first.
Source: `provenance.py`, `find_paths`
Kind: D -/
def findPaths (startNodeId targetNodeId : String) : Option (List (List String)) :=
  pathsFrom graph.heads targetNodeId (graph.edges.length + 2) [] startNodeId

/-- Source: `provenance.py`, `find_path`. Kind: D -/
def findPath (startNodeId targetNodeId : String) : Option (Option (List String)) :=
  (graph.findPaths startNodeId targetNodeId).map List.head?

/-- The number of edges from a node to another. Kind: D -/
def edgesBetween (a b : String) : ℕ := graph.edges.countP fun e => e.srcNodeId = a ∧ e.targetNodeId = b

/-- The number of ways to choose an edge for each step of a path. Kind: D -/
def edgeChoices : List String → ℕ
  | [] => 0
  | [_] => 1
  | a :: b :: rest => graph.edgesBetween a b * edgeChoices (b :: rest)

/-- An edge leads from a node to another. Kind: D -/
def Leads (a b : String) : Prop := ∃ e ∈ graph.edges, e.srcNodeId = a ∧ e.targetNodeId = b

variable {graph} {start target : String}

theorem mem_heads {a b : String} : b ∈ graph.heads a ↔ graph.Leads a b := by
  unfold heads Leads
  rw [graph.outgoing_eq]
  simp only [List.mem_map, List.mem_filter, decide_eq_true_eq, and_assoc]

theorem count_heads (a b : String) : (graph.heads a).count b = graph.edgesBetween a b := by
  unfold heads edgesBetween
  rw [graph.outgoing_eq, List.count_eq_countP, List.countP_map, List.countP_filter]
  refine List.countP_congr fun e _ => ?_
  simp [and_comm]

theorem ways_heads : (path : List String) → ways graph.heads path = graph.edgeChoices path
  | [] => rfl
  | [_] => rfl
  | a :: b :: rest => by rw [ways, edgeChoices, count_heads, ways_heads (b :: rest)]

/-- A node is among the successors of another exactly if the other is among its predecessors.
Source: `provenance.py`, `get_successors` and `get_predecessors`
Kind: P -/
theorem mem_getSuccessors_iff {a b : ProvenanceNode} (ha : graph.getNode a.nodeId = some a) (hb : graph.getNode b.nodeId = some b) :
    b ∈ graph.getSuccessors a.nodeId ↔ a ∈ graph.getPredecessors b.nodeId := by
  unfold getSuccessors getPredecessors
  rw [graph.outgoing_eq, graph.incoming_eq]
  simp only [List.mem_filterMap, List.mem_filter, decide_eq_true_eq]
  constructor
  · rintro ⟨e, ⟨hmem, hsrc⟩, htarget⟩
    exact ⟨e, ⟨hmem, (graph.named _ _ htarget).symm⟩, hsrc ▸ ha⟩
  · rintro ⟨e, ⟨hmem, htarget⟩, hsrc⟩
    exact ⟨e, ⟨hmem, (graph.named _ _ hsrc).symm⟩, htarget ▸ hb⟩

/-- The search of the library, with its bound. Kind: L -/
theorem exists_findPaths (graph : DataflowProvenanceGraph) (start target : String) :
    ∃ paths, graph.findPaths start target = some paths ∧
      ∀ path, paths.count path = pathCount graph.heads [] start target path := by
  have hall : ∀ a, ∀ b ∈ graph.heads a, b ∈ start :: graph.edges.map ProvenanceEdge.targetNodeId := by
    intro a b hb
    obtain ⟨e, hmem, -, rfl⟩ := mem_heads.mp hb
    exact List.mem_cons_of_mem start (List.mem_map_of_mem hmem)
  have hn : unvisited (start :: graph.edges.map ProvenanceEdge.targetNodeId) [] < graph.edges.length + 2 := by
    simp [unvisited]
  exact pathsFrom_spec hall List.mem_cons_self hn

/-- What is returned at all. Kind: L -/
theorem mem_findPaths_iff {paths : List (List String)} {path : List String}
    (hcount : ∀ path, paths.count path = pathCount graph.heads [] start target path) :
    path ∈ paths ↔ Simple [] start target path ∧ 0 < ways graph.heads path := by
  rw [← List.count_pos_iff, hcount, pathCount]
  by_cases hsimple : Simple [] start target path
  · rw [if_pos hsimple]
    exact (and_iff_right hsimple).symm
  · rw [if_neg hsimple]
    exact ⟨fun h => absurd h (Nat.lt_irrefl 0), fun h => absurd h.1 hsimple⟩

/-- **The search ends, and returns each path of different nodes once for each choice of edges, and nothing else.**
Source: `provenance.py`, `find_paths`
Kind: P -/
theorem findPaths_spec (graph : DataflowProvenanceGraph) (start target : String) :
    ∃ paths, graph.findPaths start target = some paths ∧
      ∀ path, paths.count path = if Simple [] start target path then graph.edgeChoices path else 0 := by
  obtain ⟨paths, hpaths, hcount⟩ := exists_findPaths graph start target
  refine ⟨paths, hpaths, fun path => ?_⟩
  rw [hcount, pathCount, ways_heads]

/-- **A path of different nodes is returned exactly if the edges lead from the one node to the other.**
Source: `provenance.py`, `find_path`
Kind: P -/
theorem findPath_spec (graph : DataflowProvenanceGraph) (start target : String) :
    ∃ result, graph.findPath start target = some result ∧
      (result.isSome ↔ Relation.ReflTransGen graph.Leads start target) ∧
      ∀ path, result = some path → Simple [] start target path ∧ path.IsChain graph.Leads := by
  obtain ⟨paths, hpaths, hcount⟩ := exists_findPaths graph start target
  have hreaches : Relation.ReflTransGen graph.Leads start target ↔ Reaches graph.heads start target := by
    rw [Reaches, funext₂ fun a b => propext mem_heads]
  refine ⟨paths.head?, by rw [findPath, hpaths, Option.map_some], ?_, fun path hpath => ?_⟩
  · rw [hreaches, ← exists_simple_iff, List.isSome_head?]
    constructor
    · intro hne
      obtain ⟨path, hmem⟩ := List.exists_mem_of_ne_nil paths hne
      exact ⟨path, (mem_findPaths_iff hcount).mp hmem⟩
    · rintro ⟨path, hpath⟩
      exact List.ne_nil_of_mem ((mem_findPaths_iff hcount).mpr hpath)
  · obtain ⟨hsimple, hways⟩ := (mem_findPaths_iff hcount).mp (List.mem_of_mem_head? hpath)
    exact ⟨hsimple, (ways_pos_iff.mp hways).2.imp fun a b hb => mem_heads.mp hb⟩

end DataflowProvenanceGraph

end KarsaSec.Dataflow
