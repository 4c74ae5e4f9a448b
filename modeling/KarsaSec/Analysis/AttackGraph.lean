import KarsaSec.Analysis.FindingClusters
import KarsaSec.Found.Sorting
import KarsaSec.Found.Topo
import KarsaSec.Found.TreeWalk

/-!
# Attack graphs

`analysis/attack_graph/engine.py`, `analysis/attack_graph/models.py`, and the acyclicity test of
`analysis/breach_simulation/engine.py`.

* `buildGraph` checks for cycles, then checks the edges in their order, then traces the root causes of every impact.
* `isAcyclic` and `isDag` are two programs for one test; both go through a set, whose order is a parameter.
* `buildGraph_sound`: what raises, and what the chain of an impact is otherwise.
-/

namespace KarsaSec.Analysis

open KarsaSec.Found

/-! ## Data -/

/-- Source: `attack_graph/models.py`, `NodeType`. Kind: D -/
inductive NodeType
  | rootCause
  | capability
  | impact
  | trustBoundary
  | unknown
  deriving DecidableEq

/-- Only an `ImpactNode` has a chain. Source: `attack_graph/models.py`, `AttackNode`, `ImpactNode`. Kind: D -/
structure AttackNode where
  nodeId : String
  nodeType : NodeType
  label : String
  resolution : String := "VULNERABLE"
  rootCauseChain : Option (List String) := none
  deriving DecidableEq

/-- Source: `attack_graph/models.py`, `AttackEdge`. Kind: D -/
structure AttackEdge where
  sourceId : String
  targetId : String
  deriving DecidableEq

/-- Source: `attack_graph/models.py`, `AttackGraph`. Kind: D -/
structure AttackGraph where
  graphId : String
  nodes : List AttackNode
  edges : List AttackEdge
  rootCauses : List String
  capabilities : List String
  impacts : List String

/-! ## The tests for cycles -/

/-- The edges whose ends are both listed. Kind: D -/
def edgesWithin (ids : List String) (edges : List AttackEdge) : List (String × String) :=
  (edges.filter fun e => e.sourceId ∈ ids ∧ e.targetId ∈ ids).map fun e => (e.sourceId, e.targetId)

namespace AttackGraphConstructionEngine

/-- Source: `attack_graph/engine.py`, `is_acyclic`. Kind: D -/
def isAcyclic (sets : SetOrder String) (nodes : List AttackNode) (edges : List AttackEdge) : Bool :=
  let nodeIds := sets.order (nodes.map (·.nodeId)).toFinset
  let visited := Topo.order nodeIds (edgesWithin nodeIds edges)
  visited.length == nodeIds.length

end AttackGraphConstructionEngine

namespace BreachSimulationEngine

/-- `graph.nodes` may be a dictionary or a list. Kind: D -/
inductive GraphNodes
  | dict (nodes : Dict String AttackNode)
  | list (nodes : List AttackNode)

/-- What `_is_dag` takes for the nodes. Kind: D -/
def GraphNodes.ids : GraphNodes → List String
  | .dict nodes => nodes.keys
  | .list nodes => nodes.map (·.nodeId)

/-- Source: `breach_simulation/engine.py`, `_is_dag`. Kind: D -/
def isDag (sets : SetOrder String) (graphNodes : GraphNodes) (edges : List AttackEdge) : Bool :=
  let nodes := sets.order graphNodes.ids.toFinset
  let visited := Topo.order nodes (edgesWithin nodes edges)
  visited.length == nodes.length

end BreachSimulationEngine

/-! ## The construction -/

namespace AttackGraphConstructionEngine

/-- What is added to the root causes at a node. Source: `attack_graph/engine.py`, `trace_root_causes`. Kind: D -/
def rootCausesAt (nodesDict : Dict String AttackNode) (curr : String) : List String :=
  match nodesDict.get? curr with
  | some node => if node.nodeType = .rootCause then [node.label] else []
  | none => []

/-- Nothing if the bound on the turns were too low. Source: `attack_graph/engine.py`, `trace_root_causes`. Kind: D -/
def traceRootCauses (targetId : String) (nodesDict : Dict String AttackNode) (parentMap : Dict String (List String)) :
    Option (List String) :=
  let parents := fun curr => parentMap.getD curr []
  let turns := 1 + pending (some : String → Option String) parents parentMap.keys []
  (flood (rootCausesAt nodesDict) parents turns [targetId] [] []).map sortedSet

/-- The loop over the edges. Source: `attack_graph/engine.py`, `build_graph`. Kind: D -/
def validateEdges (nodesDict : Dict String AttackNode) (parentMap : Dict String (List String)) :
    List AttackEdge → Except String (Dict String (List String))
  | [] => .ok parentMap
  | edge :: rest =>
    match nodesDict.get? edge.sourceId, nodesDict.get? edge.targetId with
    | some srcNode, some tgtNode =>
      if srcNode.nodeType = .rootCause ∧ tgtNode.nodeType = .impact then
        .error ("Direct edge from ROOT_CAUSE '" ++ srcNode.label ++ "' to IMPACT '" ++ tgtNode.label ++
          "' is forbidden. INV-C13-01 Violation.")
      else if srcNode.nodeType = .unknown ∨ srcNode.resolution = "UNKNOWN" then
        .error ("UNKNOWN node '" ++ srcNode.label ++ "' cannot generate capability edge. INV-C13-04 Violation.")
      else validateEdges nodesDict (parentMap.pushAt edge.targetId edge.sourceId) rest
    | _, _ => validateEdges nodesDict parentMap rest

/-- The last loop. A node of the type `IMPACT` that is no `ImpactNode` is traced, and the chain dropped.
Source: `attack_graph/engine.py`, `build_graph`. Kind: D -/
def populate (nodesDict : Dict String AttackNode) (parentMap : Dict String (List String)) (node : AttackNode) :
    Option AttackNode :=
  if node.rootCauseChain.isSome ∨ node.nodeType = .impact then
    (traceRootCauses node.nodeId nodesDict parentMap).map fun rcChain =>
      { node with rootCauseChain := node.rootCauseChain.map fun _ => rcChain }
  else some node

/-- The labels of the nodes of a type. Kind: D -/
def labelsOf (nodeType : NodeType) (nodes : List AttackNode) : List String :=
  (nodes.filter fun n => n.nodeType = nodeType).map (·.label)

/-- Source: `attack_graph/engine.py`, `build_graph`. Kind: D -/
def buildGraph (sets : SetOrder String) (graphId : String) (nodes : List AttackNode) (edges : List AttackEdge) :
    Option (Except String AttackGraph) :=
  let nodesDict := Dict.ofList (nodes.map fun n => (n.nodeId, n))
  if isAcyclic sets nodes edges = false then
    some (.error ("Attack graph '" ++ graphId ++ "' contains cycles. INV-C13-03 Violation: Graph must be acyclic (DAG)."))
  else
    match validateEdges nodesDict .empty edges with
    | .error message => some (.error message)
    | .ok parentMap =>
      (nodes.mapM (populate nodesDict parentMap)).map fun populated =>
        .ok { graphId := graphId
              nodes := populated
              edges := edges
              rootCauses := sortedSet (labelsOf .rootCause nodes)
              capabilities := sortedSet (labelsOf .capability nodes)
              impacts := sortedSet (labelsOf .impact nodes) }

end AttackGraphConstructionEngine

/-! ## Cycles -/

/-- An edge between two listed nodes. Kind: D -/
def EdgeBetween (ids : List String) (edges : List AttackEdge) (p c : String) : Prop :=
  p ∈ ids ∧ c ∈ ids ∧ ∃ e ∈ edges, e.sourceId = p ∧ e.targetId = c

/-- The edges between listed nodes have a directed cycle. Kind: D -/
def Cyclic (ids : List String) (edges : List AttackEdge) : Prop :=
  ∃ k, Relation.TransGen (EdgeBetween ids edges) k k

theorem mem_edgesWithin {ids : List String} {edges : List AttackEdge} {p c : String} :
    (p, c) ∈ edgesWithin ids edges ↔ EdgeBetween ids edges p c := by
  unfold edgesWithin EdgeBetween
  simp only [List.mem_map, List.mem_filter, decide_eq_true_eq, Prod.mk.injEq]
  constructor
  · grind
  · grind

theorem edgeBetween_congr {ids ids' : List String} (h : ∀ k, k ∈ ids ↔ k ∈ ids') (edges : List AttackEdge) :
    EdgeBetween ids edges = EdgeBetween ids' edges := by
  funext p c
  unfold EdgeBetween
  rw [h p, h c]

/-- The count reaches every node of the set just where there is no cycle. Kind: L -/
theorem length_order_within_iff (sets : SetOrder String) (ids : List String) (edges : List AttackEdge) :
    (Topo.order (sets.order ids.toFinset) (edgesWithin (sets.order ids.toFinset) edges)).length =
      (sets.order ids.toFinset).length ↔ ¬Cyclic ids edges := by
  have hrel : (fun p c => (p, c) ∈ edgesWithin (sets.order ids.toFinset) edges) = EdgeBetween ids edges := by
    rw [← edgeBetween_congr (fun k => sets.mem_order.trans List.mem_toFinset) edges]
    funext p c
    exact propext mem_edgesWithin
  rw [Topo.length_order_eq_iff (sets.nodup _) fun e he => ⟨(mem_edgesWithin.mp he).1, (mem_edgesWithin.mp he).2.1⟩, hrel]
  exact not_exists.symm

theorem AttackGraphConstructionEngine.isAcyclic_iff (sets : SetOrder String) (nodes : List AttackNode) (edges : List AttackEdge) :
    AttackGraphConstructionEngine.isAcyclic sets nodes edges = true ↔ ¬Cyclic (nodes.map (·.nodeId)) edges := by
  unfold AttackGraphConstructionEngine.isAcyclic
  rw [beq_iff_eq]
  exact length_order_within_iff sets _ edges

theorem BreachSimulationEngine.isDag_iff (sets : SetOrder String) (graphNodes : GraphNodes) (edges : List AttackEdge) :
    isDag sets graphNodes edges = true ↔ ¬Cyclic graphNodes.ids edges := by
  unfold isDag
  rw [beq_iff_eq]
  exact length_order_within_iff sets _ edges

/-- **The two tests agree where the nodes have the same identifiers, whatever the order of their sets.** Kind: P -/
theorem BreachSimulationEngine.isDag_eq_isAcyclic (sets sets' : SetOrder String) {graphNodes : GraphNodes} {nodes : List AttackNode}
    (h : ∀ k, k ∈ graphNodes.ids ↔ k ∈ nodes.map (·.nodeId)) (edges : List AttackEdge) :
    isDag sets' graphNodes edges = AttackGraphConstructionEngine.isAcyclic sets nodes edges := by
  have hcyclic : Cyclic graphNodes.ids edges ↔ Cyclic (nodes.map (·.nodeId)) edges := by
    unfold Cyclic
    rw [edgeBetween_congr h edges]
  rw [Bool.eq_iff_iff, isDag_iff, AttackGraphConstructionEngine.isAcyclic_iff, hcyclic]

/-! ## Edges -/

namespace AttackGraphConstructionEngine

/-- What no edge may be that leaves `src` for `tgt`. Kind: D -/
def Forbidden (src tgt : AttackNode) : Prop :=
  (src.nodeType = .rootCause ∧ tgt.nodeType = .impact) ∨ src.nodeType = .unknown ∨ src.resolution = "UNKNOWN"

variable {nodesDict : Dict String AttackNode} {parentMap parentMap' : Dict String (List String)} {edges : List AttackEdge}

/-- The loop over the edges fails just at a forbidden edge. Kind: L -/
theorem validateEdges_error_iff : (∃ message, validateEdges nodesDict parentMap edges = .error message) ↔
    ∃ e ∈ edges, ∃ src tgt, nodesDict.get? e.sourceId = some src ∧ nodesDict.get? e.targetId = some tgt ∧ Forbidden src tgt := by
  induction edges generalizing parentMap with
  | nil =>
    refine iff_of_false ?_ fun ⟨e, he, _⟩ => List.not_mem_nil he
    rintro ⟨message, h⟩
    cases h
  | cons edge rest ih =>
    rw [List.exists_mem_cons_iff]
    unfold validateEdges
    split
    · next src tgt hsrc htgt =>
        have hhead : (∃ src' tgt', some src = some src' ∧ some tgt = some tgt' ∧ Forbidden src' tgt') ↔ Forbidden src tgt := by
          simp
        rw [hsrc, htgt, hhead]
        split_ifs with hdirect hunknown
        · exact iff_of_true ⟨_, rfl⟩ (.inl (.inl hdirect))
        · exact iff_of_true ⟨_, rfl⟩ (.inl (.inr hunknown))
        · rw [ih, or_iff_right]
          rintro (h | h)
          · exact hdirect h
          · exact hunknown h
    · next hmissing =>
        rw [ih, or_iff_right]
        rintro ⟨src, tgt, hsrc, htgt, _⟩
        exact hmissing src tgt hsrc htgt

/-- The parents that are collected: the sources of the edges between listed nodes. Kind: L -/
theorem mem_parents_of_validateEdges (h : validateEdges nodesDict parentMap edges = .ok parentMap') (p c : String) :
    p ∈ parentMap'.getD c [] ↔ p ∈ parentMap.getD c [] ∨
      ((nodesDict.get? p).isSome ∧ (nodesDict.get? c).isSome ∧ ∃ e ∈ edges, e.sourceId = p ∧ e.targetId = c) := by
  induction edges generalizing parentMap with
  | nil =>
    obtain rfl := Except.ok.inj h
    simp
  | cons edge rest ih =>
    unfold validateEdges at h
    split at h
    · next src tgt hsrc htgt =>
        split_ifs at h
        rw [ih h]
        by_cases hhead : edge.sourceId = p ∧ edge.targetId = c
        · simp_all [Dict.pushAt, Dict.getD_set_self]
        · have hpush : p ∈ (parentMap.pushAt edge.targetId edge.sourceId).getD c [] ↔ p ∈ parentMap.getD c [] := by
            unfold Dict.pushAt
            by_cases hc : c = edge.targetId
            · subst hc
              rw [Dict.getD_set_self, List.mem_append, List.mem_singleton, or_iff_left]
              rintro rfl
              exact hhead ⟨rfl, rfl⟩
            · rw [Dict.getD_set_ne _ hc]
          rw [hpush, List.exists_mem_cons_iff, or_iff_right hhead]
    · next hmissing =>
        rw [ih h, List.exists_mem_cons_iff]
        apply or_congr_right
        constructor
        · rintro ⟨hp, hc, he⟩
          exact ⟨hp, hc, .inr he⟩
        · grind [Option.isSome_iff_exists]

/-! ## Root causes -/

theorem get?_nodesDict {nodes : List AttackNode} (hids : (nodes.map (·.nodeId)).Nodup) {k : String} {n : AttackNode} :
    (Dict.ofList (nodes.map fun n => (n.nodeId, n))).get? k = some n ↔ n ∈ nodes ∧ n.nodeId = k := by
  have hkeys : ((nodes.map fun n => (n.nodeId, n)).map Prod.fst).Nodup := by
    rw [List.map_map]
    exact hids
  rw [← Dict.mem_entries, Dict.entries_ofList hkeys, List.mem_map]
  simp only [Prod.mk.injEq]
  constructor
  · rintro ⟨m, hm, rfl, rfl⟩
    exact ⟨hm, rfl⟩
  · rintro ⟨hn, rfl⟩
    exact ⟨n, hn, rfl, rfl⟩

theorem isSome_get?_nodesDict {nodes : List AttackNode} (hids : (nodes.map (·.nodeId)).Nodup) {k : String} :
    ((Dict.ofList (nodes.map fun n => (n.nodeId, n))).get? k).isSome ↔ k ∈ nodes.map (·.nodeId) := by
  rw [Option.isSome_iff_exists, List.mem_map]
  simp only [get?_nodesDict hids]

/-- A sorted set of labels: those of the root causes from which a node is reachable. Kind: D -/
structure IsRootCauseChain (nodes : List AttackNode) (edges : List AttackEdge) (id : String) (chain : List String) : Prop where
  sorted : chain.Pairwise (· < ·)
  mem_iff : ∀ label, label ∈ chain ↔ ∃ root ∈ nodes, root.nodeType = .rootCause ∧ root.label = label ∧
    Relation.ReflTransGen (EdgeBetween (nodes.map (·.nodeId)) edges) root.nodeId id

theorem mem_rootCausesAt {k label : String} : label ∈ rootCausesAt nodesDict k ↔
    ∃ root, nodesDict.get? k = some root ∧ root.nodeType = .rootCause ∧ root.label = label := by
  unfold rootCausesAt
  rcases nodesDict.get? k with _ | node
  · simp
  · grind

/-- **A trace ends, and what it returns is the chain.** Source: `attack_graph/engine.py`, `trace_root_causes`. Kind: P -/
theorem traceRootCauses_spec {nodes : List AttackNode} (hids : (nodes.map (·.nodeId)).Nodup)
    (h : validateEdges (Dict.ofList (nodes.map fun n => (n.nodeId, n))) .empty edges = .ok parentMap) (id : String) :
    ∃ chain, traceRootCauses id (Dict.ofList (nodes.map fun n => (n.nodeId, n))) parentMap = some chain ∧
      IsRootCauseChain nodes edges id chain := by
  set dict := Dict.ofList (nodes.map fun n => (n.nodeId, n)) with hdict
  have hparents : ∀ p c, p ∈ parentMap.getD c [] ↔ EdgeBetween (nodes.map (·.nodeId)) edges p c := by
    intro p c
    rw [mem_parents_of_validateEdges h, hdict, isSome_get?_nodesDict hids, isSome_get?_nodesDict hids]
    exact or_iff_right List.not_mem_nil
  have hback : ∀ k, Relation.ReflTransGen (fun a b => b ∈ parentMap.getD a []) id k ↔
      Relation.ReflTransGen (EdgeBetween (nodes.map (·.nodeId)) edges) k id := by
    intro k
    rw [← Relation.reflTransGen_swap]
    have hrel : (fun a b => b ∈ parentMap.getD a []) = Function.swap (EdgeBetween (nodes.map (·.nodeId)) edges) := by
      funext a b
      exact propext (hparents b a)
    rw [hrel]
  have hkeys : ∀ k, k ∉ parentMap.keys → parentMap.getD k [] = [] := by
    intro k hk
    rw [Dict.getD, Dict.get?_eq_none.mpr hk]
    rfl
  have hstart : Flooding (rootCausesAt dict) (fun k => parentMap.getD k []) id [id] [] [] := by
    refine ⟨fun k hk => ?_, fun a ha => absurd ha List.not_mem_nil, .inr List.mem_cons_self, by simp⟩
    rcases hk with hk | hk
    · exact absurd hk List.not_mem_nil
    · rw [List.mem_singleton.mp hk]
  have hends : (flood (rootCausesAt dict) (fun k => parentMap.getD k [])
      (1 + pending (some : String → Option String) (fun k => parentMap.getD k []) parentMap.keys []) [id] [] []).isSome := by
    apply flood_isSome hkeys
    rw [List.length_singleton]
  obtain ⟨causes, hcauses⟩ := Option.isSome_iff_exists.mp hends
  refine ⟨sortedSet causes, ?_, pairwise_sortedSet causes, fun label => ?_⟩
  · simp_all [traceRootCauses]
  · rw [mem_sortedSet, mem_of_flood hstart hcauses]
    constructor
    · rintro ⟨k, hk, hlabel⟩
      obtain ⟨root, hroot, htype, rfl⟩ := mem_rootCausesAt.mp hlabel
      obtain ⟨hmem, rfl⟩ := (get?_nodesDict hids).mp hroot
      exact ⟨root, hmem, htype, rfl, (hback _).mp hk⟩
    · rintro ⟨root, hmem, htype, rfl, hreach⟩
      exact ⟨root.nodeId, (hback _).mpr hreach, mem_rootCausesAt.mpr ⟨root, (get?_nodesDict hids).mpr ⟨hmem, rfl⟩, htype, rfl⟩⟩

/-! ## The whole construction -/

/-- Some edge between listed nodes is forbidden. Kind: D -/
def HasForbiddenEdge (nodes : List AttackNode) (edges : List AttackEdge) : Prop :=
  ∃ e ∈ edges, ∃ src ∈ nodes, ∃ tgt ∈ nodes, src.nodeId = e.sourceId ∧ tgt.nodeId = e.targetId ∧ Forbidden src tgt

/-- A node as it is returned: an impact has its chain, and nothing else is changed. Kind: D -/
structure IsPopulated (nodes : List AttackNode) (edges : List AttackEdge) (node node' : AttackNode) : Prop where
  kept : node' = { node with rootCauseChain := node'.rootCauseChain }
  impacts : node'.rootCauseChain.isSome ↔ node.rootCauseChain.isSome
  chain : ∀ chain, node'.rootCauseChain = some chain → IsRootCauseChain nodes edges node.nodeId chain

theorem validateEdges_error_iff_forbidden {nodes : List AttackNode} (edges : List AttackEdge)
    (parentMap : Dict String (List String)) (hids : (nodes.map (·.nodeId)).Nodup) :
    (∃ message, validateEdges (Dict.ofList (nodes.map fun n => (n.nodeId, n))) parentMap edges = .error message) ↔
      HasForbiddenEdge nodes edges := by
  rw [validateEdges_error_iff]
  unfold HasForbiddenEdge
  simp only [get?_nodesDict hids]
  constructor
  · grind
  · grind

theorem populate_spec {nodes : List AttackNode} (hids : (nodes.map (·.nodeId)).Nodup)
    (h : validateEdges (Dict.ofList (nodes.map fun n => (n.nodeId, n))) .empty edges = .ok parentMap) (node : AttackNode) :
    ∃ node', populate (Dict.ofList (nodes.map fun n => (n.nodeId, n))) parentMap node = some node' ∧
      IsPopulated nodes edges node node' := by
  obtain ⟨chain, htrace, hchain⟩ := traceRootCauses_spec hids h node.nodeId
  unfold populate
  split_ifs with himpact
  · rw [htrace]
    refine ⟨_, rfl, rfl, ?_, ?_⟩
    · simp
    · simp_all
  · refine ⟨node, rfl, rfl, Iff.rfl, fun chain' h' => ?_⟩
    exact absurd (.inl (h' ▸ rfl)) himpact

/-- The loop over the nodes ends, each of them populated. Kind: L -/
theorem mapM_populate {nodes : List AttackNode} (hids : (nodes.map (·.nodeId)).Nodup)
    (h : validateEdges (Dict.ofList (nodes.map fun n => (n.nodeId, n))) .empty edges = .ok parentMap) (l : List AttackNode) :
    ∃ l', l.mapM (populate (Dict.ofList (nodes.map fun n => (n.nodeId, n))) parentMap) = some l' ∧
      List.Forall₂ (IsPopulated nodes edges) l l' := by
  induction l with
  | nil => exact ⟨[], rfl, .nil⟩
  | cons node l ih =>
    obtain ⟨node', hnode', hpopulated⟩ := populate_spec hids h node
    obtain ⟨l', hl', hrest⟩ := ih
    refine ⟨node' :: l', ?_, .cons hpopulated hrest⟩
    rw [List.mapM_cons, hnode', hl']
    rfl

/-- **A graph is refused just for a cycle or a forbidden edge between its nodes. Otherwise every impact has the root causes
that lead to it, and the other engine finds no cycle either.**
Source: `attack_graph/engine.py`, `build_graph`; `breach_simulation/engine.py`, `_is_dag`. Kind: P -/
theorem buildGraph_sound (sets sets' : SetOrder String) (graphId : String) (nodes : List AttackNode) (edges : List AttackEdge)
    (hids : (nodes.map (·.nodeId)).Nodup) :
    ∃ outcome, buildGraph sets graphId nodes edges = some outcome ∧
      ((∃ message, outcome = .error message) ↔ Cyclic (nodes.map (·.nodeId)) edges ∨ HasForbiddenEdge nodes edges) ∧
      (∀ graph, outcome = .ok graph → List.Forall₂ (IsPopulated nodes edges) nodes graph.nodes) ∧
      ∀ graphNodes : BreachSimulationEngine.GraphNodes, (∀ k, k ∈ graphNodes.ids ↔ k ∈ nodes.map (·.nodeId)) →
        BreachSimulationEngine.isDag sets' graphNodes edges = isAcyclic sets nodes edges := by
  have hagree : ∀ graphNodes : BreachSimulationEngine.GraphNodes, (∀ k, k ∈ graphNodes.ids ↔ k ∈ nodes.map (·.nodeId)) →
      BreachSimulationEngine.isDag sets' graphNodes edges = isAcyclic sets nodes edges :=
    fun graphNodes h => BreachSimulationEngine.isDag_eq_isAcyclic sets sets' h edges
  have hacyclic := isAcyclic_iff sets nodes edges
  unfold buildGraph
  dsimp only
  split_ifs with hcycle
  · refine ⟨_, rfl, iff_of_true ⟨_, rfl⟩ (.inl ?_), (fun graph h => by cases h), hagree⟩
    by_contra hnot
    rw [hacyclic.mpr hnot] at hcycle
    cases hcycle
  · have hnot : ¬Cyclic (nodes.map (·.nodeId)) edges := hacyclic.mp (by simpa using hcycle)
    have hforbidden := validateEdges_error_iff_forbidden edges .empty hids
    rcases hvalid : validateEdges (Dict.ofList (nodes.map fun n => (n.nodeId, n))) .empty edges with message | parentMap
    · rw [hvalid] at hforbidden ⊢
      exact ⟨_, rfl, iff_of_true ⟨_, rfl⟩ (.inr (hforbidden.mp ⟨message, rfl⟩)), (fun graph h => by cases h), hagree⟩
    · obtain ⟨populated, hpopulated, hall⟩ := mapM_populate hids hvalid nodes
      rw [hvalid] at hforbidden ⊢
      dsimp only
      rw [hpopulated]
      refine ⟨_, rfl, iff_of_false (fun ⟨_, h⟩ => by cases h) ?_, fun graph hgraph => ?_, hagree⟩
      · rintro (h | h)
        · exact hnot h
        · obtain ⟨_, h⟩ := hforbidden.mpr h
          cases h
      · obtain rfl := Except.ok.inj hgraph
        exact hall

/-- A flaw that leads to an impact by a capability. Kind: D -/
def chainOfThree : List AttackNode :=
  [⟨"n1", .rootCause, "SSRF", "VULNERABLE", none⟩, ⟨"n2", .capability, "METADATA_ACCESS", "VULNERABLE", none⟩,
    ⟨"n3", .impact, "CREDENTIAL_COMPROMISE", "VULNERABLE", some []⟩]

/-- With two parallel edges, and one to a node that is not listed. Kind: T -/
theorem buildGraph_sound_chain :
    ∃ outcome, buildGraph (SetOrder.sorted String) "CHAIN" chainOfThree [⟨"n1", "n2"⟩, ⟨"n1", "n2"⟩, ⟨"n2", "n3"⟩, ⟨"n9", "n1"⟩] =
        some outcome ∧
      ((∃ message, outcome = .error message) ↔
        Cyclic (chainOfThree.map (·.nodeId)) [⟨"n1", "n2"⟩, ⟨"n1", "n2"⟩, ⟨"n2", "n3"⟩, ⟨"n9", "n1"⟩] ∨
          HasForbiddenEdge chainOfThree [⟨"n1", "n2"⟩, ⟨"n1", "n2"⟩, ⟨"n2", "n3"⟩, ⟨"n9", "n1"⟩]) := by
  obtain ⟨outcome, houtcome, hraises, -, -⟩ := buildGraph_sound (SetOrder.sorted String) (SetOrder.sorted String) "CHAIN" chainOfThree
    [⟨"n1", "n2"⟩, ⟨"n1", "n2"⟩, ⟨"n2", "n3"⟩, ⟨"n9", "n1"⟩] (by decide +kernel)
  exact ⟨outcome, houtcome, hraises⟩

end AttackGraphConstructionEngine

end KarsaSec.Analysis
