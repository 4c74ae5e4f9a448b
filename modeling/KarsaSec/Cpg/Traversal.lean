import KarsaSec.Found.Worklist
import KarsaSec.Query.Model

/-!
# Traversal of the merged graph

`cpg/traversal.py`: depth-first and breadth-first search along the edges and against them, reachability, and the
shortest path as edges.

* The loops are given by their steps. `dfs`, `bfs` and `reverseDfs` are one loop with two worklists and two
  directions; `reachability` takes a node again as often as the queue has it; `shortestPath` visits a node when it
  queues it.
* `traversals_correct`: where the edges join nodes of the graph, every loop returns from every node, and what it
  returns is what its name says.
-/

namespace KarsaSec.Cpg.GraphTraversal

open KarsaSec.Found
open KarsaSec.Query (CPGEdge CPGGraph CPGNode)

variable {F : Type} (g : CPGGraph F)

/-! ## The loops -/

/-- `stack.append` for one node after the other; the top of the stack is in front. Kind: D -/
def push (new stack : List String) : List String := new.reverse ++ stack

/-- `queue.append` for one node after the other. Kind: D -/
def enqueue (new queue : List String) : List String := queue ++ new

/-- The targets of the outgoing edges. Kind: D -/
def forward (nodeId : String) : List String := (g.getOutgoingEdges nodeId).map CPGEdge.targetId

/-- The sources of the incoming edges. Kind: D -/
def backward (nodeId : String) : List String := (g.getIncomingEdges nodeId).map CPGEdge.sourceId

/-- The state before the first turn of a search. Kind: D -/
def opened (startId : String) : Visit String (CPGNode F) := ⟨[startId], [], []⟩

/-- One turn. Source: `traversal.py`, `dfs`. Kind: D -/
def dfs : Visit String (CPGNode F) → Visit String (CPGNode F) ⊕ List (CPGNode F) :=
  visitStep push g.nodes.get? (forward g)

/-- One turn. Source: `traversal.py`, `bfs`. Kind: D -/
def bfs : Visit String (CPGNode F) → Visit String (CPGNode F) ⊕ List (CPGNode F) :=
  visitStep enqueue g.nodes.get? (forward g)

/-- One turn. Source: `traversal.py`, `reverse_dfs`. Kind: D -/
def reverseDfs : Visit String (CPGNode F) → Visit String (CPGNode F) ⊕ List (CPGNode F) :=
  visitStep push g.nodes.get? (backward g)

/-- One turn; the queue and the visited set. Source: `traversal.py`, `reachability`. Kind: D -/
def reachability (targetId : String) : List String × List String → (List String × List String) ⊕ Bool :=
  seekStep (forward g) targetId

/-- The state of the search for a path: the queue with the paths, and the visited set. Kind: D -/
abbrev PathQueue := List (String × List CPGEdge) × List String

/-- One turn; the first turn returns where there is nothing to search.
Source: `traversal.py`, `shortest_path`
Kind: D -/
def shortestPath (startId targetId : String) (s : PathQueue) : PathQueue ⊕ List CPGEdge :=
  if startId = targetId then .inr [] else edgeStep g.getOutgoingEdges CPGEdge.targetId targetId s

/-! ## What they are for -/

/-- An edge leads from one node to the other. Kind: D -/
def Linked (a b : String) : Prop := ∃ e ∈ g.edges, e.sourceId = a ∧ e.targetId = b

/-- A way along the edges. Kind: D -/
def Reachable : String → String → Prop := Relation.ReflTransGen (Linked g)

/-- Edges of the graph one after the other, from a node to a node. Kind: D -/
def EdgePath : String → String → List CPGEdge → Prop
  | a, b, [] => a = b
  | a, b, e :: es => (e ∈ g.edges ∧ e.sourceId = a) ∧ EdgePath e.targetId b es

/-- The edges join nodes of the graph. Kind: D -/
def Joined : Prop := ∀ e ∈ g.edges, g.nodes.contains e.sourceId = true ∧ g.nodes.contains e.targetId = true

/-- The nodes of the graph with this property, each once, and nothing else. Kind: D -/
structure Exactly (P : String → Prop) (result : List (CPGNode F)) : Prop where
  once : (result.map CPGNode.id).Nodup
  mem_iff : ∀ n, n ∈ result ↔ g.nodes.get? n.id = some n ∧ P n.id

/-- Every loop returns from the node, and what it returns is what its name says. Kind: D -/
def Correct (startId : String) : Prop :=
  ∃ ds bs rs, Returns (dfs g) (opened startId) ds ∧ Exactly g (Reachable g startId) ds ∧
    Returns (bfs g) (opened startId) bs ∧ Exactly g (Reachable g startId) bs ∧
    Returns (reverseDfs g) (opened startId) rs ∧ Exactly g (fun i => Reachable g i startId) rs ∧
    ∀ targetId, (∃ b, Returns (reachability g targetId) ([startId], []) b ∧
        (b = true ↔ ∃ n ∈ ds, n.id = targetId) ∧ (b = true ↔ ∃ n ∈ bs, n.id = targetId)) ∧
      ∃ path, Returns (shortestPath g startId targetId) ([(startId, [])], [startId]) path ∧
        (startId ≠ targetId → Reachable g startId targetId → EdgePath g startId targetId path ∧
          ∀ es, EdgePath g startId targetId es → path.length ≤ es.length)

variable {g} {a b : String}

theorem mem_forward : b ∈ forward g a ↔ Linked g a b := by
  unfold forward CPGGraph.getOutgoingEdges Linked
  rw [g.out_eq]
  simp [and_assoc]

theorem mem_backward : b ∈ backward g a ↔ Linked g b a := by
  unfold backward CPGGraph.getIncomingEdges Linked
  rw [g.in_eq]
  simp only [List.mem_map, List.mem_filter, decide_eq_true_eq]
  constructor
  · grind
  · grind

theorem reaches_forward : Reaches (forward g) a b ↔ Reachable g a b := by
  have hlink : (fun a b => b ∈ forward g a) = Linked g := by
    funext a b
    exact propext mem_forward
  unfold Reaches Reachable
  rw [hlink]

theorem reaches_backward : Reaches (backward g) a b ↔ Reachable g b a := by
  have hlink : (fun a b => b ∈ backward g a) = Function.swap (Linked g) := by
    funext a b
    exact propext mem_backward
  unfold Reaches Reachable
  rw [hlink, Relation.reflTransGen_swap]

/-- What can be reached from a node of the graph is one. Kind: L -/
theorem Joined.present (h : Joined g) (ha : g.nodes.contains a = true) (hreach : Reachable g a b) :
    g.nodes.contains b = true := by
  induction hreach with
  | refl => exact ha
  | tail _ hlink _ =>
    obtain ⟨e, he, -, rfl⟩ := hlink
    exact (h e he).2

theorem Joined.present_back (h : Joined g) (hb : g.nodes.contains b = true) (hreach : Reachable g a b) :
    g.nodes.contains a = true := by
  rcases hreach.cases_head with rfl | ⟨c, ⟨e, he, rfl, -⟩, -⟩
  · exact hb
  · exact (h e he).1

theorem edgePath_iff {es : List CPGEdge} : Leads g.getOutgoingEdges CPGEdge.targetId a b es ↔ EdgePath g a b es := by
  induction es generalizing a with
  | nil => exact Iff.rfl
  | cons e es ih =>
    unfold Leads EdgePath
    rw [ih]
    unfold CPGGraph.getOutgoingEdges
    rw [g.out_eq, List.mem_filter, decide_eq_true_eq]

theorem exists_edgePath (h : Reachable g a b) : ∃ es, EdgePath g a b es := by
  induction h using Relation.ReflTransGen.head_induction_on with
  | refl => exact ⟨[], rfl⟩
  | head hlink _ ih =>
    obtain ⟨es, hes⟩ := ih
    obtain ⟨e, he, hso, rfl⟩ := hlink
    exact ⟨e :: es, ⟨he, hso⟩, hes⟩

/-! ## The searches return -/

/-- The nodes under a list of ids have these ids. Kind: L -/
theorem map_id_of_values {result : List (CPGNode F)} : ∀ {ids : List String},
    result.map some = ids.map g.nodes.get? → result.map CPGNode.id = ids := by
  induction result with
  | nil =>
    intro ids h
    exact (List.map_eq_nil_iff.mp h.symm).symm
  | cons n result ih =>
    intro ids h
    rcases ids with _ | ⟨i, ids⟩
    · cases h
    · rw [List.map_cons, List.map_cons] at h
      obtain ⟨hn, hrest⟩ := List.cons.inj h
      rw [List.map_cons, g.keyed i n hn.symm, ih hrest]

/-- A search with any worklist, in either direction. Kind: L -/
theorem search_returns {put : List String → List String → List String}
    (hput : ∀ new work x, x ∈ put new work ↔ x ∈ new ∨ x ∈ work) {next : String → List String} {startId : String}
    (hpresent : ∀ c, Reaches next startId c → g.nodes.contains c = true) :
    ∃ result, Returns (visitStep put g.nodes.get? next) (opened startId) result ∧
      Exactly g (Reaches next startId) result := by
  have hall : ∀ c, Reaches next startId c → c ∈ g.nodes.keys := fun c hc => Dict.get?_isSome.mp (hpresent c hc)
  obtain ⟨ids, result, hreturns, hnodup, hmem, hvalues⟩ := visit_total hput hpresent hall
  have hids := map_id_of_values hvalues
  refine ⟨result, hreturns, ?_, fun n => ⟨fun hn => ?_, fun ⟨hn, hreach⟩ => ?_⟩⟩
  · rw [hids]
    exact hnodup
  · have hid : n.id ∈ ids := hids ▸ List.mem_map_of_mem hn
    have hsome : some n ∈ ids.map g.nodes.get? := hvalues ▸ List.mem_map_of_mem hn
    obtain ⟨i, -, hi⟩ := List.mem_map.mp hsome
    have hkey := g.keyed i n hi
    rw [hkey]
    rw [hkey] at hid
    exact ⟨hi, (hmem i).mp hid⟩
  · grind [List.mem_map_of_mem]

theorem mem_push (new stack : List String) (x : String) : x ∈ push new stack ↔ x ∈ new ∨ x ∈ stack := by
  simp [push]

theorem mem_enqueue (new queue : List String) (x : String) : x ∈ enqueue new queue ↔ x ∈ new ∨ x ∈ queue := by
  simp [enqueue, or_comm]

theorem Exactly.congr {P Q : String → Prop} {result : List (CPGNode F)} (h : Exactly g P result) (hpq : ∀ i, P i ↔ Q i) :
    Exactly g Q result :=
  ⟨h.once, fun n => (h.mem_iff n).trans (and_congr_right fun _ => hpq n.id)⟩

/-- A node is in the result of a search exactly when it can be reached. Kind: L -/
theorem Exactly.exists_iff {P : String → Prop} {result : List (CPGNode F)} (h : Exactly g P result)
    (hpresent : ∀ i, P i → g.nodes.contains i = true) (i : String) : (∃ n ∈ result, n.id = i) ↔ P i := by
  constructor
  · rintro ⟨n, hn, rfl⟩
    exact ((h.mem_iff n).mp hn).2
  · intro hi
    obtain ⟨n, hn⟩ := Option.isSome_iff_exists.mp (hpresent i hi)
    obtain rfl := g.keyed i n hn
    exact ⟨n, (h.mem_iff n).mpr ⟨hn, hi⟩, rfl⟩

/-- **The traversals return, and with what can be reached.** Kind: P -/
theorem traversals_correct (hjoined : Joined g) {startId : String} (hstart : g.nodes.contains startId = true) :
    Correct g startId := by
  have hforth : ∀ c, Reachable g startId c → g.nodes.contains c = true := fun c hc => hjoined.present hstart hc
  have hsearch : ∀ put : List String → List String → List String,
      (∀ new work x, x ∈ put new work ↔ x ∈ new ∨ x ∈ work) →
      ∃ result, Returns (visitStep put g.nodes.get? (forward g)) (opened startId) result ∧
        Exactly g (Reachable g startId) result := by
    intro put hput
    obtain ⟨result, hreturns, hexact⟩ := search_returns hput fun c hc => hforth c (reaches_forward.mp hc)
    exact ⟨result, hreturns, hexact.congr fun i => reaches_forward⟩
  obtain ⟨ds, hds, hdsExact⟩ := hsearch push mem_push
  obtain ⟨bs, hbs, hbsExact⟩ := hsearch enqueue mem_enqueue
  obtain ⟨rs, hrs, hrsExact⟩ := @search_returns F g push mem_push (backward g) startId
    fun c hc => hjoined.present_back hstart (reaches_backward.mp hc)
  refine ⟨ds, bs, rs, hds, hdsExact, hbs, hbsExact, hrs, hrsExact.congr fun i => reaches_backward, fun targetId => ⟨?_, ?_⟩⟩
  · have hall : ∀ c, Reaches (forward g) startId c → c ∈ g.nodes.keys :=
      fun c hc => Dict.get?_isSome.mp (hforth c (reaches_forward.mp hc))
    obtain ⟨b, hreturns, hb⟩ := @seek_total String _ (forward g) targetId startId _ hall
    refine ⟨b, hreturns, ?_, ?_⟩
    · rw [hb, reaches_forward, hdsExact.exists_iff hforth]
    · rw [hb, reaches_forward, hbsExact.exists_iff hforth]
  · by_cases heq : startId = targetId
    · refine ⟨[], .of_result ?_, fun hne => absurd heq hne⟩
      unfold shortestPath
      rw [if_pos heq]
    · have hclosed : ∀ c ∈ g.nodes.keys, ∀ e ∈ g.getOutgoingEdges c, e.targetId ∈ g.nodes.keys := by
        intro c _ e he
        unfold CPGGraph.getOutgoingEdges at he
        rw [g.out_eq] at he
        exact Dict.get?_isSome.mp (hjoined e (List.mem_of_mem_filter he)).2
      obtain ⟨path, hreturns, hpath, hleast⟩ := edge_total (Dict.get?_isSome.mp hstart) hclosed heq
      have hstep : shortestPath g startId targetId = edgeStep g.getOutgoingEdges CPGEdge.targetId targetId := by
        funext s
        unfold shortestPath
        rw [if_neg heq]
      rw [hstep]
      refine ⟨path, hreturns, fun _ hreach => ?_⟩
      obtain ⟨es, hes⟩ := exists_edgePath hreach
      refine ⟨edgePath_iff.mp (hpath (hleast es (edgePath_iff.mpr hes)).1), fun es' hes' => ?_⟩
      exact (hleast es' (edgePath_iff.mpr hes')).2

/-- Two nodes on a cycle and one off it. Kind: D -/
def lasso : CPGGraph Empty :=
  [("a", "b"), ("b", "a"), ("b", "c")].foldl (fun g e => ((g.addNode ⟨e.1, .ast, e.1, "", 1, 0, "Generic", [], .empty⟩).addNode
    ⟨e.2, .ast, e.2, "", 1, 0, "Generic", [], .empty⟩).addEdge ⟨e.1, e.2, .cfgFlow⟩) .empty

theorem lasso_correct : Correct lasso "a" := traversals_correct (by unfold Joined; decide +kernel) (by decide +kernel)

end KarsaSec.Cpg.GraphTraversal
