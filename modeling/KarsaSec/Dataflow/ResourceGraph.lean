import KarsaSec.Found.SimplePaths

/-!
# The resource graph

Files and their inclusions, of `graph/resource_graph.py`.

* `ResourceEdge` and `ResourceGraph` are the records; `getOutgoing` lists the edges of a node in the order they
  were added.
* `findIncludeChain` searches depth first, each branch with its own set of visited files.
* `findIncludeChain_isSome_iff`: the search finds a chain exactly when the inclusions lead to the target.
* `findIncludeChain_spec`: what it finds is a chain of inclusions without a repeated file.
-/

namespace KarsaSec.Dataflow

open KarsaSec.Found

/-- Order of definition and use. Source: `resource_graph.py`, `EvaluationOrder`. Kind: D -/
inductive EvaluationOrder
  | definedBeforeUse
  | definedAfterUse
  | conditionalDefinition
  | unknownOrder
  deriving DecidableEq, Repr

/-- Kinds of edges. Source: `resource_graph.py`, `ResourceEdgeKind`. Kind: D -/
inductive ResourceEdgeKind
  | includes
  | defines
  | invokes
  | dependsOn
  deriving DecidableEq, Repr

/-- A directed relationship. Source: `resource_graph.py`, `ResourceEdge`. Kind: D -/
structure ResourceEdge where
  sourceId : String
  targetId : String
  kind : ResourceEdgeKind
  evaluationOrder : EvaluationOrder := .definedBeforeUse
  condition : String := ""
  deriving DecidableEq, Repr

/-- The graph as its list of edges. Source: `resource_graph.py`, `ResourceGraph`. Kind: D -/
structure ResourceGraph where
  edges : List ResourceEdge := []
  deriving DecidableEq, Repr

namespace ResourceGraph

variable (graph : ResourceGraph)

/-- Source: `resource_graph.py`, `add_edge`. Kind: D -/
def addEdge (edge : ResourceEdge) : ResourceGraph where
  edges := graph.edges ++ [edge]

/-- Source: `resource_graph.py`, `get_outgoing`. Kind: D -/
def getOutgoing (sourceId : String) : List ResourceEdge :=
  graph.edges.filter fun edge => edge.sourceId = sourceId

/-- The search below a file; the fuel is the depth that is left.
Source: `resource_graph.py`, `find_include_chain`
Kind: D -/
def findIncludeChainFrom (targetFile : String) : ℕ → List String → String → Option (List String)
  | 0, _, _ => none
  | n + 1, visited, startFile =>
    if startFile ∈ visited then none
    else if startFile = targetFile then some [startFile]
    else
      (graph.getOutgoing startFile).findSome? fun edge =>
        if edge.kind = .includes then
          (findIncludeChainFrom targetFile n (startFile :: visited) edge.targetId).map (startFile :: ·)
        else none

/-- Source: `resource_graph.py`, `find_include_chain`. Kind: D -/
def findIncludeChain (startFile targetFile : String) : Option (List String) :=
  graph.findIncludeChainFrom targetFile (graph.edges.length + 1) [] startFile

/-- A file includes another. Kind: D -/
def Includes (a b : String) : Prop :=
  ∃ edge ∈ graph.edges, edge.kind = .includes ∧ edge.sourceId = a ∧ edge.targetId = b

variable {graph}

/-- A chain found below a file goes on from the file, outside the visited ones. Kind: L -/
theorem simple_of_findIncludeChainFrom {target start : String} {n : ℕ} {visited chain : List String}
    (h : graph.findIncludeChainFrom target n visited start = some chain) :
    Simple visited start target chain ∧ chain.IsChain graph.Includes := by
  induction n generalizing visited start chain with
  | zero => cases h
  | succ n ih =>
    rw [findIncludeChainFrom] at h
    by_cases hvisited : start ∈ visited
    · rw [if_pos hvisited] at h
      cases h
    rw [if_neg hvisited] at h
    by_cases htarget : start = target
    · rw [if_pos htarget] at h
      subst htarget
      obtain rfl := Option.some.inj h
      refine ⟨⟨rfl, rfl, List.nodup_singleton start, fun x hx => ?_⟩, List.isChain_singleton start⟩
      rw [List.mem_singleton.mp hx]
      exact hvisited
    rw [if_neg htarget] at h
    obtain ⟨edge, hedge, hsome⟩ := List.exists_of_findSome?_eq_some h
    obtain ⟨hmem, hsource⟩ := List.mem_filter.mp hedge
    by_cases hkind : edge.kind = .includes
    · rw [if_pos hkind] at hsome
      obtain ⟨rest, hrest, rfl⟩ := Option.map_eq_some_iff.mp hsome
      obtain ⟨hsimple, hchain⟩ := ih hrest
      obtain ⟨more, rfl⟩ := List.head?_eq_some_iff.mp hsimple.head
      have hincludes : graph.Includes start edge.targetId := ⟨edge, hmem, hkind, of_decide_eq_true hsource, rfl⟩
      have hrest : Simple (visited ++ [start]) edge.targetId target (edge.targetId :: more) :=
        hsimple.of_seen fun x hx => (List.mem_append.mp hx).elim (List.mem_cons_of_mem start) fun hx =>
          List.mem_singleton.mp hx ▸ List.mem_cons_self
      exact ⟨(simple_cons_iff hvisited).mpr hrest, List.isChain_cons_cons.mpr ⟨hincludes, hchain⟩⟩
    · rw [if_neg hkind] at hsome
      cases hsome

/-- The files that a file includes. Kind: D -/
def includeHeads (graph : ResourceGraph) (a : String) : List String :=
  (graph.edges.filter fun edge => edge.kind = .includes ∧ edge.sourceId = a).map ResourceEdge.targetId

theorem mem_includeHeads {a b : String} : b ∈ graph.includeHeads a ↔ graph.Includes a b := by
  simp only [includeHeads, Includes, List.mem_map, List.mem_filter, decide_eq_true_eq, and_assoc]

/-- A chain outside the visited files is found, when the fuel covers the files that are left. Kind: L -/
theorem isSome_of_simple {target start : String} {files : List String} {n : ℕ} {visited chain : List String}
    (hfiles : ∀ a b, graph.Includes a b → b ∈ files) (hstart : start ∈ files) (hn : unvisited files visited ≤ n)
    (hsimple : Simple visited start target chain) (hchain : chain.IsChain graph.Includes) :
    (graph.findIncludeChainFrom target n visited start).isSome := by
  have hfresh : start ∉ visited := hsimple.unseen start (List.mem_of_mem_head? hsimple.head)
  have hless : unvisited files (visited ++ [start]) < unvisited files visited := unvisited_lt hstart hfresh
  induction n generalizing visited start chain with
  | zero => exact absurd (Nat.lt_of_lt_of_le hless hn) (Nat.not_lt_zero _)
  | succ n ih =>
    rw [findIncludeChainFrom, if_neg hfresh]
    by_cases htarget : start = target
    · rw [if_pos htarget, Option.isSome_some]
    rw [if_neg htarget, List.findSome?_isSome_iff]
    obtain ⟨rest, rfl⟩ := List.head?_eq_some_iff.mp hsimple.head
    rcases rest with _ | ⟨b, rest⟩
    · exact absurd (Option.some.inj hsimple.last) htarget
    obtain ⟨hincludes, hchain⟩ := List.isChain_cons_cons.mp hchain
    have hsame : ∀ x, x ∈ start :: visited ↔ x ∈ visited ++ [start] := fun x => by
      rw [List.mem_cons, List.mem_append, List.mem_singleton, or_comm]
    have hrest : Simple (start :: visited) b target (b :: rest) :=
      ((simple_cons_iff hfresh).mp hsimple).of_seen fun x hx => (hsame x).mp hx
    have hleft : unvisited files (start :: visited) ≤ n := by
      have heq : unvisited files (start :: visited) = unvisited files (visited ++ [start]) := by simp only [unvisited, hsame]
      exact heq ▸ Nat.le_of_lt_succ (Nat.lt_of_lt_of_le hless hn)
    have hnew : b ∉ start :: visited := hrest.unseen b List.mem_cons_self
    have hsome := ih (hfiles start b hincludes) hleft hrest hchain hnew (unvisited_lt (hfiles start b hincludes) hnew)
    obtain ⟨edge, hmem, hkind, hsource, rfl⟩ := hincludes
    refine ⟨edge, List.mem_filter.mpr ⟨hmem, decide_eq_true hsource⟩, ?_⟩
    rw [if_pos hkind, Option.isSome_map]
    exact hsome

/-- **A chain is found exactly when the inclusions lead from file to file.**
Source: `resource_graph.py`, `find_include_chain`
Kind: P -/
theorem findIncludeChain_isSome_iff {start target : String} :
    (graph.findIncludeChain start target).isSome ↔ Relation.ReflTransGen graph.Includes start target := by
  have hreaches : Relation.ReflTransGen graph.Includes start target ↔ Reaches graph.includeHeads start target := by
    rw [Reaches, funext₂ fun a b => propext mem_includeHeads]
  have hchain : ∀ {chain : List String},
      chain.IsChain graph.Includes ↔ chain.IsChain fun a b => b ∈ graph.includeHeads a := by
    rw [funext₂ fun a b => propext mem_includeHeads]
  rw [hreaches, ← exists_simple_iff]
  constructor
  · intro h
    obtain ⟨chain, hsome⟩ := Option.isSome_iff_exists.mp h
    obtain ⟨hsimple, hincludes⟩ := simple_of_findIncludeChainFrom hsome
    have hne : chain ≠ [] := List.ne_nil_of_mem (List.mem_of_mem_head? hsimple.head)
    exact ⟨chain, hsimple, ways_pos_iff.mpr ⟨hne, hchain.mp hincludes⟩⟩
  · rintro ⟨chain, hsimple, hways⟩
    have hfiles : ∀ a b, graph.Includes a b → b ∈ start :: graph.edges.map ResourceEdge.targetId := by
      rintro a b ⟨edge, hmem, -, -, rfl⟩
      exact List.mem_cons_of_mem _ (List.mem_map_of_mem hmem)
    refine isSome_of_simple hfiles List.mem_cons_self ?_ hsimple (hchain.mpr (ways_pos_iff.mp hways).2)
    simp [unvisited]

/-- **A chain is found exactly when the inclusions lead from file to file, and it is a chain of inclusions that comes to no
file twice.**
Source: `resource_graph.py`, `find_include_chain`
Kind: P -/
theorem findIncludeChain_spec (graph : ResourceGraph) (start target : String) :
    ((graph.findIncludeChain start target).isSome ↔ Relation.ReflTransGen graph.Includes start target) ∧
      ∀ chain, graph.findIncludeChain start target = some chain →
        Simple [] start target chain ∧ chain.IsChain graph.Includes :=
  ⟨findIncludeChain_isSome_iff, fun _ h => simple_of_findIncludeChainFrom h⟩

end ResourceGraph

end KarsaSec.Dataflow
