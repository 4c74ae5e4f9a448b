import KarsaSec.Found.TreeWalk
import KarsaSec.Parser.Faithful

/-!
# What a walker meets, and when

The walks of `parser/ast/walker.py` over any file node: its table may have shared children, children that are missing, and
cycles.

* `walk_spec`: either walk ends, and meets each identifier that can be reached and leads to a node once.
* `walk_order`: over the nodes of a tree, depth first meets them in pre-order, breadth first level by level.
-/

namespace KarsaSec.Parser

open KarsaSec.Found

/-- What a walk starts from. Source: `parser/ast/walker.py`, `stack` and `queue`, behind a file without identifier. Kind: D -/
def FileNode.startIds (root : FileNode) : List String := if root.nodeId ≠ "" then [root.nodeId] else root.children

/-- A file without identifier is met by itself. Kind: D -/
def FileNode.metByItself (root : FileNode) : List ASTNode := if root.nodeId ≠ "" then [] else [root.toASTNode]

/-- **Either walk ends, and meets each identifier that can be reached and leads to a node, once.**
Source: `parser/ast/walker.py`, `walk`
Kind: P -/
theorem walk_spec (root : FileNode) (strategy : TraversalStrategy) :
    ∃ (l : List ASTNode) (ids : List String), root.walk strategy = some (root.metByItself ++ l) ∧ ids.Nodup ∧
      (∀ id, id ∈ ids ↔ (root.lookup id).isSome ∧ ReachedFrom root.lookup ASTNode.children root.startIds id) ∧
      l.map some = ids.map root.lookup := by
  have hfrom : ∀ {n l stack}, explore (strategy = .dfs) root.lookup ASTNode.children n stack [] = some l →
      ∃ ids : List String, ids.Nodup ∧
        (∀ id, id ∈ ids ↔ (root.lookup id).isSome ∧ ReachedFrom root.lookup ASTNode.children stack id) ∧
        l.map some = ids.map root.lookup := by
    intro n l stack h
    obtain ⟨ids, hnodup, hmem, hmap⟩ := explore_spec (fun k hk => absurd hk List.not_mem_nil) h
    exact ⟨ids, hnodup, fun id => (hmem id).trans (and_iff_right List.not_mem_nil), hmap⟩
  obtain ⟨met, hmet⟩ := Option.isSome_iff_exists.mp (walk_isSome root strategy)
  have hwalk := hmet
  unfold FileNode.walk at hwalk
  unfold FileNode.metByItself FileNode.startIds
  by_cases hnamed : root.nodeId ≠ ""
  · rw [if_pos hnamed] at hwalk ⊢
    obtain ⟨ids, hids⟩ := hfrom hwalk
    exact ⟨met, ids, hmet, by rwa [if_pos hnamed]⟩
  · rw [if_neg hnamed] at hwalk ⊢
    obtain ⟨l, hl, rfl⟩ := Option.map_eq_some_iff.mp hwalk
    obtain ⟨ids, hids⟩ := hfrom hl
    exact ⟨l, ids, hmet, by rwa [if_neg hnamed]⟩

/-- **Over the nodes of a tree, depth first meets them in pre-order, breadth first level by level.**
Source: `parser/ast/walker.py`, `walk`
Kind: P -/
theorem walk_order {root : FileNode} {t : RoseTree ASTNode} (hroot : t.data.nodeId = root.nodeId) (hnamed : root.nodeId ≠ "")
    (hstored : Stored root.lookup ASTNode.children ASTNode.nodeId t) (hnodup : (t.toList.map ASTNode.nodeId).Nodup) :
    root.walk .dfs = some t.toList ∧ root.walk .bfs = some (RoseTree.levels t.height [t]) := by
  have hlist : RoseTree.toListAll [t] = t.toList := List.append_nil _
  have htable : InTable root.lookup ASTNode.children ASTNode.nodeId [t] [] :=
    ⟨⟨hstored, trivial⟩, hlist.symm ▸ hnodup, fun v _ => List.not_mem_nil⟩
  have hstart : [root.nodeId] = [t].map fun t => t.data.nodeId := by rw [List.map_singleton, hroot]
  obtain ⟨dfs, hdfs⟩ := Option.isSome_iff_exists.mp (walk_isSome root .dfs)
  obtain ⟨bfs, hbfs⟩ := Option.isSome_iff_exists.mp (walk_isSome root .bfs)
  have hdfs' := hdfs
  have hbfs' := hbfs
  unfold FileNode.walk at hdfs' hbfs'
  rw [if_pos hnamed, hstart] at hdfs' hbfs'
  refine ⟨?_, ?_⟩
  · rw [hdfs, explore_front htable hdfs', hlist]
  · rw [hbfs, explore_back htable hbfs', RoseTree.heightAll, RoseTree.heightAll, Nat.max_zero]

/-- A file with a call, which has an argument, and a name. Kind: D -/
def callAndName : FileNode :=
  { nodeId := "file"
    children := ["call", "name"]
    nodesMap := .ofList [("name", { nodeId := "name" }), ("call", { nodeId := "call", children := ["argument"] }),
      ("argument", { nodeId := "argument" })] }

/-- The nodes of that file. Kind: D -/
def callAndNameTree : RoseTree ASTNode :=
  .node callAndName.toASTNode
    [.node { nodeId := "call", children := ["argument"] } [.node { nodeId := "argument" } []], .node { nodeId := "name" } []]

/-- The argument is met before the name by the one walk and after it by the other. Kind: L -/
theorem walk_order_callAndName : callAndName.walk .dfs = some callAndNameTree.toList ∧
    callAndName.walk .bfs = some (RoseTree.levels callAndNameTree.height [callAndNameTree]) := by
  refine walk_order rfl (by decide) ?_ (by decide)
  refine ⟨by decide, rfl, ⟨by decide, rfl, ⟨by decide, rfl, trivial⟩, trivial⟩, ⟨by decide, rfl, trivial⟩, trivial⟩

end KarsaSec.Parser
