import KarsaSec.Found.Collect
import KarsaSec.Found.Dominators
import KarsaSec.Found.Reach
import KarsaSec.Found.Sorting

/-!
# Dominator analysis

`analysis/cfg/dominator.py` on a control flow graph with any edges.

* `settle` is the iteration as the program runs it: it goes through the nodes in the order of a set, and a predecessor that is no
  node ends it with a `KeyError`. Dominators and post-dominators are one definition on two directions of the edges.
* `settle_eq`: where no predecessor is missing, it is the iteration of `Found.Dominators`.
* `dominatorAnalysis_right_iff`: the analysis is right against paths just for the graphs that are `Suited`. Among the strict dominators of a node it
  takes one that dominates the others, so it is right only for a node with no more than one.
-/

namespace KarsaSec.Ssa

open KarsaSec.Found

/-! ## Graphs -/

/-- What the analysis reads of a graph. Source: `analysis/cfg/models.py`, `CFG`. Kind: D -/
structure FlowGraph where
  nodes : List String
  nodup : nodes.Nodup
  edges : List (String × String)
  entryNodeId : String
  exitNodeId : String

namespace FlowGraph

/-- Source: `analysis/cfg/models.py`, `CFG.get_successors`. Kind: D -/
def getSuccessors (g : FlowGraph) (nodeId : String) : List String := targets g.edges nodeId

/-- Source: `analysis/cfg/models.py`, `CFG.get_predecessors`. Kind: D -/
def getPredecessors (g : FlowGraph) (nodeId : String) : List String := (g.edges.filter fun e => e.2 = nodeId).map Prod.fst

theorem mem_getSuccessors {g : FlowGraph} {a b : String} : b ∈ g.getSuccessors a ↔ (a, b) ∈ g.edges := mem_targets

theorem mem_getPredecessors {g : FlowGraph} {a b : String} : a ∈ g.getPredecessors b ↔ (a, b) ∈ g.edges := by
  simp [getPredecessors]

end FlowGraph

/-! ## The iteration -/

section iteration

variable (nodes : List String) (preds : String → List String) (root : String)

/-- `set.intersection(*sets)`. Kind: D -/
def intersection : List (Finset String) → Finset String
  | [] => ∅
  | [s] => s
  | s :: rest => s ∩ intersection rest

/-- Nothing where a predecessor is no key. Source: `dominator.py`, `_compute_dominators`, `new_dom`. Kind: D -/
def newDom (dom : Dict String (Finset String)) (nid : String) : Option (Finset String) :=
  if preds nid = [] then some {nid} else ((preds nid).mapM dom.get?).map fun sets => insert nid (intersection sets)

/-- The body of the loop over the nodes. Source: `dominator.py`, `_compute_dominators`. Kind: D -/
def recompute (acc : Dict String (Finset String) × Bool) (nid : String) : Option (Dict String (Finset String) × Bool) :=
  if nid = root then some acc
  else (newDom preds acc.1 nid).map fun new =>
    if new ≠ Dominators.setOf acc.1 nid then (acc.1.set nid new, true) else acc

/-- The loop until nothing changes, with a bound on its turns. Source: `dominator.py`, `_compute_dominators`. Kind: D -/
def settle : ℕ → Dict String (Finset String) → Option (Dict String (Finset String))
  | 0, _ => none
  | n + 1, dom =>
    (nodes.foldlM (recompute preds root) (dom, false)).bind fun r => if r.2 then settle n r.1 else some r.1

/-- All of it, with turns enough. Source: `dominator.py`, `_compute_dominators`. Kind: D -/
def settled : Option (Dict String (Finset String)) :=
  settle nodes preds root (nodes.length * nodes.length + 1) (Dominators.start nodes root)

end iteration

/-! ## The analysis -/

/-- Source: `dominator.py`, `DominatorAnalysis`. Kind: D -/
structure DominatorAnalysis where
  dominators : Dict String (Finset String)
  immediateDominators : Dict String (Option String)
  postDominators : Dict String (Finset String)

namespace DominatorAnalysis

variable (sets : SetOrder String)

/-- Source: `dominator.py`, `_compute_dominators`. Kind: D -/
def computeDominators (cfg : FlowGraph) : Option (Dict String (Finset String)) :=
  settled (sets.order cfg.nodes.toFinset) cfg.getPredecessors cfg.entryNodeId

/-- Source: `dominator.py`, `_compute_post_dominators`. Kind: D -/
def computePostDominators (cfg : FlowGraph) : Option (Dict String (Finset String)) :=
  settled (sets.order cfg.nodes.toFinset) cfg.getSuccessors cfg.exitNodeId

/-- `curr_idom or next(iter(strict_doms))`; the empty text is false. Source: `dominator.py`, `_compute_idom`. Kind: D -/
def idomOf (dominators : Dict String (Finset String)) (nid : String) (domSet : Finset String) : Option String :=
  let strictDoms := sets.order (domSet.erase nid)
  let currIdom := strictDoms.find? fun d => strictDoms.all fun other => other = d ∨ d ∈ Dominators.setOf dominators other
  match currIdom with
  | some d => if d = "" then strictDoms.head? else some d
  | none => strictDoms.head?

/-- Source: `dominator.py`, `_compute_idom`. Kind: D -/
def computeIdom (dominators : Dict String (Finset String)) : Dict String (Option String) :=
  Dict.ofList (dominators.entries.map fun e => (e.1, idomOf sets dominators e.1 e.2))

/-- Nothing where the constructor raises. Source: `dominator.py`, `DominatorAnalysis.__init__`. Kind: D -/
def ofCfg (cfg : FlowGraph) : Option DominatorAnalysis :=
  (computeDominators sets cfg).bind fun dominators =>
    (computePostDominators sets cfg).map fun postDominators =>
      { dominators := dominators, immediateDominators := computeIdom sets dominators, postDominators := postDominators }

variable (analysis : DominatorAnalysis)

/-- Source: `dominator.py`, `dominates`. Kind: D -/
def dominates (nodeA nodeB : String) : Bool := decide (nodeA ∈ analysis.dominators.getD nodeB ∅)

/-- Source: `dominator.py`, `post_dominates`. Kind: D -/
def postDominates (nodeA nodeB : String) : Bool := decide (nodeA ∈ analysis.postDominators.getD nodeB ∅)

/-- Source: `dominator.py`, `get_dominance_frontier`. Kind: D -/
def getDominanceFrontier (cfg : FlowGraph) (nodeId : String) : Finset String :=
  (cfg.nodes.filter fun y => (cfg.getPredecessors y).any fun p =>
    analysis.dominates nodeId p && !(analysis.dominates nodeId y && decide (nodeId ≠ y))).toFinset

end DominatorAnalysis

/-! ## The iteration where no predecessor is missing -/

section iteration

variable {nodes : List String} {preds : String → List String} {root b p : String} {dom : Dict String (Finset String)}

/-- A missing predecessor ends the loop. Kind: L -/
theorem newDom_eq_none (hp : p ∈ preds b) (hmissing : p ∉ dom.keys) : newDom preds dom b = none := by
  have hnone : dom.get? p = none := Dict.get?_eq_none.mpr hmissing
  unfold newDom
  rw [if_neg (List.ne_nil_of_mem hp)]
  rcases hmapM : (preds b).mapM dom.get? with _ | found
  · rfl
  · obtain ⟨s, -, hs⟩ := exists_of_mapM hmapM hp
    rw [hnone] at hs
    cases hs

theorem get?_eq_setOf (h : p ∈ dom.keys) : dom.get? p = some (Dominators.setOf dom p) := by
  grind [Option.isSome_iff_exists, Dict.get?_isSome, Dominators.setOf, Dict.getD]

theorem intersection_eq_meet (dom : Dict String (Finset String)) : ∀ ps : List String,
    intersection (ps.map (Dominators.setOf dom)) = Dominators.meet dom ps
  | [] => rfl
  | [_] => rfl
  | p :: q :: ps => by
    rw [List.map_cons, Dominators.meet]
    · rw [← intersection_eq_meet dom (q :: ps), List.map_cons, intersection]
      simp
    · simp

theorem newDom_eq (hwithin : ∀ p ∈ preds b, p ∈ nodes) (hkeys : ∀ c ∈ nodes, c ∈ dom.keys) :
    newDom preds dom b = some (Dominators.newSet nodes preds dom b) := by
  have hself : (preds b).filter (· ∈ nodes) = preds b :=
    List.filter_eq_self.mpr fun p hp => decide_eq_true (hwithin p hp)
  have hall : ∀ ps : List String, (∀ p ∈ ps, p ∈ nodes) → ps.mapM dom.get? = some (ps.map (Dominators.setOf dom)) := by
    intro ps hps
    induction ps with
    | nil => rfl
    | cons q ps ih =>
      rw [List.mapM_cons, get?_eq_setOf (hkeys q (hps q List.mem_cons_self)),
        ih fun p hp => hps p (List.mem_cons_of_mem q hp)]
      rfl
  unfold newDom Dominators.newSet
  dsimp only
  rw [hself]
  split_ifs
  · rfl
  · rw [hall _ hwithin, Option.map_some, intersection_eq_meet]

/-- One turn over nodes, as the library takes it. Kind: L -/
theorem foldlM_recompute (hwithin : ∀ b ∈ nodes, b ≠ root → ∀ p ∈ preds b, p ∈ nodes) :
    ∀ {l : List String} {acc : Dict String (Finset String) × Bool}, (∀ b ∈ l, b ∈ nodes) → (∀ c ∈ nodes, c ∈ acc.1.keys) →
      l.foldlM (recompute preds root) acc = some (l.foldl (Dominators.visit nodes preds root) acc) ∧
        ∀ c ∈ nodes, c ∈ (l.foldl (Dominators.visit nodes preds root) acc).1.keys
  | [], acc, _, hkeys => ⟨rfl, hkeys⟩
  | b :: l, acc, hl, hkeys => by
    have hb : b ∈ nodes := hl b List.mem_cons_self
    have hvisit : recompute preds root acc b = some (Dominators.visit nodes preds root acc b) := by
      unfold recompute Dominators.visit
      split_ifs with hroot hnew
      · rfl
      · rw [newDom_eq (hwithin b hb hroot) hkeys, Option.map_some, if_pos hnew]
      · rw [newDom_eq (hwithin b hb hroot) hkeys, Option.map_some, if_neg hnew]
    have hkeys' : ∀ c ∈ nodes, c ∈ (Dominators.visit nodes preds root acc b).1.keys := by
      grind [Dominators.visit, Dict.mem_keys_set]
    rw [List.foldlM_cons, hvisit, List.foldl_cons]
    exact foldlM_recompute hwithin (fun c hc => hl c (List.mem_cons_of_mem b hc)) hkeys'

theorem settle_eq (hwithin : ∀ b ∈ nodes, b ≠ root → ∀ p ∈ preds b, p ∈ nodes) :
    ∀ {n : ℕ} {dom : Dict String (Finset String)}, (∀ c ∈ nodes, c ∈ dom.keys) →
      settle nodes preds root n dom = Dominators.settle nodes preds root n dom
  | 0, _, _ => rfl
  | n + 1, dom, hkeys => by
    obtain ⟨hfold, hkeys'⟩ := @foldlM_recompute nodes preds root hwithin nodes (dom, false) (fun _ hb => hb) hkeys
    rw [settle, Dominators.settle, hfold, Option.bind_some]
    by_cases hflag : (Dominators.sweep nodes preds root dom).2 = true
    · exact (if_pos hflag).trans ((settle_eq hwithin hkeys').trans (if_pos hflag).symm)
    · exact (if_neg hflag).trans (if_neg hflag).symm

theorem settled_eq (hwithin : ∀ b ∈ nodes, b ≠ root → ∀ p ∈ preds b, p ∈ nodes) :
    settled nodes preds root = Dominators.dominators nodes preds root :=
  settle_eq hwithin (Dominators.shrinking_start nodes preds root).keys

/-- Where a predecessor is no node, the first turn comes to it. Kind: L -/
theorem settled_eq_none (hb : b ∈ nodes) (hroot : b ≠ root) (hp : p ∈ preds b) (hmissing : p ∉ nodes) :
    settled nodes preds root = none := by
  have hfold : ∀ {l : List String} {acc : Dict String (Finset String) × Bool}, b ∈ l → (∀ c ∈ l, c ∈ nodes) →
      p ∉ acc.1.keys → l.foldlM (recompute preds root) acc = none := by
    intro l
    induction l with
    | nil => exact fun h => absurd h List.not_mem_nil
    | cons c l ih =>
      intro acc hbl hl hacc
      rw [List.foldlM_cons]
      by_cases hcb : c = b
      · have hvisit : recompute preds root acc c = none := by
          rw [hcb, recompute, if_neg hroot, newDom_eq_none hp hacc]
          rfl
        rw [hvisit]
        rfl
      · rcases hvisit : recompute preds root acc c with _ | acc'
        · rfl
        · apply ih ((List.mem_cons.mp hbl).resolve_left (Ne.symm hcb)) fun d hd => hl d (List.mem_cons_of_mem c hd)
          unfold recompute at hvisit
          split_ifs at hvisit
          · obtain rfl := Option.some.inj hvisit
            exact hacc
          · obtain ⟨new, -, rfl⟩ := Option.map_eq_some_iff.mp hvisit
            split_ifs
            · grind [Dict.mem_keys_set]
            · exact hacc
  have hstart : p ∉ (Dominators.start nodes root).keys := by
    unfold Dominators.start
    rw [Dict.mem_keys_ofList, List.map_map]
    rintro h
    obtain ⟨c, hc, rfl⟩ := List.mem_map.mp h
    exact hmissing hc
  unfold settled
  rw [settle, hfold hb (fun _ hc => hc) hstart]
  rfl

end iteration

/-! ## Paths -/

namespace FlowGraph

variable (g : FlowGraph)

/-- The entry leads to a node. Kind: D -/
def Reached (b : String) : Prop := ∃ path, IsWalk g.getSuccessors g.entryNodeId b path

/-- A node leads to the exit. Kind: D -/
def Ends (b : String) : Prop := ∃ path, IsWalk g.getSuccessors b g.exitNodeId path

/-- Every path from the entry to `b` passes `a`. Kind: D -/
def PathDominates (a b : String) : Prop := ∀ path, IsWalk g.getSuccessors g.entryNodeId b path → a ∈ path

/-- Every path from `b` to the exit passes `a`. Kind: D -/
def PathPostDominates (a b : String) : Prop := ∀ path, IsWalk g.getSuccessors b g.exitNodeId path → a ∈ path

def StrictlyDominates (a b : String) : Prop := g.PathDominates a b ∧ a ≠ b

/-- The graphs for which the analysis is right. Kind: D -/
structure Suited : Prop where
  /-- An edge to a node other than the entry comes from a node. -/
  into : ∀ e ∈ g.edges, e.2 ∈ g.nodes → e.2 ≠ g.entryNodeId → e.1 ∈ g.nodes
  /-- An edge from a node other than the exit goes to a node. -/
  out : ∀ e ∈ g.edges, e.1 ∈ g.nodes → e.1 ≠ g.exitNodeId → e.2 ∈ g.nodes
  /-- A node without predecessors leads to no reached node past the entry. -/
  entered : ∀ s ∈ g.nodes, s ≠ g.entryNodeId → (∀ p, (p, s) ∉ g.edges) → ∀ b ∈ g.nodes, g.Reached b →
    ∀ path, IsWalk g.getSuccessors s b path → g.entryNodeId ∈ path
  /-- No node that leads to the exit leads past it to a node without successors. -/
  left : ∀ t ∈ g.nodes, t ≠ g.exitNodeId → (∀ s, (t, s) ∉ g.edges) → ∀ b ∈ g.nodes, g.Ends b →
    ∀ path, IsWalk g.getSuccessors b t path → g.exitNodeId ∈ path
  /-- No reached node has two strict dominators. -/
  flat : ∀ b ∈ g.nodes, g.Reached b → ∀ d d', g.StrictlyDominates d b → g.StrictlyDominates d' b → d = d'

end FlowGraph

/-- The analysis says of a graph what its paths say. Kind: D -/
structure DominatorAnalysis.Right (g : FlowGraph) (analysis : DominatorAnalysis) : Prop where
  dominates_iff : ∀ b ∈ g.nodes, g.Reached b → ∀ a, analysis.dominates a b = true ↔ g.PathDominates a b
  postDominates_iff : ∀ b ∈ g.nodes, g.Ends b → ∀ a, analysis.postDominates a b = true ↔ g.PathPostDominates a b
  /-- The strict dominator that every other one dominates. -/
  immediate_iff : ∀ b ∈ g.nodes, g.Reached b → ∀ d, analysis.immediateDominators.get? b = some (some d) ↔
    g.StrictlyDominates d b ∧ ∀ other, g.StrictlyDominates other b → other ≠ d → g.PathDominates other d
  frontier_iff : ∀ x y, y ∈ analysis.getDominanceFrontier g x ↔
    y ∈ g.nodes ∧ ∃ p, (p, y) ∈ g.edges ∧ analysis.dominates x p = true ∧ ¬(analysis.dominates x y = true ∧ x ≠ y)
  /-- In terms of paths, where the predecessors are reached. -/
  frontier_iff_paths : ∀ x, ∀ y ∈ g.nodes, (∀ p, (p, y) ∈ g.edges → p ∈ g.nodes ∧ g.Reached p) →
    (y ∈ analysis.getDominanceFrontier g x ↔ ∃ p, (p, y) ∈ g.edges ∧ g.PathDominates x p ∧ ¬g.StrictlyDominates x y)

/-! ## Where the analysis is right -/

section right

variable {g : FlowGraph} {sets : SetOrder String}

theorem mem_order_nodes {b : String} : b ∈ sets.order g.nodes.toFinset ↔ b ∈ g.nodes :=
  sets.mem_order.trans List.mem_toFinset

theorem closed_dominators (sets : SetOrder String) (h : ∀ e ∈ g.edges, e.2 ∈ g.nodes → e.2 ≠ g.entryNodeId → e.1 ∈ g.nodes) :
    Dominators.Closed (sets.order g.nodes.toFinset) g.getPredecessors g.entryNodeId g.getSuccessors := by
  refine ⟨fun a b => FlowGraph.mem_getPredecessors.trans FlowGraph.mem_getSuccessors.symm, fun b hb hne p hp => ?_⟩
  exact mem_order_nodes.mpr (h (p, b) (FlowGraph.mem_getPredecessors.mp hp) (mem_order_nodes.mp hb) hne)

theorem closed_postDominators (sets : SetOrder String)
    (h : ∀ e ∈ g.edges, e.1 ∈ g.nodes → e.1 ≠ g.exitNodeId → e.2 ∈ g.nodes) :
    Dominators.Closed (sets.order g.nodes.toFinset) g.getSuccessors g.exitNodeId g.getPredecessors := by
  refine ⟨fun a b => FlowGraph.mem_getSuccessors.trans FlowGraph.mem_getPredecessors.symm, fun b hb hne p hp => ?_⟩
  exact mem_order_nodes.mpr (h (b, p) (FlowGraph.mem_getSuccessors.mp hp) (mem_order_nodes.mp hb) hne)

/-- A path backwards. Kind: L -/
theorem isWalk_backwards {a b : String} {path : List String} :
    IsWalk g.getPredecessors b a path.reverse ↔ IsWalk g.getSuccessors a b path := by
  have hrel : (fun x y => y ∈ g.getSuccessors x) = fun x y => x ∈ g.getPredecessors y := by
    funext x y
    exact propext (FlowGraph.mem_getSuccessors.trans FlowGraph.mem_getPredecessors.symm)
  constructor
  · rintro ⟨hhead, hlast, hchain⟩
    rw [List.head?_reverse] at hhead
    rw [List.getLast?_reverse] at hlast
    rw [List.isChain_reverse] at hchain
    exact ⟨hlast, hhead, hrel ▸ hchain⟩
  · rintro ⟨hhead, hlast, hchain⟩
    refine ⟨?_, ?_, ?_⟩
    · rwa [List.head?_reverse]
    · rwa [List.getLast?_reverse]
    · rw [List.isChain_reverse]
      exact hrel ▸ hchain

/-- What lies on every path lies on every path backwards. Kind: L -/
theorem mem_backwards {a b x : String} : (∀ path, IsWalk g.getPredecessors b a path → x ∈ path) ↔
    ∀ path, IsWalk g.getSuccessors a b path → x ∈ path := by
  constructor
  · intro h path hpath
    exact List.mem_reverse.mp (h path.reverse (isWalk_backwards.mpr hpath))
  · intro h path hpath
    apply List.mem_reverse.mp
    apply h
    rw [← isWalk_backwards, List.reverse_reverse]
    exact hpath

/-- The table of an iteration, at each node. Kind: L -/
theorem settled_spec {nodes : List String} {preds succ : String → List String} {root : String}
    (hclosed : Dominators.Closed nodes preds root succ) : ∃ dom, settled nodes preds root = some dom ∧
      ∀ b ∈ nodes, ∃ s, dom.get? b = some s ∧ ∀ a, a ∈ s ↔ Dominators.Covers nodes preds root a b := by
  rw [settled_eq hclosed.within]
  exact Dominators.mem_settled_iff nodes preds root

/-- The constructor ends just where no end of an edge that it looks at is missing. Kind: L -/
theorem ofCfg_isSome_iff (sets : SetOrder String) : (DominatorAnalysis.ofCfg sets g).isSome ↔
    (∀ e ∈ g.edges, e.2 ∈ g.nodes → e.2 ≠ g.entryNodeId → e.1 ∈ g.nodes) ∧
      ∀ e ∈ g.edges, e.1 ∈ g.nodes → e.1 ≠ g.exitNodeId → e.2 ∈ g.nodes := by
  unfold DominatorAnalysis.ofCfg DominatorAnalysis.computeDominators DominatorAnalysis.computePostDominators
  constructor
  · intro h
    constructor
    · rintro ⟨p, b⟩ he hb hne
      by_contra hp
      rw [settled_eq_none (mem_order_nodes.mpr hb) hne (FlowGraph.mem_getPredecessors.mpr he)
        (fun hmem => hp (mem_order_nodes.mp hmem))] at h
      cases h
    · rintro ⟨b, p⟩ he hb hne
      by_contra hp
      rw [settled_eq_none (mem_order_nodes.mpr hb) hne (FlowGraph.mem_getSuccessors.mpr he)
        (fun hmem => hp (mem_order_nodes.mp hmem))] at h
      simp at h
  · grind [settled_spec, closed_dominators, closed_postDominators]

theorem ofCfg_spec {analysis : DominatorAnalysis} (h : DominatorAnalysis.ofCfg sets g = some analysis) :
    (∀ b ∈ g.nodes, ∃ s, analysis.dominators.get? b = some s ∧
      ∀ a, a ∈ s ↔ Dominators.Covers (sets.order g.nodes.toFinset) g.getPredecessors g.entryNodeId a b) ∧
    (∀ b ∈ g.nodes, ∃ s, analysis.postDominators.get? b = some s ∧
      ∀ a, a ∈ s ↔ Dominators.Covers (sets.order g.nodes.toFinset) g.getSuccessors g.exitNodeId a b) ∧
    analysis.immediateDominators = DominatorAnalysis.computeIdom sets analysis.dominators := by
  obtain ⟨hinto, hout⟩ := (ofCfg_isSome_iff sets).mp (Option.isSome_of_eq_some h)
  obtain ⟨dom, hdom, hdoms⟩ := settled_spec (closed_dominators sets hinto)
  obtain ⟨post, hpost, hposts⟩ := settled_spec (closed_postDominators sets hout)
  unfold DominatorAnalysis.ofCfg DominatorAnalysis.computeDominators DominatorAnalysis.computePostDominators at h
  rw [hdom, hpost] at h
  obtain rfl := Option.some.inj h
  exact ⟨fun b hb => hdoms b (mem_order_nodes.mpr hb), fun b hb => hposts b (mem_order_nodes.mpr hb), rfl⟩

theorem mem_getD_iff {table : Dict String (Finset String)} {b : String} {P : String → Prop}
    (h : ∃ s, table.get? b = some s ∧ ∀ a, a ∈ s ↔ P a) (a : String) : a ∈ table.getD b ∅ ↔ P a := by
  obtain ⟨s, hs, hmem⟩ := h
  rw [Dict.getD, hs]
  exact hmem a

/-- The dominators of the reached nodes are right just where they are anchored. Kind: L -/
theorem dominates_right_iff {analysis : DominatorAnalysis} (h : DominatorAnalysis.ofCfg sets g = some analysis) :
    (∀ b ∈ g.nodes, g.Reached b → ∀ a, analysis.dominates a b = true ↔ g.PathDominates a b) ↔
      ∀ s ∈ g.nodes, s ≠ g.entryNodeId → (∀ p, (p, s) ∉ g.edges) → ∀ b ∈ g.nodes, g.Reached b →
        ∀ path, IsWalk g.getSuccessors s b path → g.entryNodeId ∈ path := by
  obtain ⟨hdoms, -, -⟩ := ofCfg_spec h
  obtain ⟨hinto, -⟩ := (ofCfg_isSome_iff sets).mp (Option.isSome_of_eq_some h)
  have hnone : ∀ s, g.getPredecessors s = [] ↔ ∀ p, (p, s) ∉ g.edges := by
    simp [List.eq_nil_iff_forall_not_mem, FlowGraph.mem_getPredecessors]
  have hpoint : ∀ b ∈ g.nodes, g.Reached b → ((∀ a, analysis.dominates a b = true ↔ g.PathDominates a b) ↔
      Dominators.Anchored (sets.order g.nodes.toFinset) g.getPredecessors g.entryNodeId g.getSuccessors b) := by
    intro b hb hreach
    rw [← (closed_dominators sets hinto).covers_iff (mem_order_nodes.mpr hb) hreach]
    apply forall_congr'
    intro a
    unfold DominatorAnalysis.dominates
    rw [decide_eq_true_iff, mem_getD_iff (hdoms b hb) a]
    rfl
  constructor
  · intro hright s hs hne hsource b hb hreach
    exact (hpoint b hb hreach).mp (hright b hb hreach) s (mem_order_nodes.mpr hs) hne ((hnone s).mpr hsource)
  · intro hanchored b hb hreach
    apply (hpoint b hb hreach).mpr
    intro s hs hne hsource
    exact hanchored s (mem_order_nodes.mp hs) hne ((hnone s).mp hsource) b hb hreach

/-- The same towards the exit. Kind: L -/
theorem postDominates_right_iff {analysis : DominatorAnalysis} (h : DominatorAnalysis.ofCfg sets g = some analysis) :
    (∀ b ∈ g.nodes, g.Ends b → ∀ a, analysis.postDominates a b = true ↔ g.PathPostDominates a b) ↔
      ∀ t ∈ g.nodes, t ≠ g.exitNodeId → (∀ s, (t, s) ∉ g.edges) → ∀ b ∈ g.nodes, g.Ends b →
        ∀ path, IsWalk g.getSuccessors b t path → g.exitNodeId ∈ path := by
  obtain ⟨-, hposts, -⟩ := ofCfg_spec h
  obtain ⟨-, hout⟩ := (ofCfg_isSome_iff sets).mp (Option.isSome_of_eq_some h)
  have hnone : ∀ t, g.getSuccessors t = [] ↔ ∀ s, (t, s) ∉ g.edges := by
    simp [List.eq_nil_iff_forall_not_mem, FlowGraph.mem_getSuccessors]
  have hpoint : ∀ b ∈ g.nodes, g.Ends b → ((∀ a, analysis.postDominates a b = true ↔ g.PathPostDominates a b) ↔
      Dominators.Anchored (sets.order g.nodes.toFinset) g.getSuccessors g.exitNodeId g.getPredecessors b) := by
    intro b hb hends
    have hreach : ∃ path, IsWalk g.getPredecessors g.exitNodeId b path := by
      obtain ⟨path, hpath⟩ := hends
      exact ⟨path.reverse, isWalk_backwards.mpr hpath⟩
    rw [← (closed_postDominators sets hout).covers_iff (mem_order_nodes.mpr hb) hreach]
    apply forall_congr'
    intro a
    unfold DominatorAnalysis.postDominates
    rw [decide_eq_true_iff, mem_getD_iff (hposts b hb) a]
    apply iff_congr Iff.rfl
    exact mem_backwards.symm
  constructor
  · intro hright t ht hne hsink b hb hends
    have hanchored := (hpoint b hb hends).mp (hright b hb hends) t (mem_order_nodes.mpr ht) hne ((hnone t).mpr hsink)
    exact mem_backwards.mp hanchored
  · intro hanchored b hb hends
    apply (hpoint b hb hends).mpr
    intro t ht hne hsink
    apply mem_backwards.mpr
    exact hanchored t (mem_order_nodes.mp ht) hne ((hnone t).mp hsink) b hb hends

/-! ## Immediate dominators -/

theorem get?_computeIdom (dominators : Dict String (Finset String)) (b : String) :
    (DominatorAnalysis.computeIdom sets dominators).get? b = (dominators.get? b).map (DominatorAnalysis.idomOf sets dominators b) := by
  have hkeys : ((dominators.entries.map fun e => (e.1, DominatorAnalysis.idomOf sets dominators e.1 e.2)).map Prod.fst).Nodup := by
    rw [List.map_map]
    exact dominators.nodup
  apply Option.ext
  intro d
  unfold DominatorAnalysis.computeIdom
  rw [← Dict.mem_entries, Dict.entries_ofList hkeys, Option.map_eq_some_iff]
  simp only [List.mem_map, Prod.mk.injEq]
  constructor
  · simp [Dict.mem_entries]
  · simp [Dict.mem_entries]

/-- A node that lies on a path from the entry is reached. Kind: L -/
theorem reached_of_mem {a b : String} : ∀ {path : List String}, IsWalk g.getSuccessors g.entryNodeId b path → a ∈ path →
    g.Reached a := by
  intro path
  induction hn : path.length generalizing path b with
  | zero =>
    intro h
    exact absurd (List.length_eq_zero_iff.mp hn) h.ne_nil
  | succ n ih =>
    intro h ha
    rcases Dominators.walk_cases h with ⟨rfl, rfl⟩ | ⟨q, p, rfl, hwalk, hedge⟩
    · rw [List.mem_singleton.mp ha]
      exact ⟨_, h⟩
    · rw [List.length_append, List.length_singleton, Nat.add_right_cancel_iff] at hn
      rcases List.mem_append.mp ha with ha | ha
      · exact ih hn hwalk ha
      · rw [List.mem_singleton.mp ha]
        exact ⟨_, h⟩

theorem pathDominates_entry (b : String) : g.PathDominates g.entryNodeId b := fun _ h => List.mem_of_head? h.head

theorem eq_entry_of_pathDominates {d : String} (h : g.PathDominates d g.entryNodeId) : d = g.entryNodeId :=
  List.mem_singleton.mp (h [g.entryNodeId] ⟨rfl, rfl, List.isChain_singleton _⟩)

/-- With no more than one strict dominator there is no choice. Kind: L -/
theorem idomOf_of_subsingleton {dominators : Dict String (Finset String)} {b : String} {s : Finset String}
    (h : ∀ d ∈ s.erase b, ∀ d' ∈ s.erase b, d = d') (d : String) :
    DominatorAnalysis.idomOf sets dominators b s = some d ↔ d ∈ s.erase b := by
  rcases (s.erase b).eq_empty_or_nonempty with hempty | ⟨e, he⟩
  · have hnil : sets.order (s.erase b) = [] := by
      rw [List.eq_nil_iff_forall_not_mem]
      intro x hx
      rw [sets.mem_order, hempty] at hx
      exact absurd hx (Finset.notMem_empty x)
    unfold DominatorAnalysis.idomOf
    rw [hnil, hempty]
    simp
  · have hsingle : s.erase b = {e} := Finset.eq_singleton_iff_unique_mem.mpr ⟨he, fun x hx => h x hx e he⟩
    unfold DominatorAnalysis.idomOf
    rw [hsingle, sets.order_singleton, Finset.mem_singleton]
    simp [eq_comm]

/-- A member that goes first and that all others have in their sets is taken. Kind: L -/
theorem idomOf_of_first {dominators : Dict String (Finset String)} {b first : String} {s : Finset String}
    (hfirst : first ∈ s.erase b) (hall : ∀ other ∈ s.erase b, other ≠ first → first ∈ Dominators.setOf dominators other) :
    DominatorAnalysis.idomOf (SetOrder.putFirst first) dominators b s = some first := by
  have horder : (SetOrder.putFirst first).order (s.erase b) = first :: ((s.erase b).erase first).toList := if_pos hfirst
  have hbest : (first :: ((s.erase b).erase first).toList).all
      (fun other => other = first ∨ first ∈ Dominators.setOf dominators other) = true := by
    rw [List.all_eq_true]
    intro other hother
    rw [decide_eq_true_iff]
    by_cases heq : other = first
    · exact .inl heq
    · simp_all
  unfold DominatorAnalysis.idomOf
  dsimp only
  rw [horder, List.find?_cons, hbest]
  dsimp only
  split_ifs
  · rfl
  · rfl

/-- The strict dominators of a reached node, as the analysis has them. Kind: L -/
theorem mem_strict_iff {analysis : DominatorAnalysis} {b : String} {s : Finset String}
    (hright : ∀ a, analysis.dominates a b = true ↔ g.PathDominates a b) (hs : analysis.dominators.get? b = some s) (d : String) :
    d ∈ s.erase b ↔ g.StrictlyDominates d b := by
  rw [Finset.mem_erase, and_comm]
  unfold FlowGraph.StrictlyDominates
  rw [← hright d, DominatorAnalysis.dominates, Dict.getD, hs, Option.getD_some, decide_eq_true_iff]

theorem immediate_of_flat {analysis : DominatorAnalysis} (h : DominatorAnalysis.ofCfg sets g = some analysis)
    (hflat : ∀ b ∈ g.nodes, g.Reached b → ∀ d d', g.StrictlyDominates d b → g.StrictlyDominates d' b → d = d')
    (hright : ∀ b ∈ g.nodes, g.Reached b → ∀ a, analysis.dominates a b = true ↔ g.PathDominates a b)
    {b : String} (hb : b ∈ g.nodes) (hreach : g.Reached b) (d : String) :
    analysis.immediateDominators.get? b = some (some d) ↔
      g.StrictlyDominates d b ∧ ∀ other, g.StrictlyDominates other b → other ≠ d → g.PathDominates other d := by
  obtain ⟨hdoms, -, hidom⟩ := ofCfg_spec h
  obtain ⟨s, hs, -⟩ := hdoms b hb
  have hstrict := mem_strict_iff (hright b hb hreach) hs
  have hone : ∀ x ∈ s.erase b, ∀ y ∈ s.erase b, x = y := fun x hx y hy =>
    hflat b hb hreach x y ((hstrict x).mp hx) ((hstrict y).mp hy)
  rw [hidom, get?_computeIdom, hs, Option.map_some, Option.some_inj, idomOf_of_subsingleton hone, hstrict]
  refine ⟨fun hd => ⟨hd, fun other hother hne => ?_⟩, fun hd => hd.1⟩
  exact absurd (hflat b hb hreach other d hother hd) hne

/-- Where the entry goes first, a node with two strict dominators gets the entry. Kind: L -/
theorem flat_of_immediate {analysis : DominatorAnalysis}
    (h : DominatorAnalysis.ofCfg (SetOrder.putFirst g.entryNodeId) g = some analysis) (hright : analysis.Right g) {b : String}
    (hb : b ∈ g.nodes) (hreach : g.Reached b) {d : String} (hd : g.StrictlyDominates d b) : d = g.entryNodeId := by
  obtain ⟨hdoms, -, hidom⟩ := ofCfg_spec h
  obtain ⟨s, hs, hcovers⟩ := hdoms b hb
  have hstrict := mem_strict_iff (hright.dominates_iff b hb hreach) hs
  have hbe : g.entryNodeId ≠ b := by
    rintro rfl
    exact hd.2 (eq_entry_of_pathDominates hd.1)
  have hentry : g.StrictlyDominates g.entryNodeId b := ⟨pathDominates_entry b, hbe⟩
  have htaken : analysis.immediateDominators.get? b = some (some g.entryNodeId) := by
    rw [hidom, get?_computeIdom, hs, Option.map_some, idomOf_of_first ((hstrict _).mpr hentry)]
    intro other hother _
    -- another strict dominator is a reached node, so the entry is in its set
    have hmem : other ∈ g.nodes := mem_order_nodes.mp ((hcovers other).mp (Finset.mem_of_mem_erase hother)).1
    obtain ⟨path, hpath⟩ := hreach
    have hreached := reached_of_mem hpath (((hstrict other).mp hother).1 path hpath)
    exact of_decide_eq_true ((hright.dominates_iff other hmem hreached g.entryNodeId).mpr (pathDominates_entry other))
  by_contra hne
  exact hne (eq_entry_of_pathDominates (((hright.immediate_iff b hb hreach _).mp htaken).2 d hd hne))

/-! ## Frontiers -/

theorem mem_getDominanceFrontier (analysis : DominatorAnalysis) (x y : String) : y ∈ analysis.getDominanceFrontier g x ↔
    y ∈ g.nodes ∧ ∃ p, (p, y) ∈ g.edges ∧ analysis.dominates x p = true ∧ ¬(analysis.dominates x y = true ∧ x ≠ y) := by
  unfold DominatorAnalysis.getDominanceFrontier
  rw [List.mem_toFinset, List.mem_filter, List.any_eq_true]
  simp only [FlowGraph.mem_getPredecessors]
  apply and_congr_right
  intro _
  apply exists_congr
  intro p
  rw [Bool.and_eq_true, Bool.not_eq_true', ← Bool.not_eq_true, Bool.and_eq_true, decide_eq_true_iff]

theorem frontier_of_right {analysis : DominatorAnalysis}
    (hright : ∀ b ∈ g.nodes, g.Reached b → ∀ a, analysis.dominates a b = true ↔ g.PathDominates a b) {x y : String}
    (hy : y ∈ g.nodes) (hpreds : ∀ p, (p, y) ∈ g.edges → p ∈ g.nodes ∧ g.Reached p) :
    y ∈ analysis.getDominanceFrontier g x ↔ ∃ p, (p, y) ∈ g.edges ∧ g.PathDominates x p ∧ ¬g.StrictlyDominates x y := by
  rw [mem_getDominanceFrontier, and_iff_right hy]
  apply exists_congr
  intro p
  apply and_congr_right
  intro hedge
  obtain ⟨hp, path, hpath⟩ := hpreds p hedge
  have hreach : g.Reached y := ⟨_, hpath.snoc (FlowGraph.mem_getSuccessors.mpr hedge)⟩
  rw [hright p hp ⟨path, hpath⟩, hright y hy hreach]
  rfl

/-! ## The whole analysis -/

/-- **The analysis is right for every order of its sets just where the ends of the edges are nodes, no way in or out passes the
entry or the exit, and no reached node has two strict dominators.**
Source: `analysis/cfg/dominator.py`, `DominatorAnalysis`. Kind: P -/
theorem dominatorAnalysis_right_iff (g : FlowGraph) :
    (∀ sets, ∃ analysis, DominatorAnalysis.ofCfg sets g = some analysis ∧ analysis.Right g) ↔ g.Suited := by
  constructor
  · intro hall
    obtain ⟨analysis, hsome, hright⟩ := hall (SetOrder.putFirst g.entryNodeId)
    obtain ⟨hinto, hout⟩ := (ofCfg_isSome_iff _).mp (Option.isSome_of_eq_some hsome)
    refine
      { into := hinto
        out := hout
        entered := (dominates_right_iff hsome).mp hright.dominates_iff
        left := (postDominates_right_iff hsome).mp hright.postDominates_iff
        flat := fun b hb hreach d d' hd hd' => ?_ }
    rw [flat_of_immediate hsome hright hb hreach hd, flat_of_immediate hsome hright hb hreach hd']
  · intro hsuited sets
    obtain ⟨analysis, hsome⟩ := Option.isSome_iff_exists.mp ((ofCfg_isSome_iff sets).mpr ⟨hsuited.into, hsuited.out⟩)
    have hdoms := (dominates_right_iff hsome).mpr hsuited.entered
    refine ⟨analysis, hsome, ?_⟩
    exact
      { dominates_iff := hdoms
        postDominates_iff := (postDominates_right_iff hsome).mpr hsuited.left
        immediate_iff := fun b hb hreach d => immediate_of_flat hsome hsuited.flat hdoms hb hreach d
        frontier_iff := mem_getDominanceFrontier analysis
        frontier_iff_paths := fun x y hy hpreds => frontier_of_right hdoms hy hpreds }

end right

/-- One statement between the entry and the exit. Kind: D -/
def straightLine : FlowGraph where
  nodes := ["main::ENTRY", "main::EXIT", "main::stmt::2::1"]
  nodup := by decide
  edges := [("main::ENTRY", "main::stmt::2::1"), ("main::stmt::2::1", "main::EXIT")]
  entryNodeId := "main::ENTRY"
  exitNodeId := "main::EXIT"

/-- The statement is the strict dominator of the exit that the other one dominates, and the entry is taken. Kind: T -/
theorem straightLine_wrong : ¬∃ analysis, DominatorAnalysis.ofCfg (SetOrder.putFirst straightLine.entryNodeId) straightLine =
    some analysis ∧ analysis.Right straightLine := by
  rintro ⟨analysis, hsome, hright⟩
  have hfirst : IsWalk straightLine.getSuccessors "main::ENTRY" "main::stmt::2::1" ["main::ENTRY", "main::stmt::2::1"] :=
    ⟨rfl, rfl, by decide⟩
  have hreach : straightLine.Reached "main::EXIT" := ⟨_, hfirst.snoc (by decide)⟩
  have hstmt : straightLine.StrictlyDominates "main::stmt::2::1" "main::EXIT" := by
    refine ⟨fun path hpath => ?_, by decide⟩
    rcases Dominators.walk_cases hpath with ⟨heq, -⟩ | ⟨q, p, rfl, hwalk, hedge⟩
    · exact absurd heq (by decide)
    · have hp : (p, "main::EXIT") ∈ straightLine.edges := FlowGraph.mem_getSuccessors.mp hedge
      obtain rfl : p = "main::stmt::2::1" := by simpa [straightLine] using hp
      exact List.mem_append_left _ (List.mem_of_getLast? hwalk.last)
  exact absurd (flat_of_immediate hsome hright (by decide) hreach hstmt) (by decide)

end KarsaSec.Ssa
