import KarsaSec.Cpg.Builder

/-!
# Faithful merges

When the graph of all artifacts is faithful to them.

* `Merged`: every node of an artifact has a node of its own, every edge an edge between the images of its ends, nodes of a
  function that stand on one line are linked from layer to layer, and no edge leads from a function to another.
* `holds_unlinked`: the nodes and edges that are there, from the artifacts alone. The linker adds no edge: it compares the files
  of nodes, and only nodes of control flow graphs have one.
* `merged_iff`: the merge is faithful exactly where no two nodes of a layer share place and line, no edge between taint nodes is
  read, and no two layers that the linker should join share a line of a function.
-/

namespace KarsaSec.Cpg

open KarsaSec.Found
open KarsaSec.Query (CPGEdge CPGGraph CPGNode EdgeType NodeType)
open KarsaSec.Taint (CFG CFGNode DataFlowGraph DataFlowNode SSAFunction SSANode TaintGraph TaintNode)

/-! ## Nodes of artifacts -/

/-- A node, with the function that its graph stands for. Kind: D -/
inductive ArtifactNode
  | cfg (fnName filePath : String) (n : CFGNode)
  | ssa (fnName : String) (n : SSANode)
  | dataflow (fnName : String) (n : DataFlowNode)
  | taint (fnName : String) (n : TaintNode)
  deriving DecidableEq

namespace ArtifactNode

def fnName : ArtifactNode → String
  | cfg fnName _ _ => fnName
  | ssa fnName _ => fnName
  | dataflow fnName _ => fnName
  | taint fnName _ => fnName

def lineNumber : ArtifactNode → ℤ
  | cfg _ _ n => n.lineNumber
  | ssa _ n => n.lineNumber
  | dataflow _ n => n.lineNumber
  | taint _ n => n.lineNumber

def layer : ArtifactNode → NodeType
  | cfg _ _ _ => .cfg
  | ssa _ _ => .ssa
  | dataflow _ _ => .dataflow
  | taint _ _ => .taint

/-- The file that stands in the identifier. Source: `cpg/builder.py`, `build_cpg`. Kind: D -/
def origin : ArtifactNode → String
  | cfg _ filePath _ => filePath
  | ssa _ _ => "ssa"
  | dataflow _ _ => "dfg"
  | taint _ _ => "taint"

/-- The name that stands in the identifier. Source: `cpg/builder.py`, `build_cpg`. Kind: D -/
def qualifiedName : ArtifactNode → String
  | cfg fnName _ n => fnName ++ "::" ++ n.id
  | ssa fnName n => fnName ++ "::" ++ n.id
  | dataflow fnName n => fnName ++ "::" ++ n.id
  | taint fnName n => fnName ++ "::" ++ n.id

/-- What tells nodes on one line apart. Kind: D -/
def place (x : ArtifactNode) : String := x.origin ++ ":" ++ x.qualifiedName

variable {F : Type} (sha : String → String)

/-- Source: `cpg/builder.py`, `build_cpg`. Kind: D -/
def cpgNode : ArtifactNode → CPGNode F
  | cfg fnName filePath n => cfgCpgNode sha fnName filePath n
  | ssa fnName n => ssaCpgNode sha fnName n
  | dataflow fnName n => dfgCpgNode sha fnName n
  | taint fnName n => taintCpgNode sha fnName n

/-- Source: `cpg/builder.py`, `nid`. Kind: D -/
def cpgId (x : ArtifactNode) : String := generateStableNodeId sha x.origin x.qualifiedName x.lineNumber 0 x.layer

variable {sha}

theorem id_cpgNode (x : ArtifactNode) : (x.cpgNode sha : CPGNode F).id = x.cpgId sha := by cases x <;> rfl

end ArtifactNode

/-- The link from a layer to the next. Source: `cpg/linking.py`, `link_representation_layers`. Kind: D -/
def linkType : NodeType → NodeType → Option EdgeType
  | .cfg, .ssa => some .ssaVersion
  | .ssa, .dataflow => some .dataflow
  | .dataflow, .taint => some .taint
  | _, _ => none

namespace Artifacts

/-- The nodes of all artifacts. Kind: D -/
def nodes (a : Artifacts) : List ArtifactNode :=
  (a.cfgs.entries.flatMap fun e => e.2.nodes.values.map (.cfg e.1 e.2.filePath)) ++
    (a.ssaFunctions.entries.flatMap fun e => e.2.nodes.map (.ssa e.1)) ++
    (a.dfgMap.entries.flatMap fun e => e.2.nodes.values.map (.dataflow e.1)) ++
    (a.taintGraphs.entries.flatMap fun e => e.2.nodes.values.map (.taint e.1))

end Artifacts

/-- The graph is faithful to the artifacts. Source: `cpg/builder.py`, `build_cpg`. Kind: D -/
structure Merged {F : Type} (sha : String → String) (a : Artifacts) (g : CPGGraph F) : Prop where
  /-- The image of a node is its own. -/
  node : ∀ x ∈ a.nodes, g.nodes.get? (x.cpgId sha) = some (x.cpgNode sha)
  apart : ∀ x ∈ a.nodes, ∀ y ∈ a.nodes, x.cpgId sha = y.cpgId sha → x = y
  /-- Edges lead between the images of their ends. -/
  cfgEdge : ∀ fn cfg, (fn, cfg) ∈ a.cfgs.entries → ∀ e ∈ cfg.edges, ∀ m ∈ cfg.nodes.values, ∀ n ∈ cfg.nodes.values,
    m.id = e.sourceId → n.id = e.targetId →
    ⟨(ArtifactNode.cfg fn cfg.filePath m).cpgId sha, (ArtifactNode.cfg fn cfg.filePath n).cpgId sha, .cfgFlow⟩ ∈ g.edges
  dfgEdge : ∀ fn dfg, (fn, dfg) ∈ a.dfgMap.entries → ∀ e ∈ dfg.edges, ∀ m ∈ dfg.nodes.values, ∀ n ∈ dfg.nodes.values,
    m.id = e.sourceId → n.id = e.targetId →
    ⟨(ArtifactNode.dataflow fn m).cpgId sha, (ArtifactNode.dataflow fn n).cpgId sha, .dataflow⟩ ∈ g.edges
  taintEdge : ∀ fn tg, (fn, tg) ∈ a.taintGraphs.entries → ∀ e ∈ tg.edges, ∀ m ∈ tg.nodes.values, ∀ n ∈ tg.nodes.values,
    m.id = e.sourceId → n.id = e.targetId →
    ⟨(ArtifactNode.taint fn m).cpgId sha, (ArtifactNode.taint fn n).cpgId sha, .taint⟩ ∈ g.edges
  /-- The layers are joined where they stand on one line of a function. -/
  joined : ∀ x ∈ a.nodes, ∀ y ∈ a.nodes, ∀ t, linkType x.layer y.layer = some t → x.fnName = y.fnName →
    x.lineNumber = y.lineNumber → ⟨x.cpgId sha, y.cpgId sha, t⟩ ∈ g.edges
  /-- No edge leads into another function. -/
  within : ∀ e ∈ g.edges, ∀ x ∈ a.nodes, ∀ y ∈ a.nodes, e.sourceId = x.cpgId sha → e.targetId = y.cpgId sha →
    x.fnName = y.fnName

/-- The artifacts that are merged as they should. Kind: D -/
structure Mergeable (a : Artifacts) : Prop where
  apart : ∀ x ∈ a.nodes, ∀ y ∈ a.nodes, x.layer = y.layer → x.place = y.place → x.lineNumber = y.lineNumber → x = y
  /-- No edge leads from a taint node to a taint node. -/
  unread : ∀ fn tg, (fn, tg) ∈ a.taintGraphs.entries → ∀ e ∈ tg.edges, ∀ m ∈ tg.nodes.values, ∀ n ∈ tg.nodes.values,
    m.id = e.sourceId → n.id ≠ e.targetId
  /-- No two layers that the linker is for share a line of a function. -/
  offLine : ∀ x ∈ a.nodes, ∀ y ∈ a.nodes, (linkType x.layer y.layer).isSome → x.fnName = y.fnName →
    x.lineNumber ≠ y.lineNumber

/-! ## Identifiers -/

theorem value_injective : Function.Injective NodeType.value := by
  intro t u h
  cases t <;> cases u <;> first | rfl | exact absurd h (by decide)

theorem colon_not_mem_value (t : NodeType) : ':' ∉ t.value.toList := by cases t <;> decide

/-- Up to the place, the parts of the text can be told. Source: `cpg/models.py`, `generate_stable_node_id`. Kind: L -/
theorem rawNodeId_inj {f f' q q' : String} {l l' c c' : ℤ} {t t' : NodeType}
    (h : rawNodeId f q l c t = rawNodeId f' q' l' c' t') : f ++ ":" ++ q = f' ++ ":" ++ q' ∧ l = l' ∧ t = t' := by
  have hint := colon_not_mem_int
  obtain ⟨h, htype⟩ := append_colon_inj (colon_not_mem_value t) (colon_not_mem_value t') h
  obtain ⟨h, -⟩ := append_colon_inj (hint c) (hint c') h
  obtain ⟨h, hline⟩ := append_colon_inj (hint l) (hint l') h
  exact ⟨h, toString_int_inj hline, value_injective htype⟩

section ids

variable {sha : String → String} {x y : ArtifactNode}

theorem ArtifactNode.cpgId_eq_iff (hsha : Function.Injective sha) :
    x.cpgId sha = y.cpgId sha ↔ x.layer = y.layer ∧ x.place = y.place ∧ x.lineNumber = y.lineNumber := by
  constructor
  · intro h
    obtain ⟨hplace, hline, hlayer⟩ := rawNodeId_inj (hsha h)
    exact ⟨hlayer, hplace, hline⟩
  · simp_all [cpgId, generateStableNodeId, rawNodeId, place]

end ids

/-! ## What the steps add -/

/-- The nodes that were added, and the edges. Kind: D -/
structure Holds {F : Type} (g : CPGGraph F) (added : List (CPGNode F)) (edges : List CPGEdge) : Prop where
  nodes : g.nodes = .ofList (added.map fun n => (n.id, n))
  edges : g.edges = edges

section holds

variable {F : Type} {g : CPGGraph F} {added : List (CPGNode F)} {edges : List CPGEdge} {α : Type}

theorem holds_empty : Holds (CPGGraph.empty : CPGGraph F) [] [] := ⟨rfl, rfl⟩

theorem Holds.addNode (h : Holds g added edges) (n : CPGNode F) : Holds (g.addNode n) (added ++ [n]) edges := by
  refine ⟨?_, h.edges⟩
  rw [List.map_append, List.map_singleton, Dict.ofList_snoc, ← h.nodes]
  rfl

theorem Holds.addEdge (h : Holds g added edges) (e : CPGEdge) : Holds (g.addEdge e) added (edges ++ [e]) :=
  ⟨h.nodes, congrArg (· ++ [e]) h.edges⟩

theorem Holds.addNodes (h : Holds g added edges) (node : α → CPGNode F) (l : List α) :
    Holds (l.foldl (fun g x => g.addNode (node x)) g) (added ++ l.map node) edges := by
  induction l generalizing g added with
  | nil =>
    rw [List.map_nil, List.append_nil]
    exact h
  | cons x l ih =>
    rw [List.map_cons, List.append_cons]
    exact ih (h.addNode (node x))

theorem Holds.addEdges (h : Holds g added edges) (l : List CPGEdge) : Holds (l.foldl CPGGraph.addEdge g) added (edges ++ l) := by
  induction l generalizing g edges with
  | nil =>
    rw [List.append_nil]
    exact h
  | cons e l ih =>
    rw [List.append_cons]
    exact ih (h.addEdge e)

/-- Steps that each add something add it all together. Kind: L -/
theorem Holds.foldl {step : CPGGraph F → α → CPGGraph F} (nodesOf : α → List (CPGNode F)) (edgesOf : α → List CPGEdge)
    (hstep : ∀ {g added edges} x, Holds g added edges → Holds (step g x) (added ++ nodesOf x) (edges ++ edgesOf x))
    (h : Holds g added edges) (l : List α) :
    Holds (l.foldl step g) (added ++ l.flatMap nodesOf) (edges ++ l.flatMap edgesOf) := by
  induction l generalizing g added edges with
  | nil =>
    rw [List.flatMap_nil, List.flatMap_nil, List.append_nil, List.append_nil]
    exact h
  | cons x l ih =>
    rw [List.flatMap_cons, List.flatMap_cons, ← List.append_assoc, ← List.append_assoc]
    exact ih (hstep x h)

/-- A layer of a function adds its nodes, and its edges between known ends. Source: `cpg/builder.py`, `build_cpg`. Kind: L -/
theorem Holds.addLayer (h : Holds g added edges) (t : EdgeType) (nodes : List (String × CPGNode F))
    (ends : List (String × String)) :
    Holds (addLayer t g nodes ends) (added ++ nodes.map Prod.snd) (edges ++ ends.filterMap (mapEdge (idMap nodes) t)) :=
  (h.addNodes Prod.snd nodes).addEdges _

end holds

/-! ## Known ends -/

section ends

variable {F : Type} {nodes : List (String × CPGNode F)} {k v : String} {t : EdgeType} {ends : List (String × String)}

theorem exists_of_idMap (h : (idMap nodes).get? k = some v) : ∃ e ∈ nodes, e.1 = k ∧ e.2.id = v := by
  obtain ⟨e, he, heq⟩ := List.mem_map.mp (Dict.mem_of_get?_ofList h)
  obtain ⟨hk, hv⟩ := Prod.mk.inj heq
  exact ⟨e, he, hk, hv⟩

theorem exists_idMap {e : String × CPGNode F} (he : e ∈ nodes) : ∃ v, (idMap nodes).get? e.1 = some v := by
  refine Option.isSome_iff_exists.mp (Dict.get?_isSome.mpr (Dict.mem_keys_ofList.mpr ?_))
  rw [List.map_map]
  exact List.mem_map_of_mem (f := Prod.fst) he

theorem mem_mapEdge {ce : CPGEdge} : ce ∈ ends.filterMap (mapEdge (idMap nodes) t) ↔ ∃ e ∈ ends,
    (idMap nodes).get? e.1 = some ce.sourceId ∧ (idMap nodes).get? e.2 = some ce.targetId ∧ ce.edgeType = t := by
  rw [List.mem_filterMap]
  refine exists_congr fun e => and_congr_right fun _ => ?_
  unfold mapEdge
  constructor
  · grind
  · rintro ⟨hsrc, htgt, rfl⟩
    rw [hsrc, htgt]

end ends

/-! ## The whole graph -/

section build

variable {F : Type} (sha : String → String)

/-- The nodes of a function, with the identifiers that they have in its graph. Kind: D -/
def cfgNodes (entry : String × CFG) : List (String × CPGNode F) :=
  entry.2.nodes.values.map fun n => (n.id, cfgCpgNode sha entry.1 entry.2.filePath n)

def dfgNodes (entry : String × DataFlowGraph) : List (String × CPGNode F) :=
  entry.2.nodes.values.map fun n => (n.id, dfgCpgNode sha entry.1 n)

def taintNodes (entry : String × TaintGraph) : List (String × CPGNode F) :=
  entry.2.nodes.values.map fun n => (n.id, taintCpgNode sha entry.1 n)

/-- The edges of a function whose ends are known. Kind: D -/
def cfgEdges (F : Type) (entry : String × CFG) : List CPGEdge :=
  (entry.2.edges.map fun e => (e.sourceId, e.targetId)).filterMap
    (mapEdge (idMap (cfgNodes sha entry : List (String × CPGNode F))) .cfgFlow)

def dfgEdges (F : Type) (entry : String × DataFlowGraph) : List CPGEdge :=
  (entry.2.edges.map fun e => (e.sourceId, e.targetId)).filterMap
    (mapEdge (idMap (dfgNodes sha entry : List (String × CPGNode F))) .dataflow)

def taintEdges (F : Type) (entry : String × TaintGraph) : List CPGEdge :=
  (entry.2.edges.map fun e => (e.sourceId, e.targetId)).filterMap
    (mapEdge (idMap (taintNodes sha entry : List (String × CPGNode F))) .taint)

namespace Artifacts

/-- All nodes that are added. Source: `cpg/builder.py`, `build_cpg`. Kind: D -/
def cpgNodes (F : Type) (a : Artifacts) : List (CPGNode F) :=
  a.fileNodes.map (fileCpgNode sha) ++ a.irFunctions.map (functionCpgNode sha) ++ a.nodes.map (ArtifactNode.cpgNode sha) ++
    (a.itg.vulnerablePaths.flatMap fun path => path.callChain).map (callCpgNode sha)

/-- All edges that are added. Source: `cpg/builder.py`, `build_cpg`. Kind: D -/
def cpgEdges (F : Type) (a : Artifacts) : List CPGEdge :=
  a.cfgs.entries.flatMap (cfgEdges sha F) ++ a.dfgMap.entries.flatMap (dfgEdges sha F)

end Artifacts

variable {sha} {a : Artifacts} {g : CPGGraph F}

/-- Steps that may end the run all pass or one ends it. Kind: L -/
theorem foldlM_ite {α β : Type} {p : α → Prop} [DecidablePred p] (f : β → α → β) (l : List α) (b : β) :
    l.foldlM (fun b x => if p x then some (f b x) else none) b = if ∀ x ∈ l, p x then some (l.foldl f b) else none := by
  induction l generalizing b with
  | nil => rw [if_pos fun x hx => absurd hx List.not_mem_nil]; rfl
  | cons x l ih =>
    rw [List.foldlM_cons]
    by_cases hx : p x
    · simp_all
    · simp_all

theorem addTaint_eq (g : CPGGraph F) (entry : String × TaintGraph) : addTaint sha g entry =
    if taintEdges sha F entry = [] then some (addLayer .taint g (taintNodes sha entry) []) else none := by
  unfold addTaint
  exact if_congr List.isEmpty_iff rfl rfl

theorem Holds.mem_of_get? {added : List (CPGNode F)} {edges : List CPGEdge} (h : Holds g added edges) {k : String}
    {n : CPGNode F} (hget : g.nodes.get? k = some n) : n ∈ added ∧ n.id = k := by
  rw [h.nodes] at hget
  obtain ⟨m, hm, heq⟩ := List.mem_map.mp (Dict.mem_of_get?_ofList hget)
  obtain ⟨rfl, rfl⟩ := Prod.mk.inj heq
  exact ⟨hm, rfl⟩

/-- Only files, functions and nodes of control flow graphs have a file. Source: `cpg/builder.py`, `build_cpg`. Kind: L -/
theorem nodeType_of_filePath {n : CPGNode F} (hn : n ∈ a.cpgNodes sha F) (hfile : n.filePath ≠ "") :
    n.nodeType = .ast ∨ n.nodeType = .function ∨ n.nodeType = .cfg := by
  unfold Artifacts.cpgNodes at hn
  rw [List.mem_append, List.mem_append, List.mem_append] at hn
  rcases hn with ((hn | hn) | hn) | hn
  · obtain ⟨fn, -, rfl⟩ := List.mem_map.mp hn
    exact .inl rfl
  · obtain ⟨f, -, rfl⟩ := List.mem_map.mp hn
    exact .inr (.inl rfl)
  · obtain ⟨x, -, rfl⟩ := List.mem_map.mp hn
    cases x with
    | cfg => exact .inr (.inr rfl)
    | ssa | dataflow | taint => exact absurd rfl hfile
  · obtain ⟨cs, -, rfl⟩ := List.mem_map.mp hn
    exact absurd rfl hfile

theorem pairLinks_eq_nil {nodes : List (CPGNode F)} {first next : NodeType} (t : EdgeType)
    (h : (∀ n ∈ nodes, n.nodeType ≠ first) ∨ ∀ n ∈ nodes, n.nodeType ≠ next) : pairLinks nodes first next t = [] := by
  have hnone : ∀ {u}, (∀ n ∈ nodes, n.nodeType ≠ u) → nodes.filter (fun n => n.nodeType = u) = [] := fun hu =>
    List.filter_eq_nil_iff.mpr fun n hn htype => hu n hn (of_decide_eq_true htype)
  unfold pairLinks
  rcases h with h | h
  · rw [hnone h]
    rfl
  · simp_all

/-- **The linker adds no edge.** Source: `cpg/linking.py`, `link_representation_layers`. Kind: P -/
theorem links_eq_nil {edges : List CPGEdge} (h : Holds g (a.cpgNodes sha F) edges) :
    (locationMap g).values.flatMap locationLinks = [] := by
  refine List.flatMap_eq_nil_iff.mpr fun group hgroup => ?_
  have htype : ∀ n ∈ group, n.nodeType = .ast ∨ n.nodeType = .function ∨ n.nodeType = .cfg := by
    intro n hn
    obtain ⟨location, hget⟩ := Dict.mem_values.mp hgroup
    obtain ⟨-, rfl⟩ := Dict.mem_entries_groupBy.mp (Dict.mem_entries.mpr hget)
    obtain ⟨hvalues, hfile⟩ := List.mem_filter.mp (List.mem_filter.mp hn).1
    obtain ⟨k, hk⟩ := Dict.mem_values.mp hvalues
    exact nodeType_of_filePath (h.mem_of_get? hk).1 (of_decide_eq_true hfile)
  have hother : ∀ {u}, u ≠ .ast → u ≠ .function → u ≠ .cfg → ∀ n ∈ group, n.nodeType ≠ u := by grind
  unfold locationLinks
  rw [pairLinks_eq_nil _ (.inr (hother (by decide) (by decide) (by decide))),
    pairLinks_eq_nil _ (.inl (hother (by decide) (by decide) (by decide))),
    pairLinks_eq_nil _ (.inr (hother (by decide) (by decide) (by decide))),
    pairLinks_eq_nil _ (.inl (hother (by decide) (by decide) (by decide))),
    pairLinks_eq_nil _ (.inr (hother (by decide) (by decide) (by decide)))]
  rfl

theorem map_nodes (a : Artifacts) : (a.nodes.map (ArtifactNode.cpgNode sha) : List (CPGNode F)) =
    (a.cfgs.entries.flatMap fun e => (cfgNodes sha e).map Prod.snd) ++
      (a.ssaFunctions.entries.flatMap fun e => e.2.nodes.map (ssaCpgNode sha e.1)) ++
      (a.dfgMap.entries.flatMap fun e => (dfgNodes sha e).map Prod.snd) ++
      (a.taintGraphs.entries.flatMap fun e => (taintNodes sha e).map Prod.snd) := by
  simp only [Artifacts.nodes, cfgNodes, dfgNodes, taintNodes, List.map_append, List.map_flatMap, List.map_map]
  rfl

/-- The graph before the linker. Source: `cpg/builder.py`, `build_cpg`. Kind: L -/
theorem holds_unlinked (sha : String → String) (a : Artifacts) : Holds
    ((a.itg.vulnerablePaths.flatMap fun path => path.callChain).foldl (fun g cs => g.addNode (callCpgNode sha cs))
      (a.taintGraphs.entries.foldl (fun g entry => addLayer .taint g (taintNodes sha entry) [])
        (a.dfgMap.entries.foldl (addDfg sha) (a.ssaFunctions.entries.foldl (addSsa sha) (a.cfgs.entries.foldl (addCfg sha)
          (a.irFunctions.foldl (fun g f => g.addNode (functionCpgNode sha f))
            (a.fileNodes.foldl (fun g fn => g.addNode (fileCpgNode sha fn)) CPGGraph.empty)))))))
    (a.cpgNodes sha F) (a.cpgEdges sha F) := by
  have hfunctions : Holds (F := F) _ _ _ := (holds_empty.addNodes (fileCpgNode sha) a.fileNodes).addNodes
    (functionCpgNode sha) a.irFunctions
  have hcfgs := hfunctions.foldl (fun e => (cfgNodes sha e).map Prod.snd) (cfgEdges sha F)
    (fun e h => h.addLayer .cfgFlow (cfgNodes sha e) _) a.cfgs.entries
  have hssas := hcfgs.foldl (fun e => e.2.nodes.map (ssaCpgNode sha e.1)) (fun _ => []) (fun e h => by
    have hlayer := h.addLayer .ssaVersion (e.2.nodes.map fun n => (n.id, ssaCpgNode sha e.1 n)) []
    rw [List.map_map] at hlayer
    exact hlayer) a.ssaFunctions.entries
  have hdfgs := hssas.foldl (fun e => (dfgNodes sha e).map Prod.snd) (dfgEdges sha F)
    (fun e h => h.addLayer .dataflow (dfgNodes sha e) _) a.dfgMap.entries
  have htaints := hdfgs.foldl (fun e => (taintNodes sha e).map Prod.snd) (fun _ => [])
    (fun e h => h.addLayer .taint (taintNodes sha e) []) a.taintGraphs.entries
  have hcalls := htaints.addNodes (callCpgNode sha) (a.itg.vulnerablePaths.flatMap fun path => path.callChain)
  have hnil : ∀ {α : Type} (l : List α), (l.flatMap fun _ => ([] : List CPGEdge)) = [] := fun l =>
    List.flatMap_eq_nil_iff.mpr fun _ _ => rfl
  rw [hnil, hnil, List.append_nil, List.append_nil] at hcalls
  unfold Artifacts.cpgNodes Artifacts.cpgEdges
  rw [map_nodes]
  simp only [List.append_assoc, List.nil_append] at hcalls ⊢
  exact hcalls

/-- The run ends with a graph if no edge between taint nodes is read. Source: `cpg/builder.py`, `build_cpg`. Kind: L -/
theorem buildCpg_eq (sha : String → String) (a : Artifacts) : ∃ g : CPGGraph F, Holds g (a.cpgNodes sha F) (a.cpgEdges sha F) ∧
    buildCpg sha a = if ∀ e ∈ a.taintGraphs.entries, taintEdges sha F e = [] then some g else none := by
  have hsame : addTaint sha = fun (g : CPGGraph F) entry => if taintEdges sha F entry = [] then
      some (addLayer .taint g (taintNodes sha entry) []) else none := funext₂ addTaint_eq
  have hunlinked := holds_unlinked (F := F) sha a
  refine ⟨_, hunlinked, ?_⟩
  unfold buildCpg
  dsimp only
  rw [hsame, foldlM_ite]
  split_ifs
  · grind [linkRepresentationLayers, links_eq_nil]
  · rfl

end build

/-! ## Images -/

section images

variable {F : Type} {sha : String → String} {a : Artifacts}

/-- Nodes held under their identifiers are told apart by them. Kind: L -/
theorem unique_of_keyed {ν : Type} {d : Dict String ν} {id : ν → String} (hkeyed : ∀ k n, d.get? k = some n → id n = k)
    {m n : ν} (hm : m ∈ d.values) (hn : n ∈ d.values) (h : id m = id n) : m = n := by
  obtain ⟨k, hk⟩ := Dict.mem_values.mp hm
  obtain ⟨l, hl⟩ := Dict.mem_values.mp hn
  rw [← hkeyed k m hk, h] at hk
  rw [← hkeyed l n hl] at hl
  exact Option.some.inj (hk.symm.trans hl)

/-- An edge leads between the images of its ends. Kind: L -/
theorem image_mem {ν : Type} {d : Dict String ν} {id : ν → String} (hkeyed : ∀ k n, d.get? k = some n → id n = k)
    (node : ν → CPGNode F) (t : EdgeType) {ends : List (String × String)} {m n : ν} (hm : m ∈ d.values) (hn : n ∈ d.values)
    (h : (id m, id n) ∈ ends) : ⟨(node m).id, (node n).id, t⟩ ∈
      ends.filterMap (mapEdge (idMap (d.values.map fun v => (id v, node v))) t) := by
  have hends : ∀ v ∈ d.values, (idMap (d.values.map fun v => (id v, node v))).get? (id v) = some (node v).id := by
    intro v hv
    obtain ⟨i, hi⟩ := exists_idMap (List.mem_map_of_mem (f := fun v => (id v, node v)) hv)
    obtain ⟨e, he, hkey, rfl⟩ := exists_of_idMap hi
    obtain ⟨w, hw, rfl⟩ := List.mem_map.mp he
    rw [hi, unique_of_keyed hkeyed hw hv hkey]
  exact mem_mapEdge.mpr ⟨_, h, hends m hm, hends n hn, rfl⟩

/-- An edge that is added is the image of one. Kind: L -/
theorem exists_of_image {ν : Type} {l : List ν} {id : ν → String} {node : ν → CPGNode F} {t : EdgeType}
    {ends : List (String × String)} {ce : CPGEdge}
    (h : ce ∈ ends.filterMap (mapEdge (idMap (l.map fun v => (id v, node v))) t)) :
    ∃ m ∈ l, ∃ n ∈ l, (id m, id n) ∈ ends ∧ ce = ⟨(node m).id, (node n).id, t⟩ := by
  obtain ⟨⟨k, k'⟩, hends, hsrc, htgt, rfl⟩ := mem_mapEdge.mp h
  obtain ⟨e, he, hkey, hsource⟩ := exists_of_idMap hsrc
  obtain ⟨e', he', hkey', htarget⟩ := exists_of_idMap htgt
  obtain ⟨m, hm, rfl⟩ := List.mem_map.mp he
  obtain ⟨n, hn, rfl⟩ := List.mem_map.mp he'
  obtain rfl : id m = k := hkey
  obtain rfl : id n = k' := hkey'
  refine ⟨m, hm, n, hn, hends, ?_⟩
  change (node m).id = ce.sourceId at hsource
  change (node n).id = ce.targetId at htarget
  rw [hsource, htarget]

/-- An edge that is added leads between nodes of one layer of one function. Source: `cpg/builder.py`, `build_cpg`. Kind: L -/
theorem exists_of_mem_cpgEdges {ce : CPGEdge} (h : ce ∈ a.cpgEdges sha F) : ∃ x ∈ a.nodes, ∃ y ∈ a.nodes,
    x.layer = y.layer ∧ x.fnName = y.fnName ∧ ce.sourceId = x.cpgId sha ∧ ce.targetId = y.cpgId sha := by
  unfold Artifacts.cpgEdges at h
  rcases List.mem_append.mp h with h | h
  · obtain ⟨⟨fn, cfg⟩, hentry, hce⟩ := List.mem_flatMap.mp h
    obtain ⟨m, hm, n, hn, -, rfl⟩ := exists_of_image hce
    have hmem : ∀ v ∈ cfg.nodes.values, ArtifactNode.cfg fn cfg.filePath v ∈ a.nodes := fun v hv =>
      List.mem_append_left _ (List.mem_append_left _ (List.mem_append_left _
        (List.mem_flatMap.mpr ⟨_, hentry, List.mem_map_of_mem hv⟩)))
    exact ⟨_, hmem m hm, _, hmem n hn, rfl, rfl, rfl, rfl⟩
  · obtain ⟨⟨fn, dfg⟩, hentry, hce⟩ := List.mem_flatMap.mp h
    obtain ⟨m, hm, n, hn, -, rfl⟩ := exists_of_image hce
    have hmem : ∀ v ∈ dfg.nodes.values, ArtifactNode.dataflow fn v ∈ a.nodes := fun v hv =>
      List.mem_append_left _ (List.mem_append_right _ (List.mem_flatMap.mpr ⟨_, hentry, List.mem_map_of_mem hv⟩))
    exact ⟨_, hmem m hm, _, hmem n hn, rfl, rfl, rfl, rfl⟩

/-- No edge between taint nodes is read where none has two known ends. Source: `cpg/builder.py`, `build_cpg`. Kind: L -/
theorem taintEdges_eq_nil_iff {fn : String} {tg : TaintGraph} : taintEdges sha F (fn, tg) = [] ↔ ∀ e ∈ tg.edges,
    ∀ m ∈ tg.nodes.values, ∀ n ∈ tg.nodes.values, m.id = e.sourceId → n.id ≠ e.targetId := by
  unfold taintEdges
  rw [List.eq_nil_iff_forall_not_mem]
  constructor
  · intro h e he m hm n hn hsource htarget
    obtain ⟨src, hsrc⟩ := exists_idMap (List.mem_map_of_mem (f := fun v : TaintNode => (v.id, (taintCpgNode sha fn v : CPGNode F)))
      hm)
    obtain ⟨tgt, htgt⟩ := exists_idMap (List.mem_map_of_mem (f := fun v : TaintNode => (v.id, (taintCpgNode sha fn v : CPGNode F)))
      hn)
    rw [hsource] at hsrc
    rw [htarget] at htgt
    exact h ⟨src, tgt, .taint⟩ (mem_mapEdge.mpr ⟨_, List.mem_map_of_mem he, hsrc, htgt, rfl⟩)
  · intro h ce hce
    obtain ⟨m, hm, n, hn, hends, -⟩ := exists_of_image hce
    obtain ⟨e, he, heq⟩ := List.mem_map.mp hends
    obtain ⟨hsource, htarget⟩ := Prod.mk.inj heq
    exact h e he m hm n hn hsource.symm htarget.symm

/-- Under the identifier of a node stand only nodes of artifacts. Source: `cpg/builder.py`, `build_cpg`. Kind: L -/
theorem exists_of_mem_cpgNodes (hsha : Function.Injective sha) {m : CPGNode F} (hm : m ∈ a.cpgNodes sha F) {x : ArtifactNode}
    (h : m.id = x.cpgId sha) : ∃ y ∈ a.nodes, m = y.cpgNode sha ∧ y.cpgId sha = x.cpgId sha := by
  have hother : ∀ {f q l t}, generateStableNodeId sha f q l 0 t = x.cpgId sha → t = x.layer := fun heq =>
    (rawNodeId_inj (hsha heq)).2.2
  unfold Artifacts.cpgNodes at hm
  rw [List.mem_append, List.mem_append, List.mem_append] at hm
  rcases hm with ((hm | hm) | hm) | hm
  · obtain ⟨fn, -, rfl⟩ := List.mem_map.mp hm
    cases x <;> cases hother h
  · obtain ⟨f, -, rfl⟩ := List.mem_map.mp hm
    cases x <;> cases hother h
  · obtain ⟨y, hy, rfl⟩ := List.mem_map.mp hm
    exact ⟨y, hy, rfl, y.id_cpgNode.symm.trans h⟩
  · obtain ⟨cs, -, rfl⟩ := List.mem_map.mp hm
    cases x <;> cases hother h

/-- The image of a node is its own where identifiers tell nodes apart. Source: `cpg/builder.py`, `build_cpg`. Kind: L -/
theorem Holds.get?_cpgId (hsha : Function.Injective sha) {g : CPGGraph F} {edges : List CPGEdge}
    (h : Holds g (a.cpgNodes sha F) edges) (hapart : ∀ x ∈ a.nodes, ∀ y ∈ a.nodes, x.cpgId sha = y.cpgId sha → x = y)
    {x : ArtifactNode} (hx : x ∈ a.nodes) : g.nodes.get? (x.cpgId sha) = some (x.cpgNode sha) := by
  have hadded : (x.cpgNode sha : CPGNode F) ∈ a.cpgNodes sha F :=
    List.mem_append_left _ (List.mem_append_right _ (List.mem_map_of_mem hx))
  have hkey : x.cpgId sha ∈ g.nodes.keys := by
    rw [h.nodes, Dict.mem_keys_ofList, List.map_map]
    exact List.mem_map.mpr ⟨_, hadded, x.id_cpgNode⟩
  obtain ⟨m, hget⟩ := Option.isSome_iff_exists.mp (Dict.get?_isSome.mpr hkey)
  obtain ⟨hm, hid⟩ := h.mem_of_get? hget
  obtain ⟨y, hy, rfl, hyx⟩ := exists_of_mem_cpgNodes hsha hm hid
  rw [hget, hapart y hy x hx hyx]

end images

/-! ## When the merge is faithful -/

/-- The run ends with a graph, and it is faithful. Source: `cpg/builder.py`, `build_cpg`. Kind: D -/
def Faithful (F : Type) (sha : String → String) (a : Artifacts) : Prop :=
  ∃ g : CPGGraph F, buildCpg sha a = some g ∧ Merged sha a g

section faithful

variable {F : Type} {sha : String → String} {a : Artifacts}

theorem ne_of_linkType {x y : ArtifactNode} (h : (linkType x.layer y.layer).isSome) : x.layer ≠ y.layer := by
  cases x <;> cases y <;> first | exact absurd h Bool.false_ne_true | exact NodeType.noConfusion

theorem mergeable_of_faithful (hsha : Function.Injective sha) (h : Faithful F sha a) : Mergeable a := by
  obtain ⟨g, hbuild, hmerged⟩ := h
  obtain ⟨g', hholds, heq⟩ := buildCpg_eq (F := F) sha a
  rw [hbuild] at heq
  split_ifs at heq with hunread
  obtain rfl := Option.some.inj heq
  refine ⟨fun x hx y hy hlayer hplace hline => ?_, fun fn tg hentry => ?_, fun x hx y hy hlink hfn hline => ?_⟩
  · exact hmerged.apart x hx y hy ((ArtifactNode.cpgId_eq_iff hsha).mpr ⟨hlayer, hplace, hline⟩)
  · exact taintEdges_eq_nil_iff.mp (hunread _ hentry)
  · -- an edge stays in its layer
    obtain ⟨t, ht⟩ := Option.isSome_iff_exists.mp hlink
    have hedge := hmerged.joined x hx y hy t ht hfn hline
    rw [hholds.edges] at hedge
    obtain ⟨u, -, w, -, hlayer, -, hu, hw⟩ := exists_of_mem_cpgEdges hedge
    obtain ⟨hxu, -⟩ := (ArtifactNode.cpgId_eq_iff hsha).mp hu
    obtain ⟨hyw, -⟩ := (ArtifactNode.cpgId_eq_iff hsha).mp hw
    exact ne_of_linkType hlink (by rw [hxu, hyw, hlayer])

theorem faithful_of_mergeable (hsha : Function.Injective sha) (h : Mergeable a) : Faithful F sha a := by
  obtain ⟨g, hholds, heq⟩ := buildCpg_eq (F := F) sha a
  have hunread : ∀ e ∈ a.taintGraphs.entries, taintEdges sha F e = [] := fun e he =>
    taintEdges_eq_nil_iff.mpr (h.unread e.1 e.2 he)
  rw [if_pos hunread] at heq
  have hapart : ∀ x ∈ a.nodes, ∀ y ∈ a.nodes, x.cpgId sha = y.cpgId sha → x = y := by
    intro x hx y hy hid
    obtain ⟨hlayer, hplace, hline⟩ := (ArtifactNode.cpgId_eq_iff hsha).mp hid
    exact h.apart x hx y hy hlayer hplace hline
  refine ⟨g, heq, ?_⟩
  constructor
  case node => exact fun x hx => hholds.get?_cpgId hsha hapart hx
  case apart => exact hapart
  case cfgEdge =>
    intro fn cfg hentry e he m hm n hn hsource htarget
    have hends : (m.id, n.id) ∈ cfg.edges.map fun e => (e.sourceId, e.targetId) :=
      List.mem_map.mpr ⟨e, he, by rw [hsource, htarget]⟩
    rw [hholds.edges]
    exact List.mem_append_left _ (List.mem_flatMap.mpr ⟨_, hentry, image_mem (a.cfg_keyed fn cfg hentry) _ _ hm hn hends⟩)
  case dfgEdge =>
    intro fn dfg hentry e he m hm n hn hsource htarget
    have hends : (m.id, n.id) ∈ dfg.edges.map fun e => (e.sourceId, e.targetId) :=
      List.mem_map.mpr ⟨e, he, by rw [hsource, htarget]⟩
    rw [hholds.edges]
    exact List.mem_append_right _ (List.mem_flatMap.mpr ⟨_, hentry, image_mem (a.dfg_keyed fn dfg hentry) _ _ hm hn hends⟩)
  case taintEdge =>
    intro fn tg hentry e he m hm n hn hsource htarget
    exact absurd htarget (h.unread fn tg hentry e he m hm n hn hsource)
  case joined =>
    intro x hx y hy t ht hfn hline
    exact absurd hline (h.offLine x hx y hy (by rw [ht]; rfl) hfn)
  case within =>
    intro e he x hx y hy hsource htarget
    rw [hholds.edges] at he
    obtain ⟨u, hu, w, hw, -, hfn, husource, hwtarget⟩ := exists_of_mem_cpgEdges he
    rw [hapart x hx u hu (hsource.symm.trans husource), hapart y hy w hw (htarget.symm.trans hwtarget)]
    exact hfn

/-- **The merge is faithful exactly where nothing is shared, read or to be linked.** Source: `cpg/builder.py`, `build_cpg`.
Kind: P -/
theorem merged_iff (hsha : Function.Injective sha) : Faithful F sha a ↔ Mergeable a :=
  ⟨mergeable_of_faithful hsha, faithful_of_mergeable hsha⟩

end faithful

/-! ## Graphs of one function -/

/-- The artifacts of a function with a control flow graph of one node and a single assignment form. Kind: D -/
def oneFunction (n : CFGNode) (form : SSAFunction) : Artifacts where
  fileNodes := []
  irFunctions := []
  cfgs := ⟨[("lookup", { functionName := "lookup", filePath := "app.py", nodes := ⟨[(n.id, n)], List.nodup_singleton _⟩ })],
    List.nodup_singleton _⟩
  ssaFunctions := ⟨[("lookup", form)], List.nodup_singleton _⟩
  dfgMap := .empty
  taintGraphs := .empty
  itg := {}
  cfg_keyed fn cfg hentry k m hm := by
    obtain ⟨-, rfl⟩ := Prod.mk.inj (List.mem_singleton.mp hentry)
    obtain ⟨rfl, rfl⟩ := Prod.mk.inj (List.mem_singleton.mp (Dict.mem_entries.mpr hm))
    rfl
  dfg_keyed fn dfg hentry := absurd hentry List.not_mem_nil

/-- The reading of a request, and what comes after it. Kind: D -/
def readsRequest : CFGNode := ⟨"lookup::stmt::3::1", .statement, 3, "raw = request.args['id']"⟩

def runsQuery : CFGNode := ⟨"lookup::stmt::4::2", .statement, 4, "rows = db.execute(raw)"⟩

/-- The statements of a function, one after the other. Kind: D -/
def lookupGraph : CFG where
  functionName := "lookup"
  filePath := "app.py"
  nodes := ⟨[(readsRequest.id, readsRequest), (runsQuery.id, runsQuery)], by decide⟩
  edges := [{ sourceId := readsRequest.id, targetId := runsQuery.id }]

/-- Two layers: the graph of a function, and the assignment of another function. Kind: D -/
def twoLayers : Artifacts where
  fileNodes := [⟨"app.py", "python"⟩]
  irFunctions := [⟨"lookup", 2, "app.py", "python"⟩, ⟨"render", 6, "app.py", "python"⟩]
  cfgs := ⟨[("lookup", lookupGraph)], List.nodup_singleton _⟩
  ssaFunctions := ⟨[("render", ⟨"render", "app.py",
    [{ id := "app.py::assign::7", lineNumber := 7, target := some ⟨"page", 1⟩ }], List.nodup_singleton _⟩)], List.nodup_singleton _⟩
  dfgMap := .empty
  taintGraphs := .empty
  itg := {}
  cfg_keyed fn cfg hentry k m hm := by
    obtain ⟨-, rfl⟩ := Prod.mk.inj (List.mem_singleton.mp hentry)
    have hkeyed : ∀ e ∈ lookupGraph.nodes.entries, e.2.id = e.1 := by decide
    exact hkeyed (k, m) (Dict.mem_entries.mpr hm)
  dfg_keyed fn dfg hentry := absurd hentry List.not_mem_nil

/-- Two layers of different functions are merged. Kind: P -/
theorem merged_iff_graphAlone : Faithful Empty id twoLayers := by
  refine (merged_iff Function.injective_id).mpr ⟨by decide +kernel, fun fn tg hentry => ?_, by decide +kernel⟩
  exact absurd hentry List.not_mem_nil

/-- A statement and its assignment stand on one line, and nothing joins them. Source: `cpg/linking.py`,
`link_representation_layers`. Kind: P -/
theorem statement_not_joined : ¬∀ (F : Type) (sha : String → String) (a : Artifacts), Function.Injective sha →
    Faithful F sha a := by
  intro h
  have hfaithful := h Empty id (oneFunction ⟨"lookup::stmt::3::1", .statement, 3, "rows = db.execute(raw)"⟩
    ⟨"lookup", "app.py", [{ id := "app.py::assign::3", lineNumber := 3, target := some ⟨"rows", 1⟩ }], List.nodup_singleton _⟩)
    Function.injective_id
  exact (mergeable_of_faithful Function.injective_id hfaithful).offLine _ List.mem_cons_self _
    (List.mem_cons_of_mem _ List.mem_cons_self) rfl rfl rfl

end KarsaSec.Cpg
