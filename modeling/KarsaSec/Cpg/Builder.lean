import KarsaSec.Interprocedural.Engine
import KarsaSec.Query.Model

/-!
# One graph of all artifacts

`cpg/builder.py` and `cpg/linking.py`: the nodes of the control flow graphs, single assignment forms, data flow graphs and taint
graphs of all functions become nodes of one graph, under the hash of a text that is made of their place and type.

* `Artifacts` are what is merged. The control and data flow graphs hold their nodes under their identifiers.
* `addLayer` is the step that the layers share: the nodes of a function, and then the edges between identifiers that have one.
* `buildCpg` is `none` where the code ends with an exception: an edge between taint nodes has no confidence to read.
-/

namespace KarsaSec.Cpg

open KarsaSec.Found
open KarsaSec.Interprocedural (CallSite InterproceduralTaintGraph)
open KarsaSec.Query (CPGEdge CPGGraph CPGNode EdgeType NodeType Value)
open KarsaSec.Taint (CFG CFGNode DataFlowGraph DataFlowNode SSAFunction SSANode TaintGraph TaintNode)

/-! ## The artifacts -/

/-- Source: `parser/ast_nodes.py`, `FileNode`. Kind: D -/
structure FileNode where
  filePath : String
  language : String

/-- Source: `ir/nodes.py`, `IRFunction`. Kind: D -/
structure IRFunction where
  name : String
  lineNumber : ℤ
  filePath : String
  language : String

/-- The arguments of the builder. Source: `cpg/builder.py`, `build_cpg`. Kind: D -/
structure Artifacts where
  fileNodes : List FileNode
  irFunctions : List IRFunction
  cfgs : Dict String CFG
  ssaFunctions : Dict String SSAFunction
  dfgMap : Dict String DataFlowGraph
  taintGraphs : Dict String TaintGraph
  itg : InterproceduralTaintGraph
  /-- A control flow graph holds a node under its identifier. -/
  cfg_keyed : ∀ fn cfg, (fn, cfg) ∈ cfgs.entries → ∀ k n, cfg.nodes.get? k = some n → n.id = k
  /-- A data flow graph holds a node under its identifier. -/
  dfg_keyed : ∀ fn dfg, (fn, dfg) ∈ dfgMap.entries → ∀ k n, dfg.nodes.get? k = some n → n.id = k

/-! ## The nodes -/

/-- The text that is hashed. Source: `cpg/models.py`, `generate_stable_node_id`. Kind: D -/
def rawNodeId (filePath qualifiedName : String) (lineNumber column : ℤ) (nodeType : NodeType) : String :=
  filePath ++ ":" ++ qualifiedName ++ ":" ++ toString lineNumber ++ ":" ++ toString column ++ ":" ++ nodeType.value

section nodes

variable {F : Type} (sha : String → String)

/-- Source: `cpg/models.py`, `generate_stable_node_id`. Kind: D -/
def generateStableNodeId (filePath qualifiedName : String) (lineNumber column : ℤ) (nodeType : NodeType) : String :=
  sha (rawNodeId filePath qualifiedName lineNumber column nodeType)

/-- Source: `cpg/builder.py`, `build_cpg`, step 1. Kind: D -/
def fileCpgNode (fn : FileNode) : CPGNode F where
  id := generateStableNodeId sha fn.filePath fn.filePath 1 0 .ast
  nodeType := .ast
  label := "File:" ++ fn.filePath
  filePath := fn.filePath
  lineNumber := 1
  language := fn.language
  labels := ["File", fn.language]

/-- Source: `cpg/builder.py`, `build_cpg`, step 2. Kind: D -/
def functionCpgNode (f : IRFunction) : CPGNode F where
  id := generateStableNodeId sha f.filePath f.name f.lineNumber 0 .function
  nodeType := .function
  label := "Function:" ++ f.name
  filePath := f.filePath
  lineNumber := f.lineNumber
  language := f.language
  labels := ["Function", "Code"]
  attributes := .ofList [("function_name", .str f.name)]

/-- A graph has no attribute `language`. Source: `cpg/builder.py`, `build_cpg`, step 3. Kind: D -/
def cfgCpgNode (fnName filePath : String) (n : CFGNode) : CPGNode F where
  id := generateStableNodeId sha filePath (fnName ++ "::" ++ n.id) n.lineNumber 0 .cfg
  nodeType := .cfg
  label := n.label
  filePath := filePath
  lineNumber := n.lineNumber
  language := "Generic"
  labels := ["CFGNode", n.nodeType.value]
  attributes := .ofList [("cfg_id", .str n.id), ("function_name", .str fnName)]

/-- A node has no attribute `target_var`, so it has neither name nor version. Source: `cpg/builder.py`, `build_cpg`, step 4.
Kind: D -/
def ssaCpgNode (fnName : String) (n : SSANode) : CPGNode F where
  id := generateStableNodeId sha "ssa" (fnName ++ "::" ++ n.id) n.lineNumber 0 .ssa
  nodeType := .ssa
  label := "SSA:ssa_var_0"
  lineNumber := n.lineNumber
  labels := ["SSA", "Variable"]
  attributes := .ofList [("variable", .str "ssa_var"), ("version", .int 0), ("function_name", .str fnName)]

/-- A node has no attribute `variable_name` or `var_name`. Source: `cpg/builder.py`, `build_cpg`, step 5. Kind: D -/
def dfgCpgNode (fnName : String) (n : DataFlowNode) : CPGNode F where
  id := generateStableNodeId sha "dfg" (fnName ++ "::" ++ n.id) n.lineNumber 0 .dataflow
  nodeType := .dataflow
  label := n.label
  lineNumber := n.lineNumber
  labels := ["DataFlow", n.label]
  attributes := .ofList [("variable", .str n.label), ("function_name", .str fnName)]

/-- Source: `cpg/builder.py`, `build_cpg`, step 6. Kind: D -/
def taintCpgNode (fnName : String) (n : TaintNode) : CPGNode F where
  id := generateStableNodeId sha "taint" (fnName ++ "::" ++ n.id) n.lineNumber 0 .taint
  nodeType := .taint
  label := n.label
  lineNumber := n.lineNumber
  labels := ["Taint", n.state.value]
  attributes := .ofList [("state", .str n.state.value), ("function_name", .str fnName)]

/-- Source: `cpg/builder.py`, `build_cpg`, step 7. Kind: D -/
def callCpgNode (cs : CallSite) : CPGNode F where
  id := generateStableNodeId sha "call" (cs.callerId ++ "->" ++ cs.calleeName) cs.lineNumber 0 .callsite
  nodeType := .callsite
  label := "Call:" ++ cs.calleeName
  lineNumber := cs.lineNumber
  labels := ["CallSite", cs.calleeName]
  attributes := .ofList [("caller", .str cs.callerId), ("callee", .str cs.calleeName)]

end nodes

/-! ## The layers -/

section build

variable {F : Type}

/-- Source: `cpg/builder.py`, `node_id_map`, `dfg_id_map` and `tg_id_map`. Kind: D -/
def idMap (nodes : List (String × CPGNode F)) : Dict String String := .ofList (nodes.map fun e => (e.1, e.2.id))

/-- An edge with two known ends. Source: `cpg/builder.py`, `build_cpg`. Kind: D -/
def mapEdge (ids : Dict String String) (edgeType : EdgeType) (edge : String × String) : Option CPGEdge :=
  match ids.get? edge.1, ids.get? edge.2 with
  | some src, some tgt => some { sourceId := src, targetId := tgt, edgeType := edgeType }
  | _, _ => none

/-- The nodes of a function with their old identifiers, and then the edges. Source: `cpg/builder.py`, `build_cpg`. Kind: D -/
def addLayer (edgeType : EdgeType) (graph : CPGGraph F) (nodes : List (String × CPGNode F)) (edges : List (String × String)) :
    CPGGraph F :=
  (edges.filterMap (mapEdge (idMap nodes) edgeType)).foldl CPGGraph.addEdge
    (nodes.foldl (fun g e => g.addNode e.2) graph)

variable (sha : String → String)

/-- Source: `cpg/builder.py`, `build_cpg`, step 3. Kind: D -/
def addCfg (graph : CPGGraph F) (entry : String × CFG) : CPGGraph F :=
  addLayer .cfgFlow graph (entry.2.nodes.values.map fun n => (n.id, cfgCpgNode sha entry.1 entry.2.filePath n))
    (entry.2.edges.map fun e => (e.sourceId, e.targetId))

/-- Source: `cpg/builder.py`, `build_cpg`, step 4. Kind: D -/
def addSsa (graph : CPGGraph F) (entry : String × SSAFunction) : CPGGraph F :=
  addLayer .ssaVersion graph (entry.2.nodes.map fun n => (n.id, ssaCpgNode sha entry.1 n)) []

/-- Source: `cpg/builder.py`, `build_cpg`, step 5. Kind: D -/
def addDfg (graph : CPGGraph F) (entry : String × DataFlowGraph) : CPGGraph F :=
  addLayer .dataflow graph (entry.2.nodes.values.map fun n => (n.id, dfgCpgNode sha entry.1 n))
    (entry.2.edges.map fun e => (e.sourceId, e.targetId))

/-- `edge.confidence` does not exist: the first edge with two known ends ends the run. Source: `cpg/builder.py`, `build_cpg`,
step 6. Kind: D -/
def addTaint (graph : CPGGraph F) (entry : String × TaintGraph) : Option (CPGGraph F) :=
  let nodes := entry.2.nodes.values.map fun n => (n.id, taintCpgNode sha entry.1 n)
  let edges := entry.2.edges.map fun e => (e.sourceId, e.targetId)
  if (edges.filterMap (mapEdge (idMap nodes) .taint)).isEmpty then some (addLayer .taint graph nodes []) else none

/-! ## The links -/

/-- Every node of a type with every node of the next. Source: `cpg/linking.py`, `link_representation_layers`. Kind: D -/
def pairLinks (nodes : List (CPGNode F)) (first next : NodeType) (edgeType : EdgeType) : List CPGEdge :=
  (nodes.filter fun n => n.nodeType = first).flatMap fun a => (nodes.filter fun n => n.nodeType = next).map fun b =>
    { sourceId := a.id, targetId := b.id, edgeType := edgeType }

/-- The links of the nodes of one location. Source: `cpg/linking.py`, `link_representation_layers`. Kind: D -/
def locationLinks (nodes : List (CPGNode F)) : List CPGEdge :=
  pairLinks nodes .ast .ir .represents ++ pairLinks nodes .ir .cfg .loweredTo ++ pairLinks nodes .cfg .ssa .ssaVersion ++
    pairLinks nodes .ssa .dataflow .dataflow ++ pairLinks nodes .dataflow .taint .taint

/-- The nodes with a file, by file and line. Source: `cpg/linking.py`, `location_map`. Kind: D -/
def locationMap (graph : CPGGraph F) : Dict (String × ℤ) (List (CPGNode F)) :=
  .groupBy (fun n => (n.filePath, n.lineNumber)) (graph.nodes.values.filter fun n => n.filePath ≠ "")

/-- The graph, and how many edges were added. Source: `cpg/linking.py`, `link_representation_layers`. Kind: D -/
def linkRepresentationLayers (graph : CPGGraph F) : CPGGraph F × ℕ :=
  let links := (locationMap graph).values.flatMap locationLinks
  (links.foldl CPGGraph.addEdge graph, links.length)

/-! ## The graph -/

/-- Source: `cpg/builder.py`, `build_cpg`. Kind: D -/
def buildCpg (a : Artifacts) : Option (CPGGraph F) :=
  let files := a.fileNodes.foldl (fun g fn => g.addNode (fileCpgNode sha fn)) CPGGraph.empty
  let functions := a.irFunctions.foldl (fun g f => g.addNode (functionCpgNode sha f)) files
  let cfgs := a.cfgs.entries.foldl (addCfg sha) functions
  let ssas := a.ssaFunctions.entries.foldl (addSsa sha) cfgs
  let dfgs := a.dfgMap.entries.foldl (addDfg sha) ssas
  (a.taintGraphs.entries.foldlM (addTaint sha) dfgs).map fun taints =>
    (linkRepresentationLayers
      ((a.itg.vulnerablePaths.flatMap fun path => path.callChain).foldl (fun g cs => g.addNode (callCpgNode sha cs)) taints)).1

end build

end KarsaSec.Cpg
