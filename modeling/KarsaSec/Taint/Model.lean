import KarsaSec.Ssa.Reaching
import KarsaSec.Taint.Registries

/-!
# The graphs of a function

The records that the analyses of a function hand on: its control flow graph, its single assignment form, its data flow graph and
its taint graph, as `analysis/cfg/models.py`, `analysis/ssa/models.py`, `analysis/dataflow/models.py` and
`analysis/taint/models.py` have them.

* `SSAFunction` carries as a field that no version is assigned twice; `SSAFunction.ofBuilt`: the form that is built has it.
-/

namespace KarsaSec.Taint

open KarsaSec.Found
open KarsaSec.Ssa (SSAVar)

/-! ## Control flow -/

/-- Source: `analysis/cfg/models.py`, `CFGNodeType`. Kind: D -/
inductive CFGNodeType
  | entry
  | statement
  | condition
  | loop
  | ret
  | throw
  | exit
  deriving DecidableEq

/-- `CFGNodeType.value`. Kind: D -/
def CFGNodeType.value : CFGNodeType → String
  | entry => "ENTRY"
  | statement => "STATEMENT"
  | condition => "CONDITION"
  | loop => "LOOP"
  | ret => "RETURN"
  | throw => "THROW"
  | exit => "EXIT"

/-- Source: `analysis/cfg/models.py`, `CFGEdgeType`. Kind: D -/
inductive CFGEdgeType
  | normal
  | trueBranch
  | falseBranch
  | loopBack
  | exception
  | returnEdge
  deriving DecidableEq

/-- The statements of a node are left out. Source: `analysis/cfg/models.py`, `CFGNode`. Kind: D -/
structure CFGNode where
  id : String
  nodeType : CFGNodeType
  lineNumber : ℤ := 1
  label : String := ""
  deriving DecidableEq

/-- Source: `analysis/cfg/models.py`, `CFGEdge`. Kind: D -/
structure CFGEdge where
  sourceId : String
  targetId : String
  edgeType : CFGEdgeType := .normal
  conditionText : String := ""

/-- Source: `analysis/cfg/models.py`, `CFG`. Kind: D -/
structure CFG where
  functionName : String
  filePath : String := ""
  nodes : Dict String CFGNode
  edges : List CFGEdge := []

/-! ## Single assignment -/

/-- Source: `analysis/ssa/models.py`, `SSANode`. Kind: D -/
structure SSANode where
  id : String
  lineNumber : ℤ
  target : Option SSAVar := none
  useVars : List SSAVar := []
  label : String := ""
  deriving DecidableEq

/-- Source: `analysis/ssa/models.py`, `SSAFunction`. Kind: D -/
structure SSAFunction where
  functionName : String
  filePath : String
  nodes : List SSANode
  /-- Single assignment: no version is the target of two nodes. -/
  single : (nodes.filterMap SSANode.target).Nodup

/-- A node of the form that is built. Kind: D -/
def SSANode.ofBuilt (n : Ssa.SSANode) : SSANode where
  id := n.id
  lineNumber := n.lineNumber
  target := some n.target
  useVars := n.useVars
  label := n.label

/-- The form that is built assigns every version once. Source: `analysis/ssa/builder.py`, `build_ssa`. Kind: L -/
theorem single_ofBuilt (cfg : Ssa.CFG) :
    (((Ssa.buildSsa cfg).nodes.map SSANode.ofBuilt).filterMap SSANode.target).Nodup := by
  obtain ⟨entries, h⟩ := Ssa.exists_entriesOf cfg
  have htargets : SSANode.target ∘ SSANode.ofBuilt = some ∘ Ssa.SSANode.target := rfl
  rw [List.filterMap_map, htargets, List.filterMap_eq_map, h.nodes, List.map_map]
  exact h.numbered.nodup_targets

/-- The form that is built, as a record. Source: `analysis/ssa/builder.py`, `build_ssa`. Kind: D -/
def SSAFunction.ofBuilt (functionName filePath : String) (cfg : Ssa.CFG) : SSAFunction where
  functionName := functionName
  filePath := filePath
  nodes := (Ssa.buildSsa cfg).nodes.map SSANode.ofBuilt
  single := single_ofBuilt cfg

/-! ## Data flow -/

/-- Source: `analysis/dataflow/models.py`, `VariableRef`. Kind: D -/
structure VariableRef where
  name : String
  ssaVersion : ℕ := 0
  lineNumber : ℤ := 1
  deriving DecidableEq

/-- Source: `analysis/dataflow/models.py`, `VariableRef.ssa_name`. Kind: D -/
def VariableRef.ssaName (ref : VariableRef) : String :=
  if ref.ssaVersion > 0 then ref.name ++ "_" ++ toString ref.ssaVersion else ref.name

/-- Source: `analysis/dataflow/models.py`, `DataFlowNode`. Kind: D -/
structure DataFlowNode where
  id : String
  statementId : String
  lineNumber : ℤ
  definitions : List VariableRef := []
  uses : List VariableRef := []
  label : String := ""
  deriving DecidableEq

/-- Source: `analysis/dataflow/models.py`, `DataFlowEdge`. Kind: D -/
structure DataFlowEdge where
  sourceId : String
  targetId : String
  varName : String

/-- Source: `analysis/dataflow/models.py`, `DataFlowGraph`. Kind: D -/
structure DataFlowGraph where
  functionName : String
  filePath : String := ""
  nodes : Dict String DataFlowNode := .empty
  edges : List DataFlowEdge := []

/-! ## Taint -/

/-- Source: `analysis/taint/models.py`, `TaintState`. Kind: D -/
inductive TaintState
  | untainted
  | tainted
  | sanitized
  deriving DecidableEq, Repr

/-- `TaintState.value`. Kind: D -/
def TaintState.value : TaintState → String
  | untainted => "UNTAINTED"
  | tainted => "TAINTED"
  | sanitized => "SANITIZED"

/-- Source: `analysis/taint/models.py`, `TaintNode`. Kind: D -/
structure TaintNode where
  id : String
  varName : String
  state : TaintState := .untainted
  lineNumber : ℤ := 1
  isSource : Bool := false
  isSink : Bool := false
  isSanitizer : Bool := false
  label : String := ""
  deriving DecidableEq

/-- Source: `analysis/taint/models.py`, `TaintEdge`. Kind: D -/
structure TaintEdge where
  sourceId : String
  targetId : String
  varName : String := ""
  label : String := ""

/-- Source: `analysis/taint/models.py`, `TaintPath`. Kind: D -/
structure TaintPath where
  sourceNode : TaintNode
  sinkNode : TaintNode
  pathNodes : List TaintNode := []
  sanitizerNodes : List TaintNode := []
  category : TaintCategory := .generic
  isVulnerable : Bool := true

/-- Source: `analysis/taint/models.py`, `TaintGraph`. Kind: D -/
structure TaintGraph where
  functionName : String
  filePath : String := ""
  nodes : Dict String TaintNode := .empty
  edges : List TaintEdge := []
  vulnerablePaths : List TaintPath := []
  safePaths : List TaintPath := []

namespace TaintGraph

/-- Source: `analysis/taint/models.py`, `add_node`. Kind: D -/
def addNode (self : TaintGraph) (node : TaintNode) : TaintGraph := { self with nodes := self.nodes.set node.id node }

/-- Source: `analysis/taint/models.py`, `add_edge`. Kind: D -/
def addEdge (self : TaintGraph) (sourceId targetId varName : String) : TaintGraph :=
  { self with edges := self.edges ++ [{ sourceId := sourceId, targetId := targetId, varName := varName }] }

end TaintGraph

end KarsaSec.Taint
