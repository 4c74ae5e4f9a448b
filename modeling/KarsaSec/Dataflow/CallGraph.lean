import KarsaSec.Found.Components
import KarsaSec.Found.Dict
import KarsaSec.Found.Text
import Mathlib.Data.Finset.Basic
import Mathlib.Data.List.Dedup

/-!
# The call graph

`graph/dataflow/call_graph.py`: functions, calls between them, and the strongly connected components of the graph.

* `CallGraph` carries what its index by callers says as a field: the outgoing edges of a function are the edges it
  is the caller of. `addFunction` and `addCall` build it.
* `strongconnect` is the nested function of `strongly_connected_components`; `visit`, `finish` and `popComponent` are
  the body of its loop, its end, and the loop that takes a component off the stack. A lookup of a key that is not
  there and a pop of an empty list raise; the model is `none` then, and also when the recursion is deeper than its
  bound, the number of functions.
* `Calls` is a call between functions of the graph.
-/

namespace KarsaSec.Dataflow

open KarsaSec.Found

/-! ## The graph -/

/-- Source: `call_graph.py`, `CallResolutionStatus`. Kind: D -/
inductive CallResolutionStatus
  | resolved
  | multiple
  | unresolved
  | dynamic
  deriving DecidableEq, Repr

/-- Source: `call_graph.py`, `CallGraphNode`. Kind: D -/
structure CallGraphNode where
  nodeId : String
  filePath : String
  functionName : String
  className : String := ""
  «namespace» : String := ""
  deriving DecidableEq

/-- Source: `call_graph.py`, `CallGraphEdge`. Kind: D -/
structure CallGraphEdge where
  callerId : String
  calleeId : String
  callSiteId : String
  sourceLocation : String := ""
  lineNumber : ℤ := 0
  resolutionStatus : CallResolutionStatus := .resolved
  deriving DecidableEq

/-- Source: `call_graph.py`, `CallGraph`. Kind: D -/
structure CallGraph where
  nodes : Dict String CallGraphNode
  edges : List CallGraphEdge
  outgoing : Dict String (List CallGraphEdge)
  incoming : Dict String (List CallGraphEdge)
  /-- The outgoing edges of a caller are the edges it is the caller of, in order. -/
  outgoing_eq : ∀ callerId, outgoing.getD callerId [] = edges.filter fun e => e.callerId = callerId

namespace CallGraph

/-- Source: `call_graph.py`, `CallGraph.__init__`. Kind: D -/
def empty : CallGraph := ⟨.empty, [], .empty, .empty, fun _ => rfl⟩

/-- Source: `call_graph.py`, `add_function`. Kind: D -/
def addFunction (self : CallGraph) (node : CallGraphNode) : CallGraph :=
  { self with nodes := self.nodes.set node.nodeId node }

theorem outgoing_addCall (self : CallGraph) (edge : CallGraphEdge) (callerId : String) :
    (self.outgoing.pushAt edge.callerId edge).getD callerId [] =
      (self.edges ++ [edge]).filter fun e => e.callerId = callerId := by
  have hpush := Dict.getD_foldl_pushAt CallGraphEdge.callerId callerId [edge] self.outgoing
  rw [self.outgoing_eq, ← List.filter_append] at hpush
  exact hpush

/-- Source: `call_graph.py`, `add_call`. Kind: D -/
def addCall (self : CallGraph) (edge : CallGraphEdge) : CallGraph where
  nodes := self.nodes
  edges := self.edges ++ [edge]
  outgoing := self.outgoing.pushAt edge.callerId edge
  incoming := self.incoming.pushAt edge.calleeId edge
  outgoing_eq := self.outgoing_addCall edge

/-- A function of the graph calls another. Kind: D -/
def Calls (self : CallGraph) (caller callee : String) : Prop :=
  caller ∈ self.nodes.keys ∧ callee ∈ self.nodes.keys ∧
    ∃ e ∈ self.edges, e.callerId = caller ∧ e.calleeId = callee

end CallGraph

/-! ## Components -/

/-- The variables of `strongly_connected_components`; the top of the stack is first. Kind: D -/
structure SccState where
  index : ℕ := 0
  stack : List String := []
  onStack : Finset String := ∅
  indices : Dict String ℕ := .empty
  lowlink : Dict String ℕ := .empty
  sccs : List (List String) := []

namespace SccState

/-- The first lines of `strongconnect`. Kind: D -/
def enter (s : SccState) (v : String) : SccState :=
  { s with
    indices := s.indices.set v s.index
    lowlink := s.lowlink.set v s.index
    index := s.index + 1
    stack := v :: s.stack
    onStack := insert v s.onStack }

/-- One callee; `connect` is the recursive call. Kind: D -/
def visit (connect : String → SccState → Option SccState) (v : String) (s : SccState) (w : String) :
    Option SccState :=
  if s.indices.contains w = false then do
    let s ← connect w s
    let lowV ← s.lowlink.get? v
    let lowW ← s.lowlink.get? w
    some { s with lowlink := s.lowlink.set v (min lowV lowW) }
  else if w ∈ s.onStack then do
    let lowV ← s.lowlink.get? v
    let indexW ← s.indices.get? w
    some { s with lowlink := s.lowlink.set v (min lowV indexW) }
  else some s

/-- The loop that takes nodes off the stack down to `v`: the rest of the stack, who is still on it, and the nodes
taken. Kind: D -/
def popComponent (v : String) : List String → Finset String → Option (List String × Finset String × List String)
  | [], _ => none
  | w :: stack, onStack =>
    if w ∉ onStack then none
    else if w = v then some (stack, onStack.erase w, [w])
    else (popComponent v stack (onStack.erase w)).map fun r => (r.1, r.2.1, w :: r.2.2)

/-- The end of `strongconnect`. Kind: D -/
def finish (s : SccState) (v : String) : Option SccState := do
  let low ← s.lowlink.get? v
  let index ← s.indices.get? v
  if low = index then
    let (stack, onStack, scc) ← popComponent v s.stack s.onStack
    some { s with stack := stack, onStack := onStack, sccs := s.sccs ++ [sortStrings scc] }
  else some s

end SccState

namespace CallGraph

/-- `callee_ids` of `strongconnect`. Kind: D -/
def calleeIds (self : CallGraph) (v : String) : List String :=
  sortStrings
    (((self.outgoing.getD v []).filter fun e => self.nodes.contains e.calleeId).map CallGraphEdge.calleeId).dedup

/-- Source: `call_graph.py`, `strongconnect`. Kind: D -/
def strongconnect (self : CallGraph) : ℕ → String → SccState → Option SccState
  | 0, _, _ => none
  | depth + 1, v, s => do
      let s ← (self.calleeIds v).foldlM (SccState.visit (self.strongconnect depth) v) (s.enter v)
      s.finish v

/-- One turn of the loop over all functions. Kind: D -/
def connectNode (self : CallGraph) (s : SccState) (v : String) : Option SccState :=
  if s.indices.contains v = false then self.strongconnect self.nodes.keys.length v s else some s

/-- Source: `call_graph.py`, `strongly_connected_components`. Kind: D -/
def stronglyConnectedComponents (self : CallGraph) : Option (List (List String)) :=
  ((sortStrings self.nodes.keys).foldlM self.connectNode {}).map SccState.sccs

end CallGraph

end KarsaSec.Dataflow
