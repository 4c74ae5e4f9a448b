import KarsaSec.Cfg.Model
import KarsaSec.Dataflow.GuardRegistry

/-!
# Guard propagation

`graph/dataflow/guard_propagation.py`: what a statement does to the abstract environment, and what an edge adds to it.

* `transferText`: one statement, read as an assignment if a pattern finds one in its text; `transferBlock`: all of them.
* `refineEdge`: the constraints of the predicate that the condition of an edge is taken for.
-/

namespace KarsaSec.Dataflow

open KarsaSec.Cfg KarsaSec.Found

/-! ## Statements -/

/-- The names that are looked for in a right-hand side, in this order. Source: `guard_propagation.py`, `_transfer_block`. Kind: D -/
def transNames : List String :=
  ["intval", "floatval", "escapeshellarg", "escapeshellcmd", "htmlspecialchars", "htmlentities", "basename", "realpath", "(int)"]

/-- Source: `guard_propagation.py`, `_transfer_block`. Kind: D -/
def superglobals : List String := ["$_GET", "$_POST", "$_REQUEST", "$_COOKIE", "$_FILES", "$_SERVER"]

/-- An assignment. Source: `guard_propagation.py`, `_transfer_block`. Kind: D -/
def reAssign : String := "(\\$[a-zA-Z0-9_]+)\\s*=\\s*(.+)"

section transfer

variable (t : CharTable) (registry : GuardCapabilityRegistry)

/-- The two sides of what is read as an assignment. Source: `guard_propagation.py`, `_transfer_block`. Kind: D -/
def assignMatch (text : String) : Option (String × String) :=
  (search t {} reAssign text).map fun m =>
    (strip (String.ofList ((m.group 1).getD [])), strip (String.ofList ((m.group 2).getD [])))

/-- The first transformation whose name is in the right-hand side. Source: `guard_propagation.py`, `_transfer_block`. Kind: D -/
def findTransformation (rhsExpr : String) : Option (String × ValueTransformation) :=
  transNames.findSome? fun name =>
    if inStr name (lower rhsExpr) then (registry.lookupTransformation name).map (Prod.mk name) else none

/-- The variable in parentheses. Source: `guard_propagation.py`, `_transfer_block`. Kind: D -/
def argVariable (rhsExpr : String) : Option String :=
  (search t {} "\\(\\s*(\\$[a-zA-Z0-9_]+)\\s*\\)" rhsExpr).map fun m => String.ofList ((m.group 1).getD [])

/-- A right-hand side that is a variable. Source: `guard_propagation.py`, `_transfer_block`. Kind: D -/
def copiedVariable (rhsExpr : String) : Option String :=
  (matchPrefix t {} "^(\\$[a-zA-Z0-9_]+);?$" rhsExpr).map fun m => String.ofList ((m.group 1).getD [])

/-- The variables of a text. Source: `guard_propagation.py`, `_transfer_block`. Kind: D -/
def variablesOf (text : String) : List String := findall t {} 0 "\\$[a-zA-Z0-9_]+" text

variable (env : AbstractEnvironment)

/-- The loop over the variables: the constraints of all of them, and a taint. Source: `guard_propagation.py`,
`_transfer_block`. Kind: D -/
def collectVariable (acc : Finset SemanticConstraint × AbstractTaintState) (rVar : String) :
    Finset SemanticConstraint × AbstractTaintState :=
  if startsWith "$_" rVar then acc
  else
    let collected := acc.1 ∪ (env.getValue rVar).allConstraints
    (collected,
      if (env.getValue rVar).taint = .tainted ∨ (env.getValue rVar).taint = .constrained then
        if collected ≠ ∅ then .constrained else .tainted
      else acc.2)

/-- `new_val = env.assignment_kill(..)`, with constraints, and `env.set_value(new_val)`. Source: `guard_propagation.py`,
`_transfer_block`. Kind: D -/
def assignWith (lhsVar : String) (newTaint : AbstractTaintState) (provId provDesc : String)
    (constraints : Finset SemanticConstraint) : AbstractEnvironment :=
  (env.assignmentKill lhsVar newTaint provId provDesc).setValue
    ((env.assignedValue lhsVar newTaint provId provDesc).withConstraints constraints)

/-- Source: `guard_propagation.py`, `_transfer_block`. Kind: D -/
def transferAssign (lhsVar rhsExpr : String) : AbstractEnvironment :=
  match findTransformation registry rhsExpr with
  | some (transName, found) =>
    let srcTaint := ((argVariable t rhsExpr).map fun srcVar => (env.getValue srcVar).taint).getD .tainted
    assignWith env lhsVar srcTaint "" ("Transformed by " ++ transName) found.producedConstraints
  | none =>
    match copiedVariable t rhsExpr with
    | some rhsVar =>
      assignWith env lhsVar (env.getValue rhsVar).taint (env.getValue rhsVar).provenanceNodeId ("Copy of " ++ rhsVar)
        (env.getValue rhsVar).allConstraints
    | none =>
      let isSuperglobal := superglobals.any fun sg => inStr sg rhsExpr
      let acc := (variablesOf t rhsExpr).foldl (collectVariable env) (∅, if isSuperglobal then .tainted else .unknown)
      let provDesc := "Assigned " ++ String.ofList (rhsExpr.toList.take 30)
      if acc.1 ≠ ∅ then assignWith env lhsVar acc.2 "" provDesc acc.1
      else (env.assignmentKill lhsVar acc.2 "" provDesc).setValue (env.assignedValue lhsVar acc.2 "" provDesc)

/-- One statement. Source: `guard_propagation.py`, `_transfer_block`. Kind: D -/
def transferText (text : String) : AbstractEnvironment :=
  if text = "" then env
  else
    match assignMatch t text with
    | some (lhsVar, rhsExpr) => transferAssign t registry env lhsVar rhsExpr
    | none => env

/-- Source: `guard_propagation.py`, `_transfer_block`. Kind: D -/
def transferBlock (statements : List Stmt) : AbstractEnvironment :=
  statements.foldl (fun env stmt => transferText t registry env stmt.text) env

/-! ## Edges -/

/-- Source: `guard_propagation.py`, `_refine_edge`. Kind: D -/
def refineEdge (edge : CFGEdge) : AbstractEnvironment :=
  if edge.kind ≠ .trueBranch ∧ edge.kind ≠ .falseBranch then env
  else if edge.conditionAst.getD "" = "" then env
  else
    match matchPredicate t registry (edge.conditionAst.getD "") with
    | none => env
    | some (cap, varName, isNegated) =>
      let constraints :=
        if edge.kind = .trueBranch then if isNegated then cap.falseBranchConstraints else cap.trueBranchConstraints
        else if isNegated then cap.trueBranchConstraints else cap.falseBranchConstraints
      if constraints ≠ ∅ then env.setValue ((env.getValue varName).withConstraints constraints) else env

end transfer

end KarsaSec.Dataflow
