import KarsaSec.Found.Asking
import KarsaSec.Found.Tree
import KarsaSec.Query.Index
import KarsaSec.Query.Predicates
import Mathlib.Data.Rat.Init

/-!
# Execution plans

`query/ast.py` and `query/executor.py`: a plan is a tree of operations, and executing it gives a list of nodes.

* `FilterParam` is the predicate of a FILTER as its parameters hold it: a value that counts as false, or a mapping that
  can be read as a predicate; `asked` is this predicate.
* `PlanStep` is the operation of a plan node with its cost and its parameters, as the texts and numbers the executor
  makes of them; `ExecutionPlanNode` is a tree of such steps.
* `stepNodes` is what `_evaluate_plan_node` does at one node with the nodes of its first child; `execute` runs it over
  the tree. An exception is `none`; the time limit and the metrics of the context are left out.
* `operate_filter`, `operate_traverse`, `operate_limit`, `evaluate_node` are its equations.
-/

namespace KarsaSec.Query

open KarsaSec.Found

variable {F : Type}

/-! ## Plans -/

/-- What stands under `predicate` in the parameters of a plan node. Kind: D -/
structure FilterParam (L : Language F) where
  value : Value F
  /-- A value that counts as true is a mapping that can be read. -/
  readable : L.truthy value = true → (PredicateNode.fromDict value).isSome = true

/-- The operations of a plan. Source: `ast.py`, `ExecutionPlanNode.op_type`. Kind: D -/
inductive OpType
  | scan
  | indexLookup
  | filter
  | traverse
  | limit
  | projection
  deriving DecidableEq, Repr

namespace FilterParam

variable (L : Language F)

theorem readable_none (h : L.truthy (Value.none : Value F) = true) :
    (PredicateNode.fromDict (Value.none : Value F)).isSome = true := by
  cases h

/-- No predicate. Kind: D -/
def absent : FilterParam L := ⟨.none, readable_none L⟩

theorem readable_toDict (p : PredicateNode F) : (PredicateNode.fromDict p.toDict).isSome = true := by
  rw [p.fromDict_toDict]
  rfl

/-- A predicate as its mapping. Kind: D -/
def written (p : PredicateNode F) : FilterParam L := ⟨p.toDict, fun _ => readable_toDict p⟩

variable {L}

/-- The predicate that is put to the nodes, if any. Kind: D -/
def asked (c : FilterParam L) : Option (PredicateNode F) :=
  if L.truthy c.value then PredicateNode.fromDict c.value else none

@[simp] theorem asked_absent : (absent L).asked = none := rfl

@[simp] theorem asked_written (p : PredicateNode F) : (written L p).asked = some p := by
  have htrue : L.truthy p.toDict = true := by
    cases p
    rw [PredicateNode.toDict]
    rfl
  rw [asked, written, if_pos htrue, p.fromDict_toDict]

end FilterParam

/-- The operation of a plan node, its cost and its parameters.
Source: `ast.py`, `ExecutionPlanNode`
Kind: D -/
structure PlanStep (L : Language F) where
  opType : OpType
  cost : ℚ := 1
  targetLabel : String := ""
  indexField : String := ""
  indexValue : String := ""
  predicate : FilterParam L := .absent L
  direction : String := "OUTGOING"
  edgeType : String := ""
  targetType : String := ""
  limit : ℤ := 0

/-- Source: `ast.py`, `ExecutionPlanNode`. Kind: D -/
abbrev ExecutionPlanNode (L : Language F) := RoseTree (PlanStep L)

/-- Whether the executor looks at the children of a node. Kind: D -/
def OpType.reads : OpType → Bool
  | .scan => false
  | .indexLookup => false
  | _ => true

/-! ## Execution -/

namespace QueryExecutor

variable (L : Language F) (g : CPGGraph F) (idx : GraphIndex F)

/-- INDEX_LOOKUP. Source: `executor.py`, `_evaluate_plan_node`. Kind: D -/
def indexLookup (field val : String) : List (CPGNode F) :=
  match field with
  | "id" => (idx.byId.get? val).toList
  | "file_path" => idx.byFile.getD val []
  | "function_name" => idx.byFunction.getD val []
  | "label" => idx.byLabel.getD val []
  | field => g.nodes.values.filter fun n => L.eq (PredicateEngine.extractField L field n) (.str val)

/-- SCAN; a name that `NodeType` has without being a member's raises.
Source: `executor.py`, `_evaluate_plan_node`
Kind: D -/
def scan (targetLabel : String) : Option (List (CPGNode F)) :=
  if targetLabel = "" then some g.nodes.values
  else
    match NodeType.named targetLabel with
    | some t => some (idx.byType.getD t [])
    | none =>
      if L.typeAttribute targetLabel then none
      else some (g.nodes.values.filter fun n => targetLabel ∈ n.labels ∨ n.nodeType.value = targetLabel)

/-- The nodes that a predicate keeps. Kind: D -/
def filterNodes (p : PredicateNode F) (input : List (CPGNode F)) : Option (List (CPGNode F)) :=
  keep (fun n => PredicateEngine.evaluate L n p) input

/-- One edge of a traversal, followed to a node of the type asked for. Kind: D -/
def follow (s : PlanStep L) (e : CPGEdge) : Option (CPGNode F) :=
  if s.edgeType ≠ "" ∧ e.edgeType.value ≠ s.edgeType ∧ e.edgeType.name ≠ s.edgeType then none
  else
    match g.nodes.get? (if s.direction = "OUTGOING" then e.targetId else e.sourceId) with
    | none => none
    | some tgt => if s.targetType ≠ "" ∧ s.targetType ∉ tgt.labels ∧ tgt.nodeType.value ≠ s.targetType then none
        else some tgt

/-- Where a traversal leads from a node. Kind: D -/
def neighbours (s : PlanStep L) (src : CPGNode F) : List (CPGNode F) :=
  (if s.direction = "OUTGOING" then g.getOutgoingEdges src.id else g.getIncomingEdges src.id).filterMap (follow L g s)

/-- `input_nodes[:limit] if limit > 0 else input_nodes`. Kind: D -/
def limitNodes (limit : ℤ) (input : List (CPGNode F)) : List (CPGNode F) :=
  if 0 < limit then input.take limit.toNat else input

/-- A node of a plan on the nodes of its child.
Source: `executor.py`, `_evaluate_plan_node`
Kind: D -/
def operate (s : PlanStep L) (input : List (CPGNode F)) : Option (List (CPGNode F)) :=
  match s.opType with
  | .filter =>
    if L.truthy s.predicate.value then
      (PredicateNode.fromDict s.predicate.value).bind fun p => filterNodes L p input
    else some input
  | .traverse => some (input.flatMap (neighbours L g s))
  | .limit => some (limitNodes s.limit input)
  | _ => some input

/-- A node of a plan, given what its first child gives.
Source: `executor.py`, `_evaluate_plan_node`
Kind: D -/
def stepNodes (s : PlanStep L) (child : Option (Option (List (CPGNode F)))) : Option (List (CPGNode F)) :=
  match s.opType with
  | .indexLookup => some (indexLookup L g idx s.indexField s.indexValue)
  | .scan => scan L g idx s.targetLabel
  | _ =>
    match child with
    | none => some []
    | some input => input.bind (operate L g s)

/-- Source: `executor.py`, `_evaluate_plan_node`. Kind: D -/
def evaluatePlanNode (plan : ExecutionPlanNode L) : Option (List (CPGNode F)) := plan.run (stepNodes L g idx)

/-- Source: `executor.py`, `execute`. Kind: D -/
def execute (plan : ExecutionPlanNode L) (g : CPGGraph F) (index : Option (GraphIndex F)) :
    Option (List (CPGNode F)) :=
  match index with
  | some idx => evaluatePlanNode L g idx plan
  | none => (GraphIndex.buildIndex L g).bind fun idx => evaluatePlanNode L g idx plan

end QueryExecutor

/-! ## Operations one by one -/

/-- What a filter answers at a node; without a predicate it keeps every node. Kind: D -/
def FilterParam.answer {L : Language F} (c : FilterParam L) (n : CPGNode F) : Option Bool :=
  match c.asked with
  | none => some true
  | some p => PredicateEngine.evaluate L n p

section operations

variable {L : Language F} {g : CPGGraph F} {idx : GraphIndex F}

/-- FILTER is asking for the answer of its parameter. Kind: L -/
theorem operate_filter {s : PlanStep L} (hs : s.opType = .filter) (input : List (CPGNode F)) :
    QueryExecutor.operate L g s input = keep s.predicate.answer input := by
  unfold QueryExecutor.operate FilterParam.answer FilterParam.asked
  simp only [hs]
  split
  · rename_i htrue
    obtain ⟨p, hp⟩ := Option.isSome_iff_exists.mp (s.predicate.readable htrue)
    rw [hp]
    rfl
  · exact (keep_yes fun _ _ => rfl).symm

theorem operate_traverse {s : PlanStep L} (hs : s.opType = .traverse) (input : List (CPGNode F)) :
    QueryExecutor.operate L g s input = some (input.flatMap (QueryExecutor.neighbours L g s)) := by
  unfold QueryExecutor.operate
  simp only [hs]

theorem operate_limit {s : PlanStep L} (hs : s.opType = .limit) (input : List (CPGNode F)) :
    QueryExecutor.operate L g s input = some (QueryExecutor.limitNodes s.limit input) := by
  unfold QueryExecutor.operate
  simp only [hs]

/-- A plan node on nothing, or on what its child gives. Kind: L -/
theorem stepNodes_eq_of_reads {s : PlanStep L} (hs : s.opType.reads = true) (input : Option (List (CPGNode F))) :
    QueryExecutor.stepNodes L g idx s (some input) = input.bind (QueryExecutor.operate L g s) := by
  unfold QueryExecutor.stepNodes
  cases hop : s.opType <;> simp_all [OpType.reads]

theorem stepNodes_none_of_reads {s : PlanStep L} (hs : s.opType.reads = true) :
    QueryExecutor.stepNodes L g idx s none = some [] := by
  unfold QueryExecutor.stepNodes
  cases hop : s.opType <;> simp_all [OpType.reads]

theorem stepNodes_eq_of_not_reads {s : PlanStep L} (hs : s.opType.reads = false)
    (x y : Option (Option (List (CPGNode F)))) :
    QueryExecutor.stepNodes L g idx s x = QueryExecutor.stepNodes L g idx s y := by
  unfold QueryExecutor.stepNodes
  cases hop : s.opType <;> simp_all [OpType.reads]

/-- A node with one child, of which the executor looks at the child. Kind: L -/
theorem evaluate_node {s : PlanStep L} (hs : s.opType.reads = true) (c : ExecutionPlanNode L)
    (rest : List (ExecutionPlanNode L)) :
    QueryExecutor.evaluatePlanNode L g idx (.node s (c :: rest)) =
      (QueryExecutor.evaluatePlanNode L g idx c).bind (QueryExecutor.operate L g s) :=
  stepNodes_eq_of_reads hs _

end operations

end KarsaSec.Query
