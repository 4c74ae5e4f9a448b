import KarsaSec.Query.Executor
import Mathlib.Tactic.NormNum.Basic

/-!
# Queries and their plans

`query/dsl.py`, `query/ast.py` and `query/planner.py`: queries, the builder of queries, and the plan of a query.

* `createPlan` begins with a SCAN for the label of the query, or, if the first step asks for a value in one of the
  fields that have an index, with an INDEX_LOOKUP of the text of the value in place of the scan and the step.
* `QueryNode.meaning` is what a query says: the nodes of its label, then one step after the other, each read off the
  graph without tables.
* `LookupExact`: the index holds each node of the graph, under the text that is looked up, once if the node has the
  label of the query and the value in the field, and not at all otherwise.
* `createPlan_exact_iff`: the plan gives the nodes of the query, and begins with those it is to begin with, exactly then.
-/

namespace KarsaSec.Query

open KarsaSec.Found

variable {F : Type}

/-! ## Queries -/

/-- Source: `ast.py`, `StepType`. Kind: D -/
inductive StepType
  | select
  | whereStep
  | traverse
  | filter
  | limit
  | returnStep
  | project
  | orderBy
  deriving DecidableEq, Repr

/-- Source: `ast.py`, `QueryStep`. Kind: D -/
structure QueryStep (F : Type) where
  stepType : StepType
  targetType : String := ""
  edgeType : String := ""
  direction : String := "OUTGOING"
  predicate : Option (PredicateNode F) := none
  limit : ℤ := 0

/-- Source: `ast.py`, `QueryNode`. Kind: D -/
structure QueryNode (F : Type) where
  targetLabel : String
  steps : List (QueryStep F) := []
  projectionFields : List String := []

/-- Source: `dsl.py`, `CPGQueryBuilder`. Kind: D -/
structure CPGQueryBuilder (F : Type) where
  targetLabel : String
  steps : List (QueryStep F) := []
  projectionFields : List String := []

/-- The arguments of `where`. Kind: D -/
structure WhereArgs (F : Type) where
  target : String := "label"
  equals : Value F := .none
  contains : Option String := none
  regex : Option String := none
  predicate : Option (PredicateNode F) := none
  kwargs : List (String × Value F) := []

namespace CPGQueryBuilder

/-- The predicate that `where` makes of its arguments. Source: `dsl.py`, `where`. Kind: D -/
def wherePredicate (args : WhereArgs F) : PredicateNode F :=
  match args.predicate, args.contains, args.regex with
  | some p, _, _ => p
  | none, some sub, _ => .mk "CONTAINS" args.target (.str sub) []
  | none, none, some pattern => .mk "REGEX" args.target (.str pattern) []
  | none, none, none =>
    if args.equals.isNone = false then .mk "EQUALS" args.target args.equals []
    else
      match args.kwargs.map fun kv => PredicateNode.mk "EQUALS" kv.1 kv.2 [] with
      | [] => .mk "EQUALS" args.target args.equals []
      | [p] => p
      | ps => .mk "AND" "compound" .none ps

variable (b : CPGQueryBuilder F)

/-- Source: `dsl.py`, `where`. Kind: D -/
def whereClause (args : WhereArgs F) : CPGQueryBuilder F :=
  { b with steps := b.steps ++ [{ stepType := .whereStep, predicate := some (wherePredicate args) }] }

/-- Source: `dsl.py`, `outgoing`. Kind: D -/
def outgoing (edgeType targetType : String) : CPGQueryBuilder F :=
  { b with steps := b.steps ++
      [{ stepType := .traverse, direction := "OUTGOING", edgeType := edgeType, targetType := targetType }] }

/-- Source: `dsl.py`, `incoming`. Kind: D -/
def incoming (edgeType targetType : String) : CPGQueryBuilder F :=
  { b with steps := b.steps ++
      [{ stepType := .traverse, direction := "INCOMING", edgeType := edgeType, targetType := targetType }] }

/-- Source: `dsl.py`, `limit`. Kind: D -/
def limit (count : ℤ) : CPGQueryBuilder F :=
  { b with steps := b.steps ++ [{ stepType := .limit, limit := count }] }

/-- Source: `dsl.py`, `select`. Kind: D -/
def select (fields : List String) : CPGQueryBuilder F :=
  { b with projectionFields := b.projectionFields ++ fields }

/-- Source: `dsl.py`, `build`. Kind: D -/
def build : QueryNode F := ⟨b.targetLabel, b.steps, b.projectionFields⟩

/-- Source: `dsl.py`, `Function`. Kind: D -/
def function (name : String) : CPGQueryBuilder F :=
  let builder : CPGQueryBuilder F := { targetLabel := "FUNCTION" }
  if name = "" then builder else builder.whereClause { target := "function_name", equals := .str name }

end CPGQueryBuilder

/-! ## The planner -/

namespace QueryPlanner

/-- The fields for which the planner looks in an index. Kind: D -/
def indexableFields : List String := ["id", "label", "node_type", "file_path", "function_name", "variable"]

/-- The field and the value of a first step that is answered by an index.
Source: `planner.py`, `create_plan`
Kind: D -/
def indexed (q : QueryNode F) : Option (String × Value F) :=
  match q.steps with
  | [] => none
  | step :: _ =>
    match step.stepType, step.predicate with
    | .whereStep, some (.mk operator target value _) =>
      if target ∈ indexableFields ∧ operator = "EQUALS" then some (target, value) else none
    | _, _ => none

/-- The steps that are left for the plan nodes over the root. Source: `planner.py`, `create_plan`. Kind: D -/
def remaining (q : QueryNode F) : List (QueryStep F) :=
  match indexed q with
  | some _ => q.steps.tail
  | none => q.steps

variable (L : Language F)

/-- The root of the plan. Source: `planner.py`, `create_plan`. Kind: D -/
def rootStep (q : QueryNode F) : PlanStep L :=
  match indexed q with
  | some (field, value) =>
    { opType := .indexLookup, cost := 1, targetLabel := q.targetLabel, indexField := field,
      indexValue := L.text value }
  | none => { opType := .scan, cost := 100, targetLabel := q.targetLabel }

variable {L} in
/-- The plan node of a step, over the plan so far. Source: `planner.py`, `create_plan`. Kind: D -/
def addStep (plan : ExecutionPlanNode L) (step : QueryStep F) : ExecutionPlanNode L :=
  match step.stepType, step.predicate with
  | .whereStep, some p =>
    .node { opType := .filter, cost := plan.data.cost * (1 / 2), predicate := .written L p } [plan]
  | .traverse, _ =>
    .node
      { opType := .traverse, cost := plan.data.cost * 2, direction := step.direction, edgeType := step.edgeType,
        targetType := step.targetType }
      [plan]
  | .limit, _ => .node { opType := .limit, cost := plan.data.cost, limit := step.limit } [plan]
  | _, _ => plan

/-- Source: `planner.py`, `create_plan`. Kind: D -/
def createPlan (q : QueryNode F) : ExecutionPlanNode L :=
  let plan := (remaining q).foldl addStep (.node (rootStep L q) [])
  if q.projectionFields.isEmpty then plan else .node { opType := .projection, cost := plan.data.cost } [plan]

end QueryPlanner

/-! ## What a query says -/

/-- A node of the label of a query: any node, the nodes of a type, or those with a label. Kind: D -/
def matchesLabel (label : String) (n : CPGNode F) : Bool :=
  match NodeType.named label with
  | some t => n.nodeType = t
  | none => label = "" ∨ label ∈ n.labels ∨ n.nodeType.value = label

/-- The nodes that the edges of a step lead to from a node. Kind: D -/
def QueryStep.targets (g : CPGGraph F) (step : QueryStep F) (src : CPGNode F) : List (CPGNode F) :=
  let edges :=
    if step.direction = "OUTGOING" then g.edges.filter fun e => e.sourceId = src.id
    else g.edges.filter fun e => e.targetId = src.id
  let matching := edges.filter fun e => step.edgeType = "" ∨ e.edgeType.value = step.edgeType
  let ends := matching.filterMap fun e => g.nodes.get? (if step.direction = "OUTGOING" then e.targetId else e.sourceId)
  ends.filter fun n => step.targetType = "" ∨ step.targetType ∈ n.labels ∨ n.nodeType.value = step.targetType

/-- What a step makes of the nodes so far. Kind: D -/
def QueryStep.apply (L : Language F) (g : CPGGraph F) (nodes : List (CPGNode F)) (step : QueryStep F) :
    Option (List (CPGNode F)) :=
  match step.stepType, step.predicate with
  | .whereStep, some p => keep (fun n => PredicateEngine.evaluate L n p) nodes
  | .traverse, _ => some (nodes.flatMap (step.targets g))
  | .limit, _ => some (if 0 < step.limit then nodes.take step.limit.toNat else nodes)
  | _, _ => some nodes

namespace QueryNode

variable (L : Language F) (g : CPGGraph F) (q : QueryNode F)

/-- The nodes of the label of a query, and then its steps. Kind: D -/
def meaning : Option (List (CPGNode F)) :=
  q.steps.foldlM (QueryStep.apply L g) (g.nodes.values.filter (matchesLabel q.targetLabel))

/-- The nodes the plan of a query is to begin with: those of its label, with the value that a first step asks for where
an index answers it. Kind: D -/
def startNodes : List (CPGNode F) :=
  g.nodes.values.filter fun n =>
    matchesLabel q.targetLabel n &&
      match QueryPlanner.indexed q with
      | some (field, value) => L.eq (PredicateEngine.extractField L field n) value
      | none => true

/-- How often the index holds a node under a text, in the table of a field. A field without a table is compared with the
text. Kind: D -/
def indexCount (field key : String) (n : CPGNode F) : ℕ :=
  match field with
  | "id" => [n.id].count key
  | "file_path" => n.fileKeys.count key
  | "function_name" => (n.functionKeys L).count key
  | "label" => n.labels.count key
  | field => if L.eq (PredicateEngine.extractField L field n) (.str key) then 1 else 0

/-- The index can be built. A lookup finds each node of the label with the value once, and no other one; a scan is for
no label, for a node type or for a label that `NodeType` has no attribute of that name for. Kind: D -/
def LookupExact : Prop :=
  (∀ n ∈ g.nodes.values, n.indexable L = true) ∧
    match QueryPlanner.indexed q with
    | some (field, value) =>
      ∀ n ∈ g.nodes.values, indexCount L field (L.text value) n =
        if matchesLabel q.targetLabel n && L.eq (PredicateEngine.extractField L field n) value then 1 else 0
    | none => q.targetLabel = "" ∨ (NodeType.named q.targetLabel).isSome = true ∨ L.typeAttribute q.targetLabel = false

end QueryNode

/-! ## Steps of a plan and steps of a query -/

section steps

open QueryPlanner

variable {L : Language F} {g : CPGGraph F}

/-- The edges the executor follows from a node are those of the graph. Kind: L -/
theorem neighbours_eq (s : PlanStep L) (step : QueryStep F) (hdirection : s.direction = step.direction)
    (hedge : s.edgeType = step.edgeType) (htarget : s.targetType = step.targetType) (src : CPGNode F) :
    QueryExecutor.neighbours L g s src = step.targets g src := by
  have hfollow : ∀ e : CPGEdge, QueryExecutor.follow L g s e =
      if step.edgeType = "" ∨ e.edgeType.value = step.edgeType then
        (g.nodes.get? (if step.direction = "OUTGOING" then e.targetId else e.sourceId)).filter fun n =>
          step.targetType = "" ∨ step.targetType ∈ n.labels ∨ n.nodeType.value = step.targetType
      else none := by
    intro e
    unfold QueryExecutor.follow
    rw [hdirection, hedge, htarget, show e.edgeType.name = e.edgeType.value from rfl]
    by_cases hmatch : step.edgeType = "" ∨ e.edgeType.value = step.edgeType
    · rw [if_pos hmatch, if_neg (by tauto)]
      cases g.nodes.get? (if step.direction = "OUTGOING" then e.targetId else e.sourceId) with
      | none => rfl
      | some tgt =>
        by_cases hkept : step.targetType = "" ∨ step.targetType ∈ tgt.labels ∨ tgt.nodeType.value = step.targetType
        · grind
        · grind
    · rw [if_neg hmatch, if_pos (by tauto)]
  have hedges : (if s.direction = "OUTGOING" then g.getOutgoingEdges src.id else g.getIncomingEdges src.id) =
      if step.direction = "OUTGOING" then g.edges.filter fun e => e.sourceId = src.id
      else g.edges.filter fun e => e.targetId = src.id := by
    rw [hdirection, CPGGraph.getOutgoingEdges, CPGGraph.getIncomingEdges, g.out_eq, g.in_eq]
  unfold QueryExecutor.neighbours QueryStep.targets
  rw [hedges]
  dsimp only
  rw [List.filter_filterMap, List.filterMap_filter]
  congr 1
  funext e
  rw [hfollow e]
  simp only [decide_eq_true_eq]

/-- A plan node of a step does what the step says. Kind: P -/
theorem evaluate_addStep (idx : GraphIndex F) (plan : ExecutionPlanNode L) (step : QueryStep F) :
    QueryExecutor.evaluatePlanNode L g idx (addStep plan step) =
      (QueryExecutor.evaluatePlanNode L g idx plan).bind fun nodes => step.apply L g nodes := by
  have hover : ∀ s : PlanStep L, s.opType.reads = true →
      (∀ nodes, QueryExecutor.operate L g s nodes = step.apply L g nodes) →
        QueryExecutor.evaluatePlanNode L g idx (.node s [plan]) =
          (QueryExecutor.evaluatePlanNode L g idx plan).bind fun nodes => step.apply L g nodes := by
    intro s hreads hop
    rw [evaluate_node hreads, funext hop]
  have hsame : (∀ nodes, step.apply L g nodes = some nodes) →
      QueryExecutor.evaluatePlanNode L g idx plan =
        (QueryExecutor.evaluatePlanNode L g idx plan).bind fun nodes => step.apply L g nodes := by
    intro hid
    rw [funext hid, Option.bind_fun_some]
  unfold addStep
  split
  · rename_i p htype hp
    apply hover _ rfl
    intro nodes
    rw [operate_filter rfl, QueryStep.apply, htype, hp]
    dsimp only
    congr 1
    funext n
    rw [FilterParam.answer, FilterParam.asked_written]
  · rename_i htype
    apply hover _ rfl
    intro nodes
    rw [operate_traverse rfl, QueryStep.apply, htype]
    dsimp only
    congr 2
    funext src
    exact neighbours_eq _ step rfl rfl rfl src
  · rename_i htype
    apply hover _ rfl
    intro nodes
    rw [operate_limit rfl, QueryStep.apply, htype]
    rfl
  · rename_i htraverse hlimit hwhere
    apply hsame
    intro nodes
    unfold QueryStep.apply
    split
    · rename_i p htype hp
      exact absurd hp (hwhere p htype)
    · rename_i htype
      exact absurd htype htraverse
    · rename_i htype
      exact absurd htype hlimit
    · rfl

/-- The plan nodes of the steps do what the steps say. Kind: P -/
theorem evaluate_foldl_addStep (idx : GraphIndex F) (steps : List (QueryStep F)) (plan : ExecutionPlanNode L) :
    QueryExecutor.evaluatePlanNode L g idx (steps.foldl addStep plan) =
      (QueryExecutor.evaluatePlanNode L g idx plan).bind fun nodes => steps.foldlM (QueryStep.apply L g) nodes := by
  induction steps generalizing plan with
  | nil => exact (Option.bind_fun_some _).symm
  | cons step steps ih =>
    rw [List.foldl_cons, ih, evaluate_addStep, Option.bind_assoc]
    rfl

/-- A projection at the end keeps the nodes. Kind: L -/
theorem evaluate_createPlan (idx : GraphIndex F) (q : QueryNode F) :
    QueryExecutor.evaluatePlanNode L g idx (createPlan L q) =
      (QueryExecutor.evaluatePlanNode L g idx (.node (rootStep L q) [])).bind fun nodes =>
        (remaining q).foldlM (QueryStep.apply L g) nodes := by
  rw [← evaluate_foldl_addStep, createPlan]
  split
  · rfl
  · rw [evaluate_node rfl]
    exact Option.bind_fun_some _

/-- A first step that an index answers, taken apart. Kind: L -/
theorem indexed_eq_some {q : QueryNode F} {field : String} {value : Value F} (h : indexed q = some (field, value)) :
    ∃ step rest args, q.steps = step :: rest ∧ step.stepType = .whereStep ∧
      step.predicate = some (.mk "EQUALS" field value args) := by
  unfold indexed at h
  split at h
  · cases h
  · rename_i step rest hsteps
    split at h
    · simp_all
    · cases h

/-- What a query says, from the nodes its plan is to begin with. Kind: P -/
theorem meaning_eq (q : QueryNode F) :
    q.meaning L g = (remaining q).foldlM (QueryStep.apply L g) (q.startNodes L g) := by
  unfold QueryNode.meaning QueryNode.startNodes remaining
  cases hindexed : indexed q with
  | none => simp
  | some lookup =>
    obtain ⟨field, value⟩ := lookup
    obtain ⟨step, rest, args, hsteps, htype, hp⟩ := indexed_eq_some hindexed
    have hstep : ∀ nodes, step.apply L g nodes =
        some (nodes.filter fun n => L.eq (PredicateEngine.extractField L field n) value) := by
      intro nodes
      unfold QueryStep.apply
      rw [htype, hp]
      exact keep_eq_filter fun n _ => PredicateEngine.evaluate_equals L n field value args
    rw [hsteps, List.foldlM_cons, hstep, List.filter_filter]
    simp only [Bool.and_comm]
    rfl

end steps

/-! ## The root of a plan -/

section root

open QueryPlanner

variable (L : Language F) (g : CPGGraph F)

/-- A field without a table. Kind: D -/
def Tableless (field : String) : Prop :=
  field ≠ "id" ∧ field ≠ "file_path" ∧ field ≠ "function_name" ∧ field ≠ "label"

theorem indexLookup_tableless (idx : GraphIndex F) {field : String} (h : Tableless field) (key : String) :
    QueryExecutor.indexLookup L g idx field key =
      g.nodes.values.filter fun n => L.eq (PredicateEngine.extractField L field n) (.str key) := by
  obtain ⟨hid, hfile, hfunction, hlabel⟩ := h
  unfold QueryExecutor.indexLookup
  split <;> first | rfl | contradiction

theorem indexCount_tableless {field : String} (h : Tableless field) (key : String) (n : CPGNode F) :
    QueryNode.indexCount L field key n =
      if L.eq (PredicateEngine.extractField L field n) (.str key) then 1 else 0 := by
  obtain ⟨hid, hfile, hfunction, hlabel⟩ := h
  unfold QueryNode.indexCount
  split <;> first | rfl | contradiction

/-- A lookup in the index of the graph. Kind: L -/
theorem indexLookup_built (field key : String) :
    QueryExecutor.indexLookup L g (GraphIndex.ofNodes L g.nodes.values) field key =
      copies (QueryNode.indexCount L field key) g.nodes.values := by
  by_cases hid : field = "id"
  · subst hid
    exact GraphIndex.byId_build L g key
  by_cases hfile : field = "file_path"
  · subst hfile
    exact GraphIndex.byFile_build L _ key
  by_cases hfunction : field = "function_name"
  · subst hfunction
    exact GraphIndex.byFunction_build L _ key
  by_cases hlabel : field = "label"
  · subst hlabel
    exact GraphIndex.byLabel_build L _ key
  · grind [Tableless, indexLookup_tableless, copies_ite, copies_congr, indexCount_tableless]

/-- A scan with the index of the graph. Kind: L -/
theorem scan_built (label : String) :
    QueryExecutor.scan L g (GraphIndex.ofNodes L g.nodes.values) label =
        some (g.nodes.values.filter (matchesLabel label)) ↔
      label = "" ∨ (NodeType.named label).isSome = true ∨ L.typeAttribute label = false := by
  unfold QueryExecutor.scan matchesLabel
  by_cases hempty : label = ""
  · subst hempty
    have hnone : NodeType.named "" = none := by decide
    simp [hnone]
  · rw [if_neg hempty]
    cases hnamed : NodeType.named label with
    | some t =>
      dsimp only
      rw [GraphIndex.byType_build]
      simp
    | none =>
      dsimp only
      cases L.typeAttribute label with
      | true => simp [hempty]
      | false => simp [hempty]

/-- The root of a plan, with the index of the graph, gives the nodes the plan is to begin with exactly if the lookup is
exact. Kind: P -/
theorem evaluate_root_iff (q : QueryNode F) :
    QueryExecutor.evaluatePlanNode L g (GraphIndex.ofNodes L g.nodes.values) (.node (rootStep L q) []) =
        some (q.startNodes L g) ↔
      match indexed q with
      | some (field, value) =>
        ∀ n ∈ g.nodes.values, QueryNode.indexCount L field (L.text value) n =
          if matchesLabel q.targetLabel n && L.eq (PredicateEngine.extractField L field n) value then 1 else 0
      | none => q.targetLabel = "" ∨ (NodeType.named q.targetLabel).isSome = true ∨
          L.typeAttribute q.targetLabel = false := by
  unfold rootStep QueryNode.startNodes
  cases indexed q with
  | none =>
    simp only [Bool.and_true]
    exact scan_built L g q.targetLabel
  | some lookup =>
    obtain ⟨field, value⟩ := lookup
    have hnodup : g.nodes.values.Nodup := List.Nodup.of_map CPGNode.id g.nodup_ids
    show some (QueryExecutor.indexLookup L g _ field (L.text value)) = some _ ↔ _
    rw [indexLookup_built, Option.some_inj, ← copies_ite]
    exact copies_inj hnodup

end root

/-- The plan of a query gives the nodes of the query, and begins with the nodes of its label that satisfy the first
predicate where an index answers it, exactly if the lookup is exact. Kind: P -/
theorem createPlan_exact_iff (L : Language F) (g : CPGGraph F) (q : QueryNode F) :
    (QueryExecutor.execute L (QueryPlanner.createPlan L q) g none = q.meaning L g ∧
        QueryExecutor.execute L (.node (QueryPlanner.rootStep L q) []) g none = some (q.startNodes L g)) ↔
      q.LookupExact L g := by
  have hbuilt : ∀ plan : ExecutionPlanNode L, (∀ n ∈ g.nodes.values, n.indexable L = true) →
      QueryExecutor.execute L plan g none =
        QueryExecutor.evaluatePlanNode L g (GraphIndex.ofNodes L g.nodes.values) plan := by
    intro plan hindexable
    rw [QueryExecutor.execute, GraphIndex.buildIndex_eq, if_pos (List.all_eq_true.mpr hindexable)]
    rfl
  constructor
  · rintro ⟨_, hroot⟩
    have hindexable : ∀ n ∈ g.nodes.values, n.indexable L = true := by
      by_contra hnot
      rw [QueryExecutor.execute, GraphIndex.buildIndex_eq, if_neg fun h => hnot (List.all_eq_true.mp h)] at hroot
      cases hroot
    rw [hbuilt _ hindexable] at hroot
    exact ⟨hindexable, (evaluate_root_iff L g q).mp hroot⟩
  · rintro ⟨hindexable, hexact⟩
    have hroot := (evaluate_root_iff L g q).mpr hexact
    refine ⟨?_, (hbuilt _ hindexable).trans hroot⟩
    rw [hbuilt _ hindexable, evaluate_createPlan, hroot, meaning_eq]
    rfl

/-! ## A lookup that forgets the label -/

/-- A variable in the function `f`. Kind: D -/
def variableOfF : CPGGraph Empty :=
  CPGGraph.empty.addNode
    { id := "v", nodeType := .ssa, label := "x", attributes := Dict.empty.set "function_name" (.str "f") }

theorem function_finds_variable :
    QueryExecutor.execute plainLanguage
        (QueryPlanner.createPlan plainLanguage (CPGQueryBuilder.function "f").build) variableOfF none ≠
      (CPGQueryBuilder.function "f").build.meaning plainLanguage variableOfF := by
  intro h
  have hids := congrArg (Option.map (List.map CPGNode.id)) h
  exact absurd hids (by decide +kernel)

end KarsaSec.Query
