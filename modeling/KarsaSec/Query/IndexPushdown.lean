import KarsaSec.Found.Sorting
import KarsaSec.Query.Planner
import KarsaSec.Query.TraversalEngine
import Mathlib.Data.Prod.Lex

/-!
# Queries over the index

`QueryOptimizer.evaluate_query`: a query asked of the nodes that the index holds, or of all nodes of the graph.

* `CPGIndex` adds to the tables of the executor those that only the optimizer looks up: by SSA version, source kind and
  sink category.
* `optimizeAst` puts the WHERE steps in front, in the order of `getPredicatePriority`. The first of them may be looked
  up in a table, `pushdown`; `mem_candidates_built` says what an index of the graph holds there.
* `matchesNode` asks a node every predicate, in order; `none` is an exception, of a hash that a set asks for.
* `evaluateQuery_exact_iff`: the two ways of asking give the nodes that satisfy the query exactly if every such node
  stands in the table, and predicates that cannot be answered are come upon on all ways or on none.
-/

namespace KarsaSec.Query

open KarsaSec.Found

variable {F : Type} (L : Language F) (lower : String → String)

/-! ## The tables of attributes -/

/-- Source: `index.py`, `CPGIndex`. Kind: D -/
structure CPGIndex (F : Type) extends GraphIndex F where
  bySsaVersion : Dict String (List (CPGNode F)) := .empty
  bySourceKind : Dict String (List (CPGNode F)) := .empty
  bySinkCategory : Dict String (List (CPGNode F)) := .empty

/-- The text under which a table of attributes holds a node: that of the first value that counts as true. Kind: D -/
def CPGNode.attributeKeys (n : CPGNode F) (names : List String) : List String :=
  ((firstTruthy L n names).map L.text).toList

namespace CPGIndex

/-- A node is entered in every table. Kind: D -/
def enter (idx : CPGIndex F) (node : CPGNode F) : CPGIndex F where
  toGraphIndex := idx.toGraphIndex.enter L node
  bySsaVersion := idx.bySsaVersion.pushAll (node.attributeKeys L ["ssa_version", "variable_version"]) node
  bySourceKind := idx.bySourceKind.pushAll (node.attributeKeys L ["source_kind"]) node
  bySinkCategory := idx.bySinkCategory.pushAll (node.attributeKeys L ["sink_category"]) node

/-- Source: `index.py`, `index_node`. Kind: D -/
def indexNode (idx : CPGIndex F) (node : CPGNode F) : Option (CPGIndex F) :=
  if node.indexable L then some (idx.enter L node) else none

/-- Source: `index.py`, `build_index`. Kind: D -/
def buildIndex (g : CPGGraph F) : Option (CPGIndex F) := g.nodes.values.foldlM (indexNode L) {}

/-- The index of a list of nodes. Kind: D -/
def ofNodes (nodes : List (CPGNode F)) : CPGIndex F := nodes.foldl (enter L) {}

theorem eq_ofNodes_of_build {g : CPGGraph F} {idx : CPGIndex F} (h : buildIndex L g = some idx) :
    idx = ofNodes L g.nodes.values := by
  have hfold : ∀ (nodes : List (CPGNode F)) (start : CPGIndex F), nodes.foldlM (indexNode L) start = some idx →
      idx = nodes.foldl (enter L) start := by
    intro nodes
    induction nodes with
    | nil =>
      intro start hstart
      cases hstart
      rfl
    | cons n nodes ih =>
      intro start hstart
      rw [List.foldlM_cons] at hstart
      obtain ⟨next, hnext, hrest⟩ := Option.bind_eq_some_iff.mp hstart
      unfold indexNode at hnext
      split at hnext
      · cases hnext
        exact ih _ hrest
      · cases hnext
  exact hfold _ _ h

end CPGIndex

/-! ## Predicates of a query -/

namespace PredicateNode

/-- Kind: D -/
def operator : PredicateNode F → String
  | mk operator _ _ _ => operator

/-- Kind: D -/
def target : PredicateNode F → String
  | mk _ target _ _ => target

/-- Kind: D -/
def value : PredicateNode F → Value F
  | mk _ _ value _ => value

end PredicateNode

namespace QueryOptimizer

/-- Source: `optimizer.py`, `get_predicate_priority`. Kind: D -/
def getPredicatePriority (predicate : Option (PredicateNode F)) : ℕ :=
  match predicate with
  | none => 5
  | some p =>
    let t := if p.target = "" then "" else lower p.target
    let op := if p.operator = "" then "" else L.upper p.operator
    if t ∈ ["id", "node_id"] ∧ op = "EQUALS" then 0
    else if t ∈ ["node_type", "type"] ∨ op = "TYPE" then 1
    else if t ∈ ["function_name", "fn_name", "function"] ∨ op = "FUNCTION" then 2
    else if t ∈ ["ssa_version", "variable_version", "ssa_v"] ∨ op = "SSA_VERSION" then 3
    else if t ∈ ["source_kind", "sink_category"] ∨ op ∈ ["SOURCE_KIND", "SINK_CATEGORY"] then 4
    else if t ∈ ["local_predicate", "label", "file_path", "line_number"] ∨ op ∈ ["IS_LOCAL", "LINE_RANGE"] then 5
    else if t ∈ ["interprocedural", "call_context"] ∨ op ∈ ["TRAVERSE", "CALL_GRAPH"] then 6
    else if t ∈ ["dataflow", "taint", "flow"] ∨ op ∈ ["DATAFLOW", "TAINT_REACHABLE"] then 7
    else 5

/-- What the WHERE steps are sorted by: priority, target, operator. Source: `optimizer.py`, `optimize_ast`. Kind: D -/
def sortKey (step : QueryStep F) : ℕ ×ₗ String ×ₗ String :=
  toLex (getPredicatePriority L lower step.predicate,
    toLex ((step.predicate.map PredicateNode.target).getD "", (step.predicate.map PredicateNode.operator).getD ""))

/-- Source: `optimizer.py`, `optimize_ast`. Kind: D -/
def optimizeAst (q : QueryNode F) : QueryNode F :=
  { q with
    steps := sortBy (sortKey L lower) (q.steps.filter fun s => s.stepType = .whereStep) ++
      q.steps.filter fun s => s.stepType ≠ .whereStep }

/-- The value of a node that a predicate is about. Source: `optimizer.py`, `_eval_predicate`, `actual_val`. Kind: D -/
def actualVal (node : CPGNode F) (target : String) : Value F :=
  let t := lower target
  if t ∈ ["id", "node_id"] then .str node.id
  else if t ∈ ["label", "node_label"] then .str node.label
  else if t ∈ ["node_type", "type"] then .str node.nodeType.value
  else if t ∈ ["file_path", "file"] then .str node.filePath
  else if t ∈ ["line_number", "line"] then .int node.lineNumber
  else if t ∈ ["language", "lang"] then .str node.language
  else (node.attributes.get? target).getD .none

/-- Source: `optimizer.py`, `_eval_predicate`. Kind: D -/
def evalPredicate (node : CPGNode F) (p : PredicateNode F) : Option Bool :=
  let actual := actualVal lower node p.target
  let among (items : List (Value F)) : Option Bool :=
    (L.within actual p.value).map (· || items.any fun x => L.text x = L.text actual)
  match L.upper p.operator with
  | "EQUALS" => some (if p.value.isNone then actual.isNone else L.text actual = L.text p.value)
  | "NOT_EQUALS" => some (L.text actual ≠ L.text p.value)
  | "CONTAINS" => some (!actual.isNone && inStr (L.text p.value) (L.text actual))
  | "IN" =>
    match p.value with
    | .list items => among items
    | .tuple items => among items
    | .set items => among items
    | value => some (L.text actual = L.text value)
  | _ => some false

/-- The predicates of the WHERE steps, in order. Source: `optimizer.py`, `_matches_node`. Kind: D -/
def asked (q : QueryNode F) : List (PredicateNode F) :=
  q.steps.filterMap fun s => if s.stepType = .whereStep then s.predicate else none

/-- Whether a node has the label that a query is for. Source: `optimizer.py`, `_matches_node`. Kind: D -/
def labelled (q : QueryNode F) (node : CPGNode F) : Bool :=
  q.targetLabel = "" || L.upper q.targetLabel ∈ ["ALL", "ANY", "*"] || node.label = q.targetLabel ||
    node.nodeType.value = q.targetLabel

/-- Source: `optimizer.py`, `_matches_node`. Kind: D -/
def matchesNode (q : QueryNode F) (node : CPGNode F) : Option Bool :=
  if labelled L q node then inTurn ((asked q).map (evalPredicate L lower node)) else some false

/-! ## Pushdown -/

/-- The tables that a predicate may be looked up in. Kind: D -/
inductive IndexField
  | id
  | nodeType
  | functionName
  | filePath
  | ssaVersion
  | sourceKind
  | sinkCategory
  deriving DecidableEq

/-- The table of a target. Source: `optimizer.py`, `evaluate_query`. Kind: D -/
def indexField (t : String) : Option IndexField :=
  if t ∈ ["id", "node_id"] then some .id
  else if t ∈ ["node_type", "type"] then some .nodeType
  else if t ∈ ["function_name", "fn_name", "function"] then some .functionName
  else if t ∈ ["file_path", "file"] then some .filePath
  else if t ∈ ["ssa_version", "variable_version"] then some .ssaVersion
  else if t = "source_kind" then some .sourceKind
  else if t = "sink_category" then some .sinkCategory
  else none

/-- The table and the text that the first step of an optimized query is looked up under.
Source: `optimizer.py`, `evaluate_query`
Kind: D -/
def pushdown (q : QueryNode F) : Option (IndexField × String) :=
  match q.steps.head? with
  | some { stepType := .whereStep, predicate := some p, .. } =>
    let t := if p.target = "" then "" else lower p.target
    let op := if p.operator = "" then "" else L.upper p.operator
    let val := if p.value.isNone then "" else L.text p.value
    if op = "EQUALS" then (indexField t).map fun field => (field, val) else none
  | _ => none

/-- What a table holds under a text. Source: `index.py`, `get_by_id` and the other lookups. Kind: D -/
def lookup (idx : CPGIndex F) (val : String) : IndexField → List (CPGNode F)
  | .id => (idx.byId.get? val).toList
  | .nodeType =>
    -- the members of the enumeration are texts, and equal to their values
    match NodeType.named val with
    | some t => idx.byType.getD t []
    | none => []
  | .functionName => idx.byFunction.getD val []
  | .filePath => idx.byFile.getD val []
  | .ssaVersion => idx.bySsaVersion.getD val []
  | .sourceKind => idx.bySourceKind.getD val []
  | .sinkCategory => idx.bySinkCategory.getD val []

/-- The index is asked if there is one that has as many nodes as the graph. Source: `optimizer.py`, `evaluate_query`.
Kind: D -/
def usable (g : CPGGraph F) (idx : CPGIndex F) : Bool :=
  g.nodes.entries.isEmpty || idx.byId.entries.length = g.nodes.entries.length

/-- The nodes that a query is asked of: those of a table that the graph has, or all of them in the order of their ids.
Source: `optimizer.py`, `evaluate_query`
Kind: D -/
def candidateNodes (q : QueryNode F) (g : CPGGraph F) (index : Option (CPGIndex F)) : List (CPGNode F) :=
  match index.filter (usable g), pushdown L lower q with
  | some idx, some (field, val) => (lookup idx val field).filterMap fun n => g.nodes.get? n.id
  | _, _ => sortBy CPGNode.id g.nodes.values

/-- Source: `optimizer.py`, `evaluate_query`. Kind: D -/
def evaluateQuery (q : QueryNode F) (g : CPGGraph F) (index : Option (CPGIndex F)) : Option (List (CPGNode F)) :=
  let optimized := optimizeAst L lower q
  (keep (matchesNode L lower optimized) (candidateNodes L lower optimized g index)).map (sortBy CPGNode.id)

/-! ## What the tables hold -/

/-- The texts under which a table holds a node, one at most. Kind: D -/
def fieldKeys (n : CPGNode F) : IndexField → List String
  | .id => [n.id]
  | .nodeType => [n.nodeType.value]
  | .functionName => n.functionKeys L
  | .filePath => n.fileKeys
  | .ssaVersion => n.attributeKeys L ["ssa_version", "variable_version"]
  | .sourceKind => n.attributeKeys L ["source_kind"]
  | .sinkCategory => n.attributeKeys L ["sink_category"]

theorem length_attributeKeys (n : CPGNode F) (names : List String) : (n.attributeKeys L names).length ≤ 1 := by
  simp [CPGNode.attributeKeys]

/-- What is entered under one key at most stands under it once. Kind: L -/
theorem copies_at_most_one {keys : CPGNode F → List String} (h : ∀ n, (keys n).length ≤ 1) (key : String)
    (nodes : List (CPGNode F)) :
    copies (fun n => (keys n).count key) nodes = nodes.filter fun n => key ∈ keys n := by
  rw [← copies_ite]
  apply copies_congr
  intro n _
  rcases hkeys : keys n with _ | ⟨k, _ | ⟨k', rest⟩⟩
  · simp
  · grind
  · grind

theorem toGraphIndex_ofNodes (nodes : List (CPGNode F)) :
    (CPGIndex.ofNodes L nodes).toGraphIndex = GraphIndex.ofNodes L nodes :=
  (List.foldl_hom CPGIndex.toGraphIndex fun _ _ => rfl).symm

/-- A table of attributes holds under a key the nodes entered under it. Kind: L -/
theorem table_ofNodes (table : CPGIndex F → Dict String (List (CPGNode F))) (names : List String)
    (hstart : table {} = .empty)
    (henter : ∀ idx n, table (idx.enter L n) = (table idx).pushAll (n.attributeKeys L names) n)
    (nodes : List (CPGNode F)) (key : String) :
    (table (CPGIndex.ofNodes L nodes)).getD key [] = nodes.filter fun n => key ∈ n.attributeKeys L names := by
  have hfold : table (CPGIndex.ofNodes L nodes) =
      nodes.foldl (fun d n => d.pushAll (n.attributeKeys L names) n) (table {}) :=
    (List.foldl_hom table fun idx n => (henter idx n).symm).symm
  rw [hfold, Dict.getD_foldl_pushAll, hstart, ← copies_at_most_one fun n => length_attributeKeys L n names]
  rfl

theorem named_value (t : NodeType) : NodeType.named t.value = some t := by
  cases t <;> rfl

theorem named_eq_some {val : String} {t : NodeType} (h : NodeType.named val = some t) : t.value = val := by
  have hfound := List.find?_some h
  simpa using hfound

/-- The index of a graph holds under a text the nodes with that text in the field of the table.
Source: `index.py`, `build_index`
Kind: L -/
theorem lookup_built (g : CPGGraph F) (val : String) (field : IndexField) :
    lookup (CPGIndex.ofNodes L g.nodes.values) val field =
      g.nodes.values.filter fun n => val ∈ fieldKeys L n field := by
  have hgraph := toGraphIndex_ofNodes L g.nodes.values
  cases field with
  | id =>
    rw [lookup, hgraph, GraphIndex.byId_build]
    exact copies_at_most_one (fun _ => le_refl 1) val _
  | nodeType =>
    rw [lookup]
    cases hnamed : NodeType.named val with
    | none =>
      symm
      apply List.filter_eq_nil_iff.mpr
      intro n _ hmem
      have hval : val = n.nodeType.value := by simpa [fieldKeys] using hmem
      rw [hval, named_value] at hnamed
      cases hnamed
    | some t =>
      dsimp only
      rw [hgraph, GraphIndex.byType_build]
      apply List.filter_congr
      intro n _
      rw [← named_eq_some hnamed]
      by_cases ht : n.nodeType = t
      · simp [fieldKeys, ht]
      · have hne : t.value ≠ n.nodeType.value := by
          intro heq
          have hsame := congrArg NodeType.named heq
          rw [named_value, named_value] at hsame
          exact ht (Option.some.inj hsame).symm
        simp [fieldKeys, ht, hne]
  | functionName =>
    rw [lookup, hgraph, GraphIndex.byFunction_build]
    apply copies_at_most_one
    intro n
    unfold CPGNode.functionKeys
    split <;> simp
  | filePath =>
    rw [lookup, hgraph, GraphIndex.byFile_build]
    apply copies_at_most_one
    intro n
    unfold CPGNode.fileKeys
    split <;> simp
  | ssaVersion => exact table_ofNodes L CPGIndex.bySsaVersion _ rfl (fun _ _ => rfl) _ val
  | sourceKind => exact table_ofNodes L CPGIndex.bySourceKind _ rfl (fun _ _ => rfl) _ val
  | sinkCategory => exact table_ofNodes L CPGIndex.bySinkCategory _ rfl (fun _ _ => rfl) _ val

/-! ## What a query asks -/

/-- A node satisfies a query: it has the label, and every predicate holds. Kind: D -/
def Meets (q : QueryNode F) (n : CPGNode F) : Prop :=
  labelled L q n = true ∧ ∀ p ∈ asked q, evalPredicate L lower n p = some true

/-- A predicate that has no answer is come upon at a node, after those before it hold. Kind: D -/
def Stuck (q : QueryNode F) (n : CPGNode F) : Prop :=
  labelled L q n = true ∧ ∃ before p after, asked q = before ++ p :: after ∧
    (∀ r ∈ before, evalPredicate L lower n r = some true) ∧ evalPredicate L lower n p = none

theorem matchesNode_eq_yes {q : QueryNode F} {n : CPGNode F} :
    matchesNode L lower q n = some true ↔ Meets L lower q n := by
  unfold matchesNode Meets
  by_cases hlabel : labelled L q n = true
  · simp_all [inTurn_eq_yes]
  · simp [hlabel]

theorem matchesNode_eq_none {q : QueryNode F} {n : CPGNode F} :
    matchesNode L lower q n = none ↔ Stuck L lower q n := by
  unfold matchesNode Stuck
  by_cases hlabel : labelled L q n = true
  · rw [if_pos hlabel, inTurn_eq_none]
    constructor
    · rintro ⟨before, after, heq, hbefore⟩
      obtain ⟨ps, rest, hasked, hps, hrest⟩ := List.map_eq_append_iff.mp heq
      obtain ⟨p, qs, hrest', hp, -⟩ := List.map_eq_cons_iff.mp hrest
      refine ⟨hlabel, ps, p, qs, by rw [hasked, hrest'], ?_, hp⟩
      intro r hr
      apply hbefore
      rw [← hps]
      exact List.mem_map_of_mem hr
    · rintro ⟨-, before, p, after, hasked, hbefore, hp⟩
      refine ⟨before.map (evalPredicate L lower n), after.map (evalPredicate L lower n), ?_, ?_⟩
      · rw [hasked, List.map_append, List.map_cons, hp]
      · exact List.forall_mem_map.mpr hbefore
  · simp [hlabel]

/-- The optimizer asks the same predicates, in another order. Source: `optimizer.py`, `optimize_ast`. Kind: L -/
theorem asked_optimizeAst (q : QueryNode F) : (asked (optimizeAst L lower q)).Perm (asked q) := by
  have hperm : (optimizeAst L lower q).steps.Perm q.steps := by
    refine ((sortBy_perm (sortKey L lower) _).append_right _).trans ?_
    have hsplit := List.filter_append_perm (fun s : QueryStep F => decide (s.stepType = .whereStep)) q.steps
    simpa using hsplit
  exact hperm.filterMap _

theorem meets_optimizeAst {q : QueryNode F} {n : CPGNode F} :
    Meets L lower (optimizeAst L lower q) n ↔ Meets L lower q n := by
  unfold Meets
  apply and_congr
  · exact Iff.rfl
  · grind [asked_optimizeAst]

/-- A node stands in the table that the optimized query is looked up in, under the text of the value. Kind: D -/
def Held (q : QueryNode F) (n : CPGNode F) : Prop :=
  ∀ field val, pushdown L lower (optimizeAst L lower q) = some (field, val) → val ∈ fieldKeys L n field

/-- The nodes that satisfy a query as it is written, in the order of their ids. Kind: D -/
def satisfying (q : QueryNode F) (g : CPGGraph F) : Option (List (CPGNode F)) :=
  (keep (matchesNode L lower q) g.nodes.values).map (sortBy CPGNode.id)

/-- What the two ways of asking need in order to agree. A predicate that has no answer is come upon in the order of
the optimizer just if it is in the order of the query, and so at the nodes of the table; and where no predicate fails,
every node that satisfies the query stands in the table.
Source: `optimizer.py`, `evaluate_query`; `index.py`, `index_node`
Kind: C -/
structure AskedAlike (q : QueryNode F) (g : CPGGraph F) : Prop where
  scanned : (∃ n ∈ g.nodes.values, Stuck L lower (optimizeAst L lower q) n) ↔ ∃ n ∈ g.nodes.values, Stuck L lower q n
  looked : (∃ n ∈ g.nodes.values, Held L lower q n ∧ Stuck L lower (optimizeAst L lower q) n) ↔
    ∃ n ∈ g.nodes.values, Stuck L lower q n
  held : (∀ n ∈ g.nodes.values, ¬Stuck L lower q n) → ∀ n ∈ g.nodes.values, Meets L lower q n → Held L lower q n

/-! ## The two ways of asking -/

/-- Two filters of nodes give the same nodes, sorted, exactly if both fail or none, and they keep the same ones. Kind: L -/
theorem keep_sorted_eq_iff (m m' : CPGNode F → Option Bool) {l l' : List (CPGNode F)}
    (hl : (l.map CPGNode.id).Nodup) (hl' : (l'.map CPGNode.id).Nodup) :
    (keep m l).map (sortBy CPGNode.id) = (keep m' l').map (sortBy CPGNode.id) ↔
      ((∃ n ∈ l, m n = none) ↔ ∃ n ∈ l', m' n = none) ∧
        ((∀ n ∈ l', m' n ≠ none) → ∀ n, (n ∈ l ∧ m n = some true) ↔ n ∈ l' ∧ m' n = some true) := by
  have hout : ∀ {k : CPGNode F → Option Bool} {c : List (CPGNode F)},
      (∃ n ∈ c, k n = none) ∧ (keep k c).map (sortBy CPGNode.id) = none ∨
        (∀ n ∈ c, k n ≠ none) ∧
          (keep k c).map (sortBy CPGNode.id) = some (sortBy CPGNode.id (c.filter fun n => k n = some true)) := by
    intro k c
    by_cases hfail : ∃ n ∈ c, k n = none
    · grind [keep_eq_none]
    · simp_all [keep_answered]
  rcases hout (k := m) (c := l) with ⟨⟨n, hn, hnone⟩, heq⟩ | ⟨hgiven, heq⟩
  · rcases hout (k := m') (c := l') with ⟨⟨n', hn', hnone'⟩, heq'⟩ | ⟨hgiven', heq'⟩
    · grind
    · grind
  · rcases hout (k := m') (c := l') with ⟨⟨n', hn', hnone'⟩, heq'⟩ | ⟨hgiven', heq'⟩
    · grind
    · rw [heq, heq', Option.some_inj]
      have hmem : ∀ (k : CPGNode F → Option Bool) (c : List (CPGNode F)) n,
          n ∈ sortBy CPGNode.id (c.filter fun n => k n = some true) ↔ n ∈ c ∧ k n = some true := by
        intro k c n
        rw [(sortBy_perm CPGNode.id _).mem_iff]
        simp
      constructor
      · intro hsame
        refine ⟨⟨fun ⟨n, hn, hnone⟩ => absurd hnone (hgiven n hn), fun ⟨n, hn, hnone⟩ =>
          absurd hnone (hgiven' n hn)⟩, fun _ n => ?_⟩
        rw [← hmem m l n, hsame, hmem m' l' n]
      · rintro ⟨-, hsame⟩
        have hfilter : (l.filter fun n => m n = some true).Perm (l'.filter fun n => m' n = some true) := by
          have hnodup := List.Nodup.of_map CPGNode.id hl
          have hnodup' := List.Nodup.of_map CPGNode.id hl'
          apply (List.perm_ext_iff_of_nodup (hnodup.filter _) (hnodup'.filter _)).mpr
          intro n
          simpa using hsame hgiven' n
        exact sortBy_eq_of_perm (hl.sublist ((List.filter_sublist).map _)) hfilter

theorem get?_id {g : CPGGraph F} {n : CPGNode F} (hn : n ∈ g.nodes.values) : g.nodes.get? n.id = some n := by
  obtain ⟨k, hk⟩ := Dict.mem_values.mp hn
  rw [g.keyed k n hk]
  exact hk

/-- With an index of the graph, the nodes that a query is asked of are those of the table. Kind: L -/
theorem mem_candidates_built (q : QueryNode F) (g : CPGGraph F) :
    ((candidateNodes L lower (optimizeAst L lower q) g (some (CPGIndex.ofNodes L g.nodes.values))).map
        CPGNode.id).Nodup ∧
      ∀ n, n ∈ candidateNodes L lower (optimizeAst L lower q) g (some (CPGIndex.ofNodes L g.nodes.values)) ↔
        n ∈ g.nodes.values ∧ Held L lower q n := by
  have husable : usable g (CPGIndex.ofNodes L g.nodes.values) = true := by
    unfold usable
    rw [toGraphIndex_ofNodes, GraphIndex.byId_ofNodes]
    simp
  unfold candidateNodes
  rw [Option.filter_some, if_pos husable]
  cases hpush : pushdown L lower (optimizeAst L lower q) with
  | none =>
    have hheld : ∀ n, Held L lower q n := by
      intro n field val hfield
      rw [hpush] at hfield
      cases hfield
    refine ⟨?_, fun n => ?_⟩
    · exact (((sortBy_perm CPGNode.id g.nodes.values).map CPGNode.id).nodup_iff).mpr g.nodup_ids
    · rw [(sortBy_perm CPGNode.id g.nodes.values).mem_iff]
      exact ⟨fun hn => ⟨hn, hheld n⟩, fun h => h.1⟩
  | some found =>
    obtain ⟨field, val⟩ := found
    have hfound : (lookup (CPGIndex.ofNodes L g.nodes.values) val field).filterMap
        (fun n => g.nodes.get? n.id) = g.nodes.values.filter fun n => val ∈ fieldKeys L n field := by
      rw [lookup_built]
      conv_rhs => rw [← List.filterMap_some (l := g.nodes.values.filter _)]
      apply List.filterMap_congr
      intro n hn
      exact get?_id (List.mem_filter.mp hn).1
    dsimp only
    rw [hfound]
    refine ⟨g.nodup_ids.sublist ((List.filter_sublist).map _), fun n => ?_⟩
    have hheld : Held L lower q n ↔ val ∈ fieldKeys L n field := by
      constructor
      · intro h
        exact h field val hpush
      · intro hval field' val' hpush'
        rw [hpush] at hpush'
        cases hpush'
        exact hval
    rw [List.mem_filter, hheld]
    simp

/-- With an index of the graph and without one, a query gives the nodes that satisfy it exactly if it is asked alike.
Source: `optimizer.py`, `evaluate_query`
Kind: P -/
theorem evaluateQuery_exact_iff (q : QueryNode F) (g : CPGGraph F) {idx : CPGIndex F}
    (hbuilt : CPGIndex.buildIndex L g = some idx) :
    (evaluateQuery L lower q g (some idx) = evaluateQuery L lower q g none ∧
        evaluateQuery L lower q g none = satisfying L lower q g) ↔ AskedAlike L lower q g := by
  obtain ⟨hnodup, hmem⟩ := mem_candidates_built L lower q g
  have hsorted : ((sortBy CPGNode.id g.nodes.values).map CPGNode.id).Nodup :=
    (((sortBy_perm CPGNode.id g.nodes.values).map CPGNode.id).nodup_iff).mpr g.nodup_ids
  have hindexed := keep_sorted_eq_iff (matchesNode L lower (optimizeAst L lower q)) (matchesNode L lower q)
    hnodup g.nodup_ids
  have hscanned := keep_sorted_eq_iff (matchesNode L lower (optimizeAst L lower q)) (matchesNode L lower q)
    hsorted g.nodup_ids
  simp only [hmem, (sortBy_perm CPGNode.id g.nodes.values).mem_iff, matchesNode_eq_yes, matchesNode_eq_none,
    meets_optimizeAst, ne_eq] at hindexed hscanned
  rw [← CPGIndex.eq_ofNodes_of_build L hbuilt] at hindexed
  have hsplit : (evaluateQuery L lower q g (some idx) = evaluateQuery L lower q g none ∧
      evaluateQuery L lower q g none = satisfying L lower q g) ↔
      evaluateQuery L lower q g (some idx) = satisfying L lower q g ∧
        evaluateQuery L lower q g none = satisfying L lower q g := by
    constructor
    · simp_all
    · simp_all
  rw [hsplit]
  constructor
  · rintro ⟨hsome, hnone⟩
    obtain ⟨hlooked, hheld⟩ := hindexed.mp hsome
    obtain ⟨hscan, -⟩ := hscanned.mp hnone
    refine ⟨hscan, ?_, fun hfree n hn hmeets => ?_⟩
    · rw [← hlooked]
      simp only [and_assoc]
    · exact ((hheld hfree n).mpr ⟨hn, hmeets⟩).1.2
  · intro h
    constructor
    · apply hindexed.mpr
      refine ⟨?_, fun hfree n => ?_⟩
      · rw [← h.looked]
        simp only [and_assoc]
      · constructor
        · simp_all
        · rintro ⟨hn, hmeets⟩
          exact ⟨⟨hn, h.held hfree n hn hmeets⟩, hmeets⟩
    · apply hscanned.mpr
      exact ⟨h.scanned, fun _ _ => trivial⟩

/-! ## Nodes looked up by their type and by their file -/

/-- A node without a file. Kind: D -/
def unfiledNode : CPGGraph Empty := CPGGraph.empty.addNode { id := "n", nodeType := .symbol, label := "x" }

/-- Two symbols, and a node of another type with the file of one of them. Kind: D -/
def mixedNodes : CPGGraph Empty :=
  (unfiledNode.addNode { id := "m", nodeType := .symbol, label := "y", filePath := "app.py" }).addNode
    { id := "k", nodeType := .cfg, label := "entry", filePath := "app.py" }

/-- The nodes with a text in a field. Kind: D -/
def withText (target text : String) : QueryNode Empty :=
  ((CPGQueryBuilder.mk "ANY" [] []).whereClause { target := target, equals := .str text }).build

/-- The symbols are found by their type, in the table and in a scan, and the other node is not.
Source: `optimizer.py`, `evaluate_query`
Kind: T -/
theorem symbol_held : ∃ idx, CPGIndex.buildIndex plainLanguage mixedNodes = some idx ∧
    evaluateQuery plainLanguage Found.lower (withText "node_type" "SYMBOL") mixedNodes (some idx) =
      evaluateQuery plainLanguage Found.lower (withText "node_type" "SYMBOL") mixedNodes none ∧
    evaluateQuery plainLanguage Found.lower (withText "node_type" "SYMBOL") mixedNodes none =
      satisfying plainLanguage Found.lower (withText "node_type" "SYMBOL") mixedNodes := by
  have hbuilt : (CPGIndex.buildIndex plainLanguage mixedNodes).isSome = true := by decide +kernel
  obtain ⟨idx, hidx⟩ := Option.isSome_iff_exists.mp hbuilt
  have hasked : mixedNodes.nodes.values.all (fun n =>
      matchesNode plainLanguage Found.lower (withText "node_type" "SYMBOL") n = some (decide (n.nodeType = .symbol)) ∧
        matchesNode plainLanguage Found.lower (optimizeAst plainLanguage Found.lower (withText "node_type" "SYMBOL")) n =
          some (decide (n.nodeType = .symbol))) = true := by
    decide +kernel
  have hpush : pushdown plainLanguage Found.lower
      (optimizeAst plainLanguage Found.lower (withText "node_type" "SYMBOL")) = some (.nodeType, "SYMBOL") := by
    decide +kernel
  have hkeys : mixedNodes.nodes.values.all (fun n =>
      ("SYMBOL" ∈ fieldKeys plainLanguage n .nodeType) = (n.nodeType = .symbol)) = true := by
    decide +kernel
  simp only [List.all_eq_true, decide_eq_true_eq] at hasked hkeys
  have hfree : ∀ n ∈ mixedNodes.nodes.values, ¬Stuck plainLanguage Found.lower (withText "node_type" "SYMBOL") n := by
    intro n hn hstuck
    rw [← matchesNode_eq_none, (hasked n hn).1] at hstuck
    cases hstuck
  have hfree' : ∀ n ∈ mixedNodes.nodes.values, ¬Stuck plainLanguage Found.lower
      (optimizeAst plainLanguage Found.lower (withText "node_type" "SYMBOL")) n := by
    intro n hn hstuck
    rw [← matchesNode_eq_none, (hasked n hn).2] at hstuck
    cases hstuck
  have halike : AskedAlike plainLanguage Found.lower (withText "node_type" "SYMBOL") mixedNodes := by
    refine ⟨?_, ?_, fun _ n hn hmeets field val hfield => ?_⟩
    · grind
    · grind
    · rw [hpush] at hfield
      cases hfield
      rw [← matchesNode_eq_yes, (hasked n hn).1] at hmeets
      rw [hkeys n hn]
      exact of_decide_eq_true (Option.some.inj hmeets)
  exact ⟨idx, hidx, (evaluateQuery_exact_iff plainLanguage Found.lower _ mixedNodes hidx).mpr halike⟩

/-- The query finds the node in a scan, and not in the table of files, which has no entry for it.
Source: `optimizer.py`, `evaluate_query`; `index.py`, `index_node`
Kind: T -/
theorem unfiled_not_held : ∃ idx, CPGIndex.buildIndex plainLanguage unfiledNode = some idx ∧
    evaluateQuery plainLanguage Found.lower (withText "file_path" "") unfiledNode (some idx) ≠
      evaluateQuery plainLanguage Found.lower (withText "file_path" "") unfiledNode none := by
  have hrun : (do
      let idx ← CPGIndex.buildIndex plainLanguage unfiledNode
      let looked ← evaluateQuery plainLanguage Found.lower (withText "file_path" "") unfiledNode (some idx)
      let scanned ← evaluateQuery plainLanguage Found.lower (withText "file_path" "") unfiledNode none
      some (looked.map CPGNode.id, scanned.map CPGNode.id)) = some ([], ["n"]) := by
    decide +kernel
  obtain ⟨idx, hidx, hrun⟩ := Option.bind_eq_some_iff.mp hrun
  obtain ⟨looked, hlooked, hrun⟩ := Option.bind_eq_some_iff.mp hrun
  obtain ⟨scanned, hscanned, hrun⟩ := Option.bind_eq_some_iff.mp hrun
  refine ⟨idx, hidx, fun hsame => ?_⟩
  rw [hlooked, hscanned] at hsame
  cases hsame
  have hids := Option.some.inj hrun
  rw [Prod.mk.injEq] at hids
  rw [hids.1] at hids
  exact absurd hids.2 (by decide)

end QueryOptimizer

end KarsaSec.Query
