import KarsaSec.Query.Executor
import Mathlib.Tactic.NormNum.Basic

/-!
# The optimizer of plans

`query/optimizer.py`, `QueryOptimizer`: three passes over a plan, each from the leaves up. A pass looks at a node with
one child, once the child has been rewritten.

* `pushdownRule` exchanges a TRAVERSE with a FILTER below it, so that the filter is put to the nodes the traversal leads
  to. `mergeRule` joins a FILTER with a FILTER below it, `limitRule` a LIMIT with a LIMIT.
* `risen` is the filter that stands on top of a plan after the first pass, `mergedTop` the predicates that the second
  pass joins in it, the outermost first.
* `FiltersCommute`: every filter that is exchanged with a traversal gives at every node the answer it gives at the
  nodes the traversal leads to from it. `RunsAgree`: every predicate that is joined with the predicates below it gives
  the same answer, or exception, before and after them.
* `optimize_preserves`: then the optimized plan gives the nodes of the plan.
-/

namespace KarsaSec.Query

open KarsaSec.Found

variable {F : Type} {L : Language F}

/-! ## The passes -/

namespace QueryOptimizer

/-- Source: `optimizer.py`, `_pushdown_filters`. Kind: D -/
def pushdownRule : ExecutionPlanNode L → ExecutionPlanNode L
  | .node s [.node fs (pushed :: rest)] =>
    if s.opType = .traverse ∧ fs.opType = .filter then
      .node { fs with cost := fs.cost * (4 / 5) } [.node s [pushed]]
    else .node s [.node fs (pushed :: rest)]
  | plan => plan

/-- `PredicateNode(operator="AND", target="compound", args=(p1, p2))`. Kind: D -/
def conjunction (p1 p2 : PredicateNode F) : PredicateNode F := .mk "AND" "compound" .none [p1, p2]

/-- Source: `optimizer.py`, `_merge_predicates`. Kind: D -/
def mergeRule : ExecutionPlanNode L → ExecutionPlanNode L
  | .node s [.node fs grandchildren] =>
    if s.opType = .filter ∧ fs.opType = .filter then
      match s.predicate.asked, fs.predicate.asked with
      | some p1, some p2 =>
        .node { opType := .filter, cost := s.cost * (9 / 10), predicate := .written L (conjunction p1 p2) }
          grandchildren
      | _, _ => .node s [.node fs grandchildren]
    else .node s [.node fs grandchildren]
  | plan => plan

/-- `min(l1, l2) if (l1 > 0 and l2 > 0) else max(l1, l2)`. Kind: D -/
def joinedLimit (l1 l2 : ℤ) : ℤ := if 0 < l1 ∧ 0 < l2 then min l1 l2 else max l1 l2

/-- Source: `optimizer.py`, `_eliminate_dead_steps`. Kind: D -/
def limitRule : ExecutionPlanNode L → ExecutionPlanNode L
  | .node s [.node ls grandchildren] =>
    if s.opType = .limit ∧ ls.opType = .limit then
      .node { opType := .limit, cost := s.cost, limit := joinedLimit s.limit ls.limit } grandchildren
    else .node s [.node ls grandchildren]
  | plan => plan

/-- Source: `optimizer.py`, `_pushdown_filters`. Kind: D -/
def pushdownFilters (plan : ExecutionPlanNode L) : ExecutionPlanNode L := plan.bottomUp pushdownRule

/-- Source: `optimizer.py`, `_merge_predicates`. Kind: D -/
def mergePredicates (plan : ExecutionPlanNode L) : ExecutionPlanNode L := plan.bottomUp mergeRule

/-- Source: `optimizer.py`, `_eliminate_dead_steps`. Kind: D -/
def eliminateDeadSteps (plan : ExecutionPlanNode L) : ExecutionPlanNode L := plan.bottomUp limitRule

/-- Source: `optimizer.py`, `optimize`. Kind: D -/
def optimize (plan : ExecutionPlanNode L) : ExecutionPlanNode L :=
  eliminateDeadSteps (mergePredicates (pushdownFilters plan))

end QueryOptimizer

/-! ## When they keep the meaning -/

/-- The filter that is on top of a plan once filters have been exchanged with traversals: a FILTER over something, or
the one on top of the only child of a TRAVERSE. Kind: D -/
def risen : ExecutionPlanNode L → Option (FilterParam L)
  | .node s children =>
    match s.opType, children with
    | .filter, _ :: _ => some s.predicate
    | .traverse, [c] => risen c
    | _, _ => none

/-- The predicates that are joined in the filter on top of a plan, the outermost first. Kind: D -/
def mergedTop : ExecutionPlanNode L → List (PredicateNode F)
  | .node s children =>
    match s.opType, children with
    | .filter, [c] => (s.predicate.asked.map fun p => p :: mergedTop c).getD []
    | .filter, _ => s.predicate.asked.toList
    | .traverse, [c] => ((risen c).bind FilterParam.asked).toList
    | _, _ => []

/-- An index holds a node under some key. Kind: D -/
def GraphIndex.Holds (idx : GraphIndex F) (n : CPGNode F) : Prop :=
  (∃ key, idx.byId.get? key = some n) ∨ (∃ key, n ∈ idx.byFile.getD key []) ∨ (∃ key, n ∈ idx.byFunction.getD key []) ∨
    (∃ key, n ∈ idx.byLabel.getD key []) ∨ ∃ t, n ∈ idx.byType.getD t []

/-- A node of the graph or of the index that the executor is given. Kind: D -/
def Known (g : CPGGraph F) (index : Option (GraphIndex F)) (n : CPGNode F) : Prop :=
  n ∈ g.nodes.values ∨ ∃ idx, index = some idx ∧ idx.Holds n

section conditions

variable (g : CPGGraph F) (index : Option (GraphIndex F))

/-- The filter exchanged with a traversal answers at every node as at the nodes the traversal leads to. Kind: D -/
def MovesSafely : ExecutionPlanNode L → Prop
  | .node s [c] =>
    s.opType = .traverse → ∀ fp, risen c = some fp → ∀ n, Known g index n →
      AgreesAlong fp.answer fp.answer (QueryExecutor.neighbours L g s) n
  | _ => True

/-- So does every filter that is exchanged with a traversal on the evaluated path of a plan. Kind: D -/
def FiltersCommute (plan : ExecutionPlanNode L) : Prop :=
  plan.OnPath (fun s => s.opType.reads) (MovesSafely g index)

/-- A predicate asked before and after others gives the same answer or exception at every node. Kind: D -/
def AsksFreely (p : PredicateNode F) (others : List (PredicateNode F)) : Prop :=
  ∀ n, Known g index n →
    PredicateEngine.evaluateAll L n (others ++ [p]) = PredicateEngine.evaluateAll L n (p :: others)

/-- On the evaluated path, every predicate that is joined with those below it asks freely. `moved` says that the filter
of the root is exchanged with the traversal above it, which leaves nothing to join it with. Kind: D -/
def RunsAgreeFrom : Bool → ExecutionPlanNode L → Prop
  | _, .node _ [] => True
  | moved, .node s (c :: rest) =>
    (s.opType = .filter → moved = false → rest = [] → ∀ p, s.predicate.asked = some p →
        AsksFreely (L := L) g index p (mergedTop c)) ∧
      (s.opType.reads = true → RunsAgreeFrom (decide (s.opType = .traverse) && rest.isEmpty) c)

/-- Every predicate that is joined with those below it asks freely. Kind: D -/
def RunsAgree (plan : ExecutionPlanNode L) : Prop := RunsAgreeFrom g index false plan

end conditions

/-! ## Nodes an execution comes across -/

section known

variable {g : CPGGraph F} {idx : GraphIndex F}

theorem mem_values_of_get {k : String} {n : CPGNode F} (h : g.nodes.get? k = some n) : n ∈ g.nodes.values :=
  Dict.mem_values.mpr ⟨k, h⟩

theorem mem_values_of_follow {s : PlanStep L} {e : CPGEdge} {n : CPGNode F}
    (h : QueryExecutor.follow L g s e = some n) : n ∈ g.nodes.values := by
  unfold QueryExecutor.follow at h
  split at h
  · cases h
  · split at h
    · cases h
    · grind [mem_values_of_get]

theorem mem_values_of_neighbours {s : PlanStep L} {src n : CPGNode F} (h : n ∈ QueryExecutor.neighbours L g s src) :
    n ∈ g.nodes.values := by
  obtain ⟨e, _, he⟩ := List.mem_filterMap.mp h
  exact mem_values_of_follow he

theorem known_indexLookup {field val : String} {n : CPGNode F}
    (h : n ∈ QueryExecutor.indexLookup L g idx field val) : Known g (some idx) n := by
  unfold QueryExecutor.indexLookup at h
  split at h
  · exact Or.inr ⟨idx, rfl, Or.inl ⟨val, Option.mem_toList.mp h⟩⟩
  · exact Or.inr ⟨idx, rfl, Or.inr (Or.inl ⟨val, h⟩)⟩
  · exact Or.inr ⟨idx, rfl, Or.inr (Or.inr (Or.inl ⟨val, h⟩))⟩
  · exact Or.inr ⟨idx, rfl, Or.inr (Or.inr (Or.inr (Or.inl ⟨val, h⟩)))⟩
  · exact Or.inl (List.mem_of_mem_filter h)

theorem known_scan {label : String} {r : List (CPGNode F)} {n : CPGNode F}
    (hr : QueryExecutor.scan L g idx label = some r) (h : n ∈ r) : Known g (some idx) n := by
  unfold QueryExecutor.scan at hr
  split at hr
  · cases hr
    exact Or.inl h
  · split at hr
    · rename_i t _
      cases hr
      exact Or.inr ⟨idx, rfl, Or.inr (Or.inr (Or.inr (Or.inr ⟨t, h⟩)))⟩
    · split at hr
      · cases hr
      · cases hr
        exact Or.inl (List.mem_of_mem_filter h)

theorem known_operate {s : PlanStep L} {input r : List (CPGNode F)} (hin : ∀ n ∈ input, Known g (some idx) n)
    (h : QueryExecutor.operate L g s input = some r) : ∀ n ∈ r, Known g (some idx) n := by
  intro n hn
  cases hs : s.opType with
  | filter =>
    rw [operate_filter hs] at h
    exact hin n (subset_of_keep h hn)
  | traverse =>
    rw [operate_traverse hs] at h
    cases h
    obtain ⟨src, _, hsrc⟩ := List.mem_flatMap.mp hn
    exact Or.inl (mem_values_of_neighbours hsrc)
  | limit =>
    rw [operate_limit hs] at h
    cases h
    unfold QueryExecutor.limitNodes at hn
    split at hn
    · exact hin n (List.mem_of_mem_take hn)
    · exact hin n hn
  | scan =>
    simp only [QueryExecutor.operate, hs] at h
    cases h
    exact hin n hn
  | indexLookup =>
    simp only [QueryExecutor.operate, hs] at h
    cases h
    exact hin n hn
  | projection =>
    simp only [QueryExecutor.operate, hs] at h
    cases h
    exact hin n hn

theorem known_stepNodes {s : PlanStep L} {child : Option (Option (List (CPGNode F)))}
    (hchild : ∀ input, child = some (some input) → ∀ n ∈ input, Known g (some idx) n) {r : List (CPGNode F)}
    (h : QueryExecutor.stepNodes L g idx s child = some r) : ∀ n ∈ r, Known g (some idx) n := by
  intro n hn
  by_cases hs : s.opType.reads = true
  · cases child with
    | none =>
      rw [stepNodes_none_of_reads hs] at h
      cases h
      cases hn
    | some input =>
      rw [stepNodes_eq_of_reads hs] at h
      obtain ⟨x, rfl, hx⟩ := Option.bind_eq_some_iff.mp h
      exact known_operate (hchild x rfl) hx n hn
  · unfold QueryExecutor.stepNodes at h
    cases hop : s.opType with
    | scan =>
      simp only [hop] at h
      exact known_scan h hn
    | indexLookup =>
      simp only [hop] at h
      cases h
      exact known_indexLookup hn
    | filter => exact absurd (congrArg OpType.reads hop) hs
    | traverse => exact absurd (congrArg OpType.reads hop) hs
    | limit => exact absurd (congrArg OpType.reads hop) hs
    | projection => exact absurd (congrArg OpType.reads hop) hs

/-- A plan gives nodes of the graph and of the index. Kind: P -/
theorem known_evaluatePlanNode (plan : ExecutionPlanNode L) {r : List (CPGNode F)}
    (h : QueryExecutor.evaluatePlanNode L g idx plan = some r) : ∀ n ∈ r, Known g (some idx) n := by
  have hall := RoseTree.run_induction (f := QueryExecutor.stepNodes L g idx)
    (M := fun result => ∀ r, result = some r → ∀ n ∈ r, Known g (some idx) n)
    (fun s r hr => known_stepNodes (fun _ hin => by cases hin) hr)
    (fun s result hresult r hr => known_stepNodes (fun input hin => hresult input (Option.some.inj hin)) hr) plan
  exact hall r h

end known

/-! ## The passes keep the meaning -/

section passes

open QueryOptimizer

variable {g : CPGGraph F} {idx : GraphIndex F}

/-- Exchanging a traversal with a filter that commutes with it. Kind: P -/
theorem evaluate_exchange {s fs : PlanStep L} (hs : s.opType = .traverse) (hfs : fs.opType = .filter) (cost : ℚ)
    (d : ExecutionPlanNode L) (ds : List (ExecutionPlanNode L))
    (h : ∀ n, Known g (some idx) n →
      AgreesAlong fs.predicate.answer fs.predicate.answer (QueryExecutor.neighbours L g s) n) :
    QueryExecutor.evaluatePlanNode L g idx (.node { fs with cost := cost } [.node s [d]]) =
      QueryExecutor.evaluatePlanNode L g idx (.node s [.node fs (d :: ds)]) := by
  have hreads : s.opType.reads = true := congrArg OpType.reads hs
  have hfreads : fs.opType.reads = true := congrArg OpType.reads hfs
  rw [evaluate_node (s := { fs with cost := cost }) hfreads, evaluate_node hreads, evaluate_node hreads,
    evaluate_node hfreads]
  cases hd : QueryExecutor.evaluatePlanNode L g idx d with
  | none => rfl
  | some x =>
    have hx := known_evaluatePlanNode d hd
    have hcomm := keep_flatMap (l := x) fun n hn => h n (hx n hn)
    show ((QueryExecutor.operate L g s x).bind (QueryExecutor.operate L g { fs with cost := cost })) =
      (QueryExecutor.operate L g fs x).bind (QueryExecutor.operate L g s)
    rw [operate_traverse hs, operate_filter hfs, Option.bind_some,
      operate_filter (s := { fs with cost := cost }) hfs, hcomm]
    cases keep fs.predicate.answer x with
    | none => rfl
    | some r => exact (operate_traverse hs r).symm

/-- A FILTER over something is on top. Kind: D -/
def topFilter : ExecutionPlanNode L → Option (FilterParam L)
  | .node s (_ :: _) => if s.opType = .filter then some s.predicate else none
  | _ => none

theorem topFilter_eq_some {plan : ExecutionPlanNode L} {fp : FilterParam L} (h : topFilter plan = some fp) :
    ∃ fs d ds, plan = .node fs (d :: ds) ∧ fs.opType = .filter ∧ fs.predicate = fp := by
  obtain ⟨fs, cs⟩ := plan
  cases cs with
  | nil => cases h
  | cons d ds =>
    rw [topFilter] at h
    split at h
    · simp_all
    · cases h

/-- The first pass at a TRAVERSE with one child, over a filter. Kind: L -/
theorem pushdown_exchanged {s fs : PlanStep L} {c d : ExecutionPlanNode L} {ds : List (ExecutionPlanNode L)}
    (hs : s.opType = .traverse) (hfs : fs.opType = .filter) (hc : pushdownFilters c = .node fs (d :: ds)) :
    pushdownFilters (.node s [c]) = .node { fs with cost := fs.cost * (4 / 5) } [.node s [d]] := by
  have hrule : pushdownFilters (.node s [c]) = pushdownRule (.node s [pushdownFilters c]) := RoseTree.bottomUp_eq _
  rw [hrule, hc, pushdownRule, if_pos ⟨hs, hfs⟩]

/-- The first pass at any other node: its children are rewritten. Kind: L -/
theorem pushdown_kept {s : PlanStep L} {cs : List (ExecutionPlanNode L)}
    (h : ∀ c, cs = [c] → s.opType = .traverse → topFilter (pushdownFilters c) = none) :
    pushdownFilters (.node s cs) = .node s (RoseTree.bottomUpAll pushdownRule cs) := by
  have hrule : pushdownFilters (.node s cs) = pushdownRule (.node s (RoseTree.bottomUpAll pushdownRule cs)) :=
    RoseTree.bottomUp_eq _
  rw [hrule]
  cases cs with
  | nil => rfl
  | cons c rest =>
    cases rest with
    | cons c' rest =>
      show pushdownRule (.node s (pushdownFilters c :: pushdownFilters c' :: _)) = .node s (pushdownFilters c :: _)
      rcases pushdownFilters c with ⟨fs, ds⟩
      cases ds <;> rfl
    | nil =>
      show pushdownRule (.node s [pushdownFilters c]) = .node s [pushdownFilters c]
      rcases hc : pushdownFilters c with ⟨fs, ds⟩
      cases ds with
      | nil => rfl
      | cons d ds =>
        rw [pushdownRule, if_neg]
        rintro ⟨hs, hfs⟩
        have hnone := h c rfl hs
        rw [hc, topFilter, if_pos hfs] at hnone
        cases hnone

theorem risen_traverse {s : PlanStep L} (hs : s.opType = .traverse) (c : ExecutionPlanNode L) :
    risen (.node s [c]) = risen c := by
  simp only [risen, hs]

/-- What is on top after the first pass. Kind: L -/
theorem topFilter_pushdown : (plan : ExecutionPlanNode L) → topFilter (pushdownFilters plan) = risen plan
  | .node s [] => by
    rw [pushdown_kept (fun c hc => by cases hc)]
    cases hop : s.opType <;> simp [risen, topFilter, RoseTree.bottomUpAll, hop]
  | .node s [c] => by
    have ih := topFilter_pushdown c
    by_cases hs : s.opType = .traverse
    · cases htop : topFilter (pushdownFilters c) with
      | none =>
        rw [pushdown_kept fun c' hc' _ => by cases hc'; exact htop]
        rw [risen_traverse hs, ← ih, htop]
        simp [topFilter, RoseTree.bottomUpAll, hs]
      | some fp =>
        obtain ⟨fs, d, ds, hc, hfs, rfl⟩ := topFilter_eq_some htop
        rw [pushdown_exchanged hs hfs hc]
        rw [risen_traverse hs, ← ih, htop]
        simp [topFilter, hfs]
    · rw [pushdown_kept fun c' _ htraverse => absurd htraverse hs]
      cases hop : s.opType with
      | traverse => exact absurd hop hs
      | _ => simp [risen, topFilter, RoseTree.bottomUpAll, hop]
  | .node s (c :: c' :: rest) => by
    rw [pushdown_kept (fun c hc => by cases hc)]
    cases hop : s.opType <;> simp [risen, topFilter, RoseTree.bottomUpAll, hop]

/-- The first pass keeps what a plan gives, if its filters commute with the traversals. Kind: P -/
theorem evaluate_pushdown {plan : ExecutionPlanNode L} (h : FiltersCommute g (some idx) plan) :
    QueryExecutor.evaluatePlanNode L g idx (pushdownFilters plan) = QueryExecutor.evaluatePlanNode L g idx plan := by
  apply RoseTree.run_bottomUp (fun s hs x y => stepNodes_eq_of_not_reads hs x y)
  refine h.imp ?_
  rintro ⟨s, cs⟩ hmoves
  show QueryExecutor.evaluatePlanNode L g idx (pushdownRule (.node s (RoseTree.bottomUpAll pushdownRule cs))) =
    QueryExecutor.evaluatePlanNode L g idx (.node s (RoseTree.bottomUpAll pushdownRule cs))
  rw [show pushdownRule (.node s (RoseTree.bottomUpAll pushdownRule cs)) = pushdownFilters (.node s cs) from
    (RoseTree.bottomUp_eq (.node s cs)).symm]
  by_cases hex : ∃ c fp, cs = [c] ∧ s.opType = .traverse ∧ topFilter (pushdownFilters c) = some fp
  · obtain ⟨c, fp, rfl, hs, htop⟩ := hex
    have hagrees := hmoves hs fp ((topFilter_pushdown c).symm.trans htop)
    obtain ⟨fs, d, ds, hc, hfs, rfl⟩ := topFilter_eq_some htop
    rw [pushdown_exchanged hs hfs hc, show RoseTree.bottomUpAll pushdownRule [c] = [pushdownFilters c] from rfl, hc]
    exact evaluate_exchange hs hfs _ d ds hagrees
  · rw [pushdown_kept]
    intro c hc hs
    cases htop : topFilter (pushdownFilters c) with
    | none => rfl
    | some fp => exact absurd ⟨c, fp, hc, hs, htop⟩ hex

/-- The predicates joined by the second pass in the filter on top of a plan, the outermost first. Kind: D -/
def joined : ExecutionPlanNode L → List (PredicateNode F)
  | .node s children =>
    match s.opType, children with
    | .filter, [c] => (s.predicate.asked.map fun p => p :: joined c).getD []
    | .filter, _ => s.predicate.asked.toList
    | _, _ => []

/-- The predicate of a FILTER on top. Kind: D -/
def topAsked : ExecutionPlanNode L → Option (PredicateNode F)
  | .node s _ => if s.opType = .filter then s.predicate.asked else none

/-- A predicate that is joined with those below it asks freely. Kind: D -/
def JoinsSafely (g : CPGGraph F) (index : Option (GraphIndex F)) : ExecutionPlanNode L → Prop
  | .node s [c] => s.opType = .filter → ∀ p, s.predicate.asked = some p → AsksFreely (L := L) g index p (joined c)
  | _ => True

/-- The second pass at a FILTER over a FILTER that both ask. Kind: L -/
theorem merge_joined {s fs : PlanStep L} {c : ExecutionPlanNode L} {cs : List (ExecutionPlanNode L)}
    {p q : PredicateNode F} (hs : s.opType = .filter) (hp : s.predicate.asked = some p)
    (hc : mergePredicates c = .node fs cs) (hfs : fs.opType = .filter) (hq : fs.predicate.asked = some q) :
    mergePredicates (.node s [c]) =
      .node { opType := .filter, cost := s.cost * (9 / 10), predicate := .written L (conjunction p q) } cs := by
  have hrule : mergePredicates (.node s [c]) = mergeRule (.node s [mergePredicates c]) := RoseTree.bottomUp_eq (.node s [c])
  rw [hrule, hc, mergeRule, if_pos ⟨hs, hfs⟩, hp, hq]

/-- The second pass at any other node: its children are rewritten. Kind: L -/
theorem merge_kept {s : PlanStep L} {cs : List (ExecutionPlanNode L)}
    (h : ∀ c, cs = [c] → s.opType = .filter → s.predicate.asked = none ∨ topAsked (mergePredicates c) = none) :
    mergePredicates (.node s cs) = .node s (RoseTree.bottomUpAll mergeRule cs) := by
  have hrule : mergePredicates (.node s cs) = mergeRule (.node s (RoseTree.bottomUpAll mergeRule cs)) :=
    RoseTree.bottomUp_eq (.node s cs)
  rw [hrule]
  cases cs with
  | nil => rfl
  | cons c rest =>
    cases rest with
    | cons c' rest =>
      show mergeRule (.node s (mergePredicates c :: mergePredicates c' :: _)) = .node s (mergePredicates c :: _)
      rcases mergePredicates c with ⟨fs, ds⟩
      rfl
    | nil =>
      show mergeRule (.node s [mergePredicates c]) = .node s [mergePredicates c]
      rcases hc : mergePredicates c with ⟨fs, ds⟩
      rw [mergeRule]
      split
      · rename_i hboth
        rcases h c rfl hboth.1 with hnone | hnone
        · rw [hnone]
        · simp_all [topAsked]
      · rfl

theorem topAsked_eq_some {plan : ExecutionPlanNode L} {q : PredicateNode F} (h : topAsked plan = some q) :
    ∃ fs cs, plan = .node fs cs ∧ fs.opType = .filter ∧ fs.predicate.asked = some q := by
  obtain ⟨fs, cs⟩ := plan
  rw [topAsked] at h
  split at h
  · rename_i hfs
    exact ⟨fs, cs, rfl, hfs, h⟩
  · cases h

/-- What the filter on top of a plan asks after the second pass. Kind: P -/
theorem topAsked_merge : (c : ExecutionPlanNode L) →
    (joined c = [] ∧ topAsked (mergePredicates c) = none) ∨
      ∃ r, topAsked (mergePredicates c) = some r ∧
        ∀ n, PredicateEngine.evaluate L n r = PredicateEngine.evaluateAll L n (joined c)
  | .node s cs => by
    by_cases hs : s.opType = .filter
    · cases hp : s.predicate.asked with
      | none =>
        left
        rw [merge_kept fun c _ _ => Or.inl hp, topAsked, if_pos hs]
        refine ⟨?_, hp⟩
        unfold joined
        rw [hs, hp]
        split <;> simp_all
      | some p =>
        right
        -- the filter stays alone, unless its only child asks too
        have halone : ∀ cs', mergePredicates (.node s cs) = .node s cs' → joined (.node s cs) = [p] →
            ∃ r, topAsked (mergePredicates (.node s cs)) = some r ∧
              ∀ n, PredicateEngine.evaluate L n r = PredicateEngine.evaluateAll L n (joined (.node s cs)) := by
          intro cs' hkept hjoined
          rw [hkept, hjoined]
          refine ⟨p, ?_, fun n => (PredicateEngine.evaluateAll_singleton L n p).symm⟩
          rw [topAsked, if_pos hs, hp]
        match cs, halone with
        | [], halone => exact halone _ (merge_kept fun c hc => by cases hc) (by simp [joined, hs, hp])
        | c :: c' :: rest, halone =>
          exact halone _ (merge_kept fun c hc => by cases hc) (by simp [joined, hs, hp])
        | [c], halone =>
          rcases topAsked_merge c with ⟨hnil, hnone⟩ | ⟨q, hq, hevaluate⟩
          · refine halone _ (merge_kept fun c' hc' _ => ?_) (by simp [joined, hs, hp, hnil])
            cases hc'
            exact Or.inr hnone
          · obtain ⟨fs, cs', hc, hfs, hasked⟩ := topAsked_eq_some hq
            rw [merge_joined hs hp hc hfs hasked]
            refine ⟨conjunction p q, ?_, fun n => ?_⟩
            · rw [topAsked, if_pos rfl, FilterParam.asked_written]
            · have hjoined : joined (.node s [c]) = p :: joined c := by simp [joined, hs, hp]
              rw [hjoined, conjunction, PredicateEngine.evaluate_and, PredicateEngine.evaluateAll_cons,
                PredicateEngine.evaluateAll_cons, andThen, andThen, PredicateEngine.evaluateAll_singleton,
                hevaluate]
    · left
      rw [merge_kept fun c _ hfilter => absurd hfilter hs, topAsked, if_neg hs]
      refine ⟨?_, rfl⟩
      unfold joined
      split <;> simp_all

/-- Joining a filter with the filter below it, if the order of the two does not matter. Kind: P -/
theorem evaluate_joined {s fs : PlanStep L} {p q : PredicateNode F} (hs : s.opType = .filter)
    (hp : s.predicate.asked = some p) (hfs : fs.opType = .filter) (hq : fs.predicate.asked = some q) (cost : ℚ)
    (cs : List (ExecutionPlanNode L))
    (h : ∀ n, Known g (some idx) n →
      andThen (fun n => PredicateEngine.evaluate L n q) (fun n => PredicateEngine.evaluate L n p) n =
        andThen (fun n => PredicateEngine.evaluate L n p) (fun n => PredicateEngine.evaluate L n q) n) :
    QueryExecutor.evaluatePlanNode L g idx
        (.node { opType := .filter, cost := cost, predicate := .written L (conjunction p q) } cs) =
      QueryExecutor.evaluatePlanNode L g idx (.node s [.node fs cs]) := by
  have hreads : s.opType.reads = true := congrArg OpType.reads hs
  have hfreads : fs.opType.reads = true := congrArg OpType.reads hfs
  rw [evaluate_node hreads]
  cases cs with
  | nil =>
    show some [] = (QueryExecutor.stepNodes L g idx fs none).bind (QueryExecutor.operate L g s)
    rw [stepNodes_none_of_reads hfreads, Option.bind_some, operate_filter hs]
    rfl
  | cons d ds =>
    rw [evaluate_node hfreads, evaluate_node rfl]
    cases hd : QueryExecutor.evaluatePlanNode L g idx d with
    | none => rfl
    | some x =>
      have hx := known_evaluatePlanNode d hd
      have hanswer : ∀ n, fs.predicate.answer n = PredicateEngine.evaluate L n q := fun n => by
        rw [FilterParam.answer, hq]
      have hanswer' : ∀ n, s.predicate.answer n = PredicateEngine.evaluate L n p := fun n => by
        rw [FilterParam.answer, hp]
      rw [Option.bind_some, Option.bind_some, operate_filter rfl, operate_filter hfs]
      rw [show (keep fs.predicate.answer x).bind (QueryExecutor.operate L g s) =
        (keep fs.predicate.answer x).bind (keep s.predicate.answer) from
          congrArg _ (funext fun r => operate_filter hs r), keep_keep]
      apply keep_congr
      intro n hn
      have hswap := h n (hx n hn)
      rw [FilterParam.answer, FilterParam.asked_written]
      show PredicateEngine.evaluate L n (conjunction p q) = andThen fs.predicate.answer s.predicate.answer n
      rw [conjunction, PredicateEngine.evaluate_and, PredicateEngine.evaluateAll_cons]
      simp only [andThen, hanswer, hanswer', PredicateEngine.evaluateAll_singleton] at hswap ⊢
      exact hswap.symm

/-- The second pass keeps what a plan gives, if the joined predicates ask freely. Kind: P -/
theorem evaluate_merge {plan : ExecutionPlanNode L}
    (h : plan.OnPath (fun s => s.opType.reads) (JoinsSafely g (some idx))) :
    QueryExecutor.evaluatePlanNode L g idx (mergePredicates plan) = QueryExecutor.evaluatePlanNode L g idx plan := by
  apply RoseTree.run_bottomUp (fun s hs x y => stepNodes_eq_of_not_reads hs x y)
  refine h.imp ?_
  rintro ⟨s, cs⟩ hjoins
  show QueryExecutor.evaluatePlanNode L g idx (mergeRule (.node s (RoseTree.bottomUpAll mergeRule cs))) =
    QueryExecutor.evaluatePlanNode L g idx (.node s (RoseTree.bottomUpAll mergeRule cs))
  rw [show mergeRule (.node s (RoseTree.bottomUpAll mergeRule cs)) = mergePredicates (.node s cs) from
    (RoseTree.bottomUp_eq (.node s cs)).symm]
  by_cases hex : ∃ c p q, cs = [c] ∧ s.opType = .filter ∧ s.predicate.asked = some p ∧
      topAsked (mergePredicates c) = some q
  · obtain ⟨c, p, q, rfl, hs, hp, htop⟩ := hex
    have hfree := hjoins hs p hp
    rcases topAsked_merge c with ⟨_, hnone⟩ | ⟨r, hr, hevaluate⟩
    · rw [hnone] at htop
      cases htop
    · rw [hr] at htop
      cases htop
      obtain ⟨fs, ds, hc, hfs, hq⟩ := topAsked_eq_some hr
      rw [merge_joined hs hp hc hfs hq, show RoseTree.bottomUpAll mergeRule [c] = [mergePredicates c] from rfl, hc]
      apply evaluate_joined hs hp hfs hq
      intro n hn
      have hswap := hfree n hn
      rw [PredicateEngine.evaluateAll_append, PredicateEngine.evaluateAll_cons] at hswap
      simpa only [andThen, hevaluate, PredicateEngine.evaluateAll_singleton] using hswap
  · rw [merge_kept]
    intro c hc hs
    by_contra hboth
    rw [not_or] at hboth
    obtain ⟨p, hp⟩ := Option.ne_none_iff_exists'.mp hboth.1
    obtain ⟨q, hq⟩ := Option.ne_none_iff_exists'.mp hboth.2
    exact hex ⟨c, p, q, hc, hs, hp, hq⟩

/-- The predicates on top of a plan after the first pass. Kind: L -/
theorem joined_pushdown : (plan : ExecutionPlanNode L) → joined (pushdownFilters plan) = mergedTop plan
  | .node s [] => by
    rw [pushdown_kept (fun c hc => by cases hc)]
    cases hop : s.opType <;> simp [joined, mergedTop, RoseTree.bottomUpAll, hop]
  | .node s [c] => by
    have ih := joined_pushdown c
    by_cases hs : s.opType = .traverse
    · have hmerged : mergedTop (.node s [c]) = ((risen c).bind FilterParam.asked).toList := by
        simp only [mergedTop, hs]
      rw [hmerged, ← topFilter_pushdown]
      cases htop : topFilter (pushdownFilters c) with
      | none =>
        rw [pushdown_kept fun c' hc' _ => by cases hc'; exact htop]
        simp [joined, hs]
      | some fp =>
        obtain ⟨fs, d, ds, hc, hfs, rfl⟩ := topFilter_eq_some htop
        rw [pushdown_exchanged hs hfs hc]
        cases hasked : fs.predicate.asked <;> simp [joined, hfs, hs, hasked]
    · rw [pushdown_kept fun c' _ htraverse => absurd htraverse hs]
      show joined (.node s [pushdownFilters c]) = mergedTop (.node s [c])
      cases hop : s.opType with
      | traverse => exact absurd hop hs
      | _ => simp [joined, mergedTop, hop, ih]
  | .node s (c :: c' :: rest) => by
    rw [pushdown_kept (fun c hc => by cases hc)]
    cases hop : s.opType <;> simp [joined, mergedTop, RoseTree.bottomUpAll, hop]

theorem joinsSafely_of_not_filter {s : PlanStep L} (hs : s.opType ≠ .filter) (cs : List (ExecutionPlanNode L))
    {index : Option (GraphIndex F)} : JoinsSafely g index (.node s cs) := by
  unfold JoinsSafely
  split
  · simp_all
  · trivial

/-- The nodes of a plan after the first pass that join predicates. `moved` is as in `RunsAgreeFrom`: then the filter on
top of the plan, if it has one, goes on to the top of the traversal above it, and what is below it stays. Kind: P -/
theorem onPath_pushdown {index : Option (GraphIndex F)} : (plan : ExecutionPlanNode L) → (moved : Bool) →
    RunsAgreeFrom g index moved plan →
      (moved = false ∨ topFilter (pushdownFilters plan) = none →
        (pushdownFilters plan).OnPath (fun s => s.opType.reads) (JoinsSafely g index)) ∧
      ∀ fs d ds, pushdownFilters plan = .node fs (d :: ds) → fs.opType = .filter →
        d.OnPath (fun s => s.opType.reads) (JoinsSafely g index)
  | .node s [], moved, _ => by
    rw [pushdown_kept (fun c hc => by cases hc)]
    refine ⟨fun _ => trivial, ?_⟩
    intro fs d ds heq
    cases heq
  | .node s (c :: rest), moved, hagree => by
    have ih := fun hreads => onPath_pushdown c _ (hagree.2 hreads)
    by_cases hex : s.opType = .traverse ∧ rest = []
    · obtain ⟨hs, rfl⟩ := hex
      have ihc := ih (congrArg OpType.reads hs)
      cases htop : topFilter (pushdownFilters c) with
      | none =>
        rw [pushdown_kept fun c' hc' _ => by cases hc'; exact htop]
        refine ⟨fun _ => ⟨joinsSafely_of_not_filter (by rw [hs]; decide) _, fun _ => ihc.1 (Or.inr htop)⟩, ?_⟩
        intro fs d ds heq hfs
        cases heq
        exact absurd (hs.symm.trans hfs) (by decide)
      | some fp =>
        obtain ⟨fs, d, ds, hc, hfs, rfl⟩ := topFilter_eq_some htop
        have hd := ihc.2 fs d ds hc hfs
        have htraverse : (RoseTree.node s [d]).OnPath (fun s => s.opType.reads) (JoinsSafely g index) :=
          ⟨joinsSafely_of_not_filter (by rw [hs]; decide) _, fun _ => hd⟩
        rw [pushdown_exchanged hs hfs hc]
        constructor
        · intro _
          refine ⟨?_, fun _ => htraverse⟩
          intro _ p hp n _
          simp [joined, hs]
        · intro fs' d' ds' heq _
          cases heq
          exact htraverse
    · have hflag : (decide (s.opType = .traverse) && rest.isEmpty) = false := by
        cases rest with
        | nil => simpa using fun h => hex ⟨h, rfl⟩
        | cons c' rest => simp
      rw [hflag] at ih
      have hkept : pushdownFilters (.node s (c :: rest)) =
          .node s (pushdownFilters c :: RoseTree.bottomUpAll pushdownRule rest) := by
        refine pushdown_kept fun c' hc' hs => absurd ⟨hs, ?_⟩ hex
        exact (List.cons.inj hc').2
      rw [hkept]
      have hbelow : s.opType.reads = true →
          (pushdownFilters c).OnPath (fun s => s.opType.reads) (JoinsSafely g index) :=
        fun hreads => (ih hreads).1 (Or.inl rfl)
      constructor
      · intro hmoved
        refine ⟨?_, hbelow⟩
        by_cases hs : s.opType = .filter
        · cases rest with
          | cons c' rest => trivial
          | nil =>
            intro _ p hp
            rw [joined_pushdown]
            refine hagree.1 hs ?_ rfl p hp
            rcases hmoved with hmoved | hnone
            · exact hmoved
            · rw [topFilter, if_pos hs] at hnone
              cases hnone
        · exact joinsSafely_of_not_filter hs _
      · intro fs d ds heq hfs
        cases heq
        exact hbelow (congrArg OpType.reads hfs)

/-- Two limits one after the other are the joined limit. Kind: L -/
theorem limitNodes_limitNodes (l1 l2 : ℤ) (x : List (CPGNode F)) :
    QueryExecutor.limitNodes l1 (QueryExecutor.limitNodes l2 x) = QueryExecutor.limitNodes (joinedLimit l1 l2) x := by
  unfold QueryExecutor.limitNodes
  by_cases h1 : 0 < l1
  · by_cases h2 : 0 < l2
    · have hjoined : joinedLimit l1 l2 = min l1 l2 := if_pos ⟨h1, h2⟩
      have hmin : (min l1 l2).toNat = min l1.toNat l2.toNat := by omega
      rw [if_pos h1, if_pos h2, hjoined, if_pos (lt_min h1 h2), List.take_take, hmin]
    · have hjoined : joinedLimit l1 l2 = max l1 l2 := if_neg fun h => h2 h.2
      have hmax : max l1 l2 = l1 := max_eq_left (by omega)
      rw [if_pos h1, if_neg h2, hjoined, hmax, if_pos h1]
  · have hjoined : joinedLimit l1 l2 = max l1 l2 := if_neg fun h => h1 h.1
    by_cases h2 : 0 < l2
    · grind
    · grind

/-- The third pass keeps what a plan gives. Kind: P -/
theorem evaluate_limits (plan : ExecutionPlanNode L) :
    QueryExecutor.evaluatePlanNode L g idx (eliminateDeadSteps plan) = QueryExecutor.evaluatePlanNode L g idx plan := by
  apply RoseTree.run_bottomUp (fun s hs x y => stepNodes_eq_of_not_reads hs x y)
  have hrule : ∀ t : ExecutionPlanNode L,
      QueryExecutor.evaluatePlanNode L g idx (limitRule t) = QueryExecutor.evaluatePlanNode L g idx t := by
    intro t
    unfold limitRule
    split
    · rename_i s ls cs
      split
      · rename_i hboth
        have hreads : s.opType.reads = true := congrArg OpType.reads hboth.1
        have hlreads : ls.opType.reads = true := congrArg OpType.reads hboth.2
        rw [evaluate_node hreads]
        cases cs with
        | nil =>
          show some [] = (QueryExecutor.stepNodes L g idx ls none).bind (QueryExecutor.operate L g s)
          rw [stepNodes_none_of_reads hlreads, Option.bind_some, operate_limit hboth.1]
          unfold QueryExecutor.limitNodes
          split <;> simp
        | cons d ds =>
          rw [evaluate_node hlreads, evaluate_node rfl]
          cases QueryExecutor.evaluatePlanNode L g idx d with
          | none => rfl
          | some x =>
            rw [Option.bind_some, Option.bind_some, operate_limit rfl, operate_limit hboth.2, Option.bind_some,
              operate_limit hboth.1, limitNodes_limitNodes]
      · rfl
    · rfl
  exact RoseTree.onPath_of_forall (fun t => hrule _) plan

/-- The three passes on an execution with a given index. Kind: P -/
theorem evaluate_optimize {plan : ExecutionPlanNode L} (hcommute : FiltersCommute g (some idx) plan)
    (hagree : RunsAgree g (some idx) plan) :
    QueryExecutor.evaluatePlanNode L g idx (optimize plan) = QueryExecutor.evaluatePlanNode L g idx plan := by
  have hpath := (onPath_pushdown plan false hagree).1 (Or.inl rfl)
  rw [optimize, evaluate_limits, evaluate_merge hpath, evaluate_pushdown hcommute]

end passes

/-! ## The index of the graph itself -/

section indexes

variable {g : CPGGraph F} {i j : Option (GraphIndex F)}

/-- The index of a graph holds nodes of the graph. Kind: L -/
theorem mem_values_of_holds {n : CPGNode F} (h : (GraphIndex.ofNodes L g.nodes.values).Holds n) :
    n ∈ g.nodes.values := by
  rcases h with ⟨key, h⟩ | ⟨key, h⟩ | ⟨key, h⟩ | ⟨key, h⟩ | ⟨t, h⟩
  · rw [GraphIndex.byId_ofNodes] at h
    exact mem_values_of_get h
  · rw [GraphIndex.byFile_build] at h
    exact (mem_copies.mp h).1
  · rw [GraphIndex.byFunction_build] at h
    exact (mem_copies.mp h).1
  · rw [GraphIndex.byLabel_build] at h
    exact (mem_copies.mp h).1
  · rw [GraphIndex.byType_build] at h
    exact List.mem_of_mem_filter h

theorem known_of_built {idx : GraphIndex F} (hbuilt : GraphIndex.buildIndex L g = some idx) {n : CPGNode F}
    (h : Known g (some idx) n) : Known g none n := by
  rw [GraphIndex.buildIndex_eq] at hbuilt
  split at hbuilt
  · cases hbuilt
    rcases h with h | ⟨idx, hidx, h⟩
    · exact Or.inl h
    · cases hidx
      exact Or.inl (mem_values_of_holds h)
  · cases hbuilt

theorem FiltersCommute.mono (hknown : ∀ n, Known g i n → Known g j n) {plan : ExecutionPlanNode L}
    (h : FiltersCommute g j plan) : FiltersCommute g i plan := by
  refine RoseTree.OnPath.imp ?_ h
  intro t ht
  unfold MovesSafely at ht ⊢
  split at ht
  · intro hs fp hfp n hn
    exact ht hs fp hfp n (hknown n hn)
  · trivial

theorem RunsAgreeFrom.mono (hknown : ∀ n, Known g i n → Known g j n) : {moved : Bool} → {plan : ExecutionPlanNode L} →
    RunsAgreeFrom g j moved plan → RunsAgreeFrom g i moved plan
  | _, .node _ [], _ => trivial
  | _, .node _ (_ :: _), h =>
    ⟨fun hs hmoved hrest p hp n hn => h.1 hs hmoved hrest p hp n (hknown n hn),
      fun hreads => (h.2 hreads).mono hknown⟩

end indexes

/-- An optimized plan gives the nodes of the plan, if the filters that are exchanged with traversals commute with them
and the predicates that are joined ask freely. Kind: P -/
theorem optimize_preserves (g : CPGGraph F) (index : Option (GraphIndex F)) (plan : ExecutionPlanNode L)
    (hcommute : FiltersCommute g index plan) (hagree : RunsAgree g index plan) :
    QueryExecutor.execute L (QueryOptimizer.optimize plan) g index = QueryExecutor.execute L plan g index := by
  cases index with
  | some idx => exact evaluate_optimize hcommute hagree
  | none =>
    show (GraphIndex.buildIndex L g).bind _ = (GraphIndex.buildIndex L g).bind _
    cases hbuilt : GraphIndex.buildIndex L g with
    | none => rfl
    | some idx =>
      have hknown : ∀ n, Known g (some idx) n → Known g none n := fun n => known_of_built hbuilt
      exact evaluate_optimize (hcommute.mono hknown) (RunsAgreeFrom.mono hknown hagree)

/-! ## Two functions -/

/-- A function. Kind: D -/
def functionNode (id label : String) : CPGNode Empty := { id := id, nodeType := .function, label := label }

/-- A function that calls another one. Kind: D -/
def callGraph : CPGGraph Empty :=
  ((CPGGraph.empty.addNode (functionNode "1" "main")).addNode (functionNode "2" "helper")).addEdge ⟨"1", "2", .call⟩

/-- The nodes with a text in a field. Kind: D -/
def withField (field text : String) (child : ExecutionPlanNode plainLanguage) : ExecutionPlanNode plainLanguage :=
  .node { opType := .filter, predicate := .written _ (.mk "EQUALS" field (.str text) []) } [child]

/-- The callees of nodes. Kind: D -/
def callees (child : ExecutionPlanNode plainLanguage) : ExecutionPlanNode plainLanguage :=
  .node { opType := .traverse, edgeType := "CALL" } [child]

/-- All nodes. Kind: D -/
def everyNode : ExecutionPlanNode plainLanguage := .node { opType := .scan } []

theorem known_callGraph {n : CPGNode Empty} (h : Known callGraph none n) :
    n = functionNode "1" "main" ∨ n = functionNode "2" "helper" := by
  rcases h with h | ⟨_, hidx, _⟩
  · have hvalues : callGraph.nodes.values = [functionNode "1" "main", functionNode "2" "helper"] := rfl
    rw [hvalues] at h
    simpa using h
  · cases hidx

/-- All callees of functions that are called `helper` and lie in no file. Kind: D -/
def calledHelpers : ExecutionPlanNode plainLanguage :=
  withField "label" "helper" (withField "file_path" "" (callees (withField "node_type" "FUNCTION" everyNode)))

theorem asksFreely_of_answers {g : CPGGraph F} {index : Option (GraphIndex F)} {p : PredicateNode F}
    {others : List (PredicateNode F)}
    (h : ∀ q ∈ p :: others, ∀ n, Known g index n → (PredicateEngine.evaluate L n q).isSome = true) :
    AsksFreely (L := L) g index p others := by
  intro n hn
  refine PredicateEngine.evaluateAll_perm L (List.perm_append_singleton p others) ?_
  intro q hq
  exact h q (by simpa [or_comm] using hq) n hn

theorem asked_equals (field text : String) :
    (FilterParam.written plainLanguage (.mk "EQUALS" field (.str text) [])).asked =
      some (.mk "EQUALS" field (.str text) []) :=
  FilterParam.asked_written _

theorem optimize_preserves_calledHelpers :
    QueryExecutor.execute plainLanguage (QueryOptimizer.optimize calledHelpers) callGraph none =
      QueryExecutor.execute plainLanguage calledHelpers callGraph none := by
  refine optimize_preserves callGraph none calledHelpers ?_ ?_
  · have hcallees : MovesSafely callGraph none (callees (withField "node_type" "FUNCTION" everyNode)) := by
      intro _ fp hfp n hn
      cases hfp
      rcases known_callGraph hn with rfl | rfl
      · intro b hb
        cases List.mem_singleton.mp hb
        decide +kernel
      · intro b hb
        cases hb
    refine ⟨?_, fun _ => ⟨?_, fun _ => ⟨hcallees, fun _ => ⟨?_, fun _ => trivial⟩⟩⟩⟩ <;>
      exact fun h => absurd h (by decide)
  · have hequals : ∀ (field text : String) n,
        (PredicateEngine.evaluate plainLanguage n (.mk "EQUALS" field (.str text) [])).isSome = true := by
      intro field text n
      rw [PredicateEngine.evaluate_equals]
      rfl
    have hlabel := asked_equals "label" "helper"
    have hpath := asked_equals "file_path" ""
    have htype := asked_equals "node_type" "FUNCTION"
    have hinner : mergedTop (callees (withField "node_type" "FUNCTION" everyNode)) =
        [.mk "EQUALS" "node_type" (.str "FUNCTION") []] := by
      simp [mergedTop, risen, callees, withField, htype]
    have houter : mergedTop (withField "file_path" "" (callees (withField "node_type" "FUNCTION" everyNode))) =
        [.mk "EQUALS" "file_path" (.str "") [], .mk "EQUALS" "node_type" (.str "FUNCTION") []] := by
      rw [← hinner]
      simp [mergedTop, withField, hpath]
    refine ⟨fun _ _ _ p hp => ?_, fun _ => ⟨fun _ _ _ p hp => ?_, fun _ => ⟨?_, fun _ => ⟨?_, fun _ => trivial⟩⟩⟩⟩
    · simp_all [asksFreely_of_answers]
    · simp_all [asksFreely_of_answers]
    · exact fun h => absurd h (by decide)
    · exact fun _ h => absurd h (by decide)

/-- The callees of `main`. Kind: D -/
def calleesOfMain : ExecutionPlanNode plainLanguage := callees (withField "label" "main" everyNode)

theorem callees_lost :
    QueryExecutor.execute plainLanguage (QueryOptimizer.optimize calleesOfMain) callGraph none ≠
      QueryExecutor.execute plainLanguage calleesOfMain callGraph none := by
  intro h
  have hids := congrArg (Option.map (List.map CPGNode.id)) h
  exact absurd hids (by decide +kernel)

end KarsaSec.Query
