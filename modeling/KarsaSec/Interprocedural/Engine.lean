import KarsaSec.Found.Text
import KarsaSec.Taint.Model

/-!
# The engine across functions

`analysis/interprocedural/models.py`, `summary.py`, `cache.py` and `engine.py`: one summary for each function, kept in the
cache of the engine, then one pass over the labels of every function that has a source, in which each function named there is taken
for a callee.

* `trace_eq`: what one pass adds to the graph, as a list read off the cache, the labels and the graphs (`pathsTo`).
* `get_summarized`: the summaries that the pass reads, by function.
* `mem_vulnerablePaths`, `mem_safePaths`: the paths of a whole analysis.
-/

namespace KarsaSec.Interprocedural

open KarsaSec.Found
open KarsaSec.Taint (TaintCategory TaintNode TaintGraph DataFlowGraph)

/-- Source: `analysis/interprocedural/models.py`, `CallSite`. Kind: D -/
structure CallSite where
  callerId : String
  calleeName : String
  arguments : List String := []
  keywordArgs : Dict String String := .empty
  lineNumber : ℤ := 1

/-- Source: `analysis/interprocedural/models.py`, `CallContext`. Kind: D -/
structure CallContext where
  callStack : List String := []

/-- Source: `analysis/interprocedural/models.py`, `contains`. Kind: D -/
def CallContext.contains (self : CallContext) (fnName : String) : Bool := fnName ∈ self.callStack

/-- Source: `analysis/interprocedural/models.py`, `ReturnSummary`. Kind: D -/
structure ReturnSummary where
  isTainted : Bool := false
  sanitizedBy : String := ""
  passthroughParams : List ℕ := []

/-- The fields that are set. Source: `analysis/interprocedural/models.py`, `FunctionSummary`. Kind: D -/
structure FunctionSummary where
  functionName : String
  filePath : String := ""
  returnSummary : ReturnSummary := {}
  containsSource : Bool := false
  containsSink : Bool := false
  containsSanitizer : Bool := false
  hasRecursiveCalls : Bool := false

/-- Source: `analysis/interprocedural/models.py`, `InterproceduralTaintPath`. Kind: D -/
structure InterproceduralTaintPath where
  sourceFunc : String
  sinkFunc : String
  callChain : List CallSite := []
  sourceNode : Option TaintNode := none
  sinkNode : Option TaintNode := none
  category : TaintCategory := .generic
  isVulnerable : Bool := true

/-- Source: `analysis/interprocedural/models.py`, `InterproceduralTaintGraph`. Kind: D -/
structure InterproceduralTaintGraph where
  functionSummaries : Dict String FunctionSummary := .empty
  vulnerablePaths : List InterproceduralTaintPath := []
  safePaths : List InterproceduralTaintPath := []

/-- Source: `analysis/interprocedural/models.py`, `add_summary`. Kind: D -/
def InterproceduralTaintGraph.addSummary (self : InterproceduralTaintGraph) (summary : FunctionSummary) :
    InterproceduralTaintGraph :=
  { self with functionSummaries := self.functionSummaries.set summary.functionName summary }

/-! ## Summaries -/

/-- Source: `analysis/interprocedural/models.py`, `RecursionState`. Kind: D -/
inductive RecursionState
  | unvisited
  | visiting
  | visited
  deriving DecidableEq

/-- A node that holds a tainted value. Source: `analysis/interprocedural/summary.py`. Kind: D -/
def taints (node : TaintNode) : Bool := node.isSource || node.state = .tainted

/-- A node after which the value is clean. Source: `analysis/interprocedural/summary.py`. Kind: D -/
def sanitizes (node : TaintNode) : Bool := node.isSanitizer || node.state = .sanitized

/-- One node in the loop over the returned values. Source: `analysis/interprocedural/summary.py`. Kind: D -/
def summarizeReturn (r : ReturnSummary) (node : TaintNode) : ReturnSummary :=
  if inStr "return" (lower node.label) || inStr "return" (lower node.id) then
    if node.state = .tainted || node.isSource then { r with isTainted := true }
    else if node.state = .sanitized || node.isSanitizer then { r with sanitizedBy := node.label }
    else r
  else r

/-- Source: `analysis/interprocedural/summary.py`, `build_summary`. Kind: D -/
def buildSummary (taintGraph : TaintGraph) (_dfg : DataFlowGraph) : FunctionSummary where
  functionName := taintGraph.functionName
  filePath := taintGraph.filePath
  containsSource := taintGraph.nodes.values.any taints
  containsSink := taintGraph.nodes.values.any (·.isSink)
  containsSanitizer := taintGraph.nodes.values.any sanitizes
  returnSummary := taintGraph.nodes.values.foldl summarizeReturn {}

/-- Source: `analysis/interprocedural/cache.py`, `SummaryCache`. Kind: D -/
structure SummaryCache where
  cache : Dict String FunctionSummary := .empty
  states : Dict String RecursionState := .empty

namespace SummaryCache

/-- Source: `analysis/interprocedural/cache.py`, `put`. Kind: D -/
def put (self : SummaryCache) (summary : FunctionSummary) : SummaryCache where
  cache := self.cache.set summary.functionName summary
  states := self.states.set summary.functionName .visited

/-- Source: `analysis/interprocedural/cache.py`, `get`. Kind: D -/
def get (self : SummaryCache) (functionName : String) : Option FunctionSummary := self.cache.get? functionName

theorem get_put (self : SummaryCache) (summary : FunctionSummary) (g : String) :
    (self.put summary).get g = if g = summary.functionName then some summary else self.get g :=
  Dict.get?_set ..

end SummaryCache

/-! ## The engine -/

/-- Source: `analysis/interprocedural/engine.py`, `InterproceduralTaintEngine`. Kind: D -/
structure InterproceduralTaintEngine where
  cache : SummaryCache := {}

/-- What the loops change. Kind: D -/
structure Trace where
  cache : SummaryCache
  itg : InterproceduralTaintGraph := {}

/-- The summary of a function is one object, held by the cache and by the graph.
Source: `analysis/interprocedural/engine.py`. Kind: D -/
def Trace.markRecursive (s : Trace) (targetFn : String) : Trace :=
  match s.cache.get targetFn with
  | none => s
  | some summary =>
    let marked := { summary with hasRecursiveCalls := true }
    { cache := { s.cache with cache := s.cache.cache.set targetFn marked }
      itg := if s.itg.functionSummaries.contains targetFn then
          { s.itg with functionSummaries := s.itg.functionSummaries.set targetFn marked }
        else s.itg }

/-- The functions that the labels of `labels_to_check` are searched for. Source: `analysis/interprocedural/engine.py`. Kind: D -/
def namedIn (targetFn label : String) : Bool := inStr targetFn label || inStr (targetFn ++ "(") label

/-- One function looked for in one label. Source: `analysis/interprocedural/engine.py`, `_trace_function_calls`. Kind: D -/
def visitTarget (currentFn : String) (sources : List TaintNode) (context : CallContext) (label : String) (s : Trace)
    (target : String × TaintGraph) : Trace :=
  if target.1 = currentFn then s
  else if namedIn target.1 label then
    if context.contains target.1 then s.markRecursive target.1
    else
      let callSite : CallSite := { callerId := currentFn, calleeName := target.1, lineNumber := 1 }
      let targetSummary := s.cache.get target.1
      let hasSanitizer := (targetSummary.map (·.containsSanitizer)).getD false
      let hasSink := (targetSummary.map (·.containsSink)).getD false
      let sinkNodes := target.2.nodes.values.filter (·.isSink)
      if !sinkNodes.isEmpty || hasSink then
        let path : InterproceduralTaintPath :=
          { sourceFunc := currentFn, sinkFunc := target.1, callChain := [callSite], sourceNode := sources.head?,
            sinkNode := sinkNodes.head?, category := .generic }
        if hasSanitizer then
          { s with itg := { s.itg with safePaths := s.itg.safePaths ++ [{ path with isVulnerable := false }] } }
        else
          { s with itg := { s.itg with vulnerablePaths := s.itg.vulnerablePaths ++ [{ path with isVulnerable := true }] } }
      else s
  else s

/-- The labels of the taint graph, then those of the data flow graph. Source: `analysis/interprocedural/engine.py`. Kind: D -/
def labelsToCheck (currentFn : String) (currentTg : TaintGraph) (dfgMap : Dict String DataFlowGraph) : List String :=
  currentTg.nodes.values.map (·.label) ++
    match dfgMap.get? currentFn with
    | some dfg => dfg.nodes.values.map (·.label)
    | none => []

/-- Source: `analysis/interprocedural/engine.py`, `_trace_function_calls`. Kind: D -/
def traceFunctionCalls (currentFn : String) (currentTg : TaintGraph) (allTgs : Dict String TaintGraph)
    (dfgMap : Dict String DataFlowGraph) (context : CallContext) (s : Trace) : Trace :=
  let sources := currentTg.nodes.values.filter taints
  if sources.isEmpty then s
  else (labelsToCheck currentFn currentTg dfgMap).foldl
    (fun s label => allTgs.entries.foldl (visitTarget currentFn sources context label) s) s

/-- The loop over the summaries. Source: `analysis/interprocedural/engine.py`, `analyze_program`. Kind: D -/
def summarize (dfgMap : Dict String DataFlowGraph) (s : Trace) (fn : String × TaintGraph) : Trace :=
  match dfgMap.get? fn.1 with
  | none => s
  | some dfg =>
    let summary := buildSummary fn.2 dfg
    { cache := s.cache.put summary, itg := s.itg.addSummary summary }

/-- Source: `analysis/interprocedural/engine.py`, `analyze_program`. Kind: D -/
def InterproceduralTaintEngine.analyzeProgram (self : InterproceduralTaintEngine) (taintGraphs : Dict String TaintGraph)
    (dfgMap : Dict String DataFlowGraph) : InterproceduralTaintGraph × InterproceduralTaintEngine :=
  let summarized := taintGraphs.entries.foldl (summarize dfgMap) { cache := self.cache }
  let traced := taintGraphs.entries.foldl
    (fun s fn => traceFunctionCalls fn.1 fn.2 taintGraphs dfgMap { callStack := [fn.1] } s) summarized
  (traced.itg, { cache := traced.cache })

/-! ## What a pass adds -/

/-- Paths that are found, each into its list. Kind: D -/
def InterproceduralTaintGraph.addPaths (itg : InterproceduralTaintGraph) (paths : List InterproceduralTaintPath) :
    InterproceduralTaintGraph :=
  { itg with
    vulnerablePaths := itg.vulnerablePaths ++ paths.filter (·.isVulnerable)
    safePaths := itg.safePaths ++ paths.filter (! ·.isVulnerable) }

/-- Paths that are found, as a step of the loop. Kind: D -/
def Trace.found (s : Trace) (paths : List InterproceduralTaintPath) : Trace := { s with itg := s.itg.addPaths paths }

namespace Trace

@[simp] theorem found_nil (s : Trace) : s.found [] = s := by
  simp [found, InterproceduralTaintGraph.addPaths]

@[simp] theorem found_found (s : Trace) (l l' : List InterproceduralTaintPath) :
    (s.found l).found l' = s.found (l ++ l') := by
  simp [found, InterproceduralTaintGraph.addPaths]

@[simp] theorem cache_found (s : Trace) (l : List InterproceduralTaintPath) : (s.found l).cache = s.cache := rfl

/-- A loop each round of which adds paths that the cache decides adds them all, and leaves the cache alone. Kind: L -/
theorem foldl_found {α : Type*} {f : Trace → α → Trace} (paths : SummaryCache → α → List InterproceduralTaintPath) :
    (l : List α) → (∀ s, ∀ a ∈ l, f s a = s.found (paths s.cache a)) → (s : Trace) →
      l.foldl f s = s.found (l.flatMap (paths s.cache))
  | [], _, s => by simp
  | a :: rest, h, s => by
    have hrest := foldl_found paths rest (fun s b hb => h s b (List.mem_cons_of_mem _ hb)) (s.found (paths s.cache a))
    rw [List.foldl_cons, h s a List.mem_cons_self, hrest, found_found, cache_found, List.flatMap_cons]

end Trace

theorem not_isEmpty_filter {α : Type*} (p : α → Bool) (l : List α) : (!(l.filter p).isEmpty) = l.any p := by
  rw [Bool.eq_iff_iff]
  simp [List.filter_eq_nil_iff]

/-- What a path into a function is decided by. Kind: D -/
def sinkKnown (cache : SummaryCache) (target : String × TaintGraph) : Bool :=
  target.2.nodes.values.any (·.isSink) || ((cache.get target.1).map (·.containsSink)).getD false

/-- What tells safe paths apart. Kind: D -/
def sanitizerKnown (cache : SummaryCache) (g : String) : Bool := ((cache.get g).map (·.containsSanitizer)).getD false

/-- The path from one function into another. Kind: D -/
def pathTo (cache : SummaryCache) (currentFn : String) (sources : List TaintNode) (target : String × TaintGraph) :
    InterproceduralTaintPath where
  sourceFunc := currentFn
  sinkFunc := target.1
  callChain := [{ callerId := currentFn, calleeName := target.1, lineNumber := 1 }]
  sourceNode := sources.head?
  sinkNode := (target.2.nodes.values.filter (·.isSink)).head?
  isVulnerable := !sanitizerKnown cache target.1

/-- The paths for one function and one label: one or none. Kind: D -/
def pathsTo (currentFn : String) (sources : List TaintNode) (label : String) (target : String × TaintGraph)
    (cache : SummaryCache) : List InterproceduralTaintPath :=
  if target.1 ≠ currentFn ∧ namedIn target.1 label ∧ sinkKnown cache target then [pathTo cache currentFn sources target]
  else []

/-- The stack holds the function itself alone, which is passed over before: the protection against recursion never runs.
Source: `analysis/interprocedural/engine.py`, `_trace_function_calls`. Kind: L -/
theorem visitTarget_eq (currentFn label : String) (sources : List TaintNode) (s : Trace) (target : String × TaintGraph) :
    visitTarget currentFn sources { callStack := [currentFn] } label s target =
      s.found (pathsTo currentFn sources label target s.cache) := by
  unfold visitTarget pathsTo
  by_cases hself : target.1 = currentFn
  · simp [hself]
  · by_cases hnamed : namedIn target.1 label = true
    · have hstack : CallContext.contains { callStack := [currentFn] } target.1 = false := by
        simp [CallContext.contains, hself]
      have hsink : (!(target.2.nodes.values.filter (·.isSink)).isEmpty ||
          ((s.cache.get target.1).map (·.containsSink)).getD false) = sinkKnown s.cache target := by
        rw [sinkKnown, not_isEmpty_filter]
      dsimp only
      rw [if_neg hself, if_pos hnamed, hstack, hsink]
      by_cases hknown : sinkKnown s.cache target = true
      · by_cases hsan : sanitizerKnown s.cache target.1 = true
        · simp_all [sanitizerKnown, pathTo, Trace.found, InterproceduralTaintGraph.addPaths]
        · simp_all [sanitizerKnown, pathTo, Trace.found, InterproceduralTaintGraph.addPaths]
      · simp [hself, hnamed, hknown]
    · simp [hself, hnamed]

/-- The paths out of one function. Kind: D -/
def pathsFrom (taintGraphs : Dict String TaintGraph) (dfgMap : Dict String DataFlowGraph) (cache : SummaryCache)
    (fn : String × TaintGraph) : List InterproceduralTaintPath :=
  if fn.2.nodes.values.any taints then
    (labelsToCheck fn.1 fn.2 dfgMap).flatMap fun label =>
      taintGraphs.entries.flatMap fun target => pathsTo fn.1 (fn.2.nodes.values.filter taints) label target cache
  else []

/-- Source: `analysis/interprocedural/engine.py`, `_trace_function_calls`. Kind: L -/
theorem trace_eq (taintGraphs : Dict String TaintGraph) (dfgMap : Dict String DataFlowGraph) (s : Trace)
    (fn : String × TaintGraph) :
    traceFunctionCalls fn.1 fn.2 taintGraphs dfgMap { callStack := [fn.1] } s =
      s.found (pathsFrom taintGraphs dfgMap s.cache fn) := by
  have hempty : (fn.2.nodes.values.filter taints).isEmpty = !fn.2.nodes.values.any taints := by
    rw [← not_isEmpty_filter, Bool.not_not]
  have htargets : ∀ label s, taintGraphs.entries.foldl
      (visitTarget fn.1 (fn.2.nodes.values.filter taints) { callStack := [fn.1] } label) s =
        s.found (taintGraphs.entries.flatMap fun target =>
          pathsTo fn.1 (fn.2.nodes.values.filter taints) label target s.cache) := by
    intro label s
    exact Trace.foldl_found (fun cache target => pathsTo fn.1 _ label target cache) _
      (fun s target _ => visitTarget_eq ..) s
  unfold traceFunctionCalls pathsFrom
  dsimp only
  rw [hempty]
  by_cases hsource : fn.2.nodes.values.any taints = true
  · rw [hsource, if_neg (by simp), if_pos rfl]
    exact Trace.foldl_found (fun cache label => taintGraphs.entries.flatMap fun target =>
      pathsTo fn.1 _ label target cache) _ (fun s label _ => htargets label s) s
  · rw [Bool.not_eq_true] at hsource
    simp [hsource]

/-! ## A whole analysis -/

section analysis

variable (engine : InterproceduralTaintEngine) (taintGraphs : Dict String TaintGraph) (dfgMap : Dict String DataFlowGraph)

/-- The trace when the summaries are there. Kind: D -/
def summarized : Trace := taintGraphs.entries.foldl (summarize dfgMap) { cache := engine.cache }

/-- The summary that is read for a function: the one of this analysis, or an older one. Kind: D -/
def summaryOf (g : String) : Option FunctionSummary :=
  ((taintGraphs.get? g).bind fun tg => (dfgMap.get? g).map (buildSummary tg)).or (engine.cache.get g)

/-- Summaries add no path. Kind: L -/
theorem paths_foldl_summarize : (l : List (String × TaintGraph)) → (s : Trace) →
    (l.foldl (summarize dfgMap) s).itg.vulnerablePaths = s.itg.vulnerablePaths ∧
      (l.foldl (summarize dfgMap) s).itg.safePaths = s.itg.safePaths
  | [], s => ⟨rfl, rfl⟩
  | fn :: rest, s => by
    have hstep : (summarize dfgMap s fn).itg.vulnerablePaths = s.itg.vulnerablePaths ∧
        (summarize dfgMap s fn).itg.safePaths = s.itg.safePaths := by
      unfold summarize
      cases dfgMap.get? fn.1 with
      | none => exact ⟨rfl, rfl⟩
      | some dfg => exact ⟨rfl, rfl⟩
    have ih := paths_foldl_summarize rest (summarize dfgMap s fn)
    exact ⟨ih.1.trans hstep.1, ih.2.trans hstep.2⟩

/-- The summaries after the loop. Kind: L -/
theorem get_foldl_summarize (g : String) : (l : List (String × TaintGraph)) → (∀ fn ∈ l, fn.2.functionName = fn.1) →
    (l.map Prod.fst).Nodup → (s : Trace) → (l.foldl (summarize dfgMap) s).cache.get g =
      ((Dict.lookup g l).bind fun tg => (dfgMap.get? g).map (buildSummary tg)).or (s.cache.get g)
  | [], _, _, s => rfl
  | fn :: rest, hname, hnodup, s => by
    obtain ⟨hfresh, hrest⟩ := List.nodup_cons.mp hnodup
    have ih := get_foldl_summarize g rest (fun e he => hname e (List.mem_cons_of_mem _ he)) hrest (summarize dfgMap s fn)
    rw [List.foldl_cons, ih]
    by_cases hg : fn.1 = g
    · subst hg
      have hnone : Dict.lookup fn.1 rest = none := by
        rw [← Option.not_isSome_iff_eq_none, Dict.lookup_isSome]
        exact hfresh
      have hself : fn.2.functionName = fn.1 := hname fn List.mem_cons_self
      rw [hnone, summarize]
      cases hdfg : dfgMap.get? fn.1 with
      | none => simp
      | some dfg => simp [Dict.lookup, SummaryCache.get_put, buildSummary, hself]
    · have hother : (summarize dfgMap s fn).cache.get g = s.cache.get g := by
        have hself : fn.2.functionName = fn.1 := hname fn List.mem_cons_self
        rw [summarize]
        cases hdfg : dfgMap.get? fn.1 with
        | none => rfl
        | some dfg =>
          have hne : g ≠ (buildSummary fn.2 dfg).functionName := fun h => hg (hself ▸ h.symm)
          simp [SummaryCache.get_put, hne]
      rw [hother, Dict.lookup, if_neg hg]

variable (hname : ∀ fn ∈ taintGraphs.entries, fn.2.functionName = fn.1)

include hname in
/-- Source: `analysis/interprocedural/engine.py`, `analyze_program`. Kind: L -/
theorem get_summarized (g : String) :
    (summarized engine taintGraphs dfgMap).cache.get g = summaryOf engine taintGraphs dfgMap g :=
  get_foldl_summarize dfgMap g taintGraphs.entries hname taintGraphs.nodup _

/-- All paths of an analysis. Kind: D -/
def allPaths : List InterproceduralTaintPath :=
  taintGraphs.entries.flatMap (pathsFrom taintGraphs dfgMap (summarized engine taintGraphs dfgMap).cache)

/-- Source: `analysis/interprocedural/engine.py`, `analyze_program`. Kind: L -/
theorem analyzeProgram_eq : (engine.analyzeProgram taintGraphs dfgMap).1 =
    (summarized engine taintGraphs dfgMap).itg.addPaths (allPaths engine taintGraphs dfgMap) :=
  congrArg Trace.itg (Trace.foldl_found (pathsFrom taintGraphs dfgMap) taintGraphs.entries (fun s fn _ => trace_eq taintGraphs dfgMap s fn)
    (summarized engine taintGraphs dfgMap))

/-- Source: `analysis/interprocedural/engine.py`, `analyze_program`. Kind: L -/
theorem mem_vulnerablePaths {path : InterproceduralTaintPath} :
    path ∈ (engine.analyzeProgram taintGraphs dfgMap).1.vulnerablePaths ↔
      path ∈ allPaths engine taintGraphs dfgMap ∧ path.isVulnerable = true := by
  have hnone := (paths_foldl_summarize dfgMap taintGraphs.entries { cache := engine.cache }).1
  rw [analyzeProgram_eq]
  simp [InterproceduralTaintGraph.addPaths, summarized, hnone]

/-- Source: `analysis/interprocedural/engine.py`, `analyze_program`. Kind: L -/
theorem mem_safePaths {path : InterproceduralTaintPath} :
    path ∈ (engine.analyzeProgram taintGraphs dfgMap).1.safePaths ↔
      path ∈ allPaths engine taintGraphs dfgMap ∧ path.isVulnerable = false := by
  have hnone := (paths_foldl_summarize dfgMap taintGraphs.entries { cache := engine.cache }).2
  rw [analyzeProgram_eq]
  simp [InterproceduralTaintGraph.addPaths, summarized, hnone]

end analysis

end KarsaSec.Interprocedural
