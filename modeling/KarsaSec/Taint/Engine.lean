import KarsaSec.Taint.Propagator

/-!
# Paths from sources to sinks

`analysis/taint/engine.py`. The engine pairs every source of a function with every sink, and all pairs are safe as soon as the
function has a sanitizer anywhere. Statements of the control flow graph are sinks only where no assignment is one.

* `vulnerablePaths_analyzeFunction` and `safePaths_analyzeFunction`: the two lists of paths.
* `separated_iff`: safe paths are safe, and all sources joined with a sink past all sanitizers are reported with it, if and only
  if a function where some are so joined has no sanitizer, and no assignment that is a sink hides a statement that is one.
-/

namespace KarsaSec.Taint

open KarsaSec.Found
open KarsaSec.Ssa (SSAVar)

/-- Source: `analysis/taint/engine.py`, `IntraproceduralTaintEngine`. Kind: D -/
structure IntraproceduralTaintEngine where
  sourceReg : SourceRegistry := {}
  sinkReg : SinkRegistry := {}
  sanitizerReg : SanitizerRegistry := {}

namespace IntraproceduralTaintEngine

/-- Source: `analysis/taint/engine.py`, `__init__`. Kind: D -/
def propagator (self : IntraproceduralTaintEngine) : TaintPropagator where
  sourceReg := self.sourceReg
  sinkReg := self.sinkReg
  sanitizerReg := self.sanitizerReg

/-! ## The graph -/

/-- An end of an edge: a version by its name, or else the first node with the text in its identifier.
Source: `analysis/taint/engine.py`, `src_node`. Kind: D -/
def resolve (varTaints : Dict String TaintNode) (id : String) : Option TaintNode :=
  (varTaints.get? id).or (varTaints.values.find? fun n => inStr id n.id)

/-- Source: `analysis/taint/engine.py`, `analyze_function`. Kind: D -/
def connect (varTaints : Dict String TaintNode) (taintGraph : TaintGraph) (edge : DataFlowEdge) : TaintGraph :=
  match resolve varTaints edge.sourceId, resolve varTaints edge.targetId with
  | some srcNode, some tgtNode => taintGraph.addEdge srcNode.id tgtNode.id edge.varName
  | _, _ => taintGraph

/-- Source: `analysis/taint/engine.py`, `sources`. Kind: D -/
def sources (varTaints : Dict String TaintNode) : List TaintNode :=
  varTaints.values.filter fun n => n.isSource || n.state = .tainted

/-- Source: `analysis/taint/engine.py`, `snk_node`. Kind: D -/
def cfgSink (cfgNode : CFGNode) : TaintNode where
  id := cfgNode.id ++ "::sink"
  varName := "sink"
  lineNumber := cfgNode.lineNumber
  isSink := true
  label := cfgNode.label

/-- Source: `analysis/taint/engine.py`, `sinks`. Kind: D -/
def ssaSinks (varTaints : Dict String TaintNode) : List TaintNode := varTaints.values.filter TaintNode.isSink

/-- Source: `analysis/taint/engine.py`, `sinks`. Kind: D -/
def cfgSinks (self : IntraproceduralTaintEngine) (cfg : CFG) : List TaintNode :=
  (cfg.nodes.values.filter fun cfgNode => self.sinkReg.isSink cfgNode.label).map cfgSink

/-- Source: `analysis/taint/engine.py`, `sanitizers`. Kind: D -/
def sanitizers (varTaints : Dict String TaintNode) : List TaintNode :=
  varTaints.values.filter fun n => n.isSanitizer || n.state = .sanitized

/-- Source: `analysis/taint/engine.py`, `category`. Kind: D -/
def category (self : IntraproceduralTaintEngine) (snk : TaintNode) : TaintCategory :=
  (self.sinkReg.matchSink snk.label).getD .generic

/-- Source: `analysis/taint/engine.py`, `safe_path` and `vuln_path`. Kind: D -/
def path (self : IntraproceduralTaintEngine) (found : List TaintNode) (pair : TaintNode × TaintNode) : TaintPath where
  sourceNode := pair.1
  sinkNode := pair.2
  pathNodes := [pair.1] ++ found ++ [pair.2]
  sanitizerNodes := found
  category := self.category pair.2
  isVulnerable := found.isEmpty

/-- Source: `analysis/taint/engine.py`, `analyze_function`. Kind: D -/
def addPath (self : IntraproceduralTaintEngine) (found : List TaintNode) (taintGraph : TaintGraph)
    (pair : TaintNode × TaintNode) : TaintGraph :=
  if found.isEmpty then { taintGraph with vulnerablePaths := taintGraph.vulnerablePaths ++ [self.path found pair] }
  else { taintGraph with safePaths := taintGraph.safePaths ++ [self.path found pair] }

/-- The first sinks that there are. Source: `analysis/taint/engine.py`, `analyze_function`. Kind: D -/
def sinks (self : IntraproceduralTaintEngine) (cfg : CFG) (varTaints : Dict String TaintNode) : List TaintNode :=
  if (ssaSinks varTaints).isEmpty then self.cfgSinks cfg else ssaSinks varTaints

/-- The nodes and edges, before the paths. Source: `analysis/taint/engine.py`, `analyze_function`. Kind: D -/
def discovered (self : IntraproceduralTaintEngine) (cfg : CFG) (dfg : DataFlowGraph) (varTaints : Dict String TaintNode) :
    TaintGraph :=
  let propagated := varTaints.values.foldl TaintGraph.addNode
    { functionName := cfg.functionName, filePath := cfg.filePath }
  let connected := dfg.edges.foldl (connect varTaints) propagated
  if (ssaSinks varTaints).isEmpty then (self.cfgSinks cfg).foldl TaintGraph.addNode connected else connected

/-- Source: `analysis/taint/engine.py`, `analyze_function`. Kind: D -/
def analyzeFunction (self : IntraproceduralTaintEngine) (cfg : CFG) (ssaFunc : SSAFunction) (dfg : DataFlowGraph) :
    TaintGraph :=
  let varTaints := self.propagator.propagateTaint ssaFunc
  ((sources varTaints).product (self.sinks cfg varTaints)).foldl (self.addPath (sanitizers varTaints))
    (self.discovered cfg dfg varTaints)

/-! ## What it separates -/

/-- The node of a sink stands at a point. Kind: D -/
inductive SinkAt (engine : IntraproceduralTaintEngine) (cfg : CFG) (ssaFunc : SSAFunction) : TaintNode → Point → Prop
  | variable {t : TaintNode} {n : SSANode} {v : SSAVar} (hassigns : ssaFunc.Assigns n v)
      (hsink : engine.sinkReg.isSink n.label = true) (hname : t.varName = v.ssaName) :
      SinkAt engine cfg ssaFunc t (.variable v.ssaName)
  | statement {cfgNode : CFGNode} (hmem : cfgNode ∈ cfg.nodes.values)
      (hsink : engine.sinkReg.isSink cfgNode.label = true) :
      SinkAt engine cfg ssaFunc (cfgSink cfgNode) (.statement cfgNode.id)

/-- Some assignment or statement here is a sink. Kind: D -/
def IsSink (self : IntraproceduralTaintEngine) (cfg : CFG) (ssaFunc : SSAFunction) (q : Point) : Prop :=
  ∃ t, self.SinkAt cfg ssaFunc t q

/-- Safe and vulnerable paths are what they say. Source: `analysis/taint/engine.py`, `analyze_function`. Kind: D -/
structure Separated (engine : IntraproceduralTaintEngine) (cfg : CFG) (ssaFunc : SSAFunction) (dfg : DataFlowGraph) :
    Prop where
  /-- Every path from the source of a safe pair to its sink has a node that sanitizes. -/
  safe : ∀ path ∈ (engine.analyzeFunction cfg ssaFunc dfg).safePaths, ∀ q, engine.SinkAt cfg ssaFunc path.sinkNode q →
    ¬engine.propagator.Clean ssaFunc dfg (.variable path.sourceNode.varName) q
  /-- Every source that a path without one joins with a sink is reported with it. -/
  vulnerable : ∀ n v q, ssaFunc.Assigns n v → engine.sourceReg.isSource n.label = true → engine.IsSink cfg ssaFunc q →
    engine.propagator.Clean ssaFunc dfg (.variable v.ssaName) q →
    ∃ path ∈ (engine.analyzeFunction cfg ssaFunc dfg).vulnerablePaths, path.sourceNode.varName = v.ssaName ∧
      engine.SinkAt cfg ssaFunc path.sinkNode q

/-- Where a source is joined with a sink past all sanitizers, the function has none, and if the sink is a statement then no
assignment is a sink. Kind: D -/
def NothingHides (self : IntraproceduralTaintEngine) (cfg : CFG) (ssaFunc : SSAFunction) (dfg : DataFlowGraph) : Prop :=
  ∀ n v q, ssaFunc.Assigns n v → self.sourceReg.isSource n.label = true → self.IsSink cfg ssaFunc q →
    self.propagator.Clean ssaFunc dfg (.variable v.ssaName) q →
    ∀ m u, ssaFunc.Assigns m u → self.sanitizerReg.isSanitizer m.label = false ∧
      ∀ cfgId, q = .statement cfgId → self.sinkReg.isSink m.label = false

/-! ## The lists of paths -/

variable {self : IntraproceduralTaintEngine} {cfg : CFG} {ssaFunc : SSAFunction} {dfg : DataFlowGraph}

theorem paths_connect (varTaints : Dict String TaintNode) (taintGraph : TaintGraph) (edge : DataFlowEdge) :
    (connect varTaints taintGraph edge).vulnerablePaths = taintGraph.vulnerablePaths ∧
      (connect varTaints taintGraph edge).safePaths = taintGraph.safePaths := by
  unfold connect
  rcases resolve varTaints edge.sourceId with _ | srcNode
  · exact ⟨rfl, rfl⟩
  · rcases resolve varTaints edge.targetId with _ | tgtNode
    · exact ⟨rfl, rfl⟩
    · exact ⟨rfl, rfl⟩

/-- Steps that keep the two lists keep them together. Kind: L -/
theorem paths_foldl {α : Type} {step : TaintGraph → α → TaintGraph}
    (hstep : ∀ g a, (step g a).vulnerablePaths = g.vulnerablePaths ∧ (step g a).safePaths = g.safePaths) (l : List α)
    (g : TaintGraph) :
    (l.foldl step g).vulnerablePaths = g.vulnerablePaths ∧ (l.foldl step g).safePaths = g.safePaths := by
  induction l generalizing g with
  | nil => exact ⟨rfl, rfl⟩
  | cons a l ih => exact ⟨(ih _).1.trans (hstep g a).1, (ih _).2.trans (hstep g a).2⟩

theorem paths_foldl_addPath (found : List TaintNode) (pairs : List (TaintNode × TaintNode)) (g : TaintGraph) :
    (pairs.foldl (self.addPath found) g).vulnerablePaths =
        g.vulnerablePaths ++ (if found.isEmpty then pairs.map (self.path found) else []) ∧
      (pairs.foldl (self.addPath found) g).safePaths =
        g.safePaths ++ (if found.isEmpty then [] else pairs.map (self.path found)) := by
  induction pairs generalizing g with
  | nil => simp
  | cons pair pairs ih =>
    obtain ⟨hvulnerable, hsafe⟩ := ih (self.addPath found g pair)
    rw [List.foldl_cons, hvulnerable, hsafe]
    unfold addPath
    split_ifs
    · simp
    · simp

theorem paths_discovered (varTaints : Dict String TaintNode) :
    (self.discovered cfg dfg varTaints).vulnerablePaths = [] ∧ (self.discovered cfg dfg varTaints).safePaths = [] := by
  have hnode : ∀ (g : TaintGraph) (t : TaintNode), (g.addNode t).vulnerablePaths = g.vulnerablePaths ∧
      (g.addNode t).safePaths = g.safePaths := fun _ _ => ⟨rfl, rfl⟩
  have hconnected := paths_foldl (paths_connect varTaints) dfg.edges (varTaints.values.foldl TaintGraph.addNode
    { functionName := cfg.functionName, filePath := cfg.filePath })
  have hpropagated := paths_foldl hnode varTaints.values
    { functionName := cfg.functionName, filePath := cfg.filePath }
  unfold discovered
  dsimp only
  split_ifs
  · simp_all [paths_foldl]
  · simp_all

/-- The pairs are vulnerable where nothing sanitizes. Source: `analysis/taint/engine.py`, `analyze_function`. Kind: L -/
theorem vulnerablePaths_analyzeFunction {varTaints : Dict String TaintNode}
    (h : self.propagator.propagateTaint ssaFunc = varTaints) :
    (self.analyzeFunction cfg ssaFunc dfg).vulnerablePaths = if (sanitizers varTaints).isEmpty then
      ((sources varTaints).product (self.sinks cfg varTaints)).map (self.path (sanitizers varTaints)) else [] := by
  unfold analyzeFunction
  rw [h, (paths_foldl_addPath _ _ _).1, (paths_discovered varTaints).1, List.nil_append]

/-- And else they are safe. Source: `analysis/taint/engine.py`, `analyze_function`. Kind: L -/
theorem safePaths_analyzeFunction {varTaints : Dict String TaintNode}
    (h : self.propagator.propagateTaint ssaFunc = varTaints) :
    (self.analyzeFunction cfg ssaFunc dfg).safePaths = if (sanitizers varTaints).isEmpty then [] else
      ((sources varTaints).product (self.sinks cfg varTaints)).map (self.path (sanitizers varTaints)) := by
  unfold analyzeFunction
  rw [h, (paths_foldl_addPath _ _ _).2, (paths_discovered varTaints).2, List.nil_append]

/-! ## Sources, sinks and sanitizers of the function -/

theorem mem_sources (dfg : DataFlowGraph) {src : TaintNode} (h : src ∈ sources (self.propagator.propagateTaint ssaFunc)) :
    ∃ n v, ssaFunc.Assigns n v ∧ self.sourceReg.isSource n.label = true ∧
      (src.varName = v.ssaName ∨ self.propagator.Clean ssaFunc dfg (.variable v.ssaName) (.variable src.varName)) := by
  obtain ⟨hmem, hsource⟩ := List.mem_filter.mp h
  obtain ⟨name, hget⟩ := Dict.mem_values.mp hmem
  have hexplained := TaintPropagator.explained_propagateTaint dfg hget
  rcases Bool.or_eq_true_iff.mp hsource with hsource | htainted
  · obtain ⟨n, v, hassigns, -, hname, hlabel, -⟩ := hexplained.node
    exact ⟨n, v, hassigns, hlabel.symm.trans hsource, .inl hname⟩
  · obtain ⟨n, v, hassigns, hlabel, hclean⟩ := hexplained.tainted (of_decide_eq_true htainted)
    exact ⟨n, v, hassigns, hlabel, .inr hclean⟩

/-- The sanitizers are empty where no assignment has the label of one. Kind: L -/
theorem sanitizers_eq_nil_iff : sanitizers (self.propagator.propagateTaint ssaFunc) = [] ↔
    ∀ n v, ssaFunc.Assigns n v → self.sanitizerReg.isSanitizer n.label = false := by
  unfold sanitizers
  rw [List.filter_eq_nil_iff]
  constructor
  · intro h n v hassigns
    obtain ⟨t, hmem, -, -, -, hlabel⟩ := self.propagator.exists_taintNode hassigns
    refine Bool.eq_false_of_not_eq_true fun hsan => h t hmem ?_
    rw [hlabel.trans hsan, Bool.true_or]
  · intro h t hmem hsan
    obtain ⟨name, hget⟩ := Dict.mem_values.mp hmem
    have hexplained := TaintPropagator.explained_propagateTaint { functionName := "" } hget
    obtain ⟨n, v, hassigns, hlabel⟩ : ∃ n v, ssaFunc.Assigns n v ∧ self.sanitizerReg.isSanitizer n.label = true := by
      rcases Bool.or_eq_true_iff.mp hsan with hlabel | hstate
      · obtain ⟨n, v, hassigns, -, -, -, -, heq⟩ := hexplained.node
        exact ⟨n, v, hassigns, heq.symm.trans hlabel⟩
      · exact hexplained.sanitized (of_decide_eq_true hstate)
    rw [h n v hassigns] at hlabel
    cases hlabel

/-- An assignment with the label of a source is one of the sources. Kind: L -/
theorem exists_source (self : IntraproceduralTaintEngine) {n : SSANode} {v : SSAVar} (hassigns : ssaFunc.Assigns n v)
    (hsource : self.sourceReg.isSource n.label = true) :
    ∃ t ∈ sources (self.propagator.propagateTaint ssaFunc), t.varName = v.ssaName := by
  obtain ⟨t, hmem, hname, hlabel, -⟩ := self.propagator.exists_taintNode hassigns
  refine ⟨t, List.mem_filter.mpr ⟨hmem, ?_⟩, hname⟩
  rw [hlabel.trans hsource, Bool.true_or]

theorem mem_ssaSinks {snk : TaintNode} (h : snk ∈ ssaSinks (self.propagator.propagateTaint ssaFunc)) :
    ∃ n v, ssaFunc.Assigns n v ∧ self.sinkReg.isSink n.label = true ∧ snk.varName = v.ssaName := by
  obtain ⟨hmem, hsink⟩ := List.mem_filter.mp h
  obtain ⟨name, hget⟩ := Dict.mem_values.mp hmem
  obtain ⟨n, v, hassigns, -, hname, -, hlabel, -⟩ :=
    (TaintPropagator.explained_propagateTaint { functionName := "" } hget).node
  exact ⟨n, v, hassigns, hlabel.symm.trans hsink, hname⟩

/-- An assignment with the label of a sink is one of the sinks. Kind: L -/
theorem exists_ssaSink (self : IntraproceduralTaintEngine) {n : SSANode} {v : SSAVar} (hassigns : ssaFunc.Assigns n v)
    (hsink : self.sinkReg.isSink n.label = true) :
    ∃ t ∈ ssaSinks (self.propagator.propagateTaint ssaFunc), t.varName = v.ssaName := by
  obtain ⟨t, hmem, hname, -, hlabel, -⟩ := self.propagator.exists_taintNode hassigns
  exact ⟨t, List.mem_filter.mpr ⟨hmem, hlabel.trans hsink⟩, hname⟩

/-- No assignment stands at a statement. Kind: L -/
theorem not_sinkAt_statement {snk : TaintNode} {v : SSAVar} {cfgId : String} (hname : snk.varName = v.ssaName) :
    ¬self.SinkAt cfg ssaFunc snk (.statement cfgId) := by
  rintro (_ | _)
  have hmem := underscore_mem_ssaName v
  rw [← hname] at hmem
  change '_' ∈ "sink".toList at hmem
  exact absurd hmem (by decide)

/-! ## The two lists separate -/

/-- A pair that is joined is reported. Kind: L -/
theorem reported_of_nothingHides (h : self.NothingHides cfg ssaFunc dfg) {n : SSANode} {v : SSAVar} {q : Point}
    (hassigns : ssaFunc.Assigns n v) (hsource : self.sourceReg.isSource n.label = true) (hsink : self.IsSink cfg ssaFunc q)
    (hclean : self.propagator.Clean ssaFunc dfg (.variable v.ssaName) q) :
    ∃ path ∈ (self.analyzeFunction cfg ssaFunc dfg).vulnerablePaths, path.sourceNode.varName = v.ssaName ∧
      self.SinkAt cfg ssaFunc path.sinkNode q := by
  have hfree := h n v q hassigns hsource hsink hclean
  have hnone : sanitizers (self.propagator.propagateTaint ssaFunc) = [] :=
    sanitizers_eq_nil_iff.mpr fun m u hm => (hfree m u hm).1
  obtain ⟨src, hsrc, hname⟩ := exists_source self hassigns hsource
  obtain ⟨snk, hsnk, hat⟩ : ∃ snk ∈ self.sinks cfg (self.propagator.propagateTaint ssaFunc),
      self.SinkAt cfg ssaFunc snk q := by
    unfold sinks
    obtain ⟨t, @⟨_, m, u, hm, hlabel, -⟩ | @⟨cfgNode, hmem, hlabel⟩⟩ := hsink
    · obtain ⟨t, ht, hname⟩ := exists_ssaSink self hm hlabel
      rw [if_neg (by rw [List.isEmpty_iff]; exact List.ne_nil_of_mem ht)]
      exact ⟨t, ht, .variable hm hlabel hname⟩
    · have hempty : ssaSinks (self.propagator.propagateTaint ssaFunc) = [] := by
        refine List.eq_nil_iff_forall_not_mem.mpr fun t ht => ?_
        obtain ⟨m, u, hm, hsink, -⟩ := mem_ssaSinks ht
        rw [(hfree m u hm).2 _ rfl] at hsink
        cases hsink
      rw [if_pos (by rw [hempty]; rfl)]
      exact ⟨_, List.mem_map_of_mem (List.mem_filter.mpr ⟨hmem, hlabel⟩), .statement hmem hlabel⟩
  refine ⟨self.path [] (src, snk), ?_, hname, hat⟩
  rw [vulnerablePaths_analyzeFunction rfl, hnone, if_pos List.isEmpty_nil]
  exact List.mem_map_of_mem (List.pair_mem_product.mpr ⟨hsrc, hsnk⟩)

/-- **The two lists separate, if and only if nothing hides a pair.** Source: `analysis/taint/engine.py`, `analyze_function`.
Kind: P -/
theorem separated_iff : self.Separated cfg ssaFunc dfg ↔ self.NothingHides cfg ssaFunc dfg := by
  constructor
  · rintro h n v q hassigns hsource hsink hclean m u hm
    obtain ⟨path, hpath, -, hat⟩ := h.vulnerable n v q hassigns hsource hsink hclean
    rw [vulnerablePaths_analyzeFunction rfl] at hpath
    split_ifs at hpath with hnone
    · refine ⟨sanitizers_eq_nil_iff.mp (List.isEmpty_iff.mp hnone) m u hm, ?_⟩
      rintro cfgId rfl
      refine Bool.eq_false_of_not_eq_true fun hlabel => ?_
      -- an assignment that is a sink leaves no place for statements
      obtain ⟨t, ht, -⟩ := exists_ssaSink self hm hlabel
      obtain ⟨⟨src, snk⟩, hpair, rfl⟩ := List.mem_map.mp hpath
      have hsnk := (List.pair_mem_product.mp hpair).2
      rw [sinks, if_neg (by rw [List.isEmpty_iff]; exact List.ne_nil_of_mem ht)] at hsnk
      obtain ⟨-, w, -, -, hname⟩ := mem_ssaSinks hsnk
      exact not_sinkAt_statement hname hat
    · exact absurd hpath List.not_mem_nil
  · intro h
    refine ⟨fun path hpath q hat hclean => ?_, fun n v q => reported_of_nothingHides h⟩
    rw [safePaths_analyzeFunction rfl] at hpath
    split_ifs at hpath with hnone
    · exact absurd hpath List.not_mem_nil
    · obtain ⟨⟨src, snk⟩, hpair, rfl⟩ := List.mem_map.mp hpath
      obtain ⟨n, v, hassigns, hsource, hreach⟩ := mem_sources dfg (List.pair_mem_product.mp hpair).1
      have hjoined : self.propagator.Clean ssaFunc dfg (.variable v.ssaName) q := by
        rcases hreach with hname | hreach
        · rw [← hname]
          exact hclean
        · exact hreach.trans hclean
      refine hnone (List.isEmpty_iff.mpr (sanitizers_eq_nil_iff.mpr fun m u hm => ?_))
      exact (h n v q hassigns hsource ⟨_, hat⟩ hjoined m u hm).1

/-! ## A sanitizer beside the path -/

/-- A request parameter goes into a query, and another variable is escaped. Kind: D -/
def besideThePath : SSAFunction where
  functionName := "lookup"
  filePath := "app.py"
  nodes :=
    [{ id := "assign::2", lineNumber := 2, target := some ⟨"raw", 1⟩, label := "raw_1 = request.args['id']" },
      { id := "assign::3", lineNumber := 3, target := some ⟨"page", 1⟩, label := "page_1 = html.escape(title)" },
      { id := "assign::4", lineNumber := 4, target := some ⟨"rows", 1⟩, useVars := [⟨"raw", 1⟩],
        label := "rows_1 = db.execute(raw)" }]
  single := by decide

/-- A text with no pattern of any context. Kind: L -/
theorem isSanitizer_eq_false {text : String} (h : ∀ entry ∈ defaultContextSanitizers, anyIn entry.2 text = false) :
    ({} : SanitizerRegistry).isSanitizer text = false := by
  refine List.any_eq_false.mpr fun patterns hpatterns => ?_
  obtain ⟨context, hget⟩ := Dict.mem_values.mp hpatterns
  have hmem := Dict.mem_entries.mpr hget
  rw [Dict.entries_ofList (by decide)] at hmem
  rw [h _ hmem]
  decide

theorem sanitizes_besideThePath {p : Point} (h : TaintPropagator.Sanitizes {} besideThePath p) : p = .variable "page_1" := by
  obtain ⟨n, v, ⟨hn, htarget⟩, rfl, hlabel⟩ := h
  simp only [besideThePath, List.mem_cons, List.not_mem_nil, or_false] at hn
  rcases hn with rfl | rfl | rfl
  · rw [isSanitizer_eq_false] at hlabel
    · cases hlabel
    · simp only [defaultContextSanitizers, List.forall_mem_cons]
      refine ⟨?_, ?_, ?_, ?_, ?_, ?_, ?_, List.forall_mem_nil _⟩ <;> decide
  · cases htarget
    decide
  · rw [isSanitizer_eq_false] at hlabel
    · cases hlabel
    · simp only [defaultContextSanitizers, List.forall_mem_cons]
      refine ⟨?_, ?_, ?_, ?_, ?_, ?_, ?_, List.forall_mem_nil _⟩ <;> decide

/-- The parameter reaches the query as it is, and the pair is safe. Source: `analysis/taint/engine.py`, `analyze_function`.
Kind: P -/
theorem unrelated_sanitizer_hides : ¬∀ (engine : IntraproceduralTaintEngine) (cfg : CFG) (ssaFunc : SSAFunction)
    (dfg : DataFlowGraph), engine.Separated cfg ssaFunc dfg := by
  intro h
  have hsafe := (h {} { functionName := "lookup", nodes := .empty } besideThePath { functionName := "lookup" }).safe
  have hraw : besideThePath.Assigns
      { id := "assign::2", lineNumber := 2, target := some ⟨"raw", 1⟩, label := "raw_1 = request.args['id']" } ⟨"raw", 1⟩ :=
    ⟨List.mem_cons_self, rfl⟩
  have hpage : besideThePath.Assigns
      { id := "assign::3", lineNumber := 3, target := some ⟨"page", 1⟩, label := "page_1 = html.escape(title)" } ⟨"page", 1⟩ :=
    ⟨List.mem_cons_of_mem _ List.mem_cons_self, rfl⟩
  have hrows : besideThePath.Assigns
      { id := "assign::4", lineNumber := 4, target := some ⟨"rows", 1⟩, useVars := [⟨"raw", 1⟩],
        label := "rows_1 = db.execute(raw)" } ⟨"rows", 1⟩ :=
    ⟨List.mem_cons_of_mem _ (List.mem_cons_of_mem _ List.mem_cons_self), rfl⟩
  have hsink : ({} : SinkRegistry).isSink "rows_1 = db.execute(raw)" = true := by decide
  -- the pair is there, and it is safe because the page is escaped
  obtain ⟨src, hsrc, hsrcName⟩ := exists_source {} hraw (by decide)
  obtain ⟨snk, hsnk, hsnkName⟩ := exists_ssaSink {} hrows hsink
  have hsome : ¬(sanitizers (({} : IntraproceduralTaintEngine).propagator.propagateTaint besideThePath)).isEmpty := by
    intro hnone
    have hlabel := sanitizers_eq_nil_iff.mp (List.isEmpty_iff.mp hnone) _ _ hpage
    exact absurd hlabel (by decide)
  have hpath : path {} (sanitizers (({} : IntraproceduralTaintEngine).propagator.propagateTaint besideThePath)) (src, snk) ∈
      (({} : IntraproceduralTaintEngine).analyzeFunction { functionName := "lookup", nodes := .empty } besideThePath
        { functionName := "lookup" }).safePaths := by
    rw [safePaths_analyzeFunction rfl, if_neg hsome]
    refine List.mem_map_of_mem (List.pair_mem_product.mpr ⟨hsrc, ?_⟩)
    rw [sinks, if_neg (by rw [List.isEmpty_iff]; exact List.ne_nil_of_mem hsnk)]
    exact hsnk
  refine hsafe _ hpath _ (.variable hrows hsink hsnkName) ⟨fun hsan => ?_, .single ⟨?_, fun hsan => ?_⟩⟩
  · have hname := sanitizes_besideThePath hsan
    change Point.variable src.varName = _ at hname
    rw [hsrcName] at hname
    exact absurd hname (by decide)
  · change Flows _ _ (.variable src.varName) _
    rw [hsrcName]
    exact .use hrows List.mem_cons_self
  · exact absurd (sanitizes_besideThePath hsan) (by decide)

end IntraproceduralTaintEngine

end KarsaSec.Taint
