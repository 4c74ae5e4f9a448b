import KarsaSec.Interprocedural.Engine
import Mathlib.Logic.Relation

/-!
# Values that cross calls

What the paths across functions are about: places where a value stands, steps within a function along its taint edges, and steps
into a callee. A value reaches a sink of another function cleanly if no place on its way sanitizes.

* `exists_vulnerablePath_iff`, `exists_safePath_iff`: between which functions `analyze_program`
  (`analysis/interprocedural/engine.py`) reports a path of the two kinds. Neither the edges nor the way of a value is read.
* `soundAcross_iff`: when the paths are sound for a program; `relayed_value_missed` is one for which they are not.
-/

namespace KarsaSec.Interprocedural

open KarsaSec.Found
open KarsaSec.Taint (TaintNode TaintGraph DataFlowGraph)
open Relation (ReflTransGen TransGen)

/-! ## Ways with a crossing -/

section crossing

variable {α : Type*} {good good' : α → Prop} {step cross : α → α → Prop} {a b : α}

/-- A step between good places. Kind: D -/
def Via (good : α → Prop) (step : α → α → Prop) (a b : α) : Prop := good a ∧ step a b ∧ good b

/-- A way over good places with a crossing on it. Kind: D -/
def Crossing (good : α → Prop) (step cross : α → α → Prop) (a b : α) : Prop :=
  ∃ c d, ReflTransGen (Via good step) a c ∧ Via good cross c d ∧ ReflTransGen (Via good step) d b

theorem Via.mono (h : ∀ a, good a → good' a) (hvia : Via good step a b) : Via good' step a b :=
  ⟨h a hvia.1, hvia.2.1, h b hvia.2.2⟩

theorem Crossing.mono (h : ∀ a, good a → good' a) (hway : Crossing good step cross a b) : Crossing good' step cross a b := by
  obtain ⟨c, d, hleft, hcross, hright⟩ := hway
  have hsteps := ReflTransGen.mono (r := Via good step) (p := Via good' step) fun a b => Via.mono (a := a) (b := b) h
  exact ⟨c, d, hsteps _ _ hleft, hcross.mono h, hsteps _ _ hright⟩

end crossing

/-! ## Programs -/

/-- A place where a value can stand: a node of a function. Kind: D -/
structure Place where
  fn : String
  id : String
  deriving DecidableEq

/-- Functions with their graphs, and what they do: which functions they call, and which values they pass. The graphs are kept under
the names of the functions, and a label of a function contains every call that it makes. Kind: D -/
structure Program where
  taintGraphs : Dict String TaintGraph
  dfgMap : Dict String DataFlowGraph
  Calls : String → String → Prop
  Passes : Place → Place → Prop
  named : ∀ fn ∈ taintGraphs.entries, fn.2.functionName = fn.1
  labelled : ∀ f g tg, Calls f g → taintGraphs.get? f = some tg →
    ∃ label ∈ labelsToCheck f tg dfgMap, inStr (g ++ "(") label = true
  passes_calls : ∀ m n, Passes m n → Calls m.fn n.fn

namespace Program

variable (p : Program)

/-- The node at a place. Kind: D -/
def node? (m : Place) : Option TaintNode := (p.taintGraphs.get? m.fn).bind fun tg => tg.nodes.get? m.id

/-- The node at a place is of a kind. Kind: D -/
def At (kind : TaintNode → Bool) (m : Place) : Prop := ∃ node, p.node? m = some node ∧ kind node = true

theorem at_iff {kind : TaintNode → Bool} {m : Place} : p.At kind m ↔ (p.node? m).any kind = true := by
  rw [Option.any_eq_true]
  rfl

/-- A value moves along a taint edge of its function, or into a callee. Kind: D -/
inductive Step : Place → Place → Prop
  | edge {f : String} {tg : TaintGraph} {e : Taint.TaintEdge} (hf : p.taintGraphs.get? f = some tg) (he : e ∈ tg.edges) :
      Step ⟨f, e.sourceId⟩ ⟨f, e.targetId⟩
  | pass {m n : Place} (h : p.Passes m n) : Step m n

/-- A tainted value of `f` is passed on and reaches a sink of `g` over good places. Kind: D -/
def Reaches (good : Place → Prop) (f g : String) : Prop :=
  ∃ m n, m.fn = f ∧ n.fn = g ∧ p.At taints m ∧ p.At (·.isSink) n ∧ Crossing good p.Step p.Passes m n

/-- No sanitizer on the way. Kind: D -/
def ReachesUnsanitized (f g : String) : Prop := p.Reaches (fun m => ¬p.At sanitizes m) f g

theorem ReachesUnsanitized.reaches {p : Program} {f g : String} (h : p.ReachesUnsanitized f g) :
    p.Reaches (fun _ => True) f g := by
  obtain ⟨m, n, hm, hn, hsource, hsink, hway⟩ := h
  exact ⟨m, n, hm, hn, hsource, hsink, hway.mono fun _ _ => trivial⟩

end Program

/-- The paths of a graph are sound for a program. Kind: D -/
structure SoundAcross (p : Program) (itg : InterproceduralTaintGraph) : Prop where
  vulnerable : ∀ f g, p.ReachesUnsanitized f g → ∃ path ∈ itg.vulnerablePaths, path.sourceFunc = f ∧ path.sinkFunc = g
  safe : ∀ path ∈ itg.safePaths, p.Reaches (fun _ => True) path.sourceFunc path.sinkFunc ∧
    ¬p.ReachesUnsanitized path.sourceFunc path.sinkFunc
  called : ∀ path ∈ itg.vulnerablePaths ++ itg.safePaths, TransGen p.Calls path.sourceFunc path.sinkFunc

/-! ## What the analysis reads -/

section reads

variable (engine : InterproceduralTaintEngine) (p : Program)

/-- The name of `g` stands somewhere in a label of `f`. Kind: D -/
def Program.Names (f g : String) : Prop :=
  ∃ tg, p.taintGraphs.get? f = some tg ∧ ∃ label ∈ labelsToCheck f tg p.dfgMap, inStr g label = true

/-- Something sanitizes in `g`; without a data flow graph it is an older summary that says so. Kind: D -/
def Guarded (g : String) : Prop :=
  (g ∈ p.dfgMap.keys ∧ ∃ id, p.At sanitizes ⟨g, id⟩) ∨
    (g ∉ p.dfgMap.keys ∧ ∃ s, engine.cache.get g = some s ∧ s.containsSanitizer = true)

/-- There is a sink in `g`, or an older summary says so. Kind: D -/
def Sinks (g : String) : Prop :=
  (∃ id, p.At (·.isSink) ⟨g, id⟩) ∨
    (g ∉ p.dfgMap.keys ∧ ∃ s, engine.cache.get g = some s ∧ s.containsSink = true)

/-- A function with a source names another one with a sink. Kind: D -/
structure Candidate (f g : String) : Prop where
  other : f ≠ g
  known : g ∈ p.taintGraphs.keys
  source : ∃ id, p.At taints ⟨f, id⟩
  names : p.Names f g
  sink : Sinks engine p g

variable {p}

theorem inStr_of_call {g label : String} (h : inStr (g ++ "(") label = true) : inStr g label = true := by
  grind [inStr, hasSub_iff, String.toList_append, List.prefix_append]

/-- The second test adds nothing to the first. Source: `analysis/interprocedural/engine.py`. Kind: L -/
theorem namedIn_iff {g label : String} : namedIn g label = true ↔ inStr g label = true := by
  simp_all [namedIn, inStr_of_call]

/-- A function has a node of a kind. Kind: L -/
theorem any_iff {kind : TaintNode → Bool} {g : String} {tg : TaintGraph} (hg : p.taintGraphs.get? g = some tg) :
    tg.nodes.values.any kind = true ↔ ∃ id, p.At kind ⟨g, id⟩ := by
  have hnode : ∀ id, p.node? ⟨g, id⟩ = tg.nodes.get? id := by
    intro id
    simp [Program.node?, hg]
  rw [List.any_eq_true]
  constructor
  · rintro ⟨node, hmem, hkind⟩
    obtain ⟨id, hid⟩ := Dict.mem_values.mp hmem
    exact ⟨id, node, (hnode id).trans hid, hkind⟩
  · rintro ⟨id, node, hid, hkind⟩
    exact ⟨node, Dict.mem_values.mpr ⟨id, (hnode id).symm.trans hid⟩, hkind⟩

/-- What the summary that is read for `g` says. Kind: L -/
theorem known_iff (kind : TaintNode → Bool) {flag : FunctionSummary → Bool}
    (hflag : ∀ tg dfg, flag (buildSummary tg dfg) = tg.nodes.values.any kind) {g : String} (hg : g ∈ p.taintGraphs.keys) :
    ((summaryOf engine p.taintGraphs p.dfgMap g).map flag).getD false = true ↔
      (g ∈ p.dfgMap.keys ∧ ∃ id, p.At kind ⟨g, id⟩) ∨
        (g ∉ p.dfgMap.keys ∧ ∃ s, engine.cache.get g = some s ∧ flag s = true) := by
  obtain ⟨tg, htg⟩ := Option.isSome_iff_exists.mp (Dict.get?_isSome.mpr hg)
  by_cases hdfg : g ∈ p.dfgMap.keys
  · grind [Option.isSome_iff_exists, Dict.get?_isSome, summaryOf, any_iff]
  · have hnone := Dict.get?_eq_none.mpr hdfg
    cases hold : engine.cache.get g with
    | none => simp [summaryOf, htg, hnone, hdfg, hold]
    | some s => simp [summaryOf, htg, hnone, hdfg, hold]

theorem sanitizerKnown_iff {g : String} (hg : g ∈ p.taintGraphs.keys) :
    sanitizerKnown (summarized engine p.taintGraphs p.dfgMap).cache g = true ↔ Guarded engine p g := by
  rw [sanitizerKnown, get_summarized engine _ _ p.named]
  exact known_iff engine sanitizes (fun _ _ => rfl) hg

theorem sinkKnown_iff {target : String × TaintGraph} (htarget : target ∈ p.taintGraphs.entries) :
    sinkKnown (summarized engine p.taintGraphs p.dfgMap).cache target = true ↔ Sinks engine p target.1 := by
  have hget := Dict.mem_entries.mp htarget
  have hmem : target.1 ∈ p.taintGraphs.keys := Dict.get?_isSome.mp (Option.isSome_iff_exists.mpr ⟨_, hget⟩)
  rw [sinkKnown, get_summarized engine _ _ p.named, Bool.or_eq_true, any_iff hget,
    known_iff engine (·.isSink) (fun _ _ => rfl) hmem, Sinks]
  constructor
  · grind
  · grind

/-- The paths, by the functions they join. Source: `analysis/interprocedural/engine.py`, `_trace_function_calls`. Kind: L -/
theorem mem_allPaths {path : InterproceduralTaintPath} (h : path ∈ allPaths engine p.taintGraphs p.dfgMap) :
    Candidate engine p path.sourceFunc path.sinkFunc ∧ (path.isVulnerable = false ↔ Guarded engine p path.sinkFunc) := by
  obtain ⟨fn, hfn, hpath⟩ := List.mem_flatMap.mp h
  have hget := Dict.mem_entries.mp hfn
  unfold pathsFrom at hpath
  by_cases hsource : fn.2.nodes.values.any taints = true
  · rw [if_pos hsource] at hpath
    obtain ⟨label, hlabel, htargets⟩ := List.mem_flatMap.mp hpath
    obtain ⟨target, htarget, hone⟩ := List.mem_flatMap.mp htargets
    have hmem : target.1 ∈ p.taintGraphs.keys :=
      Dict.get?_isSome.mp (Option.isSome_iff_exists.mpr ⟨_, Dict.mem_entries.mp htarget⟩)
    rw [pathsTo, List.mem_ite_nil_right, List.mem_singleton] at hone
    obtain ⟨⟨hother, hnamed, hknown⟩, rfl⟩ := hone
    refine ⟨⟨Ne.symm hother, hmem, (any_iff hget).mp hsource, ⟨fn.2, hget, label, hlabel, namedIn_iff.mp hnamed⟩,
      (sinkKnown_iff engine htarget).mp hknown⟩, ?_⟩
    exact Iff.trans (by simp [pathTo]) (sanitizerKnown_iff engine hmem)
  · simp [hsource] at hpath

/-- Every candidate has a path. Source: `analysis/interprocedural/engine.py`, `_trace_function_calls`. Kind: L -/
theorem exists_mem_allPaths {f g : String} (h : Candidate engine p f g) :
    ∃ path ∈ allPaths engine p.taintGraphs p.dfgMap, path.sourceFunc = f ∧ path.sinkFunc = g := by
  obtain ⟨tg, hf, label, hlabel, hname⟩ := h.names
  obtain ⟨target, htarget⟩ := Option.isSome_iff_exists.mp (Dict.get?_isSome.mpr h.known)
  have hsource : tg.nodes.values.any taints = true := (any_iff hf).mpr h.source
  have hknown := (sinkKnown_iff engine (Dict.mem_entries.mpr htarget)).mpr h.sink
  refine ⟨pathTo (summarized engine p.taintGraphs p.dfgMap).cache f (tg.nodes.values.filter taints) (g, target), ?_, rfl, rfl⟩
  refine List.mem_flatMap.mpr ⟨(f, tg), Dict.mem_entries.mpr hf, ?_⟩
  rw [pathsFrom, if_pos hsource]
  refine List.mem_flatMap.mpr ⟨label, hlabel, List.mem_flatMap.mpr ⟨(g, target), Dict.mem_entries.mpr htarget, ?_⟩⟩
  rw [pathsTo, if_pos ⟨h.other.symm, namedIn_iff.mpr hname, hknown⟩]
  exact List.mem_singleton_self _

end reads

/-! ## Soundness -/

section sound

variable (engine : InterproceduralTaintEngine) (p : Program)

/-- The vulnerable pairs. Source: `analysis/interprocedural/engine.py`, `analyze_program`. Kind: L -/
theorem exists_vulnerablePath_iff {f g : String} :
    (∃ path ∈ (engine.analyzeProgram p.taintGraphs p.dfgMap).1.vulnerablePaths, path.sourceFunc = f ∧ path.sinkFunc = g) ↔
      Candidate engine p f g ∧ ¬Guarded engine p g := by
  constructor
  · grind [mem_vulnerablePaths, mem_allPaths]
  · rintro ⟨hcandidate, hfree⟩
    obtain ⟨path, hmem, rfl, rfl⟩ := exists_mem_allPaths engine hcandidate
    have hvulnerable : path.isVulnerable = true := by
      rw [← Bool.not_eq_false]
      exact fun h => hfree ((mem_allPaths engine hmem).2.mp h)
    exact ⟨path, (mem_vulnerablePaths ..).mpr ⟨hmem, hvulnerable⟩, rfl, rfl⟩

/-- The safe pairs. Source: `analysis/interprocedural/engine.py`, `analyze_program`. Kind: L -/
theorem exists_safePath_iff {f g : String} :
    (∃ path ∈ (engine.analyzeProgram p.taintGraphs p.dfgMap).1.safePaths, path.sourceFunc = f ∧ path.sinkFunc = g) ↔
      Candidate engine p f g ∧ Guarded engine p g := by
  constructor
  · grind [mem_safePaths, mem_allPaths]
  · grind [exists_mem_allPaths, mem_safePaths, mem_allPaths]

/-- A flow into a function that is named makes it a candidate. Kind: L -/
theorem candidate_of_reaches {p : Program} {f g : String} (h : p.Reaches (fun _ => True) f g) (hother : f ≠ g)
    (hnames : p.Names f g) : Candidate engine p f g := by
  obtain ⟨m, n, rfl, rfl, hsource, hsink, -⟩ := h
  refine ⟨hother, ?_, ⟨m.id, hsource⟩, hnames, Or.inl ⟨n.id, hsink⟩⟩
  obtain ⟨node, hnode, -⟩ := hsink
  obtain ⟨tg, htg, -⟩ := Option.bind_eq_some_iff.mp hnode
  exact Dict.get?_isSome.mp (Option.isSome_iff_exists.mpr ⟨tg, htg⟩)

/-- The flags and the labels tell what the values do. Kind: D -/
structure FlagsSuffice : Prop where
  /-- An unsanitized flow goes into another function that is named in the first and in which nothing sanitizes. -/
  flow : ∀ f g, p.ReachesUnsanitized f g → f ≠ g ∧ p.Names f g ∧ ¬Guarded engine p g
  /-- A chain of calls leads to a function that is named, and something flows into one in which something sanitizes. -/
  named : ∀ f g, Candidate engine p f g → TransGen p.Calls f g ∧ (Guarded engine p g → p.Reaches (fun _ => True) f g)

/-- Source: `analysis/interprocedural/engine.py`, `analyze_program`. Kind: T -/
theorem soundAcross_iff :
    SoundAcross p (engine.analyzeProgram p.taintGraphs p.dfgMap).1 ↔ FlagsSuffice engine p := by
  constructor
  · intro h
    refine ⟨fun f g hreach => ?_, fun f g hcandidate => ?_⟩
    · obtain ⟨hcandidate, hfree⟩ := (exists_vulnerablePath_iff engine p).mp (h.vulnerable f g hreach)
      exact ⟨hcandidate.other, hcandidate.names, hfree⟩
    · by_cases hguarded : Guarded engine p g
      · obtain ⟨path, hpath, rfl, rfl⟩ := (exists_safePath_iff engine p).mpr ⟨hcandidate, hguarded⟩
        exact ⟨h.called path (List.mem_append_right _ hpath), fun _ => (h.safe path hpath).1⟩
      · obtain ⟨path, hpath, rfl, rfl⟩ := (exists_vulnerablePath_iff engine p).mpr ⟨hcandidate, hguarded⟩
        exact ⟨h.called path (List.mem_append_left _ hpath), fun hg => absurd hg hguarded⟩
  · intro h
    refine ⟨fun f g hreach => ?_, fun path hpath => ?_, fun path hpath => ?_⟩
    · obtain ⟨hother, hnames, hfree⟩ := h.flow f g hreach
      exact (exists_vulnerablePath_iff engine p).mpr ⟨candidate_of_reaches engine hreach.reaches hother hnames, hfree⟩
    · obtain ⟨hcandidate, hguarded⟩ := (exists_safePath_iff engine p).mp ⟨path, hpath, rfl, rfl⟩
      exact ⟨(h.named _ _ hcandidate).2 hguarded, fun hreach => (h.flow _ _ hreach).2.2 hguarded⟩
    · rcases List.mem_append.mp hpath with hpath | hpath
      · exact (h.named _ _ ((exists_vulnerablePath_iff engine p).mp ⟨path, hpath, rfl, rfl⟩).1).1
      · exact (h.named _ _ ((exists_safePath_iff engine p).mp ⟨path, hpath, rfl, rfl⟩).1).1

end sound

/-! ## A value handed on twice -/

/-- `main` hands what it reads to `relay`, which hands it to `query`. Kind: D -/
def relayedGraphs : Dict String TaintGraph := Dict.ofList
  [("main",
    { functionName := "main"
      nodes := Dict.ofList
        [("main::2", { id := "main::2", varName := "user", state := .tainted, isSource := true, label := "user = request.args" }),
          ("main::3", { id := "main::3", varName := "user", state := .tainted, lineNumber := 3, label := "relay(user)" })]
      edges := [{ sourceId := "main::2", targetId := "main::3" }] }),
    ("relay",
      { functionName := "relay"
        nodes := Dict.ofList
          [("relay::6", { id := "relay::6", varName := "value", lineNumber := 6, label := "query(value)" })] }),
    ("query",
      { functionName := "query"
        nodes := Dict.ofList
          [("query::9", { id := "query::9", varName := "sql", lineNumber := 9, isSink := true, label := "execute(sql)" })] })]

/-- The data flow of `main`, `relay` and `query`. Kind: D -/
def relayedFlows : Dict String DataFlowGraph := Dict.ofList
  [("main",
    { functionName := "main"
      nodes := Dict.ofList
        [("def::2", { id := "def::2", statementId := "main::2", lineNumber := 2, label := "user = request.args" }),
          ("use::3", { id := "use::3", statementId := "main::3", lineNumber := 3, label := "relay(user)" })] }),
    ("relay", { functionName := "relay" }), ("query", { functionName := "query" })]

/-- The calls of `relayed`. Kind: D -/
inductive RelayedCalls : String → String → Prop
  | relay : RelayedCalls "main" "relay"
  | query : RelayedCalls "relay" "query"

/-- The values that are passed in `relayed`. Kind: D -/
inductive RelayedPasses : Place → Place → Prop
  | user : RelayedPasses ⟨"main", "main::3"⟩ ⟨"relay", "relay::6"⟩
  | value : RelayedPasses ⟨"relay", "relay::6"⟩ ⟨"query", "query::9"⟩

theorem relayed_named : ∀ fn ∈ relayedGraphs.entries, fn.2.functionName = fn.1 := by
  decide +kernel

theorem relayed_labelled (f g : String) (tg : TaintGraph) (hcall : RelayedCalls f g) (hf : relayedGraphs.get? f = some tg) :
    ∃ label ∈ labelsToCheck f tg relayedFlows, inStr (g ++ "(") label = true := by
  have hlabel : (relayedGraphs.get? f).all (fun tg => (labelsToCheck f tg relayedFlows).any (inStr (g ++ "("))) = true := by
    cases hcall with
    | relay => decide +kernel
    | query => decide +kernel
  rw [hf] at hlabel
  exact List.any_eq_true.mp hlabel

theorem relayed_calls (m n : Place) (h : RelayedPasses m n) : RelayedCalls m.fn n.fn := by
  cases h with
  | user => exact .relay
  | value => exact .query

/-- Kind: D -/
def relayed : Program where
  taintGraphs := relayedGraphs
  dfgMap := relayedFlows
  Calls := RelayedCalls
  Passes := RelayedPasses
  named := relayed_named
  labelled := relayed_labelled
  passes_calls := relayed_calls

/-- The engine looks one call deep: what reaches `query` through `relay` is not reported.
Source: `analysis/interprocedural/engine.py`, `_trace_function_calls`. Kind: T -/
theorem relayed_value_missed : relayed.ReachesUnsanitized "main" "query" ∧
    (∀ path ∈ (InterproceduralTaintEngine.analyzeProgram {} relayed.taintGraphs relayed.dfgMap).1.vulnerablePaths,
      ¬(path.sourceFunc = "main" ∧ path.sinkFunc = "query")) ∧
    ¬SoundAcross relayed (InterproceduralTaintEngine.analyzeProgram {} relayed.taintGraphs relayed.dfgMap).1 := by
  have hclean : ∀ m ∈ [(⟨"main", "main::2"⟩ : Place), ⟨"main", "main::3"⟩, ⟨"relay", "relay::6"⟩, ⟨"query", "query::9"⟩],
      ¬relayed.At sanitizes m := by
    simp only [Program.at_iff]
    decide +kernel
  have hassign : Via (fun m => ¬relayed.At sanitizes m) relayed.Step ⟨"main", "main::2"⟩ ⟨"main", "main::3"⟩ :=
    ⟨hclean _ (by simp), .edge (e := { sourceId := "main::2", targetId := "main::3" }) rfl (.head _), hclean _ (by simp)⟩
  have hfirst : Via (fun m => ¬relayed.At sanitizes m) relayed.Passes ⟨"main", "main::3"⟩ ⟨"relay", "relay::6"⟩ :=
    ⟨hclean _ (by simp), .user, hclean _ (by simp)⟩
  have hsecond : Via (fun m => ¬relayed.At sanitizes m) relayed.Step ⟨"relay", "relay::6"⟩ ⟨"query", "query::9"⟩ :=
    ⟨hclean _ (by simp), .pass .value, hclean _ (by simp)⟩
  have hsource : relayed.At taints ⟨"main", "main::2"⟩ := relayed.at_iff.mpr (by decide +kernel)
  have hsink : relayed.At (·.isSink) ⟨"query", "query::9"⟩ := relayed.at_iff.mpr (by decide +kernel)
  have hreach : relayed.ReachesUnsanitized "main" "query" :=
    ⟨_, _, rfl, rfl, hsource, hsink, _, _, .single hassign, hfirst, .single hsecond⟩
  have hnone : (InterproceduralTaintEngine.analyzeProgram {} relayedGraphs relayedFlows).1.vulnerablePaths.length = 0 := by
    decide +kernel
  rw [List.length_eq_zero_iff] at hnone
  have hmissed : ∀ path ∈ (InterproceduralTaintEngine.analyzeProgram {} relayedGraphs relayedFlows).1.vulnerablePaths,
      ¬(path.sourceFunc = "main" ∧ path.sinkFunc = "query") := fun path hpath =>
    absurd (hnone ▸ hpath) List.not_mem_nil
  refine ⟨hreach, hmissed, fun h => ?_⟩
  obtain ⟨path, hpath, hfuncs⟩ := h.vulnerable "main" "query" hreach
  exact hmissed path hpath hfuncs

end KarsaSec.Interprocedural
