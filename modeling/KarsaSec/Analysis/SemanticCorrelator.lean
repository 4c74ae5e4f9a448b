import KarsaSec.Found.Json
import KarsaSec.Found.Sorting
import KarsaSec.Query.TraversalEngine
import Mathlib.Data.Prod.Lex
import Mathlib.Data.Rat.Defs
import Mathlib.Data.String.Basic

/-!
# Flows from sources to sinks

`SemanticCorrelator.correlate` pairs the sources with the sinks they can reach, and gives each pair a status.

* `analyzeNode` and `isValidBarrierForSink` say which nodes are barriers.
* `pairFlow` is the flow of one pair: the first of the shortest paths between its nodes is inspected, and no other.
* `get?_correlate`: the flows that correlation adds to a store, the first one under each identifier.
* `correlate_blocked_iff`: a pair is blocked though a path without a barrier leads to the sink exactly where `Hidden` holds, that
  is where the path that is inspected has a barrier and another one has none.
-/

namespace KarsaSec.Analysis

open KarsaSec.Found KarsaSec.Query

/-! ## Facts -/

/-- Source: `semantic_fact.py`, `SemanticFact`. Kind: D -/
structure SemanticFact where
  factId : String
  kind : String
  semanticRole : String
  nodeId : Option String := none
  sourceKind : Option String := none
  sinkCategory : Option String := none

/-- The facts by their identifiers. Source: `semantic_fact.py`, `_facts`, `add_fact`. Kind: D -/
structure SemanticFactStore where
  facts : Dict String SemanticFact
  keyed : ∀ factId fact, facts.get? factId = some fact → fact.factId = factId

namespace SemanticFactStore

variable (store : SemanticFactStore)

/-- Source: `semantic_fact.py`, `all_facts`. Kind: D -/
def allFacts : List SemanticFact := sortBy SemanticFact.factId store.facts.values

variable {store}

theorem eq_of_factId {a b : SemanticFact} (ha : a ∈ store.allFacts) (hb : b ∈ store.allFacts) (h : a.factId = b.factId) :
    a = b := by
  have hget : ∀ {fact : SemanticFact}, fact ∈ store.allFacts → store.facts.get? fact.factId = some fact := fun {fact} hmem => by
    obtain ⟨factId, hfact⟩ := Dict.mem_values.mp ((sortBy_perm _ _).mem_iff.mp hmem)
    rwa [store.keyed factId fact hfact]
  have hsame := hget ha
  rw [h, hget hb] at hsame
  exact (Option.some.inj hsame).symm

end SemanticFactStore

/-! ## Flows -/

/-- Source: `semantic_flow.py`, `FlowStatus`. Kind: D -/
inductive FlowStatus
  | unknown
  | candidate
  | blocked
  | correlated
  deriving DecidableEq

/-- Confidences stand for decimals. Source: `semantic_flow.py`, `SemanticFlow`. Kind: D -/
structure SemanticFlow where
  flowId : String
  sourceFactId : String
  sinkFactId : String
  sourceNodeId : String
  sinkNodeId : String
  pathNodeIds : List String
  callContext : List (String × String × String)
  ssaChain : List (String × String)
  sanitizerNodes : List String
  confidence : ℚ
  status : FlowStatus
  schemaVersion : String := "1.0"

/-- The flows by their identifiers. Source: `semantic_flow_store.py`, `_flows`. Kind: D -/
abbrev SemanticFlowStore := Dict String SemanticFlow

/-- Source: `semantic_flow_store.py`, `add`. Kind: D -/
def SemanticFlowStore.add (store : SemanticFlowStore) (flow : SemanticFlow) : SemanticFlowStore :=
  if store.contains flow.flowId then store else store.set flow.flowId flow

/-- What the correlator takes from the language, with the digest of a document.
Source: `semantic_correlator.py`, `SemanticCorrelator`
Kind: D -/
structure SemanticCorrelator (F : Type) where
  language : Query.Language F
  lower : String → String
  sha256 : Json Empty → String

/-! ## Sanitizers -/

/-- Source: `semantic_sanitizer.py`, `VALID_SANITIZERS`. Kind: D -/
def validSanitizers : List (String × List String) :=
  [("int", ["sql", "command_execution", "file_path", "code_execution", "html_render"]),
    ("float", ["sql", "command_execution", "file_path", "code_execution", "html_render"]),
    ("bool", ["sql", "command_execution", "file_path", "code_execution", "html_render"]),
    ("escape_html", ["html_render", "xss"]), ("html_escape", ["html_render", "xss"]),
    ("sanitize_sql", ["sql", "database"]), ("parameterized_sql", ["sql", "database"]),
    ("shlex_quote", ["command_execution", "shell"]), ("shlex.quote", ["command_execution", "shell"]),
    ("abspath", ["file_path", "path_traversal"]), ("basename", ["file_path", "path_traversal"])]

/-- Source: `semantic_sanitizer.py`, `FAKE_SANITIZERS`. Kind: D -/
def fakeSanitizers : List String :=
  ["str", "repr", "format", "lower", "upper", "strip", "lstrip", "rstrip", "encode", "decode", "sanitize", "clean", "safe",
    "filter"]

/-- Source: `semantic_sanitizer.py`, `SanitizerEvidence`. Kind: D -/
structure SanitizerEvidence where
  nodeId : String
  sanitizerKind : String
  inputSsa : String
  outputSsa : String
  sinkCategories : List String
  confidence : ℚ := 1

/-- A text method works on texts; on another value it raises. Kind: D -/
def asText {F : Type} : Value F → Option String
  | .str s => some s
  | _ => none

namespace SemanticCorrelator

variable {F : Type} (correlator : SemanticCorrelator F)

/-- `node.attributes.get("code", "").split("(")[0].strip()`. Source: `semantic_sanitizer.py`, `func_name`. Kind: D -/
def codeName (node : CPGNode F) : Option String :=
  (asText ((node.attributes.get? "code").getD (.str ""))).map fun code =>
    strip (String.ofList (code.toList.takeWhile (· ≠ '(')))

/-- Source: `semantic_sanitizer.py`, `func_name`. Kind: D -/
def functionName (node : CPGNode F) : Option String :=
  match firstTruthy correlator.language node ["function_name"] with
  | some v => asText v
  | none => codeName node

/-- `name.split(".")[-1]`. Kind: D -/
def lastSegment (name : String) : String := String.ofList (name.toList.reverse.takeWhile (· ≠ '.')).reverse

/-- The evidence of a node, if it is a sanitizer; a name that is no text raises.
Source: `semantic_sanitizer.py`, `analyze_node`
Kind: D -/
def analyzeNode (node : CPGNode F) : Option (Option SanitizerEvidence) :=
  (correlator.functionName node).map fun name =>
    let clean := lastSegment (correlator.lower name)
    if clean ∈ fakeSanitizers ∨ name ∈ fakeSanitizers then none
    else
      (validSanitizers.find? fun e =>
        correlator.lower e.1 = correlator.lower name ∨ correlator.lower e.1 = clean).map fun e =>
          let ssa := ((node.attributes.get? "ssa_version").map correlator.language.text).getD "v1"
          { nodeId := node.id, sanitizerKind := e.1, inputSsa := ssa, outputSsa := ssa, sinkCategories := e.2 }

/-- Source: `semantic_sanitizer.py`, `is_valid_barrier_for_sink`. Kind: D -/
def isValidBarrierForSink (sinkCategory : String) (evidence : SanitizerEvidence) : Bool :=
  sinkCategory ≠ "" && evidence.sinkCategories.any fun c =>
    inStr (correlator.lower c) (correlator.lower sinkCategory) ||
      inStr (correlator.lower sinkCategory) (correlator.lower c)

/-! ## Pairs -/

/-- Source: `semantic_correlator.py`, `sources`. Kind: D -/
def isSource (fact : SemanticFact) : Bool :=
  correlator.lower fact.semanticRole ∈ ["http_input", "source", "http_user_input"] || fact.sourceKind.getD "" ≠ "" ||
    inStr "input" (correlator.lower fact.kind)

/-- Source: `semantic_correlator.py`, `sinks`. Kind: D -/
def isSink (fact : SemanticFact) : Bool :=
  correlator.lower fact.semanticRole ∈ ["security_sink", "sink"] || fact.sinkCategory.getD "" ≠ "" ||
    inStr "sink" (correlator.lower fact.kind)

/-- The default of the mapping, and its value for every kind. Source: `semantic_correlator.py`, `allowed_sinks`. Kind: D -/
def allSinks : List String := ["sql", "command_execution", "file_path", "html_render", "code_execution"]

/-- Source: `semantic_correlator.py`, `COMPATIBLE_SOURCE_SINK_MAPPING`. Kind: D -/
def compatibleSourceSinkMapping : Dict String (List String) :=
  Dict.ofList [("http_user_input", allSinks), ("user_input", allSinks), ("http_input", allSinks), ("generic", allSinks)]

/-- Source: `semantic_correlator.py`, `snk_cat`. Kind: D -/
def categoryOf (snk : SemanticFact) : String := orDefault snk.sinkCategory "sql"

/-- Source: `semantic_correlator.py`, "Candidate pairing". Kind: D -/
def compatible (src snk : SemanticFact) : Bool :=
  let allowed := compatibleSourceSinkMapping.getD (correlator.lower (orDefault src.sourceKind "http_user_input")) allSinks
  let category := correlator.lower (categoryOf snk)
  allowed.any (fun c => inStr c category) || allowed.any fun c => inStr category c

/-- Source: `semantic_correlator.py`, `candidate_pairs`. Kind: D -/
def candidatePairs (facts : SemanticFactStore) : List (SemanticFact × SemanticFact) :=
  let sources := sortBy SemanticFact.factId (facts.allFacts.filter correlator.isSource)
  let sinks := sortBy SemanticFact.factId (facts.allFacts.filter correlator.isSink)
  sortBy (fun pair => toLex (pair.1.factId, pair.2.factId))
    (sources.flatMap fun src => (sinks.filter (correlator.compatible src)).map (Prod.mk src))

/-! ## The flow of a pair -/

/-- What is hashed. Source: `semantic_flow.py`, `compute_flow_id`, `payload`. Kind: D -/
def flowDocument (sourceFactId sinkFactId : String) (pathNodeIds : List String)
    (callContext : List (String × String × String)) (ssaChain : List (String × String)) (sanitizerNodes : List String) :
    Json Empty :=
  (Json.obj [("schema_version", .str "1.0"), ("source_fact_id", .str sourceFactId),
    ("sink_fact_id", .str sinkFactId), ("path_node_ids", .arr (pathNodeIds.map .str)),
    ("call_context", .arr (callContext.map fun c => .arr [.str c.1, .str c.2.1, .str c.2.2])),
    ("ssa_chain", .arr (ssaChain.map fun s => .arr [.str s.1, .str s.2])),
    ("sanitizer_nodes", .arr (sanitizerNodes.map .str))]).sortKeys

/-- The digest of the flow does not read its status. Source: `semantic_flow.py`, `compute_flow_id`. Kind: D -/
def computeFlowId (sourceFactId sinkFactId : String) (pathNodeIds : List String)
    (callContext : List (String × String × String)) (ssaChain : List (String × String)) (sanitizerNodes : List String) :
    String :=
  correlator.sha256 (flowDocument sourceFactId sinkFactId pathNodeIds callContext ssaChain sanitizerNodes)

/-- Kind: D -/
def document (flow : SemanticFlow) : Json Empty :=
  flowDocument flow.sourceFactId flow.sinkFactId flow.pathNodeIds flow.callContext flow.ssaChain flow.sanitizerNodes

/-- Source: `semantic_flow.py`, `SemanticFlow.create`. Kind: D -/
def createFlow (src snk : SemanticFact) (sourceNodeId sinkNodeId : String) (confidence : ℚ) (status : FlowStatus)
    (pathNodeIds : List String := []) (callContext : List (String × String × String) := [])
    (ssaChain : List (String × String) := []) (sanitizerNodes : List String := []) : SemanticFlow where
  flowId := correlator.computeFlowId src.factId snk.factId pathNodeIds callContext ssaChain sanitizerNodes
  sourceFactId := src.factId
  sinkFactId := snk.factId
  sourceNodeId := sourceNodeId
  sinkNodeId := sinkNodeId
  pathNodeIds := pathNodeIds
  callContext := callContext
  ssaChain := ssaChain
  sanitizerNodes := sanitizerNodes
  confidence := confidence
  status := status

/-- The state of the loop over the versions: the last one, whether a transition is missing, and the chain.
Source: `semantic_correlator.py`, "SSA Chain Validation & Isolation"
Kind: D -/
structure SsaScan where
  prev : Option (String × String) := none
  hasMissingSsa : Bool := false
  chain : List (String × String) := []

/-- Source: `semantic_correlator.py`, "SSA transition check". Kind: D -/
def ssaStep (scan : SsaScan) (node : CPGNode F) : SsaScan :=
  match firstTruthy correlator.language node ["variable_name", "symbol", "name"],
      firstTruthy correlator.language node ["ssa_version", "ssa_v"] with
  | some var, some ver =>
    let version := (correlator.language.text var, correlator.language.text ver)
    let label := correlator.lower node.label
    let reassigned := scan.prev.any fun prev => prev.1 = version.1 ∧ prev.2 ≠ version.2
    { prev := some version
      hasMissingSsa := scan.hasMissingSsa || (reassigned && !inStr "assign" label && !inStr "def" label)
      chain := scan.chain ++ [version] }
  | _, _ => scan

/-- Source: `semantic_correlator.py`, `ssa_chain`, `has_missing_ssa`. Kind: D -/
def ssaScan (nodes : List (CPGNode F)) : SsaScan := nodes.foldl correlator.ssaStep {}

/-- Source: `semantic_correlator.py`, "Call-Context Binding & Isolation". Kind: D -/
def callContextOf (node : CPGNode F) : String × String × String :=
  (attributeText correlator.language node "main" ["caller"],
    attributeText correlator.language node "global" ["callee", "function_name"],
    attributeText correlator.language node s!"site_{node.id}" ["callsite"])

/-- Source: `semantic_correlator.py`, `total_conf`. Kind: D -/
def totalConf (ssaChain : List (String × String)) (callContext : List (String × String × String))
    (sanitizerNodes : List String) : ℚ :=
  3 / 5 + (if ssaChain = [] then 0 else 3 / 20) + (if callContext = [] then 0 else 3 / 20) +
    if sanitizerNodes = [] then 0 else 1 / 10

/-- The flow over a path of nodes. Source: `semantic_correlator.py`, "Sanitizer / Barrier Analysis". Kind: D -/
def flowOver (src snk : SemanticFact) (sourceId sinkId : String) (path : List String) (nodes : List (CPGNode F)) :
    Option SemanticFlow :=
  let ssa := correlator.ssaScan nodes
  let context := nodes.map correlator.callContextOf
  if ssa.hasMissingSsa then
    some (correlator.createFlow src snk sourceId sinkId (1 / 2) .unknown path context ssa.chain)
  else
    (nodes.mapM correlator.analyzeNode).map fun found =>
      let evidence := found.filterMap id
      let sanitizers := evidence.map SanitizerEvidence.nodeId
      let status := if evidence.any (correlator.isValidBarrierForSink (categoryOf snk)) then .blocked else .correlated
      correlator.createFlow src snk sourceId sinkId (totalConf ssa.chain context sanitizers) status path context ssa.chain
        sanitizers

/-- The status without a path, by the path the other way. Source: `semantic_correlator.py`, `reverse_path`. Kind: D -/
def reverseStatus (reverse : List String) : FlowStatus := if reverse = [] then .candidate else .unknown

/-- The flow of a pair; a node that is missing on the path, or a name that is no text, raises.
Source: `semantic_correlator.py`, "Analyze each candidate pair"
Kind: D -/
def pairFlow (g : CPGGraph F) (maxDepth : ℕ) (src snk : SemanticFact) : Option SemanticFlow :=
  let sourceId := src.nodeId.getD ""
  let sinkId := snk.nodeId.getD ""
  if sourceId = "" ∨ sinkId = "" then
    some (correlator.createFlow src snk (orDefault src.nodeId "unknown") (orDefault snk.nodeId "unknown") (1 / 5) .unknown)
  else if g.nodes.contains sourceId = false ∨ g.nodes.contains sinkId = false then
    some (correlator.createFlow src snk sourceId sinkId (1 / 5) .unknown)
  else
    let path := shortestPath correlator.language g sourceId sinkId [] maxDepth
    if path = [] then
      let reverse := shortestPath correlator.language g sinkId sourceId [] maxDepth
      some (correlator.createFlow src snk sourceId sinkId (2 / 5) (reverseStatus reverse))
    else (path.mapM g.nodes.get?).bind (correlator.flowOver src snk sourceId sinkId path)

/-- Source: `semantic_correlator.py`, `correlate`. Kind: D -/
def correlate (graph : Option (CPGGraph F)) (facts : SemanticFactStore) (flowStore : SemanticFlowStore := Dict.empty)
    (maxDepth : ℤ := 10) : Option SemanticFlowStore :=
  match graph with
  | none => some flowStore
  | some g =>
    if maxDepth < 0 then some flowStore
    else
      (correlator.candidatePairs facts).foldlM
        (fun store pair => (correlator.pairFlow g maxDepth.toNat pair.1 pair.2).map store.add) flowStore

/-! ## Paths and barriers -/

variable (g : CPGGraph F)

/-- A node of the graph that is a valid barrier for the category. Kind: D -/
def isBarrier (sinkCategory nodeId : String) : Bool :=
  match (g.nodes.get? nodeId).bind correlator.analyzeNode with
  | some (some evidence) => correlator.isValidBarrierForSink sinkCategory evidence
  | _ => false

/-- Whether a path lacks a transition between versions. Kind: D -/
def lacksSsa (path : List String) : Bool := (correlator.ssaScan (path.filterMap g.nodes.get?)).hasMissingSsa

/-- A path of nodes of the graph, with a bound on its edges; an empty id is no node's. Kind: D -/
structure IsPath (g : CPGGraph F) (sourceId sinkId : String) (maxDepth : ℕ) (path : List String) : Prop where
  named : sourceId ≠ "" ∧ sinkId ≠ ""
  walk : IsWalk (successors g []) sourceId sinkId path
  short : path.length ≤ maxDepth + 1
  present : ∀ nodeId ∈ path, g.nodes.contains nodeId = true

variable (maxDepth : ℕ) (src snk : SemanticFact)

/-- The first of the shortest walks from the source to the sink, in the order of the edges. Kind: D -/
def firstPath : Option (List String) :=
  firstWalk (successors g []) (src.nodeId.getD "") (snk.nodeId.getD "") maxDepth

/-- Every path from the source to the sink has a barrier. Kind: D -/
def AllBarred : Prop :=
  ∀ path, IsPath g (src.nodeId.getD "") (snk.nodeId.getD "") maxDepth path →
    path.any (correlator.isBarrier g (categoryOf snk)) = true

/-- The first of the shortest paths has a barrier and all its transitions, and some path has no barrier. Kind: D -/
def Hidden : Prop :=
  (∃ path ∈ firstPath g maxDepth src snk,
    path.any (correlator.isBarrier g (categoryOf snk)) = true ∧ correlator.lacksSsa g path = false) ∧
  ¬correlator.AllBarred g maxDepth src snk

/-- The first of the shortest paths has no barrier and all its transitions. Kind: D -/
def OpenAtFirst : Prop :=
  ∃ path ∈ firstPath g maxDepth src snk,
    path.any (correlator.isBarrier g (categoryOf snk)) = false ∧ correlator.lacksSsa g path = false

variable {correlator} {g} {maxDepth} {src snk} {sourceId sinkId : String} {path : List String}
  {nodes : List (CPGNode F)} {flow : SemanticFlow}

theorem filterMap_of_mapM {α β : Type} {f : α → Option β} : ∀ {l : List α} {l' : List β}, l.mapM f = some l' →
    l.filterMap f = l'
  | [], l', h => by
    rw [List.mapM_nil] at h
    exact Option.some.inj h
  | a :: l, l', h => by
    rw [List.mapM_cons] at h
    obtain ⟨b, hb, h⟩ := Option.bind_eq_some_iff.mp h
    obtain ⟨bs, hbs, h⟩ := Option.bind_eq_some_iff.mp h
    rw [List.filterMap_cons_some hb, filterMap_of_mapM hbs]
    exact Option.some.inj h

/-- The loop over the path finds a barrier where there is one. Kind: L -/
theorem any_isBarrier (category : String) : ∀ {path : List String} {nodes : List (CPGNode F)}
    {found : List (Option SanitizerEvidence)}, path.mapM g.nodes.get? = some nodes →
    nodes.mapM correlator.analyzeNode = some found →
    (found.filterMap id).any (correlator.isValidBarrierForSink category) = path.any (correlator.isBarrier g category)
  | [], nodes, found, hnodes, hfound => by
    rw [List.mapM_nil] at hnodes
    obtain rfl := Option.some.inj hnodes
    rw [List.mapM_nil] at hfound
    obtain rfl := Option.some.inj hfound
    rfl
  | nodeId :: path, nodes, found, hnodes, hfound => by
    rw [List.mapM_cons] at hnodes
    obtain ⟨node, hnode, hnodes⟩ := Option.bind_eq_some_iff.mp hnodes
    obtain ⟨rest, hrest, hnodes⟩ := Option.bind_eq_some_iff.mp hnodes
    obtain rfl := Option.some.inj hnodes
    rw [List.mapM_cons] at hfound
    obtain ⟨evidence, hevidence, hfound⟩ := Option.bind_eq_some_iff.mp hfound
    obtain ⟨more, hmore, hfound⟩ := Option.bind_eq_some_iff.mp hfound
    obtain rfl := Option.some.inj hfound
    have hbarrier : correlator.isBarrier g category nodeId =
        evidence.any (correlator.isValidBarrierForSink category) := by
      unfold isBarrier
      rw [hnode, Option.bind_some, hevidence]
      cases evidence <;> rfl
    rw [List.any_cons, hbarrier, ← any_isBarrier category hrest hmore]
    cases evidence <;> rfl

/-- What the inspection of a path says. Kind: L -/
theorem status_flowOver (hnodes : path.mapM g.nodes.get? = some nodes)
    (h : correlator.flowOver src snk sourceId sinkId path nodes = some flow) :
    flow.status = if correlator.lacksSsa g path then .unknown
      else if path.any (correlator.isBarrier g (categoryOf snk)) then .blocked else .correlated := by
  unfold flowOver at h
  dsimp only at h
  unfold lacksSsa
  rw [filterMap_of_mapM hnodes]
  split_ifs at h with hmissing
  · rw [if_pos hmissing, ← Option.some.inj h]
    rfl
  · obtain ⟨found, hfound, hflow⟩ := Option.map_eq_some_iff.mp h
    rw [if_neg hmissing, ← any_isBarrier (categoryOf snk) hnodes hfound, ← hflow]
    rfl

/-- Source and sink are nodes of the graph. Kind: D -/
def Present (g : CPGGraph F) (src snk : SemanticFact) : Prop :=
  (src.nodeId.getD "" ≠ "" ∧ snk.nodeId.getD "" ≠ "") ∧
    g.nodes.contains (src.nodeId.getD "") = true ∧ g.nodes.contains (snk.nodeId.getD "") = true

/-- One path is inspected, if there is one, and a pair without one is neither blocked nor correlated. Kind: P -/
theorem status_pairFlow (h : correlator.pairFlow g maxDepth src snk = some flow) :
    (∃ path ∈ firstPath g maxDepth src snk, Present g src snk ∧
      flow.status = if correlator.lacksSsa g path then .unknown
        else if path.any (correlator.isBarrier g (categoryOf snk)) then .blocked else .correlated) ∨
    ((Present g src snk → firstPath g maxDepth src snk = none) ∧ flow.status ≠ .blocked ∧ flow.status ≠ .correlated) := by
  unfold pairFlow at h
  dsimp only at h
  split_ifs at h with hunnamed habsent hnone
  · right
    rw [← Option.some.inj h]
    exact ⟨fun hp => (hunnamed.elim hp.1.1 hp.1.2).elim, FlowStatus.noConfusion, FlowStatus.noConfusion⟩
  · right
    rw [← Option.some.inj h]
    refine ⟨fun hp => ?_, FlowStatus.noConfusion, FlowStatus.noConfusion⟩
    rw [hp.2.1, hp.2.2] at habsent
    exact absurd habsent (by decide)
  all_goals
    obtain ⟨hsource, hsink⟩ := not_or.mp habsent
    rw [Bool.not_eq_false] at hsource hsink
    have hpath := @shortestPath_eq F correlator.language g _ _ [] maxDepth hsource hsink
  · right
    rw [← Option.some.inj h]
    refine ⟨fun _ => ?_, ?_, ?_⟩
    · rw [hpath] at hnone
      unfold firstPath
      rcases hfirst : firstWalk (successors g []) (src.nodeId.getD "") (snk.nodeId.getD "") maxDepth with _ | path
      · rfl
      · rw [hfirst, Option.getD_some] at hnone
        exact absurd hnone (isWalk_of_firstWalk hfirst).1.ne_nil
    all_goals
      unfold createFlow reverseStatus
      dsimp only
      split_ifs <;> exact FlowStatus.noConfusion
  · left
    obtain ⟨nodes, hnodes, hflow⟩ := Option.bind_eq_some_iff.mp h
    rw [hpath] at hnone
    rcases hfirst : firstWalk (successors g []) (src.nodeId.getD "") (snk.nodeId.getD "") maxDepth with _ | path
    · rw [hfirst] at hnone
      exact absurd rfl hnone
    · rw [hpath, hfirst, Option.getD_some] at hnodes hflow
      exact ⟨path, hfirst, ⟨not_or.mp hunnamed, hsource, hsink⟩, status_flowOver hnodes hflow⟩

/-- A path without a barrier starts and ends in the graph, and there is a first path. Kind: L -/
theorem present_of_not_allBarred (h : ¬correlator.AllBarred g maxDepth src snk) :
    Present g src snk ∧ ∃ path, firstPath g maxDepth src snk = some path := by
  unfold AllBarred at h
  push Not at h
  obtain ⟨path, hpath, _⟩ := h
  refine ⟨⟨hpath.named, hpath.present _ ?_, hpath.present _ ?_⟩, ?_⟩
  · exact List.mem_of_head? hpath.walk.head
  · exact List.mem_of_getLast? hpath.walk.last
  · rcases hfirst : firstPath g maxDepth src snk with _ | first
    · have hlong := firstWalk_eq_none_iff.mp hfirst path hpath.walk
      exact absurd hpath.short (Nat.not_le.mpr hlong)
    · exact ⟨first, rfl⟩

/-- The status of a pair with a path that has no barrier. Kind: L -/
theorem status_of_not_allBarred (h : correlator.pairFlow g maxDepth src snk = some flow)
    (hopen : ¬correlator.AllBarred g maxDepth src snk) {path : List String} (hfirst : firstPath g maxDepth src snk = some path) :
    flow.status = if correlator.lacksSsa g path then .unknown
      else if path.any (correlator.isBarrier g (categoryOf snk)) then .blocked else .correlated := by
  rcases status_pairFlow h with ⟨path', hfirst', _, hstatus⟩ | ⟨hnone, _⟩
  · simp_all
  · grind [present_of_not_allBarred]

/-- A pair is blocked only where every path is barred, unless the first path hides another. Kind: P -/
theorem blocked_only_if_allBarred_iff (h : correlator.pairFlow g maxDepth src snk = some flow) :
    (flow.status = .blocked → correlator.AllBarred g maxDepth src snk) ↔ ¬correlator.Hidden g maxDepth src snk := by
  constructor
  · rintro hblocked ⟨⟨path, hfirst, hbarred, hssa⟩, hopen⟩
    have hstatus := status_of_not_allBarred h hopen hfirst
    rw [hssa, if_neg Bool.false_ne_true, if_pos hbarred] at hstatus
    exact hopen (hblocked hstatus)
  · intro hnot hblocked
    by_contra hopen
    obtain ⟨path, hfirst⟩ := (present_of_not_allBarred hopen).2
    have hstatus := status_of_not_allBarred h hopen hfirst
    rw [hblocked] at hstatus
    split_ifs at hstatus with hssa hbarred
    exact hnot ⟨⟨path, hfirst, hbarred, Bool.not_eq_true _ ▸ hssa⟩, hopen⟩

/-- A pair with a path that has no barrier is correlated only where the first path has none. Kind: P -/
theorem correlated_of_open_iff (h : correlator.pairFlow g maxDepth src snk = some flow) :
    (¬correlator.AllBarred g maxDepth src snk → flow.status = .correlated) ↔
      correlator.AllBarred g maxDepth src snk ∨ correlator.OpenAtFirst g maxDepth src snk := by
  constructor
  · intro hcorrelated
    by_cases hbarred : correlator.AllBarred g maxDepth src snk
    · exact .inl hbarred
    right
    obtain ⟨path, hfirst⟩ := (present_of_not_allBarred hbarred).2
    have hstatus := status_of_not_allBarred h hbarred hfirst
    rw [hcorrelated hbarred] at hstatus
    split_ifs at hstatus with hssa hany
    exact ⟨path, hfirst, Bool.not_eq_true _ ▸ hany, Bool.not_eq_true _ ▸ hssa⟩
  · rintro (hbarred | ⟨path, hfirst, hany, hssa⟩) hopen
    · exact absurd hbarred hopen
    · have hstatus := status_of_not_allBarred h hopen hfirst
      rw [hssa, hany, if_neg Bool.false_ne_true, if_neg Bool.false_ne_true] at hstatus
      exact hstatus

/-! ## The flows of a store -/

/-- A flow names the facts of its pair. Kind: L -/
theorem facts_pairFlow (h : correlator.pairFlow g maxDepth src snk = some flow) :
    flow.sourceFactId = src.factId ∧ flow.sinkFactId = snk.factId ∧ flow.flowId = correlator.sha256 (document flow) := by
  unfold pairFlow at h
  dsimp only at h
  split_ifs at h
  · exact Option.some.inj h ▸ ⟨rfl, rfl, rfl⟩
  · exact Option.some.inj h ▸ ⟨rfl, rfl, rfl⟩
  · exact Option.some.inj h ▸ ⟨rfl, rfl, rfl⟩
  · obtain ⟨nodes, _, hflow⟩ := Option.bind_eq_some_iff.mp h
    unfold flowOver at hflow
    dsimp only at hflow
    split_ifs at hflow
    · exact Option.some.inj hflow ▸ ⟨rfl, rfl, rfl⟩
    · obtain ⟨found, _, heq⟩ := Option.map_eq_some_iff.mp hflow
      exact heq ▸ ⟨rfl, rfl, rfl⟩

/-- The document says which facts the flow is about. Kind: L -/
theorem facts_of_document {a b : SemanticFlow} (h : document a = document b) :
    a.sourceFactId = b.sourceFactId ∧ a.sinkFactId = b.sinkFactId := by
  have hread : ∀ (flow : SemanticFlow) (key : String), (∃ members, document flow = .obj members ∧
      Dict.lookup key members = (Dict.lookup key [("schema_version", .str "1.0"), ("source_fact_id", .str flow.sourceFactId),
        ("sink_fact_id", .str flow.sinkFactId), ("path_node_ids", .arr (flow.pathNodeIds.map .str)),
        ("call_context", .arr (flow.callContext.map fun c => .arr [.str c.1, .str c.2.1, .str c.2.2])),
        ("ssa_chain", .arr (flow.ssaChain.map fun s => .arr [.str s.1, .str s.2])),
        ("sanitizer_nodes", .arr (flow.sanitizerNodes.map .str))]).map Json.sortKeys) := fun flow key =>
    ⟨_, Json.sortKeys_obj _, Json.lookup_sortMembers (by simp) key⟩
  constructor
  · obtain ⟨members, ha, hmembers⟩ := hread a "source_fact_id"
    obtain ⟨members', hb, hmembers'⟩ := hread b "source_fact_id"
    obtain rfl := Json.obj.inj (ha.symm.trans (h.trans hb))
    simpa [Dict.lookup] using hmembers.symm.trans hmembers'
  · obtain ⟨members, ha, hmembers⟩ := hread a "sink_fact_id"
    obtain ⟨members', hb, hmembers'⟩ := hread b "sink_fact_id"
    obtain rfl := Json.obj.inj (ha.symm.trans (h.trans hb))
    simpa [Dict.lookup] using hmembers.symm.trans hmembers'

theorem get?_add (store : SemanticFlowStore) (new : SemanticFlow) (flowId : String) :
    (store.add new).get? flowId = (store.get? flowId).or (if new.flowId = flowId then some new else none) := by
  unfold SemanticFlowStore.add Dict.contains
  by_cases hin : (store.get? new.flowId).isSome = true
  · rw [if_pos hin]
    by_cases hid : new.flowId = flowId
    · obtain ⟨old, hold⟩ := Option.isSome_iff_exists.mp hin
      rw [← hid, hold, Option.some_or]
    · rw [if_neg hid, Option.or_none]
  · rw [if_neg hin, Dict.get?_set]
    by_cases hid : new.flowId = flowId
    · rw [if_pos hid.symm, if_pos hid, ← hid, Option.not_isSome_iff_eq_none.mp hin, Option.none_or]
    · rw [if_neg (Ne.symm hid), if_neg hid, Option.or_none]

/-- The flows of some pairs. Kind: D -/
def flowsOf (correlator : SemanticCorrelator F) (g : CPGGraph F) (maxDepth : ℕ) (pairs : List (SemanticFact × SemanticFact)) :
    List SemanticFlow := pairs.filterMap fun pair => correlator.pairFlow g maxDepth pair.1 pair.2

/-- Every pair has its flow, and the first flow under an identifier stays. Kind: L -/
theorem get?_foldlM_add {pairs : List (SemanticFact × SemanticFact)} {store result : SemanticFlowStore}
    (h : pairs.foldlM (fun store pair => (correlator.pairFlow g maxDepth pair.1 pair.2).map store.add) store = some result) :
    (∀ pair ∈ pairs, ∃ flow, correlator.pairFlow g maxDepth pair.1 pair.2 = some flow) ∧
      ∀ flowId, result.get? flowId =
        (store.get? flowId).or ((correlator.flowsOf g maxDepth pairs).find? fun flow => flow.flowId = flowId) := by
  induction pairs generalizing store with
  | nil =>
    rw [List.foldlM_nil] at h
    obtain rfl := Option.some.inj h
    exact ⟨fun _ hmem => absurd hmem List.not_mem_nil, fun flowId => (Option.or_none).symm⟩
  | cons pair pairs ih =>
    rw [List.foldlM_cons] at h
    obtain ⟨next, hnext, hrest⟩ := Option.bind_eq_some_iff.mp h
    obtain ⟨new, hnew, rfl⟩ := Option.map_eq_some_iff.mp hnext
    obtain ⟨hall, hget⟩ := ih hrest
    refine ⟨List.forall_mem_cons.mpr ⟨⟨new, hnew⟩, hall⟩, fun flowId => ?_⟩
    have hcons : correlator.flowsOf g maxDepth (pair :: pairs) = new :: correlator.flowsOf g maxDepth pairs :=
      List.filterMap_cons_some hnew
    rw [hget, get?_add, hcons, List.find?_cons, Option.or_assoc]
    by_cases hid : new.flowId = flowId
    · rw [if_pos hid, decide_eq_true hid, Option.some_or]
    · rw [if_neg hid, decide_eq_false hid, Option.none_or]

/-- What correlation returns: the given flows, and of those of the candidate pairs the first one under each identifier.
Kind: P -/
theorem get?_correlate {facts : SemanticFactStore} {flowStore result : SemanticFlowStore} {maxDepth : ℤ}
    (h : correlator.correlate (some g) facts flowStore maxDepth = some result) (hdepth : 0 ≤ maxDepth) :
    (∀ pair ∈ correlator.candidatePairs facts, ∃ flow, correlator.pairFlow g maxDepth.toNat pair.1 pair.2 = some flow) ∧
      ∀ flowId, result.get? flowId = (flowStore.get? flowId).or
        ((correlator.flowsOf g maxDepth.toNat (correlator.candidatePairs facts)).find? fun flow => flow.flowId = flowId) := by
  unfold correlate at h
  dsimp only at h
  rw [if_neg (not_lt.mpr hdepth)] at h
  exact get?_foldlM_add h

theorem mem_allFacts_of_candidate {facts : SemanticFactStore} {pair : SemanticFact × SemanticFact}
    (h : pair ∈ correlator.candidatePairs facts) : pair.1 ∈ facts.allFacts ∧ pair.2 ∈ facts.allFacts := by
  unfold candidatePairs at h
  dsimp only at h
  rw [(sortBy_perm _ _).mem_iff, List.mem_flatMap] at h
  obtain ⟨src, hsrc, hpair⟩ := h
  obtain ⟨snk, hsnk, rfl⟩ := List.mem_map.mp hpair
  rw [(sortBy_perm _ _).mem_iff] at hsrc
  have hsink := List.mem_of_mem_filter hsnk
  rw [(sortBy_perm _ _).mem_iff] at hsink
  exact ⟨List.mem_of_mem_filter hsrc, List.mem_of_mem_filter hsink⟩

/-- The documents of the flows that correlation hashes. Kind: D -/
def documents (correlator : SemanticCorrelator F) (g : CPGGraph F) (maxDepth : ℕ) (facts : SemanticFactStore) :
    Set (Json Empty) :=
  {d | ∃ pair ∈ correlator.candidatePairs facts, ∃ flow,
    correlator.pairFlow g maxDepth pair.1 pair.2 = some flow ∧ document flow = d}

/-- A pair and its flow belong to each other. Kind: L -/
theorem flow_unique {facts : SemanticFactStore} (hsha : Set.InjOn correlator.sha256 (correlator.documents g maxDepth facts))
    {p q : SemanticFact × SemanticFact} (hp : p ∈ correlator.candidatePairs facts) (hq : q ∈ correlator.candidatePairs facts)
    {a b : SemanticFlow} (ha : correlator.pairFlow g maxDepth p.1 p.2 = some a)
    (hb : correlator.pairFlow g maxDepth q.1 q.2 = some b)
    (h : a.flowId = b.flowId ∨ a.sourceFactId = b.sourceFactId ∧ a.sinkFactId = b.sinkFactId) : a = b := by
  obtain ⟨hasource, hasink, haid⟩ := facts_pairFlow ha
  obtain ⟨hbsource, hbsink, hbid⟩ := facts_pairFlow hb
  have hnames : a.sourceFactId = b.sourceFactId ∧ a.sinkFactId = b.sinkFactId :=
    h.elim (fun hid => facts_of_document (hsha ⟨p, hp, a, ha, rfl⟩ ⟨q, hq, b, hb, rfl⟩ (haid.symm.trans (hid.trans hbid)))) id
  obtain ⟨hp1, hp2⟩ := mem_allFacts_of_candidate hp
  obtain ⟨hq1, hq2⟩ := mem_allFacts_of_candidate hq
  have hsource : p.1 = q.1 :=
    SemanticFactStore.eq_of_factId hp1 hq1 (hasource.symm.trans (hnames.1.trans hbsource))
  have hsink : p.2 = q.2 := SemanticFactStore.eq_of_factId hp2 hq2 (hasink.symm.trans (hnames.2.trans hbsink))
  rw [hsource, hsink, hb] at ha
  exact (Option.some.inj ha).symm

/-- What the result has for a pair: its flow, under its identifier unless the given store has another one there, and no
second flow that names the two facts. Kind: D -/
structure GivesFlow (flowStore result : SemanticFlowStore) (pair : SemanticFact × SemanticFact) (flow : SemanticFlow) : Prop where
  named : flow.sourceFactId = pair.1.factId ∧ flow.sinkFactId = pair.2.factId
  listed : result.get? flow.flowId = some ((flowStore.get? flow.flowId).getD flow)
  only : ∀ other ∈ result.values, other ∉ flowStore.values → other.sourceFactId = pair.1.factId →
    other.sinkFactId = pair.2.factId → other = flow

/-- **Correlation and barriers.** Each candidate pair is given one flow, which a given store may have already. It is blocked
only where all paths of the pair are barred, except where the first of the shortest paths hides one without a barrier.
Kind: P -/
theorem correlate_blocked_iff {facts : SemanticFactStore} {flowStore result : SemanticFlowStore} {maxDepth : ℤ}
    (hsha : Set.InjOn correlator.sha256 (correlator.documents g maxDepth.toNat facts))
    (h : correlator.correlate (some g) facts flowStore maxDepth = some result) :
    (maxDepth < 0 → result = flowStore) ∧
    (0 ≤ maxDepth → ∀ pair ∈ correlator.candidatePairs facts, ∃ flow, GivesFlow flowStore result pair flow ∧
      ((flow.status = .blocked → correlator.AllBarred g maxDepth.toNat pair.1 pair.2) ↔
        ¬correlator.Hidden g maxDepth.toNat pair.1 pair.2) ∧
      ((¬correlator.AllBarred g maxDepth.toNat pair.1 pair.2 → flow.status = .correlated) ↔
        correlator.AllBarred g maxDepth.toNat pair.1 pair.2 ∨ correlator.OpenAtFirst g maxDepth.toNat pair.1 pair.2)) := by
  refine ⟨fun hneg => ?_, fun hdepth pair hpair => ?_⟩
  · unfold correlate at h
    dsimp only at h
    rw [if_pos hneg] at h
    exact (Option.some.inj h).symm
  obtain ⟨hflows, hget⟩ := get?_correlate h hdepth
  obtain ⟨flow, hflow⟩ := hflows pair hpair
  obtain ⟨hsource, hsink, -⟩ := facts_pairFlow hflow
  have hfound : ∀ (flowId : String) (other : SemanticFlow),
      ((correlator.flowsOf g maxDepth.toNat (correlator.candidatePairs facts)).find? fun flow => flow.flowId = flowId) =
        some other → other.flowId = flowId ∧ ∃ q ∈ correlator.candidatePairs facts,
          correlator.pairFlow g maxDepth.toNat q.1 q.2 = some other := fun flowId other hother => by
    have hid := List.find?_some hother
    exact ⟨of_decide_eq_true hid, List.mem_filterMap.mp (List.mem_of_find?_eq_some hother)⟩
  refine ⟨flow, ⟨⟨hsource, hsink⟩, ?_, fun other hother hnew hothersource hothersink => ?_⟩,
    blocked_only_if_allBarred_iff hflow, correlated_of_open_iff hflow⟩
  · rw [hget]
    rcases flowStore.get? flow.flowId with _ | old
    · rw [Option.none_or, Option.getD_none]
      have hmem : flow ∈ correlator.flowsOf g maxDepth.toNat (correlator.candidatePairs facts) :=
        List.mem_filterMap.mpr ⟨pair, hpair, hflow⟩
      have hsome : ((correlator.flowsOf g maxDepth.toNat (correlator.candidatePairs facts)).find? fun other =>
          other.flowId = flow.flowId).isSome := List.find?_isSome.mpr ⟨flow, hmem, decide_eq_true rfl⟩
      obtain ⟨other, hother⟩ := Option.isSome_iff_exists.mp hsome
      obtain ⟨hid, q, hq, hotherflow⟩ := hfound _ other hother
      rw [hother, flow_unique hsha hq hpair hotherflow hflow (.inl hid)]
    · rw [Option.some_or, Option.getD_some]
  · obtain ⟨flowId, hid⟩ := Dict.mem_values.mp hother
    rw [hget] at hid
    rcases Option.or_eq_some_iff.mp hid with hold | ⟨-, hadded⟩
    · exact absurd (Dict.mem_values.mpr ⟨flowId, hold⟩) hnew
    · obtain ⟨-, q, hq, hotherflow⟩ := hfound flowId other hadded
      exact flow_unique hsha hq hpair hotherflow hflow
        (.inr ⟨hothersource.trans hsource.symm, hothersink.trans hsink.symm⟩)

/-! ## A path that is hidden -/

/-- Letters outside ASCII keep their case, and all documents have one digest. Kind: D -/
def plainCorrelator : SemanticCorrelator Empty where
  language := plainLanguage
  lower := KarsaSec.Found.lower
  sha256 _ := "flow"

/-- Kind: D -/
def userInput : SemanticFact where
  factId := "F1"
  kind := "input"
  semanticRole := "http_input"
  nodeId := some "n1"

/-- Kind: D -/
def sqlSink : SemanticFact where
  factId := "F2"
  kind := "sink"
  semanticRole := "security_sink"
  nodeId := some "n5"
  sinkCategory := some "sql"

/-- A call of `int` on the way of two edges to the sink, and none on the way of three. Kind: D -/
def twoWays : CPGGraph Empty :=
  let call (nodeId name : String) : CPGNode Empty :=
    { id := nodeId, nodeType := .callsite, label := name, attributes := Dict.ofList [("function_name", .str name)] }
  let edge (a b : String) : CPGEdge := { sourceId := a, targetId := b, edgeType := .dataflow }
  (((((((((CPGGraph.empty.addNode (call "n1" "get")).addNode (call "n2" "int")).addNode (call "n3" "join")).addNode
    (call "n4" "build")).addNode (call "n5" "execute")).addEdge (edge "n1" "n2")).addEdge (edge "n2" "n5")).addEdge
    (edge "n1" "n3")).addEdge (edge "n3" "n4")).addEdge (edge "n4" "n5")

/-- Kind: D -/
def twoFacts : SemanticFactStore where
  facts := Dict.ofList [("F1", userInput), ("F2", sqlSink)]
  keyed factId fact h := by
    rcases Dict.mem_of_get?_ofList h with _ | ⟨_, _ | ⟨_, ⟨⟩⟩⟩ <;> rfl

theorem statuses_twoWays : (plainCorrelator.correlate (some twoWays) twoFacts).map (fun store => store.values.map fun flow =>
    (flow.sourceFactId, flow.sinkFactId, flow.status)) = some [("F1", "F2", .blocked)] := by
  decide +kernel

/-- The pair is blocked, and the path over `n3` and `n4` has no barrier. Kind: P -/
theorem open_path_hidden : ∃ result, plainCorrelator.correlate (some twoWays) twoFacts = some result ∧
    (∃ flow ∈ result.values, flow.sourceFactId = "F1" ∧ flow.sinkFactId = "F2" ∧ flow.status = .blocked) ∧
      ¬plainCorrelator.AllBarred twoWays 10 userInput sqlSink := by
  obtain ⟨result, hresult, hvalues⟩ := Option.map_eq_some_iff.mp statuses_twoWays
  refine ⟨result, hresult, ?_, fun hall => ?_⟩
  · have hmem : ("F1", "F2", FlowStatus.blocked) ∈
        result.values.map fun flow => (flow.sourceFactId, flow.sinkFactId, flow.status) := by
      rw [hvalues]
      exact List.mem_cons_self
    obtain ⟨flow, hflow, heq⟩ := List.mem_map.mp hmem
    exact ⟨flow, hflow, congrArg Prod.fst heq, congrArg (fun t => t.2.1) heq, congrArg (fun t => t.2.2) heq⟩
  · have hpath : IsPath twoWays "n1" "n5" 10 ["n1", "n3", "n4", "n5"] :=
      ⟨by decide, ⟨rfl, rfl, by decide +kernel⟩, by decide, by decide +kernel⟩
    have hopen : ["n1", "n3", "n4", "n5"].any (plainCorrelator.isBarrier twoWays (categoryOf sqlSink)) = false := by
      decide +kernel
    exact Bool.false_ne_true (hopen.symm.trans (hall _ hpath))

theorem correlate_blocked_iff_twoWays : ∃ result, plainCorrelator.correlate (some twoWays) twoFacts = some result ∧
    ((10 : ℤ) < 0 → result = Dict.empty) ∧
    (0 ≤ (10 : ℤ) → ∀ pair ∈ plainCorrelator.candidatePairs twoFacts, ∃ flow, GivesFlow Dict.empty result pair flow ∧
      ((flow.status = .blocked → plainCorrelator.AllBarred twoWays 10 pair.1 pair.2) ↔
        ¬plainCorrelator.Hidden twoWays 10 pair.1 pair.2) ∧
      ((¬plainCorrelator.AllBarred twoWays 10 pair.1 pair.2 → flow.status = .correlated) ↔
        plainCorrelator.AllBarred twoWays 10 pair.1 pair.2 ∨ plainCorrelator.OpenAtFirst twoWays 10 pair.1 pair.2)) := by
  obtain ⟨result, hresult, _⟩ := Option.map_eq_some_iff.mp statuses_twoWays
  have hpairs : plainCorrelator.candidatePairs twoFacts = [(userInput, sqlSink)] := rfl
  refine ⟨result, hresult, correlate_blocked_iff ?_ hresult⟩
  rintro _ ⟨p, hp, a, ha, rfl⟩ _ ⟨q, hq, b, hb, rfl⟩ _
  rw [hpairs, List.mem_singleton] at hp hq
  rw [hp] at ha
  rw [hq, ha] at hb
  rw [Option.some.inj hb]

end SemanticCorrelator

end KarsaSec.Analysis
