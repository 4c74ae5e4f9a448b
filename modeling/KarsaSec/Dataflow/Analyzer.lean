import KarsaSec.Dataflow.Model
import KarsaSec.Dataflow.Registries
import KarsaSec.Found.Dict
import KarsaSec.Found.OrderFree
import KarsaSec.Graph.ConstantResolver
import Mathlib.Data.Finset.Insert

/-!
# The data-flow analyzer

`graph/dataflow/analyzer.py`: the state of a sink from the states of its variables, and the state of a variable from its latest
assignment.

* `joinStates` is the loop over variables, which both share.
* `beforeVariables`, `analyzeSink`: what decides without looking at the variables, and the rest.
* `propagateReferenced`, `propagateVar`: the same for the latest assignment of a variable. What the
  callers of a function pass for a parameter and what the summary of a called function says is left open (`Interprocedural`).
* `sinkJoined_iff`, `referencedJoined_iff`: when the loop forgets the order of the variables and loses none of their states.
-/

namespace KarsaSec.Dataflow

open KarsaSec.Found KarsaSec.Graph

/-! ## The loop over variables -/

/-- What the search behind a variable returns. Source: `analyzer.py`, `_propagate_var`. Kind: D -/
structure Propagation where
  state : TaintState
  hops : List TaintPathHop := []
  sourceSymbol : String := ""
  truncated : Bool := false
  deriving DecidableEq, Repr

/-- Nothing is found within the limits. Source: `analyzer.py`, `_propagate_var`. Kind: D -/
def Propagation.cut : Propagation := { state := .unknown, truncated := true }

/-- The variables one after the other; a tainted one ends the loop. Source: `analyzer.py`, `analyze_sink` and
`_propagate_var`. Kind: D -/
def joinStates (propagate : String → Propagation) (overall : Propagation) : List String → Propagation
  | [] => overall
  | var :: rest =>
    let p := propagate var
    let truncated := overall.truncated || p.truncated
    match p.state with
    | .tainted =>
      { state := .tainted, hops := overall.hops ++ p.hops, sourceSymbol := p.sourceSymbol, truncated := truncated }
    | .sanitized =>
      joinStates propagate
        { overall with
          state := if overall.state ≠ .tainted then .sanitized else overall.state
          hops := overall.hops ++ p.hops
          truncated := truncated } rest
    | .unknown =>
      joinStates propagate
        { overall with
          state := if overall.state ≠ .tainted then .unknown else overall.state
          hops := overall.hops ++ p.hops
          truncated := truncated } rest
    | _ => joinStates propagate { overall with truncated := truncated } rest

/-! ## The graph -/

/-- Source: `builder.py`, `VariableAssignmentDef`. Kind: D -/
structure VariableAssignmentDef where
  rhsExpression : String
  line : ℤ
  referencedVariables : List String
  containsSanitizer : Bool := false
  sanitizerCapability : Option SanitizerCapability := none
  containsSource : Bool := false
  sourceSymbol : Option String := none

/-- Source: `builder.py`, `FunctionDef`. Kind: D -/
structure FunctionDef where
  functionName : String
  parameters : List String
  startLine : ℤ
  endLine : ℤ
  returnExpressions : List String

/-- What `build_graph` returns. Source: `builder.py`, `DataFlowGraphBuilder.build_graph`. Kind: D -/
structure GraphData where
  filePath : Option String
  language : String
  defUseMap : Dict String (List VariableAssignmentDef)
  functions : Dict String FunctionDef

section propagation

/-- The arguments of the search behind a variable. Source: `analyzer.py`, `_propagate_var`. Kind: D -/
structure VarQuery where
  varName : String
  beforeLine : Option ℤ
  sinkCategory : Option SinkCategory
  visitedVars : Finset String
  flowDepth : ℕ
  callDepth : ℕ
  assignmentHops : ℕ
  nodesVisited : ℕ

/-- The limits of the search. Source: `analyzer.py`, `MAX_FLOW_DEPTH`, `MAX_CALL_DEPTH`, `MAX_NODES_VISITED` and
`MAX_ASSIGNMENT_HOPS`. Kind: D -/
def VarQuery.beyondLimits (q : VarQuery) : Bool :=
  10 ≤ q.flowDepth || 5 ≤ q.callDepth || 10 ≤ q.assignmentHops || 100 ≤ q.nodesVisited

/-- The search between functions, given the search behind a variable. Source: `analyzer.py`,
`_resolve_interprocedural_param`, and the summary of a called function in `_propagate_var`. Kind: D -/
structure Interprocedural where
  resolveParam : (VarQuery → Propagation) → FunctionDef → VarQuery → Propagation
  summary : (VarQuery → Propagation) → FunctionDef → VariableAssignmentDef → VarQuery → Option Propagation

variable (t : CharTable) (interproc : Interprocedural) (graph : GraphData) (recur : VarQuery → Propagation) (q : VarQuery)

/-- A hop at the latest assignment. Source: `analyzer.py`, `_propagate_var`. Kind: D -/
def hopAt (kind : FlowNodeKind) (latestDef : VariableAssignmentDef) (snippet description : String) : TaintPathHop where
  step := q.flowDepth + 2
  kind := kind
  symbol := q.varName
  snippet := snippet
  location := ⟨graph.filePath, some latestDef.line, none⟩
  description := description

/-- The assignments before the line of the reference. Source: `analyzer.py`, `_propagate_var`. Kind: D -/
def assignmentsBefore : List VariableAssignmentDef :=
  let allAssigns := graph.defUseMap.getD q.varName []
  match q.beforeLine with
  | some beforeLine => allAssigns.filter (·.line < beforeLine)
  | none => allAssigns

/-- A variable that the file assigns nothing: a parameter, or unresolved. Source: `analyzer.py`, `_propagate_var`. Kind: D -/
def propagateUnassigned : Propagation :=
  match graph.functions.values.find? (q.varName ∈ ·.parameters) with
  | some funcDef =>
    interproc.resolveParam recur funcDef
      { q with
        visitedVars := insert q.varName q.visitedVars
        flowDepth := q.flowDepth + 1
        assignmentHops := q.assignmentHops + 1
        nodesVisited := q.nodesVisited + 1 }
  | none => .cut

/-- A literal without variables of a request. Source: `analyzer.py`, `_propagate_var`. Kind: D -/
def isStaticRhs (rhs : String) : Bool :=
  ((matchPrefix t {} "^['\"][^'\"]*['\"]$" rhs).isSome || (matchPrefix t {} "^array\\s*\\(.*\\)$" rhs).isSome) &&
    !found t {} "\\$(?:_GET|_POST|_COOKIE|_REQUEST|_SERVER)" rhs

/-- The source of the first function that returns one. Source: `analyzer.py`, `_propagate_var`. Kind: D -/
def taintedHelper : Option String :=
  (graph.functions.values.flatMap (·.returnExpressions)).findSome? fun retExpr =>
    if containsSource t retExpr graph.language then
      some ((findMatchingSources t retExpr graph.language).head?.getD "$_COOKIE")
    else none

/-- Several assignments, and a function that returns a source. Source: `analyzer.py`, `_propagate_var`. Kind: D -/
def branchCase (assignments : List VariableAssignmentDef) (latestDef : VariableAssignmentDef) : Option Propagation :=
  if 1 < assignments.length then
    (taintedHelper t graph).map fun srcSym =>
      { state := .tainted
        hops := [hopAt graph q .source latestDef latestDef.rhsExpression
          ("Variable '" ++ q.varName ++ "' dynamically assigned across branches dependent on helper returning '" ++ srcSym ++ "'")]
        sourceSymbol := srcSym }
  else none

/-- Case 1: a sanitizer that is enough for the sink. Source: `analyzer.py`, `_propagate_var`. Kind: D -/
def sanitizerCase (latestDef : VariableAssignmentDef) : Option Propagation :=
  match latestDef.sanitizerCapability, q.sinkCategory with
  | some cap, some sinkCategory =>
    if latestDef.containsSanitizer && isCompatible cap sinkCategory then
      some
        { state := .sanitized
          hops := [hopAt graph q .sanitizer latestDef latestDef.rhsExpression
            ("Variable '" ++ q.varName ++ "' sanitized with sink-compatible '" ++ cap.value ++ "'")] }
    else none
  | _, _ => none

/-- A return expression that is sanitized for the sink. Source: `analyzer.py`, `_propagate_var`. Kind: D -/
def isSanitizedReturn (rexp : String) : Bool :=
  match identifySanitizer t "" rexp graph.language, q.sinkCategory with
  | some retSan, some sinkCategory => isCompatible retSan sinkCategory
  | _, _ => false

/-- The function that the right-hand side calls first. Source: `analyzer.py`, `_propagate_var`. Kind: D -/
def calledFunction (latestDef : VariableAssignmentDef) : Option FunctionDef :=
  (search t {} "\\b([a-zA-Z_][a-zA-Z0-9_]*)\\s*\\(" latestDef.rhsExpression).bind fun m =>
    graph.functions.get? (lower (String.ofList ((m.group 1).getD [])))

/-- Case 2: a call of a function of the file. Source: `analyzer.py`, `_propagate_var`. Kind: D -/
def callCase (latestDef : VariableAssignmentDef) : Option Propagation :=
  (calledFunction t graph latestDef).bind fun fdef =>
    if fdef.returnExpressions ≠ [] ∧ fdef.returnExpressions.all (isSanitizedReturn t graph q) then
      some
        { state := .sanitized
          hops := [hopAt graph q .sanitizer latestDef (joinStr ", " fdef.returnExpressions)
            ("All return expressions in function '" ++ fdef.functionName ++ "' contain sink-compatible sanitizers")] }
    else
      match fdef.returnExpressions.find? fun retExpr => containsSource t retExpr graph.language with
      | some retExpr =>
        let srcSym := (findMatchingSources t retExpr graph.language).head?.getD "UNTRUSTED_SOURCE"
        some
          { state := .tainted
            hops := [hopAt graph q .call latestDef latestDef.rhsExpression
              ("Function '" ++ fdef.functionName ++ "' returned untrusted source '" ++ srcSym ++ "' assigned to '" ++
                q.varName ++ "'")]
            sourceSymbol := srcSym }
      | none => interproc.summary recur fdef latestDef q

/-- Case 3: a source in the right-hand side. Source: `analyzer.py`, `_propagate_var`. Kind: D -/
def sourceCase (latestDef : VariableAssignmentDef) : Option Propagation :=
  if latestDef.containsSource then
    let srcSym := orDefault latestDef.sourceSymbol "UNTRUSTED_SOURCE"
    some
      { state := .tainted
        hops := [hopAt graph q .source latestDef latestDef.rhsExpression
          ("Variable '" ++ q.varName ++ "' assigned from untrusted source '" ++ srcSym ++ "'")]
        sourceSymbol := srcSym }
  else none

/-- The search behind a variable that the right-hand side refers to; a variable may refer to its earlier value.
Source: `analyzer.py`, `_propagate_var`. Kind: D -/
def referencedQuery (latestDef : VariableAssignmentDef) (refVar : String) : VarQuery where
  varName := refVar
  beforeLine := some latestDef.line
  sinkCategory := q.sinkCategory
  visitedVars := if refVar = q.varName then ∅ else insert q.varName q.visitedVars
  flowDepth := q.flowDepth + 1
  callDepth := q.callDepth
  assignmentHops := q.assignmentHops + 1
  nodesVisited := q.nodesVisited + 1

/-- Case 4: the variables that the right-hand side refers to, by name. Source: `analyzer.py`, `_propagate_var`. Kind: D -/
def propagateReferenced (latestDef : VariableAssignmentDef) : Propagation :=
  let assignHop := hopAt graph q .assignment latestDef latestDef.rhsExpression
    ("Variable '" ++ q.varName ++ "' assigned from expression containing: " ++ joinStr ", " latestDef.referencedVariables)
  joinStates (fun refVar => recur (referencedQuery q latestDef refVar)) { state := .static, hops := [assignHop] }
    (sortBy id latestDef.referencedVariables.dedup)

/-- A right-hand side without variables: the variable may still be a parameter of the function around it. Source: `analyzer.py`,
`_propagate_var`. Kind: D -/
def propagateParameter : Propagation :=
  let isParameter := fun fdef : FunctionDef =>
    let sLine := fdef.startLine
    let eLine := if fdef.endLine = 0 then 999999 else fdef.endLine
    (match q.beforeLine with
      | some beforeLine => sLine ≤ beforeLine && beforeLine ≤ eLine
      | none => true) &&
    (fdef.parameters.map (lstripDollar ·)).contains (lstripDollar q.varName)
  match graph.functions.values.find? isParameter with
  | some fdef => interproc.resolveParam recur fdef q
  | none => { state := .static }

/-- Source: `analyzer.py`, `_propagate_var`. Kind: D -/
def propagateVar : Propagation :=
  if q.beyondLimits || q.varName ∈ q.visitedVars then .cut
  else
    let assignments := assignmentsBefore graph q
    match assignments.getLast? with
    | none => propagateUnassigned interproc graph recur q
    | some latestDef =>
      if assignments.length = 1 ∧ isStaticRhs t (strip latestDef.rhsExpression) then { state := .static }
      else
        match (branchCase t graph q assignments latestDef).or ((sanitizerCase graph q latestDef).or
          ((callCase t interproc graph recur q latestDef).or (sourceCase graph q latestDef))) with
        | some p => p
        | none =>
          if latestDef.referencedVariables ≠ [] then propagateReferenced graph recur q latestDef
          else propagateParameter interproc graph recur q

/-- Every search goes one deeper than the one that it serves, and none goes deeper than the limit. Source: `analyzer.py`,
`_propagate_var`. Kind: D -/
def propagateFrom : ℕ → VarQuery → Propagation
  | 0, _ => .cut
  | n + 1, q => propagateVar t interproc graph (propagateFrom n) q

end propagation

/-! ## Sinks -/

/-- A sink call, with what the constant resolver says of the names in it. Source: `analyzer.py`, `analyze_sink`. Kind: D -/
structure SinkCall where
  snippet : String
  filePath : Option String := none
  language : String := "php"
  sinkCategory : Option SinkCategory := none
  lineNumber : Option ℤ := none
  baseSeverity : Severity := .high
  baseConfidence : Confidence := .confident
  resolveConstant : String → ConstantResolution := fun _ => .unknown

namespace SinkCall

variable (t : CharTable) (call : SinkCall)

/-- Source: `analyzer.py`, `analyze_sink`. Kind: D -/
def lang : String := lower (strip call.language)

/-- Source: `analyzer.py`, `analyze_sink`. Kind: D -/
def cleanSnippet : String := strip call.snippet

/-- The given category, or else that of the snippet. Source: `analyzer.py`, `analyze_sink`, step 1. Kind: D -/
def category : Option SinkCategory :=
  match call.sinkCategory with
  | some sinkCategory => some sinkCategory
  | none =>
    let symbol := ((search t {} "\\b([a-zA-Z_][a-zA-Z0-9_]*)\\s*\\(" call.cleanSnippet).bind (·.group 1)).getD []
    classifySink t (String.ofList symbol) call.cleanSnippet call.lang

/-- The parenthesis that the text opens is closed by its last character, and not before. Source: `analyzer.py`, `analyze_sink`,
step 1.5. Kind: D -/
def closesLast : ℤ → List Char → Bool
  | _, [] => false
  | depth, c :: rest =>
    if c = '(' then closesLast (depth + 1) rest
    else if c = ')' then if depth - 1 = 0 then rest = [] else closesLast (depth - 1) rest
    else closesLast depth rest

/-- The function that is called around the whole snippet, if it sanitizes for the sink. Source: `analyzer.py`, `analyze_sink`,
step 1.5. Kind: D -/
def outerSanitizer : Option String :=
  let noSemi := rstripChar ';' call.cleanSnippet
  match matchPrefix t { dotAll := true } "^([a-zA-Z_][a-zA-Z0-9_]*)\\s*\\((.*)\\)$" noSemi, call.category t with
  | some m, some sinkCategory =>
    let outerFunc := String.ofList ((m.group 1).getD [])
    if closesLast 0 (noSemi.toList.dropWhile (· ≠ '(')) then
      match identifySanitizer t outerFunc noSemi call.lang with
      | some cap => if isCompatible cap sinkCategory then some outerFunc else none
      | none => none
    else none
  | _, _ => none

/-- The variables of the snippet, in the order in which they first stand there. Source: `analyzer.py`, `analyze_sink`, step 3.
Kind: D -/
def sinkVars : List String :=
  let pattern := if call.lang = "php" then "\\$[a-zA-Z_][a-zA-Z0-9_]*" else "\\b[a-zA-Z_][a-zA-Z0-9_]*\\b"
  (Dict.ofList ((findall t {} 0 pattern call.cleanSnippet).map fun var => (var, ()))).keys

/-- The names in capitals, which may be constants. Source: `analyzer.py`, `analyze_sink`, step 5. Kind: D -/
def constIds : List String := if call.lang = "php" then findall t {} 0 "\\b[A-Z0-9_]{3,}\\b" call.cleanSnippet else []

/-- A sink whose argument is safe. Source: `analyzer.py`, `analyze_sink`. Kind: D -/
def safe (state : TaintState) (reason : String) : DataFlowEvidence where
  state := state
  path := []
  sourceSymbol := ""
  sinkSymbol := ""
  sanitizerCapability := "NONE"
  adjustedConfidence := .possible
  adjustedSeverity := .low
  reason := reason
  truncated := false
  hopCount := 0

/-- A sink that is tainted by its own text. Source: `analyzer.py`, `analyze_sink`. Kind: D -/
def direct (path : List TaintPathHop) (sourceSymbol reason : String) : DataFlowEvidence where
  state := .tainted
  path := path
  sourceSymbol := sourceSymbol
  sinkSymbol := call.cleanSnippet
  sanitizerCapability := "NONE"
  adjustedConfidence := call.baseConfidence
  adjustedSeverity := call.baseSeverity
  reason := reason
  truncated := false
  hopCount := 1

/-- Source: `analyzer.py`, `analyze_sink`, step 4. Kind: D -/
def sourceEvidence : Option DataFlowEvidence :=
  if containsSource t call.cleanSnippet call.lang then
    let srcSym := (findMatchingSources t call.cleanSnippet call.lang).head?.getD "UNTRUSTED_SOURCE"
    some (call.direct
      [{ step := 1, kind := .sink, symbol := srcSym, snippet := call.cleanSnippet
         location := ⟨call.filePath, call.lineNumber, none⟩
         description := "Direct untrusted source '" ++ srcSym ++ "' present in sink argument" }]
      srcSym ("Direct untrusted source '" ++ srcSym ++ "' detected in sink context"))
  else none

/-- Source: `analyzer.py`, `analyze_sink`, step 5. Kind: D -/
def constantEvidence (sinkVars : List String) : Option DataFlowEvidence :=
  if call.constIds t = [] then none
  else
    match (call.constIds t).find? fun cid => call.resolveConstant cid = .tainted with
    | some taintedCid =>
      some (call.direct [] taintedCid ("Constant '" ++ taintedCid ++ "' in sink argument is resolved as TAINTED"))
    | none =>
      if sinkVars ≠ [] then none
      else if (call.constIds t).all fun cid => (call.resolveConstant cid).isStatic then
        some (safe .static "Sink argument resolves entirely to static constants")
      else
        some { safe .unknown "Sink argument contains unresolved constant expressions" with
          adjustedSeverity := call.baseSeverity
          truncated := true }

/-- Source: `analyzer.py`, `analyze_sink`, step 6. Kind: D -/
def literalEvidence (sinkVars : List String) : Option DataFlowEvidence :=
  if sinkVars = [] then some (safe .static "Sink argument contains static literal values without variables") else none

/-- What is decided before a variable is looked at. Source: `analyzer.py`, `analyze_sink`, steps 1 to 6. Kind: D -/
def beforeVariables (sinkVars : List String) : Option DataFlowEvidence :=
  ((call.outerSanitizer t).map fun outerFunc =>
      safe .sanitized ("Sink snippet is wrapped in compatible sanitizer '" ++ outerFunc ++ "'")).or
    ((call.sourceEvidence t).or ((call.constantEvidence t sinkVars).or (literalEvidence sinkVars)))

/-- The hop at the sink. Source: `analyzer.py`, `analyze_sink`, step 7. Kind: D -/
def sinkHop (sinkVars : List String) : TaintPathHop where
  step := 1
  kind := .sink
  symbol := joinStr ", " sinkVars
  snippet := call.cleanSnippet
  location := ⟨call.filePath, call.lineNumber, none⟩
  description := "Sink invocation receiving variable argument(s)"

/-- `Confidence.LOW` is the possible one. Source: `analyzer.py`, `analyze_sink`. Kind: D -/
def adjustedConfidence : TaintState → Confidence
  | .tainted => call.baseConfidence
  | _ => .possible

/-- Source: `analyzer.py`, `analyze_sink`. Kind: D -/
def adjustedSeverity : TaintState → Severity
  | .tainted => call.baseSeverity
  | .sanitized => .low
  | .static => .low
  | _ => call.baseSeverity

/-- Source: `analyzer.py`, `analyze_sink`. Kind: D -/
def reason (primarySource : String) : TaintState → String
  | .tainted => "Taint path resolved from untrusted source '" ++ primarySource ++ "' to sink"
  | .sanitized => "Taint path neutralized by sink-compatible sanitizer"
  | .static => "No untrusted source detected in variable propagation path"
  | _ => "Data-flow analysis truncated or inconclusive (UNKNOWN state)"

/-- Step 7: the states of the variables. Source: `analyzer.py`, `analyze_sink`. Kind: D -/
def analyzeVariables (propagate : String → Propagation) (sinkVars : List String) : DataFlowEvidence :=
  let overall := joinStates propagate { state := .static, hops := [call.sinkHop sinkVars] } sinkVars
  { state := overall.state
    path := overall.hops
    sourceSymbol := overall.sourceSymbol
    sinkSymbol := call.cleanSnippet
    sanitizerCapability := "NONE"
    adjustedConfidence := call.adjustedConfidence overall.state
    adjustedSeverity := call.adjustedSeverity overall.state
    reason := reason overall.sourceSymbol overall.state
    truncated := overall.truncated
    hopCount := overall.hops.length }

/-- The analysis of a sink with the given variables. Source: `analyzer.py`, `analyze_sink`. Kind: D -/
def analyzeWith (propagate : String → Propagation) (sinkVars : List String) : DataFlowEvidence :=
  (call.beforeVariables t sinkVars).getD (call.analyzeVariables propagate sinkVars)

/-- The query behind a variable of the sink. Source: `analyzer.py`, `analyze_sink`, step 7. Kind: D -/
def varQuery (var : String) : VarQuery where
  varName := var
  beforeLine := call.lineNumber
  sinkCategory := call.category t
  visitedVars := ∅
  flowDepth := 0
  callDepth := 0
  assignmentHops := 0
  nodesVisited := 0

/-- Source: `analyzer.py`, `DataFlowAnalyzer.analyze_sink`. Kind: D -/
def analyzeSink (interproc : Interprocedural) (graph : GraphData) : DataFlowEvidence :=
  call.analyzeWith t (fun var => propagateFrom t interproc graph 11 (call.varQuery t var)) (call.sinkVars t)

end SinkCall

/-! ## What the loop comes to -/

/-- The state that a variable leaves behind, whatever was there. Kind: D -/
def carried : TaintState → Option TaintState
  | .sanitized => some .sanitized
  | .unknown => some .unknown
  | _ => none

/-- The state of a list of states: tainted if one of them is, else the last of those that leave one. Kind: D -/
def joinedState (states : List TaintState) : TaintState :=
  if .tainted ∈ states then .tainted else (states.reverse.findSome? carried).getD .static

section joined

variable {propagate : String → Propagation} {states : List TaintState}

/-- One variable that is not tainted. Kind: L -/
theorem joinStates_cons {overall : Propagation} {var : String} (rest : List String) (ho : overall.state ≠ .tainted)
    (h : (propagate var).state ≠ .tainted) : ∃ next, next.state = (carried (propagate var).state).getD overall.state ∧
      joinStates propagate overall (var :: rest) = joinStates propagate next rest := by
  rw [joinStates]
  cases hstate : (propagate var).state with
  | tainted => exact absurd hstate h
  | sanitized => exact ⟨_, if_pos ho, rfl⟩
  | unknown => exact ⟨_, if_pos ho, rfl⟩
  | static => exact ⟨{ overall with truncated := overall.truncated || (propagate var).truncated }, rfl, rfl⟩
  | dynamic => exact ⟨{ overall with truncated := overall.truncated || (propagate var).truncated }, rfl, rfl⟩

theorem carried_getD_ne {state last : TaintState} (h : last ≠ .tainted) : (carried state).getD last ≠ .tainted := by
  cases state with
  | sanitized => exact nofun
  | unknown => exact nofun
  | static => exact h
  | dynamic => exact h
  | tainted => exact h

/-- The loop over variables, from a state that is not tainted. Kind: P -/
theorem state_joinStates {overall : Propagation} {vars : List String} (h : overall.state ≠ .tainted) :
    (joinStates propagate overall vars).state =
      if .tainted ∈ vars.map (fun var => (propagate var).state) then .tainted
      else ((vars.map fun var => (propagate var).state).reverse.findSome? carried).getD overall.state := by
  rw [← foldl_getD]
  induction vars generalizing overall with
  | nil => rfl
  | cons var rest ih =>
    rw [List.map_cons, List.foldl_cons]
    by_cases hvar : (propagate var).state = .tainted
    · rw [hvar, if_pos List.mem_cons_self, joinStates, hvar]
    · obtain ⟨next, hnext, heq⟩ := joinStates_cons rest h hvar
      have hne : next.state ≠ .tainted := hnext ▸ carried_getD_ne h
      rw [heq, ih hne, hnext]
      simp only [List.mem_cons, Ne.symm hvar, false_or]

theorem state_joinStates_static {hops : List TaintPathHop} {vars : List String} :
    (joinStates propagate { state := .static, hops := hops } vars).state =
      joinedState (vars.map fun var => (propagate var).state) :=
  state_joinStates nofun

theorem mem_of_findSome?_carried {state : TaintState} (h : states.reverse.findSome? carried = some state) :
    state ∈ states ∧ (state = .sanitized ∨ state = .unknown) := by
  obtain ⟨found, hmem, hfound⟩ := List.exists_of_findSome?_eq_some h
  rw [List.mem_reverse] at hmem
  cases found with
  | sanitized => exact ⟨Option.some.inj hfound ▸ hmem, Or.inl (Option.some.inj hfound).symm⟩
  | unknown => exact ⟨Option.some.inj hfound ▸ hmem, Or.inr (Option.some.inj hfound).symm⟩
  | static => cases hfound
  | dynamic => cases hfound
  | tainted => cases hfound

/-- The choices agree when they are not of both kinds. Kind: L -/
theorem agree_carried_iff : Agree carried states ↔ ¬(.unknown ∈ states ∧ .sanitized ∈ states) := by
  constructor
  · rintro h ⟨hu, hs⟩
    cases h _ hu _ hs _ rfl _ rfl
  · intro h a ha b hb x hx y hy
    cases a <;> cases hx <;> cases b <;> cases hy
    · rfl
    · exact absurd ⟨hb, ha⟩ h
    · exact absurd ⟨ha, hb⟩ h
    · rfl

theorem joinedState_of_tainted (h : .tainted ∈ states) : joinedState states = .tainted := if_pos h

theorem joinedState_of_untainted (h : .tainted ∉ states) :
    joinedState states = (states.reverse.findSome? carried).getD .static := if_neg h

/-- The order of the states matters only where a sanitized and an unknown one meet. Kind: P -/
theorem orderFree_joinedState_iff :
    OrderFree joinedState states ↔ .tainted ∈ states ∨ ¬(.unknown ∈ states ∧ .sanitized ∈ states) := by
  by_cases ht : .tainted ∈ states
  · refine ⟨fun _ => Or.inl ht, fun _ l' hp => ?_⟩
    rw [joinedState_of_tainted ht, joinedState_of_tainted (hp.mem_iff.mpr ht)]
  · rw [← agree_carried_iff, ← orderFree_last_iff TaintState.static]
    have hperm : ∀ l', l'.Perm states → joinedState l' = (l'.reverse.findSome? carried).getD .static :=
      fun l' hp => joinedState_of_untainted fun h => ht (hp.mem_iff.mp h)
    constructor
    · intro h
      refine Or.inr fun l' hp => ?_
      dsimp only
      rw [← hperm l' hp, ← hperm states (.refl _)]
      exact h l' hp
    · intro h l' hp
      rw [hperm l' hp, hperm states (.refl _)]
      exact (h.resolve_left ht) l' hp

/-- An unknown state that no sanitized one follows. Kind: D -/
def EndsUnknown (states : List TaintState) : Prop := ∃ before after, states = before ++ .unknown :: after ∧ .sanitized ∉ after

theorem joinedState_eq_unknown_iff (ht : .tainted ∉ states) : joinedState states = .unknown ↔ EndsUnknown states := by
  rw [joinedState_of_untainted ht]
  constructor
  · intro h
    rcases hfound : states.reverse.findSome? carried with _ | state
    · rw [hfound] at h
      cases h
    · rw [hfound, Option.getD_some] at h
      obtain ⟨after, last, before, hstates, hlast, hafter⟩ := List.findSome?_eq_some_iff.mp hfound
      have hunknown : last = .unknown := by
        cases last <;> cases hlast <;> first | rfl | cases h
      refine ⟨before.reverse, after.reverse, ?_, fun hs => ?_⟩
      · simp_all
      · cases hafter _ (List.mem_reverse.mp hs)
  · rintro ⟨before, after, rfl, hs⟩
    rw [List.reverse_append, List.reverse_cons, List.append_assoc, List.findSome?_append]
    rcases hfound : after.reverse.findSome? carried with _ | state
    · rfl
    · obtain ⟨hmem, rfl | rfl⟩ := mem_of_findSome?_carried hfound
      · exact absurd hmem hs
      · rfl

/-- A state that stands for all the states of a list. Kind: D -/
structure Covers (states : List TaintState) (overall : TaintState) : Prop where
  clean : overall = .sanitized ∨ overall = .static → ∀ state ∈ states, state = .sanitized ∨ state = .static
  tainted : .tainted ∈ states → overall = .tainted
  unknown : .unknown ∈ states → overall = .unknown ∨ overall = .tainted

theorem joinedState_ne_dynamic : joinedState states ≠ .dynamic := by
  unfold joinedState
  split_ifs
  · exact nofun
  · rcases hfound : states.reverse.findSome? carried with _ | state
    · exact nofun
    · obtain ⟨-, rfl | rfl⟩ := mem_of_findSome?_carried hfound
      · exact nofun
      · exact nofun

/-- The join stands for all states unless an unknown one is overridden, or a dynamic one is all that is not clean. Kind: P -/
theorem covers_joinedState_iff : Covers states (joinedState states) ↔
    .tainted ∈ states ∨ EndsUnknown states ∨ .unknown ∉ states ∧ .dynamic ∉ states := by
  by_cases ht : .tainted ∈ states
  · refine ⟨fun _ => Or.inl ht, fun _ => ?_⟩
    rw [joinedState_of_tainted ht]
    exact ⟨nofun, fun _ => rfl, fun _ => Or.inr rfl⟩
  · have hne : joinedState states ≠ .tainted := by
      rw [joinedState_of_untainted ht]
      rcases hfound : states.reverse.findSome? carried with _ | state
      · exact nofun
      · obtain ⟨-, rfl | rfl⟩ := mem_of_findSome?_carried hfound
        · exact nofun
        · exact nofun
    constructor
    · intro h
      by_cases hends : EndsUnknown states
      · exact Or.inr (Or.inl hends)
      · have hu : .unknown ∉ states := fun hu =>
          (h.unknown hu).elim (fun heq => hends ((joinedState_eq_unknown_iff ht).mp heq)) hne
        -- the join is clean, so a dynamic state would have to be
        have hclean : joinedState states = .sanitized ∨ joinedState states = .static := by
          cases hstate : joinedState states with
          | sanitized => exact Or.inl rfl
          | static => exact Or.inr rfl
          | unknown => exact absurd ((joinedState_eq_unknown_iff ht).mp hstate) hends
          | dynamic => exact absurd hstate joinedState_ne_dynamic
          | tainted => exact absurd hstate hne
        exact Or.inr (Or.inr ⟨hu, fun hd => by rcases h.clean hclean _ hd with hd | hd <;> cases hd⟩)
    · rintro (htainted | hends | ⟨hu, hd⟩)
      · exact absurd htainted ht
      · rw [(joinedState_eq_unknown_iff ht).mpr hends]
        exact ⟨nofun, fun htainted => absurd htainted ht, fun _ => Or.inl rfl⟩
      · refine ⟨fun _ state hstate => ?_, fun htainted => absurd htainted ht, fun hunknown => absurd hunknown hu⟩
        cases state with
        | sanitized => exact Or.inl rfl
        | static => exact Or.inr rfl
        | unknown => exact absurd hstate hu
        | dynamic => exact absurd hstate hd
        | tainted => exact absurd hstate ht

theorem covers_congr {states' : List TaintState} (overall : TaintState) (h : ∀ state, state ∈ states' ↔ state ∈ states) :
    Covers states' overall ↔ Covers states overall := by
  have hof : ∀ {l l' : List TaintState}, (∀ state, state ∈ l' ↔ state ∈ l) → Covers l' overall → Covers l overall :=
    fun hmem hc => ⟨fun ho state hs => hc.clean ho state ((hmem state).mpr hs), fun ht => hc.tainted ((hmem _).mpr ht),
      fun hu => hc.unknown ((hmem _).mpr hu)⟩
  exact ⟨hof h, hof fun state => (h state).symm⟩

end joined

/-! ## What the order and the states decide -/

/-- The states of variables can be joined: one is tainted, or none is sanitized where one is unknown. Kind: D -/
def Joinable (states : List TaintState) : Prop :=
  .tainted ∈ states ∨ if .unknown ∈ states then .sanitized ∉ states else .dynamic ∉ states

theorem joinable_iff {states : List TaintState} :
    Joinable states ↔ OrderFree joinedState states ∧ Covers states (joinedState states) := by
  rw [orderFree_joinedState_iff, covers_joinedState_iff, Joinable]
  by_cases ht : .tainted ∈ states
  · simp_all
  · by_cases hu : .unknown ∈ states
    · rw [if_pos hu]
      constructor
      · intro h
        have hs := h.resolve_left ht
        obtain ⟨before, after, rfl⟩ := List.append_of_mem hu
        exact ⟨Or.inr fun both => hs both.2,
          Or.inr (Or.inl ⟨before, after, rfl, fun hmem => hs (List.mem_append_right _ (List.mem_cons_of_mem _ hmem))⟩)⟩
      · simp_all
    · rw [if_neg hu]
      constructor
      · simp_all
      · rintro ⟨-, htainted | ⟨before, after, rfl, -⟩ | ⟨-, hd⟩⟩
        · exact absurd htainted ht
        · simp_all
        · exact Or.inr hd

/-- The analysis of a sink forgets the order of its variables, and if it looks at them, it answers for all of them. Kind: D -/
structure SinkJoined (t : CharTable) (call : SinkCall) (propagate : String → Propagation) (sinkVars : List String) : Prop where
  order : ∀ vars, vars.Perm sinkVars →
    (call.analyzeWith t propagate vars).state = (call.analyzeWith t propagate sinkVars).state ∧
      (call.analyzeWith t propagate vars).adjustedConfidence = (call.analyzeWith t propagate sinkVars).adjustedConfidence
  covers : call.beforeVariables t sinkVars = none →
    Covers (sinkVars.map fun var => (propagate var).state) (call.analyzeWith t propagate sinkVars).state

/-- The state of an assigned variable does not depend on the order of the variables that the right-hand side refers to, and
stands for all of them. Kind: D -/
structure ReferencedJoined (graph : GraphData) (recur : VarQuery → Propagation) (q : VarQuery)
    (latestDef : VariableAssignmentDef) : Prop where
  order : ∀ refs, refs.Perm latestDef.referencedVariables →
    (propagateReferenced graph recur q { latestDef with referencedVariables := refs }).state =
      (propagateReferenced graph recur q latestDef).state
  covers : Covers (latestDef.referencedVariables.map fun refVar => (recur (referencedQuery q latestDef refVar)).state)
    (propagateReferenced graph recur q latestDef).state

section results

variable {t : CharTable} {call : SinkCall} {propagate : String → Propagation} {sinkVars : List String}

theorem beforeVariables_perm {vars : List String} (h : vars.Perm sinkVars) :
    call.beforeVariables t vars = call.beforeVariables t sinkVars := by
  have hnil : vars = [] ↔ sinkVars = [] := ⟨fun hv => (hv ▸ h).nil_eq.symm, fun hs => (hs ▸ h).eq_nil⟩
  unfold SinkCall.beforeVariables SinkCall.constantEvidence SinkCall.literalEvidence
  simp only [ne_eq, hnil]

theorem state_analyzeWith (h : call.beforeVariables t sinkVars = none) :
    (call.analyzeWith t propagate sinkVars).state = joinedState (sinkVars.map fun var => (propagate var).state) := by
  rw [SinkCall.analyzeWith, h]
  exact state_joinStates_static

/-- The confidence is read off the state. Kind: L -/
theorem confidence_analyzeWith (h : call.beforeVariables t sinkVars = none) :
    (call.analyzeWith t propagate sinkVars).adjustedConfidence =
      call.adjustedConfidence (call.analyzeWith t propagate sinkVars).state := by
  rw [SinkCall.analyzeWith, h]
  rfl

theorem analyzeWith_of_some {ev : DataFlowEvidence} (h : call.beforeVariables t sinkVars = some ev) :
    call.analyzeWith t propagate sinkVars = ev := by
  rw [SinkCall.analyzeWith, h]
  rfl

theorem sinkJoined_iff : SinkJoined t call propagate sinkVars ↔
    (call.beforeVariables t sinkVars).isSome ∨ Joinable (sinkVars.map fun var => (propagate var).state) := by
  rcases hbefore : call.beforeVariables t sinkVars with _ | ev
  · rw [joinable_iff, ← orderFree_map_iff, ← state_analyzeWith hbefore]
    have hperm : ∀ vars, vars.Perm sinkVars → call.beforeVariables t vars = none :=
      fun vars hp => (beforeVariables_perm hp).trans hbefore
    constructor
    · refine fun h => Or.inr ⟨fun vars hp => ?_, h.covers hbefore⟩
      dsimp only
      rw [← state_analyzeWith (hperm vars hp), ← state_analyzeWith hbefore]
      exact (h.order vars hp).1
    · rintro (h | ⟨horder, hcovers⟩)
      · cases h
      · refine ⟨fun vars hp => ?_, fun _ => hcovers⟩
        have hstate : (call.analyzeWith t propagate vars).state = (call.analyzeWith t propagate sinkVars).state := by
          rw [state_analyzeWith (hperm vars hp), state_analyzeWith hbefore]
          exact horder vars hp
        rw [confidence_analyzeWith (hperm vars hp), confidence_analyzeWith hbefore, hstate]
        exact ⟨rfl, rfl⟩
  · refine ⟨fun _ => Or.inl rfl, fun _ => ⟨fun vars hp => ?_, fun hnone => ?_⟩⟩
    · grind [analyzeWith_of_some, beforeVariables_perm]
    · rw [hbefore] at hnone
      cases hnone

variable {graph : GraphData} {recur : VarQuery → Propagation} {q : VarQuery} {latestDef : VariableAssignmentDef}

theorem state_propagateReferenced : (propagateReferenced graph recur q latestDef).state =
    joinedState ((sortBy id latestDef.referencedVariables.dedup).map fun refVar =>
      (recur (referencedQuery q latestDef refVar)).state) := state_joinStates_static

theorem referencedJoined_iff : ReferencedJoined graph recur q latestDef ↔
    let states := (sortBy id latestDef.referencedVariables.dedup).map fun refVar =>
      (recur (referencedQuery q latestDef refVar)).state
    .tainted ∈ states ∨ EndsUnknown states ∨ .unknown ∉ states ∧ .dynamic ∉ states := by
  have hmem : ∀ refVar, refVar ∈ sortBy id latestDef.referencedVariables.dedup ↔ refVar ∈ latestDef.referencedVariables :=
    fun refVar => (sortBy_perm id _).mem_iff.trans List.mem_dedup
  have hstates := covers_congr (propagateReferenced graph recur q latestDef).state fun state =>
    (List.mem_map (f := fun refVar => (recur (referencedQuery q latestDef refVar)).state)).trans
      ((exists_congr fun refVar => and_congr_left fun _ => hmem refVar).trans List.mem_map.symm)
  dsimp only
  rw [← covers_joinedState_iff, ← state_propagateReferenced]
  constructor
  · exact fun h => hstates.mpr h.covers
  · refine fun h => ⟨fun refs hp => ?_, hstates.mp h⟩
    rw [state_propagateReferenced, state_propagateReferenced,
      sortBy_dedup_congr Function.injective_id fun refVar => hp.mem_iff]
    rfl

end results

/-- **The states of variables are joined soundly, and in every order, exactly when one is tainted or none is sanitized where one is
unknown; those of a right-hand side, which are taken by name, when one is tainted or no sanitized one follows the last unknown
one.** Source: `analyzer.py`, `analyze_sink` and `_propagate_var`. Kind: T -/
theorem statesJoined_iff (t : CharTable) (call : SinkCall) (propagate : String → Propagation) (sinkVars : List String)
    (graph : GraphData) (recur : VarQuery → Propagation) (q : VarQuery) (latestDef : VariableAssignmentDef) :
    (SinkJoined t call propagate sinkVars ↔
      (call.beforeVariables t sinkVars).isSome ∨ Joinable (sinkVars.map fun var => (propagate var).state)) ∧
    (ReferencedJoined graph recur q latestDef ↔
      let states := (sortBy id latestDef.referencedVariables.dedup).map fun refVar =>
        (recur (referencedQuery q latestDef refVar)).state
      .tainted ∈ states ∨ EndsUnknown states ∨ .unknown ∉ states ∧ .dynamic ∉ states) :=
  ⟨sinkJoined_iff, referencedJoined_iff⟩

/-- A file that assigns `$b` a sanitized value, and `$a` nothing. Kind: D -/
def halfAssigned : GraphData where
  filePath := none
  language := "php"
  defUseMap := .ofList [("$b",
    [{ rhsExpression := "htmlspecialchars($c)", line := 1, referencedVariables := ["$c"], containsSanitizer := true
       sanitizerCapability := some .htmlEscape }])]
  functions := .empty

/-- Nothing is known of callers and of called functions. Kind: D -/
def unrelated : Interprocedural := ⟨fun _ _ _ => .cut, fun _ _ _ _ => none⟩

/-- A sink that reads both variables. Kind: D -/
def mixedSink : SinkCall := { snippet := "echo $a . $b;" }

/-- Only the pattern of `echo` is in its snippet. Kind: L -/
theorem category_mixedSink : mixedSink.category ascii = some .htmlOutput := by
  have hsymbol : (search ascii {} "\\b([a-zA-Z_][a-zA-Z0-9_]*)\\s*\\(" mixedSink.cleanSnippet).bind (·.group 1) = none := by
    decide +kernel
  have hclean : mixedSink.cleanSnippet = "echo $a . $b;" := by decide +kernel
  have hlang : mixedSink.lang = "php" := by decide +kernel
  have hunnamed : (phpSinks.lookup (strip "")).or (phpMethodSinks.lookup (strip "")) = none := by decide +kernel
  have hmiss : ∀ p ∈ snippetSinks.take 7, found ascii { ignoreCase := true } p.1 "echo $a . $b;" = false := by
    simp only [snippetSinks, List.take, List.forall_mem_cons]
    refine ⟨?_, ?_, ?_, ?_, ?_, ?_, ?_, List.forall_mem_nil _⟩ <;> decide +kernel
  have hecho : found ascii { ignoreCase := true } "\\b(echo|print|printf)\\b" "echo $a . $b;" = true := by decide +kernel
  change classifySink ascii (String.ofList (Option.getD _ [])) mixedSink.cleanSnippet mixedSink.lang = _
  rw [hsymbol, hclean, hlang]
  change classifySink ascii "" "echo $a . $b;" "php" = _
  unfold classifySink
  rw [if_neg (by decide +kernel), hunnamed, Option.none_or, if_neg (by decide)]
  refine List.findSome?_eq_some_iff.mpr ⟨snippetSinks.take 7, _, [], rfl, if_pos hecho, fun p hp => ?_⟩
  rw [hmiss p hp]
  rfl

/-- The sanitized variable comes after the one that nothing is known of, and the sink counts as sanitized. Source: `analyzer.py`,
`analyze_sink`. Kind: T -/
theorem unknown_overridden : ¬SinkJoined ascii mixedSink
    (fun var => propagateFrom ascii unrelated halfAssigned 11 (mixedSink.varQuery ascii var)) (mixedSink.sinkVars ascii) := by
  intro h
  have hsinkVars : mixedSink.sinkVars ascii = ["$a", "$b"] := by decide +kernel
  have hbefore : mixedSink.beforeVariables ascii (mixedSink.sinkVars ascii) = none := by
    rw [hsinkVars]
    decide +kernel
  have hstates : (mixedSink.sinkVars ascii).map (fun var =>
      (propagateFrom ascii unrelated halfAssigned 11 (mixedSink.varQuery ascii var)).state) = [.unknown, .sanitized] := by
    rw [hsinkVars]
    simp only [SinkCall.varQuery, category_mixedSink]
    decide +kernel
  have hcovers := h.covers hbefore
  rw [state_analyzeWith hbefore, hstates] at hcovers
  rcases hcovers.unknown List.mem_cons_self with hstate | hstate <;> cases hstate

end KarsaSec.Dataflow
