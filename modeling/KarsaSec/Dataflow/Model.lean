import Mathlib.Data.Int.Notation

/-!
# Data-flow records

The records that data-flow analysis hands to findings.

* `Severity` and `Confidence` are the enumerations of `rules/enums.py`; the names `HIGH`, `MEDIUM`,
  `LOW` of a confidence are aliases of `confident`, `likely`, `possible`.
* `TaintState`, `FlowNodeKind`, `FlowLocation`, `TaintPathHop` and `DataFlowEvidence` are the
  records of `graph/dataflow/model.py`.
-/

namespace KarsaSec.Dataflow

/-- Severity of a rule or finding. Source: `enums.py`, `Severity`. Kind: D -/
inductive Severity
  | critical
  | high
  | medium
  | low
  | info
  deriving DecidableEq, Repr

/-- The string value of a severity. Source: `enums.py`, `Severity`. Kind: D -/
def Severity.value : Severity → String
  | critical => "CRITICAL"
  | high => "HIGH"
  | medium => "MEDIUM"
  | low => "LOW"
  | info => "INFO"

/-- Confidence of a rule or finding. Source: `enums.py`, `Confidence`. Kind: D -/
inductive Confidence
  | confident
  | likely
  | possible
  deriving DecidableEq, Repr

/-- The string value of a confidence. Source: `enums.py`, `Confidence`. Kind: D -/
def Confidence.value : Confidence → String
  | confident => "CONFIDENT"
  | likely => "LIKELY"
  | possible => "POSSIBLE"

/-- Classification of data-flow graph nodes. Source: `model.py`, `FlowNodeKind`. Kind: D -/
inductive FlowNodeKind
  | source
  | assignment
  | use
  | transform
  | sanitizer
  | sink
  | parameter
  | call
  | ret
  | constant
  | unknown
  deriving DecidableEq, Repr

/-- Taint evaluation status of expressions. Source: `model.py`, `TaintState`. Kind: D -/
inductive TaintState
  | static
  | tainted
  | sanitized
  | dynamic
  | unknown
  deriving DecidableEq, Repr

/-- The string value of a taint state. Source: `model.py`, `TaintState`. Kind: D -/
def TaintState.value : TaintState → String
  | static => "STATIC"
  | tainted => "TAINTED"
  | sanitized => "SANITIZED"
  | dynamic => "DYNAMIC"
  | unknown => "UNKNOWN"

/-- Source location of a flow node. Source: `model.py`, `FlowLocation`. Kind: D -/
structure FlowLocation where
  filePath : Option String
  line : Option ℤ
  column : Option ℤ
  deriving DecidableEq, Repr

/-- One propagation step of a taint trace. Source: `model.py`, `TaintPathHop`. Kind: D -/
structure TaintPathHop where
  step : ℤ
  kind : FlowNodeKind
  symbol : String
  snippet : String
  location : FlowLocation
  description : String
  deriving DecidableEq, Repr

/-- The evidence that data-flow analysis produces.
Source: `model.py`, `DataFlowEvidence`
Kind: D -/
structure DataFlowEvidence where
  state : TaintState
  path : List TaintPathHop
  sourceSymbol : String
  sinkSymbol : String
  sanitizerCapability : String
  adjustedConfidence : Confidence
  adjustedSeverity : Severity
  reason : String
  truncated : Bool
  hopCount : ℤ
  deriving DecidableEq, Repr

end KarsaSec.Dataflow
