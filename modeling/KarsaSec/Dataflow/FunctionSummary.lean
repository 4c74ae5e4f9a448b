import KarsaSec.Dataflow.AbstractState
import KarsaSec.Recovery.CanonicalText

/-!
# Function summaries

The summaries of `graph/dataflow/provenance.py` and their fingerprint.

* `PathSummary` and `FunctionSummary` are the records; `toCanonicalDict` and `payload` the documents that are hashed.
* `status_of_semanticFingerprint`: with a hash without collisions, summaries with one fingerprint have one status.
-/

namespace KarsaSec.Dataflow

open KarsaSec.Found KarsaSec.Recovery

/-- Source: `provenance.py`, `SummaryStatus`. Kind: D -/
inductive SummaryStatus
  | precise
  | partial_
  | unknown
  | nonConverged
  deriving DecidableEq, Repr

/-- The string value of a status. Source: `provenance.py`, `SummaryStatus`. Kind: D -/
def SummaryStatus.value : SummaryStatus → String
  | precise => "PRECISE"
  | partial_ => "PARTIAL"
  | unknown => "UNKNOWN"
  | nonConverged => "NON_CONVERGED"

theorem SummaryStatus.value_inj {a b : SummaryStatus} (h : a.value = b.value) : a = b := by
  revert h
  cases a <;> cases b <;> decide

/-- One path through a function. Source: `provenance.py`, `PathSummary`. Kind: D -/
structure PathSummary where
  pathId : String
  returnExpr : String := ""
  returnVar : String := ""
  taintState : AbstractTaintState := .unknown
  constraints : List SemanticConstraint := []
  parameterDependencies : List String := []
  paramConstraints : List (String × String) := []
  transformations : List String := []
  guards : List String := []
  sinkDependencies : List String := []
  callDependencies : List String := []
  provenanceNodeIds : List String := []
  isGuarded : Bool := false
  guardDescription : String := ""
  deriving DecidableEq

/-- A list of texts as a document. Kind: D -/
def textsJson (l : List String) : Json Unit := .arr (l.map .str)

namespace PathSummary

/-- Source: `provenance.py`, `constraints`, sorted. Kind: D -/
def constraintValues (p : PathSummary) : List String := sortStrings (p.constraints.map SemanticConstraint.value)

/-- Source: `provenance.py`, `to_canonical_dict`. Kind: D -/
def canonicalMembers (p : PathSummary) : List (String × Json Unit) :=
  [("path_id", .str p.pathId),
    ("return_expr", .str p.returnExpr),
    ("return_var", .str p.returnVar),
    ("taint_state", .str p.taintState.value),
    ("constraints", textsJson p.constraintValues),
    ("parameter_dependencies", textsJson (sortStrings p.parameterDependencies)),
    ("param_constraints", .arr ((sortPairs p.paramConstraints).map fun q => textsJson [q.1, q.2])),
    ("transformations", textsJson (sortStrings p.transformations)),
    ("guards", textsJson (sortStrings p.guards)),
    ("sink_dependencies", textsJson (sortStrings p.sinkDependencies)),
    ("call_dependencies", textsJson (sortStrings p.callDependencies)),
    ("provenance_node_ids", textsJson (sortStrings p.provenanceNodeIds)),
    ("is_guarded", .bool p.isGuarded),
    ("guard_description", .str p.guardDescription)]

/-- Source: `provenance.py`, `to_canonical_dict`. Kind: D -/
def toCanonicalDict (p : PathSummary) : Json Unit := .obj p.canonicalMembers

/-- The key by which paths are sorted. Source: `provenance.py`, `normalize`. Kind: D -/
def sortKey (p : PathSummary) : List String := [p.pathId, p.returnExpr, p.taintState.value] ++ p.constraintValues

end PathSummary

/-- Source: `provenance.py`, `FunctionSummary`. Kind: D -/
structure FunctionSummary where
  functionName : String
  filePath : String
  parameters : List String := []
  pathSummaries : List PathSummary := []
  sinkEffects : List (List (String × Json Unit)) := []
  status : SummaryStatus := .precise
  isComplete : Bool := true
  isRecursive : Bool := false

namespace FunctionSummary

/-- Source: `provenance.py`, `normalize`. Kind: D -/
def normalize (s : FunctionSummary) : FunctionSummary :=
  { s with pathSummaries := s.pathSummaries.mergeSort fun p q => p.sortKey ≤ q.sortKey }

/-- Source: `provenance.py`, `payload` of `semantic_fingerprint`. Kind: D -/
def payloadMembers (s : FunctionSummary) : List (String × Json Unit) :=
  [("function_name", .str s.functionName),
    ("file_path", .str s.filePath),
    ("parameters", textsJson s.parameters),
    ("status", .str s.status.value),
    ("is_complete", .bool s.isComplete),
    ("is_recursive", .bool s.isRecursive),
    ("path_summaries", .arr (s.pathSummaries.map PathSummary.toCanonicalDict))]

/-- Source: `provenance.py`, `semantic_fingerprint`. Kind: D -/
def semanticFingerprint (sha256 : String → String) (s : FunctionSummary) : String :=
  sha256 (canonicalJson (.obj s.normalize.payloadMembers))

end FunctionSummary

/-! ## What the fingerprint binds -/

theorem plain_texts (l : List String) : Json.Plain noFloats (textsJson l) := by
  refine Json.forallItems_iff.mpr fun v hv => ?_
  obtain ⟨s, -, rfl⟩ := List.mem_map.mp hv
  trivial

theorem plain_path (p : PathSummary) : Json.Plain noFloats p.toCanonicalDict := by
  have hkeys : ["path_id", "return_expr", "return_var", "taint_state", "constraints", "parameter_dependencies",
      "param_constraints", "transformations", "guards", "sink_dependencies", "call_dependencies", "provenance_node_ids",
      "is_guarded", "guard_description"].Nodup := by decide
  have hpairs : Json.Plain noFloats (.arr ((sortPairs p.paramConstraints).map fun q => textsJson [q.1, q.2])) := by
    refine Json.forallItems_iff.mpr fun v hv => ?_
    obtain ⟨q, -, rfl⟩ := List.mem_map.mp hv
    exact plain_texts _
  exact ⟨hkeys, trivial, trivial, trivial, trivial, plain_texts _, plain_texts _, hpairs, plain_texts _, plain_texts _,
    plain_texts _, plain_texts _, plain_texts _, trivial, trivial, trivial⟩

namespace FunctionSummary

theorem nodup_payloadMembers (s : FunctionSummary) : (s.payloadMembers.map Prod.fst).Nodup := by
  have hkeys : ["function_name", "file_path", "parameters", "status", "is_complete", "is_recursive",
      "path_summaries"].Nodup := by decide
  exact hkeys

theorem plain_payloadMembers (s : FunctionSummary) : Json.Plain noFloats (.obj s.payloadMembers) := by
  have hpaths : Json.Plain noFloats (.arr (s.pathSummaries.map PathSummary.toCanonicalDict)) := by
    refine Json.forallItems_iff.mpr fun v hv => ?_
    obtain ⟨p, -, rfl⟩ := List.mem_map.mp hv
    exact plain_path p
  exact ⟨nodup_payloadMembers s, trivial, trivial, plain_texts _, trivial, trivial, trivial, hpaths, trivial⟩

/-- The fingerprint binds the status. Kind: L -/
theorem status_of_semanticFingerprint {sha256 : String → String} (hsha : Function.Injective sha256) {s t : FunctionSummary}
    (h : s.semanticFingerprint sha256 = t.semanticFingerprint sha256) : s.status = t.status := by
  have hsorted := canonicalJson_inj (plain_payloadMembers _) (plain_payloadMembers _) (hsha h)
  rw [Json.sortKeys_obj, Json.sortKeys_obj] at hsorted
  have hfield : (Dict.lookup "status" s.normalize.payloadMembers).map Json.sortKeys =
      (Dict.lookup "status" t.normalize.payloadMembers).map Json.sortKeys := by
    rw [← Json.lookup_sortMembers (nodup_payloadMembers _), ← Json.lookup_sortMembers (nodup_payloadMembers _),
      Json.obj.inj hsorted]
  have hvalue : s.normalize.status.value = t.normalize.status.value := by
    simpa [Dict.lookup, payloadMembers] using hfield
  exact SummaryStatus.value_inj hvalue

end FunctionSummary

end KarsaSec.Dataflow
