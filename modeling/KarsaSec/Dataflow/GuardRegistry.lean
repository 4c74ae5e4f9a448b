import KarsaSec.Dataflow.AbstractState
import KarsaSec.Found.Regex

/-!
# The registry of guards

`graph/dataflow/registry.py`: what the branches of a predicate and the results of a transformation are known to be, and how a predicate
is read from the text of a condition.
-/

namespace KarsaSec.Dataflow

open KarsaSec.Found

/-- Source: `registry.py`, `PredicateCapability`. Kind: D -/
structure PredicateCapability where
  name : String
  targetArgIdx : ℕ := 0
  trueBranchConstraints : Finset SemanticConstraint := ∅
  falseBranchConstraints : Finset SemanticConstraint := ∅

/-- Source: `registry.py`, `ValueTransformation`. Kind: D -/
structure ValueTransformation where
  name : String
  targetArgIdx : ℕ := 0
  producedConstraints : Finset SemanticConstraint := ∅

/-- Source: `registry.py`, `GuardCapabilityRegistry`. Kind: D -/
structure GuardCapabilityRegistry where
  predicates : Dict String PredicateCapability := .empty
  transformations : Dict String ValueTransformation := .empty

namespace GuardCapabilityRegistry

variable (registry : GuardCapabilityRegistry)

/-- Source: `registry.py`, `register_predicate`. Kind: D -/
def registerPredicate (cap : PredicateCapability) : GuardCapabilityRegistry :=
  { registry with predicates := registry.predicates.set (lower cap.name) cap }

/-- Source: `registry.py`, `register_transformation`. Kind: D -/
def registerTransformation (trans : ValueTransformation) : GuardCapabilityRegistry :=
  { registry with transformations := registry.transformations.set (lower trans.name) trans }

/-- Source: `registry.py`, `lookup_predicate`. Kind: D -/
def lookupPredicate (name : String) : Option PredicateCapability := registry.predicates.get? (strip (lower name))

/-- Source: `registry.py`, `lookup_transformation`. Kind: D -/
def lookupTransformation (name : String) : Option ValueTransformation := registry.transformations.get? (strip (lower name))

end GuardCapabilityRegistry

/-- The predicates that are registered. Source: `registry.py`, `_register_defaults`. Kind: D -/
def defaultPredicates : List PredicateCapability :=
  [{ name := "is_numeric", trueBranchConstraints := {.numeric} },
    { name := "ctype_digit", trueBranchConstraints := {.digitsOnly, .numeric} },
    { name := "is_int", trueBranchConstraints := {.integer, .numeric} },
    { name := "is_integer", trueBranchConstraints := {.integer, .numeric} },
    { name := "is_long", trueBranchConstraints := {.integer, .numeric} }]

/-- The transformations that are registered. Source: `registry.py`, `_register_defaults`. Kind: D -/
def defaultTransformations : List ValueTransformation :=
  [{ name := "intval", producedConstraints := {.integer, .numeric} },
    { name := "(int)", producedConstraints := {.integer, .numeric} },
    { name := "floatval", producedConstraints := {.numeric} },
    { name := "escapeshellarg", producedConstraints := {.shellEscaped} },
    { name := "escapeshellcmd", producedConstraints := {.shellEscaped} },
    { name := "htmlspecialchars", producedConstraints := {.htmlEscaped} },
    { name := "htmlentities", producedConstraints := {.htmlEscaped} },
    { name := "basename", producedConstraints := {.pathNormalized} },
    { name := "realpath", producedConstraints := {.pathNormalized} }]

/-- Source: `registry.py`, `guard_registry`. Kind: D -/
def guardRegistry : GuardCapabilityRegistry :=
  defaultTransformations.foldl GuardCapabilityRegistry.registerTransformation
    (defaultPredicates.foldl GuardCapabilityRegistry.registerPredicate {})

/-! ## Reading a predicate -/

/-- A call with one variable. Source: `registry.py`, `match_predicate_ast`. Kind: D -/
def rePredicate : String := "\\b([a-zA-Z_][a-zA-Z0-9_]*)\\s*\\(\\s*(\\$[a-zA-Z0-9_]+)\\s*\\)"

/-- The condition without an exclamation mark at its beginning, and whether it has one. Source: `registry.py`,
`match_predicate_ast`. Kind: D -/
def dropNegation (text : String) : String × Bool :=
  if startsWith "!" (strip text) then (strip (String.ofList ((strip text).toList.drop 1)), true) else (strip text, false)

/-- The predicate, its variable, and whether it is negated. Source: `registry.py`, `match_predicate_ast`. Kind: D -/
def matchPredicate (t : CharTable) (registry : GuardCapabilityRegistry) (text : String) :
    Option (PredicateCapability × String × Bool) :=
  (search t {} rePredicate (dropNegation text).1).bind fun m =>
    (registry.lookupPredicate (String.ofList ((m.group 1).getD []))).map fun cap =>
      (cap, String.ofList ((m.group 2).getD []), (dropNegation text).2)

end KarsaSec.Dataflow
