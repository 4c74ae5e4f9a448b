import KarsaSec.Found.Dict
import KarsaSec.Found.Text
import Mathlib.Data.Finset.Basic
import Mathlib.Data.Int.Notation
import Mathlib.Data.List.Dedup

/-!
# Abstract values and environments

The path-sensitive abstract state of `graph/dataflow/abstract_state.py`: values with type and sanitization facts, and the
environment that numbers the versions of each variable.

* An environment stores each value under the value's own version; `keyed` carries that.
* `getVersion` reads a variable without a counter as its version 1, and `assignmentKill` counts from 0.
-/

namespace KarsaSec.Dataflow

open KarsaSec.Found

/-- Source: `abstract_state.py`, `ConstraintCategory`. Kind: D -/
inductive ConstraintCategory
  | typeConstraint
  | sanitization
  | normalization
  deriving DecidableEq, Repr

/-- Source: `abstract_state.py`, `SemanticConstraint`. Kind: D -/
inductive SemanticConstraint
  | numeric
  | integer
  | digitsOnly
  | shellEscaped
  | htmlEscaped
  | sqlEscaped
  | pathNormalized
  deriving DecidableEq, Repr

/-- Source: `abstract_state.py`, `SemanticConstraint.category`. Kind: D -/
def SemanticConstraint.category : SemanticConstraint → ConstraintCategory
  | numeric | integer | digitsOnly => .typeConstraint
  | shellEscaped | htmlEscaped | sqlEscaped => .sanitization
  | pathNormalized => .normalization

/-- The string value of a constraint. Source: `abstract_state.py`, `SemanticConstraint`. Kind: D -/
def SemanticConstraint.value : SemanticConstraint → String
  | numeric => "NUMERIC"
  | integer => "INTEGER"
  | digitsOnly => "DIGITS_ONLY"
  | shellEscaped => "SHELL_ESCAPED"
  | htmlEscaped => "HTML_ESCAPED"
  | sqlEscaped => "SQL_ESCAPED"
  | pathNormalized => "PATH_NORMALIZED"

/-- The lattice states of an abstract value. Source: `abstract_state.py`, `TaintState`. Kind: D -/
inductive AbstractTaintState
  | untainted
  | tainted
  | sanitized
  | constrained
  | unknown
  deriving DecidableEq, Repr

/-- The string value of a state. Source: `abstract_state.py`, `TaintState`. Kind: D -/
def AbstractTaintState.value : AbstractTaintState → String
  | untainted => "UNTAINTED"
  | tainted => "TAINTED"
  | sanitized => "SANITIZED"
  | constrained => "CONSTRAINED"
  | unknown => "UNKNOWN"

/-- Source: `abstract_state.py`, `join_taint_state`. Kind: D -/
def joinTaintState (a b : AbstractTaintState) : AbstractTaintState :=
  if a = b then a
  else if .tainted ∈ [a, b] ∨ .constrained ∈ [a, b] then .tainted
  else if .unknown ∈ [a, b] then .unknown
  else .unknown

/-- Source: `abstract_state.py`, `join_constraints`. Kind: D -/
def joinConstraints (a b : Finset SemanticConstraint) : Finset SemanticConstraint := a ∩ b

/-- Source: `abstract_state.py`, `AbstractValue`. Kind: D -/
structure AbstractValue where
  varName : String
  varVersion : String
  taint : AbstractTaintState := .unknown
  typeFacts : Finset SemanticConstraint := ∅
  sanitizationFacts : Finset SemanticConstraint := ∅
  provenanceNodeId : String := ""
  provenanceDescription : String := ""
  deriving DecidableEq

namespace AbstractValue

/-- Source: `abstract_state.py`, `all_constraints`. Kind: D -/
def allConstraints (value : AbstractValue) : Finset SemanticConstraint := value.typeFacts ∪ value.sanitizationFacts

/-- Source: `abstract_state.py`, `with_constraints`. Kind: D -/
def withConstraints (value : AbstractValue) (newConstraints : Finset SemanticConstraint) : AbstractValue :=
  { value with
    taint := if value.taint = .tainted ∧ newConstraints ≠ ∅ then .constrained else value.taint
    typeFacts := value.typeFacts ∪ newConstraints.filter fun c => c.category = .typeConstraint
    sanitizationFacts := value.sanitizationFacts ∪ newConstraints.filter fun c => c.category ≠ .typeConstraint }

/-- Nothing given is lost, whichever the category. Kind: L -/
theorem allConstraints_withConstraints (value : AbstractValue) (newConstraints : Finset SemanticConstraint) :
    (value.withConstraints newConstraints).allConstraints = value.allConstraints ∪ newConstraints := by
  ext c
  simp only [allConstraints, withConstraints, Finset.mem_union, Finset.mem_filter]
  by_cases hc : c.category = .typeConstraint <;> simp [hc] <;> tauto

end AbstractValue

/-- The name of a version of a variable. Kind: D -/
def versionText (varName : String) (count : ℤ) : String := varName ++ "#" ++ toString count

/-- Versions of one variable with one name have one number. Kind: L -/
theorem versionText_inj {x : String} {m n : ℤ} (h : versionText x m = versionText x n) : m = n := by
  unfold versionText at h
  have hlists := congrArg String.toList h
  simp only [String.toList_append] at hlists
  exact toString_int_inj (String.toList_inj.mp (List.append_cancel_left hlists))

/-- The versions of two variables differ. Kind: L -/
theorem eq_of_versionText {x y : String} {m n : ℤ} (h : versionText x m = versionText y n) : x = y := by
  unfold versionText at h
  have hlists := congrArg String.toList h
  simp only [String.toList_append, List.append_assoc] at hlists
  have hsharp : ∀ k : ℤ, '#' ∉ (toString k).toList := by
    intro k hk
    rw [toList_toString_int] at hk
    split_ifs at hk
    · exact absurd (isDigit_of_mem_toString hk) (by decide)
    · rcases List.mem_cons.mp hk with hk | hk
      · exact absurd hk (by decide)
      · exact absurd (isDigit_of_mem_toString hk) (by decide)
  exact String.toList_inj.mp (append_last_sep_inj (hsharp m) (hsharp n) hlists).1

/-- The counters and the values, each under its own version.
Source: `abstract_state.py`, `AbstractEnvironment`
Kind: D -/
structure AbstractEnvironment where
  versionCounters : Dict String ℤ
  values : Dict String AbstractValue
  /-- A value is found under its own version. -/
  keyed : ∀ version value, values.get? version = some value → value.varVersion = version

namespace AbstractEnvironment

/-- No variable yet. Kind: D -/
def empty : AbstractEnvironment where
  versionCounters := .empty
  values := .empty
  keyed := fun _ _ h => by cases h

variable (env : AbstractEnvironment)

/-- The count of a variable, 1 without one. Source: `abstract_state.py`, `get_version`. Kind: D -/
def count (varName : String) : ℤ := env.versionCounters.getD varName 1

/-- Source: `abstract_state.py`, `get_version`. Kind: D -/
def getVersion (varName : String) : String := versionText varName (env.count varName)

/-- Source: `abstract_state.py`, `get_value`. Kind: D -/
def getValue (varName : String) : AbstractValue :=
  (env.values.get? (env.getVersion varName)).getD { varName, varVersion := env.getVersion varName, taint := .unknown }

theorem keyed_set {values : Dict String AbstractValue}
    (keyed : ∀ version value, values.get? version = some value → value.varVersion = version) (new : AbstractValue)
    (version : String) (value : AbstractValue) (h : (values.set new.varVersion new).get? version = some value) :
    value.varVersion = version := by
  rw [Dict.get?_set] at h
  split_ifs at h with hversion
  · rw [← Option.some.inj h, hversion]
  · exact keyed _ _ h

/-- Source: `abstract_state.py`, `set_value`. Kind: D -/
def setValue (value : AbstractValue) : AbstractEnvironment where
  versionCounters := env.versionCounters
  values := env.values.set value.varVersion value
  keyed := keyed_set env.keyed value

/-- The count of the next version: here a missing count is 0. Source: `abstract_state.py`, `assignment_kill`. Kind: D -/
def nextCount (varName : String) : ℤ := env.versionCounters.getD varName 0 + 1

/-- The value of a variable after an assignment. Source: `abstract_state.py`, `assignment_kill`. Kind: D -/
def assignedValue (varName : String) (newTaint : AbstractTaintState) (provId provDesc : String) : AbstractValue where
  varName := varName
  varVersion := versionText varName (env.nextCount varName)
  taint := newTaint
  provenanceNodeId := provId
  provenanceDescription := provDesc

/-- Source: `abstract_state.py`, `assignment_kill`. Kind: D -/
def assignmentKill (varName : String) (newTaint : AbstractTaintState) (provId provDesc : String) :
    AbstractEnvironment where
  versionCounters := env.versionCounters.set varName (env.nextCount varName)
  values := env.values.set (env.assignedValue varName newTaint provId provDesc).varVersion
    (env.assignedValue varName newTaint provId provDesc)
  keyed := keyed_set env.keyed _

/-! ## Joins -/

variable (other : AbstractEnvironment)

/-- The variables of either side, sorted. Source: `abstract_state.py`, `join`. Kind: D -/
def allVars : List String :=
  sortStrings (env.versionCounters.keys ++ other.versionCounters.keys).dedup

/-- The greater of the two counts. Source: `abstract_state.py`, `join`. Kind: D -/
def maxCount (varName : String) : ℤ := max (env.count varName) (other.count varName)

/-- Source: `abstract_state.py`, `join`. Kind: D -/
def joinedValue (varName : String) : AbstractValue where
  varName := varName
  varVersion := versionText varName (env.maxCount other varName)
  taint := joinTaintState (env.getValue varName).taint (other.getValue varName).taint
  typeFacts := joinConstraints (env.getValue varName).typeFacts (other.getValue varName).typeFacts
  sanitizationFacts := joinConstraints (env.getValue varName).sanitizationFacts (other.getValue varName).sanitizationFacts
  provenanceNodeId :=
    if (env.getValue varName).provenanceNodeId ≠ "" then (env.getValue varName).provenanceNodeId
    else (other.getValue varName).provenanceNodeId
  provenanceDescription := "Join(" ++ (env.getValue varName).varVersion ++ ", " ++ (other.getValue varName).varVersion ++ ")"

/-- The values of a join, in the order of the variables. Source: `abstract_state.py`, `join`. Kind: D -/
def joinedValues : List (String × AbstractValue) :=
  (env.allVars other).map fun x => ((env.joinedValue other x).varVersion, env.joinedValue other x)

theorem keyed_joinedValues (version : String) (value : AbstractValue)
    (h : (Dict.ofList (env.joinedValues other)).get? version = some value) : value.varVersion = version := by
  obtain ⟨x, -, hx⟩ := List.mem_map.mp (Dict.mem_of_get?_ofList h)
  rw [← (Prod.mk.inj hx).1, ← (Prod.mk.inj hx).2]

/-- Source: `abstract_state.py`, `join`. Kind: D -/
def join : AbstractEnvironment where
  versionCounters := .ofList ((env.allVars other).map fun x => (x, env.maxCount other x))
  values := .ofList (env.joinedValues other)
  keyed := env.keyed_joinedValues other

/-! ## What each operation does to the counts -/

variable {env other}

theorem varVersion_getValue (x : String) : (env.getValue x).varVersion = env.getVersion x := by
  unfold getValue
  cases hvalue : env.values.get? (env.getVersion x) with
  | none => rfl
  | some value => exact env.keyed _ _ hvalue

theorem count_of_not_mem {x : String} (h : x ∉ env.versionCounters.keys) : env.count x = 1 := by
  unfold count Dict.getD
  rw [Dict.get?_eq_none.mpr h]
  rfl

theorem nextCount_of_mem {x : String} (h : x ∈ env.versionCounters.keys) : env.nextCount x = env.count x + 1 := by
  grind [Option.isSome_iff_exists, Dict.get?_isSome, nextCount, Dict.getD, count]

theorem nextCount_of_not_mem {x : String} (h : x ∉ env.versionCounters.keys) : env.nextCount x = 1 := by
  unfold nextCount Dict.getD
  rw [Dict.get?_eq_none.mpr h]
  rfl

theorem count_le_nextCount (x : String) : env.count x ≤ env.nextCount x := by
  by_cases hmem : x ∈ env.versionCounters.keys
  · have := nextCount_of_mem hmem
    omega
  · rw [count_of_not_mem hmem, nextCount_of_not_mem hmem]

/-- A value that is set is the value of its variable, and of no other. Kind: L -/
theorem getValue_setValue {x : String} {value : AbstractValue} (h : value.varVersion = env.getVersion x) (y : String) :
    (env.setValue value).getValue y = if y = x then value else env.getValue y := by
  have hversion : (env.setValue value).getVersion y = env.getVersion y := rfl
  have hget : (env.setValue value).values.get? (env.getVersion y) =
      if env.getVersion y = env.getVersion x then some value else env.values.get? (env.getVersion y) := by
    rw [← h]
    exact Dict.get?_set ..
  unfold getValue
  rw [hversion, hget]
  by_cases hy : y = x
  · rw [if_pos hy, if_pos (by rw [hy]), Option.getD_some]
  · have hne : env.getVersion y ≠ env.getVersion x := fun heq => hy (eq_of_versionText heq)
    rw [if_neg hy, if_neg hne]

section assignmentKill

variable {x : String} {taint : AbstractTaintState} {provId provDesc : String}

theorem mem_keys_assignmentKill {y : String} :
    y ∈ (env.assignmentKill x taint provId provDesc).versionCounters.keys ↔ y ∈ env.versionCounters.keys ∨ y = x := by
  unfold assignmentKill
  rw [Dict.mem_keys_set, or_comm]

theorem count_assignmentKill_self : (env.assignmentKill x taint provId provDesc).count x = env.nextCount x :=
  Dict.getD_set_self _ _ _ _

theorem count_assignmentKill_ne {y : String} (h : y ≠ x) :
    (env.assignmentKill x taint provId provDesc).count y = env.count y :=
  Dict.getD_set_ne _ h _ _

theorem count_le_assignmentKill (y : String) : env.count y ≤ (env.assignmentKill x taint provId provDesc).count y := by
  by_cases hy : y = x
  · rw [hy, count_assignmentKill_self]
    exact count_le_nextCount x
  · rw [count_assignmentKill_ne hy]

/-- An assigned variable has the assigned value. Kind: L -/
theorem getValue_assignmentKill :
    (env.assignmentKill x taint provId provDesc).getValue x = env.assignedValue x taint provId provDesc := by
  unfold getValue getVersion
  rw [count_assignmentKill_self]
  show (Dict.get? (Dict.set _ _ _) _).getD _ = _
  rw [Dict.get?_set, if_pos (by rfl)]
  rfl

/-- An assignment leaves the other variables alone. Kind: L -/
theorem getValue_assignmentKill_ne {y : String} (h : y ≠ x) :
    (env.assignmentKill x taint provId provDesc).getValue y = env.getValue y := by
  have hversion : (env.assignmentKill x taint provId provDesc).getVersion y = env.getVersion y := by
    unfold getVersion
    rw [count_assignmentKill_ne h]
  have hget : (env.assignmentKill x taint provId provDesc).values.get? (env.getVersion y) = env.values.get? (env.getVersion y) := by
    have hne : env.getVersion y ≠ (env.assignedValue x taint provId provDesc).varVersion := fun heq => h (eq_of_versionText heq)
    exact (Dict.get?_set ..).trans (if_neg hne)
  unfold getValue
  rw [hversion, hget]

end assignmentKill

theorem mem_keys_join {x : String} :
    x ∈ (env.join other).versionCounters.keys ↔ x ∈ env.versionCounters.keys ∨ x ∈ other.versionCounters.keys := by
  unfold join allVars
  rw [Dict.mem_keys_ofList, List.map_map]
  simp [Function.comp_def, sortStrings]

theorem count_le_join (x : String) : env.count x ≤ (env.join other).count x := by
  by_cases hmem : x ∈ (env.join other).versionCounters.keys
  · obtain ⟨n, hn⟩ := Option.isSome_iff_exists.mp (Dict.get?_isSome.mpr hmem)
    obtain ⟨y, -, hy⟩ := List.mem_map.mp (Dict.mem_of_get?_ofList hn)
    obtain ⟨rfl, rfl⟩ := Prod.mk.inj hy
    have hcount : (env.join other).count y = env.maxCount other y := by
      unfold count Dict.getD
      rw [hn]
      rfl
    rw [hcount]
    exact le_max_left _ _
  · simp_all [mem_keys_join, count_of_not_mem]

end AbstractEnvironment

end KarsaSec.Dataflow
