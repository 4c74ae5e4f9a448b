import KarsaSec.Dataflow.GuardPropagation
import Mathlib.Data.Finset.Lattice.Lemmas

/-!
# Joins of environments

What `AbstractEnvironment.join` promises of a variable, against what its two sides promise.

* `Weakens`: a value promises no more than another; its taint is as high or higher, and it has no other facts.
* `join_weakens_iff`: a join weakens both sides exactly if the variables that neither side counts are at most unknown there.
* `Reached`: the environments that assignments, guards and joins lead to; `Reached.transferBlock` and `Reached.refineEdge` are
  the steps of the analysis.
* `join_of_reached`: their joins weaken both sides, and the order of joins does not matter for the taint.
-/

namespace KarsaSec.Dataflow

open KarsaSec.Cfg KarsaSec.Found

/-! ## Taint -/

/-- One taint is as high as another. Kind: D -/
def AbstractTaintState.AtMost (a b : AbstractTaintState) : Prop := joinTaintState a b = b

instance (a b : AbstractTaintState) : Decidable (a.AtMost b) := inferInstanceAs (Decidable (_ = _))

theorem joinTaintState_self (a : AbstractTaintState) : joinTaintState a a = a := by cases a <;> rfl

theorem joinTaintState_comm (a b : AbstractTaintState) : joinTaintState a b = joinTaintState b a := by
  cases a <;> cases b <;> rfl

theorem joinTaintState_assoc (a b c : AbstractTaintState) :
    joinTaintState (joinTaintState a b) c = joinTaintState a (joinTaintState b c) := by
  cases a <;> cases b <;> cases c <;> rfl

theorem AbstractTaintState.atMost_join (a b : AbstractTaintState) : a.AtMost (joinTaintState a b) := by
  rw [AtMost, ← joinTaintState_assoc, joinTaintState_self]

/-- A value promises no more than another. Kind: D -/
structure Weakens (stronger weaker : AbstractValue) : Prop where
  taint : stronger.taint.AtMost weaker.taint
  typeFacts : weaker.typeFacts ⊆ stronger.typeFacts
  sanitizationFacts : weaker.sanitizationFacts ⊆ stronger.sanitizationFacts

namespace AbstractEnvironment

variable {env other : AbstractEnvironment} {x : String}

/-! ## What is read of a join -/

theorem mem_allVars : x ∈ env.allVars other ↔ x ∈ env.versionCounters.keys ∨ x ∈ other.versionCounters.keys := by
  unfold allVars sortStrings
  rw [List.mem_insertionSort, List.mem_dedup, List.mem_append]

/-- A variable that a side counts has the joined value. Kind: L -/
theorem getValue_join (h : x ∈ env.versionCounters.keys ∨ x ∈ other.versionCounters.keys) :
    (env.join other).getValue x = env.joinedValue other x := by
  have hcount : (env.join other).versionCounters.get? x = some (env.maxCount other x) :=
    Dict.get?_ofList_map (fun _ _ heq => heq) (env.maxCount other) (mem_allVars.mpr h)
  have hversion : (env.join other).getVersion x = versionText x (env.maxCount other x) := by
    rw [getVersion, count, Dict.getD, hcount, Option.getD_some]
  have hvalue : (env.join other).values.get? (versionText x (env.maxCount other x)) = some (env.joinedValue other x) :=
    Dict.get?_ofList_map (fun _ _ heq => eq_of_versionText heq) (env.joinedValue other) (mem_allVars.mpr h)
  rw [getValue, hversion, hvalue, Option.getD_some]

/-- A variable that no side counts is unknown in the join, whatever the sides have. Kind: L -/
theorem getValue_join_of_not_mem (henv : x ∉ env.versionCounters.keys) (hother : x ∉ other.versionCounters.keys) :
    (env.join other).getValue x = { varName := x, varVersion := (env.join other).getVersion x, taint := .unknown } := by
  have hvalue : (env.join other).values.get? ((env.join other).getVersion x) = none := by
    refine Dict.get?_eq_none.mpr fun hmem => ?_
    obtain ⟨entry, hentry, hversion⟩ := List.mem_map.mp (Dict.mem_keys_ofList.mp hmem)
    obtain ⟨y, hy, rfl⟩ := List.mem_map.mp hentry
    obtain rfl := eq_of_versionText hversion
    exact (mem_allVars.mp hy).elim henv hother
  rw [getValue, hvalue, Option.getD_none]

/-- What a join says of a variable is weaker than both sides, where a side counts it or both have it at most unknown. Kind: L -/
theorem weakens_join (h : x ∉ env.versionCounters.keys → x ∉ other.versionCounters.keys →
    (env.getValue x).taint.AtMost .unknown ∧ (other.getValue x).taint.AtMost .unknown) :
    Weakens (env.getValue x) ((env.join other).getValue x) ∧ Weakens (other.getValue x) ((env.join other).getValue x) := by
  by_cases hmem : x ∈ env.versionCounters.keys ∨ x ∈ other.versionCounters.keys
  · rw [getValue_join hmem]
    have hright : (other.getValue x).taint.AtMost (env.joinedValue other x).taint := by
      rw [joinedValue, joinTaintState_comm]
      exact AbstractTaintState.atMost_join _ _
    exact ⟨⟨AbstractTaintState.atMost_join _ _, Finset.inter_subset_left, Finset.inter_subset_left⟩,
      ⟨hright, Finset.inter_subset_right, Finset.inter_subset_right⟩⟩
  · obtain ⟨henv, hother⟩ := not_or.mp hmem
    obtain ⟨hleft, hright⟩ := h henv hother
    rw [getValue_join_of_not_mem henv hother]
    exact ⟨⟨hleft, Finset.empty_subset _, Finset.empty_subset _⟩, ⟨hright, Finset.empty_subset _, Finset.empty_subset _⟩⟩

/-- **A join weakens both sides exactly if the variables that neither side counts are at most unknown there.**
Source: `abstract_state.py`, `join`
Kind: P -/
theorem join_weakens_iff (env other : AbstractEnvironment) :
    (∀ x, Weakens (env.getValue x) ((env.join other).getValue x) ∧ Weakens (other.getValue x) ((env.join other).getValue x)) ↔
      ∀ x, x ∉ env.versionCounters.keys → x ∉ other.versionCounters.keys →
        (env.getValue x).taint.AtMost .unknown ∧ (other.getValue x).taint.AtMost .unknown := by
  constructor
  · intro h x henv hother
    obtain ⟨hleft, hright⟩ := h x
    rw [getValue_join_of_not_mem henv hother] at hleft hright
    exact ⟨hleft.taint, hright.taint⟩
  · exact fun h x => weakens_join (h x)

/-! ## Runs -/

/-- The environments that the analysis comes to: an assignment, possibly with constraints; constraints on the value that a
variable has; and joins. Kind: D -/
inductive Reached : AbstractEnvironment → Prop
  | empty : Reached .empty
  | kill {e : AbstractEnvironment} (h : Reached e) (x : String) (taint : AbstractTaintState) (provId provDesc : String) :
      Reached (e.assignmentKill x taint provId provDesc)
  | assign {e : AbstractEnvironment} (h : Reached e) (x : String) (taint : AbstractTaintState) (provId provDesc : String)
      (constraints : Finset SemanticConstraint) : Reached (assignWith e x taint provId provDesc constraints)
  | constrain {e : AbstractEnvironment} (h : Reached e) (x : String) (constraints : Finset SemanticConstraint) :
      Reached (e.setValue ((e.getValue x).withConstraints constraints))
  | join {e e' : AbstractEnvironment} (h : Reached e) (h' : Reached e') : Reached (e.join e')

/-- A value with no more constraints is the value. Kind: L -/
theorem withConstraints_empty (value : AbstractValue) : value.withConstraints ∅ = value := by
  unfold AbstractValue.withConstraints
  rw [if_neg fun h => h.2 rfl, Finset.filter_empty, Finset.filter_empty, Finset.union_empty, Finset.union_empty]

/-- An assignment without constraints sets its value once more. Kind: L -/
theorem assigned_eq (env : AbstractEnvironment) (x : String) (taint : AbstractTaintState) (provId provDesc : String) :
    (env.assignmentKill x taint provId provDesc).setValue (env.assignedValue x taint provId provDesc) =
      assignWith env x taint provId provDesc ∅ := by
  rw [assignWith, withConstraints_empty]

section steps

variable {t : CharTable} {registry : GuardCapabilityRegistry}

/-- Whatever the right-hand side is, the left one is assigned. Kind: L -/
theorem exists_assignWith (t : CharTable) (registry : GuardCapabilityRegistry) (env : AbstractEnvironment) (lhsVar rhsExpr : String) : ∃ taint provId provDesc constraints,
    transferAssign t registry env lhsVar rhsExpr = assignWith env lhsVar taint provId provDesc constraints := by
  unfold transferAssign
  cases findTransformation registry rhsExpr with
  | some found => exact ⟨_, _, _, _, rfl⟩
  | none =>
    cases copiedVariable t rhsExpr with
    | some rhsVar => exact ⟨_, _, _, _, rfl⟩
    | none =>
      dsimp only
      generalize (variablesOf t rhsExpr).foldl (collectVariable env) _ = acc
      generalize "Assigned " ++ String.ofList (rhsExpr.toList.take 30) = provDesc
      by_cases hacc : acc.1 ≠ ∅
      · rw [if_pos hacc]
        exact ⟨_, _, _, _, rfl⟩
      · rw [if_neg hacc, assigned_eq]
        exact ⟨_, _, _, _, rfl⟩

theorem Reached.transferAssign (h : Reached env) (lhsVar rhsExpr : String) :
    Reached (transferAssign t registry env lhsVar rhsExpr) := by
  obtain ⟨taint, provId, provDesc, constraints, heq⟩ := exists_assignWith t registry env lhsVar rhsExpr
  rw [heq]
  exact h.assign _ _ _ _ _

theorem Reached.transferText (h : Reached env) (text : String) : Reached (transferText t registry env text) := by
  unfold Dataflow.transferText
  by_cases htext : text = ""
  · rw [if_pos htext]
    exact h
  rw [if_neg htext]
  cases assignMatch t text with
  | none => exact h
  | some sides => exact h.transferAssign sides.1 sides.2

/-- The statements of a block lead on. Source: `guard_propagation.py`, `_transfer_block`. Kind: L -/
theorem Reached.transferBlock (h : Reached env) (statements : List Stmt) : Reached (transferBlock t registry env statements) := by
  unfold Dataflow.transferBlock
  induction statements generalizing env with
  | nil => exact h
  | cons stmt rest ih => exact ih (h.transferText stmt.text)

/-- An edge leads on. Source: `guard_propagation.py`, `_refine_edge`. Kind: L -/
theorem Reached.refineEdge (h : Reached env) (edge : CFGEdge) : Reached (refineEdge t registry env edge) := by
  unfold Dataflow.refineEdge
  by_cases hkind : edge.kind ≠ .trueBranch ∧ edge.kind ≠ .falseBranch
  · rw [if_pos hkind]
    exact h
  rw [if_neg hkind]
  by_cases hcondition : edge.conditionAst.getD "" = ""
  · rw [if_pos hcondition]
    exact h
  rw [if_neg hcondition]
  rcases matchPredicate t registry (edge.conditionAst.getD "") with _ | ⟨cap, varName, isNegated⟩
  · exact h
  · dsimp only
    generalize (if edge.kind = .trueBranch then if isNegated then cap.falseBranchConstraints else cap.trueBranchConstraints
      else if isNegated then cap.trueBranchConstraints else cap.falseBranchConstraints) = constraints
    by_cases hconstraints : constraints ≠ ∅
    · rw [if_pos hconstraints]
      exact h.constrain varName constraints
    · rw [if_neg hconstraints]
      exact h

end steps

/-- A variable that is not counted is unknown. Kind: L -/
theorem Reached.taint_eq (h : Reached env) : x ∉ env.versionCounters.keys → (env.getValue x).taint = .unknown := by
  induction h with
  | empty => exact fun _ => rfl
  | kill h y taint provId provDesc ih =>
    intro hx
    obtain ⟨hx, hxy⟩ := not_or.mp (mt mem_keys_assignmentKill.mpr hx)
    rw [getValue_assignmentKill_ne hxy]
    exact ih hx
  | @assign e h y taint provId provDesc constraints ih =>
    intro hx
    have hx' : x ∉ (e.assignmentKill y taint provId provDesc).versionCounters.keys := hx
    obtain ⟨hx, hxy⟩ := not_or.mp (mt mem_keys_assignmentKill.mpr hx')
    have hversion : ((e.assignedValue y taint provId provDesc).withConstraints constraints).varVersion =
        (e.assignmentKill y taint provId provDesc).getVersion y := by
      rw [← varVersion_getValue, getValue_assignmentKill]
      rfl
    rw [assignWith, getValue_setValue hversion, if_neg hxy, getValue_assignmentKill_ne hxy]
    exact ih hx
  | @constrain e h y constraints ih =>
    intro hx
    have hx' : x ∉ e.versionCounters.keys := hx
    have hversion : ((e.getValue y).withConstraints constraints).varVersion = e.getVersion y := varVersion_getValue y
    rw [getValue_setValue hversion]
    by_cases hxy : x = y
    · subst hxy
      rw [if_pos rfl, AbstractValue.withConstraints, if_neg, ih hx']
      rintro ⟨htainted, -⟩
      rw [ih hx'] at htainted
      cases htainted
    · rw [if_neg hxy]
      exact ih hx'
  | join h h' _ _ =>
    intro hx
    obtain ⟨henv, hother⟩ := not_or.mp (mt mem_keys_join.mpr hx)
    rw [getValue_join_of_not_mem henv hother]

/-- The taint of a join is the join of the taints. Kind: L -/
theorem Reached.taint_join (h : Reached env) (h' : Reached other) (x : String) :
    ((env.join other).getValue x).taint = joinTaintState (env.getValue x).taint (other.getValue x).taint := by
  by_cases hmem : x ∈ env.versionCounters.keys ∨ x ∈ other.versionCounters.keys
  · rw [getValue_join hmem]
    rfl
  · obtain ⟨henv, hother⟩ := not_or.mp hmem
    rw [getValue_join_of_not_mem henv hother, h.taint_eq henv, h'.taint_eq hother]
    rfl

/-- **The joins of an analysis weaken both sides, and it does not matter for the taint in which order they are made.**
Source: `abstract_state.py`, `join`
Kind: P -/
theorem join_of_reached {e₁ e₂ e₃ : AbstractEnvironment} (h₁ : Reached e₁) (h₂ : Reached e₂) (h₃ : Reached e₃) (x : String) :
    Weakens (e₁.getValue x) ((e₁.join e₂).getValue x) ∧ Weakens (e₂.getValue x) ((e₁.join e₂).getValue x) ∧
      ((e₁.join e₂).getValue x).taint = ((e₂.join e₁).getValue x).taint ∧
      (((e₁.join e₂).join e₃).getValue x).taint = ((e₁.join (e₂.join e₃)).getValue x).taint ∧
      ((e₁.join e₁).getValue x).taint = (e₁.getValue x).taint := by
  have hunknown : x ∉ e₁.versionCounters.keys → x ∉ e₂.versionCounters.keys →
      (e₁.getValue x).taint.AtMost .unknown ∧ (e₂.getValue x).taint.AtMost .unknown := by
    intro hx hx'
    rw [h₁.taint_eq hx, h₂.taint_eq hx']
    exact ⟨joinTaintState_self _, joinTaintState_self _⟩
  obtain ⟨hleft, hright⟩ := weakens_join hunknown
  refine ⟨hleft, hright, ?_, ?_, ?_⟩
  · rw [h₁.taint_join h₂, h₂.taint_join h₁, joinTaintState_comm]
  · rw [(h₁.join h₂).taint_join h₃, h₁.taint_join (h₂.join h₃), h₁.taint_join h₂, h₂.taint_join h₃, joinTaintState_assoc]
  · rw [h₁.taint_join h₁, joinTaintState_self]

/-- A branch that takes a variable from a request. Kind: D -/
def requested : AbstractEnvironment := AbstractEnvironment.empty.assignmentKill "$x" .tainted "" "request"

/-- A branch that sets the variable to a number. Kind: D -/
def numbered : AbstractEnvironment := assignWith .empty "$x" .untainted "" "number" {.integer}

theorem join_of_reached_branches :
    Weakens (requested.getValue "$x") ((requested.join numbered).getValue "$x") ∧
      Weakens (numbered.getValue "$x") ((requested.join numbered).getValue "$x") ∧
      ((requested.join numbered).getValue "$x").taint = ((numbered.join requested).getValue "$x").taint ∧
      (((requested.join numbered).join .empty).getValue "$x").taint =
        ((requested.join (numbered.join .empty)).getValue "$x").taint ∧
      ((requested.join requested).getValue "$x").taint = (requested.getValue "$x").taint := by
  have hrequested : Reached requested := Reached.empty.kill "$x" .tainted "" "request"
  have hnumbered : Reached numbered := Reached.empty.assign "$x" .untainted "" "number" {SemanticConstraint.integer}
  exact join_of_reached hrequested hnumbered .empty "$x"

end AbstractEnvironment

end KarsaSec.Dataflow
