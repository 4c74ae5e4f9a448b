import KarsaSec.Found.Dict
import KarsaSec.Found.Runs
import Mathlib.Order.Basic
import Mathlib.Algebra.Order.Ring.Int

/-!
# Token and cost budgets

`AIBudgetService`: conditional updates of the budget table, each one atomic.

* `reserveTokens`, `commitTokens`, `releaseTokens` are the three updates; an error leaves the table as it
  was.
* `reserveTokens_ok`, `commitTokens_ok`, `releaseTokens_ok` say what an update that goes through does.
-/

namespace KarsaSec.Ai

open KarsaSec.Found

/-- The exceptions of the budget and request services.
Source: `exceptions.py`; `ValueError` and `IntegrityError` besides
Kind: D -/
inductive AIErrorKind
  | tokenBudgetExceeded
  | budgetAccounting
  | requestStateConflict
  | invalidStateTransition
  | requestNotFound
  | idempotencyConflict
  | value
  | integrity
  deriving DecidableEq, Repr

/-- An exception with its message. Kind: D -/
structure AIError where
  kind : AIErrorKind
  message : String
  deriving DecidableEq, Repr

/-- A budget row; counters are integers. Source: `models.py`, `AIBudgetModel`. Kind: D -/
structure AIBudget where
  tokenLimit : ℤ
  usedTokens : ℤ
  reservedTokens : ℤ
  costLimitMicroUnits : ℤ
  usedCostMicroUnits : ℤ
  deriving DecidableEq, Repr

/-- The budget table. Kind: D -/
abbrev Budgets := Dict String AIBudget

namespace AIBudgetService

/-- A budget identifier that no row has. Source: `budget.py`, `not found`. Kind: D -/
def notFound (budgetId : String) : AIError :=
  ⟨.budgetAccounting, "Budget '" ++ budgetId ++ "' not found."⟩

/-- Source: `budget.py`, `AIBudgetService.reserve_tokens`. Kind: D -/
def reserveTokens (budgets : Budgets) (budgetId : String) (requestTokens : ℤ) :
    Except AIError Budgets :=
  if requestTokens ≤ 0 then
    .error ⟨.budgetAccounting,
      "Reservation token count must be positive (got " ++ toString requestTokens ++ ")."⟩
  else
    match budgets.get? budgetId with
    | none => .error (notFound budgetId)
    | some budget =>
      if budget.usedTokens + budget.reservedTokens + requestTokens ≤ budget.tokenLimit then
        .ok (budgets.set budgetId
          { budget with reservedTokens := budget.reservedTokens + requestTokens })
      else
        .error ⟨.tokenBudgetExceeded, "Token budget limit exceeded for '" ++ budgetId ++ "'. Limit=" ++
          toString budget.tokenLimit ++ ", Used=" ++ toString budget.usedTokens ++ ", Reserved=" ++
          toString budget.reservedTokens ++ ", Requested=" ++ toString requestTokens ++ "."⟩

/-- Source: `budget.py`, `AIBudgetService.commit_tokens`. Kind: D -/
def commitTokens (budgets : Budgets) (budgetId : String)
    (reservedTokens actualTokens actualCostMicroUnits : ℤ) : Except AIError Budgets :=
  if reservedTokens < 0 ∨ actualTokens < 0 ∨ actualCostMicroUnits < 0 then
    .error ⟨.budgetAccounting, "Commit values must be non-negative integers."⟩
  else
    match budgets.get? budgetId with
    | none => .error (notFound budgetId)
    | some budget =>
      if reservedTokens ≤ budget.reservedTokens ∧
          budget.usedCostMicroUnits + actualCostMicroUnits ≤ budget.costLimitMicroUnits then
        .ok (budgets.set budgetId
          { budget with
            reservedTokens := budget.reservedTokens - reservedTokens
            usedTokens := budget.usedTokens + actualTokens
            usedCostMicroUnits := budget.usedCostMicroUnits + actualCostMicroUnits })
      else if budget.reservedTokens < reservedTokens then
        .error ⟨.budgetAccounting, "Insufficient reserved tokens on budget '" ++ budgetId ++
          "' (active reserved=" ++ toString budget.reservedTokens ++ ", releasing=" ++
          toString reservedTokens ++ ")."⟩
      else
        .error ⟨.tokenBudgetExceeded, "Cost limit exceeded on budget '" ++ budgetId ++ "'. Limit=" ++
          toString budget.costLimitMicroUnits ++ ", Used=" ++ toString budget.usedCostMicroUnits ++
          ", Added=" ++ toString actualCostMicroUnits ++ "."⟩

/-- Source: `budget.py`, `AIBudgetService.release_tokens`. Kind: D -/
def releaseTokens (budgets : Budgets) (budgetId : String) (tokensToRelease : ℤ) :
    Except AIError Budgets :=
  if tokensToRelease < 0 then
    .error ⟨.budgetAccounting,
      "Tokens to release must be non-negative (got " ++ toString tokensToRelease ++ ")."⟩
  else if tokensToRelease = 0 then .ok budgets
  else
    match budgets.get? budgetId with
    | none => .error (notFound budgetId)
    | some budget =>
      if tokensToRelease ≤ budget.reservedTokens then
        .ok (budgets.set budgetId
          { budget with reservedTokens := budget.reservedTokens - tokensToRelease })
      else
        .error ⟨.budgetAccounting, "Cannot release " ++ toString tokensToRelease ++
          " tokens from budget '" ++ budgetId ++ "' (active reserved_tokens=" ++
          toString budget.reservedTokens ++ ")."⟩

theorem reserveTokens_ok {budgets budgets' : Budgets} {budgetId : String} {n : ℤ} :
    reserveTokens budgets budgetId n = .ok budgets' ↔
      0 < n ∧ ∃ budget, budgets.get? budgetId = some budget ∧
        budget.usedTokens + budget.reservedTokens + n ≤ budget.tokenLimit ∧
        budgets' = budgets.set budgetId { budget with reservedTokens := budget.reservedTokens + n } := by
  unfold reserveTokens
  rcases lt_or_ge 0 n with hn | hn
  · grind
  · rw [if_pos hn]
    simp [hn]

theorem commitTokens_ok {budgets budgets' : Budgets} {budgetId : String} {r a c : ℤ} :
    commitTokens budgets budgetId r a c = .ok budgets' ↔
      (0 ≤ r ∧ 0 ≤ a ∧ 0 ≤ c) ∧ ∃ budget, budgets.get? budgetId = some budget ∧
        (r ≤ budget.reservedTokens ∧
          budget.usedCostMicroUnits + c ≤ budget.costLimitMicroUnits) ∧
        budgets' = budgets.set budgetId
          { budget with
            reservedTokens := budget.reservedTokens - r
            usedTokens := budget.usedTokens + a
            usedCostMicroUnits := budget.usedCostMicroUnits + c } := by
  unfold commitTokens
  by_cases hneg : r < 0 ∨ a < 0 ∨ c < 0
  · grind
  · rw [if_neg hneg]
    have hnonneg : 0 ≤ r ∧ 0 ≤ a ∧ 0 ≤ c := by omega
    rcases budgets.get? budgetId with _ | budget
    · simp
    · by_cases hfit : r ≤ budget.reservedTokens ∧
          budget.usedCostMicroUnits + c ≤ budget.costLimitMicroUnits
      · simp [hfit, hnonneg, eq_comm]
      · constructor
        · grind
        · simp_all

theorem releaseTokens_ok {budgets budgets' : Budgets} {budgetId : String} {n : ℤ} :
    releaseTokens budgets budgetId n = .ok budgets' ↔
      (n = 0 ∧ budgets' = budgets) ∨
        0 < n ∧ ∃ budget, budgets.get? budgetId = some budget ∧ n ≤ budget.reservedTokens ∧
          budgets' = budgets.set budgetId
            { budget with reservedTokens := budget.reservedTokens - n } := by
  unfold releaseTokens
  rcases lt_trichotomy n 0 with hn | hn | hn
  · grind
  · simp [hn, eq_comm]
  · rw [if_neg (by omega), if_neg (by omega)]
    have hne : n ≠ 0 := by omega
    rcases budgets.get? budgetId with _ | budget
    · simp [hne]
    · grind

end AIBudgetService

end KarsaSec.Ai
