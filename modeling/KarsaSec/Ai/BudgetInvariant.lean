import KarsaSec.Ai.Budget

/-!
# What keeps a budget within its limits

Runs of budget transactions, each one atomic, in any order.

* `BudgetOp.run` is one transaction: an error leaves the table as it was.
* `AIBudget.WithinLimits` is the invariant; `reserve` and `release` keep it, and `commit` checks the
  cost limit but not the token limit.
* `withinLimits_reached_iff`: it holds in every state of a run exactly when every commit fits.
-/

namespace KarsaSec.Ai

open KarsaSec.Found

/-- The counters of a budget respect each other. Kind: C -/
structure AIBudget.WithinLimits (b : AIBudget) : Prop where
  reserved : 0 ≤ b.reservedTokens
  used : 0 ≤ b.usedTokens
  tokens : b.usedTokens + b.reservedTokens ≤ b.tokenLimit
  cost : b.usedCostMicroUnits ≤ b.costLimitMicroUnits

/-- Every budget is within its limits. Kind: C -/
def Budgets.WithinLimits (budgets : Budgets) : Prop :=
  ∀ id b, budgets.get? id = some b → b.WithinLimits

/-- The transactions on the budget table. A new budget has its limits, which a check constraint keeps
non-negative, and counters at zero.
Source: `budget.py`; `models.py`, defaults and constraints of `AIBudgetModel`
Kind: D -/
inductive BudgetOp
  | open (budgetId : String) (tokenLimit costLimitMicroUnits : ℕ)
  | reserve (budgetId : String) (requestTokens : ℤ)
  | commit (budgetId : String) (reservedTokens actualTokens actualCostMicroUnits : ℤ)
  | release (budgetId : String) (tokensToRelease : ℤ)

namespace BudgetOp

/-- What a transaction asks of the table. Kind: D -/
def perform (budgets : Budgets) : BudgetOp → Except AIError Budgets
  | .open id tokenLimit costLimit =>
    if budgets.contains id then .error ⟨.integrity, "UNIQUE constraint failed: ai_budgets.budget_id"⟩
    else .ok (budgets.set id ⟨tokenLimit, 0, 0, costLimit, 0⟩)
  | .reserve id n => AIBudgetService.reserveTokens budgets id n
  | .commit id r a c => AIBudgetService.commitTokens budgets id r a c
  | .release id n => AIBudgetService.releaseTokens budgets id n

/-- One transaction: it is rolled back if it fails. Kind: D -/
def run (budgets : Budgets) (op : BudgetOp) : Budgets :=
  match op.perform budgets with
  | .ok budgets' => budgets'
  | .error _ => budgets

/-- The tokens of a commit fit into the budget: once the given reservation is gone, what was used, what
is still reserved and what is reported are within the token limit. Commits that are turned down
(values below zero, less reserved, or over the cost limit) need not fit. Kind: C -/
def Fits (budgets : Budgets) : BudgetOp → Prop
  | .commit id r a c =>
    0 ≤ r → 0 ≤ a → 0 ≤ c → ∀ b, budgets.get? id = some b → r ≤ b.reservedTokens →
      b.usedCostMicroUnits + c ≤ b.costLimitMicroUnits →
      b.usedTokens + a + (b.reservedTokens - r) ≤ b.tokenLimit
  | _ => True

end BudgetOp

theorem Budgets.withinLimits_set {budgets : Budgets} (h : budgets.WithinLimits) {id : String}
    {b : AIBudget} : Budgets.WithinLimits (budgets.set id b) ↔ b.WithinLimits := by
  constructor
  · intro hset
    exact hset id b (Dict.get?_set_self _ _ _)
  · intro hb id' b' hget
    rw [Dict.get?_set] at hget
    split at hget
    · cases hget
      exact hb
    · exact h id' b' hget

/-- A transaction on budgets within their limits keeps them there exactly when it fits.
Source: `budget.py`, `AIBudgetService`
Kind: P -/
theorem BudgetOp.withinLimits_run_iff {budgets : Budgets} (h : budgets.WithinLimits)
    (op : BudgetOp) : (op.run budgets).WithinLimits ↔ op.Fits budgets := by
  unfold run
  rcases op with ⟨id, tokenLimit, costLimit⟩ | ⟨id, n⟩ | ⟨id, r, a, c⟩ | ⟨id, n⟩
  · -- a new budget
    unfold perform Fits
    by_cases hid : budgets.contains id
    · simpa [hid] using h
    · simp only [hid, Bool.false_eq_true, if_false, iff_true]
      refine (Budgets.withinLimits_set h).mpr ⟨le_rfl, le_rfl, ?_, ?_⟩ <;> simp
  · -- a reservation: its own check keeps the token limit
    unfold Fits
    rcases hok : perform budgets (.reserve id n) with err | budgets'
    · simpa using h
    · obtain ⟨hn, b, hb, hfit, rfl⟩ := AIBudgetService.reserveTokens_ok.mp hok
      have hlimits := h id b hb
      simp only [iff_true]
      refine (Budgets.withinLimits_set h).mpr ⟨?_, hlimits.used, ?_, hlimits.cost⟩
      · have := hlimits.reserved
        show 0 ≤ b.reservedTokens + n
        omega
      · grind
  · -- a commit
    rcases hok : perform budgets (.commit id r a c) with err | budgets'
    · simp only [h, true_iff]
      intro hr ha hc b hb hrb hcost
      have hgoes := AIBudgetService.commitTokens_ok.mpr ⟨⟨hr, ha, hc⟩, b, hb, ⟨hrb, hcost⟩, rfl⟩
      rw [show perform budgets (.commit id r a c) =
        AIBudgetService.commitTokens budgets id r a c from rfl, hgoes] at hok
      cases hok
    · obtain ⟨⟨hr, ha, hc⟩, b, hb, ⟨hrb, hcost⟩, rfl⟩ := AIBudgetService.commitTokens_ok.mp hok
      have hlimits := h id b hb
      have hused := hlimits.used
      refine (Budgets.withinLimits_set h).trans ⟨fun hset => ?_, fun hfit => ?_⟩
      · intro _ _ _ b' hb' _ _
        cases hb.symm.trans hb'
        exact hset.tokens
      · refine ⟨?_, ?_, hfit hr ha hc b hb hrb hcost, hcost⟩
        · show 0 ≤ b.reservedTokens - r
          omega
        · show 0 ≤ b.usedTokens + a
          omega
  · -- a release
    unfold Fits
    rcases hok : perform budgets (.release id n) with err | budgets'
    · simpa using h
    · simp only [iff_true]
      rcases AIBudgetService.releaseTokens_ok.mp hok with ⟨-, rfl⟩ | ⟨hn, b, hb, hle, rfl⟩
      · exact h
      · have hlimits := h id b hb
        have htokens := hlimits.tokens
        refine (Budgets.withinLimits_set h).mpr ⟨?_, hlimits.used, ?_, hlimits.cost⟩
        · show 0 ≤ b.reservedTokens - n
          omega
        · grind

/-- **Every budget of every state of a run is within its limits exactly when every commit fits.**
Source: `budget.py`, `AIBudgetService.commit_tokens`
Kind: P -/
theorem withinLimits_reached_iff (ops : List BudgetOp) :
    (∀ budgets ∈ reached (fun s op => BudgetOp.run s op) Dict.empty ops,
        Budgets.WithinLimits budgets) ↔
      Along (fun s op => BudgetOp.run s op) (fun s op => op.Fits s) Dict.empty ops := by
  refine forall_reached_iff (I := fun _ => True) (fun _ _ _ => trivial)
    (fun s op _ hs => BudgetOp.withinLimits_run_iff hs op) trivial ?_ ops
  intro id b hget
  rw [Dict.get?_empty] at hget
  cases hget

/-- A provider reports more than was reserved, on a budget that is full.
Source: `budget.py`, `AIBudgetService.commit_tokens`
Kind: C -/
theorem overrun_exceeds_limit :
    ¬ ∀ budgets ∈ reached (fun s op => BudgetOp.run s op) Dict.empty
        [.open "b" 100 1000, .reserve "b" 100, .commit "b" 100 150 10],
      Budgets.WithinLimits budgets := by
  intro h
  have hlast : Dict.empty.set "b" ⟨100, 150, 0, 1000, 10⟩ ∈
      reached (fun s op => BudgetOp.run s op) Dict.empty
        [.open "b" 100 1000, .reserve "b" 100, .commit "b" 100 150 10] :=
    .tail _ (.tail _ (.tail _ (List.mem_singleton.mpr rfl)))
  have hlimits := h _ hlast "b" ⟨100, 150, 0, 1000, 10⟩ (by decide)
  exact absurd hlimits.tokens (by decide)

end KarsaSec.Ai
