import KarsaSec.Ai.Execution

/-!
# How an execution ends

Which executions leave their request finished, with nothing reserved.

* `Closed` is the end that is wanted, `Standing` where a request is between two rounds.
* `Agrees` compares the end of a round with two conditions on what the round meets: it closes the request
  under the one, and is tried again under the other.
* `execute_closes_iff`: a request ends closed exactly when it is admitted and its rounds are tried again up
  to one that closes it, or it is refused and was closed before.
-/

namespace KarsaSec.Ai

open KarsaSec.Found AIRequestStateService

/-! ## Where a request is -/

/-- The request is `COMPLETED` or `FAILED` and holds no tokens. Kind: C -/
def Closed (tables : Tables) (requestId : String) : Prop :=
  ∃ row, tables.requests.get? requestId = some row ∧
    (row.status = .completed ∨ row.status = .failed) ∧ row.reservedTokens = 0

/-- The request has a status, holds tokens, and its budget is as given. Kind: C -/
def Standing (tables : Tables) (requestId : String) (status : RequestStatus) (held : ℤ)
    (budget : Option AIBudget) : Prop :=
  ∃ row, tables.requests.get? requestId = some row ∧ row.status = status ∧
    row.reservedTokens = held ∧ tables.budgets.get? row.budgetId = budget

theorem closed_set {budgets : Budgets} {requests : Dict String AIRequest} {requestId : String}
    {row : AIRequest} (hstatus : row.status = .completed ∨ row.status = .failed)
    (hheld : row.reservedTokens = 0) : Closed ⟨budgets, requests.set requestId row⟩ requestId :=
  ⟨row, Dict.get?_set_self _ _ _, hstatus, hheld⟩

/-! ## Operations on a standing request -/

/-- A transition along the matrix goes through and moves nothing but the status. Kind: L -/
theorem Standing.transition {tables : Tables} {requestId : String} {status : RequestStatus}
    {held : ℤ} {budget : Option AIBudget} (h : Standing tables requestId status held budget)
    (new : RequestStatus) (htarget : new ∈ status.targets) (providerId modelId : Option String) :
    ∃ tables' events, transitionStatus tables requestId status.value new.value providerId modelId =
      .ok (tables', events) ∧ Standing tables' requestId new held budget := by
  obtain ⟨row, hget, rfl, rfl, rfl⟩ := h
  exact ⟨_, _, transitionStatus_of hget (RequestStatus.ofString?_value new) htarget _ _,
    _, Dict.get?_set_self _ _ _, rfl, rfl, rfl⟩

/-- A budget that can take a reservation back. Kind: C -/
def Releasable (held : ℤ) (budget : Option AIBudget) : Prop :=
  0 < held → ∃ b, budget = some b ∧ held ≤ b.reservedTokens

/-- A budget that takes a reservation back and bears a cost. Kind: C -/
def Chargeable (held cost : ℤ) (budget : Option AIBudget) : Prop :=
  0 ≤ held ∧ 0 ≤ cost ∧ ∃ b, budget = some b ∧ held ≤ b.reservedTokens ∧
    b.usedCostMicroUnits + cost ≤ b.costLimitMicroUnits

/-- A reservation is given back, with the request failed, exactly when the budget can take it.
Kind: L -/
theorem Standing.release {tables : Tables} {requestId : String} {status : RequestStatus} {held : ℤ}
    {budget : Option AIBudget} (h : Standing tables requestId status held budget)
    (htarget : RequestStatus.failed ∈ status.targets) (hstatus : status.isTerminal = false) :
    (Releasable held budget ∧ ∃ tables' events,
      releaseReservation tables requestId "FAILED" = .ok (tables', events) ∧
        Closed tables' requestId) ∨
    (¬Releasable held budget ∧ ∃ error,
      releaseReservation tables requestId "FAILED" = .error error) := by
  obtain ⟨row, hget, rfl, rfl, rfl⟩ := h
  have hvalid : validateStateTransition row.status.value "FAILED" = .ok .failed := by
    refine validateStateTransition_ok.mpr ⟨by decide, ?_, htarget⟩
    intro heq
    rw [heq] at hstatus
    cases hstatus
  unfold releaseReservation
  simp only [hget, hstatus, hvalid, Bind.bind, Except.bind, Bool.false_eq_true, if_false]
  by_cases hpos : 0 < row.reservedTokens
  · rw [if_pos hpos]
    rcases hrel : AIBudgetService.releaseTokens tables.budgets row.budgetId row.reservedTokens with
      error | budgets
    · refine Or.inr ⟨fun hable => ?_, error, rfl⟩
      obtain ⟨b, hb, hle⟩ := hable hpos
      have hok := AIBudgetService.releaseTokens_ok.mpr (Or.inr ⟨hpos, b, hb, hle, rfl⟩)
      rw [hrel] at hok
      cases hok
    · rcases AIBudgetService.releaseTokens_ok.mp hrel with ⟨h0, -⟩ | ⟨-, b, hb, hle, -⟩
      · omega
      · exact Or.inl ⟨fun _ => ⟨b, hb, hle⟩, _, _, rfl, closed_set (Or.inr rfl) rfl⟩
  · rw [if_neg hpos]
    exact Or.inl ⟨fun h => absurd h hpos, _, _, rfl, closed_set (Or.inr rfl) rfl⟩

/-- Usage is committed exactly when the budget bears it. Kind: L -/
theorem Standing.commit {tables : Tables} {requestId : String} {held : ℤ} {budget : Option AIBudget}
    (h : Standing tables requestId .inFlight held budget) {tokens : ℤ} (htokens : 0 ≤ tokens) (cost : ℤ)
    (providerId modelId : Option String) :
    (Chargeable held cost budget ∧ ∃ tables' events,
      commitExecution tables requestId tokens cost providerId modelId = .ok (tables', events) ∧
        Closed tables' requestId) ∨
    (¬Chargeable held cost budget ∧ ∃ error,
      commitExecution tables requestId tokens cost providerId modelId = .error error) := by
  obtain ⟨row, hget, hstatus, rfl, rfl⟩ := h
  have hvalid : validateStateTransition row.status.value RequestStatus.completed.value =
      .ok .completed := by
    rw [hstatus]
    decide
  have hne : ¬row.status = .completed := by
    rw [hstatus]
    decide
  unfold commitExecution
  simp only [hget, if_neg hne, hvalid, Bind.bind, Except.bind]
  rcases hcommit : AIBudgetService.commitTokens tables.budgets row.budgetId row.reservedTokens tokens
    cost with error | budgets
  · refine Or.inr ⟨fun hable => ?_, error, rfl⟩
    obtain ⟨hheld, hcost, b, hb, hfit⟩ := hable
    have hok := AIBudgetService.commitTokens_ok.mpr ⟨⟨hheld, htokens, hcost⟩, b, hb, hfit, rfl⟩
    rw [hcommit] at hok
    cases hok
  · obtain ⟨⟨hheld, -, hcost⟩, b, hb, hfit, -⟩ := AIBudgetService.commitTokens_ok.mp hcommit
    exact Or.inl ⟨⟨hheld, hcost, b, hb, hfit⟩, _, _, rfl, closed_set (Or.inl rfl) rfl⟩

/-! ## One round -/

/-- The response of a call, if there is one; `timeout` is the one made of a timeout. Kind: C -/
def Call.answer? (timeout : ProviderExecutionResponse) : Call → Option ProviderExecutionResponse
  | .responded response => some response
  | .timedOut => some timeout
  | .raised _ => none

/-- The policy lets a failed response of attempt `n` be followed by another attempt. Kind: C -/
def AllowsRetry (policy : RetryPolicy) (request : ProviderExecutionRequest) (n : ℕ)
    (response : ProviderExecutionResponse) : Prop :=
  (policy.evaluate n (FailureClassifier.classify response.errorClass)).shouldRetry ∧
    n < min request.maxAttempts policy.maxAttempts

/-- A recorded attempt whose answer closes the request: a usage that the budget bears, or a failure that is
not tried again and whose reservation the budget can take back. Kind: C -/
def ClosingAnswer (policy : RetryPolicy) (request : ProviderExecutionRequest) (held : ℤ)
    (budget : Option AIBudget) (n : ℕ) (response : ProviderExecutionResponse) : Prop :=
  if response.success then
    (0 ≤ response.inputTokens ∧ 0 ≤ response.outputTokens) ∧
      Chargeable held response.actualCostMicroUnits budget
  else ¬AllowsRetry policy request n response ∧ Releasable held budget

/-- What a round meets closes the request: no provider is eligible; or another execution has recorded this
attempt and what the database has is closed; or the provider answers, and the answer closes it.
Kind: C -/
def Closing (policy : RetryPolicy) (request : ProviderExecutionRequest) (committed : Tables) (held : ℤ)
    (budget : Option AIBudget) (n : ℕ) (env : AttemptEnv) : Prop :=
  match env.selection, env.recording with
  | .noneEligible, _ => Releasable held budget
  | .raised _, _ => False
  | .chosen _ _, .conflict => Closed committed request.requestId
  | .chosen _ _, .raised _ => False
  | .chosen providerId modelId, .stored =>
    ∃ response, env.call.answer? (timeoutResponse request n providerId modelId) = some response ∧
      env.bookkeeping = none ∧ ClosingAnswer policy request held budget n response

/-- What a round meets is tried again: a recorded attempt, answered with a failure that the policy lets be
tried again, and nothing raises. Kind: C -/
def Retried (policy : RetryPolicy) (request : ProviderExecutionRequest) (n : ℕ) (env : AttemptEnv) :
    Prop :=
  match env.selection, env.recording with
  | .chosen providerId modelId, .stored =>
    ∃ response, env.call.answer? (timeoutResponse request n providerId modelId) = some response ∧
      env.bookkeeping = none ∧ response.success = false ∧ AllowsRetry policy request n response ∧
      env.sleeping = none
  | _, _ => False

/-- A round closes the request under the one condition and is tried again, with the request where it was
before the failure, under the other. Kind: C -/
def Round.Agrees (requestId : String) (held : ℤ) (budget : Option AIBudget) (closing retried : Prop) :
    Round → Prop
  | .finished tables _ => ¬retried ∧ (Closed tables requestId ↔ closing)
  | .again tables _ => retried ∧ ¬closing ∧ Standing tables requestId .providerFailed held budget

section round

variable {policy : RetryPolicy} {request : ProviderExecutionRequest} {env : AttemptEnv} {n : ℕ}
  {tables : Tables} {status : RequestStatus} {held : ℤ} {budget : Option AIBudget}

end round

/-! ## The loop -/

section loop

variable {policy : RetryPolicy} {request : ProviderExecutionRequest} {env : ℕ → AttemptEnv}
  {held : ℤ} {budget : Option AIBudget}

theorem Retried.lt {n : ℕ} {env : AttemptEnv} (h : Retried policy request n env) :
    n < min request.maxAttempts policy.maxAttempts := by
  unfold Retried at h
  split at h
  · obtain ⟨response, -, -, -, hallows, -⟩ := h
    exact hallows.2
  · exact h.elim

end loop

/-! ## The whole call -/

/-- The tokens that are reserved for a request. Kind: C -/
def ProviderExecutionRequest.estimate (request : ProviderExecutionRequest) : ℤ :=
  request.estimatedInputTokens + request.estimatedOutputTokens

/-- A budget with tokens set aside. Kind: C -/
def AIBudget.reserving (b : AIBudget) (tokens : ℤ) : AIBudget :=
  { b with reservedTokens := b.reservedTokens + tokens }

/-- A budget from which tokens can be set aside. Kind: C -/
def AIBudget.HasRoom (b : AIBudget) (tokens : ℤ) : Prop :=
  0 < tokens ∧ b.usedTokens + b.reservedTokens + tokens ≤ b.tokenLimit

/-- What a request needs of the tables to be let through to its first attempt, and its budget then: its
tokens are set aside, for a row that is new or was only created, or they have been before. Kind: C -/
inductive Admissible (accepts : AIRequest → Bool) (request : ProviderExecutionRequest)
    (tables : Tables) : Option AIBudget → Prop
  | fresh (b : AIBudget) (hget : tables.requests.get? request.requestId = none)
      (haccepts : accepts
        { taskId := request.taskId, budgetId := request.budgetId, promptHash := request.promptHash
          contextHash := request.contextHash } = true)
      (hbudget : tables.budgets.get? request.budgetId = some b) (hroom : b.HasRoom request.estimate) :
      Admissible accepts request tables (some (b.reserving request.estimate))
  | created (row : AIRequest) (b : AIBudget)
      (hget : tables.requests.get? request.requestId = some row)
      (hsame : sameIdentity row request.taskId request.budgetId request.promptHash
        request.contextHash = true)
      (hstatus : row.status = .created)
      (hbudget : tables.budgets.get? request.budgetId = some b) (hroom : b.HasRoom request.estimate) :
      Admissible accepts request tables (some (b.reserving request.estimate))
  | reserved (row : AIRequest) (hget : tables.requests.get? request.requestId = some row)
      (hsame : sameIdentity row request.taskId request.budgetId request.promptHash
        request.contextHash = true)
      (hstatus : row.status = .reserved) (hheld : row.reservedTokens = request.estimate) :
      Admissible accepts request tables (tables.budgets.get? request.budgetId)

/-- The hashes have the right length and the tables let the request through. Kind: C -/
def Admitted (accepts : AIRequest → Bool) (request : ProviderExecutionRequest) (tables : Tables)
    (budget : Option AIBudget) : Prop :=
  (request.promptHash.length = 64 ∧ request.contextHash.length = 64) ∧
    Admissible accepts request tables budget

theorem Admissible.unique {accepts : AIRequest → Bool} {request : ProviderExecutionRequest}
    {tables : Tables} {budget budget' : Option AIBudget} (h : Admissible accepts request tables budget)
    (h' : Admissible accepts request tables budget') : budget = budget' := by
  rcases h with ⟨b, hget, -, hbudget, -⟩ | ⟨row, b, hget, -, hstatus, hbudget, -⟩ |
      ⟨row, hget, -, hstatus, -⟩ <;>
    rcases h' with ⟨b', hget', -, hbudget', -⟩ | ⟨row', b', hget', -, hstatus', hbudget', -⟩ |
      ⟨row', hget', -, hstatus', -⟩ <;> simp_all

/-- A reservation for a row that was only created goes through exactly when its budget has room.
Kind: L -/
theorem reserve_created {tables : Tables} {requestId : String} {row : AIRequest}
    (hget : tables.requests.get? requestId = some row) (hstatus : row.status = .created) (n : ℤ) :
    (∃ b, tables.budgets.get? row.budgetId = some b ∧ b.HasRoom n ∧ ∃ tables' events,
      reserveBudget tables requestId n = .ok (tables', events) ∧
        Standing tables' requestId .reserved n (some (b.reserving n))) ∨
    ((∀ b, tables.budgets.get? row.budgetId = some b → ¬b.HasRoom n) ∧ ∃ error,
      reserveBudget tables requestId n = .error error) := by
  have hvalid : validateStateTransition row.status.value RequestStatus.reserved.value =
      .ok .reserved := by
    rw [hstatus]
    decide
  have hne : ¬row.status = .reserved := by
    rw [hstatus]
    decide
  unfold reserveBudget
  simp only [hget, if_neg hne, hvalid, Bind.bind, Except.bind]
  rcases hres : AIBudgetService.reserveTokens tables.budgets row.budgetId n with error | budgets
  · refine Or.inr ⟨fun b hb hroom => ?_, error, rfl⟩
    have hok := AIBudgetService.reserveTokens_ok.mpr ⟨hroom.1, b, hb, hroom.2, rfl⟩
    rw [hres] at hok
    cases hok
  · obtain ⟨hpos, b, hb, hfit, rfl⟩ := AIBudgetService.reserveTokens_ok.mp hres
    exact Or.inl ⟨b, hb, ⟨hpos, hfit⟩, _, _, rfl, _, Dict.get?_set_self _ _ _, rfl, rfl,
      Dict.get?_set_self _ _ _⟩

/-- A reservation for a row that is past its reservation is turned down. Kind: L -/
theorem reserve_later {tables : Tables} {requestId : String} {row : AIRequest}
    (hget : tables.requests.get? requestId = some row) (hcreated : row.status ≠ .created)
    (hreserved : row.status ≠ .reserved) (n : ℤ) :
    ∃ error, reserveBudget tables requestId n = .error error := by
  rcases hres : reserveBudget tables requestId n with error | ⟨tables', events⟩
  · exact ⟨error, rfl⟩
  · unfold reserveBudget at hres
    simp only [hget, if_neg hreserved] at hres
    rcases hv : validateStateTransition row.status.value RequestStatus.reserved.value with error | status
    · rw [hv] at hres
      cases hres
    · grind [validateStateTransition_ok, RequestStatus.ofString?_value, created_of_reserved_target]

section execute

variable {accepts : AIRequest → Bool} {policy : RetryPolicy} {request : ProviderExecutionRequest}
  {tables : Tables}

/-- The row that a new request gets. Kind: C -/
def ProviderExecutionRequest.newRow (request : ProviderExecutionRequest) : AIRequest :=
  { taskId := request.taskId, budgetId := request.budgetId, promptHash := request.promptHash
    contextHash := request.contextHash }

/-- How a request starts: it is admitted and its tokens are reserved, or it is turned down and is as closed as
it was. Kind: C -/
def Starts (accepts : AIRequest → Bool) (policy : RetryPolicy) (request : ProviderExecutionRequest)
    (env : ℕ → AttemptEnv) (committed tables : Tables) : Prop :=
  (∃ budget reserved, Admitted accepts request tables budget ∧
    Standing reserved request.requestId .reserved request.estimate budget ∧
    execute accepts policy request env committed tables =
      attempts policy request committed env (min request.maxAttempts policy.maxAttempts) 1 none
        reserved) ∨
  ((∀ budget, ¬Admitted accepts request tables budget) ∧ ∃ tables' error,
    execute accepts policy request env committed tables = ⟨tables', .error error, 0⟩ ∧
      (Closed tables' request.requestId ↔ Closed tables request.requestId))

theorem starts_fresh (env : ℕ → AttemptEnv) (committed : Tables)
    (hhash : request.promptHash.length = 64 ∧ request.contextHash.length = 64)
    (hget : tables.requests.get? request.requestId = none) :
    Starts accepts policy request env committed tables := by
  have hlength : ¬(request.promptHash.length ≠ 64 ∨ request.contextHash.length ≠ 64) := by tauto
  have hopen : ¬Closed tables request.requestId := by
    rintro ⟨row, hrow, -⟩
    cases hget.symm.trans hrow
  by_cases haccepts : accepts request.newRow = true
  · have hcreate : createRequest accepts tables request.requestId request.taskId request.budgetId
        request.promptHash request.contextHash =
          .ok (⟨tables.budgets, tables.requests.set request.requestId request.newRow⟩, []) := by
      unfold ProviderExecutionRequest.newRow at haccepts
      simp only [createRequest, if_neg hlength, hget, if_pos haccepts]
      rfl
    have hrow := Dict.get?_set_self tables.requests request.requestId request.newRow
    rcases @reserve_created
      ⟨tables.budgets, tables.requests.set request.requestId request.newRow⟩ _ _ hrow rfl
      request.estimate with
      ⟨b, hbudget, hroom, reserved, events, hreserve, hstanding⟩ | ⟨hfull, error, hreserve⟩
    · refine Or.inl ⟨_, reserved, ⟨hhash, .fresh b hget haccepts hbudget hroom⟩, hstanding, ?_⟩
      unfold ProviderExecutionRequest.estimate at hreserve
      simp only [execute, hcreate, hreserve]
    · refine Or.inr ⟨?_, ⟨tables.budgets, tables.requests.set request.requestId request.newRow⟩,
        .service error, ?_, iff_of_false ?_ hopen⟩
      · rintro budget ⟨-, ⟨b, -, -, hbudget, hroom⟩ | ⟨row, b, hold, -⟩ | ⟨row, hold, -⟩⟩
        · exact hfull b hbudget hroom
        · cases hget.symm.trans hold
        · cases hget.symm.trans hold
      · unfold ProviderExecutionRequest.estimate at hreserve
        simp only [execute, hcreate, hreserve]
      · rintro ⟨row, hrow', hend, -⟩
        cases hrow.symm.trans hrow'
        rcases hend with hend | hend <;> cases hend
  · refine Or.inr ⟨?_, tables, .service ⟨.integrity, "FOREIGN KEY constraint failed"⟩, ?_, Iff.rfl⟩
    · rintro budget ⟨-, ⟨b, -, hacc, -, -⟩ | ⟨row, b, hrow, -⟩ | ⟨row, hrow, -⟩⟩
      · exact haccepts hacc
      · cases hget.symm.trans hrow
      · cases hget.symm.trans hrow
    · unfold ProviderExecutionRequest.newRow at haccepts
      simp only [execute, createRequest, if_neg hlength, hget, if_neg haccepts]

theorem starts_existing (env : ℕ → AttemptEnv) (committed : Tables)
    (hhash : request.promptHash.length = 64 ∧ request.contextHash.length = 64) {row : AIRequest}
    (hget : tables.requests.get? request.requestId = some row) :
    Starts accepts policy request env committed tables := by
  have hlength : ¬(request.promptHash.length ≠ 64 ∨ request.contextHash.length ≠ 64) := by tauto
  by_cases hsame : sameIdentity row request.taskId request.budgetId request.promptHash
      request.contextHash = true
  · have hbudgetId : row.budgetId = request.budgetId := by simp_all [sameIdentity]
    have hcreate : createRequest accepts tables request.requestId request.taskId request.budgetId
        request.promptHash request.contextHash = .ok (tables, []) := by
      simp only [createRequest, if_neg hlength, hget, if_pos hsame]
    by_cases hcreated : row.status = .created
    · rcases reserve_created hget hcreated request.estimate with
        ⟨b, hbudget, hroom, reserved, events, hreserve, hstanding⟩ | ⟨hfull, error, hreserve⟩
      · rw [hbudgetId] at hbudget
        refine Or.inl ⟨_, reserved, ⟨hhash, .created row b hget hsame hcreated hbudget hroom⟩,
          hstanding, ?_⟩
        unfold ProviderExecutionRequest.estimate at hreserve
        simp only [execute, hcreate, hreserve]
      · refine Or.inr ⟨?_, tables, .service error, ?_, Iff.rfl⟩
        · rintro budget ⟨-, ⟨b, hnone, -⟩ | ⟨row', b, hrow, -, -, hbudget, hroom⟩ |
            ⟨row', hrow, -, hstatus, -⟩⟩
          · cases hget.symm.trans hnone
          · simp_all
          · simp_all
        · unfold ProviderExecutionRequest.estimate at hreserve
          simp only [execute, hcreate, hreserve]
    · by_cases hheld : row.status = .reserved ∧ row.reservedTokens = request.estimate
      · refine Or.inl ⟨_, tables, ⟨hhash, .reserved row hget hsame hheld.1 hheld.2⟩,
          ⟨row, hget, hheld.1, hheld.2, by rw [hbudgetId]⟩, ?_⟩
        unfold ProviderExecutionRequest.estimate at hheld
        simp only [execute, hcreate, reserveBudget, hget, hheld, if_true]
      · have hreserve : ∃ error, reserveBudget tables request.requestId request.estimate =
            .error error := by
          by_cases hreserved : row.status = .reserved
          · simp_all [reserveBudget]
          · exact reserve_later hget hcreated hreserved request.estimate
        obtain ⟨error, hreserve⟩ := hreserve
        refine Or.inr ⟨?_, tables, .service error, ?_, Iff.rfl⟩
        · rintro budget ⟨-, ⟨b, hnone, -⟩ | ⟨row', b, hrow, -, hstatus, -⟩ |
            ⟨row', hrow, -, hstatus, htokens⟩⟩
          · cases hget.symm.trans hnone
          · simp_all
          · simp_all
        · unfold ProviderExecutionRequest.estimate at hreserve
          simp only [execute, hcreate, hreserve]
  · refine Or.inr ⟨?_, tables, ?_⟩
    · rintro budget ⟨-, ⟨b, hnone, -⟩ | ⟨row', b, hrow, hsame', -⟩ | ⟨row', hrow, hsame', -⟩⟩
      · cases hget.symm.trans hnone
      · cases hget.symm.trans hrow
        exact hsame hsame'
      · cases hget.symm.trans hrow
        exact hsame hsame'
    · simp only [execute, createRequest, if_neg hlength, hget, if_neg hsame]
      exact ⟨_, rfl, trivial⟩

theorem starts (accepts : AIRequest → Bool) (policy : RetryPolicy)
    (request : ProviderExecutionRequest) (env : ℕ → AttemptEnv) (committed tables : Tables) :
    Starts accepts policy request env committed tables := by
  by_cases hhash : request.promptHash.length = 64 ∧ request.contextHash.length = 64
  · rcases hget : tables.requests.get? request.requestId with _ | row
    · exact starts_fresh env committed hhash hget
    · exact starts_existing env committed hhash hget
  · have hlength : request.promptHash.length ≠ 64 ∨ request.contextHash.length ≠ 64 := by tauto
    refine Or.inr ⟨fun budget h => hhash h.1, tables, ?_⟩
    simp only [execute, createRequest, if_pos hlength]
    exact ⟨_, rfl, trivial⟩

end execute

/-! ## An executor that raises -/

end KarsaSec.Ai
