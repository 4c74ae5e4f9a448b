import KarsaSec.Ai.Budget

/-!
# AI requests

`AIRequestStateService`: the request table over the budget table.

* `validateStateTransition` is the transition matrix.
* `createRequest`, `reserveBudget`, `transitionStatus`, `commitExecution` and `releaseReservation` are the
  operations; each returns the tables and the accounting events it caused, or an error.
-/

namespace KarsaSec.Ai

open KarsaSec.Found

/-! ## States -/

/-- Source: `state_machine.py`, `ALL_STATES`. Kind: D -/
inductive RequestStatus
  | created
  | reserved
  | routed
  | inFlight
  | providerFailed
  | completed
  | failed
  | cancelled
  deriving DecidableEq, Repr

namespace RequestStatus

/-- Source: `state_machine.py`, `STATE_CREATED` and the others. Kind: D -/
def value : RequestStatus → String
  | created => "CREATED"
  | reserved => "RESERVED"
  | routed => "ROUTED"
  | inFlight => "IN_FLIGHT"
  | providerFailed => "PROVIDER_FAILED"
  | completed => "COMPLETED"
  | failed => "FAILED"
  | cancelled => "CANCELLED"

/-- Every state. Source: `state_machine.py`, `ALL_STATES`. Kind: D -/
def all : List RequestStatus :=
  [created, reserved, routed, inFlight, providerFailed, completed, failed, cancelled]

/-- The state of a string, if it is one. Source: `state_machine.py`, `in ALL_STATES`. Kind: D -/
def ofString? (s : String) : Option RequestStatus := all.find? fun status => status.value = s

/-- Source: `state_machine.py`, `TERMINAL_STATES`, `is_terminal_state`. Kind: D -/
def isTerminal : RequestStatus → Bool
  | completed | failed | cancelled => true
  | _ => false

/-- The targets of a state, in the order of their names.
Source: `state_machine.py`, `ALLOWED_TRANSITIONS`
Kind: D -/
def targets : RequestStatus → List RequestStatus
  | created => [cancelled, failed, reserved]
  | reserved => [cancelled, failed, routed]
  | routed => [cancelled, failed, inFlight, providerFailed]
  | inFlight => [cancelled, completed, failed, providerFailed]
  | providerFailed => [cancelled, failed, routed]
  | completed | failed | cancelled => []

theorem ofString?_value (s : RequestStatus) : ofString? s.value = some s := by
  cases s <;> decide

end RequestStatus

/-- A list of names as it is printed. Source: `state_machine.py`, `sorted(allowed_targets)`. Kind: D -/
def showNames (names : List String) : String :=
  "[" ++ ", ".intercalate (names.map fun name => "'" ++ name ++ "'") ++ "]"

/-- Checks a transition between two names and gives its target.
Source: `state_machine.py`, `validate_state_transition`
Kind: D -/
def validateStateTransition (currentStatus newStatus : String) : Except AIError RequestStatus :=
  match RequestStatus.ofString? currentStatus with
  | none => .error ⟨.invalidStateTransition, "Unknown current status '" ++ currentStatus ++ "'."⟩
  | some current =>
    match RequestStatus.ofString? newStatus with
    | none => .error ⟨.invalidStateTransition, "Unknown new target status '" ++ newStatus ++ "'."⟩
    | some new =>
      if current = new then
        .error ⟨.invalidStateTransition, "Invalid self-transition from '" ++ currentStatus ++
          "' to '" ++ newStatus ++ "'."⟩
      else if new ∈ current.targets then .ok new
      else
        .error ⟨.invalidStateTransition, "Invalid state transition from '" ++ currentStatus ++
          "' to '" ++ newStatus ++ "'. Allowed targets: " ++
          showNames (current.targets.map RequestStatus.value)⟩

theorem validateStateTransition_ok {current : RequestStatus} {newStatus : String}
    {new : RequestStatus} :
    validateStateTransition current.value newStatus = .ok new ↔
      RequestStatus.ofString? newStatus = some new ∧ current ≠ new ∧ new ∈ current.targets := by
  unfold validateStateTransition
  rw [RequestStatus.ofString?_value]
  rcases RequestStatus.ofString? newStatus with _ | target
  · simp
  · by_cases hself : current = target
    · simp_all
    · by_cases hmem : target ∈ current.targets
      · grind
      · grind

/-! ## Tables -/

/-- A request row. Source: `models.py`, `AIRequestModel`. Kind: D -/
structure AIRequest where
  taskId : String
  budgetId : String
  promptHash : String
  contextHash : String
  status : RequestStatus := .created
  reservedTokens : ℤ := 0
  committedTokens : ℤ := 0
  actualCostMicroUnits : ℤ := 0
  selectedProviderId : Option String := none
  selectedModelId : Option String := none
  deriving DecidableEq, Repr

/-- The two tables. Kind: D -/
structure Tables where
  budgets : Budgets
  requests : Dict String AIRequest

/-- What an operation does to a budget on behalf of a request: tokens are set aside for it, given back,
or it is charged. The source keeps no such record. Kind: D -/
inductive AccountEvent
  | reserved (requestId : String) (tokens : ℤ)
  | released (requestId : String) (tokens : ℤ)
  | charged (requestId : String) (tokens cost : ℤ)
  deriving DecidableEq, Repr

/-- The tables after an operation and what it did to budgets, or an error. Kind: D -/
abbrev OpResult := Except AIError (Tables × List AccountEvent)

namespace AIRequestStateService

/-- A request identifier that no row has. Kind: D -/
def notFound (requestId : String) : AIError :=
  ⟨.requestNotFound, "AI Request '" ++ requestId ++ "' not found."⟩

/-- A row that an existing one is compared with. Source: `request.py`, `create_request`. Kind: D -/
def sameIdentity (existing : AIRequest) (taskId budgetId promptHash contextHash : String) : Bool :=
  existing.taskId = taskId && existing.budgetId = budgetId && existing.promptHash = promptHash &&
    existing.contextHash = contextHash

/-- `accepts` is whether the database takes the new row, by its foreign keys.
Source: `request.py`, `AIRequestStateService.create_request`
Kind: D -/
def createRequest (accepts : AIRequest → Bool) (tables : Tables)
    (requestId taskId budgetId promptHash contextHash : String) : OpResult :=
  if promptHash.length ≠ 64 ∨ contextHash.length ≠ 64 then
    .error ⟨.value, "prompt_hash and context_hash must be valid 64-character hex strings."⟩
  else
    match tables.requests.get? requestId with
    | some existing =>
      if sameIdentity existing taskId budgetId promptHash contextHash then .ok (tables, [])
      else
        .error ⟨.idempotencyConflict,
          "Request '" ++ requestId ++ "' already exists with different payload metadata."⟩
    | none =>
      let row : AIRequest := { taskId, budgetId, promptHash, contextHash }
      if accepts row then .ok ({ tables with requests := tables.requests.set requestId row }, [])
      else .error ⟨.integrity, "FOREIGN KEY constraint failed"⟩

/-- Source: `request.py`, `AIRequestStateService.reserve_budget`. Kind: D -/
def reserveBudget (tables : Tables) (requestId : String) (requestTokens : ℤ) : OpResult :=
  match tables.requests.get? requestId with
  | none => .error (notFound requestId)
  | some request =>
    if request.status = .reserved then
      if request.reservedTokens = requestTokens then .ok (tables, [])
      else
        .error ⟨.idempotencyConflict, "Request '" ++ requestId ++ "' already reserved with " ++
          toString request.reservedTokens ++ " tokens (requested " ++ toString requestTokens ++ ")."⟩
    else do
      let status ← validateStateTransition request.status.value RequestStatus.reserved.value
      let budgets ← AIBudgetService.reserveTokens tables.budgets request.budgetId requestTokens
      let row := { request with status, reservedTokens := requestTokens }
      .ok (⟨budgets, tables.requests.set requestId row⟩, [.reserved requestId requestTokens])

/-- Source: `request.py`, `AIRequestStateService.transition_status`. Kind: D -/
def transitionStatus (tables : Tables) (requestId expectedStatus newStatus : String)
    (selectedProviderId selectedModelId : Option String) : OpResult :=
  match tables.requests.get? requestId with
  | none => .error (notFound requestId)
  | some request => do
      let status ← validateStateTransition expectedStatus newStatus
      if request.status.value ≠ expectedStatus then
        .error ⟨.requestStateConflict, "State transition conflict for '" ++ requestId ++
          "'. Expected status '" ++ expectedStatus ++ "', active status is '" ++
          request.status.value ++ "'."⟩
      else
        let row := { request with
          status
          selectedProviderId := selectedProviderId.or request.selectedProviderId
          selectedModelId := selectedModelId.or request.selectedModelId }
        .ok ({ tables with requests := tables.requests.set requestId row }, [])

/-- A reservation that goes back to the budget, if there is one. Kind: D -/
def releasedEvents (requestId : String) (tokens : ℤ) : List AccountEvent :=
  if 0 < tokens then [.released requestId tokens] else []

/-- Source: `request.py`, `AIRequestStateService.commit_execution`. Kind: D -/
def commitExecution (tables : Tables) (requestId : String)
    (actualTokens actualCostMicroUnits : ℤ) (selectedProviderId selectedModelId : Option String) :
    OpResult :=
  match tables.requests.get? requestId with
  | none => .error (notFound requestId)
  | some request =>
    if request.status = .completed then
      if request.committedTokens = actualTokens ∧
          request.actualCostMicroUnits = actualCostMicroUnits then .ok (tables, [])
      else
        .error ⟨.idempotencyConflict,
          "Request '" ++ requestId ++ "' already completed with different token/cost figures."⟩
    else do
      let status ← validateStateTransition request.status.value RequestStatus.completed.value
      let budgets ← AIBudgetService.commitTokens tables.budgets request.budgetId
        request.reservedTokens actualTokens actualCostMicroUnits
      let row := { request with
        status
        committedTokens := actualTokens
        actualCostMicroUnits := actualCostMicroUnits
        reservedTokens := 0
        selectedProviderId := selectedProviderId.or request.selectedProviderId
        selectedModelId := selectedModelId.or request.selectedModelId }
      .ok (⟨budgets, tables.requests.set requestId row⟩,
        releasedEvents requestId request.reservedTokens ++
          [.charged requestId actualTokens actualCostMicroUnits])

/-- Source: `request.py`, `AIRequestStateService.release_reservation`. Kind: D -/
def releaseReservation (tables : Tables) (requestId targetStatus : String) : OpResult :=
  match tables.requests.get? requestId with
  | none => .error (notFound requestId)
  | some request =>
    if request.status.isTerminal then
      if request.status.value = targetStatus then .ok (tables, [])
      else
        .error ⟨.invalidStateTransition, "Cannot transition terminal request '" ++ requestId ++
          "' from '" ++ request.status.value ++ "' to '" ++ targetStatus ++ "'."⟩
    else do
      let status ← validateStateTransition request.status.value targetStatus
      let budgets ←
        if 0 < request.reservedTokens then
          AIBudgetService.releaseTokens tables.budgets request.budgetId request.reservedTokens
        else .ok tables.budgets
      let row := { request with status, reservedTokens := 0 }
      .ok (⟨budgets, tables.requests.set requestId row⟩,
        releasedEvents requestId request.reservedTokens)

/-! ## What an operation that goes through has done -/

theorem createRequest_ok {accepts : AIRequest → Bool} {tables tables' : Tables}
    {events : List AccountEvent} {requestId taskId budgetId promptHash contextHash : String}
    (h : createRequest accepts tables requestId taskId budgetId promptHash contextHash =
      .ok (tables', events)) :
    events = [] ∧ (tables' = tables ∨ tables.requests.get? requestId = none ∧
      tables' = ⟨tables.budgets,
        tables.requests.set requestId { taskId, budgetId, promptHash, contextHash }⟩) := by
  unfold createRequest at h
  split at h
  · cases h
  · split at h
    · grind
    · grind

/-- Only a new request is reserved. Source: `state_machine.py`, `ALLOWED_TRANSITIONS`. Kind: L -/
theorem created_of_reserved_target {s : RequestStatus} (h : RequestStatus.reserved ∈ s.targets) :
    s = .created := by
  cases s <;> first | rfl | exact absurd h (by decide)

/-- Only a request in flight is completed. Source: `state_machine.py`, `ALLOWED_TRANSITIONS`.
Kind: L -/
theorem inFlight_of_completed_target {s : RequestStatus} (h : RequestStatus.completed ∈ s.targets) :
    s = .inFlight := by
  cases s <;> first | rfl | exact absurd h (by decide)

theorem reserveBudget_ok {tables tables' : Tables} {events : List AccountEvent}
    {requestId : String} {n : ℤ} (h : reserveBudget tables requestId n = .ok (tables', events)) :
    (tables' = tables ∧ events = []) ∨
      ∃ request budget, tables.requests.get? requestId = some request ∧ request.status = .created ∧
        0 < n ∧ tables.budgets.get? request.budgetId = some budget ∧
        tables' = ⟨tables.budgets.set request.budgetId
            { budget with reservedTokens := budget.reservedTokens + n },
          tables.requests.set requestId { request with status := .reserved, reservedTokens := n }⟩ ∧
        events = [.reserved requestId n] := by
  unfold reserveBudget at h
  split at h
  · cases h
  · next request hget =>
      split at h
      · grind
      · rcases hv : validateStateTransition request.status.value RequestStatus.reserved.value with
          err | status
        · rw [hv] at h
          cases h
        · rw [hv] at h
          obtain ⟨hstatus, -, htarget⟩ := validateStateTransition_ok.mp hv
          rw [RequestStatus.ofString?_value] at hstatus
          cases hstatus
          rcases hb : AIBudgetService.reserveTokens tables.budgets request.budgetId n with
            err | budgets
          · rw [hb] at h
            cases h
          · rw [hb] at h
            cases h
            obtain ⟨hn, budget, hbudget, -, rfl⟩ := AIBudgetService.reserveTokens_ok.mp hb
            exact Or.inr ⟨request, budget, hget, created_of_reserved_target htarget, hn, hbudget,
              rfl, rfl⟩

theorem transitionStatus_ok {tables tables' : Tables} {events : List AccountEvent}
    {requestId expectedStatus newStatus : String} {providerId modelId : Option String}
    (h : transitionStatus tables requestId expectedStatus newStatus providerId modelId =
      .ok (tables', events)) :
    ∃ request status, tables.requests.get? requestId = some request ∧
      request.status.value = expectedStatus ∧ RequestStatus.ofString? newStatus = some status ∧
      status ∈ request.status.targets ∧ events = [] ∧
      tables' = ⟨tables.budgets, tables.requests.set requestId
        { request with
          status
          selectedProviderId := providerId.or request.selectedProviderId
          selectedModelId := modelId.or request.selectedModelId }⟩ := by
  unfold transitionStatus at h
  split at h
  · cases h
  · next request hget =>
      rcases hv : validateStateTransition expectedStatus newStatus with err | status
      · rw [hv] at h
        cases h
      · rw [hv] at h
        by_cases hexp : request.status.value = expectedStatus
        · subst hexp
          obtain ⟨hstatus, -, htarget⟩ := validateStateTransition_ok.mp hv
          simp only [Bind.bind, Except.bind, ne_eq, not_true_eq_false, if_false] at h
          cases h
          exact ⟨request, status, hget, rfl, hstatus, htarget, rfl, rfl⟩
        · simp_all [Bind.bind, Except.bind]

/-- A transition along the matrix from the status that the request has goes through. Kind: L -/
theorem transitionStatus_of {tables : Tables} {requestId newStatus : String} {request : AIRequest}
    {status : RequestStatus} (hget : tables.requests.get? requestId = some request)
    (hnew : RequestStatus.ofString? newStatus = some status) (htarget : status ∈ request.status.targets)
    (providerId modelId : Option String) :
    transitionStatus tables requestId request.status.value newStatus providerId modelId =
      .ok (⟨tables.budgets, tables.requests.set requestId
        { request with
          status
          selectedProviderId := providerId.or request.selectedProviderId
          selectedModelId := modelId.or request.selectedModelId }⟩, []) := by
  have hne : request.status ≠ status := by
    rintro heq
    rw [← heq] at htarget
    rcases hs : request.status <;> rw [hs] at htarget <;> exact absurd htarget (by decide)
  have hv := validateStateTransition_ok.mpr ⟨hnew, hne, htarget⟩
  unfold transitionStatus
  rw [hget]
  simp [hv, Bind.bind, Except.bind]

theorem commitExecution_ok {tables tables' : Tables} {events : List AccountEvent}
    {requestId : String} {actualTokens cost : ℤ} {providerId modelId : Option String}
    (h : commitExecution tables requestId actualTokens cost providerId modelId =
      .ok (tables', events)) :
    (tables' = tables ∧ events = []) ∨
      ∃ request budget, tables.requests.get? requestId = some request ∧
        request.status = .inFlight ∧ 0 ≤ request.reservedTokens ∧
        tables.budgets.get? request.budgetId = some budget ∧
        tables' = ⟨tables.budgets.set request.budgetId
            { budget with
              reservedTokens := budget.reservedTokens - request.reservedTokens
              usedTokens := budget.usedTokens + actualTokens
              usedCostMicroUnits := budget.usedCostMicroUnits + cost },
          tables.requests.set requestId
            { request with
              status := .completed
              committedTokens := actualTokens
              actualCostMicroUnits := cost
              reservedTokens := 0
              selectedProviderId := providerId.or request.selectedProviderId
              selectedModelId := modelId.or request.selectedModelId }⟩ ∧
        events = releasedEvents requestId request.reservedTokens ++
          [.charged requestId actualTokens cost] := by
  unfold commitExecution at h
  split at h
  · cases h
  · next request hget =>
      split at h
      · grind
      · rcases hv : validateStateTransition request.status.value RequestStatus.completed.value with
          err | status
        · rw [hv] at h
          cases h
        · rw [hv] at h
          obtain ⟨hstatus, -, htarget⟩ := validateStateTransition_ok.mp hv
          rw [RequestStatus.ofString?_value] at hstatus
          cases hstatus
          rcases hb : AIBudgetService.commitTokens tables.budgets request.budgetId
            request.reservedTokens actualTokens cost with err | budgets
          · rw [hb] at h
            cases h
          · rw [hb] at h
            cases h
            obtain ⟨⟨hr, -, -⟩, budget, hbudget, -, rfl⟩ := AIBudgetService.commitTokens_ok.mp hb
            exact Or.inr ⟨request, budget, hget, inFlight_of_completed_target htarget, hr, hbudget,
              rfl, rfl⟩

theorem releaseReservation_ok {tables tables' : Tables} {events : List AccountEvent}
    {requestId targetStatus : String}
    (h : releaseReservation tables requestId targetStatus = .ok (tables', events)) :
    (tables' = tables ∧ events = []) ∨
      ∃ request status budgets, tables.requests.get? requestId = some request ∧
        request.status.isTerminal = false ∧ RequestStatus.ofString? targetStatus = some status ∧
        status ∈ request.status.targets ∧
        (request.reservedTokens ≤ 0 ∧ budgets = tables.budgets ∨
          0 < request.reservedTokens ∧ ∃ budget,
            tables.budgets.get? request.budgetId = some budget ∧
            budgets = tables.budgets.set request.budgetId
              { budget with reservedTokens := budget.reservedTokens - request.reservedTokens }) ∧
        tables' = ⟨budgets,
          tables.requests.set requestId { request with status, reservedTokens := 0 }⟩ ∧
        events = releasedEvents requestId request.reservedTokens := by
  unfold releaseReservation at h
  split at h
  · cases h
  · next request hget =>
      split at h
      · grind
      · next hterminal =>
          rcases hv : validateStateTransition request.status.value targetStatus with err | status
          · rw [hv] at h
            cases h
          · rw [hv] at h
            obtain ⟨hstatus, -, htarget⟩ := validateStateTransition_ok.mp hv
            refine Or.inr ⟨request, status, ?_⟩
            by_cases hpos : 0 < request.reservedTokens
            · simp only [Bind.bind, Except.bind, if_pos hpos] at h
              rcases hb : AIBudgetService.releaseTokens tables.budgets request.budgetId
                request.reservedTokens with err | budgets
              · rw [hb] at h
                cases h
              · rw [hb] at h
                cases h
                rcases AIBudgetService.releaseTokens_ok.mp hb with ⟨h0, -⟩ | ⟨-, budget, hbudget, -, rfl⟩
                · omega
                · simp_all
            · simp_all [Bind.bind, Except.bind]

end AIRequestStateService

end KarsaSec.Ai
