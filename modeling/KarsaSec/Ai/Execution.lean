import KarsaSec.Ai.Request

/-!
# Executing a request

`ProviderExecutionService.execute`: attempts at providers, with retries.

* `FailureClassifier.classify` and `RetryPolicy.evaluate` decide about a failed attempt.
* `AttemptEnv` is what an attempt meets: the router, the database, the provider and the bookkeeping.
* `attempt` is one round of the loop, `attempts` the loop, `execute` the whole call.
-/

namespace KarsaSec.Ai

open KarsaSec.Found

/-! ## Failures -/

/-- What a failure means. Source: `failure_classifier.py`, `FailureClassification`. Kind: D -/
structure FailureClassification where
  errorClass : String
  retryable : Bool := false
  providerFailure : Bool := false
  clientFailure : Bool := false
  throttled : Bool := false
  deriving DecidableEq, Repr

/-- A failure by the hint of a response, as `execute` asks for it: there is no status code and no
exception. Source: `failure_classifier.py`, `FailureClassifier.classify`. Kind: D -/
def FailureClassifier.classify (errorClassHint : Option String) : FailureClassification :=
  if errorClassHint = some "INVALID_RESPONSE" then { errorClass := "INVALID_RESPONSE" }
  else if errorClassHint = some "TIMEOUT" then
    { errorClass := "TIMEOUT", retryable := true, providerFailure := true }
  else if errorClassHint = some "NETWORK_ERROR" then
    { errorClass := "NETWORK_ERROR", retryable := true, providerFailure := true }
  else if errorClassHint = some "PROVIDER_UNAVAILABLE" then
    { errorClass := "PROVIDER_UNAVAILABLE", retryable := true, providerFailure := true }
  else if errorClassHint = some "PROVIDER_THROTTLED" ∨ errorClassHint = some "RATE_LIMIT" then
    { errorClass := "PROVIDER_THROTTLED", retryable := true, providerFailure := true,
      throttled := true }
  else if errorClassHint = some "AUTHENTICATION_FAILED" then
    { errorClass := "AUTHENTICATION_FAILED", clientFailure := true }
  else if errorClassHint = some "INVALID_REQUEST" then
    { errorClass := "INVALID_REQUEST", clientFailure := true }
  else { errorClass := "UNKNOWN_PROVIDER_ERROR" }

/-- Source: `retry.py`, `RetryPolicy`; the delays are left out. Kind: D -/
structure RetryPolicy where
  maxAttempts : ℕ := 3
  positive : 1 ≤ maxAttempts := by decide

/-- Source: `retry.py`, `RetryDecision`; the delay is left out. Kind: D -/
structure RetryDecision where
  shouldRetry : Bool
  attemptNumber : ℕ
  maxAttempts : ℕ
  reason : String
  deriving DecidableEq, Repr

/-- Source: `retry.py`, `RetryPolicy.evaluate`. Kind: D -/
def RetryPolicy.evaluate (policy : RetryPolicy) (attemptNumber : ℕ)
    (classification : FailureClassification) : RetryDecision :=
  if policy.maxAttempts ≤ attemptNumber then
    ⟨false, attemptNumber, policy.maxAttempts, "EXHAUSTED_MAX_ATTEMPTS"⟩
  else if !classification.retryable || !classification.providerFailure then
    ⟨false, attemptNumber, policy.maxAttempts,
      "NON_RETRYABLE_FAILURE_" ++ classification.errorClass⟩
  else ⟨true, attemptNumber + 1, policy.maxAttempts, "ELIGIBLE_RETRY"⟩

/-! ## Attempts -/

/-- What `execute` reads of a request; the prompt, the timeout and the response limit go to the executor.
Source: `execution.py`, `ProviderExecutionRequest`
Kind: D -/
structure ProviderExecutionRequest where
  requestId : String
  taskId : String
  budgetId : String
  promptHash : String
  contextHash : String
  estimatedInputTokens : ℤ := 100
  estimatedOutputTokens : ℤ := 200
  maxAttempts : ℕ := 3
  positive : 1 ≤ maxAttempts := by decide

/-- Source: `execution.py`, `ProviderExecutionResponse`. Kind: D -/
structure ProviderExecutionResponse where
  requestId : String
  attemptNumber : ℕ
  providerId : String
  modelId : String
  success : Bool
  content : String := ""
  inputTokens : ℤ := 0
  outputTokens : ℤ := 0
  actualCostMicroUnits : ℤ := 0
  errorClass : Option String := none
  deriving DecidableEq, Repr

/-- What leaves `execute` as an exception: one of the services', no eligible provider, or one that a
component or the database raised. Kind: D -/
inductive ExecutionError
  | service (error : AIError)
  | noEligibleProvider
  | raised (name : String)
  deriving DecidableEq, Repr

/-- What the router selects. Source: `router.py`, `select_provider`. Kind: D -/
inductive Selection
  | chosen (providerId modelId : String)
  | noneEligible
  | raised (name : String)

/-- How an attempt is recorded; a conflict is an attempt number that has a row.
Source: `router.py`, `record_attempt`
Kind: D -/
inductive Recording
  | stored
  | conflict
  | raised (name : String)

/-- What the executor does. Source: `execution.py`, `_execute_attempt_with_timeout`. Kind: D -/
inductive Call
  | responded (response : ProviderExecutionResponse)
  | timedOut
  | raised (name : String)

/-- What an attempt meets. `bookkeeping` is an exception of the circuit breaker, its repository or the rate
limiter, `sleeping` one of the sleeper. Kind: D -/
structure AttemptEnv where
  selection : Selection
  recording : Recording
  call : Call
  bookkeeping : Option String := none
  sleeping : Option String := none

/-- How a round of the loop ends: with an outcome, or with another attempt to make. Kind: D -/
inductive Round
  | finished (tables : Tables) (outcome : Except ExecutionError ProviderExecutionResponse)
  | again (tables : Tables) (last : ProviderExecutionResponse)

/-- The response made of a timeout. Source: `execution.py`, `except TimeoutError`. Kind: D -/
def timeoutResponse (request : ProviderExecutionRequest) (n : ℕ) (providerId modelId : String) :
    ProviderExecutionResponse :=
  { requestId := request.requestId, attemptNumber := n, providerId, modelId, success := false
    errorClass := some "TIMEOUT" }

/-- The last response, or the exception if there is none. Kind: D -/
def lastOr (last : Option ProviderExecutionResponse) (error : ExecutionError) :
    Except ExecutionError ProviderExecutionResponse :=
  match last with
  | some response => .ok response
  | none => .error error

/-- The status that a round starts in. Kind: D -/
def startStatus (n : ℕ) : RequestStatus := if n = 1 then .reserved else .providerFailed

/-- The reservation is given back and the request ends as `FAILED`. Kind: D -/
def giveUp (request : ProviderExecutionRequest) (tables : Tables)
    (outcome : Except ExecutionError ProviderExecutionResponse) : Round :=
  match AIRequestStateService.releaseReservation tables request.requestId "FAILED" with
  | .ok (tables', _) => .finished tables' outcome
  | .error error => .finished tables (.error (.service error))

/-- No provider is eligible. Source: `execution.py`, `except NoEligibleProviderError`. Kind: D -/
def noProvider (request : ProviderExecutionRequest) (n : ℕ) (last : Option ProviderExecutionResponse)
    (tables : Tables) : Round :=
  let outcome := lastOr last .noEligibleProvider
  match tables.requests.get? request.requestId with
  | some row =>
    if row.status = startStatus n then giveUp request tables outcome else .finished tables outcome
  | none => .finished tables outcome

/-- A response that reports success: its usage is stored, which the database turns down below zero, and
committed. Source: `execution.py`, `if response.success`. Kind: D -/
def succeed (request : ProviderExecutionRequest) (env : AttemptEnv) (providerId modelId : String)
    (response : ProviderExecutionResponse) (tables : Tables) : Round :=
  match env.bookkeeping with
  | some name => .finished tables (.error (.raised name))
  | none =>
    if response.inputTokens < 0 ∨ response.outputTokens < 0 then
      .finished tables (.error (.raised "IntegrityError"))
    else
      match AIRequestStateService.commitExecution tables request.requestId
        (response.inputTokens + response.outputTokens) response.actualCostMicroUnits
        (some providerId) (some modelId) with
      | .ok (tables', _) => .finished tables' (.ok response)
      | .error error => .finished tables (.error (.service error))

/-- A response that reports a failure. Source: `execution.py`, failure path. Kind: D -/
def fail (policy : RetryPolicy) (request : ProviderExecutionRequest) (env : AttemptEnv) (n : ℕ)
    (response : ProviderExecutionResponse) (tables : Tables) : Round :=
  let classification := FailureClassifier.classify response.errorClass
  match env.bookkeeping with
  | some name => .finished tables (.error (.raised name))
  | none =>
    match AIRequestStateService.transitionStatus tables request.requestId
      RequestStatus.inFlight.value RequestStatus.providerFailed.value none none with
    | .error error => .finished tables (.error (.service error))
    | .ok (tables', _) =>
      if (policy.evaluate n classification).shouldRetry ∧
          n < min request.maxAttempts policy.maxAttempts then
        match env.sleeping with
        | some name => .finished tables' (.error (.raised name))
        | none => .again tables' response
      else giveUp request tables' (.ok response)

/-- The call of the provider, once the attempt is recorded. Kind: D -/
def callProvider (policy : RetryPolicy) (request : ProviderExecutionRequest) (env : AttemptEnv)
    (n : ℕ) (providerId modelId : String) (tables : Tables) : Round :=
  let answer (response : ProviderExecutionResponse) : Round :=
    if response.success then succeed request env providerId modelId response tables
    else fail policy request env n response tables
  match env.call with
  | .raised name => .finished tables (.error (.raised name))
  | .timedOut => answer (timeoutResponse request n providerId modelId)
  | .responded response => answer response

/-- One round; `committed` is what the database has if the session is rolled back. The second part is
the number of calls of the executor.
Source: `execution.py`, `execute`, loop body
Kind: D -/
def attempt (policy : RetryPolicy) (request : ProviderExecutionRequest) (committed : Tables)
    (env : AttemptEnv) (n : ℕ) (last : Option ProviderExecutionResponse) (tables : Tables) :
    Round × ℕ :=
  match env.selection with
  | .noneEligible => (noProvider request n last tables, 0)
  | .raised name => (.finished tables (.error (.raised name)), 0)
  | .chosen providerId modelId =>
    match AIRequestStateService.transitionStatus tables request.requestId (startStatus n).value
      RequestStatus.routed.value (some providerId) (some modelId) with
    | .error error => (.finished tables (.error (.service error)), 0)
    | .ok (routed, _) =>
      match AIRequestStateService.transitionStatus routed request.requestId
        RequestStatus.routed.value RequestStatus.inFlight.value none none with
      | .error error => (.finished routed (.error (.service error)), 0)
      | .ok (inFlight, _) =>
        match env.recording with
        | .conflict =>
          (.finished committed (lastOr last (.service ⟨.requestStateConflict,
            "Concurrent attempt conflict for request '" ++ request.requestId ++ "' attempt " ++
              toString n ++ "."⟩)), 0)
        | .raised name => (.finished inFlight (.error (.raised name)), 0)
        | .stored => (callProvider policy request env n providerId modelId inFlight, 1)

/-- What `execute` leaves behind. Kind: D -/
structure ExecutionResult where
  tables : Tables
  outcome : Except ExecutionError ProviderExecutionResponse
  calls : ℕ

/-- The response behind the loop. Source: `execution.py`, fallback return. Kind: D -/
def exhausted (request : ProviderExecutionRequest) (policy : RetryPolicy) :
    ProviderExecutionResponse :=
  { requestId := request.requestId, attemptNumber := min request.maxAttempts policy.maxAttempts
    providerId := "none", modelId := "none", success := false, errorClass := some "ATTEMPTS_EXHAUSTED" }

/-- The loop, with `left` attempts to go. Source: `execution.py`, `execute`, `for`. Kind: D -/
def attempts (policy : RetryPolicy) (request : ProviderExecutionRequest) (committed : Tables)
    (env : ℕ → AttemptEnv) :
    ℕ → ℕ → Option ProviderExecutionResponse → Tables → ExecutionResult
  | 0, _, last, tables => ⟨tables, .ok (last.getD (exhausted request policy)), 0⟩
  | left + 1, n, last, tables =>
    let r := attempt policy request committed (env n) n last tables
    match r.1 with
    | .finished tables' outcome => ⟨tables', outcome, r.2⟩
    | .again tables' response =>
      let rest := attempts policy request committed env left (n + 1) (some response) tables'
      { rest with calls := r.2 + rest.calls }

/-- `accepts` is whether the database takes a new request, `committed` what it has if the session is
rolled back. Source: `execution.py`, `ProviderExecutionService.execute`. Kind: D -/
def execute (accepts : AIRequest → Bool) (policy : RetryPolicy) (request : ProviderExecutionRequest)
    (env : ℕ → AttemptEnv) (committed tables : Tables) : ExecutionResult :=
  match AIRequestStateService.createRequest accepts tables request.requestId request.taskId
    request.budgetId request.promptHash request.contextHash with
  | .error error => ⟨tables, .error (.service error), 0⟩
  | .ok (created, _) =>
    match AIRequestStateService.reserveBudget created request.requestId
      (request.estimatedInputTokens + request.estimatedOutputTokens) with
    | .error error => ⟨created, .error (.service error), 0⟩
    | .ok (reserved, _) =>
      attempts policy request committed env (min request.maxAttempts policy.maxAttempts) 1 none
        reserved

end KarsaSec.Ai
