import KarsaSec.Ai.Execution
import Mathlib.Algebra.Order.Ring.Rat
import Mathlib.Tactic.Linarith

/-!
# The circuit breaker

`ProviderCircuitBreaker`: one circuit for each pair of provider and model, each operation under one lock.
Times are rational numbers of seconds.

* `wake` is the move from OPEN to HALF_OPEN that every operation begins with; `getState`, `isOpen`,
  `recordThrottling`, `recordSuccess` and `recordFailure` act on one circuit.
* `BreakerSystem` is the breaker with the attempts that are under way; `BreakerSystem.step` is one operation
  of the router or one outcome of an attempt.
* The number of a HALF_OPEN period is bookkeeping of the system: it says which of the probes under way
  were granted in the present period.
-/

namespace KarsaSec.Ai

open KarsaSec.Found

/-! ## One circuit -/

/-- Source: `circuit_breaker.py`, `KNOWN_CIRCUIT_STATES`. Kind: D -/
inductive CircuitState
  | closed
  | opened
  | halfOpen
  deriving DecidableEq, Repr

/-- Provider and model. Kind: D -/
abbrev ProviderKey := String × String

/-- A circuit; in the window `true` is a failure of the provider.
Source: `circuit_breaker.py`, `ProviderCircuitState`
Kind: D -/
structure ProviderCircuitState where
  state : CircuitState := .closed
  failures : List Bool := []
  openedAt : Option ℚ := none
  cooldownUntil : Option ℚ := none
  cooldownReason : Option String := none
  activeProbes : ℕ := 0
  deriving DecidableEq

/-- The settings of a breaker, with what `__init__` checks of them.
Source: `circuit_breaker.py`, `ProviderCircuitBreaker.__init__`
Kind: D -/
structure ProviderCircuitBreaker where
  failureWindowSize : ℕ := 10
  failureThreshold : ℚ := 1 / 2
  minSamples : ℕ := 5
  cooldownSeconds : ℚ := 30
  halfOpenMaxProbes : ℕ := 1
  window_pos : 1 ≤ failureWindowSize := by decide
  threshold_range : 0 < failureThreshold ∧ failureThreshold ≤ 1 := by norm_num
  samples_pos : 1 ≤ minSamples := by decide
  cooldown_pos : 0 < cooldownSeconds := by norm_num
  probes_pos : 1 ≤ halfOpenMaxProbes := by decide

namespace ProviderCircuitBreaker

variable (cb : ProviderCircuitBreaker) (now : ℚ) (st : ProviderCircuitState)

/-- OPEN becomes HALF_OPEN, without probes, once the cooldown has passed.
Source: `circuit_breaker.py`, `get_state`, `is_open`, `record_success`, `record_failure`
Kind: D -/
def wake : ProviderCircuitState :=
  match st.state, st.openedAt with
  | .opened, some openedAt =>
    if cb.cooldownSeconds ≤ now - openedAt then { st with state := .halfOpen, activeProbes := 0 }
    else st
  | _, _ => st

/-- Whether a throttling cooldown is active. Source: `circuit_breaker.py`, `is_open`. Kind: D -/
def throttled : Bool :=
  match st.cooldownUntil with
  | some cooldownUntil => now < cooldownUntil
  | none => false

/-- Source: `circuit_breaker.py`, `get_state`. Kind: D -/
def getState : CircuitState × ProviderCircuitState := ((cb.wake now st).state, cb.wake now st)

/-- A throttling cooldown that is over is forgotten. Source: `circuit_breaker.py`, `is_open`. Kind: D -/
def clearCooldown : ProviderCircuitState :=
  if st.cooldownUntil.isSome then { st with cooldownUntil := none, cooldownReason := none } else st

/-- Source: `circuit_breaker.py`, `is_open`. Kind: D -/
def isOpen : Bool × ProviderCircuitState :=
  if throttled now st then (true, st)
  else
    let st := cb.wake now (clearCooldown st)
    match st.state with
    | .closed => (false, st)
    | .opened => (true, st)
    | .halfOpen =>
      if st.activeProbes < cb.halfOpenMaxProbes then
        (false, { st with activeProbes := st.activeProbes + 1 })
      else (true, st)

/-- Source: `circuit_breaker.py`, `record_throttling`. Kind: D -/
def recordThrottling (cooldownSeconds : ℚ) (reason : String) : ProviderCircuitState :=
  { st with cooldownUntil := some (now + cooldownSeconds), cooldownReason := some reason }

/-- An outcome at the end of the sliding window.
Source: `circuit_breaker.py`, `record_success`, `record_failure`
Kind: D -/
def window (failures : List Bool) (outcome : Bool) : List Bool :=
  let failures := failures ++ [outcome]
  if cb.failureWindowSize < failures.length then failures.tail else failures

/-- Source: `circuit_breaker.py`, `record_success`. Kind: D -/
def recordSuccess : ProviderCircuitState :=
  let st := cb.wake now st
  match st.state with
  | .halfOpen => { st with state := .closed, failures := [], activeProbes := 0, openedAt := none }
  | .closed => { st with failures := cb.window st.failures false }
  | .opened => st

/-- Whether a window trips the circuit. Source: `circuit_breaker.py`, `record_failure`. Kind: D -/
def trips (failures : List Bool) : Bool :=
  cb.minSamples ≤ failures.length ∧
    cb.failureThreshold ≤ (failures.count true : ℚ) / (failures.length : ℚ)

/-- A failure by throttling starts a cooldown. Source: `circuit_breaker.py`, `record_failure`. Kind: D -/
def noteThrottling (classification : FailureClassification) : ProviderCircuitState :=
  if classification.throttled then
    { st with
      cooldownUntil := some (now + cb.cooldownSeconds)
      cooldownReason := some classification.errorClass }
  else st

/-- A failure in an awakened circuit. Source: `circuit_breaker.py`, `record_failure`. Kind: D -/
def countFailure : ProviderCircuitState :=
  match st.state with
  | .halfOpen => { st with state := .opened, openedAt := some now, activeProbes := 0 }
  | .closed =>
    if cb.trips (cb.window st.failures true) then
      { st with
        failures := cb.window st.failures true
        state := .opened
        openedAt := some now
        activeProbes := 0 }
    else { st with failures := cb.window st.failures true }
  | .opened => st

/-- Source: `circuit_breaker.py`, `record_failure`. Kind: D -/
def recordFailure (classification : FailureClassification) : ProviderCircuitState :=
  if !classification.providerFailure then st
  else cb.countFailure now (cb.wake now (cb.noteThrottling now st classification))

end ProviderCircuitBreaker

/-! ## The breaker with its attempts -/

/-- An attempt under way, with the HALF_OPEN period that it is a probe of. Kind: D -/
structure CircuitAttempt where
  key : ProviderKey
  period : Option ℕ
  deriving DecidableEq

/-- The circuits, how many HALF_OPEN periods each has begun, and the attempts under way.
Source: `circuit_breaker.py`, `_states`
Kind: D -/
structure BreakerSystem where
  circuits : Dict ProviderKey ProviderCircuitState := Dict.empty
  periods : Dict ProviderKey ℕ := Dict.empty
  inFlight : List CircuitAttempt := []

/-- What happens to a breaker: a check by the router, which starts an attempt where the answer allows it
and the provider is chosen; a reading; a throttling notice; and the outcome of an attempt under way.
Source: `router.py`, `_filter_eligible`; `execution.py`, `execute`
Kind: D -/
inductive CircuitOp
  | check (now : ℚ) (key : ProviderKey) (chosen : Bool)
  | read (now : ℚ) (key : ProviderKey)
  | throttle (now : ℚ) (key : ProviderKey) (cooldownSeconds : ℚ) (reason : String)
  | success (now : ℚ) (attempt : ℕ)
  | failure (now : ℚ) (attempt : ℕ) (classification : FailureClassification)
  | cancel (attempt : ℕ)
  deriving DecidableEq

namespace BreakerSystem

variable (cb : ProviderCircuitBreaker) (s : BreakerSystem)

/-- Source: `circuit_breaker.py`, `_get_or_create_state`. Kind: D -/
def circuit (key : ProviderKey) : ProviderCircuitState := s.circuits.getD key {}

/-- The number of the latest HALF_OPEN period of a circuit. Kind: D -/
def period (key : ProviderKey) : ℕ := s.periods.getD key 0

/-- A circuit replaced; its periods are counted. Kind: D -/
def put (key : ProviderKey) (st : ProviderCircuitState) : BreakerSystem :=
  { s with
    circuits := s.circuits.set key st
    periods := s.periods.set key
      (if (s.circuit key).state = .opened ∧ st.state = .halfOpen then s.period key + 1
        else s.period key) }

/-- The attempt that starts when a check of a circuit allows one: a probe when the circuit is HALF_OPEN.
Kind: D -/
def granted (key : ProviderKey) : CircuitAttempt :=
  ⟨key, if (s.circuit key).state = .halfOpen then some (s.period key) else none⟩

/-- An attempt ends, and its circuit is told. Kind: D -/
def settle (attempt : ℕ) (f : ProviderCircuitState → ProviderCircuitState) : BreakerSystem :=
  match s.inFlight[attempt]? with
  | none => s
  | some a => { s.put a.key (f (s.circuit a.key)) with inFlight := s.inFlight.eraseIdx attempt }

/-- One operation. Kind: D -/
def step : CircuitOp → BreakerSystem
  | .check now key chosen =>
    let answer := cb.isOpen now (s.circuit key)
    let s' := s.put key answer.2
    if answer.1 = false ∧ chosen then { s' with inFlight := s'.inFlight ++ [s'.granted key] }
    else s'
  | .read now key => s.put key (cb.getState now (s.circuit key)).2
  | .throttle now key cooldownSeconds reason =>
    s.put key (ProviderCircuitBreaker.recordThrottling now (s.circuit key) cooldownSeconds reason)
  | .success now attempt => s.settle attempt (cb.recordSuccess now)
  | .failure now attempt classification =>
    s.settle attempt fun st => cb.recordFailure now st classification
  | .cancel attempt => { s with inFlight := s.inFlight.eraseIdx attempt }

end BreakerSystem

end KarsaSec.Ai
