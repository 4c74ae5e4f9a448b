import KarsaSec.Ai.RateLimiter
import KarsaSec.Found.Sweep
import Mathlib.Data.Finset.Card
import Mathlib.Data.Prod.Lex

/-!
# The provider router

`ProviderRouter.select_provider`: the registered providers are filtered one after another, and the least of
those that pass is chosen.

* `visit` is one turn of the filter: exclusion, health, circuit, cooldown, bucket, capabilities and cost, in
  this order. The circuit check may take a probe slot and the bucket check takes from the bucket.
* `RouterState` holds the circuits and the rows of the rate limiter.
* Each check of a provider reads the clock for itself; `Readings` are its readings in one pass.
-/

namespace KarsaSec.Ai

open KarsaSec.Found

/-! ## Providers -/

/-- Source: `provider.py`, `HEALTH_HEALTHY`, `HEALTH_DEGRADED`, `HEALTH_UNAVAILABLE`, `HEALTH_UNKNOWN`.
Kind: D -/
inductive ProviderHealth
  | healthy
  | degraded
  | unavailable
  | unknown
  deriving DecidableEq, Repr

/-- A provider, with what `__post_init__` checks of its names.
Source: `provider.py`, `ProviderDescriptor`
Kind: D -/
structure ProviderDescriptor where
  providerId : String
  modelId : String
  capabilities : Finset String
  priority : ℕ
  inputPriceMicroUnits : ℕ
  outputPriceMicroUnits : ℕ
  provider_named : isBlank providerId = false := by decide
  model_named : isBlank modelId = false := by decide
  deriving DecidableEq

namespace ProviderDescriptor

variable (d : ProviderDescriptor)

/-- The pair under which a provider is registered. Kind: D -/
def key : ProviderKey := (d.providerId, d.modelId)

/-- Source: `provider.py`, `ProviderDescriptor.sort_key`. Kind: D -/
def sortKey : ℕ ×ₗ String ×ₗ String := toLex (d.priority, toLex (d.providerId, d.modelId))

theorem key_of_sortKey {d e : ProviderDescriptor} (h : d.sortKey = e.sortKey) : d.key = e.key := by
  have hpair := congrArg Prod.snd (toLex.injective h)
  exact toLex.injective hpair

end ProviderDescriptor

/-- The providers under their pairs of names.
Source: `provider_registry.py`, `ProviderRegistry`
Kind: D -/
structure ProviderRegistry where
  providers : Dict ProviderKey ProviderDescriptor
  keyed : ∀ key d, providers.get? key = some d → d.key = key

namespace ProviderRegistry

/-- Source: `provider_registry.py`, `ProviderRegistry.__init__`. Kind: D -/
def empty : ProviderRegistry := ⟨Dict.empty, fun _ _ h => by simp at h⟩

/-- `none` when the pair is registered with other data.
Source: `provider_registry.py`, `ProviderRegistry.register`
Kind: D -/
def register (registry : ProviderRegistry) (descriptor : ProviderDescriptor) : Option ProviderRegistry :=
  match registry.providers.get? descriptor.key with
  | some existing => if existing = descriptor then some registry else none
  | none => some
      { providers := registry.providers.set descriptor.key descriptor
        keyed := fun key d h => by
          rw [Dict.get?_set] at h
          split at h
          · next hkey => exact (Option.some.inj h) ▸ hkey.symm
          · exact registry.keyed key d h }

/-- The providers in the order of their pairs.
Source: `provider_registry.py`, `ProviderRegistry.list_all`
Kind: D -/
def listAll (registry : ProviderRegistry) : List ProviderDescriptor :=
  (sortPairs registry.providers.keys).filterMap registry.providers.get?

end ProviderRegistry

/-! ## Selection -/

/-- Source: `routing_policy.py`, `RoutingPolicy`. Kind: D -/
structure RoutingPolicy where
  requiredCapabilities : Finset String
  estimatedInputTokens : ℕ
  estimatedOutputTokens : ℕ
  maxRequestCostMicroUnits : Option ℕ := none
  allowDegraded : Bool := false

/-- Source: `router.py`, `RoutingResult`. Kind: D -/
structure RoutingResult where
  descriptor : ProviderDescriptor
  estimatedCostMicroUnits : ℕ
  attemptNumber : ℕ
  deriving DecidableEq

/-- The failure of a selection names the capabilities that were asked for.
Source: `router.py`, `NoEligibleProviderError`
Kind: D -/
inductive RouterError
  | noEligibleProvider (capabilities : Finset String)
  deriving DecidableEq

/-- The readings of the clock while one provider is checked. Kind: D -/
structure Readings where
  circuit : ℚ
  cooldown : ℚ
  bucket : ℚ

/-- The circuits of the breaker and the rows of the rate limiter.
Source: `circuit_breaker.py`, `_states`; `models.py`, `AIProviderRateLimitModel`
Kind: D -/
structure RouterState where
  circuits : Dict ProviderKey ProviderCircuitState := Dict.empty
  rows : Dict ProviderKey RateLimitRow := Dict.empty

/-- A circuit that is not stored is new. Source: `circuit_breaker.py`, `_get_or_create_state`. Kind: D -/
def RouterState.circuit (s : RouterState) (key : ProviderKey) : ProviderCircuitState :=
  s.circuits.getD key {}

/-- Source: `router.py`, `ProviderRouter.__init__`. Kind: D -/
structure ProviderRouter where
  registry : ProviderRegistry
  healthRegistry : Dict ProviderKey ProviderHealth := Dict.empty
  circuitBreaker : Option ProviderCircuitBreaker := none
  rateLimiter : Bool := false
  rateLimitPolicy : Option ProviderRateLimitPolicy := none

/-- The arguments of one selection: whether it has a database session, and the clock that it reads.
Source: `router.py`, `select_provider`
Kind: D -/
structure RoutingPass where
  policy : RoutingPolicy
  excluded : Finset ProviderKey := ∅
  session : Bool
  clock : ProviderKey → Readings

/-- Source: `pricing.py`, `estimate_cost_micro_units`. Kind: D -/
def estimateCostMicroUnits (descriptor : ProviderDescriptor) (estimatedInputTokens estimatedOutputTokens : ℕ) :
    ℕ :=
  estimatedInputTokens * descriptor.inputPriceMicroUnits +
    estimatedOutputTokens * descriptor.outputPriceMicroUnits

namespace ProviderRouter

variable (fl : Rounding ℚ) (router : ProviderRouter) (pass : RoutingPass)

/-- The limits in force: they need a session, a limiter and its policy.
Source: `router.py`, `_filter_eligible`, stage 5
Kind: D -/
def limits : Option ProviderRateLimitPolicy :=
  if pass.session && router.rateLimiter then router.rateLimitPolicy else none

/-- The tokens that a selection asks for. Source: `router.py`, `_filter_eligible`, stage 5. Kind: D -/
def requestedTokens : ℕ := pass.policy.estimatedInputTokens + pass.policy.estimatedOutputTokens

/-- Stages 1 and 2: exclusion and health. Source: `router.py`, `_filter_eligible`. Kind: D -/
def listed (key : ProviderKey) : Bool :=
  if key ∈ pass.excluded then false
  else
    match router.healthRegistry.getD key .unknown with
    | .healthy => true
    | .degraded => pass.policy.allowDegraded
    | .unavailable => false
    | .unknown => false

/-- Stage 3: whether the circuit is open; a HALF_OPEN circuit gives a probe slot.
Source: `router.py`, `_filter_eligible`
Kind: D -/
def circuitOpen (key : ProviderKey) (s : RouterState) : Bool × RouterState :=
  match router.circuitBreaker with
  | none => (false, s)
  | some cb =>
    let answer := cb.isOpen (pass.clock key).circuit (s.circuit key)
    (answer.1, { s with circuits := s.circuits.set key answer.2 })

/-- Stage 4: whether the provider cools down. Source: `router.py`, `_filter_eligible`. Kind: D -/
def cooling (key : ProviderKey) (s : RouterState) : Bool :=
  pass.session && router.rateLimiter &&
    (DistributedTokenBucket.isInCooldown (pass.clock key).cooldown (s.rows.get? key)).1

/-- Stage 5: whether the bucket allows the request, which is taken from it.
Source: `router.py`, `_filter_eligible`
Kind: D -/
def takeTokens (key : ProviderKey) (s : RouterState) : Bool × RouterState :=
  match router.limits pass with
  | none => (true, s)
  | some limit =>
    let answer := DistributedTokenBucket.checkAndConsume fl limit (pass.clock key).bucket (s.rows.get? key)
      (requestedTokens pass)
    (answer.1.allowed, { s with rows := s.rows.set key answer.2 })

/-- Stages 6 and 7: the estimated cost, if the provider has the capabilities and keeps to the ceiling.
Source: `router.py`, `_filter_eligible`
Kind: D -/
def offer (d : ProviderDescriptor) : Option ℕ :=
  if pass.policy.requiredCapabilities ⊆ d.capabilities then
    let estimated := estimateCostMicroUnits d pass.policy.estimatedInputTokens pass.policy.estimatedOutputTokens
    match pass.policy.maxRequestCostMicroUnits with
    | some ceiling => if estimated ≤ ceiling then some estimated else none
    | none => some estimated
  else none

/-- One turn of the filter: the estimated cost of a provider that passes every stage.
Source: `router.py`, `_filter_eligible`
Kind: D -/
def visit (s : RouterState) (d : ProviderDescriptor) : RouterState × Option ℕ :=
  if router.listed pass d.key then
    let circuit := router.circuitOpen pass d.key s
    if circuit.1 then (circuit.2, none)
    else if router.cooling pass d.key circuit.2 then (circuit.2, none)
    else
      let taken := router.takeTokens fl pass d.key circuit.2
      if taken.1 then (taken.2, offer pass d) else (taken.2, none)
  else (s, none)

/-- Source: `router.py`, `_filter_eligible`. Kind: D -/
def filterEligible (s : RouterState) : RouterState × List (ProviderDescriptor × ℕ) :=
  let swept := sweep (router.visit fl pass) s router.registry.listAll
  (swept.1, swept.2.insertionSort fun a b => a.1.sortKey ≤ b.1.sortKey)

/-- Source: `router.py`, `select_provider`. Kind: D -/
def selectProvider (s : RouterState) : RouterState × Except RouterError RoutingResult :=
  let (s, candidates) := router.filterEligible fl pass s
  match candidates with
  | [] => (s, .error (.noEligibleProvider pass.policy.requiredCapabilities))
  | (descriptor, estimated) :: _ =>
    (s, .ok
      { descriptor := descriptor
        estimatedCostMicroUnits := estimated
        attemptNumber := pass.excluded.card + 1 })

end ProviderRouter

end KarsaSec.Ai
