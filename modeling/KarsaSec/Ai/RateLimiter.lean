import KarsaSec.Ai.CircuitBreaker
import KarsaSec.Found.Text
import KarsaSec.Found.TokenBucket

/-!
# The rate limiter

`DistributedTokenBucket`: one row for each pair of provider and model, with a bucket of requests and a
bucket of tokens. A call locks the row, so calls follow one another. Times and balances are floating point
numbers: rational numbers, and each operation rounds its result. Infinities are left out.

* `checkAndConsume` and `setCooldown` act on the row that a call finds, if there is one.
* `BucketRun` is the row of one provider with what was granted so far and the times of the calls.
-/

namespace KarsaSec.Ai

open KarsaSec.Found

/-- Source: `provider_rate_limiter.py`, `ProviderRateLimitPolicy`. Kind: D -/
structure ProviderRateLimitPolicy where
  rpmLimit : ℚ := 60
  tpmLimit : ℚ := 60000
  burstMultiplier : ℚ := 1
  rpm_pos : 0 < rpmLimit := by norm_num
  tpm_pos : 0 < tpmLimit := by norm_num
  burst_ge : 1 ≤ burstMultiplier := by norm_num

/-- The policy that a caller builds without arguments. Kind: D -/
def ProviderRateLimitPolicy.standard : ProviderRateLimitPolicy := {}

/-- Source: `provider_rate_limiter.py`, `RateLimitResult`. Kind: D -/
structure RateLimitResult where
  allowed : Bool
  reason : Option String := none
  cooldownUntil : Option ℚ := none
  retryAfterSeconds : ℚ := 0
  deriving DecidableEq

/-- Source: `models.py`, `AIProviderRateLimitModel`. Kind: D -/
structure RateLimitRow where
  requestsRemaining : ℚ
  maxRequests : ℚ
  rpmRefillRate : ℚ
  lastRequestRefillAt : ℚ
  tokensRemaining : ℚ
  maxTokens : ℚ
  tpmRefillRate : ℚ
  lastTokenRefillAt : ℚ
  cooldownUntil : Option ℚ := none
  cooldownReason : Option String := none
  deriving DecidableEq

section

variable (fl : Rounding ℚ)

namespace ProviderRateLimitPolicy

variable (policy : ProviderRateLimitPolicy)

/-- Source: `provider_rate_limiter.py`, `check_and_consume`, `max_req`. Kind: D -/
def maxReq : ℚ := fl (policy.rpmLimit * policy.burstMultiplier)

/-- Source: `provider_rate_limiter.py`, `check_and_consume`, `max_tok`. Kind: D -/
def maxTok : ℚ := fl (policy.tpmLimit * policy.burstMultiplier)

/-- Source: `provider_rate_limiter.py`, `check_and_consume`, `rpm_refill_rate`. Kind: D -/
def rpmRefillRate : ℚ := fl (policy.rpmLimit / 60)

/-- Source: `provider_rate_limiter.py`, `check_and_consume`, `tpm_refill_rate`. Kind: D -/
def tpmRefillRate : ℚ := fl (policy.tpmLimit / 60)

/-- A row with full buckets. Source: `provider_rate_limiter.py`, `check_and_consume`. Kind: D -/
def fullRow (now : ℚ) : RateLimitRow :=
  { requestsRemaining := policy.maxReq fl
    maxRequests := policy.maxReq fl
    rpmRefillRate := policy.rpmRefillRate fl
    lastRequestRefillAt := now
    tokensRemaining := policy.maxTok fl
    maxTokens := policy.maxTok fl
    tpmRefillRate := policy.tpmRefillRate fl
    lastTokenRefillAt := now }

end ProviderRateLimitPolicy

namespace RateLimitRow

/-- Whether a row is in cooldown. Source: `provider_rate_limiter.py`, `check_and_consume`. Kind: D -/
def inCooldown (now : ℚ) (row : RateLimitRow) : Bool :=
  match row.cooldownUntil with
  | some cooldownUntil => now < cooldownUntil
  | none => false

/-- Both buckets refilled. Source: `provider_rate_limiter.py`, `check_and_consume`. Kind: D -/
def refilled (now : ℚ) (row : RateLimitRow) : RateLimitRow :=
  { row with
    requestsRemaining := refill fl row.maxRequests row.rpmRefillRate row.lastRequestRefillAt
      row.requestsRemaining now
    lastRequestRefillAt := now
    tokensRemaining := refill fl row.maxTokens row.tpmRefillRate row.lastTokenRefillAt
      row.tokensRemaining now
    lastTokenRefillAt := now }

/-- One request and the tokens taken. Source: `provider_rate_limiter.py`, `check_and_consume`. Kind: D -/
def spent (requestedTokens : ℤ) (row : RateLimitRow) : RateLimitRow :=
  { row with
    requestsRemaining := fl (row.requestsRemaining - 1)
    tokensRemaining := fl (row.tokensRemaining - fl requestedTokens) }

end RateLimitRow

namespace DistributedTokenBucket

/-- How long a deficit lasts. Source: `provider_rate_limiter.py`, `check_and_consume`. Kind: D -/
def retryAfter (deficit rate : ℚ) : ℚ := if 0 < rate then fl (deficit / rate) else 1

/-- One request and the given tokens taken from a row, unless it is in cooldown or has too little.
Source: `provider_rate_limiter.py`, `check_and_consume`
Kind: D -/
def checkAndConsume (policy : ProviderRateLimitPolicy) (now : ℚ) (found : Option RateLimitRow)
    (requestedTokens : ℤ) : RateLimitResult × RateLimitRow :=
  let row := found.getD (policy.fullRow fl now)
  if row.inCooldown now then
    ({ allowed := false
       reason := some (orDefault row.cooldownReason "PROVIDER_COOLDOWN")
       cooldownUntil := row.cooldownUntil
       retryAfterSeconds := fl (row.cooldownUntil.getD 0 - now) }, row)
  else
    let row := row.refilled fl now
    if row.requestsRemaining < 1 then
      ({ allowed := false
         reason := some "RPM_LIMIT_EXCEEDED"
         retryAfterSeconds := retryAfter fl (fl (1 - row.requestsRemaining)) row.rpmRefillRate }, row)
    else if row.tokensRemaining < requestedTokens then
      ({ allowed := false
         reason := some "TPM_LIMIT_EXCEEDED"
         retryAfterSeconds := retryAfter fl (fl (fl requestedTokens - row.tokensRemaining)) row.tpmRefillRate }, row)
    else
      ({ allowed := true }, row.spent fl requestedTokens)

/-- Source: `provider_rate_limiter.py`, `set_cooldown`. Kind: D -/
def setCooldown (now : ℚ) (found : Option RateLimitRow) (cooldownSeconds : ℚ) (reason : String) :
    RateLimitRow :=
  match found with
  | none =>
    { requestsRemaining := 0
      maxRequests := 60
      rpmRefillRate := 1
      lastRequestRefillAt := now
      tokensRemaining := 0
      maxTokens := 60000
      tpmRefillRate := 1000
      lastTokenRefillAt := now
      cooldownUntil := some (fl (now + cooldownSeconds))
      cooldownReason := some reason }
  | some row => { row with
      cooldownUntil := some (fl (now + cooldownSeconds))
      cooldownReason := some reason }

/-- Source: `provider_rate_limiter.py`, `is_in_cooldown`. Kind: D -/
def isInCooldown (now : ℚ) (found : Option RateLimitRow) : Bool × Option String × Option ℚ :=
  match found with
  | some row => if row.inCooldown now then (true, row.cooldownReason, row.cooldownUntil)
      else (false, none, none)
  | none => (false, none, none)

end DistributedTokenBucket

end

/-! ## Calls on one provider -/

/-- A call with the time that its worker reads. Kind: D -/
inductive BucketCall
  | consume (now : ℚ) (requestedTokens : ℤ)
  | cooldown (now : ℚ) (cooldownSeconds : ℚ) (reason : String)
  deriving DecidableEq

/-- The time of a call. Kind: D -/
def BucketCall.now : BucketCall → ℚ
  | consume now _ => now
  | cooldown now _ _ => now

/-- The row of one provider, what was granted, and the first and the largest time of a call. Kind: D -/
structure BucketRun where
  row : Option RateLimitRow := none
  requests : ℕ := 0
  tokens : ℤ := 0
  first : Option ℚ := none
  latest : Option ℚ := none
  deriving DecidableEq

namespace BucketRun

open DistributedTokenBucket

variable (fl : Rounding ℚ)

/-- The row after a call. Kind: D -/
def rowAfter (policy : ProviderRateLimitPolicy) (found : Option RateLimitRow) : BucketCall → RateLimitRow
  | .consume now requestedTokens => (checkAndConsume fl policy now found requestedTokens).2
  | .cooldown now cooldownSeconds reason => setCooldown fl now found cooldownSeconds reason

/-- The tokens that a call asks for and gets; `none` when it gets nothing. Kind: D -/
def grant (policy : ProviderRateLimitPolicy) (found : Option RateLimitRow) : BucketCall → Option ℤ
  | .consume now requestedTokens =>
    if (checkAndConsume fl policy now found requestedTokens).1.allowed then some requestedTokens else none
  | .cooldown _ _ _ => none

/-- One call. Kind: D -/
def step (policy : ProviderRateLimitPolicy) (s : BucketRun) (call : BucketCall) : BucketRun :=
  { row := some (rowAfter fl policy s.row call)
    requests := s.requests + if (grant fl policy s.row call).isSome then 1 else 0
    tokens := s.tokens + (grant fl policy s.row call).getD 0
    first := some (s.first.getD call.now)
    latest := some (max (s.latest.getD call.now) call.now) }

end BucketRun

end KarsaSec.Ai
