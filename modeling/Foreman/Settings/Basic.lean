/-
Settings of loops, delegation and guarded calls, with the values they have when nothing is said.
-/
import Foreman.Binary64.Decimal
import Foreman.Duration

namespace Foreman

/-- when a circuit opens and for how long -/
structure BreakerSettings where
  failureThreshold : UInt32 := 5
  resetTimeoutMs : Nat := 30000
deriving DecidableEq, Repr, Inhabited

/-- how often a failed call is tried again and how long the waits are -/
structure RetrySettings where
  maxAttempts : Nat := 3
  baseDelayMs : Nat := 1000
  maxDelayMs : Nat := 30000
  jitterFactor : Binary64 := .ofDecimal false 2 (-1)
deriving DecidableEq, Repr, Inhabited

/-- the size of a token bucket and how fast it fills -/
structure LimiterSettings where
  capacity : Nat := 10
  refillPerSec : Binary64 := .ofNat 2
deriving DecidableEq, Repr, Inhabited

/-- how many calls run at once and how long one waits to be among them -/
structure BulkheadSettings where
  capacity : Nat := 4
  acquireTimeoutMs : Nat := 30000
deriving DecidableEq, Repr, Inhabited

/-- everything that guards the calls to one resource -/
structure GuardSettings where
  callTimeoutMs : Nat := 120000
  breaker : BreakerSettings := {}
  retry : RetrySettings := {}
  limiter : LimiterSettings := {}
  bulkhead : BulkheadSettings := {}
deriving DecidableEq, Repr, Inhabited

/-- the limits of a work loop -/
structure WorkSettings where
  maxIterations : Nat := 5
  maxSubagentCalls : Nat := 32
  maxWallClockMs : Nat := 600000
  stagnationThreshold : Nat := 2
  maxRisk : Binary64 := .ofDecimal false 95 (-2)
deriving DecidableEq, Repr, Inhabited

/-- the limits of a review -/
structure ReviewSettings where
  maxIterations : Nat := 5
  confidenceThreshold : Binary64 := .ofDecimal false 5 (-1)
deriving DecidableEq, Repr, Inhabited

/-- what is logged, and whether as JSON -/
structure LogSettings where
  level : String := "info"
  json : Bool := false
deriving DecidableEq, Repr, Inhabited

structure Settings where
  concurrencyCap : Nat := 4
  work : WorkSettings := {}
  review : ReviewSettings := {}
  guard : GuardSettings := {}
  log : LogSettings := {}
deriving DecidableEq, Repr, Inhabited

/-- the greatest wait that can be told, in milliseconds -/
def longestMs : Nat := Nat.pow 2 64 - 1

/-- the wait before another try, without jitter: the base delay, doubled for each try before it but at most 31 times,
and never more than can be told or than the greatest delay -/
def RetrySettings.delayMs (r : RetrySettings) (attempt : Nat) : Nat :=
  min (min (r.baseDelayMs * Nat.pow 2 (min attempt 31)) longestMs) r.maxDelayMs

/-! ## Validity -/

/-- a setting with a value that cannot work -/
structure SettingsError where
  field : String
  reason : String
deriving DecidableEq, Repr

def SettingsError.message (e : SettingsError) : String :=
  "invalid configuration `" ++ e.field ++ "`: " ++ e.reason

namespace Settings

/-- an error if a number is zero -/
def needPositive (field : String) (n : Nat) : Except SettingsError Unit :=
  if n = 0 then .error ⟨field, "must be greater than zero"⟩ else .ok ()

/-- an error if a number is not between 0 and 1 -/
def needUnit (field : String) (x : Binary64) : Except SettingsError Unit :=
  if Binary64.zero.le x && x.le .one then .ok () else .error ⟨field, x.toText ++ " is outside [0.0, 1.0]"⟩

/-- an error if a number is below zero -/
def needNotNegative (field : String) (x : Binary64) : Except SettingsError Unit :=
  if x.lt .zero then .error ⟨field, "must not be negative"⟩ else .ok ()

/-- the first setting that cannot work -/
def validate (s : Settings) : Except SettingsError Unit := do
  needPositive "delegation.concurrency_cap" s.concurrencyCap
  needPositive "work_loop.max_iterations" s.work.maxIterations
  needPositive "work_loop.stagnation_threshold" s.work.stagnationThreshold
  needPositive "review.max_iterations" s.review.maxIterations
  needUnit "review.confidence_threshold" s.review.confidenceThreshold
  needUnit "reliability.retry.jitter_factor" s.guard.retry.jitterFactor
  needPositive "reliability.retry.max_attempts" s.guard.retry.maxAttempts
  needPositive "reliability.circuit_breaker.failure_threshold" s.guard.breaker.failureThreshold.toNat
  needPositive "reliability.rate_limiter.capacity" s.guard.limiter.capacity
  needPositive "reliability.bulkhead.capacity" s.guard.bulkhead.capacity
  needNotNegative "reliability.rate_limiter.refill_per_sec" s.guard.limiter.refillPerSec

end Settings

end Foreman
