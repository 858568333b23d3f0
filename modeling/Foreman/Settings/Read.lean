/-
Settings from values, from a file and from the environment.

A group of settings is an object, or an array with the settings in their order. A setting that is missing keeps its
standard value, unknown ones are passed over, and one of the wrong kind is an error.
-/
import Foreman.Finding.Severity
import Foreman.Settings.Basic
import Foreman.Toml.Reader

namespace Foreman.Settings

/-- the name of the settings file -/
def fileName : String := "taskforge.toml"

/-- the members of a group by name -/
def group? (names : List String) : Json → Option (String → Option Json)
  | .obj members => some fun n => members.lookup n
  | .arr items => some fun n => (names.zip items).lookup n
  | _ => none

/-- a member read by `f`, or the standard value when it is missing -/
def member {α : Type} (g : String → Option Json) (name : String) (standard : α) (f : Json → Option α) : Option α :=
  match g name with
  | none => some standard
  | some v => f v

/-- a whole number below a bound -/
def natBelow (bound : Nat) : Json → Option Nat
  | .int n => if 0 ≤ n ∧ n < bound then some n.toNat else none
  | _ => none

def word32 : Json → Option Nat := natBelow (Nat.pow 2 32)

def word64 : Json → Option Nat := natBelow (Nat.pow 2 64)

/-- a number as a binary64 number -/
def number : Json → Option Binary64
  | .str _ => none
  | v => Confidence.ofNumber? v

def flag : Json → Option Bool
  | .bool b => some b
  | _ => none

def text : Json → Option String
  | .str s => some s
  | _ => none

def breakerOf (v : Json) : Option BreakerSettings := do
  let g ← group? ["failure_threshold", "reset_timeout_ms"] v
  let d : BreakerSettings := {}
  return ⟨← member g "failure_threshold" d.failureThreshold fun v => (word32 v).map .ofNat,
    ← member g "reset_timeout_ms" d.resetTimeoutMs word64⟩

def retryOf (v : Json) : Option RetrySettings := do
  let g ← group? ["max_attempts", "base_delay_ms", "max_delay_ms", "jitter_factor"] v
  let d : RetrySettings := {}
  return ⟨← member g "max_attempts" d.maxAttempts word32, ← member g "base_delay_ms" d.baseDelayMs word64,
    ← member g "max_delay_ms" d.maxDelayMs word64, ← member g "jitter_factor" d.jitterFactor number⟩

def limiterOf (v : Json) : Option LimiterSettings := do
  let g ← group? ["capacity", "refill_per_sec"] v
  let d : LimiterSettings := {}
  return ⟨← member g "capacity" d.capacity word32, ← member g "refill_per_sec" d.refillPerSec number⟩

def bulkheadOf (v : Json) : Option BulkheadSettings := do
  let g ← group? ["capacity", "acquire_timeout_ms"] v
  let d : BulkheadSettings := {}
  return ⟨← member g "capacity" d.capacity word64, ← member g "acquire_timeout_ms" d.acquireTimeoutMs word64⟩

def guardOf (v : Json) : Option GuardSettings := do
  let g ← group? ["call_timeout_ms", "circuit_breaker", "retry", "rate_limiter", "bulkhead"] v
  let d : GuardSettings := {}
  return ⟨← member g "call_timeout_ms" d.callTimeoutMs word64, ← member g "circuit_breaker" d.breaker breakerOf,
    ← member g "retry" d.retry retryOf, ← member g "rate_limiter" d.limiter limiterOf,
    ← member g "bulkhead" d.bulkhead bulkheadOf⟩

def workOf (v : Json) : Option WorkSettings := do
  let g ← group? ["max_iterations", "max_subagent_calls", "max_wall_clock_ms", "stagnation_threshold", "max_risk"] v
  let d : WorkSettings := {}
  return ⟨← member g "max_iterations" d.maxIterations word32,
    ← member g "max_subagent_calls" d.maxSubagentCalls word32,
    ← member g "max_wall_clock_ms" d.maxWallClockMs word64,
    ← member g "stagnation_threshold" d.stagnationThreshold word32, ← member g "max_risk" d.maxRisk number⟩

def reviewOf (v : Json) : Option ReviewSettings := do
  let g ← group? ["max_iterations", "confidence_threshold"] v
  let d : ReviewSettings := {}
  return ⟨← member g "max_iterations" d.maxIterations word32,
    ← member g "confidence_threshold" d.confidenceThreshold number⟩

def logOf (v : Json) : Option LogSettings := do
  let g ← group? ["level", "json"] v
  let d : LogSettings := {}
  return ⟨← member g "level" d.level text, ← member g "json" d.json flag⟩

def capOf (v : Json) : Option Nat := do
  let g ← group? ["concurrency_cap"] v
  member g "concurrency_cap" ({} : Settings).concurrencyCap word64

/-- settings from a value -/
def ofValue? (v : Json) : Option Settings := do
  let g ← group? ["delegation", "work_loop", "review", "reliability", "logging"] v
  let d : Settings := {}
  return ⟨← member g "delegation" d.concurrencyCap capOf, ← member g "work_loop" d.work workOf,
    ← member g "review" d.review reviewOf, ← member g "reliability" d.guard guardOf,
    ← member g "logging" d.log logOf⟩

/-- all settings under the dotted names of their groups -/
def entries (s : Settings) : List (String × Json) := [
  ("delegation.concurrency_cap", .nat s.concurrencyCap),
  ("work_loop.max_iterations", .nat s.work.maxIterations),
  ("work_loop.max_subagent_calls", .nat s.work.maxSubagentCalls),
  ("work_loop.max_wall_clock_ms", .nat s.work.maxWallClockMs),
  ("work_loop.stagnation_threshold", .nat s.work.stagnationThreshold),
  ("work_loop.max_risk", .float s.work.maxRisk),
  ("review.max_iterations", .nat s.review.maxIterations),
  ("review.confidence_threshold", .float s.review.confidenceThreshold),
  ("reliability.call_timeout_ms", .nat s.guard.callTimeoutMs),
  ("reliability.circuit_breaker.failure_threshold", .nat s.guard.breaker.failureThreshold.toNat),
  ("reliability.circuit_breaker.reset_timeout_ms", .nat s.guard.breaker.resetTimeoutMs),
  ("reliability.retry.max_attempts", .nat s.guard.retry.maxAttempts),
  ("reliability.retry.base_delay_ms", .nat s.guard.retry.baseDelayMs),
  ("reliability.retry.max_delay_ms", .nat s.guard.retry.maxDelayMs),
  ("reliability.retry.jitter_factor", .float s.guard.retry.jitterFactor),
  ("reliability.rate_limiter.capacity", .nat s.guard.limiter.capacity),
  ("reliability.rate_limiter.refill_per_sec", .float s.guard.limiter.refillPerSec),
  ("reliability.bulkhead.capacity", .nat s.guard.bulkhead.capacity),
  ("reliability.bulkhead.acquire_timeout_ms", .nat s.guard.bulkhead.acquireTimeoutMs),
  ("logging.level", .str s.log.level),
  ("logging.json", .bool s.log.json)]

/-- a cap from the environment: digits with an optional plus sign, below 2^64 -/
def capOfText? (s : String) : Option Nat :=
  let digits := match Text.trimChars s.toList with
    | '+' :: r => r
    | r => r
  if digits.isEmpty || !digits.all Char.isDigit then none
  else
    let n := digits.foldl (fun n c => 10 * n + (c.toNat - 48)) 0
    if n < Nat.pow 2 64 then some n else none

/-- why settings could not be loaded -/
inductive LoadError where
  /-- the file is not UTF-8 text -/
  | unreadable
  /-- the text is no TOML, or a setting is of the wrong kind -/
  | malformed
  | invalid (e : SettingsError)
deriving DecidableEq, Repr

/-- the settings of a file, if there is one -/
def ofFile (contents : Option ByteArray) : Except LoadError Settings :=
  match contents with
  | none => .ok {}
  | some bytes =>
    match String.fromUTF8? bytes with
    | none => .error .unreadable
    | some s =>
      match (Toml.read? s).bind ofValue? with
      | some settings => .ok settings
      | none => .error .malformed

/-- valid settings from a file, if there is one, and a concurrency cap from the environment, which goes before -/
def load (contents : Option ByteArray) (cap : Option String) : Except LoadError Settings := do
  let s ← ofFile contents
  let s := match cap.bind capOfText? with
    | some n => { s with concurrencyCap := n }
    | none => s
  match s.validate with
  | .ok () => .ok s
  | .error e => .error (.invalid e)

end Foreman.Settings
