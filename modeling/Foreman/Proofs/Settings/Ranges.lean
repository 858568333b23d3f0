/-
The ranges that settings need, and which of them are checked.

A loop that may not start a round, a guard without a place, or a threshold that nothing can reach makes no sense. So caps,
capacities and budgets should be at least one, thresholds should lie between zero and one, and tokens should flow in at an
amount (`Settings.InRange`). Valid settings are in these ranges but for three numbers. The budget of calls and the
greatest risk are not looked at, and the flow of tokens is only compared with zero, which a nan is not below.

Results:
- `ranges_checked`:     settings are in range exactly if they are valid and these three numbers are in range.
- `unchecked_accepted`: valid settings that are out of range, one for each of the three.
-/
import Mathlib.Tactic
import Foreman.Proofs.Binary64
import Foreman.Proofs.Settings

namespace Foreman.Settings

/-- every number is in the range that loops and guards need -/
structure InRange (s : Settings) : Prop where
  concurrencyCap : 1 ≤ s.concurrencyCap
  workRounds : 1 ≤ s.work.maxIterations
  calls : 1 ≤ s.work.maxSubagentCalls
  stagnation : 1 ≤ s.work.stagnationThreshold
  risk : s.work.maxRisk.Fraction
  reviewRounds : 1 ≤ s.review.maxIterations
  confidence : s.review.confidenceThreshold.Fraction
  attempts : 1 ≤ s.guard.retry.maxAttempts
  jitter : s.guard.retry.jitterFactor.Fraction
  failures : 1 ≤ s.guard.breaker.failureThreshold
  tokens : 1 ≤ s.guard.limiter.capacity
  refill : s.guard.limiter.refillPerSec.Amount
  slots : 1 ≤ s.guard.bulkhead.capacity

theorem InRange.valid {s : Settings} (h : s.InRange) : s.Valid where
  concurrencyCap := h.concurrencyCap
  workRounds := h.workRounds
  stagnation := h.stagnation
  reviewRounds := h.reviewRounds
  confidence := (Binary64.fraction_iff _).1 h.confidence
  jitter := (Binary64.fraction_iff _).1 h.jitter
  attempts := h.attempts
  failures := h.failures
  tokens := h.tokens
  slots := h.slots
  refill := ((Binary64.amount_iff _).1 h.refill).1

/-- valid settings are in range, but for three numbers -/
theorem Valid.inRange {s : Settings} (h : s.Valid) (hcalls : 1 ≤ s.work.maxSubagentCalls)
    (hrisk : s.work.maxRisk.Fraction) (hrefill : s.guard.limiter.refillPerSec.isNan = false) : s.InRange where
  concurrencyCap := h.concurrencyCap
  workRounds := h.workRounds
  calls := hcalls
  stagnation := h.stagnation
  risk := hrisk
  reviewRounds := h.reviewRounds
  confidence := (Binary64.fraction_iff _).2 h.confidence
  attempts := h.attempts
  jitter := (Binary64.fraction_iff _).2 h.jitter
  failures := h.failures
  tokens := h.tokens
  refill := (Binary64.amount_iff _).2 ⟨h.refill, hrefill⟩
  slots := h.slots

/-- **The ranges that are checked.** Settings are in range exactly if they are valid and so are the three numbers that are
not looked at, or not fully: the budget of calls, the greatest risk, and a flow of tokens that could be a nan. -/
theorem ranges_checked (s : Settings) :
    s.InRange ↔ s.validate = .ok () ∧
      1 ≤ s.work.maxSubagentCalls ∧ s.work.maxRisk.Fraction ∧ s.guard.limiter.refillPerSec.isNan = false := by
  rw [validate_ok_iff]
  constructor
  · intro h
    exact ⟨h.valid, h.calls, h.risk, ((Binary64.amount_iff _).1 h.refill).2⟩
  · rintro ⟨hvalid, hcalls, hrisk, hrefill⟩
    exact hvalid.inRange hcalls hrisk hrefill

/-- **Settings out of range that are valid**: no call at all, a greatest risk that nothing is above, a flow of tokens that
is no number -/
theorem unchecked_accepted :
    let noCalls : Settings := { work := { maxSubagentCalls := 0 } }
    let anyRisk : Settings := { work := { maxRisk := .nan false } }
    let noFlow : Settings := { guard := { limiter := { refillPerSec := .nan false } } }
    (noCalls.validate = .ok () ∧ ¬noCalls.InRange) ∧ (anyRisk.validate = .ok () ∧ ¬anyRisk.InRange) ∧
      noFlow.validate = .ok () ∧ ¬noFlow.InRange := by
  intro noCalls anyRisk noFlow
  refine ⟨⟨by decide +kernel, fun h => ?_⟩, ⟨by decide +kernel, fun h => ?_⟩, by decide +kernel, fun h => ?_⟩
  · exact absurd h.calls (by decide)
  · obtain ⟨t, u, hnan, -⟩ := h.risk
    cases hnan
  · exact absurd ((Binary64.amount_iff _).1 h.refill).2 (by decide)

end Foreman.Settings
