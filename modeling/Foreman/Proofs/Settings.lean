/-
What settings promise once they are valid.

`validate` looks at one setting after the other, and has an error at the first that cannot work. So settings that it
passes have every number that it looks at in its range (`Settings.Valid`), and later proofs need not open it.

Results:
- `validate_ok_iff`:    what valid settings are.
- `validate_error_iff`: which check an error comes from.
-/
import Mathlib.Tactic
import Foreman.Settings.Basic

namespace Foreman.Settings

/-- every number that is looked at is in its range -/
structure Valid (s : Settings) : Prop where
  concurrencyCap : 1 ≤ s.concurrencyCap
  workRounds : 1 ≤ s.work.maxIterations
  stagnation : 1 ≤ s.work.stagnationThreshold
  reviewRounds : 1 ≤ s.review.maxIterations
  confidence : (Binary64.zero.le s.review.confidenceThreshold && s.review.confidenceThreshold.le .one) = true
  jitter : (Binary64.zero.le s.guard.retry.jitterFactor && s.guard.retry.jitterFactor.le .one) = true
  attempts : 1 ≤ s.guard.retry.maxAttempts
  failures : 1 ≤ s.guard.breaker.failureThreshold
  tokens : 1 ≤ s.guard.limiter.capacity
  slots : 1 ≤ s.guard.bulkhead.capacity
  refill : s.guard.limiter.refillPerSec.lt .zero = false

/-! ## Single checks -/

theorem needPositive_ok_iff {field : String} {n : Nat} : needPositive field n = .ok () ↔ 1 ≤ n := by
  unfold needPositive
  split_ifs with hzero
  · simp [hzero]
  · exact iff_of_true rfl (Nat.one_le_iff_ne_zero.2 hzero)

theorem needUnit_ok_iff {field : String} {x : Binary64} :
    needUnit field x = .ok () ↔ (Binary64.zero.le x && x.le .one) = true := by
  unfold needUnit
  split_ifs with hunit
  · exact iff_of_true rfl hunit
  · exact iff_of_false (by simp) hunit

theorem needNotNegative_ok_iff {field : String} {x : Binary64} :
    needNotNegative field x = .ok () ↔ x.lt .zero = false := by
  unfold needNotNegative
  split_ifs with hnegative
  · simp [hnegative]
  · exact iff_of_true rfl (Bool.eq_false_iff.2 hnegative)

/-! ## One check after the other -/

/-- the checks of all settings, in their order -/
def checks (s : Settings) : List (Except SettingsError Unit) := [
  needPositive "delegation.concurrency_cap" s.concurrencyCap,
  needPositive "work_loop.max_iterations" s.work.maxIterations,
  needPositive "work_loop.stagnation_threshold" s.work.stagnationThreshold,
  needPositive "review.max_iterations" s.review.maxIterations,
  needUnit "review.confidence_threshold" s.review.confidenceThreshold,
  needUnit "reliability.retry.jitter_factor" s.guard.retry.jitterFactor,
  needPositive "reliability.retry.max_attempts" s.guard.retry.maxAttempts,
  needPositive "reliability.circuit_breaker.failure_threshold" s.guard.breaker.failureThreshold.toNat,
  needPositive "reliability.rate_limiter.capacity" s.guard.limiter.capacity,
  needPositive "reliability.bulkhead.capacity" s.guard.bulkhead.capacity,
  needNotNegative "reliability.rate_limiter.refill_per_sec" s.guard.limiter.refillPerSec]

/-- the first check that fails -/
def firstFault : List (Except SettingsError Unit) → Except SettingsError Unit
  | [] => .ok ()
  | .ok () :: rest => firstFault rest
  | .error e :: _ => .error e

theorem firstFault_cons (c : Except SettingsError Unit) (rest : List (Except SettingsError Unit)) :
    firstFault (c :: rest) = c >>= fun _ => firstFault rest := by
  cases c <;> rfl

theorem validate_eq_firstFault (s : Settings) : s.validate = firstFault s.checks := by
  have hlast : ∀ c : Except SettingsError Unit, firstFault [c] = c := by
    intro c
    cases c <;> rfl
  simp only [validate, checks, firstFault_cons _ (_ :: _), hlast]

theorem firstFault_ok_iff {cs : List (Except SettingsError Unit)} : firstFault cs = .ok () ↔ ∀ c ∈ cs, c = .ok () := by
  induction cs with
  | nil => simp [firstFault]
  | cons c cs ih => cases c <;> simp [firstFault, ih]

/-- **An error is that of the first check that fails.** -/
theorem validate_error_iff {s : Settings} {e : SettingsError} :
    s.validate = .error e ↔
      ∃ before after, s.checks = before ++ .error e :: after ∧ ∀ c ∈ before, c = .ok () := by
  rw [validate_eq_firstFault]
  generalize s.checks = cs
  constructor
  · intro h
    induction cs with
    | nil => cases h
    | cons c cs ih =>
      cases c with
      | ok u =>
        obtain ⟨before, after, rfl, hbefore⟩ := ih h
        exact ⟨.ok () :: before, after, rfl, by simpa using hbefore⟩
      | error e' =>
        obtain rfl : e' = e := Except.error.inj h
        exact ⟨[], cs, rfl, by simp⟩
  · rintro ⟨before, after, rfl, hbefore⟩
    induction before with
    | nil => rfl
    | cons c before ih =>
      obtain ⟨rfl, hrest⟩ := List.forall_mem_cons.1 hbefore
      exact ih hrest

/-- **Settings are valid exactly if every number that is looked at is in its range.** -/
theorem validate_ok_iff {s : Settings} : s.validate = .ok () ↔ s.Valid := by
  rw [validate_eq_firstFault, firstFault_ok_iff]
  simp only [checks, List.forall_mem_cons, needPositive_ok_iff, needUnit_ok_iff, needNotNegative_ok_iff]
  have hword : 1 ≤ s.guard.breaker.failureThreshold.toNat ↔ 1 ≤ s.guard.breaker.failureThreshold :=
    (UInt32.le_iff_toNat_le (a := 1)).symm
  rw [hword]
  constructor
  · rintro ⟨hcap, hwork, hstagnation, hreview, hconfidence, hjitter, hattempts, hfailures, htokens, hslots, hrefill, -⟩
    exact ⟨hcap, hwork, hstagnation, hreview, hconfidence, hjitter, hattempts, hfailures, htokens, hslots, hrefill⟩
  · intro h
    exact ⟨h.concurrencyCap, h.workRounds, h.stagnation, h.reviewRounds, h.confidence, h.jitter, h.attempts, h.failures,
      h.tokens, h.slots, h.refill, List.forall_mem_nil _⟩

/-- **Valid settings have every number in its range.** -/
theorem validate_ok {s : Settings} (h : s.validate = .ok ()) : s.Valid := validate_ok_iff.1 h

end Foreman.Settings
