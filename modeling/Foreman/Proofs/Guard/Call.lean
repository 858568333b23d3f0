/-
One call that has the guard to itself.

Only calls that have run are tried again. So an attempt that is followed by another one has taken a token and made a start,
and after `n` of them all counts have gone up by `n` (`run_attempts`). The attempt that decides ends the call, and the
breaker hears of it alone. An earlier one whose error asks for a wait that cannot be told breaks the call down, and the
breaker hears nothing (`run_over`). Which ones these are goes by the rules for any series of attempts (`Retry.deciding`,
`Retry.stuck`).

Results:
- `run_attempts`: the guard while the call is under way.
- `run_over`:     the guard after the call.
- `call_settled`: attempts, tokens, starts, slots and the breaker after one call, how the call ends, and when it does not.
- `call_breaks`:  a call that breaks down after its first attempt.
-/
import Foreman.Proofs.Breaker
import Foreman.Proofs.Guard.Attempt
import Foreman.Proofs.Guard.Retry

namespace Foreman.Guard

variable {κ : Type}

/-! ## Which attempt decides -/

/-- the bucket once the first `n` attempts have asked for a token -/
def bucket (l : Limiter) (plan : Nat → Attempt) : Nat → Limiter
  | 0 => l
  | n + 1 => ((bucket l plan n).take 1 (plan n).asksAt).1

/-- the guard after `n` attempts each of which was followed by another one -/
def amid (g : Guard κ) (plan : Nat → Attempt) (n : Nat) : Guard κ :=
  { g with
    limiter := bucket g.limiter plan n
    retries := g.retries + n
    debits := g.debits + n
    invocations := g.invocations + n }

/-- what the `n`-th attempt ends with -/
def errorOf (g : Guard κ) (plan : Nat → Attempt) (n : Nat) : Option GuardError := (g.amid plan n).error? (plan n)

/-- what a series of attempts comes to hear of the `n`-th one -/
def outcome (g : Guard κ) (plan : Nat → Attempt) (n : Nat) : Except GuardError Unit :=
  match g.errorOf plan n with
  | none => .ok ()
  | some e => .error e

/-- the number of the attempt that decides -/
def last (g : Guard κ) (plan : Nat → Attempt) : Nat :=
  Retry.deciding g.settings.retry g.classifier (g.outcome plan)

/-- an attempt ends with an error that asks for a wait that cannot be told -/
def stuck (g : Guard κ) (plan : Nat → Attempt) (n : Nat) : Bool := Retry.stuck g.settings.retry (g.outcome plan) n

/-- the number of the last attempt: the one that decides, or the first one before it that is stuck -/
def ending (g : Guard κ) (plan : Nat → Attempt) : Nat :=
  Retry.ending g.settings.retry g.classifier (g.outcome plan)

/-- how the call comes out: as the attempt that decides does, if that one is made -/
def result (g : Guard κ) (plan : Nat → Attempt) : CallResult :=
  if g.ending plan = g.last plan then .ended (g.errorOf plan (g.last plan)) else .broke

/-- the breaker after the call: it has heard of the attempt that decides, or of none -/
def judged (g : Guard κ) (plan : Nat → Attempt) (b : Breaker) (p : Permit) : Breaker :=
  if g.ending plan = g.last plan then
    b.settle p (verdict (g.errorOf plan (g.last plan))) (plan (g.last plan)).overAt
  else b.abandon p

/-- the guard after the call: its last attempt has taken what it takes -/
def concluded (g : Guard κ) (plan : Nat → Attempt) (b : Breaker) (p : Permit) : Guard κ :=
  { (g.amid plan (g.ending plan)).spend (plan (g.ending plan)) with breaker := g.judged plan b p }

section Decide

variable {g : Guard κ} {plan : Nat → Attempt}

theorem outcome_eq_error {n : Nat} {e : GuardError} : g.outcome plan n = .error e ↔ g.errorOf plan n = some e := by
  unfold outcome
  cases g.errorOf plan n <;> simp

/-- an attempt before the last one has failed in the call proper, is worth another one, and asks for a wait that can be
told -/
theorem worth_before {n : Nat} (h : n < g.ending plan) :
    ∃ e ms, g.errorOf plan n = some (.call e) ∧ worthRetry? (g.amid plan n) n (some (.call e)) = some e ∧
      Retry.backoff g.settings.retry n e (plan n).offset = some ms := by
  obtain ⟨e, ms, ho, hagain, hms⟩ := Retry.rests h (plan n).offset
  exact ⟨e, ms, outcome_eq_error.1 ho, if_pos hagain, hms⟩

theorem ending_eq_last_iff : g.ending plan = g.last plan ↔ ∀ n < g.last plan, g.stuck plan n = false :=
  Retry.ending_eq_deciding_iff

theorem worth_last : worthRetry? (g.amid plan (g.last plan)) (g.last plan) (g.errorOf plan (g.last plan)) = none := by
  cases herror : g.errorOf plan (g.last plan) with
  | none => rfl
  | some error =>
    cases error with
    | call e =>
      have hstops := Retry.stops_at (outcome_eq_error.2 herror)
      exact if_neg (ne_true_of_eq_false hstops)
    | _ => rfl

theorem starts_before {n : Nat} (h : n < g.ending plan) : (g.amid plan n).starts (plan n) = true := by
  obtain ⟨e, -, herror, -⟩ := worth_before h
  exact starts_of_call herror

theorem amid_succ {n : Nat} (h : (g.amid plan n).starts (plan n) = true) :
    { (g.amid plan n).spend (plan n) with retries := (g.amid plan n).retries + 1 } = g.amid plan (n + 1) := by
  rw [spend, h, grants_of_starts h]
  rfl

/-- **The last attempt** takes the call out. -/
theorem tried_ending (k : κ) (p : Permit) (b : Breaker) :
    (g.amid plan (g.ending plan)).tried k p (g.ending plan) b (plan (g.ending plan)) =
      (g.concluded plan b p, ⟨some (k, g.result plan), none⟩) := by
  by_cases hlast : g.ending plan = g.last plan
  · rw [concluded, judged, result, if_pos hlast, if_pos hlast, hlast, tried, ← errorOf, worth_last]
  · obtain ⟨e, ho, hagain, hnone⟩ := Retry.breaks hlast (plan (g.ending plan)).offset
    have herror : (g.amid plan (g.ending plan)).error? (plan (g.ending plan)) = some (.call e) := outcome_eq_error.1 ho
    have hworth : worthRetry? (g.amid plan (g.ending plan)) (g.ending plan) (some (.call e)) = some e := if_pos hagain
    have hwait : Retry.backoff (g.amid plan (g.ending plan)).settings.retry (g.ending plan) e
        (plan (g.ending plan)).offset = none := hnone
    rw [concluded, judged, result, if_neg hlast, if_neg hlast, tried, herror, hworth]
    simp only [hwait]

end Decide

/-! ## The steps of a call -/

/-- a call comes in, and makes up to `n` attempts -/
def callSteps (s : GuardSettings) (k : κ) (now : Nat) (plan : Nat → Attempt) (n : Nat) : List (Event κ) :=
  .enter k now :: (List.range n).flatMap fun i => (plan i).steps s k

theorem callSteps_succ (s : GuardSettings) (k : κ) (now : Nat) (plan : Nat → Attempt) (n : Nat) :
    callSteps s k now plan (n + 1) = callSteps s k now plan n ++ (plan n).steps s k := by
  simp [callSteps, List.range_succ]

section Run

variable [DecidableEq κ] {g : Guard κ} {plan : Nat → Attempt} {k : κ} {now : Nat} {b : Breaker} {p : Permit}

variable (hnew : g.call? k = none) (hout : k ∉ g.slots.present) (hgrant : g.breaker.acquire now = .ok (b, p))
include hnew hout hgrant

/-- **While the call is under way** each attempt has taken one token and made one start, the slots are as they were, and
the breaker has heard of nothing. -/
theorem run_attempts {n : Nat} (hn : n ≤ g.ending plan) :
    g.stepAll (callSteps g.settings k now plan n) = ((g.amid plan n).enter k ⟨p, n, .admitted⟩ b, quiet) := by
  induction n with
  | zero => exact stepAll_quiet (step_enter hnew hgrant) []
  | succ n ih =>
    obtain ⟨e, ms, herror, hworth, hms⟩ := worth_before hn
    have hwait : Retry.backoff (g.amid plan n).settings.retry n e (plan n).offset = some ms := hms
    have hbefore := ih (by omega)
    calc
      g.stepAll (callSteps g.settings k now plan (n + 1))
      _ = g.stepAll (callSteps g.settings k now plan n ++ (plan n).steps g.settings k) := by rw [callSteps_succ]
      _ = ((g.amid plan n).enter k ⟨p, n, .admitted⟩ b).stepAll ((plan n).steps g.settings k) :=
        stepAll_append_quiet hbefore _
      _ = (g.amid plan n).tried k p n b (plan n) := attempt_over (g := g.amid plan n) hnew b p n hout _
      _ = ({ (g.amid plan n).spend (plan n) with retries := (g.amid plan n).retries + 1 }.enter k
            ⟨p, n + 1, .admitted⟩ b, quiet) := by
        rw [tried, ← errorOf, herror, hworth]
        simp only [hwait]
      _ = ((g.amid plan (n + 1)).enter k ⟨p, n + 1, .admitted⟩ b, quiet) := by rw [amid_succ (starts_before hn)]

/-- **After its last attempt** the call is gone. -/
theorem run_over {n : Nat} (hn : g.ending plan < n) :
    g.stepAll (callSteps g.settings k now plan n) = (g.concluded plan b p, ⟨some (k, g.result plan), none⟩) := by
  induction n, hn using Nat.le_induction with
  | base =>
    have hbefore := run_attempts hnew hout hgrant (le_refl (g.ending plan))
    calc
      g.stepAll (callSteps g.settings k now plan (g.ending plan + 1))
      _ = ((g.amid plan (g.ending plan)).enter k ⟨p, g.ending plan, .admitted⟩ b).stepAll
            ((plan (g.ending plan)).steps g.settings k) := by
        rw [callSteps_succ, stepAll_append_quiet hbefore]
      _ = (g.amid plan (g.ending plan)).tried k p (g.ending plan) b (plan (g.ending plan)) :=
        attempt_over (g := g.amid plan (g.ending plan)) hnew b p _ hout _
      _ = (g.concluded plan b p, ⟨some (k, g.result plan), none⟩) := tried_ending k p b
  | succ n hn ih =>
    -- the attempts after it find no call
    have hgone := stepAll_gone (g := g.concluded plan b p) (k := k) hnew (plan n) g.settings (List.Subset.refl _)
    rw [callSteps_succ, stepAll_append, ih, hgone]
    rfl

end Run

/-! ## The whole -/

/-- what the attempts of one call do to a guard `g` that it has to itself, if there are `made` of them -/
structure Made (g : Guard κ) (plan : Nat → Attempt) (made : Nat) (g' : Guard κ) : Prop where
  positive : 1 ≤ made
  bounded : made ≤ max g.settings.retry.maxAttempts 1
  retries : g'.retries = g.retries + (made - 1)
  /-- one token for each attempt that the bucket grants one -/
  debits : g'.debits = g.debits + (List.range made).countP fun n => (g.amid plan n).grants (plan n)
  limiter : g'.limiter = bucket g.limiter plan made
  /-- a start in each attempt before the last one -/
  starts : ∀ n, n + 1 < made → (g.amid plan n).starts (plan n) = true
  invocations : g'.invocations = g.invocations + (List.range made).countP fun n => (g.amid plan n).starts (plan n)
  inFlight : g'.slots.inFlight = g.slots.inFlight
  waiting : g'.slots.waiting = g.slots.waiting
  slots : g'.slots = g.slots
  /-- the calls of others are where they were -/
  calls : g'.calls = g.calls

/-- a call that comes to its end: the breaker has granted it the permit `p` and become `b`, and the last of its attempts
ends with `error`, or without one -/
structure OneCall (g : Guard κ) (k : κ) (plan : Nat → Attempt) (b : Breaker) (p : Permit) (made : Nat)
    (error : Option GuardError) (r : Guard κ × Effect κ) : Prop extends Made g plan made r.1 where
  /-- the call ends as its last attempt does, and nobody gets a slot by it -/
  ended : r.2 = ⟨some (k, .ended error), none⟩
  /-- its last attempt makes a start too, unless it found no token or no slot -/
  lastStarts : (g.amid plan (made - 1)).starts (plan (made - 1)) = false ↔
    error.map GuardError.code = some "RATE_LIMITED" ∨ error.map GuardError.code = some "BULKHEAD_TIMEOUT"
  /-- the breaker hears of the last attempt, and of no other -/
  settled : r.1.breaker = b.settle p (verdict error) (plan (made - 1)).overAt
  success : error = none → r.1.breaker.circuit = .closed ∧ r.1.breaker.failures = 0
  failure : ∀ e, error = some (.call e) →
    r.1.breaker.failures = min (g.breaker.failures + 1) Breaker.mostFailures ∧
      r.1.breaker.circuit =
        if p.kind = .trial ∨ g.breaker.threshold ≤ min (g.breaker.failures + 1) Breaker.mostFailures then .opened
        else .closed
  exhaustion : ∀ e, error = some e → e.isExhaustion = true →
    r.1.breaker = if p.kind = .trial then { g.breaker with circuit := .halfOpen, trialInFlight := false } else g.breaker

/-- a call that breaks down after its last attempt: it has no end for its caller, and the breaker hears of nothing -/
structure BrokenCall (g : Guard κ) (k : κ) (plan : Nat → Attempt) (b : Breaker) (p : Permit) (made : Nat)
    (r : Guard κ × Effect κ) : Prop extends Made g plan made r.1 where
  broke : r.2 = ⟨some (k, .broke), none⟩
  lastStarts : (g.amid plan (made - 1)).starts (plan (made - 1)) = true
  abandoned : r.1.breaker = b.abandon p

theorem countP_range_succ {f : Nat → Bool} {n : Nat} (h : ∀ i < n, f i = true) :
    (List.range (n + 1)).countP f = n + (f n).toNat := by
  have hall : (List.range n).countP f = n := by
    simpa using List.countP_eq_length.2 fun i hi => h i (List.mem_range.1 hi)
  rw [List.range_succ, List.countP_append, hall, List.countP_singleton]
  cases f n <;> rfl

section Whole

variable {g : Guard κ} {plan : Nat → Attempt} {k : κ} {b : Breaker} {p : Permit}

theorem concluded_made : Made g plan (g.ending plan + 1) (g.concluded plan b p) where
  positive := Nat.succ_pos _
  bounded := (Retry.ending_le _ _ _).trans_lt (Retry.deciding_lt _ _ _)
  retries := rfl
  debits := by
    rw [countP_range_succ fun n hn => grants_of_starts (starts_before hn)]
    exact Nat.add_assoc _ _ _
  limiter := rfl
  starts := fun n hn => starts_before (Nat.lt_of_succ_lt_succ hn)
  invocations := by
    rw [countP_range_succ fun n hn => starts_before hn]
    exact Nat.add_assoc _ _ _
  inFlight := rfl
  waiting := rfl
  slots := rfl
  calls := rfl

theorem concluded_oneCall {now : Nat} (hgrant : g.breaker.acquire now = .ok (b, p)) (h : g.ending plan = g.last plan) :
    OneCall g k plan b p (g.last plan + 1) (g.errorOf plan (g.last plan))
      (g.concluded plan b p, ⟨some (k, g.result plan), none⟩) := by
  have hsettled := Breaker.settle_acquired hgrant (plan (g.last plan)).overAt
  have hbreaker : (g.concluded plan b p).breaker =
      b.settle p (verdict (g.errorOf plan (g.last plan))) (plan (g.last plan)).overAt := if_pos h
  exact
    { toMade := h ▸ concluded_made
      ended := by rw [result, if_pos h]
      lastStarts := starts_eq_false _ _
      settled := hbreaker
      success := fun herror => by
        have hverdict : verdict (g.errorOf plan (g.last plan)) = .success := congrArg verdict herror
        rw [hbreaker, hverdict]
        exact hsettled.1
      failure := fun e herror => by
        have hverdict : verdict (g.errorOf plan (g.last plan)) = .failure := congrArg verdict herror
        rw [hbreaker, hverdict]
        exact hsettled.2.1
      exhaustion := fun e herror he => by
        have hverdict : verdict (g.errorOf plan (g.last plan)) = .exhaustion :=
          (congrArg verdict herror).trans (if_pos he)
        rw [hbreaker, hverdict]
        exact hsettled.2.2 }

theorem concluded_brokenCall (h : g.ending plan ≠ g.last plan) :
    BrokenCall g k plan b p (g.ending plan + 1) (g.concluded plan b p, ⟨some (k, g.result plan), none⟩) := by
  obtain ⟨e, ho, -⟩ := Retry.breaks h (plan (g.ending plan)).offset
  exact
    { toMade := concluded_made
      broke := by rw [result, if_neg h]
      lastStarts := starts_of_call (outcome_eq_error.1 ho)
      abandoned := if_neg h }

end Whole

/-- **One call through the whole guard**, whatever its attempts meet with, at any guard whose breaker grants it and that
nobody else uses meanwhile. The call goes by a new key, under which nobody holds a slot or waits for one (`Slots.Agrees.absent`).
It comes to its end as it should exactly if no attempt before the one that decides is stuck; else it breaks down after the
first one that is. The third part is the guard before each of its attempts. -/
theorem call_settled [DecidableEq κ] (g : Guard κ) (k : κ) (now : Nat) (plan : Nat → Attempt) {b : Breaker} {p : Permit}
    (hnew : g.call? k = none) (hout : k ∉ g.slots.present) (hgrant : g.breaker.acquire now = .ok (b, p)) :
    let made := g.last plan + 1
    let r := g.stepAll (callSteps g.settings k now plan (max g.settings.retry.maxAttempts 1))
    (OneCall g k plan b p made (g.errorOf plan (made - 1)) r ↔ ∀ n < g.last plan, g.stuck plan n = false) ∧
      (∀ j < g.last plan, g.stuck plan j = true → (∀ n < j, g.stuck plan n = false) →
        BrokenCall g k plan b p (j + 1) r) ∧
      ∀ n < made, (∀ i < n, g.stuck plan i = false) →
        g.stepAll (callSteps g.settings k now plan n) = ((g.amid plan n).enter k ⟨p, n, .admitted⟩ b, quiet) := by
  intro made r
  have hlast : g.last plan < max g.settings.retry.maxAttempts 1 := Retry.deciding_lt _ _ _
  have hle : g.ending plan ≤ g.last plan := Retry.ending_le _ _ _
  have hr : r = (g.concluded plan b p, ⟨some (k, g.result plan), none⟩) :=
    run_over hnew hout hgrant (hle.trans_lt hlast)
  refine ⟨⟨fun h => ?_, fun hfree => ?_⟩, fun j hj hstuck hfree => ?_, fun n hn hfree => ?_⟩
  · -- a call that breaks down has another result
    refine ending_eq_last_iff.1 (by_contra fun hne => ?_)
    have hended := h.ended
    rw [hr, result, if_neg hne] at hended
    cases hended
  · rw [hr]
    exact concluded_oneCall hgrant (ending_eq_last_iff.2 hfree)
  · have hend : g.ending plan = j := Retry.ending_of_free (.inr hstuck) hj.le hfree
    rw [hr, ← hend]
    exact concluded_brokenCall (by rw [hend]; exact hj.ne)
  · exact run_attempts hnew hout hgrant (Retry.le_ending (Nat.le_of_lt_succ hn) hfree)

/-- a call that fails once and then finds no token: one start, one further attempt, and the breaker is none the wiser -/
theorem call_settled_limited :
    let s : GuardSettings := { limiter := { capacity := 1, refillPerSec := .zero } }
    let g : Guard Nat := fresh "agent" s .standard 0
    let plan : Nat → Attempt := fun _ => ⟨0, true, .fails (.transport "down"), 0, 5⟩
    let r := g.stepAll (callSteps g.settings 7 0 plan (max g.settings.retry.maxAttempts 1))
    g.call? 7 = none ∧ 7 ∉ g.slots.present ∧ g.breaker.acquire 0 = .ok (g.breaker, ⟨.normal, 0⟩) ∧
      g.last plan = 1 ∧ r.2.ended = some (7, .ended (some (.rateLimited "agent" 1))) ∧ r.1.retries = 1 ∧ r.1.debits = 1 ∧
      r.1.invocations = 1 ∧ r.1.breaker = g.breaker := by
  intro s g plan r
  have hnew : g.call? 7 = none := rfl
  have hout : 7 ∉ g.slots.present := by decide
  have hgrant : g.breaker.acquire 0 = .ok (g.breaker, ⟨.normal, 0⟩) := rfl
  have hlast : g.last plan = 1 := by
    refine (Nat.find_eq_iff _).2 ⟨.inl (by decide +kernel), fun n hn => ?_⟩
    obtain rfl : n = 0 := Nat.lt_one_iff.1 hn
    decide +kernel
  have herror : g.errorOf plan 1 = some (.rateLimited "agent" 1) := by decide +kernel
  have h : OneCall g 7 plan g.breaker ⟨.normal, 0⟩ (g.last plan + 1) (g.errorOf plan (g.last plan)) r :=
    (call_settled g 7 0 plan hnew hout hgrant).1.2 fun n hn => by
      obtain rfl : n = 0 := Nat.lt_one_iff.1 (hlast ▸ hn)
      decide +kernel
  -- all that is said of the guard afterwards comes from the theorem
  clear_value r
  rw [hlast, herror] at h
  exact ⟨hnew, hout, hgrant, hlast, congrArg Effect.ended h.ended, h.retries, h.debits.trans (by decide +kernel),
    h.invocations.trans (by decide +kernel), h.exhaustion _ rfl rfl⟩

/-- a guard whose calls break down before a second attempt -/
def wild : Guard Nat := fresh "agent" { retry := Retry.wildJitter } .standard 0

/-- **A call that breaks down**: its first attempt fails for a passing reason, the second one would decide, and it is never
made. The caller is not told how the call ended, and the breaker has not heard of the failure. -/
theorem call_breaks :
    let plan : Nat → Attempt := fun _ => ⟨0, true, .fails (.transport "reset"), 0, 5⟩
    let r := wild.stepAll (callSteps wild.settings 7 0 plan (max wild.settings.retry.maxAttempts 1))
    wild.last plan = 1 ∧ wild.errorOf plan 1 = some (.call (.transport "reset")) ∧ r.2.ended = some (7, .broke) ∧
      r.1.invocations = 1 ∧ r.1.retries = 0 ∧ r.1.breaker.failures = 0 := by
  intro plan r
  have hlast : wild.last plan = 1 := by
    refine (Nat.find_eq_iff _).2 ⟨.inr rfl, fun n hn => ?_⟩
    obtain rfl : n = 0 := Nat.lt_one_iff.1 hn
    decide +kernel
  exact ⟨hlast, by decide +kernel, by decide +kernel, by decide +kernel, by decide +kernel, by decide +kernel⟩

end Foreman.Guard
