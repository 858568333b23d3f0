/-
One attempt of a call that has the guard to itself.

Nothing comes between the steps of such an attempt; other calls may hold slots or wait in line, but do not move. What it
ends with can then be told from the bucket, the slots and the end of the call proper (`error?`), and what it leaves behind is
little: a token that it took and a start that it made (`spend`). A slot that it had it has given back, and a place in line
it has left, so the slots are as they were.

Results:
- `starts_eq_false`: which attempts make no start.
- `stepAll_gone`:    the steps of a call that has ended.
- `attempt_refused`, `attempt_unseated`, `attempt_run`: an attempt without a token, one without a slot, and one that runs.
- `attempt_over`:    any attempt, from its beginning until it has rested or the call has ended.
-/
import Foreman.Proofs.Guard.Entrant

namespace Foreman.Guard

variable {κ : Type}

/-! ## What an attempt comes to -/

/-- how a call that was started ends -/
inductive CallEnd where
  | returns
  | fails (e : CallError)
  /-- it takes longer than it may -/
  | late

def CallEnd.error? (s : GuardSettings) : CallEnd → Option CallError
  | .returns => none
  | .fails e => some e
  | .late => some (.timeout (.ofMillis s.callTimeoutMs))

/-- what an attempt meets with -/
structure Attempt where
  /-- when it asks for a token -/
  asksAt : Nat
  /-- whether it takes a slot that is free; else it waits in vain -/
  takesSlot : Bool
  ending : CallEnd
  /-- the random draw for a rest after it -/
  offset : Rat
  /-- when it is over -/
  overAt : Nat

/-- the steps of an attempt, and of the rest after it; it takes those of them that it comes to -/
def Attempt.steps (a : Attempt) (s : GuardSettings) (k : κ) : List (Event κ) :=
  attempting k a.asksAt ++ (if a.takesSlot then [.start k] else []) ++ givingUp k a.overAt ++
    finishing k (a.ending.error? s) a.offset a.overAt ++ [.resume k]

/-- whether the bucket has a token for an attempt -/
def grants (g : Guard κ) (a : Attempt) : Bool := (g.limiter.take 1 a.asksAt).2

/-- whether the call is started in an attempt -/
def starts (g : Guard κ) (a : Attempt) : Bool := g.grants a && a.takesSlot && g.slots.hasFree

/-- what an attempt ends with -/
def error? (g : Guard κ) (a : Attempt) : Option GuardError :=
  if g.starts a then (a.ending.error? g.settings).map .call
  else if g.grants a then some (.noSlot g.resource (.ofMillis g.settings.bulkhead.acquireTimeoutMs))
  else some (.rateLimited g.resource 1)

/-- the guard with all that an attempt takes from it for good -/
def spend (g : Guard κ) (a : Attempt) : Guard κ :=
  { g with
    limiter := (g.limiter.take 1 a.asksAt).1
    debits := g.debits + (g.grants a).toNat
    invocations := g.invocations + (g.starts a).toNat }

/-- what an attempt makes of the guard, if it is the `n`-th one: another one follows, or the call breaks down or ends -/
def tried (g : Guard κ) (k : κ) (p : Permit) (n : Nat) (b : Breaker) (a : Attempt) : Guard κ × Effect κ :=
  match g.worthRetry? n (g.error? a) with
  | some e =>
    match Retry.backoff g.settings.retry n e a.offset with
    | some _ => ({ g.spend a with retries := g.retries + 1 }.enter k ⟨p, n + 1, .admitted⟩ b, quiet)
    | none => ({ g.spend a with breaker := b.abandon p }, ⟨some (k, .broke), none⟩)
  | none =>
    ({ g.spend a with breaker := b.settle p (verdict (g.error? a)) a.overAt }, ⟨some (k, .ended (g.error? a)), none⟩)

/-- an attempt makes no start exactly if it finds no token or no slot -/
theorem starts_eq_false (g : Guard κ) (a : Attempt) :
    g.starts a = false ↔
      (g.error? a).map GuardError.code = some "RATE_LIMITED" ∨
        (g.error? a).map GuardError.code = some "BULKHEAD_TIMEOUT" := by
  cases hstarts : g.starts a with
  | true => cases a.ending <;> simp [error?, hstarts, CallEnd.error?, GuardError.code]
  | false => cases hgrants : g.grants a <;> simp [error?, hstarts, hgrants, GuardError.code]

/-- an attempt that ends with an error of the call proper has made a start -/
theorem starts_of_call {g : Guard κ} {a : Attempt} {e : CallError} (h : g.error? a = some (.call e)) :
    g.starts a = true := by
  by_contra hno
  simpa [h, GuardError.code] using (starts_eq_false g a).1 (by simpa using hno)

theorem grants_of_starts {g : Guard κ} {a : Attempt} (h : g.starts a = true) : g.grants a = true := by
  unfold starts at h
  simp only [Bool.and_eq_true] at h
  exact h.1.1

/-! ## The steps of an attempt -/

variable [DecidableEq κ] {g : Guard κ} {k : κ} (hnew : g.call? k = none) (b : Breaker) (p : Permit) (n : Nat)
include hnew

theorem stepAll_gone (a : Attempt) (s : GuardSettings) {es : List (Event κ)} (hes : es ⊆ a.steps s k) :
    g.stepAll es = (g, quiet) := by
  induction es with
  | nil => rfl
  | cons e es ih =>
    obtain ⟨he, hes⟩ := List.cons_subset.1 hes
    have hidle : g.step e = (g, quiet) := by
      simp only [Attempt.steps, attempting, givingUp, finishing, List.mem_append, List.mem_cons, List.not_mem_nil,
        or_false, List.mem_ite_nil_right] at he
      rcases he with (((((rfl | rfl | rfl) | ⟨-, rfl⟩) | rfl | rfl) | rfl | rfl | rfl) | rfl) <;> simp only [step, hnew]
    rw [stepAll_quiet hidle, ih hes]

/-- once a step has taken the call out, the steps that are left find nothing to do -/
theorem stepAll_last {g₀ : Guard κ} {e : Event κ} {result : CallResult} {b' : Breaker}
    (h : g₀.step e = ({ g with breaker := b' }, ⟨some (k, result), none⟩)) (a : Attempt) (s : GuardSettings)
    {es : List (Event κ)} (hes : es ⊆ a.steps s k) :
    g₀.stepAll (e :: es) = ({ g with breaker := b' }, ⟨some (k, result), none⟩) := by
  have hgone := stepAll_gone (g := { g with breaker := b' }) hnew a s hes
  rw [stepAll_cons, h, hgone]
  rfl

theorem attempt_refused {a : Attempt} (hgrants : g.grants a = false) :
    (g.enter k ⟨p, n, .admitted⟩ b).stepAll (a.steps g.settings k) = g.tried k p n b a := by
  have hstarts : g.starts a = false := by simp [starts, hgrants]
  have herror : g.error? a = some (.rateLimited g.resource 1) := by simp [error?, hstarts, hgrants]
  have hspend : g.spend a = { g with limiter := (g.limiter.take 1 a.asksAt).1 } := by
    simp [spend, hstarts, hgrants]
  have hspent : (g.spend a).call? k = none := hnew
  have hpay := step_pay_refused hnew b p n hgrants
  rw [← hspend, ← herror] at hpay
  have hask : ((g.spend a).enter k ⟨p, n, .over (g.error? a)⟩ b).step (.ask k) =
      ((g.spend a).enter k ⟨p, n, .over (g.error? a)⟩ b, quiet) := by
    simp only [step, call?_enter_self hspent]
  have hworth : g.worthRetry? n (g.error? a) = none := by
    rw [herror]
    rfl
  simp only [Attempt.steps, attempting, List.cons_append, List.nil_append]
  rw [stepAll_quiet hpay, stepAll_quiet hask,
    stepAll_last hspent (step_judge_ends hspent b p n hworth 0 a.asksAt) a g.settings (by simp [Attempt.steps]), tried,
    hworth, herror]
  rfl

theorem attempt_unseated (hout : k ∉ g.slots.present) {a : Attempt} (hgrants : g.grants a = true)
    (hstarts : g.starts a = false) :
    (g.enter k ⟨p, n, .admitted⟩ b).stepAll (a.steps g.settings k) = g.tried k p n b a := by
  have herror : g.error? a =
      some (.noSlot g.resource (.ofMillis g.settings.bulkhead.acquireTimeoutMs)) := by
    simp [error?, hstarts, hgrants]
  have hspend : g.spend a =
      { g with limiter := (g.limiter.take 1 a.asksAt).1, debits := g.debits + 1 } := by
    simp [spend, hstarts, hgrants]
  have hspent : (g.spend a).call? k = none := hnew
  have hpay := step_pay_granted hnew b p n hgrants
  rw [← hspend] at hpay
  have hstart : (((g.spend a).asked k).enter k ⟨p, n, .waiting⟩ b).stepAll (if a.takesSlot then [.start k] else []) =
      (((g.spend a).asked k).enter k ⟨p, n, .waiting⟩ b, quiet) := by
    split_ifs with htakes
    · have hslot : (g.slots.arrive k).holds k = false := by
        rw [Slots.holds_arrive hout]
        simpa [starts, hgrants, htakes] using hstarts
      rw [stepAll_quiet (start_idle hspent b p n hslot)]
      rfl
    · rfl
  have hgiveUp := step_giveUp hspent b p n hout
  rw [show (g.spend a).resource = g.resource from rfl, show (g.spend a).settings = g.settings from rfl, ← herror]
    at hgiveUp
  have hworth : g.worthRetry? n (g.error? a) = none := by
    rw [herror]
    rfl
  simp only [Attempt.steps, attempting, givingUp, finishing, List.cons_append, List.nil_append, List.append_assoc]
  rw [stepAll_quiet hpay, stepAll_quiet (step_ask hspent b p n),
    stepAll_quiet (judge_idle (g := (g.spend a).asked k) hnew b p n (by simp) 0 a.asksAt), stepAll_append, hstart,
    stepAll_quiet hgiveUp,
    stepAll_last hspent (step_judge_ends hspent b p n hworth 0 a.overAt) a g.settings
      (by simp [Attempt.steps, finishing]), tried, hworth]
  rfl

theorem attempt_run (hout : k ∉ g.slots.present) {a : Attempt} (hstarts : g.starts a = true) :
    (g.enter k ⟨p, n, .admitted⟩ b).stepAll (a.steps g.settings k) = g.tried k p n b a := by
  obtain ⟨⟨hgrants, htakes⟩, hfree⟩ : (g.grants a = true ∧ a.takesSlot = true) ∧ g.slots.hasFree = true := by
    simpa [starts] using hstarts
  have herror : g.error? a = (a.ending.error? g.settings).map .call := by simp [error?, hstarts]
  have hspent : (g.spend a).call? k = none := hnew
  -- the guard with the token taken, and then with the start made
  let paid : Guard κ := { g with limiter := (g.limiter.take 1 a.asksAt).1, debits := g.debits + 1 }
  have hpaid : paid.call? k = none := hnew
  have hstart := step_start hpaid b p n ((Slots.holds_arrive hout).trans hfree)
  have hspend : { paid with invocations := paid.invocations + 1 } = g.spend a := by
    simp [spend, hstarts, hgrants, paid]
  rw [hspend] at hstart
  have hgiveUp : (((g.spend a).asked k).enter k ⟨p, n, .running⟩ b).step (.giveUp k) =
      (((g.spend a).asked k).enter k ⟨p, n, .running⟩ b, quiet) := by
    simp only [step, call?_enter_self (g := (g.spend a).asked k) hnew]
  simp only [Attempt.steps, attempting, givingUp, finishing, htakes, if_true, List.cons_append, List.nil_append]
  -- until the call runs
  rw [stepAll_quiet (step_pay_granted hnew b p n hgrants), stepAll_quiet (step_ask hpaid b p n),
    stepAll_quiet (judge_idle (g := paid.asked k) hnew b p n (by simp) 0 a.asksAt), stepAll_quiet hstart]
  -- until the attempt is over
  rw [stepAll_quiet hgiveUp, stepAll_quiet (judge_idle (g := (g.spend a).asked k) hnew b p n (by simp) 0 a.overAt),
    stepAll_quiet (step_finish (g := (g.spend a).asked k) hnew b p n _), stepAll_quiet (step_release hspent b p n hout _),
    ← herror, tried]
  cases hworth : g.worthRetry? n (g.error? a) with
  | some e =>
    cases hwait : Retry.backoff g.settings.retry n e a.offset with
    | some ms =>
      rw [stepAll_quiet (step_judge_again hspent b p n hworth hwait a.overAt),
        stepAll_quiet (step_resume (g := { g.spend a with retries := _ }) hnew b p (n + 1) _)]
      simp only [hwait]
      rfl
    | none =>
      simp only [hwait]
      exact stepAll_last hspent (step_judge_breaks hspent b p n hworth hwait a.overAt) a g.settings
        (by simp [Attempt.steps])
  | none =>
    exact stepAll_last hspent (step_judge_ends hspent b p n hworth a.offset a.overAt) a g.settings
      (by simp [Attempt.steps])

/-- **One attempt**, and the rest after it, if there is one. -/
theorem attempt_over (hout : k ∉ g.slots.present) (a : Attempt) :
    (g.enter k ⟨p, n, .admitted⟩ b).stepAll (a.steps g.settings k) = g.tried k p n b a := by
  cases hstarts : g.starts a with
  | true => exact attempt_run hnew b p n hout hstarts
  | false =>
    cases hgrants : g.grants a with
    | true => exact attempt_unseated hnew b p n hout hgrants hstarts
    | false => exact attempt_refused hnew b p n hgrants

end Foreman.Guard
