/-
Trying again.

A failed call is tried again when its error is worth another try and attempts are left. Before that there is a wait: as
long as the called side asks for, but at most the greatest delay; else a delay that doubles with each attempt, moved by a
random offset when there is jitter. The offset is drawn from a range as wide as the factor for jitter makes it; where that
is no range of numbers there is nothing to draw, and whoever was to wait breaks down.

There are two ways to wait. `run` does so on a thread that sleeps, `Execution` gives way to others meanwhile.
-/
import Foreman.Failure
import Foreman.Settings.Basic

namespace Foreman

/-- which errors are worth another try -/
abbrev Classifier := CallError → Bool

namespace Classifier

/-- transport problems, throttling, timeouts, and rejections that blame the called side or the pace -/
def standard : Classifier
  | .transport _ => true
  | .throttled _ => true
  | .timeout _ => true
  | .rejected status _ => status == 429 || decide (500 ≤ status)
  | .malformed _ => false

def never : Classifier := fun _ => false

def always : Classifier := fun _ => true

end Classifier

namespace Retry

def attempts (r : RetrySettings) : Nat := max r.maxAttempts 1

def hasJitter (r : RetrySettings) : Bool := !r.jitterFactor.le .zero

/-- a delay moved by an offset, in whole milliseconds, not below zero and not beyond what can be told -/
def shifted (base : Nat) (offset : Rat) : Nat := min ((base : Rat) + offset).floor.toNat longestMs

/-- how far the random draw can move the wait after an attempt, either way -/
def reach (r : RetrySettings) (attempt : Nat) : Rat := r.delayMs attempt * r.jitterFactor.value

/-- the end of the range that the draw for the wait after an attempt is made from; its other end is the negative of it -/
def rangeEnd (r : RetrySettings) (attempt : Nat) : Binary64 := (Binary64.ofNat (r.delayMs attempt)).mul r.jitterFactor

/-- the wait in milliseconds after an attempt that failed with an error; `offset` is the random draw. There is none where
the range has no finite width, as for a factor that is a nan or too great: the draw breaks down. -/
def backoff (r : RetrySettings) (attempt : Nat) (e : CallError) (offset : Rat) : Option Nat :=
  match e with
  | .throttled ms => some (min ms r.maxDelayMs)
  | _ =>
    if hasJitter r then
      if (rangeEnd r attempt).hasDouble then some (shifted (r.delayMs attempt) offset) else none
    else some (r.delayMs attempt)

/-- whether an attempt that failed with an error is followed by another one -/
def again (r : RetrySettings) (c : Classifier) (attempt : Nat) (e : CallError) : Bool :=
  c e && decide (attempt + 1 < attempts r)

/-- how a series of attempts came out -/
structure Report (α : Type) where
  /-- the outcome of the last attempt; none if the series broke down after it -/
  result : Option (Except GuardError α)
  /-- how often the call was made -/
  calls : Nat
  /-- the waits between the attempts, in milliseconds -/
  waits : List Nat
  /-- how many further attempts were made, with those that were made before this series -/
  retries : Nat

/-! ## On a thread that sleeps -/

/-- attempts from one of them on; `outcome` tells how each attempt ends, `offset` draws for each, and `retries` further
attempts were made before -/
def runFrom {α : Type} (r : RetrySettings) (c : Classifier) (outcome : Nat → Except GuardError α) (offset : Nat → Rat)
    (attempt retries : Nat) : Report α :=
  match outcome attempt with
  | .error (.call e) =>
    if _ : again r c attempt e then
      match backoff r attempt e (offset attempt) with
      | some ms =>
        let rest := runFrom r c outcome offset (attempt + 1) (retries + 1)
        { rest with calls := rest.calls + 1, waits := ms :: rest.waits }
      | none => ⟨none, 1, [], retries⟩
    else ⟨some (.error (.call e)), 1, [], retries⟩
  | result => ⟨some result, 1, [], retries⟩
termination_by attempts r - attempt
decreasing_by
  -- another attempt is made only while one is left
  have h : again r c attempt e = true := ‹_›
  simp only [again, Bool.and_eq_true, decide_eq_true_eq] at h
  omega

/-- a call tried until it succeeds, fails for good or has no attempt left, or a wait breaks down -/
def run {α : Type} (r : RetrySettings) (c : Classifier) (outcome : Nat → Except GuardError α) (offset : Nat → Rat)
    (retries : Nat) : Report α :=
  runFrom r c outcome offset 0 retries

/-! ## In an execution that gives way

While the call runs, and while the execution rests, other things happen. The execution is told when the call has returned
and when the rest is over.
-/

/-- where an execution stands -/
inductive Stage (α : Type) where
  /-- the call runs -/
  | calling
  /-- it rests before another call, for so many milliseconds -/
  | resting (ms : Nat)
  | ended (result : Except GuardError α)
  /-- it broke down before a rest -/
  | broken

/-- an execution that is under way; attempts are counted from zero -/
structure Execution (α : Type) where
  attempt : Nat
  stage : Stage α
  /-- how often the call was made -/
  calls : Nat
  /-- the rests up to now, in milliseconds -/
  waits : List Nat
  /-- how many further attempts were made, with those that were made before this execution -/
  retries : Nat

namespace Execution

variable {α : Type}

def start (retries : Nat) : Execution α := ⟨0, .calling, 1, [], retries⟩

/-- the call has returned; `offset` is the random draw for a rest -/
def returned (r : RetrySettings) (c : Classifier) (x : Execution α) (result : Except GuardError α) (offset : Rat) :
    Execution α :=
  match result with
  | .error (.call e) =>
    if again r c x.attempt e then
      match backoff r x.attempt e offset with
      | some ms => { x with stage := .resting ms, waits := x.waits ++ [ms], retries := x.retries + 1 }
      | none => { x with stage := .broken }
    else { x with stage := .ended (.error (.call e)) }
  | result => { x with stage := .ended result }

def rested (x : Execution α) : Execution α :=
  { x with attempt := x.attempt + 1, stage := .calling, calls := x.calls + 1 }

/-- the next thing that the execution is told; nothing happens to one that has ended or broken down -/
def next (r : RetrySettings) (c : Classifier) (outcome : Nat → Except GuardError α) (offset : Nat → Rat)
    (x : Execution α) : Execution α :=
  match x.stage with
  | .calling => x.returned r c (outcome x.attempt) (offset x.attempt)
  | .resting _ => x.rested
  | .ended _ | .broken => x

/-- how it came out, if it has ended or broken down -/
def report? (x : Execution α) : Option (Report α) :=
  match x.stage with
  | .ended result => some ⟨some result, x.calls, x.waits, x.retries⟩
  | .broken => some ⟨none, x.calls, x.waits, x.retries⟩
  | _ => none

end Execution

end Retry

end Foreman
