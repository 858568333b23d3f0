/-
A circuit breaker.

While the circuit is closed every call gets a permit, and failures in a row are counted. As many failures as the threshold
open it. An open circuit refuses calls until the reset timeout has passed; then it is half open and lets one call through
as a trial. The trial's success closes the circuit, its failure opens it again. A permit that ends without an outcome, or
with one that says nothing about the called side, only frees the place of the trial.

Each opening starts a new epoch. A normal permit from an older epoch, or one that comes back while the circuit is not
closed, is stale: its outcome changes nothing.

`Breaker.Op` are the steps that callers can take in any order, with any number of permits out; `Breaker.step` takes one.
-/
import Foreman.Duration

namespace Foreman

inductive Circuit where
  | closed
  | opened
  | halfOpen
deriving DecidableEq, Repr, Inhabited

def Circuit.name : Circuit → String
  | .closed => "closed"
  | .opened => "open"
  | .halfOpen => "half_open"

inductive PermitKind where
  | normal
  | trial
deriving DecidableEq, Repr

/-- the leave to make one call -/
structure Permit where
  kind : PermitKind
  epoch : Nat
deriving DecidableEq, Repr

/-- what a call's end says about the called side -/
inductive Verdict where
  | success
  | failure
  /-- the call ran out of tokens or slots -/
  | exhaustion
deriving DecidableEq, Repr

/-- a breaker; clock readings are in nanoseconds -/
structure Breaker where
  threshold : Nat
  reset : Duration
  circuit : Circuit
  failures : Nat
  lastFailure : Option Nat
  openedAt : Option Nat
  trialInFlight : Bool
  epoch : Nat
deriving DecidableEq, Repr

namespace Breaker

/-- the greatest count of failures: they are counted in a word of thirty-two bits, and so is the threshold -/
def mostFailures : Nat := Nat.pow 2 32 - 1

/-- a closed circuit; the threshold is at least one -/
def closed (threshold : UInt32) (reset : Duration) : Breaker :=
  ⟨max threshold.toNat 1, reset, .closed, 0, none, none, false, 0⟩

/-- a permit asked for at a clock reading; the error is how long the circuit stays open -/
def acquire (b : Breaker) (now : Nat) : Except Duration (Breaker × Permit) :=
  match b.circuit with
  | .closed => .ok (b, ⟨.normal, b.epoch⟩)
  | .opened =>
    let elapsed := (b.openedAt.map fun t => now - t).getD 0
    if elapsed < b.reset.nanos then .error ⟨b.reset.nanos - elapsed⟩
    else .ok ({ b with circuit := .halfOpen, trialInFlight := true }, ⟨.trial, b.epoch⟩)
  | .halfOpen =>
    if b.trialInFlight then .error .zero
    else .ok ({ b with trialInFlight := true }, ⟨.trial, b.epoch⟩)

/-- whether a permit has nothing to say about the called side now -/
def isStale (b : Breaker) (p : Permit) : Bool :=
  p.kind == .normal && (p.epoch != b.epoch || b.circuit != .closed)

/-- a permit ends without an outcome -/
def abandon (b : Breaker) (p : Permit) : Breaker :=
  match p.kind with
  | .trial => { b with trialInFlight := false }
  | .normal => b

def succeed (b : Breaker) (p : Permit) : Breaker :=
  if b.isStale p then b
  else match p.kind with
    | .normal => { b with failures := 0 }
    | .trial => { b with failures := 0, trialInFlight := false, circuit := .closed, openedAt := none }

def trip (b : Breaker) (now : Nat) : Breaker :=
  { b with circuit := .opened, openedAt := some now, epoch := b.epoch + 1 }

def fail (b : Breaker) (p : Permit) (now : Nat) : Breaker :=
  if b.isStale p then b
  else
    let counted := { b with failures := min (b.failures + 1) mostFailures, lastFailure := some now }
    match p.kind with
    | .trial => { counted with trialInFlight := false }.trip now
    | .normal => if counted.threshold ≤ counted.failures then counted.trip now else counted

/-- a permit ends with a verdict -/
def settle (b : Breaker) (p : Permit) (v : Verdict) (now : Nat) : Breaker :=
  match v with
  | .success => b.succeed p
  | .failure => b.fail p now
  | .exhaustion => b.abandon p

/-! ## Any number of callers -/

/-- a step that a caller takes; callers are told apart by keys -/
inductive Op (κ : Type) where
  | acquire (caller : κ) (now : Nat)
  | settle (caller : κ) (v : Verdict) (now : Nat)
  | drop (caller : κ)

/-- a breaker with the permits that are out -/
structure Desk (κ : Type) where
  breaker : Breaker
  out : List (κ × Permit)

variable {κ : Type} [DecidableEq κ]

/-- the permit of a caller, and the others -/
def Desk.take (d : Desk κ) (caller : κ) : Option (Permit × List (κ × Permit)) :=
  (d.out.find? fun p => p.1 = caller).map fun p => (p.2, d.out.eraseP fun q => q.1 = caller)

/-- a permit asked for by a caller that has none; the error is how long the circuit stays open -/
def Desk.enter (d : Desk κ) (caller : κ) (now : Nat) : Except Duration (Desk κ) :=
  (d.breaker.acquire now).map fun (b, p) => ⟨b, d.out ++ [(caller, p)]⟩

/-- one step; a caller without a permit has nothing to settle or drop, one that has a permit gets no other -/
def step (d : Desk κ) : Op κ → Desk κ
  | .acquire caller now =>
    if (d.take caller).isSome then d else (d.enter caller now).toOption.getD d
  | .settle caller v now =>
    match d.take caller with
    | some (p, rest) => ⟨d.breaker.settle p v now, rest⟩
    | none => d
  | .drop caller =>
    match d.take caller with
    | some (p, rest) => ⟨d.breaker.abandon p, rest⟩
    | none => d

/-- steps taken one after the other from a closed circuit -/
def run (threshold : UInt32) (reset : Duration) (ops : List (Op κ)) : Desk κ :=
  ops.foldl step ⟨closed threshold reset, []⟩

end Breaker

end Foreman
