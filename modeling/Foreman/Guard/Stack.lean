/-
Everything that guards the calls to one resource.

A call asks the breaker for a permit. Then come its attempts: each takes a token, then a slot, and only then makes the call;
the slot is given back before anything else happens. A failed attempt may be followed by a rest and another attempt. The
breaker hears of the last attempt alone. So an open circuit costs neither token nor slot, and nobody rests with a slot.

`Guard.Event` are the steps of calls, each of which touches one of breaker, limiter and slots, so that calls may come
between each other anywhere; `Guard.step` takes one. The clock, the outcomes and the random draws come with the events.
-/
import Foreman.Guard.Breaker
import Foreman.Guard.Limiter
import Foreman.Guard.Retry
import Foreman.Guard.Slots

namespace Foreman

/-- how far a guarded call has come -/
inductive CallPhase where
  /-- an attempt begins: it is about to take a token -/
  | admitted
  /-- it has taken a token and is about to ask for a slot -/
  | paid
  /-- it has asked for a slot, and starts once it has one -/
  | waiting
  /-- it runs -/
  | running
  /-- it has run and still has its slot -/
  | returned (error : Option CallError)
  /-- the attempt is over, with an error or without -/
  | over (error : Option GuardError)
  /-- it rests before another attempt, for so many milliseconds -/
  | resting (ms : Nat)
  /-- it was dropped and still has its permit -/
  | dropped
deriving DecidableEq, Repr

/-- a guarded call that has not ended; attempts are counted from zero -/
structure GuardedCall where
  permit : Permit
  attempt : Nat
  phase : CallPhase
deriving DecidableEq, Repr

/-- the guard of one resource, with its calls under keys -/
structure Guard (κ : Type) where
  resource : String
  settings : GuardSettings
  classifier : Classifier
  breaker : Breaker
  limiter : Limiter
  slots : Slots κ
  /-- how many further attempts were made -/
  retries : Nat
  /-- how many tokens were taken -/
  debits : Nat
  /-- how often a call was started -/
  invocations : Nat
  calls : List (κ × GuardedCall)

namespace Guard

variable {κ : Type} [DecidableEq κ]

/-- a step of a call; `now` is a clock reading in nanoseconds -/
inductive Event (κ : Type) where
  /-- a call comes in and asks for a permit -/
  | enter (k : κ) (now : Nat)
  /-- an attempt takes a token, or is over without one -/
  | pay (k : κ) (now : Nat)
  /-- an attempt asks for a slot -/
  | ask (k : κ)
  /-- a call that has a slot starts -/
  | start (k : κ)
  /-- a running call ends, with an error or without -/
  | finish (k : κ) (error : Option CallError)
  /-- a call that has run gives its slot back -/
  | release (k : κ)
  /-- a call has waited too long for a slot; one that came in the last moment goes back -/
  | giveUp (k : κ)
  /-- a call whose attempt is over rests or ends, or breaks down; `offset` is the random draw for a rest -/
  | judge (k : κ) (offset : Rat) (now : Nat)
  /-- a call has rested -/
  | resume (k : κ)
  /-- a call is dropped, wherever it is, and with it its slot or its place in line -/
  | drop (k : κ)
  /-- a call that was dropped gives its permit back -/
  | leave (k : κ)

/-- how a call comes out for its caller -/
inductive CallResult where
  /-- it ends, with an error or without -/
  | ended (error : Option GuardError)
  /-- it breaks down, since no wait can be told before another attempt -/
  | broke
deriving DecidableEq, Repr

/-- what a step brings about: the end of a call, and a call that gets its slot -/
structure Effect (κ : Type) where
  ended : Option (κ × CallResult)
  woken : Option κ

def quiet : Effect κ := ⟨none, none⟩

/-- what two steps bring about, if only one of them brings about anything of a kind -/
def Effect.and (a b : Effect κ) : Effect κ := ⟨a.ended.or b.ended, a.woken.or b.woken⟩

/-- a guard that nobody has called yet -/
def fresh (resource : String) (s : GuardSettings) (c : Classifier) (now : Nat) : Guard κ where
  resource := resource
  settings := s
  classifier := c
  breaker := .closed s.breaker.failureThreshold (.ofMillis s.breaker.resetTimeoutMs)
  limiter := .full s.limiter.capacity (.ofNumber s.limiter.refillPerSec) now
  slots := .empty s.bulkhead.capacity
  retries := 0
  debits := 0
  invocations := 0
  calls := []

def call? (g : Guard κ) (k : κ) : Option GuardedCall := g.calls.lookup k

def setCall (g : Guard κ) (k : κ) (c : GuardedCall) : Guard κ :=
  { g with calls := g.calls.map fun p => if p.1 = k then (k, c) else p }

def dropCall (g : Guard κ) (k : κ) : Guard κ := { g with calls := g.calls.filter fun p => p.1 ≠ k }

/-- the verdict of the breaker on an error -/
def verdict : Option GuardError → Verdict
  | none => .success
  | some e => if e.isExhaustion then .exhaustion else .failure

def conclude (g : Guard κ) (k : κ) (c : GuardedCall) (error : Option GuardError) (now : Nat) : Guard κ × Effect κ :=
  ({ g.dropCall k with breaker := g.breaker.settle c.permit (verdict error) now }, ⟨some (k, .ended error), none⟩)

/-- a call that breaks down; its permit ends without an outcome -/
def breakDown (g : Guard κ) (k : κ) (c : GuardedCall) : Guard κ × Effect κ :=
  ({ g.dropCall k with breaker := g.breaker.abandon c.permit }, ⟨some (k, .broke), none⟩)

/-- a call that has no slot any more and waits for none; the first in line gets the one that it had -/
def vacate (g : Guard κ) (k : κ) (c : GuardedCall) : Guard κ × Effect κ :=
  let (slots, next) := g.slots.discard k
  ({ g with slots := slots }.setCall k c, ⟨none, next⟩)

/-- the error of an attempt, if the attempt is worth another one -/
def worthRetry? (g : Guard κ) (attempt : Nat) : Option GuardError → Option CallError
  | some (.call e) => if Retry.again g.settings.retry g.classifier attempt e then some e else none
  | _ => none

/-- one step; a step that a call cannot take changes nothing -/
def step (g : Guard κ) : Event κ → Guard κ × Effect κ
  | .enter k now =>
    match g.call? k with
    | some _ => (g, quiet)
    | none =>
      match g.breaker.acquire now with
      | .error left => (g, ⟨some (k, .ended (some (.circuitOpen g.resource left))), none⟩)
      | .ok (b, p) => ({ g with breaker := b, calls := g.calls ++ [(k, ⟨p, 0, .admitted⟩)] }, quiet)
  | .pay k now =>
    match g.call? k with
    | some ⟨p, n, .admitted⟩ =>
      let (limiter, granted) := g.limiter.take 1 now
      let g := { g with limiter := limiter }
      if granted then ({ g with debits := g.debits + 1 }.setCall k ⟨p, n, .paid⟩, quiet)
      else (g.setCall k ⟨p, n, .over (some (.rateLimited g.resource 1))⟩, quiet)
    | _ => (g, quiet)
  | .ask k =>
    match g.call? k with
    | some ⟨p, n, .paid⟩ => ({ g with slots := g.slots.arrive k }.setCall k ⟨p, n, .waiting⟩, quiet)
    | _ => (g, quiet)
  | .start k =>
    match g.call? k with
    | some ⟨p, n, .waiting⟩ =>
      if g.slots.holds k then ({ g with invocations := g.invocations + 1 }.setCall k ⟨p, n, .running⟩, quiet)
      else (g, quiet)
    | _ => (g, quiet)
  | .finish k error =>
    match g.call? k with
    | some ⟨p, n, .running⟩ => (g.setCall k ⟨p, n, .returned error⟩, quiet)
    | _ => (g, quiet)
  | .release k =>
    match g.call? k with
    | some ⟨p, n, .returned error⟩ => g.vacate k ⟨p, n, .over (error.map .call)⟩
    | _ => (g, quiet)
  | .giveUp k =>
    match g.call? k with
    | some ⟨p, n, .waiting⟩ =>
      let error := GuardError.noSlot g.resource (.ofMillis g.settings.bulkhead.acquireTimeoutMs)
      g.vacate k ⟨p, n, .over (some error)⟩
    | _ => (g, quiet)
  | .judge k offset now =>
    match g.call? k with
    | some ⟨p, n, .over error⟩ =>
      match g.worthRetry? n error with
      | some e =>
        match Retry.backoff g.settings.retry n e offset with
        | some ms => ({ g with retries := g.retries + 1 }.setCall k ⟨p, n + 1, .resting ms⟩, quiet)
        | none => g.breakDown k ⟨p, n, .over error⟩
      | none => g.conclude k ⟨p, n, .over error⟩ error now
    | _ => (g, quiet)
  | .resume k =>
    match g.call? k with
    | some ⟨p, n, .resting _⟩ => (g.setCall k ⟨p, n, .admitted⟩, quiet)
    | _ => (g, quiet)
  | .drop k =>
    match g.call? k with
    | some c => g.vacate k { c with phase := .dropped }
    | none => (g, quiet)
  | .leave k =>
    match g.call? k with
    | some ⟨p, _, .dropped⟩ => ({ g.dropCall k with breaker := g.breaker.abandon p }, quiet)
    | _ => (g, quiet)

def runFrom (g : Guard κ) (es : List (Event κ)) : Guard κ := es.foldl (fun g e => (g.step e).1) g

/-! ## What a call does in one go

Where nothing comes between the steps of a call, it takes these from one pause to the next.
-/

/-- an attempt begins; it waits for a slot, or the call ends -/
def attempting (k : κ) (now : Nat) : List (Event κ) := [.pay k now, .ask k, .judge k 0 now]

def entering (k : κ) (now : Nat) : List (Event κ) := .enter k now :: attempting k now

def resuming (k : κ) (now : Nat) : List (Event κ) := .resume k :: attempting k now

/-- a running call ends, with an error or without; it rests, or the call ends -/
def finishing (k : κ) (error : Option CallError) (offset : Rat) (now : Nat) : List (Event κ) :=
  [.finish k error, .release k, .judge k offset now]

/-- a call has waited too long for a slot -/
def givingUp (k : κ) (now : Nat) : List (Event κ) := [.giveUp k, .judge k 0 now]

/-- a call is dropped, wherever it is -/
def dropping (k : κ) : List (Event κ) := [.drop k, .leave k]

/-- steps taken one after the other, with what they bring about -/
def stepAll (g : Guard κ) (es : List (Event κ)) : Guard κ × Effect κ :=
  es.foldl (fun r e => let (g, effect) := r.1.step e; (g, r.2.and effect)) (g, quiet)

/-! ## Several resources -/

/-- guards by resource, made when they are first needed -/
structure House (κ : Type) where
  settings : GuardSettings
  classifiers : List (String × Classifier)
  guards : List (String × Guard κ)

namespace House

def empty (s : GuardSettings) (cs : List (String × Classifier)) : House κ := ⟨s, cs, []⟩

/-- the guard of a resource: the one there is, or a fresh one -/
def guard (h : House κ) (resource : String) (now : Nat) : Guard κ :=
  match h.guards.lookup resource with
  | some g => g
  | none => .fresh resource h.settings ((h.classifiers.lookup resource).getD Classifier.standard) now

def put (resource : String) (g : Guard κ) : List (String × Guard κ) → List (String × Guard κ)
  | [] => [(resource, g)]
  | (r, k) :: rest => if r = resource then (r, g) :: rest else (r, k) :: put resource g rest

/-- the house with a guard for a resource -/
def ensure (h : House κ) (resource : String) (now : Nat) : House κ :=
  { h with guards := put resource (h.guard resource now) h.guards }

def stepAll (h : House κ) (resource : String) (now : Nat) (es : List (Event κ)) : House κ × Effect κ :=
  let (g, effect) := (h.guard resource now).stepAll es
  ({ h with guards := put resource g h.guards }, effect)

def resources (h : House κ) : List String := (h.guards.map Prod.fst).mergeSort fun a b => decide (a ≤ b)

end House

end Guard

end Foreman
