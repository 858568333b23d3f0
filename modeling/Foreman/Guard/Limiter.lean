/-
A token bucket.

The bucket starts full and fills at a steady rate, never beyond its capacity. A request takes its tokens all at once or is
refused and takes none. Amounts are exact; a rate below zero, or none at all, never fills anything, and an infinite one
keeps the bucket full.
-/
import Foreman.Binary64.Basic

namespace Foreman

/-- how fast a bucket fills, in tokens a second -/
inductive Rate where
  | perSecond (tokens : Rat)
  | unlimited
deriving DecidableEq, Repr

namespace Rate

/-- the rate of a number: below zero or no number is zero -/
def ofNumber : Binary64 → Rate
  | .finite negative units => .perSecond (if negative then 0 else mkRat units Binary64.unitsPerOne)
  | .infinite negative => if negative then .perSecond 0 else .unlimited
  | .nan _ => .perSecond 0

end Rate

/-- a bucket; clock readings are in nanoseconds -/
structure Limiter where
  capacity : Nat
  rate : Rate
  tokens : Rat
  lastRefill : Nat
deriving DecidableEq, Repr

namespace Limiter

def full (capacity : Nat) (rate : Rate) (now : Nat) : Limiter := ⟨capacity, rate, capacity, now⟩

/-- the bucket at a clock reading -/
def refill (l : Limiter) (now : Nat) : Limiter :=
  let tokens := match l.rate with
    | .unlimited => (l.capacity : Rat)
    | .perSecond r =>
      let sum := l.tokens + r * mkRat ((now - l.lastRefill : Nat) : Int) 1000000000
      if sum ≤ (l.capacity : Rat) then sum else (l.capacity : Rat)
  { l with tokens := tokens, lastRefill := now }

/-- a request for tokens at a clock reading, and whether it is granted -/
def take (l : Limiter) (n : Nat) (now : Nat) : Limiter × Bool :=
  let l := l.refill now
  if (n : Rat) ≤ l.tokens then ({ l with tokens := l.tokens - n }, true) else (l, false)

def available (l : Limiter) (now : Nat) : Limiter × Rat :=
  let l := l.refill now
  (l, l.tokens)

end Limiter

/-- the binary64 number nearest to a ratio -/
def Binary64.ofRat (r : Rat) : Binary64 :=
  .ofRatio (decide (r.num < 0)) (r.num.natAbs * Binary64.unitsPerOne) r.den

end Foreman
