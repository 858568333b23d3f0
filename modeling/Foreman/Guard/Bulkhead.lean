/-
A bulkhead: callers that wait for slots, for a limited time.

`Bulkhead.Op` are the steps of callers, in any order; `Bulkhead.step` takes one. `Bulkhead.Timed` puts the waits on a clock:
who is not served by its deadline is refused.
-/
import Foreman.Guard.Slots

namespace Foreman

/-- slots with the callers that were refused because no slot came in time -/
structure Bulkhead (κ : Type) where
  slots : Slots κ
  refused : List κ
deriving DecidableEq, Repr

namespace Bulkhead

variable {κ : Type} [DecidableEq κ]

/-- a step of a caller -/
inductive Op (κ : Type) where
  /-- asks for a slot -/
  | acquire (k : κ)
  /-- has waited too long -/
  | expire (k : κ)
  /-- goes away, waiting or not -/
  | cancel (k : κ)
  /-- gives its slot back -/
  | release (k : κ)
deriving DecidableEq, Repr

def empty (capacity : Nat) : Bulkhead κ := ⟨.empty capacity, []⟩

/-- one step; a step that a caller cannot take changes nothing -/
def step (b : Bulkhead κ) : Op κ → Bulkhead κ
  | .acquire k => if b.slots.holds k || b.slots.waits k then b else { b with slots := b.slots.arrive k }
  | .expire k => if b.slots.waits k then ⟨b.slots.leave k, b.refused ++ [k]⟩ else b
  | .cancel k => { b with slots := (b.slots.discard k).1 }
  | .release k => { b with slots := (b.slots.release k).1 }

def run (capacity : Nat) (ops : List (Op κ)) : Bulkhead κ := ops.foldl step (empty capacity)

/-- a bulkhead on a clock of milliseconds; `limit` is how long a caller may wait -/
structure Timed (κ : Type) where
  bulkhead : Bulkhead κ
  limit : Option Nat
  now : Nat
  /-- who waits until when -/
  deadlines : List (κ × Nat)

namespace Timed

def empty (capacity : Nat) (limit : Option Nat) : Timed κ := ⟨Bulkhead.empty capacity, limit, 0, []⟩

def perform (t : Timed κ) (o : Op κ) : Timed κ := { t with bulkhead := t.bulkhead.step o }

/-- the clock at a later time; those whose deadline has come are refused -/
def advanceTo (t : Timed κ) (time : Nat) : Timed κ :=
  let due := t.deadlines.filter fun d => d.2 ≤ time
  let late := due.foldl (fun t d => t.perform (.expire d.1)) t
  { late with now := time, deadlines := t.deadlines.filter fun d => !(d.2 ≤ time) }

/-- someone asks for a slot; one that may not wait at all is refused at once when none is free. The deadline is that of this
wait: one of an earlier wait of the same caller no longer counts. -/
def acquire (t : Timed κ) (k : κ) : Timed κ :=
  let slots := t.bulkhead.slots
  if slots.holds k || slots.waits k then t
  else
    let asked := t.perform (.acquire k)
    match t.limit with
    | some ms =>
      let others := t.deadlines.filter fun d => d.1 ≠ k
      { asked with deadlines := others ++ [(k, t.now + ms)] }.advanceTo t.now
    | none => asked

/-- someone asks for a slot and gives it back as soon as it has it; whether it got one. One that must wait does so until
its deadline, for nobody gives a slot back in the meantime. -/
def visit (t : Timed κ) (k : κ) : Timed κ × Bool :=
  let asked := t.acquire k
  if asked.bulkhead.slots.holds k then (asked.perform (.release k), true)
  else (asked.advanceTo (t.now + t.limit.getD 0), false)

end Timed

end Bulkhead

end Foreman
