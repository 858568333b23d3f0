/-
The callers of a bulkhead, one by one.

A caller is counted as waiting, then asks for a slot, and is counted no more once it has its slot or has given up. Each of
these is a step of its own (`Crowd.Event`), so the steps of other callers may come between any two of them, and time may
pass. What a step does to the slots it does by `Bulkhead.step`.

A caller that finds no slot looks whether its deadline has come, and if not it waits. Once woken it looks for its slot first
and for its deadline after that. One that gives up may be handed a slot in the last moment; then that slot goes to the next.
-/
import Foreman.Failure
import Foreman.Guard.Bulkhead

namespace Foreman.Bulkhead

/-- a wait for a slot: when it began, and when it is over at the latest -/
structure Wait where
  started : Nat
  deadline : Option Nat
deriving DecidableEq, Repr

/-- how far a caller has come -/
inductive Stage where
  /-- it is counted as waiting and has not asked yet -/
  | counted (started : Nat)
  /-- it has found no slot and is about to look whether its deadline has come -/
  | unserved (w : Wait)
  /-- it waits until it is woken -/
  | queued (w : Wait)
  /-- it has found its slot and is still counted -/
  | served
  /-- it runs, with its slot -/
  | inside
  /-- its deadline has come, and it still has its place -/
  | late (w : Wait)
  /-- it has given up its place and is still counted; how long it waited for its slot, if it was not cancelled -/
  | leaving (waited : Option Nat)
  /-- no slot came in time -/
  | refused (waited : Nat)
  /-- it has run and given its slot back, with an error or without -/
  | ended (error : Option CallError)
  /-- it was cancelled -/
  | gone
deriving DecidableEq, Repr

/-- what a caller is told in the end; one that was cancelled is told nothing -/
def Stage.answer? (resource : String) : Stage → Option (Except GuardError Unit)
  | .refused waited => some (.error (.noSlot resource (.ofMillis waited)))
  | .ended (some e) => some (.error (.call e))
  | .ended none => some (.ok ())
  | _ => none

/-- a bulkhead on a clock of milliseconds, with its callers -/
structure Crowd (κ : Type) where
  resource : String
  bulkhead : Bulkhead κ
  /-- how long a caller may wait -/
  limit : Option Nat
  now : Nat
  /-- how many callers are counted as waiting -/
  waiting : Nat
  /-- who has asked for a slot, in this order -/
  arrivals : List κ
  callers : List (κ × Stage)
deriving DecidableEq, Repr

namespace Crowd

variable {κ : Type} [DecidableEq κ]

/-- what happens next -/
inductive Event (κ : Type) where
  /-- a caller comes and is counted -/
  | come (k : κ)
  /-- it asks for a slot -/
  | ask (k : κ)
  /-- one that has found no slot looks at its deadline -/
  | look (k : κ)
  /-- one that waits is woken and looks for its slot -/
  | poll (k : κ)
  /-- one whose deadline has come gives up its place -/
  | giveUp (k : κ)
  /-- one that has its slot, or has given up, is counted no more -/
  | uncount (k : κ)
  /-- one that runs has come to its end, with an error or without, and gives its slot back -/
  | finish (k : κ) (error : Option CallError)
  /-- one that waits or runs is cancelled -/
  | cancel (k : κ)
  /-- time passes -/
  | pass (ms : Nat)
deriving DecidableEq, Repr

def start (resource : String) (capacity : Nat) (limit : Option Nat) : Crowd κ :=
  ⟨resource, Bulkhead.empty capacity, limit, 0, 0, [], []⟩

def stage? (c : Crowd κ) (k : κ) : Option Stage := c.callers.lookup k

def answer? (c : Crowd κ) (k : κ) : Option (Except GuardError Unit) := (c.stage? k).bind (Stage.answer? c.resource)

def put (c : Crowd κ) (k : κ) (s : Stage) : Crowd κ :=
  { c with callers := c.callers.map fun p => if p.1 = k then (k, s) else p }

def perform (c : Crowd κ) (o : Op κ) : Crowd κ := { c with bulkhead := c.bulkhead.step o }

def holds (c : Crowd κ) (k : κ) : Bool := c.bulkhead.slots.holds k

def isDue (c : Crowd κ) (w : Wait) : Bool := w.deadline.any fun time => time ≤ c.now

/-- one step; a step that a caller cannot take changes nothing -/
def step (c : Crowd κ) : Event κ → Crowd κ
  | .come k =>
    match c.stage? k with
    | some _ => c
    | none => { c with waiting := c.waiting + 1, callers := c.callers ++ [(k, .counted c.now)] }
  | .ask k =>
    match c.stage? k with
    | some (.counted started) =>
      let asked := { c with arrivals := c.arrivals ++ [k] }.perform (.acquire k)
      asked.put k (if asked.holds k then .served else .unserved ⟨started, c.limit.map (c.now + ·)⟩)
    | _ => c
  | .look k =>
    match c.stage? k with
    | some (.unserved w) => c.put k (if c.isDue w then .late w else .queued w)
    | _ => c
  | .poll k =>
    match c.stage? k with
    | some (.queued w) => c.put k (if c.holds k then .served else .unserved w)
    | _ => c
  | .giveUp k =>
    match c.stage? k with
    | some (.late w) =>
      (c.perform (if c.holds k then .cancel k else .expire k)).put k (.leaving (some (c.now - w.started)))
    | _ => c
  | .uncount k =>
    match c.stage? k with
    | some .served => { c with waiting := c.waiting - 1 }.put k .inside
    | some (.leaving waited) => { c with waiting := c.waiting - 1 }.put k (waited.elim .gone .refused)
    | _ => c
  | .finish k error =>
    match c.stage? k with
    | some .inside => (c.perform (.release k)).put k (.ended error)
    | _ => c
  | .cancel k =>
    match c.stage? k with
    | some (.queued _) => (c.perform (.cancel k)).put k (.leaving none)
    | some .inside => (c.perform (.cancel k)).put k .gone
    | _ => c
  | .pass ms => { c with now := c.now + ms }

def runFrom (c : Crowd κ) (es : List (Event κ)) : Crowd κ := es.foldl step c

/-- steps taken one after the other with all slots free at first -/
def run (resource : String) (capacity : Nat) (limit : Option Nat) (es : List (Event κ)) : Crowd κ :=
  (start resource capacity limit).runFrom es

/-- a caller that can do nothing more by itself: one that waits has no slot yet and its deadline has not come -/
def rests (c : Crowd κ) (k : κ) : Stage → Bool
  | .queued w => !c.holds k && !c.isDue w
  | .inside | .refused _ | .ended _ | .gone => true
  | _ => false

/-- no caller can do anything more by itself -/
def Quiet (c : Crowd κ) : Prop := ∀ p ∈ c.callers, c.rests p.1 p.2 = true

instance (c : Crowd κ) : Decidable c.Quiet := inferInstanceAs (Decidable (∀ p ∈ c.callers, c.rests p.1 p.2 = true))

end Crowd

end Foreman.Bulkhead
