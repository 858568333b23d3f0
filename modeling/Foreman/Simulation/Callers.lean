/-
Callers of a bulkhead under names.

Each call has a number of its own, so a name that comes again stands for a new caller. Nobody looks after the one before it
any more, nor after one that is released: a slot that such a caller holds goes back, and one that it still waits for goes
back as soon as it gets it. A caller that is cancelled goes away, waiting or not.
-/
import Foreman.Guard.Bulkhead

namespace Foreman.Simulation

/-- what a name stands for -/
inductive Caller where
  /-- a call with its number -/
  | present (number : Nat)
  | released
  | cancelled
deriving DecidableEq, Repr

/-- how it goes with a caller -/
inductive Standing where
  | waiting
  | held
  | timedOut
  | released
  | cancelled
deriving DecidableEq, Repr

def Standing.name : Standing → String
  | .waiting => "waiting"
  | .held => "held"
  | .timedOut => "timed_out"
  | .released => "released"
  | .cancelled => "cancelled"

/-- a bulkhead on a clock with callers under names -/
structure Callers where
  timed : Bulkhead.Timed Nat
  names : List (String × Caller)
  next : Nat
  /-- the numbers of callers that nobody looks after -/
  stray : List Nat

namespace Callers

def start (capacity : Nat) (limit : Option Nat) : Callers := ⟨.empty capacity limit, [], 0, []⟩

def slots (c : Callers) : Slots Nat := c.timed.bulkhead.slots

def standingOf (c : Callers) : Caller → Standing
  | .present n => if c.slots.holds n then .held else if c.slots.waits n then .waiting else .timedOut
  | .released => .released
  | .cancelled => .cancelled

/-- the caller under a name, with how it goes with it -/
def standing? (c : Callers) (name : String) : Option Standing := (c.names.lookup name).map c.standingOf

/-- the names with how it goes with them -/
def standings (c : Callers) : List (String × Standing) := c.names.map fun p => (p.1, c.standingOf p.2)

/-- a name given to a caller -/
def put (c : Callers) (name : String) (k : Caller) : Callers :=
  { c with names := (c.names.filter fun p => p.1 ≠ name) ++ [(name, k)] }

/-- slots of callers that nobody looks after go back, as long as one of them has a slot; each goes back once -/
def tidyUp : Nat → Callers → Callers
  | 0, c => c
  | fuel + 1, c =>
    match c.stray.find? fun n => c.slots.holds n with
    | some n => tidyUp fuel { c with timed := c.timed.perform (.release n), stray := c.stray.erase n }
    | none => c

def settle (c : Callers) : Callers := tidyUp c.stray.length c

/-- the caller under a name is no longer looked after -/
def abandon (c : Callers) (name : String) : Callers :=
  match c.names.lookup name with
  | some (.present n) => { c with stray := c.stray ++ [n] }.settle
  | _ => c

/-- a new caller under a name asks for a slot -/
def acquire (c : Callers) (name : String) : Callers :=
  let c := c.abandon name
  { c.put name (.present c.next) with timed := c.timed.acquire c.next, next := c.next + 1 }.settle

/-- a name is released, and whether it held a slot -/
def release (c : Callers) (name : String) : Callers × Bool :=
  ((c.abandon name).put name .released, c.standing? name == some .held)

/-- a name is cancelled, and whether it waited -/
def cancel (c : Callers) (name : String) : Callers × Bool :=
  let gone := match c.names.lookup name with
    | some (.present n) => { c with timed := c.timed.perform (.cancel n) }.settle
    | _ => c
  (gone.put name .cancelled, c.standing? name == some .waiting)

def advance (c : Callers) (ms : Nat) : Callers := { c with timed := c.timed.advanceTo (c.timed.now + ms) }

/-- someone without a name has a slot for a moment, and whether it got one -/
def visit (c : Callers) : Callers × Bool :=
  let (timed, served) := c.timed.visit c.next
  ({ c with timed := timed, next := c.next + 1 }, served)

end Callers

end Foreman.Simulation
