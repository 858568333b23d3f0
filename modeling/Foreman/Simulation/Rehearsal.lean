/-
Calls whose attempts go as listed.

Each call brings the behaviours of its attempts with it; when there are more attempts than behaviours, the last one repeats.
Nobody waits for a seat.
-/
import Foreman.Simulation.Basic

namespace Foreman.Simulation

/-- a call under a number, with the behaviour of each attempt; `last` is that of all further ones -/
structure Rehearsal (α : Type) where
  number : Nat
  attempts : List (Behaviour α)
  last : Behaviour α

namespace Rehearsal

/-- how the attempt after so many others goes -/
def behaviour {α : Type} (r : Rehearsal α) (attempt : Nat) : Behaviour α := (r.attempts[attempt]?).getD r.last

/-- the world of such calls: the numbers of the calls that were made, one for each attempt -/
def outside {α : Type} : Outside (List Nat) (Rehearsal α) α where
  sit w _ := w
  seated _ _ := true
  start w r _ := (r.behaviour (w.count r.number), r.number :: w)
  stop w := w
  leave w _ _ _ := (w, none)

end Rehearsal

/-- a simulation of such calls -/
abbrev Trials (α : Type) := State (List Nat) (Rehearsal α) α

namespace Trials

variable {α : Type}

def start (s : GuardSettings) (cs : List (String × Classifier)) : Trials α := State.empty (.empty s cs) []

/-- a call to a resource begins -/
def begin (s : Trials α) (resource : String) (r : Rehearsal α) : Trials α := s.spawn r.number resource r

def ended? (s : Trials α) (number : Nat) : Option (Ended α) := s.ended.find? fun e => e.id == number

def await (s : Trials α) (number : Nat) : Trials α := s.runUntil Rehearsal.outside fun s => (ended? s number).isSome

end Trials

end Foreman.Simulation
