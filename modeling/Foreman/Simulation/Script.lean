/-
Agents that follow a script.

A script is a list of rules. A call is answered by the first rule that fits it: its pattern occurs in the instructions, its
subagent is the one called, and it has not been used as often as it may be. A call that no rule fits gets an empty payload at
once. The script writes down the calls in the order in which they start, and how many ran at once.
-/
import Foreman.Finding.Basic
import Foreman.Simulation.Behaviour
import Foreman.Text.Search

namespace Foreman.Simulation

/-- what an agent is called for -/
structure Order where
  subagent : String
  instructions : String
deriving DecidableEq, Repr

/-- how calls of some kind are answered; the ending depends on the number of the call -/
structure Rule where
  pattern : Option String
  subagent : Option String
  times : Option Nat
  delayMs : Nat
  ending : Nat → Ending Payload

/-- whether a rule that was used so often fits a call -/
def Rule.fits (r : Rule) (used : Nat) (o : Order) : Bool :=
  r.pattern.all (Text.contains o.instructions) && r.subagent.all (· == o.subagent) && r.times.all fun n => decide (used < n)

/-- a script with what has happened by it -/
structure Script where
  /-- the rules, each with how often it was used -/
  rules : List (Rule × Nat)
  /-- the calls with their times, in the order in which they started -/
  calls : List (Order × Nat)
  active : Nat
  /-- how many calls ran at once at most -/
  peak : Nat

namespace Script

def ofRules (rs : List Rule) : Script := ⟨rs.map fun r => (r, 0), [], 0, 0⟩

/-- the first rule that fits a call, and the rules with that one used once more -/
def choose (o : Order) : List (Rule × Nat) → Option Rule × List (Rule × Nat)
  | [] => (none, [])
  | (r, used) :: rest =>
    if r.fits used o then (some r, (r, used + 1) :: rest)
    else
      let (found, rest) := choose o rest
      (found, (r, used) :: rest)

/-- a call that starts at a time -/
def start (s : Script) (o : Order) (now : Nat) : Behaviour Payload × Script :=
  let number := s.calls.length
  let (rule, rules) := choose o s.rules
  let behaviour : Behaviour Payload := match rule with
    | some r => ⟨r.delayMs, r.ending number⟩
    | none => ⟨0, .returns .blank⟩
  (behaviour, ⟨rules, s.calls ++ [(o, now)], s.active + 1, max s.peak (s.active + 1)⟩)

def stop (s : Script) : Script := { s with active := s.active - 1 }

end Script

end Foreman.Simulation
