/-
Loops at work with scripted agents.

A crew performs the tasks of loops. From loop to loop it keeps its guards, while script and clock begin anew.
-/
import Foreman.Digest.Sha256
import Foreman.Loop.Review
import Foreman.Loop.Work
import Foreman.Simulation.Basic
import Foreman.Simulation.Script

namespace Foreman.Simulation

/-- seats and the script of those who sit there -/
structure Room where
  seats : Slots Nat
  script : Script

namespace Room

def leave (w : Room) (job : Nat) (_ : Result Payload) (_ : Nat) : Room × Option Nat :=
  let (seats, next) := w.seats.discard job
  ({ w with seats := seats }, next)

def outside : Outside Room Order Payload where
  sit w job := { w with seats := w.seats.arrive job }
  seated w job := w.seats.holds job
  start w o now :=
    let (b, script) := w.script.start o now
    (b, { w with script := script })
  stop w := { w with script := w.script.stop }
  leave := leave

end Room

/-- the simulation that a loop's tasks run in -/
abbrev Crew := State Room Order Payload

/-- what there is to see of a loop that has ended -/
structure Trace (σ α : Type) where
  outcome : Except LoopError α
  crew : Crew
  /-- what its machine has sent out -/
  signals : List (Signal σ)

namespace Crew

/-- a crew with guards that nobody has called yet -/
def fresh (s : GuardSettings) : Crew := State.empty (.empty s []) ⟨.empty 1, .ofRules []⟩

/-- the crew at the start of another loop -/
def follow (c : Crew) (rules : List Rule) : Crew :=
  { fresh c.house.settings with house := c.house, wall := c.wall, outside := ⟨.empty 1, .ofRules rules⟩ }

/-- how a job has ended -/
def endingOf (e : Ended Payload) : Nat × Option (Except GuardError Payload) :=
  match e.result with
  | .outcome r => (e.id, some r)
  | .broke => (e.id, none)

/-- tasks performed by the crew, at most `cap` at once -/
def perform (c : Crew) (cap : Nat) (tasks : List (Nat × Task)) : Crew × Endings :=
  let seated : Crew := { c with outside := { c.outside with seats := .empty cap }, ended := [] }
  let begun := tasks.foldl (fun s t => s.spawn t.1 t.2.resource ⟨t.2.subagent, t.2.instructions⟩) seated
  let done := begun.runUntil Room.outside fun s => s.jobs.isEmpty
  (done, done.ended.map endingOf)

/-- the crew as the world of a loop; no time passes on the clock of its budget -/
def world : World Crew := ⟨perform, fun _ => 0⟩

/-- a work loop from a context on, with an observer and a store -/
def work (c : Crew) (s : Settings) (r : Registry) (id : String) (context : WorkContext) :
    Trace WorkState WorkOutcome :=
  match WorkLoop.begin s r id 1 true context c with
  | .error e => ⟨.error e, c, []⟩
  | .ok run =>
    let (outcome, run) := WorkLoop.run world Sha256.digest s run
    ⟨outcome, run.world, run.signals⟩

/-- a review from a context on, with an observer and a store -/
def review (c : Crew) (s : Settings) (r : Registry) (id : String) (b : ReviewLoop.Brief) (context : ReviewContext) :
    Trace ReviewState Assessment :=
  match ReviewLoop.begin s r id 1 true context c with
  | .error e => ⟨.error e, c, []⟩
  | .ok run =>
    let (outcome, run) := ReviewLoop.run world s b run
    ⟨outcome, run.world, run.signals⟩

end Crew

end Foreman.Simulation
