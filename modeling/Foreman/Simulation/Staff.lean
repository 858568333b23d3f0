/-
A delegator at work with scripted agents.

The delegator's seats are the seats of the jobs, and the ends of the jobs are told to it. Joining lets time pass until there is
something to join.
-/
import Foreman.Delegation.Delegator
import Foreman.Simulation.Basic
import Foreman.Simulation.Script

namespace Foreman.Simulation

/-- a delegator and the script of its agents -/
structure Staff where
  delegator : Delegator
  script : Script

namespace Staff

/-- the end of a job told to the delegator -/
def leave (w : Staff) (task : Nat) (r : Result Payload) (now : Nat) : Staff × Option Nat :=
  let (d, next) := match r with
    | .outcome outcome => w.delegator.finish task outcome now
    | .broke => w.delegator.crash task
  ({ w with delegator := d }, next)

def outside : Outside Staff Order Payload where
  sit w task := { w with delegator := w.delegator.sit task }
  seated w task := w.delegator.seats.holds task
  start w o now :=
    let (b, script) := w.script.start o now
    (b, { w with script := script })
  stop w := { w with script := w.script.stop }
  leave := leave

end Staff

/-- the simulation that a delegator works in -/
abbrev Shift := State Staff Order Payload

namespace Shift

/-- a delegator that has no tasks yet -/
def start (s : GuardSettings) (registry : Registry) (cap : Nat) (rules : List Rule) : Shift :=
  State.empty (.empty s []) ⟨.empty registry cap, .ofRules rules⟩

def delegator (s : Shift) : Delegator := s.outside.delegator

def withDelegator (s : Shift) (d : Delegator) : Shift := { s with outside := { s.outside with delegator := d } }

/-- a todo dispatched with instructions; its task is a new job -/
def delegate (s : Shift) (taskId : Ident) (todo : Todo) (instructions : String) :
    Shift × Except DelegationError Dispatch :=
  match s.delegator.delegate taskId todo instructions with
  | .error e => (s, .error e)
  | .ok (d, r) =>
    let s := withDelegator s d
    match r, d.running.getLast? with
    | .dispatched n _, some (_, t) => (s.spawn n t.resource ⟨t.subagent, t.instructions⟩, .ok r)
    | _, _ => (s, .ok r)

/-- todos dispatched one after the other, up to the first that cannot be; with how many were dispatched so far -/
def delegateAll (s : Shift) (count : Nat) : List (Ident × Todo) → Shift × Except DelegationError Nat
  | [] => (s, .ok count)
  | (taskId, todo) :: r =>
    match s.delegate taskId todo todo.description with
    | (s, .ok d) => s.delegateAll (if d.isDispatched then count + 1 else count) r
    | (s, .error e) => (s, .error e)

/-- the next finished task, once there is one; none when no task is left or the delegator was abandoned -/
def join (s : Shift) : Shift × Option Task :=
  if s.delegator.closed then (s, none)
  else
    let s := s.runUntil Staff.outside fun s => !s.outside.delegator.finished.isEmpty || s.jobs.isEmpty
    let (d, t) := s.outside.delegator.join
    (withDelegator s d, t)

/-- all finished tasks, once no task is left -/
def joinAll (s : Shift) : Shift × List Task :=
  if s.delegator.closed then (s, [])
  else
    let s := s.runUntil Staff.outside fun s => s.jobs.isEmpty
    let (d, ts) := s.outside.delegator.joinAll
    (withDelegator s d, ts)

end Shift

end Foreman.Simulation
