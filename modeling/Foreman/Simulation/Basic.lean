/-
Guarded calls in virtual time.

A simulation has a clock of milliseconds, the guards of all resources, and jobs. A job waits for a seat, goes through the
guard of its resource, and ends. Jobs that can go on do so one after the other, first in, first out, each until it must
wait. The clock stands still meanwhile; when no job can go on it jumps to the next timer, and timers of one time fire in the
order in which they were set. A deadline that is now has passed, but a call that is done by then is done.

All that a simulation does to guards it does by `Guard.House.stepAll`, so each run of it is one of the interleavings of
their events, one in which nothing comes between two pauses of a call. Seats, calls and the ends of jobs belong to whoever
runs the simulation and come in by `Outside`. Breakers and limiters read a clock of their own, which does not move with
the simulation's: it goes on by a microsecond with each turn at a guard. Where there is jitter, rests are drawn from the
whole range of it.
-/
import Foreman.Guard.Stack
import Foreman.Simulation.Behaviour

namespace Foreman.Simulation

/-- how a job ends -/
inductive Result (α : Type) where
  | outcome (r : Except GuardError α)
  | broke

/-- what a simulation needs to know of the world of its jobs: `ω` is the state of that world, `κ` what a job is about -/
structure Outside (ω κ α : Type) where
  /-- a job asks for a seat -/
  sit : ω → Nat → ω
  /-- whether a job has a seat -/
  seated : ω → Nat → Bool
  /-- a call is made for a job, at a time -/
  start : ω → κ → Nat → Behaviour α × ω
  /-- a call is over -/
  stop : ω → ω
  /-- a job ends at a time; with the job that gets its seat -/
  leave : ω → Nat → Result α → Nat → ω × Option Nat

/-- where a job is -/
inductive Stage (α : Type) where
  | arriving
  | waitingForSeat
  | waitingForSlot (deadline : Nat)
  | calling (doneAt deadline : Nat) (ending : Ending α)
  | resting (till : Nat)

/-- a job: the resource that it calls, what it is about, where it is, since when, and how many calls it has made -/
structure Job (κ α : Type) where
  id : Nat
  resource : String
  order : κ
  stage : Stage α
  since : Nat
  calls : Nat

structure Ended (α : Type) where
  id : Nat
  result : Result α
  since : Nat
  till : Nat
  calls : Nat

/-- a simulation at one moment -/
structure State (ω κ α : Type) where
  now : Nat
  /-- the reading of the guards' clock, in nanoseconds -/
  wall : Nat
  house : Guard.House Nat
  jobs : List (Job κ α)
  ended : List (Ended α)
  /-- jobs that can go on, the first in line first -/
  ready : List Nat
  /-- times and whom to wake then, in the order in which they were set -/
  timers : List (Nat × Nat)
  outside : ω

variable {ω κ α : Type}

/-- how long a turn at a guard takes on the guards' clock -/
def turnNanos : Nat := 1000

namespace State

def empty (house : Guard.House Nat) (outside : ω) : State ω κ α := ⟨0, 0, house, [], [], [], [], outside⟩

def job? (s : State ω κ α) (id : Nat) : Option (Job κ α) := s.jobs.find? fun j => j.id == id

def setJob (s : State ω κ α) (j : Job κ α) : State ω κ α :=
  { s with jobs := s.jobs.map fun k => if k.id == j.id then j else k }

/-- a job put last in line, unless it is there -/
def wake (s : State ω κ α) : Option Nat → State ω κ α
  | some id => if s.ready.contains id then s else { s with ready := s.ready ++ [id] }
  | none => s

/-- a timer for a job, unless its time has come -/
def setTimer (s : State ω κ α) (id time : Nat) : State ω κ α :=
  if s.now < time then { s with timers := s.timers ++ [(time, id)] } else s

/-- the timers of a job taken away -/
def clearTimers (s : State ω κ α) (id : Nat) : State ω κ α :=
  { s with timers := s.timers.filter fun t => t.2 ≠ id }

/-- what a job does in one go at the guard of its resource -/
def guardTurn (s : State ω κ α) (resource : String) (es : List (Guard.Event Nat)) : State ω κ α × Guard.Effect Nat :=
  let (house, effect) := s.house.stepAll resource s.wall es
  ({ s with house := house, wall := s.wall + turnNanos }.wake effect.woken, effect)

/-- whether a job has a slot of its resource -/
def hasSlot (s : State ω κ α) (j : Job κ α) : Bool := (s.house.guard j.resource s.wall).slots.holds j.id

/-- a job that has come to its end -/
def endJob (o : Outside ω κ α) (s : State ω κ α) (j : Job κ α) (r : Result α) : State ω κ α :=
  let s := s.clearTimers j.id
  let (outside, next) := o.leave s.outside j.id r s.now
  let s : State ω κ α := { s with
    outside := outside
    jobs := s.jobs.filter fun k => k.id != j.id
    ended := s.ended ++ [⟨j.id, r, j.since, s.now, j.calls⟩] }
  s.wake next

/-- a job that has its slot makes its call -/
def call (o : Outside ω κ α) (s : State ω κ α) (j : Job κ α) : State ω κ α :=
  let (s, _) := s.guardTurn j.resource [.start j.id]
  let (behaviour, outside) := o.start s.outside j.order s.now
  let doneAt := s.now + behaviour.delayMs
  let deadline := s.now + s.house.settings.callTimeoutMs
  let j := { j with stage := .calling doneAt deadline behaviour.ending, calls := j.calls + 1 }
  (({ s with outside := outside }.setJob j).clearTimers j.id |>.setTimer j.id doneAt).setTimer j.id deadline

/-- after an attempt has begun: the job has ended, has its slot, or waits for one -/
def afterAttempt (o : Outside ω κ α) (s : State ω κ α) (j : Job κ α) (e : Guard.Effect Nat) : State ω κ α :=
  match e.ended with
  | some (_, .ended (some error)) => s.endJob o j (.outcome (.error error))
  | _ =>
    if s.hasSlot j then s.call o j
    else
      let deadline := s.now + s.house.settings.bulkhead.acquireTimeoutMs
      ((s.setJob { j with stage := .waitingForSlot deadline }).clearTimers j.id).setTimer j.id deadline

/-- the random draw for the rest that a job may take now; the draws at a guard go round eleven places of the range, both
ends among them -/
def draw (s : State ω κ α) (j : Job κ α) : Rat :=
  let g := s.house.guard j.resource s.wall
  let place := g.retries * 7 % 11
  Retry.reach g.settings.retry ((g.call? j.id).elim 0 GuardedCall.attempt) * mkRat (place - 5 : Int) 5

/-- the call of a job is over, with a value or with an error -/
def finishCall (o : Outside ω κ α) (s : State ω κ α) (j : Job κ α) (r : Except CallError α) : State ω κ α :=
  let error := match r with
    | .ok _ => none
    | .error e => some e
  let events := Guard.finishing j.id error (s.draw j) s.wall
  let (s, effect) := { s with outside := o.stop s.outside }.guardTurn j.resource events
  match effect.ended, r with
  | some (_, .ended (some error)), _ => s.endJob o j (.outcome (.error error))
  | some (_, .broke), _ => s.endJob o j .broke
  | _, .ok value => s.endJob o j (.outcome (.ok value))
  | _, .error _ =>
    let ms := match (s.house.guard j.resource s.wall).call? j.id with
      | some ⟨_, _, .resting ms⟩ => ms
      | _ => 0
    ((s.setJob { j with stage := .resting (s.now + ms) }).clearTimers j.id).setTimer j.id (s.now + ms)

/-- a job goes away without a result -/
def dropCall (o : Outside ω κ α) (s : State ω κ α) (j : Job κ α) : State ω κ α :=
  let calling := match j.stage with
    | .calling .. => true
    | _ => false
  let s := if calling then { s with outside := o.stop s.outside } else s
  (s.guardTurn j.resource (Guard.dropping j.id)).1

/-- a job goes on by one stage, and whether it may go on further -/
def turn (o : Outside ω κ α) (s : State ω κ α) (j : Job κ α) : State ω κ α × Bool :=
  match j.stage with
  | .arriving =>
    ({ s with outside := o.sit s.outside j.id }.setJob { j with stage := .waitingForSeat, since := s.now }, true)
  | .waitingForSeat =>
    if o.seated s.outside j.id then
      let (s, effect) := s.guardTurn j.resource (Guard.entering j.id s.wall)
      (s.afterAttempt o j effect, true)
    else (s, false)
  | .waitingForSlot deadline =>
    if s.hasSlot j then (s.call o j, true)
    else if deadline ≤ s.now then
      let (s, effect) := s.guardTurn j.resource (Guard.givingUp j.id s.wall)
      (s.afterAttempt o j effect, true)
    else (s, false)
  | .calling doneAt deadline ending =>
    let timeUp : State ω κ α × Bool :=
      if deadline ≤ s.now then
        (s.finishCall o j (.error (.timeout (.ofMillis s.house.settings.callTimeoutMs))), true)
      else (s, false)
    if doneAt ≤ s.now then
      match ending with
      | .returns value => (s.finishCall o j (.ok value), true)
      | .fails e => (s.finishCall o j (.error e), true)
      | .breaks => ((s.dropCall o j).endJob o j .broke, true)
      | .hangs => timeUp
    else timeUp
  | .resting till =>
    if till ≤ s.now then
      let (s, effect) := s.guardTurn j.resource (Guard.resuming j.id s.wall)
      (s.afterAttempt o j effect, true)
    else (s, false)

/-- a job goes on until it must wait or has ended -/
def poll (o : Outside ω κ α) : Nat → State ω κ α → Nat → State ω κ α
  | 0, s, _ => s
  | fuel + 1, s, id =>
    match s.job? id with
    | none => s
    | some j =>
      let (s, more) := s.turn o j
      if more then poll o fuel s id else s

/-- more turns than one job can take: four stages for each attempt, and a few -/
def turnBound (s : State ω κ α) : Nat := 8 * max s.house.settings.retry.maxAttempts 1 + 16

/-- all jobs that can go on do so, at the time that it is -/
def settleFor (o : Outside ω κ α) : Nat → State ω κ α → State ω κ α
  | 0, s => s
  | fuel + 1, s =>
    match s.ready with
    | [] => s
    | id :: r => settleFor o fuel (poll o s.turnBound { s with ready := r } id)

/-- more turns than all jobs can take -/
def workBound (s : State ω κ α) : Nat := (s.jobs.length + s.ready.length + s.timers.length + 1) * s.turnBound

def settle (o : Outside ω κ α) (s : State ω κ α) : State ω κ α := s.settleFor o s.workBound

/-- the next time for which a timer is set -/
def nextTime? (s : State ω κ α) : Option Nat := (s.timers.map Prod.fst).min?

/-- the clock at the time of timers, which fire; then all jobs that can go on do so -/
def fire (o : Outside ω κ α) (s : State ω κ α) (time : Nat) : State ω κ α :=
  let due := s.timers.filter fun t => t.1 ≤ time
  let s := { s with now := time, timers := s.timers.filter fun t => !(t.1 ≤ time) }
  (due.foldl (fun s t => s.wake (some t.2)) s).settle o

/-- time passes up to a moment -/
def passTo (o : Outside ω κ α) (time : Nat) : Nat → State ω κ α → State ω κ α
  | 0, s => { s with now := time }
  | fuel + 1, s =>
    match s.nextTime? with
    | some t => if t ≤ time then passTo o time fuel (s.fire o t) else { s with now := time }
    | none => { s with now := time }

def advance (o : Outside ω κ α) (s : State ω κ α) (ms : Nat) : State ω κ α :=
  let s := s.settle o
  s.passTo o (s.now + ms) s.workBound

/-- time passes until something has come about, or nothing can come about any more -/
def passUntil (o : Outside ω κ α) (done : State ω κ α → Bool) : Nat → State ω κ α → State ω κ α
  | 0, s => s
  | fuel + 1, s =>
    if done s then s
    else match s.nextTime? with
      | some t => passUntil o done fuel (s.fire o t)
      | none => s

def runUntil (o : Outside ω κ α) (done : State ω κ α → Bool) (s : State ω κ α) : State ω κ α :=
  let s := s.settle o
  s.passUntil o done s.workBound

def spawn (s : State ω κ α) (id : Nat) (resource : String) (order : κ) : State ω κ α :=
  let s : State ω κ α := { s with jobs := s.jobs ++ [⟨id, resource, order, .arriving, s.now, 0⟩] }
  s.wake (some id)

/-- a job dropped before its end -/
def drop (o : Outside ω κ α) (s : State ω κ α) (id : Nat) : State ω κ α :=
  match s.job? id with
  | none => s
  | some j =>
    let s := (s.dropCall o j).clearTimers id
    { s with jobs := s.jobs.filter fun k => k.id != id, ready := s.ready.filter (· ≠ id) }

end State

end Foreman.Simulation
