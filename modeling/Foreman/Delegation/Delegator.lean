/-
Handing todos to subagents, a limited number at once.

Every dispatched task waits for a seat, works, and gives the seat back; finished tasks are joined in the order in which they
finished. A todo whose id was marked as processed is never dispatched again, and one with an unfinished or unjoined task is
skipped. Once the delegator is abandoned it takes nothing more. What was not joined by then is handed to the runtime, and the
results that still come in are counted as late. Where there is no runtime at hand the tasks are let go of instead: they
still come to their end, but nobody hears of it.

`Delegator.Op` are the steps of its user and of the tasks, in any order; `Delegator.step` takes one.
-/
import Foreman.Delegation.Task
import Foreman.Guard.Slots
import Foreman.Routing
import Foreman.Todo.Basic

namespace Foreman

/-- what became of a todo that was to be dispatched -/
inductive Dispatch where
  | dispatched (task : Nat) (subagent : String)
  | alreadyProcessed
  | inFlight
deriving DecidableEq, Repr

def Dispatch.isDispatched : Dispatch → Bool
  | .dispatched .. => true
  | _ => false

/-- a delegator; tasks are numbered in order of dispatch, however many there are -/
structure Delegator where
  registry : Registry
  cap : Nat
  seats : Slots Nat
  /-- tasks that have not finished -/
  running : List (Nat × Task)
  /-- tasks that have finished and were not joined, in the order in which they finished -/
  finished : List Task
  /-- ids of todos with a task that was not joined -/
  inFlight : List Ident
  processed : List Ident
  /-- the number of the next task -/
  next : Nat
  /-- how many tasks were dispatched, in a word of thirty-two bits -/
  dispatched : UInt32
  closed : Bool
  /-- whether the tasks were let go of at the end -/
  detached : Bool
  /-- results that came in after the end -/
  late : Nat

namespace Delegator

def empty (registry : Registry) (cap : Nat) : Delegator :=
  ⟨registry, max cap 1, .empty cap, [], [], [], [], 0, 0, false, false, 0⟩

/-- a todo dispatched with instructions; the new task gets an id of its own -/
def delegate (d : Delegator) (taskId : Ident) (todo : Todo) (instructions : String) :
    Except DelegationError (Delegator × Dispatch) :=
  if d.closed then .error .closed
  else if d.processed.contains todo.id then .ok (d, .alreadyProcessed)
  else if d.inFlight.contains todo.id then .ok (d, .inFlight)
  else do
    let b ← d.registry.route todo.description
    let task ← (Task.fresh taskId todo.id b.name b.resource instructions).start
    return ({ d with
      running := d.running ++ [(d.next, task)]
      inFlight := d.inFlight ++ [todo.id]
      next := d.next + 1
      dispatched := d.dispatched + 1 }, .dispatched d.next b.name)

def sit (d : Delegator) (n : Nat) : Delegator :=
  if (d.running.lookup n).isSome && !d.seats.holds n && !d.seats.waits n then { d with seats := d.seats.arrive n }
  else d

/-- a task goes away with its seat; with who gets the seat -/
def retire (d : Delegator) (n : Nat) : Delegator × Option Nat :=
  let (seats, next) := d.seats.discard n
  ({ d with seats := seats, running := d.running.filter fun p => p.1 ≠ n }, next)

/-- a task finishes at a clock reading; with who gets its seat. After the end its result counts as late, unless the tasks were
let go of. -/
def finish (d : Delegator) (n : Nat) (outcome : Except GuardError Payload) (now : Nat) : Delegator × Option Nat :=
  match d.running.lookup n with
  | none => (d, none)
  | some task =>
    let (d, next) := d.retire n
    let task := (task.complete outcome now).toOption.getD task
    if d.closed then ({ d with late := d.late + (!d.detached).toNat }, next)
    else ({ d with finished := d.finished ++ [task] }, next)

/-- a task breaks down: it is never joined, and its todo stays in flight -/
def crash (d : Delegator) (n : Nat) : Delegator × Option Nat :=
  match d.running.lookup n with
  | none => (d, none)
  | some _ => d.retire n

def join (d : Delegator) : Delegator × Option Task :=
  match d.finished with
  | [] => (d, none)
  | t :: r => ({ d with finished := r, inFlight := d.inFlight.erase t.todoId }, some t)

/-- all finished tasks handed out -/
def joinAll (d : Delegator) : Delegator × List Task :=
  ({ d with
      finished := []
      inFlight := d.finished.foldl (fun ids t => ids.erase t.todoId) d.inFlight }, d.finished)

/-- a todo that is never to be dispatched again -/
def mark (d : Delegator) (id : Ident) : Delegator :=
  if d.processed.contains id then d else { d with processed := d.processed ++ [id] }

/-- the end, with a runtime at hand or without: nothing more is taken, and nothing more is handed out. Only the first end
finds tasks to hand over or to let go of. -/
def abandon (d : Delegator) (runtime : Bool) : Delegator :=
  let shut := { d with closed := true, inFlight := [], finished := [] }
  if d.closed then shut
  else if runtime then { shut with late := d.late + d.finished.length }
  else { shut with detached := true }

/-- a step of the user or of a task -/
inductive Op where
  | delegate (taskId : Ident) (todo : Todo) (instructions : String)
  | sit (task : Nat)
  | finish (task : Nat) (outcome : Except GuardError Payload) (now : Nat)
  | crash (task : Nat)
  | join
  | mark (id : Ident)
  | abandon (runtime : Bool)

/-- one step; a task without a seat cannot finish -/
def step (d : Delegator) : Op → Delegator
  | .delegate taskId todo instructions =>
    match d.delegate taskId todo instructions with
    | .ok (d, _) => d
    | .error _ => d
  | .sit n => d.sit n
  | .finish n outcome now => if d.seats.holds n then (d.finish n outcome now).1 else d
  | .crash n => (d.crash n).1
  | .join => d.join.1
  | .mark id => d.mark id
  | .abandon runtime => d.abandon runtime

def run (registry : Registry) (cap : Nat) (ops : List Op) : Delegator := ops.foldl step (empty registry cap)

end Delegator

end Foreman
