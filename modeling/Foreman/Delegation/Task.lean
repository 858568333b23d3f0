/-
Tasks: one piece of work in the hands of one subagent.

A task is started once and then completed once, with a payload or with the error that ended it. `start` and `complete`
say what becomes of a task as a value. Whoever holds a task has the calls carried out in place (`serve`): the status is
checked and replaced, and only then the outcome and the time are written down.
-/
import Foreman.Failure
import Foreman.Finding.Basic

namespace Foreman

/-- a task; `finishedAt` is a clock reading -/
structure Task where
  id : Ident
  todoId : Ident
  subagent : String
  resource : String
  instructions : String
  status : TaskStatus
  result : Option Payload
  error : Option GuardError
  finishedAt : Option Nat
deriving Repr

namespace Task

def fresh (id todoId : Ident) (subagent resource instructions : String) : Task :=
  ⟨id, todoId, subagent, resource, instructions, .pending, none, none, none⟩

def advance (t : Task) (source target : TaskStatus) : Except DelegationError Task :=
  if t.status = source then .ok { t with status := target }
  else .error (.invalidTransition t.id t.status target)

def start (t : Task) : Except DelegationError Task := t.advance .pending .inProgress

/-- a task completed at a clock reading -/
def complete (t : Task) (outcome : Except GuardError Payload) (now : Nat) : Except DelegationError Task :=
  (t.advance .inProgress .completed).map fun t =>
    match outcome with
    | .ok p => { t with result := some p, finishedAt := some now }
    | .error e => { t with error := some e, finishedAt := some now }

def succeeded (t : Task) : Bool := t.status == .completed && t.result.isSome

/-! ## Calls in place -/

inductive Call where
  | start
  /-- the end of the work at a clock reading -/
  | complete (outcome : Except GuardError Payload) (now : Nat)

/-- the status in which a task must be for a call -/
def Call.source : Call → TaskStatus
  | .start => .pending
  | .complete .. => .inProgress

/-- the status that a call asks for -/
def Call.target : Call → TaskStatus
  | .start => .inProgress
  | .complete .. => .completed

/-- the status replaced, with the reason if that is refused -/
def move (t : Task) (source target : TaskStatus) : Task × Option DelegationError :=
  if t.status = source then ({ t with status := target }, none)
  else (t, some (.invalidTransition t.id t.status target))

/-- the outcome written down where it belongs -/
def record (t : Task) : Except GuardError Payload → Task
  | .ok p => { t with result := some p }
  | .error e => { t with error := some e }

/-- a call carried out, with the reason if it is refused -/
def serve (t : Task) : Call → Task × Option DelegationError
  | .start => t.move .pending .inProgress
  | .complete outcome now =>
    match t.move .inProgress .completed with
    | (t, some e) => (t, some e)
    | (t, none) => ({ t.record outcome with finishedAt := some now }, none)

def serveAll (t : Task) (cs : List Call) : Task := cs.foldl (fun t c => (t.serve c).1) t

end Task

end Foreman
