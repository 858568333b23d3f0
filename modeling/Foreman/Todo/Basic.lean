/-
Todos: single pieces of work.
-/
import Foreman.Ident

namespace Foreman

/-- how urgent a todo is -/
inductive Priority where
  | high
  | medium
  | low
deriving DecidableEq, Repr, Inhabited

namespace Priority

/-- the place in the order: the most urgent first -/
def rank : Priority → Nat
  | .high => 0
  | .medium => 1
  | .low => 2

def name : Priority → String
  | .high => "high"
  | .medium => "medium"
  | .low => "low"

def all : List Priority := [.high, .medium, .low]

end Priority

/-- where a todo stands -/
inductive TodoStatus where
  | pending
  | inProgress
  | completed
  | cancelled
deriving DecidableEq, Repr, Inhabited

namespace TodoStatus

/-- whether the status never changes again -/
def isTerminal : TodoStatus → Bool
  | .completed | .cancelled => true
  | _ => false

def name : TodoStatus → String
  | .pending => "pending"
  | .inProgress => "in_progress"
  | .completed => "completed"
  | .cancelled => "cancelled"

def all : List TodoStatus := [.pending, .inProgress, .completed, .cancelled]

end TodoStatus

/-- a piece of work: it may start once all of `dependsOn` are completed, and it holds the ids of what was found on it -/
structure Todo where
  id : Ident
  description : String
  priority : Priority
  status : TodoStatus
  dependsOn : List Ident
  findingIds : List Ident
deriving DecidableEq, Repr, Inhabited

/-- a pending todo without dependencies and findings -/
def Todo.fresh (id : Ident) (description : String) (priority : Priority) : Todo :=
  ⟨id, description, priority, .pending, [], []⟩

end Foreman
