/-
What the work loop and the review loop share.

A loop asks the world to perform its tasks and to read the clock; all else it decides alone. `World.perform` may let tasks end
in any order and in any way, so what is proved of a loop in every world holds of every agent and every interleaving.
-/
import Foreman.Delegation.Delegator
import Foreman.Finding.Ledger
import Foreman.Machine.Basic
import Foreman.Settings.Basic
import Foreman.Todo.List
import Foreman.Todo.Plan

namespace Foreman

/-- why a loop came to no result -/
inductive LoopError where
  | machine (e : MachineError)
  | settings (e : SettingsError)
  | handler (state reason : String)
  /-- the goal cannot be cut into clauses -/
  | noPlan
deriving DecidableEq, Repr

def LoopError.message : LoopError → String
  | .machine e => "state machine error: " ++ e.message
  | .settings e => "configuration error: " ++ e.message
  | .handler state reason => "handler for state " ++ state ++ " failed: " ++ reason
  | .noPlan => "the goal cannot be cut inside a character"

/-- how tasks end, in the order in which they do: each with its number, and nothing when it broke down -/
abbrev Endings := List (Nat × Option (Except GuardError Payload))

/-- what a loop asks of the world, whose state is in `ω` -/
structure World (ω : Type) where
  /-- performs numbered tasks, at most so many at once, until all have ended -/
  perform : ω → Nat → List (Nat × Task) → ω × Endings
  /-- the milliseconds since the start of the loop -/
  clock : ω → Nat

namespace Loop

/-- the ends of tasks told to the delegator -/
def settle (d : Delegator) (endings : Endings) (now : Nat) : Delegator :=
  endings.foldl
    (fun d e =>
      match e.2 with
      | some outcome => (d.finish e.1 outcome now).1
      | none => (d.crash e.1).1)
    d

/-- all running tasks performed, and those that did not break down joined -/
def performAll {ω : Type} (w : World ω) (world : ω) (d : Delegator) : ω × Delegator × List Task :=
  let (world, endings) := w.perform world d.cap d.running
  let (d, tasks) := (settle d endings (w.clock world)).joinAll
  (world, d, tasks)

/-- whether a todo with the wording of a text is there, up to the case of ASCII letters and blanks around the text -/
def isKnown (todos : TodoList) (text : String) : Bool :=
  todos.items.any fun t => Text.sameLetters t.description (Text.trim text)

/-- the todos and the next free number after a suggestion of further work -/
def planFollowUp (s : TodoList × Nat) (text : String) : TodoList × Nat :=
  if isKnown s.1 text || Text.allBlank text then s
  else ((s.1.push (Plan.item (.minted s.2) text)).1, s.2 + 1)

/-- todos for suggestions that are not known yet -/
def planFollowUps (todos : TodoList) (next : Nat) (texts : List String) : TodoList × Nat :=
  texts.foldl planFollowUp (todos, next)

/-- findings offered to a ledger; the todos follow the ids that were displaced -/
def record (ledger : Ledger) (todos : TodoList) (fs : List Finding) : Ledger × TodoList × List Ident :=
  let (ledger, outcome) := ledger.offerAll fs
  (ledger, todos.repointAll outcome.replaced, outcome.retained)

/-- what the end of a task means for its todo, apart from its findings -/
def settleTodo (todos : TodoList) (d : Delegator) (t : Task) : TodoList × Delegator :=
  match t.result, t.error with
  | some _, _ => ((todos.setStatus t.todoId .completed).1, d.mark t.todoId)
  | none, some e =>
    if e.isExhaustion then ((todos.requeue t.todoId).1, d)
    else ((todos.setStatus t.todoId .cancelled).1, d.mark t.todoId)
  | none, none => (todos, d)

/-- todos dispatched one after the other with instructions; those that are dispatched are in progress -/
def dispatch (d : Delegator) (todos : TodoList) (next : Nat) (instructions : Todo → String) (ts : List Todo) :
    Delegator × TodoList × Nat :=
  ts.foldl
    (fun (d, todos, next) t =>
      match d.delegate (.minted next) t (instructions t) with
      | .ok (d, r) => (d, if r.isDispatched then (todos.setStatus t.id .inProgress).1 else todos, next + 1)
      | .error _ => (d, todos, next + 1))
    (d, todos, next)

end Loop

end Foreman
