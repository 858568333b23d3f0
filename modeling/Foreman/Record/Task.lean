/-
The JSON forms of bindings, of tasks and of the state of guards.
-/
import Foreman.Guard.Stack
import Foreman.Record.Failure
import Foreman.Record.Finding
import Foreman.Routing

namespace Foreman

def Binding.toJson (b : Binding) : Json :=
  .obj [("kind", .str b.kind.name), ("name", .str b.name), ("resource", .str b.resource)]

def Payload.digest (p : Payload) : Json :=
  .obj [("summary", .str p.summary), ("evidence", .strs p.evidence), ("findings", .nat p.findings.length)]

def Task.toJson (t : Task) : Json := .obj [
  ("todo_id", t.todoId.toJson), ("subagent", .str t.subagent), ("resource", .str t.resource),
  ("instructions", .str t.instructions), ("status", .str t.status.name), ("succeeded", .bool t.succeeded),
  ("result", .ofOption Payload.digest t.result), ("error", .ofOption GuardError.toJson t.error),
  ("finished", .bool t.finishedAt.isSome)]

/-- the state of a guard at a clock reading -/
def Guard.toJson {κ : Type} (g : Guard κ) (now : Nat) : Json := .obj [
  ("breaker", .str g.breaker.circuit.name), ("failures", .nat g.breaker.failures),
  ("tokens", .float (.ofRat (g.limiter.available now).2)), ("in_flight", .nat g.slots.inFlight),
  ("waiting", .nat g.slots.waiting), ("retries", .nat g.retries)]

/-- the state of all guards at a clock reading -/
def Guard.House.toJson {κ : Type} (h : House κ) (now : Nat) : Json := .obj (h.guards.map fun g => (g.1, g.2.toJson now))

end Foreman
