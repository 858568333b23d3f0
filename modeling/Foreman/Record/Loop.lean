/-
The JSON forms of what loops leave.
-/
import Foreman.Loop.Work
import Foreman.Record.Assessment
import Foreman.Record.Failure
import Foreman.Record.Machine
import Foreman.Record.Todo

namespace Foreman

open Json

def Move.edge {σ : Type} [StateName σ] (m : Move σ) : Json := .strs [StateName.name m.source, StateName.name m.target]

def Move.toJson {σ : Type} [StateName σ] (m : Move σ) : Json :=
  .strs [m.machineId, StateName.name m.source, StateName.name m.target]

def Todo.toJson (t : Todo) : Json := .obj t.members

/-- a finding with its risk and its signature -/
def Finding.ratedJson (f : Finding) : Json :=
  let signature (s : Signature) : Json := .arr [.str s.file, .ofOption .nat s.line, .str s.severity.name]
  .obj (f.members ++ [("risk", .float f.risk), ("signature", .ofOption signature f.signature)])

/-- a verdict with rated findings and the counts of all severities, the worst first -/
def Assessment.ratedJson (a : Assessment) : Json :=
  .obj (a.membersWith Finding.ratedJson ++ [("counts", .arr (Severity.all.map fun s => .nat (a.count s)))])

def WorkOutcome.toJson (o : WorkOutcome) : Json := .obj [
  ("stop_reason", .str o.stopReason.name), ("iteration_count", .nat o.iterations), ("subagent_calls", .nat o.calls),
  ("evidence", .strs o.evidence), ("findings", .arr (o.findings.map Finding.ratedJson)),
  ("todos", .arr (o.todos.map Todo.toJson)), ("history", .arr (o.history.map Move.edge))]

end Foreman
