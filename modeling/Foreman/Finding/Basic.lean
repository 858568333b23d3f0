/-
Findings, as agents report them and as they are recorded.
-/
import Foreman.ChangeSet
import Foreman.Finding.Severity
import Foreman.Ident

namespace Foreman

/-- a finding as an agent or a scanner reports it, before anything is checked -/
structure Report where
  id : Option String
  severity : String
  confidence : Json
  title : String
  description : String
  evidence : String
  file : Option String
  line : Option Nat
  recommendation : String
deriving Repr, Inhabited

def Report.blank : Report := ⟨none, "", .null, "", "", "", none, none, ""⟩

/-- what one call of an agent brings back -/
structure Payload where
  summary : String
  evidence : List String
  findings : List Report
  /-- further work that the agent suggests -/
  followUps : List String
  /-- a final recommendation, which proposes to stop -/
  recommendation : Option String
  blockingQuestion : Option String
  needsHuman : Bool
deriving Repr, Inhabited

def Payload.blank : Payload := ⟨"", [], [], [], none, none, false⟩

/-- what makes two findings the same issue: the file, the line and the severity -/
structure Signature where
  file : String
  line : Option Nat
  severity : Severity
deriving DecidableEq, Repr

/-- a recorded finding: its file is a normal form that is not empty, its source is who reported it -/
structure Finding where
  id : Ident
  severity : Severity
  confidence : Binary64
  title : String
  description : String
  evidence : String
  file : Option String
  line : Option Nat
  recommendation : String
  source : String
  todoId : Option Ident
deriving DecidableEq, Repr, Inhabited

namespace Finding

/-- the finding of a report; a report without an id of its own gets `spare` -/
def ofReport (spare : Ident) (r : Report) (source : String) (todoId : Option Ident) : Finding where
  id := match r.id.filter fun i => !Text.allBlank i with
    | some i => .given i
    | none => spare
  severity := .ofLabel r.severity
  confidence := Confidence.ofReport r.confidence
  title := r.title
  description := r.description
  evidence := r.evidence
  file := (r.file.map normalizePath).filter fun f => !f.isEmpty
  line := r.line
  recommendation := r.recommendation
  source := source
  todoId := todoId

/-- the findings of reports, with spare ids minted from `next` on -/
def ofReports (next : Nat) (rs : List Report) (source : String) (todoId : Option Ident) : List Finding :=
  rs.mapIdx fun i r => ofReport (.minted (next + i)) r source todoId

def signature (f : Finding) : Option Signature := f.file.map fun file => ⟨file, f.line, f.severity⟩

/-- the weight of the severity times the confidence -/
def risk (f : Finding) : Binary64 := f.severity.weight.mul f.confidence

end Finding

end Foreman
