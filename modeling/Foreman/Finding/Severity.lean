/-
How bad a finding is, how sure its reporter was, and the risk that both make.
-/
import Foreman.Json.Value
import Foreman.Text.Blank
import Foreman.Text.Case

namespace Foreman

/-- severities, the worst first -/
inductive Severity where
  | critical
  | high
  | medium
  | low
  | info
deriving DecidableEq, Repr, Inhabited

namespace Severity

def all : List Severity := [.critical, .high, .medium, .low, .info]

/-- the place in the order: the worst first -/
def rank : Severity → Nat
  | .critical => 0
  | .high => 1
  | .medium => 2
  | .low => 3
  | .info => 4

def name : Severity → String
  | .critical => "critical"
  | .high => "high"
  | .medium => "medium"
  | .low => "low"
  | .info => "info"

/-- the words that name a severity; letters of either case are alike, and blanks around the word do not count -/
def labels : Severity → List String
  | .critical => ["critical", "blocker"]
  | .high => ["high", "major"]
  | .medium => ["medium", "moderate"]
  | .low => ["low", "minor"]
  | .info => ["info", "informational", "note"]

/-- the severity of a label; an unknown label is medium -/
def ofLabel (label : String) : Severity :=
  let word := Text.lower (Text.trim label)
  (all.find? fun s => s.labels.contains word).getD .medium

/-- what a severity weighs in the risk, in quarters -/
def quarters : Severity → Nat
  | .critical => 4
  | .high => 3
  | .medium => 2
  | .low => 1
  | .info => 0

/-- a whole number of quarters -/
def ofQuarters (n : Nat) : Binary64 := .finite false (n * Nat.pow 2 1072)

def weight (s : Severity) : Binary64 := ofQuarters s.quarters

end Severity

namespace Confidence

/-- the confidence that is assumed when none is reported -/
def fallback : Binary64 := Severity.ofQuarters 2

/-- the nearest binary64 number to a JSON number -/
def ofNumber? : Json → Option Binary64
  | .int n => some (if n < 0 then (Binary64.ofNat n.natAbs).neg else Binary64.ofNat n.natAbs)
  | .float x => some x
  | .str s => Binary64.read? (Text.trim s)
  | _ => none

/-- a reported confidence: a number, or the text of one, from 0 to 1; else the fallback -/
def ofReport (v : Json) : Binary64 :=
  match ofNumber? v with
  | some x => if Binary64.zero.le x && x.le .one then x else fallback
  | none => fallback

end Confidence

end Foreman
