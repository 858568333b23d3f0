/-
The verdict on a list of findings.

Findings below the confidence threshold are left out. The others are listed by severity, the worst first, within one
severity by falling confidence, else as they came. The worst severity listed decides the recommendation.
-/
import Foreman.Finding.Basic

namespace Foreman

/-- what should become of a change -/
inductive Recommendation where
  | approve
  | needsChanges
  | block
deriving DecidableEq, Repr, Inhabited

namespace Recommendation

def all : List Recommendation := [.approve, .needsChanges, .block]

def name : Recommendation → String
  | .approve => "approve"
  | .needsChanges => "needs-changes"
  | .block => "block"

/-- how strict a recommendation is -/
def rank : Recommendation → Nat
  | .approve => 0
  | .needsChanges => 1
  | .block => 2

end Recommendation

/-- the verdict: the listed findings, counts by severity, and what follows from them -/
structure Assessment where
  findings : List Finding
  severityCounts : List (Severity × Nat)
  overallSeverity : Option Severity
  recommendation : Recommendation
  summary : String
  totalFindings : Nat
  filteredOut : Nat
  confidenceThreshold : Binary64
deriving Repr

namespace Assessment

/-- whether a finding may be listed before another one -/
def mayPrecede (a b : Finding) : Bool :=
  decide (a.severity.rank < b.severity.rank) ||
    (a.severity.rank == b.severity.rank && !a.confidence.lt b.confidence)

def listed (fs : List Finding) (threshold : Binary64) : List Finding :=
  (fs.filter fun f => threshold.le f.confidence).mergeSort mayPrecede

def countOf (fs : List Finding) (s : Severity) : Nat := fs.countP fun f => f.severity == s

def worst (fs : List Finding) : Option Severity := Severity.all.find? fun s => fs.any fun f => f.severity == s

/-- what a number of findings of each severity calls for -/
def recommend (count : Severity → Nat) : Recommendation :=
  if 0 < count .critical then .block
  else if 0 < count .high ∨ 0 < count .medium then .needsChanges
  else .approve

def summarize (total : Nat) (counts : List (Severity × Nat)) (r : Recommendation) : String :=
  if total = 0 then "no findings; recommendation: " ++ r.name
  else
    let parts := (counts.filter fun c => 0 < c.2).map fun c => toString c.2 ++ " " ++ c.1.name
    toString total ++ " finding(s) (" ++ Text.joinWith ", " parts ++ "); recommendation: " ++ r.name

def ofFindings (fs : List Finding) (threshold : Binary64) : Assessment :=
  let kept := listed fs threshold
  let counts := Severity.all.map fun s => (s, countOf kept s)
  let recommendation := recommend (countOf kept)
  { findings := kept
    severityCounts := counts
    overallSeverity := worst kept
    recommendation := recommendation
    summary := summarize kept.length counts recommendation
    totalFindings := kept.length
    filteredOut := fs.length - kept.length
    confidenceThreshold := threshold }

/-- the count of a severity, zero if it is not listed -/
def count (a : Assessment) (s : Severity) : Nat := (a.severityCounts.lookup s).getD 0

end Assessment

end Foreman
