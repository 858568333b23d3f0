/-
The JSON form of a verdict.
-/
import Foreman.Assessment
import Foreman.Record.Finding

namespace Foreman.Assessment

open Json

/-- counts under the names of severities; of counts of one severity the last counts -/
def countsDecoder : Decoder (List (Severity × Nat))
  | room + 1, .obj ms => do
    let cs ← ms.mapM fun (name, x) => do
      let s ← Severity.all.find? fun s => some s.name == name
      return (s, ← Decoder.word64 room x)
    return Severity.all.filterMap fun s => (cs.reverse.lookup s).map fun n => (s, n)
  | _, _ => none

/-- the fields of a verdict, in their order -/
def fields : List String :=
  ["findings", "severity_counts", "overall_severity", "recommendation", "summary", "total_findings", "filtered_out",
    "confidence_threshold"]

def decoder : Decoder Assessment := fun room x => do
  let f ← Fields.of? fields room x
  return {
    findings := ← f.need "findings" Finding.decoder.list
    severityCounts := ← f.need "severity_counts" countsDecoder
    overallSeverity := ← f.maybe "overall_severity" (Decoder.oneOf Severity.all Severity.name)
    recommendation := ← f.need "recommendation" (Decoder.oneOf Recommendation.all Recommendation.name)
    summary := ← f.need "summary" Decoder.text
    totalFindings := ← f.need "total_findings" Decoder.word64
    filteredOut := ← f.need "filtered_out" Decoder.word64
    confidenceThreshold := ← f.need "confidence_threshold" Decoder.number }

/-- a verdict with its findings written by `g` -/
def membersWith (g : Finding → Json) (a : Assessment) : List (String × Json) := [
  ("findings", .arr (a.findings.map g)),
  ("severity_counts", .obj (a.severityCounts.map fun c => (c.1.name, .nat c.2))),
  ("overall_severity", .ofOption (fun s => .str (Severity.name s)) a.overallSeverity),
  ("recommendation", .str a.recommendation.name), ("summary", .str a.summary), ("total_findings", .nat a.totalFindings),
  ("filtered_out", .nat a.filteredOut), ("confidence_threshold", .float a.confidenceThreshold)]

def toJson (a : Assessment) : Json := .obj (a.membersWith Finding.toJson)

end Foreman.Assessment
