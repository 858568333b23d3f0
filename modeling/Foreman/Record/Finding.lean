/-
The JSON forms of what agents report, and of findings.

All fields of a report and of a payload have standard values, so an agent may leave out what it likes. A finding has them all,
and only its file, its line and its todo may be null.
-/
import Foreman.Finding.Basic
import Foreman.Json.Fields

namespace Foreman

open Json

/-- an ident by its text -/
def Ident.decoder : Decoder Ident := fun room x => (Decoder.text room x).map .given

def Ident.toJson (i : Ident) : Json := .str i.text

/-! ## Reports and payloads -/

namespace Report

/-- the fields of a report, in their order -/
def fields : List String :=
  ["id", "severity", "confidence", "title", "description", "evidence", "file", "line", "recommendation"]

def decoder : Decoder Report := fun room x => do
  let f ← Fields.of? fields room x
  return {
    id := ← f.orElse "id" none Decoder.text.orNull
    severity := ← f.orElse "severity" "" Decoder.text
    confidence := ← f.orElse "confidence" .null Decoder.any
    title := ← f.orElse "title" "" Decoder.text
    description := ← f.orElse "description" "" Decoder.text
    evidence := ← f.orElse "evidence" "" Decoder.text
    file := ← f.orElse "file" none Decoder.text.orNull
    line := ← f.orElse "line" none Decoder.word32.orNull
    recommendation := ← f.orElse "recommendation" "" Decoder.text }

def toJson (r : Report) : Json := .obj [
  ("id", .ofOption .str r.id), ("severity", .str r.severity), ("confidence", r.confidence), ("title", .str r.title),
  ("description", .str r.description), ("evidence", .str r.evidence), ("file", .ofOption .str r.file),
  ("line", .ofOption .nat r.line), ("recommendation", .str r.recommendation)]

end Report

namespace Payload

/-- the fields of a payload, in their order -/
def fields : List String :=
  ["summary", "evidence", "findings", "follow_ups", "recommendation", "blocking_question", "needs_human"]

def decoder : Decoder Payload := fun room x => do
  let f ← Fields.of? fields room x
  return {
    summary := ← f.orElse "summary" "" Decoder.text
    evidence := ← f.orElse "evidence" [] Decoder.text.list
    findings := ← f.orElse "findings" [] Report.decoder.list
    followUps := ← f.orElse "follow_ups" [] Decoder.text.list
    recommendation := ← f.orElse "recommendation" none Decoder.text.orNull
    blockingQuestion := ← f.orElse "blocking_question" none Decoder.text.orNull
    needsHuman := ← f.orElse "needs_human" false Decoder.flag }

/-- the payload of a text that an agent has written -/
def ofText? (s : String) : Option Payload := decoder.read? s

def toJson (p : Payload) : Json := .obj [
  ("summary", .str p.summary), ("evidence", .strs p.evidence), ("findings", .arr (p.findings.map Report.toJson)),
  ("follow_ups", .strs p.followUps), ("recommendation", .ofOption .str p.recommendation),
  ("blocking_question", .ofOption .str p.blockingQuestion), ("needs_human", .bool p.needsHuman)]

end Payload

/-! ## Findings -/

namespace Finding

/-- the fields of a finding, in their order -/
def fields : List String :=
  ["id", "severity", "confidence", "title", "description", "evidence", "file", "line", "recommendation", "source",
    "todo_id"]

def decoder : Decoder Finding := fun room x => do
  let f ← Fields.of? fields room x
  return {
    id := ← f.need "id" Ident.decoder
    severity := ← f.need "severity" (Decoder.oneOf Severity.all Severity.name)
    confidence := ← f.need "confidence" Decoder.number
    title := ← f.need "title" Decoder.text
    description := ← f.need "description" Decoder.text
    evidence := ← f.need "evidence" Decoder.text
    file := ← f.maybe "file" Decoder.text
    line := ← f.maybe "line" Decoder.word32
    recommendation := ← f.need "recommendation" Decoder.text
    source := ← f.need "source" Decoder.text
    todoId := ← f.maybe "todo_id" Ident.decoder }

/-- the members of a finding -/
def members (f : Finding) : List (String × Json) := [
  ("id", f.id.toJson), ("severity", .str f.severity.name), ("confidence", .float f.confidence), ("title", .str f.title),
  ("description", .str f.description), ("evidence", .str f.evidence), ("file", .ofOption .str f.file),
  ("line", .ofOption .nat f.line), ("recommendation", .str f.recommendation), ("source", .str f.source),
  ("todo_id", .ofOption Ident.toJson f.todoId)]

def toJson (f : Finding) : Json := .obj f.members

end Finding

end Foreman
