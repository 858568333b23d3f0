/-
The JSON forms of errors: a word for the cause, and what there is to say about it.
-/
import Foreman.Delegation.Task
import Foreman.Finding.Ledger
import Foreman.Json.Value
import Foreman.Loop.Basic

namespace Foreman

def Json.failure (code message : String) : Json := .obj [("error", .str code), ("message", .str message)]

def MachineError.toJson (e : MachineError) : Json :=
  .obj [("error", .str e.code), ("message", .str e.message), ("configuration", .bool e.isConfiguration)]

/-- what there is to say about a failed call; where a wait is over or not counts, but not how long it is -/
def GuardError.details (e : GuardError) : List (String × Json) :=
  match e with
  | .circuitOpen resource left => [("resource", .str resource), ("retry_zero", .bool (left == .zero))]
  | .noSlot resource _ => [("resource", .str resource)]
  | .rateLimited .. => [("message", .str e.message)]
  | .call c => [("kind", .str c.kind), ("message", .str e.message)]

def GuardError.toJson (e : GuardError) : Json :=
  .obj ([("error", .str e.code), ("exhaustion", .bool e.isExhaustion)] ++ e.details)

/-- a value under `ok`, or the error -/
def GuardError.resultToJson {α : Type} (f : α → Json) : Except GuardError α → Json
  | .ok a => .obj [("ok", f a)]
  | .error e => e.toJson

def DelegationError.code : DelegationError → String
  | .invalidTransition .. => "InvalidTaskTransition"
  | .unknownSubagent _ => "UnknownSubagent"
  | .closed => "Closed"

def DelegationError.toJson (e : DelegationError) : Json := .failure e.code e.message

def Rejection.code : Rejection → String
  | .emptyEvidence _ => "EmptyEvidence"
  | .outOfScope .. => "OutOfScope"
  | .duplicateId _ => "DuplicateId"

def Rejection.toJson (e : Rejection) : Json := .failure e.code e.message

def SettingsError.toJson (e : SettingsError) : Json :=
  .obj [("error", .str "ConfigError"), ("field", .str e.field), ("message", .str e.message)]

def LoopError.code : LoopError → String
  | .machine _ => "Fsm"
  | .settings _ => "Config"
  | .handler .. => "HandlerFailed"
  | .noPlan => "NoPlan"

def LoopError.toJson (e : LoopError) : Json := .failure e.code e.message

end Foreman
