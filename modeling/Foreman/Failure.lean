/-
Everything that can go wrong around a delegated call, by cause, with its text.
-/
import Foreman.Duration
import Foreman.Ident

namespace Foreman

/-- why one call of an agent failed -/
inductive CallError where
  | transport (reason : String)
  | throttled (retryAfterMs : Nat)
  | timeout (limit : Duration)
  | rejected (status : Nat) (reason : String)
  | malformed (reason : String)
deriving DecidableEq, Repr

def CallError.kind : CallError → String
  | .transport _ => "transport"
  | .throttled _ => "throttled"
  | .timeout _ => "timeout"
  | .rejected .. => "rejected"
  | .malformed _ => "malformed"

def CallError.message : CallError → String
  | .transport reason => "transport failure: " ++ reason
  | .throttled ms => "upstream throttled, retry after " ++ toString ms ++ "ms"
  | .timeout limit => "call timed out after " ++ limit.toText
  | .rejected status reason => "upstream rejected call (status " ++ toString status ++ "): " ++ reason
  | .malformed reason => "malformed payload: " ++ reason

/-- why a guarded call failed: the circuit was open, there was no token or no slot, or the call itself failed -/
inductive GuardError where
  | circuitOpen (resource : String) (retryIn : Duration)
  | rateLimited (resource : String) (requested : Nat)
  | noSlot (resource : String) (waited : Duration)
  | call (error : CallError)
deriving DecidableEq, Repr

namespace GuardError

/-- whether the guard had nothing left to give, so that nothing is said about the called side -/
def isExhaustion : GuardError → Bool
  | .rateLimited .. | .noSlot .. => true
  | .circuitOpen .. => true
  | .call _ => false

def code : GuardError → String
  | .circuitOpen .. => "CIRCUIT_OPEN"
  | .rateLimited .. => "RATE_LIMITED"
  | .noSlot .. => "BULKHEAD_TIMEOUT"
  | .call _ => "CALL_FAILED"

def message : GuardError → String
  | .circuitOpen resource retryIn => "circuit for `" ++ resource ++ "` is open, retry in " ++ retryIn.toText
  | .rateLimited resource n =>
    "rate limit for `" ++ resource ++ "` exceeded (" ++ toString n ++ " token(s) requested)"
  | .noSlot resource waited => "no bulkhead slot for `" ++ resource ++ "` within " ++ waited.toText
  | .call e => e.message

end GuardError

/-- where a task stands -/
inductive TaskStatus where
  | pending
  | inProgress
  | completed
deriving DecidableEq, Repr, Inhabited

def TaskStatus.name : TaskStatus → String
  | .pending => "pending"
  | .inProgress => "in_progress"
  | .completed => "completed"

/-- why work could not be handed to a subagent -/
inductive DelegationError where
  | invalidTransition (taskId : Ident) (current requested : TaskStatus)
  | unknownSubagent (name : String)
  | closed
deriving DecidableEq, Repr

def DelegationError.message : DelegationError → String
  | .invalidTransition id current requested =>
    "task " ++ id.text ++ " cannot move from " ++ current.name ++ " to " ++ requested.name
  | .unknownSubagent name => "no subagent registered for `" ++ name ++ "`"
  | .closed => "delegator is closed, no new tasks accepted"

end Foreman
