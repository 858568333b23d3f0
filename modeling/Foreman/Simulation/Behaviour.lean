/-
How calls go in a simulation: how long one takes and how it ends.
-/
import Foreman.Failure

namespace Foreman

/-- the end of a call -/
inductive Ending (α : Type) where
  | returns (value : α)
  | fails (e : CallError)
  /-- it never comes back -/
  | hangs
  /-- it breaks down, and takes its task with it -/
  | breaks
deriving Repr

/-- a call: a delay in milliseconds, then its end -/
structure Behaviour (α : Type) where
  delayMs : Nat
  ending : Ending α
deriving Repr

end Foreman
