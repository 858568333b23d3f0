/-
Machines that belong to a machine.

A parent has children under names and drives them by the names of their states. Each move of a child is reported to the
parent, who reads the reports when it likes. A child that takes the name of another one replaces it.
-/
import Foreman.Machine.Surroundings

namespace Foreman

/-- a move of a child, as its parent hears of it -/
structure ChildReport where
  parentId : String
  child : String
  source : String
  target : String
deriving DecidableEq, Repr

/-- the children of a machine and the reports that it has not read -/
structure Children (γ : Type) (σ : Type := String) where
  parentId : String
  machines : List (String × Machine σ γ)
  reports : List ChildReport

namespace Children

variable {σ γ : Type}

def empty (parentId : String) : Children γ σ := ⟨parentId, [], []⟩

def get? (c : Children γ σ) (name : String) : Option (Machine σ γ) := c.machines.lookup name

/-- a child put under a name, in place of the one that is there -/
def put (name : String) (m : Machine σ γ) : List (String × Machine σ γ) → List (String × Machine σ γ)
  | [] => [(name, m)]
  | (n, k) :: r => if n = name then (n, m) :: r else (n, k) :: put name m r

/-- a child sent away, and whether there was one -/
def remove (c : Children γ σ) (name : String) : Children γ σ × Bool :=
  ({ c with machines := c.machines.filter fun p => p.1 ≠ name }, (c.get? name).isSome)

def names (c : Children γ σ) : List String := (c.machines.map Prod.fst).mergeSort fun a b => decide (a ≤ b)

def size (c : Children γ σ) : Nat := c.machines.length

/-- the reports read, the oldest first -/
def drain (c : Children γ σ) : Children γ σ × List ChildReport := ({ c with reports := [] }, c.reports)

variable [DecidableEq σ] [StateName σ]

def register (c : Children γ σ) (name : String) (draft : Draft σ γ) (hasStore : Bool) (observers : Nat)
    (data : γ) : Except MachineError (Children γ σ) :=
  draft.check.map fun d => { c with machines := put name (Machine.start d hasStore observers data) c.machines }

def transition (c : Children γ σ) (name state : String) :
    Except MachineError (Children γ σ × List (Signal σ)) :=
  match c.get? name with
  | none => .error (.illegalMove (c.parentId ++ "/<missing:" ++ name ++ ">") state)
  | some m =>
    (m.moveToNamed state).map fun (n, signals) =>
      ({ c with
          machines := put name n c.machines
          reports := c.reports ++ [⟨c.parentId, name, StateName.name m.state, StateName.name n.state⟩] }, signals)

def stateOf (c : Children γ σ) (name : String) : Option String := (c.get? name).map fun m => StateName.name m.state

end Children

end Foreman
