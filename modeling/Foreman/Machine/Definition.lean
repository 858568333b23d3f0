/-
Definitions of state machines.

A `Draft` gathers states, transitions, hooks and guards in any order; `Draft.check` makes a definition of it or says what
is wrong. A definition has the declared states in order and without repetition, and the pairs of states that a machine
may move along. A hook changes the context and may report a failure, which undoes nothing; a guard may refuse a move.
-/
import Foreman.Json.Value

namespace Foreman

/-- what can go wrong with a machine; the last two refuse a move, the others a definition -/
inductive MachineError where
  | noStates (machineId : String)
  | badInitial (state : String)
  | undeclaredInTransition (source target : String)
  | undeclaredInHook (kind state : String)
  | illegalMove (source target : String)
  | guardRefused (source target guard : String)
deriving DecidableEq, Repr

namespace MachineError

def code : MachineError → String
  | .noStates _ => "EMPTY_DEFINITION"
  | .badInitial _ => "INVALID_INITIAL_STATE"
  | .undeclaredInTransition .. => "UNDEFINED_STATE_IN_TRANSITION"
  | .undeclaredInHook .. => "UNDEFINED_STATE_IN_HOOK"
  | .illegalMove .. => "INVALID_TRANSITION"
  | .guardRefused .. => "GUARD_REJECTED"

def message : MachineError → String
  | .noStates id => "machine `" ++ id ++ "` declares no states"
  | .badInitial s => "initial state `" ++ s ++ "` is not declared"
  | .undeclaredInTransition a b => "transition " ++ a ++ " -> " ++ b ++ " references an undeclared state"
  | .undeclaredInHook kind s => kind ++ " hook registered for undeclared state `" ++ s ++ "`"
  | .illegalMove a b => "illegal transition " ++ a ++ " -> " ++ b
  | .guardRefused a b g => "guard `" ++ g ++ "` refused transition " ++ a ++ " -> " ++ b

/-- whether the definition is at fault, and not a move -/
def isConfiguration : MachineError → Bool
  | .illegalMove .. => false
  | .guardRefused .. => false
  | _ => true

end MachineError

/-- states that have a name -/
class StateName (σ : Type) where
  name : σ → String

instance : StateName String := ⟨id⟩

/-- what a machine carries: data of its own kind, and values under names -/
structure Context (γ : Type) where
  data : γ
  metadata : List (String × Json)

namespace Context

def setMeta {γ : Type} (c : Context γ) (key : String) (v : Json) : Context γ :=
  { c with metadata := Json.set key v c.metadata }

def getMeta? {γ : Type} (c : Context γ) (key : String) : Option Json := c.metadata.lookup key

end Context

/-- what runs on leaving or entering a state: a change of the context, and the text of a failure -/
abbrev Hook (γ : Type) := Context γ → Context γ × Option String

/-- a named condition on a move -/
structure Guarded (σ γ : Type) where
  source : σ
  target : σ
  name : String
  check : Context γ → Bool

/-- a checked definition -/
structure Definition (σ γ : Type) where
  id : String
  states : List σ
  initial : σ
  moves : List (σ × σ)
  onEnter : List (σ × Hook γ)
  onExit : List (σ × Hook γ)
  guards : List (Guarded σ γ)

namespace Definition

variable {σ γ : Type} [DecidableEq σ]

def isDeclared (d : Definition σ γ) (s : σ) : Bool := d.states.contains s

/-- whether a machine may move from one state to another -/
def allows (d : Definition σ γ) (a b : σ) : Bool := d.moves.contains (a, b)

/-- a list with equal neighbours taken as one -/
def squeeze : List σ → List σ
  | a :: b :: l => if a = b then squeeze (b :: l) else a :: squeeze (b :: l)
  | l => l

/-- where a machine may go from a state, in the order of declaration -/
def targets (d : Definition σ γ) (a : σ) : List σ := squeeze (d.states.filter fun b => d.allows a b)

def stateNamed [StateName σ] (d : Definition σ γ) (name : String) : Option σ :=
  d.states.find? fun s => StateName.name s == name

/-- the guards of a move, in the order in which they were put there -/
def guardsFor (d : Definition σ γ) (a b : σ) : List (Guarded σ γ) :=
  d.guards.filter fun g => g.source = a ∧ g.target = b

/-- the hooks of a state, in the order in which they were put there -/
def hooksFor (hooks : List (σ × Hook γ)) (s : σ) : List (Hook γ) :=
  (hooks.filter fun h => h.1 = s).map Prod.snd

end Definition

/-- a definition in the making -/
structure Draft (σ γ : Type) where
  id : String
  states : List σ
  transitions : List (σ × σ)
  /-- states to be reached from every other one -/
  anyTargets : List σ
  initial : Option σ
  onEnter : List (σ × Hook γ)
  onExit : List (σ × Hook γ)
  guards : List (Guarded σ γ)

/-- one more thing said about a machine -/
inductive Draft.Part (σ γ : Type) where
  | states (ss : List σ)
  | transition (source : σ) (targets : List σ)
  | fromAny (target : σ)
  | initial (s : σ)
  | onEnter (s : σ) (h : Hook γ)
  | onExit (s : σ) (h : Hook γ)
  | guard (g : Guarded σ γ)

namespace Draft

variable {σ γ : Type} [DecidableEq σ]

def empty (id : String) : Draft σ γ := ⟨id, [], [], [], none, [], [], []⟩

/-- a state put last, unless it is there -/
def addState (ss : List σ) (s : σ) : List σ := if ss.contains s then ss else ss ++ [s]

def add (d : Draft σ γ) : Part σ γ → Draft σ γ
  | .states ss => { d with states := ss.foldl addState d.states }
  | .transition a bs => { d with transitions := d.transitions ++ bs.map fun b => (a, b) }
  | .fromAny b => { d with anyTargets := d.anyTargets ++ [b] }
  | .initial s => { d with initial := some s }
  | .onEnter s h => { d with onEnter := d.onEnter ++ [(s, h)] }
  | .onExit s h => { d with onExit := d.onExit ++ [(s, h)] }
  | .guard g => { d with guards := d.guards ++ [g] }

def ofParts (id : String) (parts : List (Part σ γ)) : Draft σ γ := parts.foldl add (empty id)

/-- all moves of a draft: the ones named, and those into a state that every other one leads to -/
def allMoves (d : Draft σ γ) : List (σ × σ) :=
  d.transitions ++ d.anyTargets.flatMap fun b => (d.states.filter fun a => a ≠ b).map fun a => (a, b)

/-- the first move of a list with a state that is not declared -/
def badMove? [StateName σ] (d : Draft σ γ) (moves : List (σ × σ)) : Option MachineError :=
  (moves.find? fun m => !d.states.contains m.1 || !d.states.contains m.2).map fun m =>
    .undeclaredInTransition (StateName.name m.1) (StateName.name m.2)

/-- the first state reached from everywhere that is not declared -/
def badTarget? [StateName σ] (d : Draft σ γ) : Option MachineError :=
  (d.anyTargets.find? fun b => !d.states.contains b).map fun b => .undeclaredInTransition "*" (StateName.name b)

/-- the first hook of a state that is not declared -/
def badHook? [StateName σ] (d : Draft σ γ) (kind : String) (hooks : List (σ × Hook γ)) : Option MachineError :=
  (hooks.find? fun h => !d.states.contains h.1).map fun h => .undeclaredInHook kind (StateName.name h.1)

/-- the first thing wrong with a draft whose initial state is in order -/
def fault? [StateName σ] (d : Draft σ γ) : Option MachineError :=
  (d.badMove? d.transitions).or <| d.badTarget?.or <| (d.badHook? "entry" d.onEnter).or <|
    (d.badHook? "exit" d.onExit).or <| d.badMove? (d.guards.map fun g => (g.source, g.target))

def check [StateName σ] (d : Draft σ γ) : Except MachineError (Definition σ γ) :=
  if d.states.isEmpty then .error (.noStates d.id)
  else match d.initial with
    | none => .error (.badInitial "<unset>")
    | some s =>
      if !d.states.contains s then .error (.badInitial (StateName.name s))
      else match d.fault? with
        | some e => .error e
        | none => .ok ⟨d.id, d.states, s, d.allMoves, d.onEnter, d.onExit, d.guards⟩

end Draft

end Foreman
