/-
Machines and their moves.

A move is checked against the definition and then against the guards, before anything changes. After that it cannot
fail: the exit hooks of the old state run, then the entry hooks of the new one, the move is put into the history, a
snapshot is sent to the store and the entry to every observer. What a machine sends to its surroundings is a list of
`Signal`s; it never sees what becomes of them.
-/
import Foreman.Machine.Definition

namespace Foreman

/-- a move that was made -/
structure Move (σ : Type) where
  machineId : String
  source : σ
  target : σ
deriving DecidableEq, Repr

/-- a machine's state and metadata, as they are stored -/
structure Snapshot where
  machineId : String
  state : String
  metadata : List (String × Json)
  transitionCount : Nat

/-- what a machine sends out after a move: a snapshot to its store, and the move to an observer, named by its place -/
inductive Signal (σ : Type) where
  | store (s : Snapshot)
  | notify (observer : Nat) (m : Move σ)

/-- a machine: its definition, whether it has a store, how many observers it has, and where it stands -/
structure Machine (σ γ : Type) where
  definition : Definition σ γ
  hasStore : Bool
  observers : Nat
  state : σ
  context : Context γ
  history : List (Move σ)

/-- a machine at one moment: its state, how many moves it has made, and the last of them -/
structure View (σ : Type) where
  state : σ
  transitionCount : Nat
  last : Option (Move σ)

namespace Machine

variable {σ γ : Type} [DecidableEq σ] [StateName σ]

def start (d : Definition σ γ) (hasStore : Bool) (observers : Nat) (data : γ) : Machine σ γ :=
  ⟨d, hasStore, observers, d.initial, ⟨data, []⟩, []⟩

def id (m : Machine σ γ) : String := m.definition.id

def view (m : Machine σ γ) : View σ := ⟨m.state, m.history.length, m.history.getLast?⟩

/-- hooks run one after the other; a failure keeps what the hook has changed and stops nothing -/
def runHooks (hooks : List (Hook γ)) (c : Context γ) : Context γ := hooks.foldl (fun c h => (h c).1) c

/-- the reason to refuse a move -/
def refusal? (m : Machine σ γ) (s : σ) : Option MachineError :=
  let a := StateName.name m.state
  let b := StateName.name s
  if !m.definition.allows m.state s then some (.illegalMove a b)
  else ((m.definition.guardsFor m.state s).find? fun g => !g.check m.context).map fun g => .guardRefused a b g.name

def moved (m : Machine σ γ) (s : σ) : Machine σ γ :=
  let left := runHooks (Definition.hooksFor m.definition.onExit m.state) m.context
  { m with
    state := s
    context := runHooks (Definition.hooksFor m.definition.onEnter s) left
    history := m.history ++ [⟨m.id, m.state, s⟩] }

def snapshot (m : Machine σ γ) : Snapshot :=
  ⟨m.id, StateName.name m.state, m.context.metadata, m.history.length⟩

/-- what a machine sends out after a move -/
def signals (m : Machine σ γ) (move : Move σ) : List (Signal σ) :=
  (if m.hasStore then [Signal.store m.snapshot] else []) ++
    (List.range m.observers).map fun i => Signal.notify i move

def moveTo (m : Machine σ γ) (s : σ) : Except MachineError (Machine σ γ × List (Signal σ)) :=
  match m.refusal? s with
  | some e => .error e
  | none => let n := m.moved s; .ok (n, n.signals ⟨m.id, m.state, s⟩)

def moveToNamed (m : Machine σ γ) (name : String) : Except MachineError (Machine σ γ × List (Signal σ)) :=
  match m.definition.stateNamed name with
  | some s => m.moveTo s
  | none => .error (.illegalMove (StateName.name m.state) name)

/-- a change of the context from outside -/
def update (m : Machine σ γ) (f : Context γ → Context γ) : Machine σ γ := { m with context := f m.context }

/-- the machine put where a snapshot left it; none when its state is not declared -/
def resume? (m : Machine σ γ) (s : Snapshot) : Option (Machine σ γ) :=
  (m.definition.stateNamed s.state).map fun st =>
    { m with state := st, context := { m.context with metadata := s.metadata } }

end Machine

end Foreman
