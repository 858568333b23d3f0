/-
Machines at work.

A request for a move is carried out in place, step by step: the table is asked, then the guards one after the other, and up
to there nothing is changed. From there on nothing is taken back: the exit hooks run, the state is replaced, the entry hooks
run, the move is put into the history, the store is asked to keep a snapshot, the observers are told, and the parent gets a
report. A hook, the store or an observer may fail, which is of no consequence. Whomever the machine calls on is written down.
-/
import Foreman.Machine.Children

namespace Foreman

/-- on which side of a change of state a hook runs -/
inductive Door where
  | exit
  | entry
deriving DecidableEq, Repr

/-- a call that a machine makes on what was given to it; hooks of a state are told apart by their place -/
inductive Machine.Call (σ : Type) where
  | guard (name : String)
  | hook (door : Door) (place : Nat)
  | signal (s : Signal σ)
  | report (r : ChildReport)

/-- how a store and observers take in what they are sent: what becomes of them, and whether they fail -/
abbrev Intake (σ ω : Type) := ω → Signal σ → ω × Bool

/-- a store and observers as they are -/
def Surroundings.intake {σ : Type} : Intake σ (Surroundings σ) := fun w s => (w.receive s, w.fails s)

/-- a machine, what stands around it, and its parent if it has one -/
structure Station (σ γ ω : Type) where
  machine : Machine σ γ
  outside : ω
  /-- the parent's id, and the name under which it has the machine -/
  parent : Option (String × String)
  /-- the reports that the parent has not read -/
  reports : List ChildReport
  /-- all calls that the machine has made, the oldest first -/
  calls : List (Machine.Call σ)

/-- a request to a machine -/
inductive Request (σ γ : Type) where
  /-- a move to a state -/
  | move (s : σ)
  /-- a move to the state of a name -/
  | moveNamed (name : String)
  /-- a change of the context from outside -/
  | update (f : Context γ → Context γ)

namespace Station

variable {σ γ ω : Type}

/-- a call written down -/
def note (p : Station σ γ ω) (c : Machine.Call σ) : Station σ γ ω := { p with calls := p.calls ++ [c] }

def runHook (door : Door) (p : Station σ γ ω) (h : Hook γ × Nat) : Station σ γ ω :=
  { p with machine := p.machine.update fun c => (h.1 c).1 }.note (.hook door h.2)

/-- hooks run one after the other -/
def runHooks (door : Door) (p : Station σ γ ω) (hooks : List (Hook γ)) : Station σ γ ω :=
  hooks.zipIdx.foldl (runHook door) p

def send (intake : Intake σ ω) (p : Station σ γ ω) (s : Signal σ) : Station σ γ ω :=
  { p with outside := (intake p.outside s).1 }.note (.signal s)

variable [StateName σ]

/-- the parent told of a move -/
def report (p : Station σ γ ω) (m : Move σ) : Station σ γ ω :=
  match p.parent with
  | some (id, child) =>
    let r : ChildReport := ⟨id, child, StateName.name m.source, StateName.name m.target⟩
    { p with reports := p.reports ++ [r] }.note (.report r)
  | none => p

/-- guards of a move asked one after the other, up to the first that refuses it -/
def consult (s : σ) (p : Station σ γ ω) : List (Guarded σ γ) → Station σ γ ω × Option MachineError
  | [] => (p, none)
  | g :: guards =>
    let asked := p.note (.guard g.name)
    if g.check p.machine.context then asked.consult s guards
    else (asked, some (.guardRefused (StateName.name p.machine.state) (StateName.name s) g.name))

variable [DecidableEq σ]

/-- a move that nothing stands against any more -/
def commit (intake : Intake σ ω) (p : Station σ γ ω) (s : σ) : Station σ γ ω :=
  let d := p.machine.definition
  let left := p.runHooks .exit (Definition.hooksFor d.onExit p.machine.state)
  let switched := { left with machine := { left.machine with state := s } }
  let entered := switched.runHooks .entry (Definition.hooksFor d.onEnter s)
  let move : Move σ := ⟨d.id, p.machine.state, s⟩
  let recorded := { entered with machine := { entered.machine with history := entered.machine.history ++ [move] } }
  ((recorded.machine.signals move).foldl (send intake) recorded).report move

/-- a move to a state, with the reason if it is refused -/
def moveTo (intake : Intake σ ω) (p : Station σ γ ω) (s : σ) : Station σ γ ω × Option MachineError :=
  let m := p.machine
  if !m.definition.allows m.state s then (p, some (.illegalMove (StateName.name m.state) (StateName.name s)))
  else match p.consult s (m.definition.guardsFor m.state s) with
    | (q, some e) => (q, some e)
    | (q, none) => (q.commit intake s, none)

def moveToNamed (intake : Intake σ ω) (p : Station σ γ ω) (name : String) : Station σ γ ω × Option MachineError :=
  match p.machine.definition.stateNamed name with
  | some s => p.moveTo intake s
  | none => (p, some (.illegalMove (StateName.name p.machine.state) name))

/-- a request carried out, with the reason if it is refused -/
def serve (intake : Intake σ ω) (p : Station σ γ ω) : Request σ γ → Station σ γ ω × Option MachineError
  | .move s => p.moveTo intake s
  | .moveNamed name => p.moveToNamed intake name
  | .update f => ({ p with machine := p.machine.update f }, none)

def serveAll (intake : Intake σ ω) (p : Station σ γ ω) (rs : List (Request σ γ)) : Station σ γ ω :=
  rs.foldl (fun p r => (p.serve intake r).1) p

def start (d : Definition σ γ) (hasStore : Bool) (observers : Nat) (data : γ) (outside : ω)
    (parent : Option (String × String)) : Station σ γ ω :=
  ⟨.start d hasStore observers data, outside, parent, [], []⟩

end Station

end Foreman
