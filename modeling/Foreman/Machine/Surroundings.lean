/-
What stands around machines: a store of snapshots and observers of moves.

A store keeps the last snapshot under each machine's id, or fails whenever it is asked. An observer records what it is
told, or passes it on to a channel. A channel keeps as many of the last entries as it has places, a power of two; a
listener who reads late hears how many it has missed, and then the rest.
-/
import Foreman.Machine.Basic

namespace Foreman

/-- snapshots under machine ids; `fault` is the text of the failure of a store that does not work -/
structure SnapshotStore where
  fault : Option String
  snapshots : List (String × Snapshot)
  /-- every snapshot that the store was asked to keep, the oldest first -/
  asked : List Snapshot

namespace SnapshotStore

def empty (fault : Option String) : SnapshotStore := ⟨fault, [], []⟩

def put (key : String) (s : Snapshot) : List (String × Snapshot) → List (String × Snapshot)
  | [] => [(key, s)]
  | (k, t) :: r => if k = key then (k, s) :: r else (k, t) :: put key s r

/-- a snapshot kept, if the store works -/
def keep (st : SnapshotStore) (key : String) (s : Snapshot) : SnapshotStore :=
  let asked := st.asked ++ [s]
  match st.fault with
  | some _ => { st with asked := asked }
  | none => { st with asked := asked, snapshots := put key s st.snapshots }

def get (st : SnapshotStore) (key : String) : Except String (Option Snapshot) :=
  match st.fault with
  | some text => .error text
  | none => .ok (st.snapshots.lookup key)

def size (st : SnapshotStore) : Nat := st.snapshots.length

end SnapshotStore

/-- a machine resumed from a store, and whether it was; a failure of the store leaves it as it is -/
def Machine.restore {σ γ : Type} [DecidableEq σ] [StateName σ] (m : Machine σ γ) (st : Option SnapshotStore) :
    Machine σ γ × Except String Bool :=
  match st with
  | none => (m, .ok false)
  | some st =>
    match st.get m.id with
    | .error text => (m, .error text)
    | .ok none => (m, .ok false)
    | .ok (some s) =>
      match m.resume? s with
      | some n => (n, .ok true)
      | none => (m, .ok false)

/-- a channel with a number of places and all that was sent on it -/
structure Channel (α : Type) where
  places : Nat
  sent : List α

namespace Channel

/-- a channel for at least `capacity` entries: the next power of two, at least one -/
def ofCapacity {α : Type} (capacity : Nat) : Channel α := ⟨(max capacity 1).nextPowerOfTwo, []⟩

def send {α : Type} (c : Channel α) (a : α) : Channel α := { c with sent := c.sent ++ [a] }

/-- what a listener from the start hears at the end: how many entries it has missed, and the rest -/
def heard {α : Type} (c : Channel α) : Nat × List α :=
  let missed := c.sent.length - c.places
  (missed, c.sent.drop missed)

end Channel

/-- who is told of moves; a recorder may report a failure, which stops nothing -/
inductive Observer (α : Type) where
  | recorder (fails : Bool)
  | channel (c : Channel α)

/-- the store and the observers of a machine, with all that its recorders have written down -/
structure Surroundings (σ : Type) where
  store : Option SnapshotStore
  observers : List (Observer (Move σ))
  recorded : List (Move σ)

namespace Surroundings

variable {σ : Type}

/-- a signal taken in -/
def receive (w : Surroundings σ) : Signal σ → Surroundings σ
  | .store s => { w with store := w.store.map fun st => st.keep s.machineId s }
  | .notify i m =>
    match w.observers[i]? with
    | some (.recorder _) => { w with recorded := w.recorded ++ [m] }
    | some (.channel c) => { w with observers := w.observers.set i (.channel (c.send m)) }
    | none => w

/-- whether a signal fails to be taken in; a recorder that fails has written it down all the same -/
def fails (w : Surroundings σ) : Signal σ → Bool
  | .store _ => (w.store.bind fun st => st.fault).isSome
  | .notify i _ =>
    match w.observers[i]? with
    | some (.recorder fails) => fails
    | _ => false

def receiveAll (w : Surroundings σ) (ss : List (Signal σ)) : Surroundings σ := ss.foldl receive w

end Surroundings

end Foreman
