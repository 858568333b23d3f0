/-
The JSON forms of snapshots and of moves, with the time at which each was made.
-/
import Foreman.Machine.Basic
import Foreman.Record.Todo

namespace Foreman

open Json

/-- the members of a snapshot -/
def Snapshot.members (s : Snapshot) : List (String × Json) := [
  ("machine_id", .str s.machineId), ("state", .str s.state), ("metadata", .obj s.metadata),
  ("transition_count", .nat s.transitionCount)]

/-- a snapshot and when it was taken -/
structure SnapshotRecord where
  snapshot : Snapshot
  takenAt : Timestamp

namespace SnapshotRecord

/-- the fields of a snapshot, in their order -/
def fields : List String := ["machine_id", "state", "metadata", "transition_count", "taken_at"]

def decoder : Decoder SnapshotRecord := fun room x => do
  let f ← Fields.of? fields room x
  return {
    snapshot := {
      machineId := ← f.need "machine_id" Decoder.text
      state := ← f.need "state" Decoder.text
      metadata := ← f.orElse "metadata" [] Decoder.members
      transitionCount := ← f.need "transition_count" Decoder.word64 }
    takenAt := ← f.need "taken_at" Timestamp.decoder }

def toJson (r : SnapshotRecord) : Json := .obj (r.snapshot.members ++ [("taken_at", r.takenAt.toJson)])

end SnapshotRecord

/-- a move and when it was made -/
structure MoveRecord where
  move : Move String
  madeAt : Timestamp

namespace MoveRecord

/-- the fields of a move, in their order -/
def fields : List String := ["machine_id", "from", "to", "at"]

def decoder : Decoder MoveRecord := fun room x => do
  let f ← Fields.of? fields room x
  return {
    move := {
      machineId := ← f.need "machine_id" Decoder.text
      source := ← f.need "from" Decoder.text
      target := ← f.need "to" Decoder.text }
    madeAt := ← f.need "at" Timestamp.decoder }

def toJson (r : MoveRecord) : Json := .obj [
  ("machine_id", .str r.move.machineId), ("from", .str r.move.source), ("to", .str r.move.target),
  ("at", r.madeAt.toJson)]

end MoveRecord

end Foreman
