/-
The JSON forms of todos and of their lists, with the time at which each todo was made.
-/
import Foreman.Record.Finding
import Foreman.Timestamp
import Foreman.Todo.Basic

namespace Foreman

open Json

/-- a point in time by its text -/
def Timestamp.decoder : Decoder Timestamp := fun room x => (Decoder.text room x).bind Timestamp.read?

def Timestamp.toJson (t : Timestamp) : Json := .str t.toText

/-- the members of a todo -/
def Todo.members (t : Todo) : List (String × Json) := [
  ("id", t.id.toJson), ("description", .str t.description), ("priority", .str t.priority.name),
  ("status", .str t.status.name), ("depends_on", .arr (t.dependsOn.map Ident.toJson)),
  ("finding_ids", .arr (t.findingIds.map Ident.toJson))]

/-- a todo and when it was made -/
structure TodoRecord where
  todo : Todo
  createdAt : Timestamp
deriving Repr

namespace TodoRecord

/-- the fields of a todo, in their order -/
def fields : List String :=
  ["id", "description", "priority", "status", "depends_on", "finding_ids", "created_at"]

def decoder : Decoder TodoRecord := fun room x => do
  let f ← Fields.of? fields room x
  return {
    todo := {
      id := ← f.need "id" Ident.decoder
      description := ← f.need "description" Decoder.text
      priority := ← f.need "priority" (Decoder.oneOf Priority.all Priority.name)
      status := ← f.need "status" (Decoder.oneOf TodoStatus.all TodoStatus.name)
      dependsOn := ← f.orElse "depends_on" [] Ident.decoder.list
      findingIds := ← f.orElse "finding_ids" [] Ident.decoder.list }
    createdAt := ← f.need "created_at" Timestamp.decoder }

def toJson (r : TodoRecord) : Json := .obj (r.todo.members ++ [("created_at", r.createdAt.toJson)])

/-- a list of todos, as a record with one field -/
def listDecoder : Decoder (List TodoRecord) := fun room x => do
  let f ← Fields.of? ["items"] room x
  f.need "items" decoder.list

def listToJson (rs : List TodoRecord) : Json := .obj [("items", .arr (rs.map toJson))]

end TodoRecord

end Foreman
