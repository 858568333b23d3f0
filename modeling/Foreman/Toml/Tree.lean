/-
The tables of a TOML text while it is read.

A table remembers how it came about: by a header of its own, as a step on the way to another table (`implicit`), or by a
dotted key (`dotted`). These marks decide what may still be added to it. A table header may complete a table that was
only a step so far; a dotted key may go on with tables that dotted keys made; nothing may be said twice.
-/
import Foreman.Json.Value

namespace Foreman.Toml

/-- a part of a TOML text -/
inductive Item where
  /-- a plain value -/
  | value (v : Json)
  /-- a table, with its marks -/
  | table (implicit dotted : Bool) (members : List (String × Item))
  /-- an array of tables, built by headers -/
  | tables (items : List Item)
deriving Inhabited

def find? (key : String) (members : List (String × Item)) : Option Item := members.lookup key

/-- a member put under a key: in place of the one that is there, else last -/
def put (key : String) (x : Item) : List (String × Item) → List (String × Item)
  | [] => [(key, x)]
  | (k, y) :: r => if k = key then (k, x) :: r else (k, y) :: put key x r

/-- a change of the table at the end of a path; `dotted` tells whether the path belongs to a dotted key. Missing tables
are made on the way, a path through an array of tables goes into its last one. -/
def descend (dotted : Bool) (f : Item → Option Item) : List String → Item → Option Item
  | [], t => f t
  | key :: path, .table implicit wasDotted members => do
    let next ← match find? key members with
      | none => descend dotted f path (.table true dotted [])
      | some (.value _) => none
      | some (.tables items) =>
        match items.getLast? with
        | some last => (descend dotted f path last).map fun t => .tables (items.dropLast ++ [t])
        | none => none
      | some (.table imp dot ms) =>
        if dotted && !imp then none else descend dotted f path (.table imp dot ms)
    return .table implicit wasDotted (put key next members)
  | _ :: _, _ => none

/-- a key and its value put into the table at the end of the path of a dotted key -/
def addKey (path : List String) (key : String) (x : Item) : Item → Option Item :=
  descend true
    (fun
      | .table implicit dotted members =>
        if dotted == path.isEmpty then none
        else if (find? key members).isSome then none
        else some (.table implicit dotted (members ++ [(key, x)]))
      | _ => none)
    path

/-- a table opened by a header: a new one, or one that was only a step so far -/
def openTable (key : String) : Item → Option Item
  | .table implicit dotted members =>
    match find? key members with
    | none => some (.table implicit dotted (members ++ [(key, .table false false [])]))
    | some (.table true false ms) => some (.table implicit dotted (put key (.table false false ms) members))
    | _ => none
  | _ => none

/-- one more table of an array, opened by a header -/
def openNext (key : String) : Item → Option Item
  | .table implicit dotted members =>
    match find? key members with
    | none => some (.table implicit dotted (members ++ [(key, .tables [.table false false []])]))
    | some (.tables items) =>
      some (.table implicit dotted (put key (.tables (items ++ [.table false false []])) members))
    | _ => none
  | _ => none

/-- a change of the table that the last header opened -/
def inCurrent (path : List String) (f : Item → Option Item) : Item → Option Item := descend false f path

mutual
def Item.toJson : Item → Json
  | .value v => v
  | .table _ _ members => .obj (membersToJson members)
  | .tables items => .arr (itemsToJson items)
def itemsToJson : List Item → List Json
  | [] => []
  | x :: r => Item.toJson x :: itemsToJson r
def membersToJson : List (String × Item) → List (String × Json)
  | [] => []
  | (k, x) :: r => (k, Item.toJson x) :: membersToJson r
end

end Foreman.Toml
