/-
The todos of one loop, in order of creation.

Items are never removed or reordered. A status only moves forward, apart from `requeue`; completed and cancelled items
keep their status for ever. `ready` lists what may start: pending items whose dependencies are all completed, the most
urgent first, within one priority in order of creation.
-/
import Foreman.Todo.Basic

namespace Foreman

/-- the todos of a loop, the oldest first -/
structure TodoList where
  items : List Todo
deriving DecidableEq, Repr, Inhabited

namespace TodoList

def empty : TodoList := ⟨[]⟩

def size (l : TodoList) : Nat := l.items.length

def isEmpty (l : TodoList) : Bool := l.items.isEmpty

def get? (l : TodoList) (id : Ident) : Option Todo := l.items.find? (·.id == id)

/-- an item put last, and whether it was: an id that is there already is refused -/
def push (l : TodoList) (t : Todo) : TodoList × Bool :=
  if (l.get? t.id).isSome then (l, false) else (⟨l.items ++ [t]⟩, true)

/-- items pushed one after the other -/
def extend (l : TodoList) (ts : List Todo) : TodoList := ts.foldl (fun l t => (l.push t).1) l

def ofList (ts : List Todo) : TodoList := empty.extend ts

/-- whether an item with this id is in the list and completed -/
def isCompleted (l : TodoList) (id : Ident) : Bool :=
  match l.get? id with
  | some d => d.status == .completed
  | none => false

/-- whether all dependencies of an item are in the list and completed -/
def dependenciesMet (l : TodoList) (t : Todo) : Bool := t.dependsOn.all l.isCompleted

/-- what may start now, in the order in which it should -/
def ready (l : TodoList) : List Todo :=
  (l.items.filter fun t => t.status == .pending && l.dependenciesMet t).mergeSort
    fun a b => decide (a.priority.rank ≤ b.priority.rank)

/-- how many items are neither completed nor cancelled -/
def unresolved (l : TodoList) : Nat := l.items.countP fun t => !t.status.isTerminal

def count (l : TodoList) (s : TodoStatus) : Nat := l.items.countP fun t => t.status == s

/-- a change of the item with an id -/
def modify (l : TodoList) (id : Ident) (f : Todo → Todo) : TodoList :=
  ⟨l.items.map fun t => if t.id = id then f t else t⟩

/-- whether an item may take a status: it has another one, is not terminal, and does not fall back to pending -/
def mayMove (t : Todo) (s : TodoStatus) : Bool :=
  !t.status.isTerminal && t.status != s && !(t.status == .inProgress && s == .pending)

/-- an item moved to a status, and whether it moved -/
def setStatus (l : TodoList) (id : Ident) (s : TodoStatus) : TodoList × Bool :=
  match l.get? id with
  | some t => if mayMove t s then (l.modify id fun t => { t with status := s }, true) else (l, false)
  | none => (l, false)

/-- an item in progress put back to pending, and whether it was -/
def requeue (l : TodoList) (id : Ident) : TodoList × Bool :=
  match l.get? id with
  | some t =>
    if t.status = .inProgress then (l.modify id fun t => { t with status := .pending }, true) else (l, false)
  | none => (l, false)

/-- ids added to a list of ids, those that are there already left out -/
def addIds (ids new : List Ident) : List Ident :=
  new.foldl (fun acc f => if acc.contains f then acc else acc ++ [f]) ids

/-- finding ids added to an item -/
def attach (l : TodoList) (id : Ident) (findings : List Ident) : TodoList :=
  l.modify id fun t => { t with findingIds := addIds t.findingIds findings }

/-- ids with the first `previous` replaced by `current`, or dropped when `current` is there already -/
def repointIds (ids : List Ident) (previous current : Ident) : List Ident :=
  if ids.contains previous then
    if ids.contains current then ids.erase previous
    else ids.replace previous current
  else ids

/-- `previous` replaced by `current` in the finding ids of every item -/
def repoint (l : TodoList) (previous current : Ident) : TodoList :=
  ⟨l.items.map fun t => { t with findingIds := repointIds t.findingIds previous current }⟩

/-- a list of replacements made one after the other -/
def repointAll (l : TodoList) (pairs : List (Ident × Ident)) : TodoList :=
  pairs.foldl (fun l p => l.repoint p.1 p.2) l

end TodoList

end Foreman
