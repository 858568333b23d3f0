/-
Reading records from JSON trees.

A record is an object with its fields by name, or an array with its fields in their order. In an object, members with other
names are passed over, and a field that stands there twice is an error. In an array there may be fewer items than fields, but
not more. A missing field has its standard value if it has one; a field that may be null may also be missing in an object.

A `Decoder` reads a tree with at most so many nested arrays and objects.
-/
import Foreman.Json.Node

namespace Foreman.Json

/-- reads a tree with at most so many nested arrays and objects -/
abbrev Decoder (α : Type) := Nat → Node → Option α

namespace Decoder

/-! ## Simple values -/

def any : Decoder Json := Node.toJson?

def text : Decoder String
  | _, .str s => s
  | _, _ => none

def flag : Decoder Bool
  | _, .bool b => some b
  | _, _ => none

/-- a whole number below a bound -/
def natBelow (bound : Nat) : Decoder Nat
  | _, .number t =>
    match t.value with
    | some (.int n) => if 0 ≤ n ∧ n < bound then some n.toNat else none
    | _ => none
  | _, _ => none

def word32 : Decoder Nat := natBelow (Nat.pow 2 32)

def word64 : Decoder Nat := natBelow (Nat.pow 2 64)

/-- the binary64 number nearest to a number -/
def number : Decoder Binary64
  | _, .number t =>
    match t.value with
    | some (.int n) => some (if n < 0 then (Binary64.ofNat n.natAbs).neg else Binary64.ofNat n.natAbs)
    | some (.float x) => some x
    | _ => none
  | _, _ => none

/-- one of the words for the values of a list, as a text or as the only member of an object, with null -/
def oneOf {α : Type} (all : List α) (name : α → String) : Decoder α
  | _, .str (some s) => all.find? fun a => name a == s
  | _ + 1, .obj [(some s, .null)] => all.find? fun a => name a == s
  | _, _ => none

/-! ## Compound values -/

/-- null or a value -/
def orNull {α : Type} (d : Decoder α) : Decoder (Option α)
  | _, .null => some none
  | room, x => (d room x).map some

def list {α : Type} (d : Decoder α) : Decoder (List α)
  | room + 1, .arr items => items.mapM (d room)
  | _, _ => none

/-- an object of any members; of members of one name the last counts -/
def members : Decoder (List (String × Json))
  | room + 1, .obj ms => Node.membersToJson? room ms []
  | _, _ => none

end Decoder

/-! ## Records -/

/-- the fields of a record: trees under names, whether a field may be left out, and the nesting that each of them may have -/
structure Fields where
  room : Nat
  named : Bool
  found : List (String × Node)

namespace Fields

/-- the members of an object with one of some names; none when a name stands there twice -/
def pick (names : List String) : List (Option String × Node) → Option (List (String × Node))
  | [] => some []
  | (none, _) :: _ => none
  | (some n, x) :: r => do
    let found ← pick names r
    if !names.contains n then return found
    else if (found.lookup n).isSome then none
    else return (n, x) :: found

/-- the fields of a record with fields of these names -/
def of? (names : List String) : Decoder Fields
  | room + 1, .obj ms => (pick names ms).map fun found => ⟨room, true, found⟩
  | room + 1, .arr items => if items.length ≤ names.length then some ⟨room, false, names.zip items⟩ else none
  | _, _ => none

variable {α : Type}

/-- a field that must be there -/
def need (f : Fields) (name : String) (d : Decoder α) : Option α := (f.found.lookup name).bind (d f.room)

/-- a field that may be null, and in an object may be missing -/
def maybe (f : Fields) (name : String) (d : Decoder α) : Option (Option α) :=
  match f.found.lookup name with
  | some x => d.orNull f.room x
  | none => if f.named then some none else none

/-- a field with a standard value -/
def orElse (f : Fields) (name : String) (standard : α) (d : Decoder α) : Option α :=
  match f.found.lookup name with
  | some x => d f.room x
  | none => some standard

end Fields

def Decoder.read? {α : Type} (d : Decoder α) (s : String) : Option α := (Node.read? s).bind (d maxNesting)

end Foreman.Json
