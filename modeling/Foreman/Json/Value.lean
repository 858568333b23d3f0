/-
JSON values, and their text.

Whole numbers and binary64 numbers are kept apart, as the text keeps them apart. The members of an object are in order;
`set` keeps their names distinct.
-/
import Foreman.Binary64.Decimal

namespace Foreman

inductive Json where
  | null
  | bool (b : Bool)
  | int (n : Int)
  | float (x : Binary64)
  | str (s : String)
  | arr (items : List Json)
  | obj (members : List (String × Json))
deriving Repr, Inhabited

namespace Json

/-- a member put under a name: in place of the one that is there, else last -/
def set (name : String) (v : Json) : List (String × Json) → List (String × Json)
  | [] => [(name, v)]
  | (n, w) :: r => if n = name then (n, v) :: r else (n, w) :: set name v r

def get? (name : String) : Json → Option Json
  | .obj members => members.lookup name
  | _ => none

def ofOption (f : α → Json) : Option α → Json
  | some a => f a
  | none => .null

def nat (n : Nat) : Json := .int n

def strs (ss : List String) : Json := .arr (ss.map .str)

mutual
/-- equality of values; members are compared in order, numbers of one kind as numbers -/
def same : Json → Json → Bool
  | .null, .null => true
  | .bool a, .bool b => a == b
  | .int a, .int b => a == b
  | .float a, .float b => a.equal b
  | .str a, .str b => a == b
  | .arr a, .arr b => sameItems a b
  | .obj a, .obj b => sameMembers a b
  | _, _ => false
def sameItems : List Json → List Json → Bool
  | [], [] => true
  | a :: r, b :: s => same a b && sameItems r s
  | _, _ => false
def sameMembers : List (String × Json) → List (String × Json) → Bool
  | [], [] => true
  | (n, a) :: r, (m, b) :: s => n == m && same a b && sameMembers r s
  | _, _ => false
end

/-! ## Text -/

/-- a character inside quotes -/
def quoteChar (c : Char) : List Char :=
  if c = '"' then ['\\', '"']
  else if c = '\\' then ['\\', '\\']
  else if c = '\n' then ['\\', 'n']
  else if c = '\r' then ['\\', 'r']
  else if c = '\t' then ['\\', 't']
  else if c.toNat < 32 then
    ['\\', 'u', '0', '0', Nat.digitChar (c.toNat / 16), Nat.digitChar (c.toNat % 16)]
  else [c]

def quote (s : String) : String := String.ofList ('"' :: s.toList.flatMap quoteChar ++ ['"'])

mutual
def render : Json → String
  | .null => "null"
  | .bool b => if b then "true" else "false"
  | .int n => toString n
  | .float x => let t := x.toText; if t.toList.contains '.' then t else t ++ ".0"
  | .str s => quote s
  | .arr items => "[" ++ renderItems items ++ "]"
  | .obj members => "\x7b" ++ renderMembers members ++ "\x7d"
/-- the items of an array, with commas between them -/
def renderItems : List Json → String
  | [] => ""
  | [a] => render a
  | a :: r => render a ++ "," ++ renderItems r
/-- the members of an object, with commas between them -/
def renderMembers : List (String × Json) → String
  | [] => ""
  | [(n, a)] => quote n ++ ":" ++ render a
  | (n, a) :: r => quote n ++ ":" ++ render a ++ "," ++ renderMembers r
end

end Json

end Foreman
