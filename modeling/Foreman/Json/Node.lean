/-
JSON text as a tree, before its parts are given a meaning.

`Node.read?` checks the grammar and nothing else. A number out of range and a quoted text with half of a surrogate pair
keep their place in the tree, without a value: a reader that passes over them never asks for it. `toJson?` asks for all
of it, with at most `room` nested arrays and objects.
-/
import Foreman.Json.Number

namespace Foreman.Json

/-- a tree of JSON text -/
inductive Node where
  | null
  | bool (b : Bool)
  | number (t : NumberText)
  | str (s : Option String)
  | arr (items : List Node)
  | obj (members : List (Option String × Node))
deriving Repr, Inhabited

/-! ## Grammar -/

/-- text from its first character on that is no blank -/
def skipBlanks (cs : List Char) : List Char :=
  cs.dropWhile fun c => c = ' ' ∨ c = '\n' ∨ c = '\t' ∨ c = '\r'

def hexDigit? (c : Char) : Option Nat :=
  if '0' ≤ c ∧ c ≤ '9' then some (c.toNat - 48)
  else if 'a' ≤ c ∧ c ≤ 'f' then some (c.toNat - 87)
  else if 'A' ≤ c ∧ c ≤ 'F' then some (c.toNat - 55)
  else none

/-- four hexadecimal digits at the front of a text -/
def hex4? : List Char → Option (Nat × List Char)
  | a :: b :: c :: d :: r => do
    let a ← hexDigit? a
    let b ← hexDigit? b
    let c ← hexDigit? c
    let d ← hexDigit? d
    return (((a * 16 + b) * 16 + c) * 16 + d, r)
  | _ => none

/-- the escapes of one letter -/
def shortEscape? (c : Char) : Option Char :=
  [('"', '"'), ('\\', '\\'), ('/', '/'), ('b', '\x08'), ('f', '\x0c'), ('n', '\n'), ('r', '\r'), ('t', '\t')].lookup c

/-- a piece of quoted text: a character, or a 16-bit unit that was written by its number -/
inductive Piece where
  | char (c : Char)
  | unit (n : Nat)
deriving DecidableEq, Repr

/-- the pieces up to the closing quote, and what follows it -/
def readPieces : Nat → List Char → Option (List Piece × List Char)
  | 0, _ => none
  | _, [] => none
  | _ + 1, '"' :: r => some ([], r)
  | fuel + 1, '\\' :: 'u' :: r => do
    let (n, r) ← hex4? r
    let (ps, r) ← readPieces fuel r
    return (.unit n :: ps, r)
  | fuel + 1, '\\' :: c :: r => do
    let c ← shortEscape? c
    let (ps, r) ← readPieces fuel r
    return (.char c :: ps, r)
  | fuel + 1, c :: r =>
    if c = '\\' ∨ c.toNat < 32 then none
    else do
      let (ps, r) ← readPieces fuel r
      return (.char c :: ps, r)

/-- the text of pieces: two units that form a surrogate pair are one character, half a pair has none -/
def joinPieces : List Piece → Option (List Char)
  | [] => some []
  | .char c :: r => (joinPieces r).map (c :: ·)
  | .unit a :: .unit b :: r =>
    if 0xD800 ≤ a ∧ a < 0xDC00 then
      if 0xDC00 ≤ b ∧ b < 0xE000 then
        (joinPieces r).map (Char.ofNat (0x10000 + (a - 0xD800) * 0x400 + (b - 0xDC00)) :: ·)
      else none
    else if 0xDC00 ≤ a ∧ a < 0xE000 then none
    else (joinPieces (.unit b :: r)).map (Char.ofNat a :: ·)
  | .unit a :: r => if 0xD800 ≤ a ∧ a < 0xE000 then none else (joinPieces r).map (Char.ofNat a :: ·)

def readQuoted (cs : List Char) : Option (Option String × List Char) :=
  (readPieces (cs.length + 1) cs).map fun (ps, r) => ((joinPieces ps).map String.ofList, r)

/-- a text without a word at its front -/
def dropWord (w cs : List Char) : Option (List Char) := if w.isPrefixOf cs then some (cs.drop w.length) else none

mutual
def readValue : Nat → List Char → Option (Node × List Char)
  | 0, _ => none
  | fuel + 1, cs =>
    match skipBlanks cs with
    | 'n' :: r => (dropWord "ull".toList r).map fun r => (.null, r)
    | 't' :: r => (dropWord "rue".toList r).map fun r => (.bool true, r)
    | 'f' :: r => (dropWord "alse".toList r).map fun r => (.bool false, r)
    | '"' :: r => (readQuoted r).map fun (s, r) => (.str s, r)
    | '[' :: r =>
      match skipBlanks r with
      | ']' :: r => some (.arr [], r)
      | r => (readItems fuel r).map fun (xs, r) => (.arr xs, r)
    | '\x7b' :: r =>
      match skipBlanks r with
      | '\x7d' :: r => some (.obj [], r)
      | r => (readMembers fuel r).map fun (ms, r) => (.obj ms, r)
    | cs => (readNumber cs).map fun (t, r) => (.number t, r)
/-- the items of an array from one of them on, up to the closing bracket -/
def readItems : Nat → List Char → Option (List Node × List Char)
  | 0, _ => none
  | fuel + 1, cs => do
    let (x, r) ← readValue fuel cs
    match skipBlanks r with
    | ',' :: r => do
      let (xs, r) ← readItems fuel r
      return (x :: xs, r)
    | ']' :: r => return ([x], r)
    | _ => none
/-- the members of an object from one of them on, up to the closing brace -/
def readMembers : Nat → List Char → Option (List (Option String × Node) × List Char)
  | 0, _ => none
  | fuel + 1, cs =>
    match skipBlanks cs with
    | '"' :: r => do
      let (name, r) ← readQuoted r
      match skipBlanks r with
      | ':' :: r => do
        let (x, r) ← readValue fuel r
        match skipBlanks r with
        | ',' :: r => do
          let (ms, r) ← readMembers fuel r
          return ((name, x) :: ms, r)
        | '\x7d' :: r => return ([(name, x)], r)
        | _ => none
      | _ => none
    | _ => none
end

def Node.read? (s : String) : Option Node :=
  let cs := s.toList
  match readValue (cs.length + 2) cs with
  | some (x, r) => if (skipBlanks r).isEmpty then some x else none
  | none => none

/-! ## Values -/

mutual
/-- the value of a tree with at most `room` nested arrays and objects; of members of one name the last counts -/
def Node.toJson? : Nat → Node → Option Json
  | _, .null => some .null
  | _, .bool b => some (.bool b)
  | _, .number t => t.value
  | _, .str s => s.map .str
  | 0, .arr _ => none
  | 0, .obj _ => none
  | room + 1, .arr items => (Node.itemsToJson? room items).map .arr
  | room + 1, .obj members => (Node.membersToJson? room members []).map .obj
/-- the values of the items of an array -/
def Node.itemsToJson? : Nat → List Node → Option (List Json)
  | _, [] => some []
  | room, x :: r => do
    let v ← Node.toJson? room x
    let vs ← Node.itemsToJson? room r
    return v :: vs
/-- the members of an object added to those before them -/
def Node.membersToJson? : Nat → List (Option String × Node) → List (String × Json) →
    Option (List (String × Json))
  | _, [], acc => some acc
  | room, (name, x) :: r, acc => do
    let name ← name
    let v ← Node.toJson? room x
    Node.membersToJson? room r (set name v acc)
end

/-- the greatest number of nested arrays and objects that is read -/
def maxNesting : Nat := 127

def read? (s : String) : Option Json := (Node.read? s).bind (Node.toJson? maxNesting)

end Foreman.Json
