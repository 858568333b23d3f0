/-
Reading TOML text into values.

A text is a sequence of lines: headers of tables, keys with values, comments and empty lines. Tables become objects, in
which no key is repeated; dates become objects with one member that no setting asks for.
-/
import Foreman.Toml.Scalar
import Foreman.Toml.Tree

namespace Foreman.Toml

/-- the number of nested arrays, inline tables and keys of a path that is too great -/
def depthBound : Nat := 80

/-- a text after blanks, line ends and comments -/
def skipLines : Nat → List Char → List Char
  | 0, cs => cs
  | fuel + 1, cs =>
    let r := skipComment (skipSpaces cs)
    match newline? r with
    | some r => skipLines fuel r
    | none => r

def skipAll (cs : List Char) : List Char := skipLines (cs.length + 1) cs

/-- the path of a dotted key -/
def pathAt (cs : List Char) : Option (List String × List Char) := do
  let (keys, r) ← keysAt (cs.length + 1) cs
  if keys.length < depthBound then return (keys, r) else none

mutual
/-- the value at the front of a text, inside `depth` arrays and inline tables -/
def valueAt : Nat → Nat → List Char → Option (Json × List Char)
  | 0, _, _ => none
  | fuel + 1, depth, cs =>
    match cs with
    | '"' :: _ => (quotedAt cs).map fun (s, r) => (.str s, r)
    | '\'' :: _ => (quotedAt cs).map fun (s, r) => (.str s, r)
    | '[' :: r =>
      if depthBound ≤ depth + 1 then none
      else (itemsAt fuel (depth + 1) r).map fun (xs, r) => (.arr xs, r)
    | '\x7b' :: r =>
      if depthBound ≤ depth + 1 then none
      else match skipSpaces r with
        | '\x7d' :: r => some (.obj [], r)
        | r => (pairsAt fuel (depth + 1) (.table false false []) r).map fun (t, r) => (t.toJson, r)
    | 't' :: r => (Json.dropWord "rue".toList r).map fun r => (.bool true, r)
    | 'f' :: r => (Json.dropWord "alse".toList r).map fun r => (.bool false, r)
    | cs => numericAt cs
/-- the items of an array up to its closing bracket -/
def itemsAt : Nat → Nat → List Char → Option (List Json × List Char)
  | 0, _, _ => none
  | fuel + 1, depth, cs =>
    match skipAll cs with
    | ']' :: r => some ([], r)
    | r => do
      let (v, r) ← valueAt fuel depth r
      match skipAll r with
      | ',' :: r => do
        let (vs, r) ← itemsAt fuel depth r
        return (v :: vs, r)
      | ']' :: r => return ([v], r)
      | _ => none
/-- the pairs of an inline table up to its closing brace, put into the table so far -/
def pairsAt : Nat → Nat → Item → List Char → Option (Item × List Char)
  | 0, _, _, _ => none
  | fuel + 1, depth, t, cs => do
    let (keys, r) ← pathAt cs
    match r with
    | '=' :: r => do
      let (v, r) ← valueAt fuel depth (skipSpaces r)
      let t ← addKey keys.dropLast (keys.getLast?.getD "") (.value v) t
      match skipSpaces r with
      | ',' :: r => pairsAt fuel depth t r
      | '\x7d' :: r => return (t, r)
      | _ => none
    | _ => none
end

/-- the rest of a line: blanks, a comment, the line end; none when something else stands there -/
def lineEnd? (cs : List Char) : Option (List Char) :=
  let r := skipComment (skipSpaces cs)
  if r.isEmpty then some [] else newline? r

/-- the text read so far: the outermost table, and the path of the table that the last header opened -/
structure Reading where
  root : Item
  current : List String

/-- a line at the front of a text taken in -/
def lineAt (s : Reading) (cs : List Char) : Option (Reading × List Char) :=
  match cs with
  | '[' :: '[' :: r => do
    let (keys, r) ← pathAt r
    match r with
    | ']' :: ']' :: r => do
      let r ← lineEnd? r
      let root ← descend false (openNext (keys.getLast?.getD "")) keys.dropLast s.root
      return (⟨root, keys⟩, r)
    | _ => none
  | '[' :: r => do
    let (keys, r) ← pathAt r
    match r with
    | ']' :: r => do
      let r ← lineEnd? r
      let root ← descend false (openTable (keys.getLast?.getD "")) keys.dropLast s.root
      return (⟨root, keys⟩, r)
    | _ => none
  | cs => do
    let (keys, r) ← pathAt cs
    match r with
    | '=' :: r => do
      let (v, r) ← valueAt (r.length + 2) 0 (skipSpaces r)
      let r ← lineEnd? r
      let root ← inCurrent s.current (addKey keys.dropLast (keys.getLast?.getD "") (.value v)) s.root
      return (⟨root, s.current⟩, r)
    | _ => none

/-- all lines of a text taken in -/
def linesAt : Nat → Reading → List Char → Option Reading
  | 0, _, _ => none
  | fuel + 1, s, cs =>
    match skipAll cs with
    | [] => some s
    | r => do
      let (s, r) ← lineAt s r
      linesAt fuel s r

/-- a text without a byte order mark at its front -/
def skipMark : List Char → List Char
  | '\ufeff' :: r => r
  | cs => cs

/-- the outermost table of a text -/
def read? (s : String) : Option Json :=
  let cs := skipMark s.toList
  (linesAt (cs.length + 1) ⟨.table false false [], []⟩ cs).map fun s => s.root.toJson

end Foreman.Toml
