/-
Looking for one text in another.

`cut? w t` is what stands before and after the first occurrence of `w` in `t`. `splitBytes? n t` cuts `t` after `n`
bytes of its UTF-8 form and fails when that falls inside a character.
-/
namespace Foreman.Text

/-- the text before and the text after the first occurrence of `w` -/
def cut? (w : List Char) : List Char → Option (List Char × List Char)
  | [] => if w.isEmpty then some ([], []) else none
  | c :: r =>
    if w.isPrefixOf (c :: r) then some ([], (c :: r).drop w.length)
    else (cut? w r).map fun p => (c :: p.1, p.2)

def occurs (w t : List Char) : Bool := (cut? w t).isSome

def contains (t w : String) : Bool := occurs w.toList t.toList

/-- the length of the UTF-8 form -/
def byteSize : List Char → Nat
  | [] => 0
  | c :: r => c.utf8Size + byteSize r

/-- a text cut after `n` bytes, unless that is inside a character -/
def splitBytes? : Nat → List Char → Option (List Char × List Char)
  | 0, cs => some ([], cs)
  | _ + 1, [] => none
  | n + 1, c :: r =>
    if c.utf8Size ≤ n + 1 then (splitBytes? (n + 1 - c.utf8Size) r).map fun p => (c :: p.1, p.2) else none

/-- every occurrence of `w`, from the left, replaced by `v`; nothing is replaced when `w` is empty -/
def replaceChars (w v : List Char) : Nat → List Char → List Char
  | 0, t => t
  | fuel + 1, t =>
    match cut? w t with
    | some (a, b) => if w.isEmpty then t else a ++ v ++ replaceChars w v fuel b
    | none => t

def replace (t w v : String) : String :=
  String.ofList (replaceChars w.toList v.toList (t.length + 1) t.toList)

/-- a text put between the members of a list -/
def joinWith (sep : String) : List String → String
  | [] => ""
  | [s] => s
  | s :: r => s ++ sep ++ joinWith sep r

/-- the lines of a text: each ends before a line feed, and a carriage return before the line feed is dropped -/
def linesOf : List Char → List (List Char) → List Char → List (List Char)
  | cur, acc, [] => (if cur.isEmpty then acc else cur.reverse :: acc).reverse
  | cur, acc, '\n' :: r =>
    linesOf [] ((match cur with | '\r' :: p => p | p => p).reverse :: acc) r
  | cur, acc, c :: r => linesOf (c :: cur) acc r

def lines (cs : List Char) : List (List Char) := linesOf [] [] cs

end Foreman.Text
