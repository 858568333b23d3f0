/-
A form of JSON values in which equal results look alike.

Members stand in the order of their names, binary64 numbers are written by their bits, and minted idents are numbered in the
order in which they first appear, so that it does not matter from which number on they were minted.
-/
import Foreman.Ident
import Foreman.Json.Value
import Foreman.Text.Search

namespace Foreman.Json

/-- the front of the text of every minted ident -/
def mintedFront : List Char := "00000000-0000-4000-8000-".toList

/-- the serials of the minted idents seen so far, the first one first -/
abbrev Seen := List (List Char)

/-- the number of a serial, counted from one, which is new if it was not seen before -/
def Seen.number (seen : Seen) (serial : List Char) : Nat × Seen :=
  match seen.findIdx? (· == serial) with
  | some i => (i + 1, seen)
  | none => (seen.length + 1, seen ++ [serial])

/-- a text with its minted idents numbered -/
def numberIdents : Nat → Seen → List Char → List Char × Seen
  | 0, seen, cs => (cs, seen)
  | fuel + 1, seen, cs =>
    match Text.cut? mintedFront cs with
    | none => (cs, seen)
    | some (before, after) =>
      let (n, seen) := seen.number (after.take 12)
      let (rest, seen) := numberIdents fuel seen (after.drop 12)
      (before ++ ("uuid#" ++ toString n).toList ++ rest, seen)

/-- a binary64 number by its bits -/
def bitsText (x : Binary64) : String := "f64:" ++ Ident.hexText 16 x.toBits

/-- a member put in its place among others in the order of names -/
def place (m : String × Json) : List (String × Json) → List (String × Json)
  | [] => [m]
  | n :: r => if m.1 < n.1 then m :: n :: r else n :: place m r

mutual
/-- members in the order of their names, at every depth -/
def sorted : Json → Json
  | .arr items => .arr (sortedItems items)
  | .obj members => .obj (sortedMembers members)
  | v => v
def sortedItems : List Json → List Json
  | [] => []
  | v :: r => sorted v :: sortedItems r
def sortedMembers : List (String × Json) → List (String × Json)
  | [] => []
  | (n, v) :: r => place (n, sorted v) (sortedMembers r)
end

mutual
/-- floats by their bits, and minted idents by number, from left to right -/
def numbered (seen : Seen) : Json → Json × Seen
  | .float x => (.str (bitsText x), seen)
  | .str s => let (cs, seen) := numberIdents s.length seen s.toList; (.str (String.ofList cs), seen)
  | .arr items => let (vs, seen) := numberedItems seen items; (.arr vs, seen)
  | .obj members => let (ms, seen) := numberedMembers seen members; (.obj ms, seen)
  | v => (v, seen)
def numberedItems (seen : Seen) : List Json → List Json × Seen
  | [] => ([], seen)
  | v :: r =>
    let (v, seen) := numbered seen v
    let (vs, seen) := numberedItems seen r
    (v :: vs, seen)
def numberedMembers (seen : Seen) : List (String × Json) → List (String × Json) × Seen
  | [] => ([], seen)
  | (n, v) :: r =>
    let (v, seen) := numbered seen v
    let (ms, seen) := numberedMembers seen r
    ((n, v) :: ms, seen)
end

def canonical (v : Json) : Json := (numbered [] v.sorted).1

end Foreman.Json
