/-
Small and capital forms of letters, after the full Unicode mappings.

`lowerChars` maps letter by letter: a capital sigma becomes the ordinary small sigma wherever it stands.
`capitalizeChars` raises the first letter alone. ASCII letters are answered without the tables.
-/
import Foreman.Text.CaseTable

namespace Foreman.Text

/-- one letter through a table of runs -/
def mapRun (runs : List CaseRun) (c : Char) : Char :=
  match runs.find? (·.covers c.toNat) with
  | some r => Char.ofNat (c.toNat + r.shift).toNat
  | none => c

/-- one letter through the table of long forms, else through the table of runs -/
def mapLetter (long : List (Nat × List Nat)) (runs : List CaseRun) (c : Char) : List Char :=
  match long.lookup c.toNat with
  | some ns => ns.map Char.ofNat
  | none => [mapRun runs c]

def lowerChar (c : Char) : List Char :=
  if c.toNat < 128 then [c.toLower] else mapLetter lowerLong lowerRuns c

def upperChar (c : Char) : List Char :=
  if c.toNat < 128 then [c.toUpper] else mapLetter upperLong upperRuns c

/-- a text in small letters -/
def lowerChars (cs : List Char) : List Char := cs.flatMap lowerChar

def lower (s : String) : String := String.ofList (lowerChars s.toList)

/-- a text with its first letter raised -/
def capitalizeChars : List Char → List Char
  | [] => []
  | c :: r => upperChar c ++ r

/-- equality up to the case of ASCII letters -/
def sameLetters (a b : String) : Bool := a.toList.map Char.toLower == b.toList.map Char.toLower

end Foreman.Text
