/-
Points in time and their RFC 3339 text.

A point is a number of seconds since the start of 1970, UTC, and a number of nanoseconds, which goes beyond one second
inside a leap second. `toText` writes it in UTC with 0, 3, 6 or 9 places. `read?` takes any offset from UTC; it allows
blanks between the parts, a blank for the `T`, and numbers with fewer digits than usual. The calendar ends: the date must lie
in it as it is written and in UTC.
-/
import Foreman.Text.Blank

namespace Foreman

structure Timestamp where
  seconds : Int
  nanos : Nat
deriving DecidableEq, Repr, Inhabited

namespace Timestamp

/-! ## Calendar -/

def isLeapYear (y : Int) : Bool := y % 4 == 0 && (y % 100 != 0 || y % 400 == 0)

def daysInMonth (y : Int) (m : Nat) : Nat :=
  if m = 2 then (if isLeapYear y then 29 else 28)
  else if m = 4 ∨ m = 6 ∨ m = 9 ∨ m = 11 then 30
  else 31

/-- the days from the start of 1970 to a date; years are counted from March on, 400 of them have 146097 days -/
def daysOfDate (y : Int) (m d : Nat) : Int :=
  let y := if m ≤ 2 then y - 1 else y
  let era := y.fdiv 400
  let yearOfEra := y - era * 400
  let monthFromMarch : Int := if 2 < m then m - 3 else m + 9
  let dayOfYear := (153 * monthFromMarch + 2) / 5 + d - 1
  era * 146097 + (yearOfEra * 365 + yearOfEra / 4 - yearOfEra / 100 + dayOfYear) - 719468

/-- the year, month and day of a number of days from the start of 1970 -/
def dateOfDays (days : Int) : Int × Nat × Nat :=
  let z := days + 719468
  let era := z.fdiv 146097
  let dayOfEra := z - era * 146097
  let yearOfEra := (dayOfEra - dayOfEra / 1460 + dayOfEra / 36524 - dayOfEra / 146096) / 365
  let dayOfYear := dayOfEra - (365 * yearOfEra + yearOfEra / 4 - yearOfEra / 100)
  let mp := (5 * dayOfYear + 2) / 153
  let d := dayOfYear - (153 * mp + 2) / 5 + 1
  let m := if mp < 10 then mp + 3 else mp - 9
  let y := yearOfEra + era * 400
  (if m ≤ 2 then y + 1 else y, m.toNat, d.toNat)

def isYear (y : Int) : Bool := decide (-262143 ≤ y) && decide (y ≤ 262142)

/-! ## Text -/

/-- a number with zeros in front, up to a width -/
def padded (width n : Nat) : String :=
  let ds := Nat.toDigits 10 n
  String.ofList (List.replicate (width - ds.length) '0' ++ ds)

/-- the year: four digits, with a sign and at least four digits when it has no four-digit form -/
def yearText (y : Int) : String :=
  if 0 ≤ y ∧ y ≤ 9999 then padded 4 y.toNat
  else (if y < 0 then "-" else "+") ++ padded 4 y.natAbs

/-- the fraction of a second, in the fewest of 0, 3, 6 and 9 places -/
def fractionText (nanos : Nat) : String :=
  if nanos = 0 then ""
  else if nanos % 1000000 = 0 then "." ++ padded 3 (nanos / 1000000)
  else if nanos % 1000 = 0 then "." ++ padded 6 (nanos / 1000)
  else "." ++ padded 9 nanos

def toText (t : Timestamp) : String :=
  let days := t.seconds.fdiv 86400
  let s := (t.seconds - days * 86400).toNat
  let (y, m, d) := dateOfDays days
  let second := s % 60 + t.nanos / 1000000000
  yearText y ++ "-" ++ padded 2 m ++ "-" ++ padded 2 d ++ "T" ++ padded 2 (s / 3600) ++ ":" ++
    padded 2 (s / 60 % 60) ++ ":" ++ padded 2 second ++ fractionText (t.nanos % 1000000000) ++ "Z"

/-! ## Reading -/

/-- a number of one up to `width` digits at the front of a text, after blanks -/
def numberAt (width : Nat) (cs : List Char) : Option (Nat × List Char) :=
  let cs := Text.trimFront cs
  let ds := (cs.takeWhile Char.isDigit).take width
  if ds.isEmpty then none
  else some (ds.foldl (fun n c => 10 * n + (c.toNat - 48)) 0, cs.drop ds.length)

/-- a year: four digits at most, or any number of them after a sign -/
def yearAt (cs : List Char) : Option (Int × List Char) :=
  match Text.trimFront cs with
  | '-' :: r => if (r.head?.map Char.isDigit).getD false then (numberAt r.length r).map fun (n, r) => (-n, r) else none
  | '+' :: r => if (r.head?.map Char.isDigit).getD false then (numberAt r.length r).map fun (n, r) => (n, r) else none
  | cs => (numberAt 4 cs).map fun (n, r) => (n, r)

/-- what follows a mark at the front of a text, after blanks -/
def after (mark : Char) (cs : List Char) : Option (List Char) :=
  match Text.trimFront cs with
  | c :: r => if c = mark then some r else none
  | [] => none

/-- the fraction of a second in nanoseconds; digits after the ninth are passed over -/
def fractionAt : List Char → Option (Nat × List Char)
  | '.' :: r =>
    let ds := r.takeWhile Char.isDigit
    if ds.isEmpty then none
    else
      let nine := (ds ++ List.replicate 9 '0').take 9
      some (nine.foldl (fun n c => 10 * n + (c.toNat - 48)) 0, r.drop ds.length)
  | cs => some (0, cs)

def twoDigits : List Char → Option (Nat × List Char)
  | a :: b :: r =>
    if a.isDigit ∧ b.isDigit then some ((a.toNat - 48) * 10 + (b.toNat - 48), r) else none
  | _ => none

/-- hours and minutes of an offset, in seconds, with colons and blanks between them -/
def clockAt (cs : List Char) : Option (Int × List Char) := do
  let (h, r) ← twoDigits cs
  let (m, r) ← twoDigits (r.dropWhile fun c => c = ':' ∨ Text.isBlank c)
  if m < 60 then return (h * 3600 + m * 60, r) else none

/-- the offset from UTC in seconds, below one day -/
def offsetAt (cs : List Char) : Option (Int × List Char) := do
  let (offset, r) ← match Text.trimFront cs with
    | 'Z' :: r => some (0, r)
    | 'z' :: r => some (0, r)
    | '+' :: r => clockAt r
    | '-' :: r => (clockAt r).map fun (s, r) => (-s, r)
    | '−' :: r => (clockAt r).map fun (s, r) => (-s, r)
    | u :: t :: c :: r => if [u, t, c].map Char.toUpper = ['U', 'T', 'C'] then some (0, r) else none
    | _ => none
  if offset.natAbs < 86400 then return (offset, r) else none

def read? (s : String) : Option Timestamp := do
  let (y, r) ← yearAt s.toList
  let (m, r) ← numberAt 2 (← after '-' r)
  let (d, r) ← numberAt 2 (← after '-' r)
  let r ← match r with
    | c :: r => if c = 'T' ∨ c = 't' ∨ c = ' ' then some r else none
    | [] => none
  let (hour, r) ← numberAt 2 r
  let (minute, r) ← numberAt 2 (← after ':' r)
  let (second, r) ← numberAt 2 (← after ':' r)
  let (nanos, r) ← fractionAt r
  let (offset, r) ← offsetAt r
  if !(Text.trimFront r).isEmpty then none
  else if !isYear y ∨ m < 1 ∨ 12 < m ∨ d < 1 ∨ daysInMonth y m < d then none
  else if 23 < hour ∨ 59 < minute ∨ 60 < second then none
  else
    let leap := second = 60
    let seconds := daysOfDate y m d * 86400 + hour * 3600 + minute * 60 +
      (if leap then 59 else second) - offset
    if isYear (dateOfDays (seconds.fdiv 86400)).1 then return ⟨seconds, if leap then nanos + 1000000000 else nanos⟩
    else none

end Timestamp

end Foreman
