/-
The numbers of JSON text.

A number without point and exponent is whole if it lies in the range of signed or unsigned 64-bit integers and is not
`-0`. Any other number is a binary64 number. Its digits are gathered into a significand below 2^64, those that no longer
fit are dropped, and the significand is scaled by a power of ten, with a rounding at each step. A number beyond the
greatest binary64 number is out of range.
-/
import Foreman.Json.Value

namespace Foreman.Json

/-- the parts of a number as it is written -/
structure NumberText where
  negative : Bool
  whole : List Char
  part : Option (List Char)
  exponent : Option (Bool × List Char)
deriving DecidableEq, Repr

def digit (c : Char) : Nat := c.toNat - 48

/-- digits added to a significand while it stays below 2^64, with how many were added and how many were dropped -/
def gather (m : Nat) : List Char → Nat × Nat × Nat
  | [] => (m, 0, 0)
  | c :: r =>
    if 10 * m + digit c < Nat.pow 2 64 then
      let (m', taken, dropped) := gather (10 * m + digit c) r
      (m', taken + 1, dropped)
    else (m, 0, r.length + 1)

/-- a number scaled by a power of ten, in steps of at most 10^308 -/
def scale : Nat → Binary64 → Int → Option Binary64
  | 0, x, _ => some x
  | fuel + 1, x, e =>
    if x = .zero then some x
    else if e > 308 then none
    else if e < -308 then scale fuel (x.div (.ofDecimal false 1 308)) (e + 308)
    else if e < 0 then some (x.div (.ofDecimal false 1 (-e)))
    else match x.mul (.ofDecimal false 1 e) with
      | .infinite _ => none
      | y => some y

/-- the greatest exponent that is read to the end -/
def exponentBound : Nat := Nat.pow 2 31

def NumberText.toFloat (t : NumberText) : Option Binary64 :=
  let (m, _, dropped) := gather 0 t.whole
  let (m, taken, _) := gather m (t.part.getD [])
  let start : Int := dropped - taken
  let result := match t.exponent with
    | none => scale 8 (.ofNat m) start
    | some (down, ds) =>
      let n := ds.foldl (fun n c => 10 * n + digit c) 0
      if exponentBound ≤ n then
        if m ≠ 0 ∧ !down then none else some .zero
      else scale 8 (.ofNat m) (if down then start - n else start + n)
  result.map fun x => if t.negative then x.neg else x

/-- the value of a number text; none when it is out of range -/
def NumberText.value (t : NumberText) : Option Json :=
  let n := t.whole.foldl (fun n c => 10 * n + digit c) 0
  let isWhole := t.part.isNone && t.exponent.isNone &&
    (if t.negative then 0 < n && n ≤ Nat.pow 2 63 else n < Nat.pow 2 64)
  if isWhole then some (.int (if t.negative then -n else n))
  else t.toFloat.map .float

/-- the digits at the front of a text and what follows -/
def spanDigits (cs : List Char) : List Char × List Char :=
  (cs.takeWhile Char.isDigit, cs.dropWhile Char.isDigit)

/-- the fraction at the front of a text: none when a point has no digit after it -/
def readPart : List Char → Option (Option (List Char) × List Char)
  | '.' :: r =>
    let (ds, rest) := spanDigits r
    if ds.isEmpty then none else some (some ds, rest)
  | cs => some (none, cs)

/-- the exponent at the front of a text: none when it has no digit -/
def readExponent : List Char → Option (Option (Bool × List Char) × List Char)
  | c :: r =>
    if c = 'e' ∨ c = 'E' then
      let (down, r) := match r with
        | '-' :: r => (true, r)
        | '+' :: r => (false, r)
        | r => (false, r)
      let (ds, rest) := spanDigits r
      if ds.isEmpty then none else some (some (down, ds), rest)
    else some (none, c :: r)
  | [] => some (none, [])

/-- the number at the front of a text: no zero before another digit, a digit on both sides of the point -/
def readNumber (cs : List Char) : Option (NumberText × List Char) :=
  let (negative, cs) := match cs with
    | '-' :: r => (true, r)
    | r => (false, r)
  let (whole, rest) := spanDigits cs
  if whole.isEmpty || (whole.head? == some '0' && 1 < whole.length) then none
  else do
    let (part, rest) ← readPart rest
    let (exponent, rest) ← readExponent rest
    return (⟨negative, whole, part, exponent⟩, rest)

end Foreman.Json
