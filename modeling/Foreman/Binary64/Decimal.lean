/-
Decimal texts of binary64 numbers.

`shortest` finds the fewest digits that read back as the same number, and of those the nearest to it, the greater of two
equally near ones. It tries one digit, two digits, and so on; a grid of decimals with a point that reads back has one
among the two neighbours of the value, so two candidates are enough. `toText` writes these digits in positional notation, never with an exponent. `read?` reads the
usual decimal notation, an optional exponent and the words for the infinities and nan.
-/
import Foreman.Binary64.Basic

namespace Foreman.Binary64

/-! ## Shortest digits -/

/-- the distance of `digits * 10 ^ exponent` from the number of `u > 0` units, if it rounds to that number. Distances on
one grid are compared with each other alone, so a power of ten that they share is left in. -/
def readsBack (u digits : Nat) (exponent : Int) : Option Nat :=
  let g := spacing u
  let below := if u = Nat.pow 2 u.log2 ∧ 1 < g then g else 2 * g
  let den := Nat.pow 10 (-exponent).toNat
  let value := 4 * u * den
  let point := 4 * digits * Nat.pow 10 exponent.toNat * unitsPerOne
  let closed := (u / g) % 2 = 0
  let low := value - below * den
  let high := value + 2 * g * den
  if (low < point ∨ (closed ∧ low = point)) ∧ (point < high ∨ (closed ∧ point = high)) then
    some (if point < value then value - point else point - value)
  else none

/-- the decimal exponent of the leading digit of `u` units, searched downwards from `e` -/
def leadingExponent (u : Nat) : Nat → Int → Int
  | 0, e => e
  | fuel + 1, e =>
    if (if 0 ≤ e then Nat.pow 10 e.toNat * unitsPerOne ≤ u else unitsPerOne ≤ u * Nat.pow 10 (-e).toNat) then e
    else leadingExponent u fuel (e - 1)

/-- the shortest digits from a grid of `10 ^ exponent` and the finer ones after it -/
def shortestFrom (u : Nat) : Nat → Int → Nat × Int
  | 0, e => (0, e)
  | fuel + 1, e =>
    let d := if 0 ≤ e then u / (Nat.pow 10 e.toNat * unitsPerOne) else u * Nat.pow 10 (-e).toNat / unitsPerOne
    match readsBack u d e, readsBack u (d + 1) e with
    | some a, some b => if a < b then (d, e) else (d + 1, e)
    | some _, none => (d, e)
    | none, some _ => (d + 1, e)
    | none, none => shortestFrom u fuel (e - 1)

/-- the fewest digits that read back as the number of `u > 0` units, with the exponent of the last one -/
def shortest (u : Nat) : Nat × Int :=
  shortestFrom u 20 (leadingExponent u 700 ((u.log2 : Int) * 31 / 100 - 322))

/-- digits and the exponent of the last one, in positional notation -/
def positional (digits : Nat) (exponent : Int) : String :=
  let ds := Nat.toDigits 10 digits
  if 0 ≤ exponent then String.ofList (ds ++ List.replicate exponent.toNat '0')
  else
    let places := (-exponent).toNat
    let padded := List.replicate (places + 1 - ds.length) '0' ++ ds
    let whole := padded.take (padded.length - places)
    let part := ((padded.drop (padded.length - places)).reverse.dropWhile (· == '0')).reverse
    String.ofList (if part.isEmpty then whole else whole ++ '.' :: part)

/-- the text of a number: the shortest digits that read back, positional -/
def toText : Binary64 → String
  | .nan _ => "NaN"
  | .infinite s => if s then "-inf" else "inf"
  | .finite s u =>
    let body := if u = 0 then "0" else let d := shortest u; positional d.1 d.2
    if s then "-" ++ body else body

/-! ## Reading -/

/-- the digits at the front of a text, as a number, with their count and what follows -/
def digitsAt (cs : List Char) : Nat × Nat × List Char :=
  let ds := cs.takeWhile Char.isDigit
  (ds.foldl (fun n c => 10 * n + (c.toNat - 48)) 0, ds.length, cs.dropWhile Char.isDigit)

def signAt : List Char → Bool × List Char
  | '-' :: r => (true, r)
  | '+' :: r => (false, r)
  | cs => (false, cs)

/-- an exponent part that ends the text; an empty text is the exponent zero -/
def exponentAt : List Char → Option Int
  | [] => some 0
  | c :: r =>
    if c = 'e' ∨ c = 'E' then
      let (s, r) := signAt r
      let (n, count, rest) := digitsAt r
      if count = 0 ∨ !rest.isEmpty then none else some (signed s n)
    else none

/-- a number without its sign: digits with an optional point, at least one digit, an optional exponent -/
def readUnsigned? (negative : Bool) (cs : List Char) : Option Binary64 :=
  let word := cs.map Char.toLower
  if word = "inf".toList ∨ word = "infinity".toList then some (.infinite negative)
  else if word = "nan".toList then some (.nan negative)
  else
    let (whole, count, rest) := digitsAt cs
    let (part, places, rest) := match rest with
      | '.' :: r => digitsAt r
      | r => (0, 0, r)
    if count + places = 0 then none
    else (exponentAt rest).map fun e => ofDecimal negative (whole * Nat.pow 10 places + part) (e - places)

/-- a number in decimal notation, an infinity or nan -/
def read? (s : String) : Option Binary64 :=
  let (negative, cs) := signAt s.toList
  readUnsigned? negative cs

end Foreman.Binary64
