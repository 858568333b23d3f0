/-
Numbers of the IEEE 754 format binary64, as exact values.

Every finite number of the format is a whole multiple of the smallest positive one, 2^-1074, so `finite` holds a sign and
that multiple (`units`); both zeros are kept apart. `ofRatio` is the one place where rounding happens: to the nearest
number of the format, a tie to the even one, and to an infinity beyond the greatest. Products, quotients and decimals
are exact ratios rounded by it. `rank` orders the numbers: `lt` and `le` compare ranks and are false on `nan`.
-/
namespace Foreman

/-- a binary64 number; `units` counts multiples of 2^-1074 -/
inductive Binary64 where
  | finite (negative : Bool) (units : Nat)
  | infinite (negative : Bool)
  | nan (negative : Bool)
deriving DecidableEq, Repr

namespace Binary64

instance : Inhabited Binary64 := ⟨.finite false 0⟩

/-- the multiple of 2^-1074 that is one -/
def unitsPerOne : Nat := Nat.pow 2 1074

/-- the least multiple of 2^-1074 that is too great for the format -/
def unitsBound : Nat := Nat.pow 2 2098

def zero : Binary64 := .finite false 0

def one : Binary64 := .finite false unitsPerOne

/-! ## Order -/

/-- a whole number with a sign -/
def signed (negative : Bool) (n : Nat) : Int := if negative then -(n : Int) else n

/-- the place of a number in the order: first the infinities, then the value; none for a nan -/
def rank : Binary64 → Option (Int × Int)
  | .finite s u => some (0, signed s u)
  | .infinite s => some (signed s 1, 0)
  | .nan _ => none

/-- lexicographic order of ranks -/
def rankLe (a b : Int × Int) : Bool := decide (a.1 < b.1) || (a.1 == b.1 && decide (a.2 ≤ b.2))

def le (a b : Binary64) : Bool :=
  match a.rank, b.rank with
  | some x, some y => rankLe x y
  | _, _ => false

def lt (a b : Binary64) : Bool :=
  match a.rank, b.rank with
  | some x, some y => !rankLe y x
  | _, _ => false

/-- equality of numbers: the two zeros are equal, a nan equals nothing -/
def equal (a b : Binary64) : Bool := a.le b && b.le a

/-- the greater of two numbers, the second of equal ones; a nan gives way -/
def max (a b : Binary64) : Binary64 :=
  match a, b with
  | .nan _, b => b
  | a, .nan _ => a
  | a, b => if b.lt a then a else b

def isNan : Binary64 → Bool
  | .nan _ => true
  | _ => false

def value : Binary64 → Rat
  | .finite negative units => mkRat (signed negative units) unitsPerOne
  | _ => 0

/-! ## Rounding -/

/-- `num / den` to the nearest whole number, a tie to the even one -/
def roundHalfEven (num den : Nat) : Nat :=
  let q := num / den
  let r := num % den
  if 2 * r < den then q
  else if 2 * r > den then q + 1
  else q + q % 2

/-- the distance of neighbouring numbers of the format at a magnitude of `u` units -/
def spacing (u : Nat) : Nat := Nat.pow 2 (u.log2 - 52)

/-- the number of the format nearest to `num / den` units -/
def ofRatio (negative : Bool) (num den : Nat) : Binary64 :=
  let g := spacing (num / den)
  let u := roundHalfEven num (den * g) * g
  if u < unitsBound then .finite negative u else .infinite negative

/-- the number nearest to a whole number -/
def ofNat (n : Nat) : Binary64 := ofRatio false (n * unitsPerOne) 1

/-- the number nearest to `mantissa * 10 ^ exponent`; with `l` the binary logarithm of the mantissa, its decimal
logarithm lies between `0.30102 * l` and `0.30103 * (l + 1)`, which settles very great and very small values at once -/
def ofDecimal (negative : Bool) (mantissa : Nat) (exponent : Int) : Binary64 :=
  let l := (mantissa.log2 : Int)
  if mantissa = 0 ∨ exponent + (l + 1) * 30103 / 100000 + 1 < -330 then .finite negative 0
  else if exponent + l * 30102 / 100000 > 330 then .infinite negative
  else if exponent < 0 then ofRatio negative (mantissa * unitsPerOne) (Nat.pow 10 (-exponent).toNat)
  else ofRatio negative (mantissa * Nat.pow 10 exponent.toNat * unitsPerOne) 1

/-! ## Arithmetic -/

def neg : Binary64 → Binary64
  | .finite s u => .finite (!s) u
  | .infinite s => .infinite (!s)
  | .nan s => .nan (!s)

def mul : Binary64 → Binary64 → Binary64
  | .finite s u, .finite t v => ofRatio (s != t) (u * v) unitsPerOne
  | .finite s u, .infinite t => if u = 0 then .nan true else .infinite (s != t)
  | .infinite s, .finite t v => if v = 0 then .nan true else .infinite (s != t)
  | .infinite s, .infinite t => .infinite (s != t)
  | .nan s, _ => .nan s
  | _, .nan t => .nan t

/-- whether twice the number is a number of the format -/
def hasDouble : Binary64 → Bool
  | .finite _ u => decide (2 * u < unitsBound)
  | _ => false

def div : Binary64 → Binary64 → Binary64
  | .finite s u, .finite t v =>
    if v ≠ 0 then ofRatio (s != t) (u * unitsPerOne) v
    else if u = 0 then .nan true else .infinite (s != t)
  | .finite s _, .infinite t => .finite (s != t) 0
  | .infinite s, .finite t _ => .infinite (s != t)
  | .infinite _, .infinite _ => .nan true
  | .nan s, _ => .nan s
  | _, .nan t => .nan t

/-! ## Bits -/

/-- the sixty-four bits of the format, as a whole number -/
def toBits : Binary64 → Nat
  | .finite s u =>
    (if s then Nat.pow 2 63 else 0) +
      (if u < Nat.pow 2 52 then u else (u.log2 - 51) * Nat.pow 2 52 + (u / spacing u - Nat.pow 2 52))
  | .infinite s => (if s then Nat.pow 2 63 else 0) + 0x7FF0000000000000
  | .nan s => (if s then Nat.pow 2 63 else 0) + 0x7FF8000000000000

end Binary64

end Foreman
