/-
Lengths of time, in whole nanoseconds, and their text.

`toText` takes the greatest of the units s, ms, µs and ns that goes into the length, and writes what is left over as a
decimal fraction without trailing zeros: `1.5s`, `250ms`, `0ns`.
-/
namespace Foreman

structure Duration where
  nanos : Nat
deriving DecidableEq, Repr, Inhabited

namespace Duration

def zero : Duration := ⟨0⟩

def ofMillis (ms : Nat) : Duration := ⟨ms * 1000000⟩

def ofParts (secs nanos : Nat) : Duration := ⟨secs * 1000000000 + nanos⟩

def millis (d : Duration) : Nat := d.nanos / 1000000

/-- `n` units of `size` nanoseconds each, where `size` is a power of ten with `places` zeros -/
def inUnit (nanos size places : Nat) (name : String) : String :=
  let ds := Nat.toDigits 10 (nanos % size)
  let part := ((List.replicate (places - ds.length) '0' ++ ds).reverse.dropWhile (· == '0')).reverse
  toString (nanos / size) ++ (if part.isEmpty then "" else "." ++ String.ofList part) ++ name

def toText (d : Duration) : String :=
  if 1000000000 ≤ d.nanos then inUnit d.nanos 1000000000 9 "s"
  else if 1000000 ≤ d.nanos then inUnit d.nanos 1000000 6 "ms"
  else if 1000 ≤ d.nanos then inUnit d.nanos 1000 3 "µs"
  else inUnit d.nanos 1 0 "ns"

end Duration

end Foreman
