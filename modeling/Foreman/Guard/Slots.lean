/-
A fixed number of slots, given out in order of arrival.

Whoever asks gets a slot if one is free and nobody waits, else waits in line. A slot that is given back goes at once to the
first in line. Whoever leaves the line loses its place.
-/
namespace Foreman

/-- slots, who holds one, and who waits, the first in line first -/
structure Slots (κ : Type) where
  capacity : Nat
  holders : List κ
  line : List κ
deriving DecidableEq, Repr

namespace Slots

variable {κ : Type} [DecidableEq κ]

/-- free slots, at least one -/
def empty (capacity : Nat) : Slots κ := ⟨max capacity 1, [], []⟩

def holds (s : Slots κ) (k : κ) : Bool := s.holders.contains k

def waits (s : Slots κ) (k : κ) : Bool := s.line.contains k

def inFlight (s : Slots κ) : Nat := s.holders.length

def waiting (s : Slots κ) : Nat := s.line.length

def arrive (s : Slots κ) (k : κ) : Slots κ :=
  if s.holders.length < s.capacity ∧ s.line.isEmpty then { s with holders := s.holders ++ [k] }
  else { s with line := s.line ++ [k] }

/-- the first in line gets a slot, if one is free; with who it is -/
def grant (s : Slots κ) : Slots κ × Option κ :=
  if s.holders.length < s.capacity then
    match s.line with
    | k :: r => ({ s with holders := s.holders ++ [k], line := r }, some k)
    | [] => (s, none)
  else (s, none)

/-- a holder gives its slot back; with who gets it. One that holds none changes nothing. -/
def release (s : Slots κ) (k : κ) : Slots κ × Option κ :=
  if s.holds k then { s with holders := s.holders.erase k }.grant else (s, none)

def leave (s : Slots κ) (k : κ) : Slots κ := { s with line := s.line.erase k }

/-- someone goes away, whether it holds a slot or waits for one; with who gets the slot -/
def discard (s : Slots κ) (k : κ) : Slots κ × Option κ := (s.leave k).release k

end Slots

end Foreman
