/-
Names of todos, findings, tasks and machines.

An ident is given by whoever made the thing, or minted here from a running number. A minted ident differs from every
given one and from every other minted one. Its text has the form of a random universally unique identifier.
-/
namespace Foreman

/-- a given or a minted name -/
inductive Ident where
  | given (name : String)
  | minted (serial : Nat)
deriving DecidableEq, Repr, Inhabited

namespace Ident

/-- a number in hexadecimal digits, with zeros in front up to a width -/
def hexText (width n : Nat) : String :=
  let ds := Nat.toDigits 16 n
  String.ofList (List.replicate (width - ds.length) '0' ++ ds)

def text : Ident → String
  | .given name => name
  | .minted serial => "00000000-0000-4000-8000-" ++ hexText 12 serial

end Ident

end Foreman
