/-
White space, and text without it at its ends.

A character is blank exactly when Unicode gives it the property White_Space. `trim` takes the blank characters off both
ends of a text; a text is blank when nothing is left of it.
-/
namespace Foreman.Text

/-- the Unicode property White_Space -/
def isBlank (c : Char) : Bool :=
  let n := c.toNat
  (9 ≤ n && n ≤ 13) || n == 0x20 || n == 0x85 || n == 0xA0 || n == 0x1680 || (0x2000 ≤ n && n ≤ 0x200A) ||
    n == 0x2028 || n == 0x2029 || n == 0x202F || n == 0x205F || n == 0x3000

/-- a list of characters without the blanks at its front -/
def trimFront (cs : List Char) : List Char := cs.dropWhile isBlank

/-- a list of characters without the blanks at its two ends -/
def trimChars (cs : List Char) : List Char := (trimFront (trimFront cs).reverse).reverse

def trim (s : String) : String := String.ofList (trimChars s.toList)

/-- whether a text has no other than blank characters -/
def allBlank (s : String) : Bool := s.toList.all isBlank

end Foreman.Text
