/-
Keys, quoted text, numbers and dates of TOML.

Each reader takes the text from a place on and gives what it read and what follows it, or fails.
-/
import Foreman.Binary64.Decimal
import Foreman.Json.Node

namespace Foreman.Toml

/-! ## Characters -/

def isSpace (c : Char) : Bool := c = ' ' ∨ c = '\t'

def skipSpaces (cs : List Char) : List Char := cs.dropWhile isSpace

/-- a character that may stand in a comment: no control character but the tab -/
def isComment (c : Char) : Bool := c = '\t' ∨ (0x20 ≤ c.toNat ∧ c.toNat ≠ 0x7F)

/-- a line end at the front of a text -/
def newline? : List Char → Option (List Char)
  | '\n' :: r => some r
  | '\r' :: '\n' :: r => some r
  | _ => none

/-- a text after a comment that may be at its front -/
def skipComment : List Char → List Char
  | '#' :: r => r.dropWhile isComment
  | cs => cs

/-- the digits that satisfy `p` after another digit, single underscores between them left out -/
def moreDigits (p : Char → Bool) : List Char → List Char × List Char
  | '_' :: d :: r =>
    if p d then
      let (ds, rest) := moreDigits p r
      (d :: ds, rest)
    else ([], '_' :: d :: r)
  | d :: r =>
    if p d then
      let (ds, rest) := moreDigits p r
      (d :: ds, rest)
    else ([], d :: r)
  | [] => ([], [])

/-- the digits that satisfy `p` at the front of a text, single underscores between them left out; at least one -/
def digitsAt (p : Char → Bool) : List Char → Option (List Char × List Char)
  | c :: r =>
    if p c then
      let (ds, rest) := moreDigits p r
      some (c :: ds, rest)
    else none
  | [] => none

/-! ## Quoted text -/

/-- an escape after its backslash -/
def escapeAt : List Char → Option (Char × List Char)
  | 'u' :: r => do
    let (n, r) ← Json.hex4? r
    if n.isValidChar then return (Char.ofNat n, r) else none
  | 'U' :: r => do
    let (a, r) ← Json.hex4? r
    let (b, r) ← Json.hex4? r
    let n := a * 0x10000 + b
    if n.isValidChar then return (Char.ofNat n, r) else none
  | c :: r =>
    if c = '/' then none else (Json.shortEscape? c).map fun c => (c, r)
  | [] => none

/-- text in double quotes, up to the closing one -/
def basicAt : Nat → List Char → Option (List Char × List Char)
  | 0, _ => none
  | _, [] => none
  | _ + 1, '"' :: r => some ([], r)
  | fuel + 1, '\\' :: r => do
    let (c, r) ← escapeAt r
    let (cs, r) ← basicAt fuel r
    return (c :: cs, r)
  | fuel + 1, c :: r =>
    if isComment c then (basicAt fuel r).map fun (cs, r) => (c :: cs, r) else none

/-- text in single quotes, up to the closing one -/
def literalAt : List Char → Option (List Char × List Char)
  | [] => none
  | '\'' :: r => some ([], r)
  | c :: r => if isComment c then (literalAt r).map fun (cs, r) => (c :: cs, r) else none

/-- how many times a character stands at the front of a text -/
def runOf (q : Char) (cs : List Char) : Nat := (cs.takeWhile (· == q)).length

/-- text of several lines up to three closing quotes, of which up to two more may belong to the text; a backslash at the
end of a line takes the line end and the blanks and line ends after it out of the text -/
def multilineAt (q : Char) (escapes : Bool) : Nat → List Char → Option (List Char × List Char)
  | 0, _ => none
  | _, [] => none
  | fuel + 1, c :: r =>
    if c = q then
      let n := runOf q (c :: r)
      if n < 3 then (multilineAt q escapes fuel r).map fun (cs, r) => (c :: cs, r)
      else
        let own := min (n - 3) 2
        some (List.replicate own q, (c :: r).drop (own + 3))
    else match newline? (c :: r) with
      | some rest => (multilineAt q escapes fuel rest).map fun (cs, r) => ('\n' :: cs, r)
      | none =>
        if escapes && c == '\\' then
          match newline? (skipSpaces r) with
          | some rest =>
            multilineAt q escapes fuel (rest.dropWhile fun d => isSpace d ∨ d = '\n' ∨ d = '\r')
          | none => do
            let (c, r) ← escapeAt r
            let (cs, r) ← multilineAt q escapes fuel r
            return (c :: cs, r)
        else if isComment c then (multilineAt q escapes fuel r).map fun (cs, r) => (c :: cs, r)
        else none

/-- a line end right after opening quotes does not belong to the text -/
def afterOpening (cs : List Char) : List Char := (newline? cs).getD cs

/-- quoted text of any of the four kinds -/
def quotedAt (cs : List Char) : Option (String × List Char) :=
  let fuel := cs.length + 1
  let read := match cs with
    | '"' :: '"' :: '"' :: r => multilineAt '"' true fuel (afterOpening r)
    | '\'' :: '\'' :: '\'' :: r => multilineAt '\'' false fuel (afterOpening r)
    | '"' :: r => basicAt fuel r
    | '\'' :: r => literalAt r
    | _ => none
  read.map fun (s, r) => (String.ofList s, r)

/-! ## Keys -/

def isBareKey (c : Char) : Bool := c.isAlphanum || c = '_' || c = '-'

def keyAt (cs : List Char) : Option (String × List Char) :=
  match cs with
  | '"' :: r => (basicAt (r.length + 1) r).map fun (s, r) => (String.ofList s, r)
  | '\'' :: r => (literalAt r).map fun (s, r) => (String.ofList s, r)
  | cs =>
    let key := cs.takeWhile isBareKey
    if key.isEmpty then none else some (String.ofList key, cs.drop key.length)

/-- keys with dots between them, and blanks around each -/
def keysAt : Nat → List Char → Option (List String × List Char)
  | 0, _ => none
  | fuel + 1, cs => do
    let (key, r) ← keyAt (skipSpaces cs)
    match skipSpaces r with
    | '.' :: r => (keysAt fuel r).map fun (keys, r) => (key :: keys, r)
    | r => return ([key], r)

/-! ## Numbers -/

/-- the value of digits in a base -/
def inBase (base : Nat) (ds : List Char) : Nat := ds.foldl (fun n c => base * n + (Json.hexDigit? c).getD 0) 0

def isHexDigit (c : Char) : Bool := (Json.hexDigit? c).isSome

/-- a whole number in the range of signed 64-bit integers -/
def wholeAt : List Char → Option (Json × List Char)
  | '0' :: 'x' :: r => basedAt 16 isHexDigit r
  | '0' :: 'o' :: r => basedAt 8 (fun c => '0' ≤ c ∧ c ≤ '7') r
  | '0' :: 'b' :: r => basedAt 2 (fun c => c = '0' ∨ c = '1') r
  | cs => do
    let (negative, r) := Binary64.signAt cs
    let (ds, r) ← leadingAt r
    let n := inBase 10 ds
    if n < Nat.pow 2 63 ∨ (negative ∧ n = Nat.pow 2 63) then return (.int (if negative then -n else n), r) else none
where
  /-- a number after the mark of its base -/
  basedAt (base : Nat) (p : Char → Bool) (r : List Char) : Option (Json × List Char) := do
    let (ds, r) ← digitsAt p r
    let n := inBase base ds
    if n < Nat.pow 2 63 then return (.int n, r) else none
  /-- decimal digits without a leading zero -/
  leadingAt : List Char → Option (List Char × List Char)
    | '0' :: r => some (['0'], r)
    | r => digitsAt Char.isDigit r

/-- the infinities and nan -/
def specialAt (cs : List Char) : Option (Json × List Char) :=
  let (negative, r) := Binary64.signAt cs
  match r with
  | 'i' :: 'n' :: 'f' :: r => some (.float (.infinite negative), r)
  | 'n' :: 'a' :: 'n' :: r => some (.float (.nan negative), r)
  | _ => none

/-- a number with a fraction or an exponent, or both; one beyond the greatest is refused -/
def floatAt (cs : List Char) : Option (Json × List Char) := do
  let (negative, r) := Binary64.signAt cs
  let (whole, r) ← wholeAt.leadingAt r
  let (part, r) ← match r with
    | '.' :: r => digitsAt Char.isDigit r
    | r => some ([], r)
  let (exponent, r) ← match r with
    | c :: r' =>
      if c = 'e' ∨ c = 'E' then
        let (down, r') := Binary64.signAt r'
        (digitsAt Char.isDigit r').map fun (ds, rest) => (some (Binary64.signed down (inBase 10 ds)), rest)
      else some (none, r)
    | [] => some (none, [])
  if part.isEmpty ∧ exponent.isNone then none
  else
    let x := Binary64.ofDecimal negative (inBase 10 (whole ++ part)) (exponent.getD 0 - part.length)
    if x = .infinite false then none else return (.float x, r)

/-! ## Dates -/

/-- a number of exactly `width` digits, within bounds -/
def fixedAt (width low high : Nat) (cs : List Char) : Option (Nat × List Char) :=
  let ds := cs.take width
  if ds.length = width ∧ ds.all Char.isDigit ∧ low ≤ inBase 10 ds ∧ inBase 10 ds ≤ high then
    some (inBase 10 ds, cs.drop width)
  else none

def markAt (mark : Char) : List Char → Option (List Char)
  | c :: r => if c = mark then some r else none
  | [] => none

def monthDays (y m : Nat) : Nat :=
  if m = 2 then (if y % 4 = 0 ∧ (y % 100 ≠ 0 ∨ y % 400 = 0) then 29 else 28)
  else if m = 4 ∨ m = 6 ∨ m = 9 ∨ m = 11 then 30
  else 31

def dateAt (cs : List Char) : Option (List Char) := do
  let (y, r) ← fixedAt 4 0 9999 cs
  let (m, r) ← fixedAt 2 1 12 (← markAt '-' r)
  let (_, r) ← fixedAt 2 1 (monthDays y m) (← markAt '-' r)
  return r

def timeAt (cs : List Char) : Option (List Char) := do
  let (_, r) ← fixedAt 2 0 23 cs
  let (_, r) ← fixedAt 2 0 59 (← markAt ':' r)
  let (_, r) ← fixedAt 2 0 60 (← markAt ':' r)
  match r with
  | '.' :: d :: rest => if d.isDigit then return rest.dropWhile Char.isDigit else return r
  | r => return r

/-- an offset from UTC that may be at the front of a text -/
def skipOffset (cs : List Char) : Option (List Char) :=
  match cs with
  | 'Z' :: r => some r
  | 'z' :: r => some r
  | c :: r =>
    if c = '+' ∨ c = '-' then do
      let (_, r) ← fixedAt 2 0 23 r
      let (_, r) ← fixedAt 2 0 59 (← markAt ':' r)
      return r
    else some cs
  | [] => some []

/-- the name under which a date is a member of its value; no setting has it -/
def dateKey : String := "\x00date"

/-- a date with a time and an offset, a date with a time, a date alone or a time alone -/
def momentAt (cs : List Char) : Option (Json × List Char) := do
  let r ← match dateAt cs with
    | some r =>
      match r with
      | c :: t =>
        if c = 'T' ∨ c = 't' ∨ c = ' ' then
          match timeAt t with
          | some r => skipOffset r
          | none => if c = ' ' then some r else none
        else some r
      | [] => some []
    | none => timeAt cs
  return (.obj [(dateKey, .str (String.ofList (cs.take (cs.length - r.length))))], r)

def numericAt (cs : List Char) : Option (Json × List Char) :=
  (momentAt cs).or <| (floatAt cs).or <| (specialAt cs).or <| wholeAt cs

end Foreman.Toml
