/-
Todos from a goal in plain words.

The lines of a goal that are marked as list items become one todo each, if there are at least two. Otherwise the goal is
cut at conjunctions, if that gives at least two clauses. Otherwise it is one task, and three todos are made of it, each
depending on the one before: plan it, do it, verify it. A conjunction is looked for in the small letters of a clause and
the clause is cut after as many bytes, provided that small letters take as many bytes as the clause; such a cut may fall
inside a character, and then there is no plan.
-/
import Foreman.Text.Blank
import Foreman.Text.Case
import Foreman.Text.Search
import Foreman.Todo.Basic

namespace Foreman.Plan

open Text

/-! ## Wording -/

/-- words that make a todo urgent -/
def urgentWords : List String :=
  ["critical", "urgent", "block", "break", "crash", "security", "fix", "vulnerab"]

/-- words that let a todo wait -/
def minorWords : List String := ["doc", "readme", "comment", "format", "style", "typo", "rename"]

/-- whether one of the words occurs in the small letters of a text -/
def hasWord (words : List String) (cs : List Char) : Bool :=
  let small := lowerChars cs
  words.any fun w => occurs w.toList small

/-- the priority that the wording of a text asks for -/
def inferPriority (cs : List Char) : Priority :=
  if hasWord urgentWords cs then .high
  else if hasWord minorWords cs then .low
  else .medium

/-- a todo of its own for a text -/
def item (id : Ident) (description : String) : Todo :=
  let d := capitalizeChars (trimChars description.toList)
  .fresh id (String.ofList d) (inferPriority d)

/-! ## List items -/

/-- the text after the first full stop or closing parenthesis -/
def afterMark : List Char → Option (List Char)
  | [] => none
  | c :: r => if c = '.' ∨ c = ')' then some r else afterMark r

/-- what a line lists: the rest of a line that begins with a dash or star and a space; or, of a line of more than two
bytes that begins with a digit, what follows its first full stop or closing parenthesis, if that is not blank -/
def listed? (line : List Char) : Option (List Char) :=
  let t := trimChars line
  match t with
  | '-' :: ' ' :: r => some r
  | '*' :: ' ' :: r => some r
  | c :: _ =>
    if 2 < byteSize t ∧ c.isDigit then
      match afterMark t with
      | some r => let after := trimChars r; if after.isEmpty then none else some after
      | none => none
    else none
  | [] => none

/-- what the marked lines of a text list -/
def explicitItems (text : List Char) : List (List Char) := (lines text).filterMap listed?

/-! ## Conjunctions -/

/-- where a goal is cut, in the order in which the cuts are tried -/
def conjunctions : List String := [", then ", " and then ", " then ", " and "]

/-- a clause cut at the first occurrence of a conjunction; the sides lose their outer blanks, and a blank side is left
out; none when the cut falls inside a character -/
def cutOnce (conjunction clause : List Char) : Option (List (List Char)) :=
  let small := lowerChars clause
  match cut? conjunction small with
  | some (before, _) =>
    if byteSize small = byteSize clause then do
      let (left, rest) ← splitBytes? (byteSize before) clause
      let (_, right) ← splitBytes? (byteSize conjunction) rest
      return [trimChars left, trimChars right].filter fun s => !s.isEmpty
    else some [clause]
  | none => some [clause]

/-- every clause of a list cut once at a conjunction -/
def cutEach (clauses : List (List Char)) (conjunction : List Char) : Option (List (List Char)) :=
  (clauses.mapM (cutOnce conjunction)).map List.flatten

def clauses? (text : List Char) : Option (List (List Char)) :=
  conjunctions.foldlM (fun parts c => cutEach parts c.toList) [text]

/-! ## Plans -/

/-- todos for clauses, numbered from `next` on; blank clauses are left out -/
def ofClauses (next : Nat) (parts : List (List Char)) : List Todo :=
  ((parts.map trimChars).filter fun c => !c.isEmpty).mapIdx fun i c =>
    .fresh (.minted (next + i)) (String.ofList (capitalizeChars c)) (inferPriority c)

/-- the three todos of a single task -/
def chain (next : Nat) (task : List Char) : List Todo :=
  let description := String.ofList task
  let plan := Todo.fresh (.minted next) ("Plan approach for: " ++ description) .high
  let work := Todo.fresh (.minted (next + 1)) description (inferPriority task)
  let verify := Todo.fresh (.minted (next + 2)) "Verify changes and run tests" .medium
  [plan, { work with dependsOn := [plan.id] }, { verify with dependsOn := [work.id] }]

/-- the todos for a goal, with ids minted from `next` on; none when a cut falls inside a character -/
def ofGoal (next : Nat) (goal : String) : Option (List Todo) :=
  let text := goal.toList
  let explicit := explicitItems text
  if 2 ≤ explicit.length then some (ofClauses next explicit)
  else (clauses? text).map fun parts =>
    if 2 ≤ parts.length then ofClauses next parts
    else
      let task := capitalizeChars (trimChars text)
      if task.isEmpty then [] else chain next task

end Foreman.Plan
