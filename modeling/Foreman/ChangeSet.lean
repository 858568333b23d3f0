/-
The files that a piece of work may touch.

Paths are compared in a normal form: no blanks at the ends, `/` for `\`, no leading `./`. A change set holds the
distinct normal forms that are not empty, ascending.
-/
import Foreman.Names
import Foreman.Text.Blank
import Foreman.Text.Search

namespace Foreman

/-- a path without its leading `./`, taken off as often as it stands there -/
def dropHere : List Char → List Char
  | '.' :: '/' :: r => dropHere r
  | cs => cs

/-- backslashes turned into slashes -/
def forwardSlashes (cs : List Char) : List Char := cs.map fun c => if c = '\\' then '/' else c

def normalizePath (p : String) : String :=
  String.ofList (dropHere (forwardSlashes (Text.trimChars p.toList)))

/-- the changed files: normal forms, distinct, ascending -/
structure ChangeSet where
  files : List String
deriving DecidableEq, Repr

namespace ChangeSet

/-- the change set of a list of paths; paths with an empty normal form are dropped -/
def ofList (paths : List String) : ChangeSet :=
  ⟨Names.ofList ((paths.map normalizePath).filter fun p => !p.isEmpty)⟩

/-- whether the normal form of a path is in the set -/
def contains (s : ChangeSet) (path : String) : Bool := s.files.contains (normalizePath path)

/-- whether a text names a file of the set, with either kind of slash -/
def mentionedIn (s : ChangeSet) (text : String) : Bool :=
  s.files.any fun f => Text.occurs f.toList (forwardSlashes text.toList)

def size (s : ChangeSet) : Nat := s.files.length

def isEmpty (s : ChangeSet) : Bool := s.files.isEmpty

end ChangeSet

end Foreman
