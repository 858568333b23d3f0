/-
What is logged: filters, and where they come from.

A filter is a list of directives with commas between them. A directive is a level, or a target, a span in brackets or both,
with a level after `=`; without a level they have the finest one. The empty text is the filter without directives. The
filter of the environment goes before the configured one; a text that is no filter is passed over, and in the end there is
`info`.

Directives are kept with the more specific first: the longer target, of equally long ones the later in the alphabet, last the
one without target. Of two directives for the same thing the later counts.
-/
import Foreman.Text.Blank
import Foreman.Text.Letter
import Foreman.Text.Search

namespace Foreman

/-- how much is logged -/
inductive LogLevel where
  | off
  | error
  | warn
  | info
  | debug
  | trace
deriving DecidableEq, Repr, Inhabited

namespace LogLevel

def all : List LogLevel := [.off, .error, .warn, .info, .debug, .trace]

def name : LogLevel → String
  | .off => "off"
  | .error => "error"
  | .warn => "warn"
  | .info => "info"
  | .debug => "debug"
  | .trace => "trace"

/-- a number in digits, with a plus sign or without -/
def number? (word : List Char) : Option Nat :=
  let ds := match word with
    | '+' :: r => r
    | r => r
  if ds.isEmpty || !ds.all Char.isDigit then none
  else some (ds.foldl (fun n c => 10 * n + (c.toNat - 48)) 0)

/-- the level of a word in letters of either case, or of a number from 0 to 5 -/
def read? (word : List Char) : Option LogLevel :=
  match number? word with
  | some n => all[n]?
  | none => all.find? fun l => l.name.toList == word.map Char.toLower

end LogLevel

/-- a level for a target, for a span, for spans with a field, or for everything -/
structure Directive where
  target : Option String
  span : Option String
  field : Option String
  level : LogLevel
deriving DecidableEq, Repr

namespace Directive

/-! ## Reading

The grammar is that of the text without the blanks at its ends, but places are taken to be places of the whole text. So a
blank at an end belongs to the target or to the level, and such a level is none. -/

/-- whether a target may begin with a character -/
def startsTarget (c : Char) : Bool := Text.isLetterOrNumber c || c == '_' || c == ':' || c == '-'

/-- a part of a text from one place to another -/
def part (text : List Char) (start stop : Nat) : String := String.ofList ((text.drop start).take (stop - start))

/-- the level after a target or a span, which ends at a place -/
def levelAt (text : List Char) (place : Nat) : List Char → Option LogLevel
  | [] => some .trace
  | '=' :: _ =>
    let word := text.drop (place + 1)
    if word.isEmpty then some .trace else LogLevel.read? word
  | _ => none

/-- a span, with a field or without, which begins at a place -/
def spanAt (text : List Char) (target : Option String) (place : Nat) (cs : List Char) : Option Directive :=
  let name := cs.takeWhile fun c => c != ']' && c != '\x7b'
  let stop := place + name.length
  match cs.drop name.length with
  | ']' :: r => (levelAt text (stop + 1) r).map fun l => ⟨target, some (part text place stop), none, l⟩
  | '\x7b' :: r =>
    let field := r.takeWhile fun c => c != '\x7d'
    let close := stop + 1 + field.length
    match r.drop field.length with
    | '\x7d' :: ']' :: r =>
      if field.isEmpty then none
      else
        let span := if name.isEmpty then none else some (part text place stop)
        (levelAt text (close + 2) r).map fun l => ⟨target, span, some (part text (stop + 1) close), l⟩
    | _ => none
  | _ => none

def read? (text : List Char) : Option Directive :=
  match Text.trimChars text with
  | [] => none
  | '[' :: r => spanAt text none 1 r
  | c :: r =>
    let target := (c :: r).takeWhile fun c => c != '=' && c != '['
    let stop := target.length
    if !startsTarget c then none
    else match (c :: r).drop stop with
      | [] =>
        match LogLevel.read? text with
        | some l => some ⟨none, none, none, l⟩
        | none => some ⟨some (String.ofList text), none, none, .trace⟩
      | '[' :: r => spanAt text (some (part text 0 stop)) (stop + 1) r
      | r => (levelAt text stop r).map fun l => ⟨some (part text 0 stop), none, none, l⟩

/-! ## Text and order -/

def toText (d : Directive) : String :=
  let field := match d.field with
    | some f => "\x7b" ++ f ++ "\x7d"
    | none => ""
  let span := if d.span.isNone && d.field.isNone then "" else "[" ++ d.span.getD "" ++ field ++ "]"
  if d.target.isNone && span.isEmpty then d.level.name else d.target.getD "" ++ span ++ "=" ++ d.level.name

/-- the order of directives by what they are for, the less specific before the more specific -/
def order (d e : Directive) : Ordering :=
  (compare (d.target.map String.utf8ByteSize) (e.target.map String.utf8ByteSize)).then <|
    (compare d.span.isSome e.span.isSome).then <| (compare d.field.isSome e.field.isSome).then <|
    (compare d.target e.target).then <| (compare d.span e.span).then (compare d.field e.field)

/-- whether a directive depends on the span in which something is logged -/
def hasSpan (d : Directive) : Bool := d.span.isSome || d.field.isSome

/-- whether a directive says something about what is logged outside of spans; one with the value of a field does not -/
def hasDefault (d : Directive) : Bool := d.span.isNone && !(d.field.any fun f => f.toList.contains '=')

end Directive

/-- directives of both kinds, the more specific first -/
structure LogFilter where
  plain : List Directive
  spans : List Directive
deriving DecidableEq, Repr

namespace LogFilter

/-- the name under which the environment holds its filter -/
def variableName : String := "TASKFORGE_LOG"

/-- a directive put in its place -/
def insert (d : Directive) : List Directive → List Directive
  | [] => [d]
  | e :: r =>
    match d.order e with
    | .gt => d :: e :: r
    | .eq => d :: r
    | .lt => e :: insert d r

def arrange (ds : List Directive) : List Directive := ds.foldl (fun acc d => insert d acc) []

/-- a filter of directives; one with a field and no span counts on both sides -/
def ofDirectives (ds : List Directive) : LogFilter :=
  let spans := ds.filter Directive.hasSpan
  ⟨arrange ((ds.filter fun d => !d.hasSpan) ++ spans.filter Directive.hasDefault), arrange spans⟩

/-- the parts of a text between commas that are not empty -/
def partsOf (cs : List Char) : List (List Char) := (cs.splitOn ',').filter fun p => !p.isEmpty

def read? (s : String) : Option LogFilter := ((partsOf s.toList).mapM Directive.read?).map ofDirectives

def toText (f : LogFilter) : String := Text.joinWith "," ((f.plain ++ f.spans).map Directive.toText)

def atLevel (l : LogLevel) : LogFilter := ⟨[⟨none, none, none, l⟩], []⟩

/-- the filter that counts: of the environment, else the configured one, else `info` -/
def choose (environment : Option String) (level : String) : LogFilter :=
  ((environment.bind read?).or (read? level)).getD (atLevel .info)

end LogFilter

end Foreman
