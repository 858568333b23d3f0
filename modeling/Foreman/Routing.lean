/-
Which subagent gets a piece of work.

Every kind of subagent has weighted keywords. A description scores, for each kind, the weights of the keywords that occur
in its small letters, each counted once. The kind with the greatest score gets the work, the first declared among equals;
a description without a keyword goes to the fallback. A registry binds kinds to an agent's name and to the resource that
guards its calls.
-/
import Foreman.Failure
import Foreman.Text.Case
import Foreman.Text.Search

namespace Foreman

/-- the kinds of subagents, in the order in which they are declared -/
inductive SubagentKind where
  | securityAudit
  | codeReview
  | testing
  | refactoring
  | documentation
  | bugFix
  | implementation
deriving DecidableEq, Repr, Inhabited

namespace SubagentKind

def all : List SubagentKind :=
  [.securityAudit, .codeReview, .testing, .refactoring, .documentation, .bugFix, .implementation]

def name : SubagentKind → String
  | .securityAudit => "security_audit"
  | .codeReview => "code_review"
  | .testing => "testing"
  | .refactoring => "refactoring"
  | .documentation => "documentation"
  | .bugFix => "bug_fix"
  | .implementation => "implementation"

def keywords : SubagentKind → List (String × Nat)
  | .securityAudit => [("security", 10), ("vulnerab", 10), ("inject", 8), ("auth", 5), ("secret", 7)]
  | .codeReview => [("review", 10), ("audit", 5), ("inspect", 5)]
  | .testing => [("test", 10), ("spec", 5), ("verify", 5)]
  | .refactoring => [("refactor", 10), ("clean up", 5)]
  | .documentation => [("doc", 10), ("readme", 5)]
  | .bugFix => [("fix", 10), ("bug", 10), ("debug", 7), ("error", 5)]
  | .implementation => [("implement", 5), ("add", 3), ("create", 5), ("build", 5)]

/-- the total weight of the keywords of a kind that occur in a text in small letters -/
def score (small : List Char) (k : SubagentKind) : Nat :=
  k.keywords.foldl (fun n w => if Text.occurs w.1.toList small then n + w.2 else n) 0

/-- the better of a best kind so far and another one: the other must score more -/
def better (small : List Char) (best : Option SubagentKind) (k : SubagentKind) : Option SubagentKind :=
  match best with
  | none => if 0 < k.score small then some k else none
  | some b => if b.score small < k.score small then some k else some b

/-- the kind for a description -/
def route (description : String) (fallback : SubagentKind) : SubagentKind :=
  (all.foldl (better (Text.lowerChars description.toList)) none).getD fallback

end SubagentKind

/-- where the work of one kind goes: the agent's name, and the resource that guards its calls -/
structure Binding where
  kind : SubagentKind
  name : String
  resource : String
deriving DecidableEq, Repr

/-- the bindings by kind, and the kind of descriptions without a keyword -/
structure Registry where
  binding : SubagentKind → Option Binding
  fallback : SubagentKind

namespace Registry

def empty : Registry := ⟨fun _ => none, .implementation⟩

def standard : Registry := ⟨fun k => some ⟨k, k.name, "agent:" ++ k.name⟩, .implementation⟩

instance : Inhabited Registry := ⟨standard⟩

/-- a kind bound to an agent, in place of the binding that it has -/
def bind (r : Registry) (kind : SubagentKind) (name resource : String) : Registry :=
  { r with binding := fun k => if k = kind then some ⟨kind, name, resource⟩ else r.binding k }

def withFallback (r : Registry) (kind : SubagentKind) : Registry := { r with fallback := kind }

/-- the bindings, in the order in which the kinds are declared -/
def bindings (r : Registry) : List Binding := SubagentKind.all.filterMap r.binding

def kinds (r : Registry) : List SubagentKind := SubagentKind.all.filter fun k => (r.binding k).isSome

def byName (r : Registry) (name : String) : Except DelegationError Binding :=
  match r.bindings.find? (·.name == name) with
  | some b => .ok b
  | none => .error (.unknownSubagent name)

/-- the binding for a description: of its kind, else of the fallback -/
def route (r : Registry) (description : String) : Except DelegationError Binding :=
  let kind := SubagentKind.route description r.fallback
  match (r.binding kind).or (r.binding r.fallback) with
  | some b => .ok b
  | none => .error (.unknownSubagent kind.name)

end Registry

end Foreman
