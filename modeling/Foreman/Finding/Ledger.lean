/-
The findings that stand in a piece of work.

A finding is refused when its evidence is blank, when it lies outside the changed files, or when its id was accepted
before. Of the accepted findings with one signature the ledger keeps the most confident, the earliest among equals, in
the place of the first. Findings without a file have no signature and are all kept.
-/
import Foreman.Finding.Basic

namespace Foreman

/-- why a finding is refused -/
inductive Rejection where
  | emptyEvidence (id : Ident)
  | outOfScope (id : Ident) (file : String)
  | duplicateId (id : Ident)
deriving DecidableEq, Repr

def Rejection.message : Rejection → String
  | .emptyEvidence id => "finding " ++ id.text ++ " has no evidence"
  | .outOfScope id file =>
    "finding " ++ id.text ++ " references `" ++ file ++ "`, which is not part of the change set"
  | .duplicateId id => "finding " ++ id.text ++ " was already recorded"

/-- what became of an accepted finding -/
inductive Entry where
  | added
  /-- it displaced a less confident finding -/
  | replaced (previous : Ident)
  /-- it gave way to an equally or more confident finding -/
  | merged (kept : Ident)
deriving DecidableEq, Repr

/-- what became of a list of findings: the ids that now stand for the accepted ones, and who was displaced by whom -/
structure Outcome where
  retained : List Ident
  replaced : List (Ident × Ident)
deriving DecidableEq, Repr

/-- the standing findings, the ids of all accepted ones, and where each signature stands -/
structure Ledger where
  scope : ChangeSet
  seen : List Ident
  findings : List Finding
  bySignature : List (Signature × Nat)
  rejected : Nat
deriving Repr

namespace Ledger

def empty (scope : ChangeSet) : Ledger := ⟨scope, [], [], [], 0⟩

/-- the reason to refuse a finding -/
def objection? (l : Ledger) (f : Finding) : Option Rejection :=
  if Text.allBlank f.evidence then some (.emptyEvidence f.id)
  else match f.file with
    | some file =>
      if !l.scope.contains file then some (.outOfScope f.id file)
      else if l.seen.contains f.id then some (.duplicateId f.id)
      else none
    | none =>
      if !l.scope.mentionedIn f.evidence then some (.outOfScope f.id "<unspecified>")
      else if l.seen.contains f.id then some (.duplicateId f.id)
      else none

/-- an accepted finding put into the ledger -/
def enter (l : Ledger) (f : Finding) : Ledger × Entry :=
  let l := { l with seen := l.seen ++ [f.id] }
  match f.signature with
  | none => ({ l with findings := l.findings ++ [f] }, .added)
  | some s =>
    match (l.bySignature.lookup s).bind fun i => (l.findings[i]?).map fun g => (i, g) with
    | some (i, g) =>
      if g.confidence.lt f.confidence then ({ l with findings := l.findings.set i f }, .replaced g.id)
      else (l, .merged g.id)
    | none =>
      ({ l with
          findings := l.findings ++ [f],
          bySignature := l.bySignature ++ [(s, l.findings.length)] }, .added)

def offer (l : Ledger) (f : Finding) : Ledger × Except Rejection Entry :=
  match l.objection? f with
  | some r => ({ l with rejected := l.rejected + 1 }, .error r)
  | none => let (l, e) := l.enter f; (l, .ok e)

def Outcome.add (o : Outcome) (id : Ident) : Except Rejection Entry → Outcome
  | .ok .added => { o with retained := o.retained ++ [id] }
  | .ok (.replaced previous) => ⟨o.retained ++ [id], o.replaced ++ [(previous, id)]⟩
  | .ok (.merged kept) => { o with retained := o.retained ++ [kept] }
  | .error _ => o

def offerNext (s : Ledger × Outcome) (f : Finding) : Ledger × Outcome :=
  let (l, r) := s.1.offer f
  (l, Outcome.add s.2 f.id r)

def offerAll (l : Ledger) (fs : List Finding) : Ledger × Outcome := fs.foldl offerNext (l, ⟨[], []⟩)

def size (l : Ledger) : Nat := l.findings.length

/-- the greatest risk of a standing finding, zero if there is none -/
def maxRisk (l : Ledger) : Binary64 := (l.findings.map Finding.risk).foldl Binary64.max .zero

end Ledger

end Foreman
