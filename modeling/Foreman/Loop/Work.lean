/-
The work loop: intake, then rounds of plan, act, synthesize and evaluate, until a reason to stop comes up.

Planning makes todos of the goal, once, and of what agents suggest. Acting dispatches the todos that are ready, within the
budget of calls, and takes in what their tasks bring back. Synthesizing proposes to stop when agents ask for it or all work is
done. Evaluating decides: a spent budget goes before a proposal, standing still before a spent budget, too great a risk before
all. Standing still means that no new evidence came in; the loop sees it by a digest of the evidence.
-/
import Foreman.Loop.Basic

namespace Foreman

/-- the states of a work loop -/
inductive WorkState where
  | intake
  | plan
  | act
  | synthesize
  | evaluate
  | done
  | failed
deriving DecidableEq, Repr, Inhabited

namespace WorkState

def all : List WorkState := [.intake, .plan, .act, .synthesize, .evaluate, .done, .failed]

def name : WorkState → String
  | .intake => "INTAKE"
  | .plan => "PLAN"
  | .act => "ACT"
  | .synthesize => "SYNTHESIZE"
  | .evaluate => "EVALUATE"
  | .done => "DONE"
  | .failed => "FAILED"

instance : StateName WorkState := ⟨name⟩

end WorkState

/-- why a work loop stopped -/
inductive StopReason where
  | recommendationReady
  | blockingQuestion
  | budgetExhausted
  | stagnation
  | riskThreshold
  | humanRequired
deriving DecidableEq, Repr, Inhabited

namespace StopReason

def all : List StopReason :=
  [.recommendationReady, .blockingQuestion, .budgetExhausted, .stagnation, .riskThreshold, .humanRequired]

def name : StopReason → String
  | .recommendationReady => "recommendation-ready"
  | .blockingQuestion => "blocking-question"
  | .budgetExhausted => "budget-exhausted"
  | .stagnation => "stagnation"
  | .riskThreshold => "risk-threshold"
  | .humanRequired => "human-required"

end StopReason

/-- what a work loop knows -/
structure WorkContext where
  goal : String
  todos : TodoList
  /-- the evidence in order of arrival, without repetition -/
  evidence : List String
  ledger : Ledger
  iteration : Nat
  calls : Nat
  followUps : List String
  recommendation : Option String
  blockingQuestion : Option String
  needsHuman : Bool
  proposed : Option StopReason
  stopReason : Option StopReason
  /-- the digest of the evidence at the last evaluation -/
  fingerprint : Option (List UInt8)
  /-- how many evaluations in a row saw no new evidence -/
  stagnant : Nat
  /-- the next number for a minted id -/
  nextId : Nat

/-- the start of a work loop with a goal, changed files and todos -/
def WorkContext.start (goal : String) (changes : ChangeSet) (todos : List Todo) (nextId : Nat) : WorkContext :=
  ⟨goal, .ofList todos, [], .empty changes, 0, 0, [], none, none, false, none, none, none, 0, nextId⟩

/-- what a finished work loop leaves -/
structure WorkOutcome where
  stopReason : StopReason
  iterations : Nat
  calls : Nat
  evidence : List String
  findings : List Finding
  todos : List Todo
  history : List (Move WorkState)

namespace WorkLoop

/-! ## The machine -/

/-- entering a round of planning counts it -/
def countIteration : Hook WorkContext := fun c =>
  let n := c.data.iteration + 1
  ({ c with data := { c.data with iteration := n } }.setMeta "iteration" (.nat n), none)

/-- the moves of a work loop -/
def draft (id : String) : Draft WorkState WorkContext :=
  .ofParts id [
    .states WorkState.all,
    .transition .intake [.plan],
    .transition .plan [.act],
    .transition .act [.synthesize],
    .transition .synthesize [.evaluate],
    .transition .evaluate [.plan, .done],
    .fromAny .failed,
    .initial .intake,
    .onEnter .plan countIteration]

/-! ## Taking in what a task brings back -/

/-- evidence put last, unless it is there -/
def addEvidence (evidence : List String) (e : String) : List String :=
  if evidence.contains e then evidence else evidence ++ [e]

/-- the payload of a task taken in -/
def absorbPayload (c : WorkContext) (t : Task) (p : Payload) : WorkContext :=
  let fs := Finding.ofReports c.nextId p.findings t.subagent (some t.todoId)
  let (ledger, todos, retained) := Loop.record c.ledger c.todos fs
  { c with
    evidence := p.evidence.foldl addEvidence c.evidence
    ledger := ledger
    todos := todos.attach t.todoId retained
    followUps := c.followUps ++ p.followUps
    needsHuman := c.needsHuman || p.needsHuman
    blockingQuestion := p.blockingQuestion.or c.blockingQuestion
    recommendation := p.recommendation.or c.recommendation
    nextId := c.nextId + p.findings.length }

/-- a joined task taken in: one more call, its payload, and the end of its todo's turn -/
def absorb (s : WorkContext × Delegator) (t : Task) : WorkContext × Delegator :=
  let c := { s.1 with calls := s.1.calls + 1 }
  let c := match t.result with
    | some p => absorbPayload c t p
    | none => c
  let (todos, d) := Loop.settleTodo c.todos s.2 t
  ({ c with todos := todos }, d)

/-! ## Handlers -/

/-- planning: todos of the goal when there are none, and of what was suggested -/
def plan (c : WorkContext) : Option WorkContext := do
  let (todos, next) ←
    if c.todos.isEmpty then (Plan.ofGoal c.nextId c.goal).map fun ts => (c.todos.extend ts, c.nextId + ts.length)
    else some (c.todos, c.nextId)
  let (todos, next) := Loop.planFollowUps todos next c.followUps
  return { c with todos := todos, nextId := next, followUps := [] }

/-- acting: ready todos dispatched within the budget of calls -/
def dispatch (s : WorkSettings) (c : WorkContext) (d : Delegator) : WorkContext × Delegator :=
  let ready := c.todos.ready.take (s.maxSubagentCalls - c.calls)
  let (d, todos, next) := Loop.dispatch d c.todos c.nextId Todo.description ready
  ({ c with todos := todos, nextId := next }, d)

/-- synthesizing: a reason to stop that agents or the end of all work give -/
def propose (c : WorkContext) : Option StopReason :=
  if c.needsHuman then some .humanRequired
  else if c.blockingQuestion.isSome then some .blockingQuestion
  else if c.recommendation.isSome || (c.todos.unresolved == 0 && c.followUps.isEmpty) then some .recommendationReady
  else none

/-- the bytes of the evidence, a zero after each piece -/
def evidenceBytes (evidence : List String) : List UInt8 :=
  evidence.flatMap fun e => e.toUTF8.toList ++ [0]

/-- evaluating, first part: whether the evidence is still the same -/
def compareEvidence (digest : List UInt8 → List UInt8) (c : WorkContext) : WorkContext :=
  let current := digest (evidenceBytes c.evidence)
  { c with
    stagnant := if c.fingerprint = some current then c.stagnant + 1 else 0
    fingerprint := some current }

/-- whether a budget is spent after so many milliseconds -/
def isSpent (s : WorkSettings) (c : WorkContext) (elapsed : Nat) : Bool :=
  decide (s.maxIterations ≤ c.iteration) || decide (s.maxSubagentCalls ≤ c.calls) ||
    decide (s.maxWallClockMs ≤ elapsed)

/-- evaluating, second part: the reason to stop, the hard ones before what was proposed -/
def decideStop (s : WorkSettings) (c : WorkContext) (elapsed : Nat) : Option StopReason :=
  if s.maxRisk.lt c.ledger.maxRisk then some .riskThreshold
  else if s.stagnationThreshold ≤ c.stagnant then some .stagnation
  else if isSpent s c elapsed then some .budgetExhausted
  else c.proposed

/-! ## Running -/

/-- a work loop that runs: its machine, its delegator, the world, and all that its machine has sent out -/
structure Run (ω : Type) where
  machine : Machine WorkState WorkContext
  delegator : Delegator
  world : ω
  signals : List (Signal WorkState)

variable {ω : Type}

def Run.update (r : Run ω) (f : WorkContext → WorkContext) : Run ω :=
  { r with machine := r.machine.update fun c => { c with data := f c.data } }

/-- what is done in a state, and the state to go to -/
def handle (w : World ω) (digest : List UInt8 → List UInt8) (s : Settings) (r : Run ω) :
    Except LoopError (Run ω × WorkState) :=
  let c := r.machine.context.data
  match r.machine.state with
  | .intake =>
    if Text.allBlank c.goal then .error (.handler "INTAKE" "goal must not be empty")
    else .ok ({ r with machine := r.machine.update fun x => x.setMeta "goal" (.str c.goal) }, .plan)
  | .plan =>
    match plan c with
    | some c => .ok (r.update fun _ => c, .act)
    | none => .error .noPlan
  | .act =>
    let (c, d) := dispatch s.work c r.delegator
    let (world, d, tasks) := Loop.performAll w r.world d
    let (c, d) := tasks.foldl absorb (c, d)
    .ok ({ r with world := world, delegator := d }.update fun _ => c, .synthesize)
  | .synthesize => .ok (r.update fun c => { c with proposed := propose c }, .evaluate)
  | .evaluate =>
    let c := compareEvidence digest c
    match decideStop s.work c (w.clock r.world) with
    | some reason => .ok (r.update fun _ => { c with proposed := none, stopReason := some reason }, .done)
    | none => .ok (r.update fun _ => { c with proposed := none }, .plan)
  | .done => .ok (r, .done)
  | .failed => .error (.handler "FAILED" "machine is in the failure state")

def Run.moveTo (r : Run ω) (s : WorkState) : Except LoopError (Run ω) :=
  match r.machine.moveTo s with
  | .ok (m, signals) => .ok { r with machine := m, signals := r.signals ++ signals }
  | .error e => .error (.machine e)

/-- one handler and the move after it; an error comes with the run that it was met in -/
def step (w : World ω) (digest : List UInt8 → List UInt8) (s : Settings) (r : Run ω) :
    Except (LoopError × Run ω) (Run ω) :=
  match handle w digest s r with
  | .error e => .error (e, r)
  | .ok (handled, next) =>
    match handled.moveTo next with
    | .ok moved => .ok moved
    | .error e => .error (e, handled)

/-- steps until the loop is done, at most so many -/
def drive (w : World ω) (digest : List UInt8 → List UInt8) (s : Settings) :
    Nat → Run ω → Except (LoopError × Run ω) (Run ω)
  | 0, r => .ok r
  | fuel + 1, r =>
    if r.machine.state = .done then .ok r
    else match step w digest s r with
      | .ok r => drive w digest s fuel r
      | .error e => .error e

/-- more steps than a loop can take: intake, and four in each iteration -/
def stepBound (s : Settings) : Nat := 4 * s.work.maxIterations + 2

/-- the run after an error: its machine in the failure state, if it can go there -/
def Run.failed (r : Run ω) : Run ω := (r.moveTo .failed).toOption.getD r

def Run.outcome (r : Run ω) : Except LoopError WorkOutcome :=
  let c := r.machine.context.data
  match c.stopReason with
  | some reason => .ok ⟨reason, c.iteration, c.calls, c.evidence, c.ledger.findings, c.todos.items, r.machine.history⟩
  | none => .error (.handler "DONE" "loop finished without a stop reason")

def begin (s : Settings) (registry : Registry) (id : String) (observers : Nat) (hasStore : Bool) (c : WorkContext)
    (world : ω) : Except LoopError (Run ω) :=
  match s.validate, (draft id).check with
  | .error e, _ => .error (.settings e)
  | _, .error e => .error (.machine e)
  | .ok (), .ok d => .ok ⟨.start d hasStore observers c, .empty registry s.concurrencyCap, world, []⟩

/-- a whole run: its result, and the run at its end -/
def run (w : World ω) (digest : List UInt8 → List UInt8) (s : Settings) (r : Run ω) :
    Except LoopError WorkOutcome × Run ω :=
  match drive w digest s (stepBound s) r with
  | .ok r => (r.outcome, { r with delegator := r.delegator.abandon true })
  | .error (e, r) => (.error e, { r.failed with delegator := r.delegator.abandon true })

end WorkLoop

end Foreman
