/-
The review loop: explore, then rounds of delegating and reviewing, then the verdict.

Exploring loads the changed files, makes one todo for each when none are given, and offers the findings of the scanners.
Each round dispatches all todos that are ready and takes in what their tasks bring back. Another round follows as long as work
is left and rounds are left; a guard on the machine holds the number of rounds as well.
-/
import Foreman.Assessment
import Foreman.Loop.Basic

namespace Foreman

/-- the states of a review -/
inductive ReviewState where
  | idle
  | exploring
  | delegating
  | reviewing
  | creatingTasks
  | assessing
  | completed
  | failed
deriving DecidableEq, Repr, Inhabited

namespace ReviewState

def all : List ReviewState :=
  [.idle, .exploring, .delegating, .reviewing, .creatingTasks, .assessing, .completed, .failed]

def name : ReviewState → String
  | .idle => "IDLE"
  | .exploring => "INITIAL_EXPLORATION"
  | .delegating => "DELEGATING_INVESTIGATION"
  | .reviewing => "REVIEWING_RESULTS"
  | .creatingTasks => "CREATING_REVIEW_TASKS"
  | .assessing => "FINAL_ASSESSMENT"
  | .completed => "COMPLETED"
  | .failed => "FAILED"

instance : StateName ReviewState := ⟨name⟩

end ReviewState

/-- what a review knows -/
structure ReviewContext where
  description : String
  changes : ChangeSet
  todos : TodoList
  ledger : Ledger
  iteration : Nat
  followUps : List String
  failedTasks : Nat
  assessment : Option Assessment
  /-- the next number for a minted id -/
  nextId : Nat

/-- the start of a review with a description and todos -/
def ReviewContext.start (description : String) (todos : List Todo) (nextId : Nat) : ReviewContext :=
  ⟨description, ⟨[]⟩, .ofList todos, .empty ⟨[]⟩, 0, [], 0, none, nextId⟩

/-- a static analysis: its name and what it reports on changed files, or nothing when it fails -/
structure Scanner where
  name : String
  scan : ChangeSet → Option (List Report)

/-- where the changed files come from; the error is a list of causes, the outermost first -/
abbrev ChangeSource := Except (List String) ChangeSet

namespace ReviewLoop

/-! ## The machine -/

/-- entering a round counts it -/
def countIteration : Hook ReviewContext := fun c =>
  let n := c.data.iteration + 1
  ({ c with data := { c.data with iteration := n } }.setMeta "iteration" (.nat n), none)

/-- the moves of a review with at most so many rounds -/
def draft (id : String) (maxIterations : Nat) : Draft ReviewState ReviewContext :=
  .ofParts id [
    .states ReviewState.all,
    .transition .idle [.exploring],
    .transition .exploring [.delegating],
    .transition .delegating [.reviewing],
    .transition .reviewing [.creatingTasks, .assessing],
    .transition .creatingTasks [.delegating],
    .transition .assessing [.completed],
    .fromAny .failed,
    .initial .idle,
    .guard ⟨.creatingTasks, .delegating, "iteration-budget", fun c => decide (c.data.iteration < maxIterations)⟩,
    .onEnter .delegating countIteration]

/-! ## Handlers -/

/-- the findings of a scanner offered to the ledger -/
def scan (c : ReviewContext) (s : Scanner) : ReviewContext :=
  match s.scan c.changes with
  | none => c
  | some reports =>
    let (ledger, todos, _) := Loop.record c.ledger c.todos (Finding.ofReports c.nextId reports s.name none)
    { c with ledger := ledger, todos := todos, nextId := c.nextId + reports.length }

/-- a todo for each changed file, numbered from `next` on -/
def todosFor (next : Nat) (changes : ChangeSet) : List Todo :=
  changes.files.mapIdx fun i f => .fresh (.minted (next + i)) ("Security review of " ++ f) .high

/-- exploring: the scope, the todos and the scanners -/
def explore (scanners : List Scanner) (changes : ChangeSet) (c : ReviewContext) : ReviewContext :=
  let c := { c with changes := changes, ledger := .empty changes }
  let c :=
    if c.todos.isEmpty then
      { c with todos := c.todos.extend (todosFor c.nextId changes), nextId := c.nextId + changes.size }
    else c
  scanners.foldl scan c

/-- what a subagent is told to do about a todo -/
def instructions (c : ReviewContext) (t : Todo) : String :=
  t.description ++ "\n\nContext: " ++ c.description ++ "\n\nChanged files:\n- " ++
    Text.joinWith "\n- " c.changes.files

/-- delegating: all ready todos dispatched -/
def dispatch (c : ReviewContext) (d : Delegator) : ReviewContext × Delegator :=
  let (d, todos, next) := Loop.dispatch d c.todos c.nextId (instructions c) c.todos.ready
  ({ c with todos := todos, nextId := next }, d)

/-- the payload of a task taken in -/
def collectPayload (c : ReviewContext) (t : Task) (p : Payload) : ReviewContext :=
  let fs := Finding.ofReports c.nextId p.findings t.subagent (some t.todoId)
  let (ledger, todos, retained) := Loop.record c.ledger c.todos fs
  { c with
    ledger := ledger
    todos := todos.attach t.todoId retained
    followUps := c.followUps ++ p.followUps
    nextId := c.nextId + p.findings.length }

/-- a joined task taken in -/
def collect (s : ReviewContext × Delegator) (t : Task) : ReviewContext × Delegator :=
  let c := match t.result with
    | some p => collectPayload s.1 t p
    | none => { s.1 with failedTasks := s.1.failedTasks + 1 }
  let (todos, d) := Loop.settleTodo c.todos s.2 t
  ({ c with todos := todos }, d)

/-- whether todos or suggestions are left -/
def workLeft (c : ReviewContext) : Bool := decide (0 < c.todos.unresolved) || !c.followUps.isEmpty

/-- todos for what was suggested -/
def createTasks (c : ReviewContext) : ReviewContext :=
  let (todos, next) := Loop.planFollowUps c.todos c.nextId c.followUps
  { c with todos := todos, nextId := next, followUps := [] }

/-! ## Running -/

/-- a review that runs: its machine, its delegator, the world, and all that its machine has sent out -/
structure Run (ω : Type) where
  machine : Machine ReviewState ReviewContext
  delegator : Delegator
  world : ω
  signals : List (Signal ReviewState)

variable {ω : Type}

def Run.update (r : Run ω) (f : ReviewContext → ReviewContext) : Run ω :=
  { r with machine := r.machine.update fun c => { c with data := f c.data } }

/-- what a review is made of, apart from its settings -/
structure Brief where
  changes : ChangeSource
  scanners : List Scanner

/-- what is done in a state, and the state to go to -/
def handle (w : World ω) (s : Settings) (b : Brief) (r : Run ω) : Except LoopError (Run ω × ReviewState) :=
  let c := r.machine.context.data
  match r.machine.state with
  | .idle => .ok (r, .exploring)
  | .exploring =>
    match b.changes with
    | .error causes => .error (.handler "INITIAL_EXPLORATION" (Text.joinWith ": " causes))
    | .ok changes => .ok (r.update (explore b.scanners changes), .delegating)
  | .delegating =>
    let (c, d) := dispatch c r.delegator
    .ok ({ r with delegator := d }.update fun _ => c, .reviewing)
  | .reviewing =>
    let (world, d, tasks) := Loop.performAll w r.world r.delegator
    let (c, d) := tasks.foldl collect (c, d)
    let next := if workLeft c && decide (c.iteration < s.review.maxIterations) then .creatingTasks else .assessing
    .ok ({ r with world := world, delegator := d }.update fun _ => c, next)
  | .creatingTasks => .ok (r.update createTasks, .delegating)
  | .assessing =>
    let verdict := Assessment.ofFindings c.ledger.findings s.review.confidenceThreshold
    .ok (r.update fun c => { c with assessment := some verdict }, .completed)
  | .completed => .ok (r, .completed)
  | .failed => .error (.handler "FAILED" "machine is in the failure state")

def Run.moveTo (r : Run ω) (s : ReviewState) : Except LoopError (Run ω) :=
  match r.machine.moveTo s with
  | .ok (m, signals) => .ok { r with machine := m, signals := r.signals ++ signals }
  | .error e => .error (.machine e)

/-- one handler and the move after it; an error comes with the run that it was met in -/
def step (w : World ω) (s : Settings) (b : Brief) (r : Run ω) : Except (LoopError × Run ω) (Run ω) :=
  match handle w s b r with
  | .error e => .error (e, r)
  | .ok (handled, next) =>
    match handled.moveTo next with
    | .ok moved => .ok moved
    | .error e => .error (e, handled)

/-- steps until the review is completed, at most so many -/
def drive (w : World ω) (s : Settings) (b : Brief) : Nat → Run ω → Except (LoopError × Run ω) (Run ω)
  | 0, r => .ok r
  | fuel + 1, r =>
    if r.machine.state = .completed then .ok r
    else match step w s b r with
      | .ok r => drive w s b fuel r
      | .error e => .error e

/-- more steps than a review can take: three in each round, and four around them -/
def stepBound (s : Settings) : Nat := 3 * s.review.maxIterations + 4

/-- the run after an error: its machine in the failure state, if it can go there -/
def Run.failed (r : Run ω) : Run ω := (r.moveTo .failed).toOption.getD r

def Run.outcome (r : Run ω) : Except LoopError Assessment :=
  match r.machine.context.data.assessment with
  | some a => .ok a
  | none => .error (.handler "COMPLETED" "review completed without an assessment")

def begin (s : Settings) (registry : Registry) (id : String) (observers : Nat) (hasStore : Bool) (c : ReviewContext)
    (world : ω) : Except LoopError (Run ω) :=
  match s.validate, (draft id s.review.maxIterations).check with
  | .error e, _ => .error (.settings e)
  | _, .error e => .error (.machine e)
  | .ok (), .ok d => .ok ⟨.start d hasStore observers c, .empty registry s.concurrencyCap, world, []⟩

/-- a whole run: its verdict, and the run at its end -/
def run (w : World ω) (s : Settings) (b : Brief) (r : Run ω) : Except LoopError Assessment × Run ω :=
  match drive w s b (stepBound s) r with
  | .ok r => (r.outcome, { r with delegator := r.delegator.abandon true })
  | .error (e, r) => (.error e, { r.failed with delegator := r.delegator.abandon true })

end ReviewLoop

end Foreman
