/-
What a work loop does from one boundary to the next.

The moves that handlers choose are allowed and have no guards, so no move of a work loop is ever refused: a step is a
handler and the move that it chose, and only the handlers of intake and planning can end a run with an error. Each of
the following lemmas says for one state what the next boundary has, so that later proofs need not open a handler.

Results:
- `next_intake`, `next_plan`, `next_act`, `next_synthesize`, `next_evaluate`: one step, by state.
- `next_still`: all steps but acting, for what no other step changes.
- `steady`: a failed run stays as it is.
- `boundary_succ`, `along`, `drive_eq`: from steps to boundaries.
-/
import Foreman.Proofs.Loop.Boundary
import Foreman.Proofs.Loop.WorkLinks
import Foreman.Proofs.Machine.Trail

namespace Foreman.WorkLoop

/-! ## The rules -/

def table : List (WorkState × WorkState) :=
  [(.intake, .plan), (.plan, .act), (.act, .synthesize), (.synthesize, .evaluate), (.evaluate, .plan),
    (.evaluate, .done), (.intake, .failed), (.plan, .failed), (.act, .failed), (.synthesize, .failed),
    (.evaluate, .failed), (.done, .failed)]

/-- the definition of a work loop's machine -/
def rules (id : String) : Definition WorkState WorkContext :=
  ⟨id, WorkState.all, .intake, table, [(.plan, countIteration)], [], []⟩

theorem draft_eq (id : String) : draft id =
    ⟨id, WorkState.all,
      [(.intake, .plan), (.plan, .act), (.act, .synthesize), (.synthesize, .evaluate), (.evaluate, .plan),
        (.evaluate, .done)],
      [.failed], some .intake, [(.plan, countIteration)], [], []⟩ := rfl

theorem draft_check (id : String) : (draft id).check = .ok (rules id) := by
  rw [draft_eq]
  rfl

variable {ω : Type} {w : World ω} {digest : List UInt8 → List UInt8} {s : Settings}

/-- the run's machine has the rules of a work loop, under an id -/
def Ruled (machineId : String) (r : Run ω) : Prop := r.machine.definition = rules machineId

variable {machineId : String}

theorem Ruled.free {r : Run ω} (h : Ruled machineId r) {next : WorkState} (hn : (r.machine.state, next) ∈ table) :
    r.machine.Free next := by
  unfold Ruled at h
  constructor
  · rw [h]
    simpa [Definition.allows, rules] using hn
  · rw [h]
    simp [Definition.guardsFor, rules]

/-! ## Moves -/

def Run.moved (r : Run ω) (next : WorkState) : Run ω :=
  { r with
    machine := r.machine.moved next
    signals := r.signals ++ (r.machine.moved next).signals ⟨r.machine.id, r.machine.state, next⟩ }

theorem Ruled.moveTo {r : Run ω} (h : Ruled machineId r) {next : WorkState} (hn : (r.machine.state, next) ∈ table) :
    r.moveTo next = .ok (r.moved next) := by
  simp [Run.moveTo, Machine.moveTo_free (h.free hn), Run.moved]

theorem Ruled.moved {r : Run ω} (h : Ruled machineId r) (next : WorkState) : Ruled machineId (r.moved next) := h

/-- entering a round of planning counts it; no other move changes the context -/
theorem Ruled.moved_data {r : Run ω} (h : Ruled machineId r) (next : WorkState) :
    (r.moved next).machine.context.data =
      if next = .plan then { r.machine.context.data with iteration := r.machine.context.data.iteration + 1 }
      else r.machine.context.data := by
  unfold Ruled at h
  have hexit : Definition.hooksFor r.machine.definition.onExit r.machine.state = [] := by rw [h]; rfl
  have henter : Definition.hooksFor r.machine.definition.onEnter next =
      if next = .plan then [countIteration] else [] := by
    rw [h]
    cases next <;> rfl
  simp only [Run.moved, Machine.moved, hexit, henter]
  split_ifs <;> rfl

@[simp] theorem moved_state (r : Run ω) (next : WorkState) : (r.moved next).machine.state = next := rfl

/-! ## Starts -/

def started (s : Settings) (registry : Registry) (id : String) (observers : Nat) (hasStore : Bool) (c : WorkContext)
    (world : ω) : Run ω :=
  ⟨.start (rules id) hasStore observers c, .empty registry s.concurrencyCap, world, []⟩

theorem begin_ok (hs : s.validate = .ok ()) (registry : Registry) (id : String) (observers : Nat) (hasStore : Bool)
    (c : WorkContext) (world : ω) :
    begin s registry id observers hasStore c world = .ok (started s registry id observers hasStore c world) := by
  simp [begin, hs, draft_check, started]

theorem begin_started {registry : Registry} {id : String} {observers : Nat} {hasStore : Bool} {c : WorkContext}
    {world : ω} {r : Run ω} (h : begin s registry id observers hasStore c world = .ok r) :
    s.validate = .ok () ∧ r = started s registry id observers hasStore c world := by
  cases hs : s.validate with
  | ok u =>
    rw [begin_ok hs] at h
    cases h
    exact ⟨rfl, rfl⟩
  | error e =>
    simp [begin, hs] at h

theorem started_ruled (s : Settings) (registry : Registry) (id : String) (observers : Nat) (hasStore : Bool)
    (c : WorkContext) (world : ω) : Ruled id (started s registry id observers hasStore c world) := rfl

/-! ## Handlers and steps -/

/-- a handler names a move of the table, and changes nothing of the machine but its context -/
theorem handle_frame {r r' : Run ω} {next : WorkState} (h : handle w digest s r = .ok (r', next))
    (hd : r.machine.state ≠ .done) :
    (r.machine.state, next) ∈ table ∧ r'.machine = { r.machine with context := r'.machine.context } := by
  unfold handle at h
  cases hs : r.machine.state <;> simp only [hs] at h
  case intake =>
    split_ifs at h
    cases h
    exact ⟨by decide, rfl⟩
  case plan =>
    cases hp : plan r.machine.context.data <;> simp only [hp] at h <;> cases h
    exact ⟨by decide, rfl⟩
  case act =>
    cases h
    exact ⟨by decide, rfl⟩
  case synthesize =>
    cases h
    exact ⟨by decide, rfl⟩
  case evaluate =>
    split at h <;> cases h <;> exact ⟨by decide, rfl⟩
  case done => exact absurd hs hd
  case failed => cases h

theorem Ruled.handle {r r' : Run ω} {next : WorkState} (hr : Ruled machineId r)
    (h : handle w digest s r = .ok (r', next)) (hd : r.machine.state ≠ .done) : Ruled machineId r' := by
  have hm := (handle_frame h hd).2
  unfold Ruled at hr ⊢
  rw [hm]
  exact hr

/-- the boundary after a boundary -/
def next (w : World ω) (digest : List UInt8 → List UInt8) (s : Settings) : Run ω → Run ω := (cycle w digest s).next

/-- **A step is a handler and the move that it chose.** -/
theorem step_ok {r r' : Run ω} {target : WorkState} (hr : Ruled machineId r) (hd : r.machine.state ≠ .done)
    (h : handle w digest s r = .ok (r', target)) : (cycle w digest s).step r = .ok (r'.moved target) := by
  obtain ⟨hallowed, hm⟩ := handle_frame h hd
  have hmove : r'.moveTo target = .ok (r'.moved target) := by
    refine (hr.handle h hd).moveTo ?_
    rw [hm]
    exact hallowed
  simp [Loop.Cycle.step, cycle, h, hmove]

theorem next_ok {r r' : Run ω} {target : WorkState} (hr : Ruled machineId r) (hd : r.machine.state ≠ .done)
    (h : handle w digest s r = .ok (r', target)) : next w digest s r = r'.moved target :=
  Loop.Cycle.next_ok (by simpa [cycle] using hd) (step_ok hr hd h)

theorem next_error {r : Run ω} {e : LoopError} (hr : Ruled machineId r) (hs : r.machine.state ≠ .done)
    (hf : r.machine.state ≠ .failed) (h : handle w digest s r = .error e) : next w digest s r = r.moved .failed := by
  have hallowed : (r.machine.state, WorkState.failed) ∈ table := by
    cases hstate : r.machine.state <;> first | decide | exact absurd hstate hf
  have hstep : (cycle w digest s).step r = .error (e, r) := by simp [Loop.Cycle.step, cycle, h]
  refine (Loop.Cycle.next_error (by simpa [cycle] using hs) hstep).trans ?_
  simp [Loop.Cycle.fail, cycle, hr.moveTo hallowed, Except.toOption]

theorem next_done {r : Run ω} (h : r.machine.state = .done) : next w digest s r = r :=
  Loop.Cycle.next_done (by simp [cycle, h])

/-- a failed run stays: its handler has an error, and it is in its failure state already -/
theorem next_failed {r : Run ω} (hr : Ruled machineId r) (h : r.machine.state = .failed) : next w digest s r = r := by
  have hstep : (cycle w digest s).step r = .error (.handler "FAILED" "machine is in the failure state", r) := by
    simp [Loop.Cycle.step, cycle, handle, h]
  obtain ⟨e, he⟩ : ∃ e, r.machine.moveTo WorkState.failed = .error e := by
    apply Machine.moveTo_refused
    unfold Ruled at hr
    rw [hr, h]
    rfl
  refine (Loop.Cycle.next_error (by simp [cycle, h]) hstep).trans ?_
  simp [Loop.Cycle.fail, cycle, Run.moveTo, he, Except.toOption]

theorem Ruled.next {r : Run ω} (hr : Ruled machineId r) : Ruled machineId (next w digest s r) := by
  by_cases hd : r.machine.state = .done
  · rwa [next_done hd]
  by_cases hf : r.machine.state = .failed
  · rwa [next_failed hr hf]
  cases h : WorkLoop.handle w digest s r with
  | ok p => exact next_ok hr hd h ▸ (hr.handle h hd).moved p.2
  | error e => exact next_error hr hd hf h ▸ hr.moved .failed

theorem next_state_of_error {r : Run ω} {e : LoopError × Run ω} (hr : Ruled machineId r) (hd : r.machine.state ≠ .done)
    (hs : (cycle w digest s).step r = .error e) : (next w digest s r).machine.state = .failed := by
  by_cases hf : r.machine.state = .failed
  · rwa [next_failed hr hf]
  cases h : handle w digest s r with
  | ok p =>
    rw [step_ok hr hd h] at hs
    cases hs
  | error e => rw [next_error hr hd hf h, moved_state]

/-- **A run that has failed stays as it is.** -/
theorem steady : (cycle w digest s).Steady (Ruled machineId) where
  next := fun _ hr => hr.next
  stuck := fun r e hr hnot hs => by
    have hd : r.machine.state ≠ .done := by simpa [cycle] using hnot
    rw [← Loop.Cycle.next_error hnot hs]
    exact next_failed hr.next (next_state_of_error hr hd hs)

variable (w digest s)

/-! ## Boundaries -/

/-- **Each boundary comes from the one before.** -/
theorem boundary_succ {r : Run ω} (hr : Ruled machineId r) (n : Nat) :
    boundary w digest s (n + 1) r = next w digest s (boundary w digest s n r) := by
  rw [boundary_eq, boundary_eq]
  exact steady.boundary_succ n hr

theorem Ruled.boundary {r : Run ω} (hr : Ruled machineId r) (n : Nat) : Ruled machineId (boundary w digest s n r) := by
  induction n with
  | zero => exact hr
  | succ n ih =>
    rw [boundary_succ w digest s hr]
    exact ih.next

/-- **What every step keeps holds on every boundary.** -/
theorem along {P : Nat → Run ω → Prop} {r : Run ω} (hr : Ruled machineId r) (h0 : P 0 r)
    (hn : ∀ n q, Ruled machineId q → P n q → P (n + 1) (next w digest s q)) (n : Nat) :
    P n (boundary w digest s n r) := by
  rw [boundary_eq]
  exact (steady.along hr h0 hn n).2

theorem boundary_done {n m : Nat} (hnm : n ≤ m) {r : Run ω} (hr : Ruled machineId r)
    (hd : (boundary w digest s n r).machine.state = .done) :
    boundary w digest s m r = boundary w digest s n r := by
  rw [boundary_eq] at hd ⊢
  rw [boundary_eq]
  exact steady.boundary_done hnm hr (by simpa [cycle] using hd)

theorem drive_eq {n : Nat} {r : Run ω} (hr : Ruled machineId r)
    (hf : (boundary w digest s n r).machine.state ≠ .failed) :
    drive w digest s n r = .ok (boundary w digest s n r) := by
  rw [boundary_eq] at hf ⊢
  rw [← cycle_drive]
  refine steady.drive_eq (fun q => q.machine.state = .failed) (fun q e hq hnot hstep => ?_) hr hf
  exact next_state_of_error hq (by simpa [cycle] using hnot) hstep

/-! ## One step, by state -/

/-- where a run stands: its state, what it knows, its delegator and its world -/
structure Run.At (r : Run ω) (state : WorkState) (c : WorkContext) (d : Delegator) (world : ω) : Prop where
  state : r.machine.state = state
  data : r.machine.context.data = c
  delegator : r.delegator = d
  world : r.world = world

theorem Ruled.at_moved {r : Run ω} (h : Ruled machineId r) {next : WorkState} (hn : next ≠ .plan) :
    (r.moved next).At next r.machine.context.data r.delegator r.world :=
  ⟨rfl, by rw [h.moved_data, if_neg hn], rfl, rfl⟩

theorem Ruled.at_plan {r : Run ω} (h : Ruled machineId r) :
    (r.moved .plan).At .plan { r.machine.context.data with iteration := r.machine.context.data.iteration + 1 }
      r.delegator r.world :=
  ⟨rfl, by rw [h.moved_data, if_pos rfl], rfl, rfl⟩

theorem next_intake {r : Run ω} (hr : Ruled machineId r) (hs : r.machine.state = .intake)
    (hg : Text.allBlank r.machine.context.data.goal = false) :
    (next w digest s r).At .plan { r.machine.context.data with iteration := r.machine.context.data.iteration + 1 }
      r.delegator r.world := by
  have hd : r.machine.state ≠ .done := by simp [hs]
  have h : handle w digest s r = .ok
      ({ r with machine := r.machine.update fun x => x.setMeta "goal" (.str r.machine.context.data.goal) }, .plan) := by
    simp [handle, hs, hg]
  rw [next_ok hr hd h]
  exact (hr.handle h hd).at_plan

theorem next_blank {r : Run ω} (hr : Ruled machineId r) (hs : r.machine.state = .intake)
    (hg : Text.allBlank r.machine.context.data.goal = true) :
    (next w digest s r).At .failed r.machine.context.data r.delegator r.world := by
  have h : handle w digest s r = .error (.handler "INTAKE" "goal must not be empty") := by simp [handle, hs, hg]
  rw [next_error hr (by simp [hs]) (by simp [hs]) h]
  exact hr.at_moved (by decide)

theorem next_plan {r : Run ω} (hr : Ruled machineId r) (hs : r.machine.state = .plan) {c : WorkContext}
    (hp : plan r.machine.context.data = some c) : (next w digest s r).At .act c r.delegator r.world := by
  have hd : r.machine.state ≠ .done := by simp [hs]
  have h : handle w digest s r = .ok (r.update fun _ => c, .act) := by simp [handle, hs, hp]
  rw [next_ok hr hd h]
  exact (hr.handle h hd).at_moved (by decide)

theorem next_noPlan {r : Run ω} (hr : Ruled machineId r) (hs : r.machine.state = .plan)
    (hp : plan r.machine.context.data = none) :
    (next w digest s r).At .failed r.machine.context.data r.delegator r.world := by
  have h : handle w digest s r = .error .noPlan := by simp [handle, hs, hp]
  rw [next_error hr (by simp [hs]) (by simp [hs]) h]
  exact hr.at_moved (by decide)

/-- the tasks that a round of acting performs, with the world and the delegator after them -/
def performed (w : World ω) (s : Settings) (r : Run ω) : ω × Delegator × List Task :=
  Loop.performAll w r.world (dispatch s.work r.machine.context.data r.delegator).2

/-- what a round of acting comes to once its tasks are taken in -/
def acted (w : World ω) (s : Settings) (r : Run ω) : WorkContext × Delegator :=
  (performed w s r).2.2.foldl absorb
    ((dispatch s.work r.machine.context.data r.delegator).1, (performed w s r).2.1)

theorem next_act {r : Run ω} (hr : Ruled machineId r) (hs : r.machine.state = .act) :
    (next w digest s r).At .synthesize (acted w s r).1 (acted w s r).2 (performed w s r).1 := by
  have hd : r.machine.state ≠ .done := by simp [hs]
  have h : handle w digest s r = .ok
      ({ r with world := (performed w s r).1, delegator := (acted w s r).2 }.update fun _ => (acted w s r).1,
        .synthesize) := by
    simp only [handle, hs]
    rfl
  rw [next_ok hr hd h]
  exact (hr.handle h hd).at_moved (by decide)

theorem next_synthesize {r : Run ω} (hr : Ruled machineId r) (hs : r.machine.state = .synthesize) :
    (next w digest s r).At .evaluate
      { r.machine.context.data with proposed := propose r.machine.context.data } r.delegator r.world := by
  have hd : r.machine.state ≠ .done := by simp [hs]
  have h : handle w digest s r = .ok (r.update fun c => { c with proposed := propose c }, .evaluate) := by
    simp [handle, hs]
  rw [next_ok hr hd h]
  exact (hr.handle h hd).at_moved (by decide)

/-- what an evaluation decides -/
def decided (w : World ω) (digest : List UInt8 → List UInt8) (s : Settings) (r : Run ω) : Option StopReason :=
  decideStop s.work (compareEvidence digest r.machine.context.data) (w.clock r.world)

theorem next_evaluate {r : Run ω} (hr : Ruled machineId r) (hs : r.machine.state = .evaluate) :
    let c := compareEvidence digest r.machine.context.data
    match decided w digest s r with
    | some reason =>
      (next w digest s r).At .done { c with proposed := none, stopReason := some reason } r.delegator r.world
    | none =>
      (next w digest s r).At .plan { c with proposed := none, iteration := c.iteration + 1 } r.delegator r.world := by
  intro c
  have hd : r.machine.state ≠ .done := by simp [hs]
  cases hdec : decided w digest s r with
  | some reason =>
    have h : handle w digest s r = .ok (r.update fun _ => { c with proposed := none, stopReason := some reason },
        .done) := by
      simp only [handle, hs]
      rw [show decideStop s.work (compareEvidence digest r.machine.context.data) (w.clock r.world) = some reason from
        hdec]
    simp only [next_ok hr hd h]
    exact (hr.handle h hd).at_moved (by decide)
  | none =>
    have h : handle w digest s r = .ok (r.update fun _ => { c with proposed := none }, .plan) := by
      simp only [handle, hs]
      rw [show decideStop s.work (compareEvidence digest r.machine.context.data) (w.clock r.world) = none from hdec]
    simp only [next_ok hr hd h]
    exact (hr.handle h hd).at_plan

/-! ## Steps other than acting -/

/-- what a run knows after a step that performs no tasks: what was planned, or the same findings, calls and todos -/
inductive Still (c : WorkContext) : WorkContext → Prop where
  | kept {c' : WorkContext} (ledger : c'.ledger = c.ledger) (calls : c'.calls = c.calls)
      (todos : c'.todos = c.todos) : Still c c'
  | planned {c' : WorkContext} (h : plan c = some c') : Still c c'

/-- **A step that performs no tasks leaves the delegator alone, and plans at most.** -/
theorem next_still {r : Run ω} (hr : Ruled machineId r) (hs : r.machine.state ≠ .act) :
    (next w digest s r).delegator = r.delegator ∧
      Still r.machine.context.data (next w digest s r).machine.context.data := by
  cases hst : r.machine.state with
  | act => exact absurd hst hs
  | intake =>
    cases hg : Text.allBlank r.machine.context.data.goal with
    | true =>
      have hnext := next_blank w digest s hr hst hg
      exact ⟨hnext.delegator, hnext.data ▸ .kept rfl rfl rfl⟩
    | false =>
      have hnext := next_intake w digest s hr hst hg
      exact ⟨hnext.delegator, hnext.data ▸ .kept rfl rfl rfl⟩
  | plan =>
    cases hp : plan r.machine.context.data with
    | none =>
      have hnext := next_noPlan w digest s hr hst hp
      exact ⟨hnext.delegator, hnext.data ▸ .kept rfl rfl rfl⟩
    | some c =>
      have hnext := next_plan w digest s hr hst hp
      exact ⟨hnext.delegator, hnext.data ▸ .planned hp⟩
  | synthesize =>
    have hnext := next_synthesize w digest s hr hst
    exact ⟨hnext.delegator, hnext.data ▸ .kept rfl rfl rfl⟩
  | evaluate =>
    have hnext := next_evaluate w digest s hr hst
    cases hdec : decided w digest s r with
    | some reason =>
      simp only [hdec] at hnext
      exact ⟨hnext.delegator, hnext.data ▸ .kept rfl rfl rfl⟩
    | none =>
      simp only [hdec] at hnext
      exact ⟨hnext.delegator, hnext.data ▸ .kept rfl rfl rfl⟩
  | done =>
    rw [next_done hst]
    exact ⟨rfl, .kept rfl rfl rfl⟩
  | failed =>
    rw [next_failed hr hst]
    exact ⟨rfl, .kept rfl rfl rfl⟩

/-! ## The way of a run -/

/-- **A step makes the way longer by the state that it leads to.** -/
theorem next_cameBy {r : Run ω} {path : List WorkState} (hr : Ruled machineId r) (h : r.machine.CameBy path)
    (hd : r.machine.state ≠ .done) (hf : r.machine.state ≠ .failed) :
    (next w digest s r).machine.CameBy (path ++ [(next w digest s r).machine.state]) := by
  cases hh : handle w digest s r with
  | ok p =>
    obtain ⟨r', target⟩ := p
    have hm := (handle_frame hh hd).2
    have h' : r'.machine.CameBy path := by
      rw [hm]
      exact ⟨h.history, h.stands⟩
    rw [next_ok hr hd hh]
    exact h'.moved target
  | error e =>
    rw [next_error hr hd hf hh]
    exact h.moved .failed

end Foreman.WorkLoop
