/-
What a review does from one boundary to the next.

The moves that handlers choose are allowed. One of them has a guard, the move into another round of delegating: where
the budget of rounds is spent it is refused, and the review fails. Each of the following lemmas says for one state what
the next boundary has, so that later proofs need not open a handler.

Results:
- `next_idle`, `next_exploring`, `next_delegating`, `next_reviewing`, `next_creatingTasks`, `next_assessing`: one step.
- `next_overBudget`: the move that its guard refuses.
- `next_still`: all steps but delegating and reviewing, for what no other step changes.
- `steady`: a failed review stays as it is.
- `boundary_succ`, `along`, `drive_eq`: from steps to boundaries.
-/
import Foreman.Proofs.Loop.Boundary
import Foreman.Proofs.Loop.ReviewLinks
import Foreman.Proofs.Machine.Trail

namespace Foreman.ReviewLoop

/-! ## The rules -/

def table : List (ReviewState × ReviewState) :=
  [(.idle, .exploring), (.exploring, .delegating), (.delegating, .reviewing), (.reviewing, .creatingTasks),
    (.reviewing, .assessing), (.creatingTasks, .delegating), (.assessing, .completed), (.idle, .failed),
    (.exploring, .failed), (.delegating, .failed), (.reviewing, .failed), (.creatingTasks, .failed),
    (.assessing, .failed), (.completed, .failed)]

/-- the guard of a move into another round -/
def budgetGuard (max : Nat) : Guarded ReviewState ReviewContext :=
  ⟨.creatingTasks, .delegating, "iteration-budget", fun c => decide (c.data.iteration < max)⟩

/-- the definition of a review's machine -/
def rules (id : String) (max : Nat) : Definition ReviewState ReviewContext :=
  ⟨id, ReviewState.all, .idle, table, [(.delegating, countIteration)], [], [budgetGuard max]⟩

theorem draft_eq (id : String) (max : Nat) : draft id max =
    ⟨id, ReviewState.all,
      [(.idle, .exploring), (.exploring, .delegating), (.delegating, .reviewing), (.reviewing, .creatingTasks),
        (.reviewing, .assessing), (.creatingTasks, .delegating), (.assessing, .completed)],
      [.failed], some .idle, [(.delegating, countIteration)], [], [budgetGuard max]⟩ := rfl

theorem draft_check (id : String) (max : Nat) : (draft id max).check = .ok (rules id max) := by
  rw [draft_eq]
  rfl

variable {ω : Type} {w : World ω} {s : Settings} {b : Brief}

/-- the run's machine has the rules of a review, under an id -/
def Ruled (machineId : String) (s : Settings) (r : Run ω) : Prop :=
  r.machine.definition = rules machineId s.review.maxIterations

variable {machineId : String}

/-- whether the guard lets a move pass -/
def Passes (s : Settings) (r : Run ω) (next : ReviewState) : Prop :=
  r.machine.state = .creatingTasks → next = .delegating →
    r.machine.context.data.iteration < s.review.maxIterations

theorem Ruled.free {r : Run ω} (h : Ruled machineId s r) {next : ReviewState} (hn : (r.machine.state, next) ∈ table)
    (hp : Passes s r next) : r.machine.Free next := by
  unfold Ruled at h
  constructor
  · rw [h]
    simpa [Definition.allows, rules] using hn
  · rw [h]
    intro g hg
    obtain ⟨hmem, hmove⟩ := List.mem_filter.1 hg
    obtain rfl := List.mem_singleton.1 hmem
    have hboth := of_decide_eq_true hmove
    simp only [budgetGuard, decide_eq_true_eq]
    exact hp hboth.1.symm hboth.2.symm

/-! ## Starts -/

def started (s : Settings) (registry : Registry) (id : String) (observers : Nat) (hasStore : Bool) (c : ReviewContext)
    (world : ω) : Run ω :=
  ⟨.start (rules id s.review.maxIterations) hasStore observers c, .empty registry s.concurrencyCap, world, []⟩

theorem begin_ok (hs : s.validate = .ok ()) (registry : Registry) (id : String) (observers : Nat) (hasStore : Bool)
    (c : ReviewContext) (world : ω) :
    begin s registry id observers hasStore c world = .ok (started s registry id observers hasStore c world) := by
  simp [begin, hs, draft_check, started]

theorem begin_started {registry : Registry} {id : String} {observers : Nat} {hasStore : Bool} {c : ReviewContext}
    {world : ω} {r : Run ω} (h : begin s registry id observers hasStore c world = .ok r) :
    s.validate = .ok () ∧ r = started s registry id observers hasStore c world := by
  cases hs : s.validate with
  | ok u =>
    rw [begin_ok hs] at h
    cases h
    exact ⟨rfl, rfl⟩
  | error e => simp [begin, hs] at h

theorem started_ruled (s : Settings) (registry : Registry) (id : String) (observers : Nat) (hasStore : Bool)
    (c : ReviewContext) (world : ω) : Ruled id s (started s registry id observers hasStore c world) := rfl

/-! ## Moves -/

def Run.moved (r : Run ω) (next : ReviewState) : Run ω :=
  { r with
    machine := r.machine.moved next
    signals := r.signals ++ (r.machine.moved next).signals ⟨r.machine.id, r.machine.state, next⟩ }

theorem Ruled.moveTo {r : Run ω} (h : Ruled machineId s r) {next : ReviewState}
    (hn : (r.machine.state, next) ∈ table) (hp : Passes s r next) : r.moveTo next = .ok (r.moved next) := by
  simp [Run.moveTo, Machine.moveTo_free (h.free hn hp), Run.moved]

theorem Ruled.moved {r : Run ω} (h : Ruled machineId s r) (next : ReviewState) : Ruled machineId s (r.moved next) := h

/-- entering a round counts it; no other move changes the context -/
theorem Ruled.moved_data {r : Run ω} (h : Ruled machineId s r) (next : ReviewState) :
    (r.moved next).machine.context.data =
      if next = .delegating then { r.machine.context.data with iteration := r.machine.context.data.iteration + 1 }
      else r.machine.context.data := by
  unfold Ruled at h
  have hexit : Definition.hooksFor r.machine.definition.onExit r.machine.state = [] := by rw [h]; rfl
  have henter : Definition.hooksFor r.machine.definition.onEnter next =
      if next = .delegating then [countIteration] else [] := by
    rw [h]
    cases next <;> rfl
  simp only [Run.moved, Machine.moved, hexit, henter]
  split_ifs <;> rfl

@[simp] theorem moved_state (r : Run ω) (next : ReviewState) : (r.moved next).machine.state = next := rfl

theorem Ruled.fail {r : Run ω} (h : Ruled machineId s r) (hf : r.machine.state ≠ .failed) :
    (cycle w s b).fail r = r.moved .failed := by
  have hallowed : (r.machine.state, ReviewState.failed) ∈ table := by
    cases hstate : r.machine.state <;> first | decide | exact absurd hstate hf
  have hpasses : Passes s r .failed := fun _ hne => by cases hne
  simp [Loop.Cycle.fail, cycle, h.moveTo hallowed hpasses, Except.toOption]

theorem Ruled.fail_failed {r : Run ω} (h : Ruled machineId s r) (hf : r.machine.state = .failed) :
    (cycle w s b).fail r = r := by
  obtain ⟨e, he⟩ : ∃ e, r.machine.moveTo ReviewState.failed = .error e := by
    apply Machine.moveTo_refused
    unfold Ruled at h
    rw [h, hf]
    rfl
  simp [Loop.Cycle.fail, cycle, Run.moveTo, he, Except.toOption]

/-! ## Handlers and steps -/

/-- a handler names a move of the table, and changes nothing of the machine but its context -/
theorem handle_frame {r r' : Run ω} {next : ReviewState} (h : handle w s b r = .ok (r', next))
    (hd : r.machine.state ≠ .completed) :
    (r.machine.state, next) ∈ table ∧ r'.machine = { r.machine with context := r'.machine.context } := by
  unfold handle at h
  cases hs : r.machine.state <;> simp only [hs] at h
  case idle =>
    cases h
    exact ⟨by decide, rfl⟩
  case exploring =>
    cases hb : b.changes <;> simp only [hb] at h <;> cases h
    exact ⟨by decide, rfl⟩
  case delegating =>
    cases h
    exact ⟨by decide, rfl⟩
  case reviewing =>
    simp only [Except.ok.injEq, Prod.mk.injEq] at h
    obtain ⟨rfl, rfl⟩ := h
    exact ⟨by split_ifs <;> decide, rfl⟩
  case creatingTasks =>
    cases h
    exact ⟨by decide, rfl⟩
  case assessing =>
    cases h
    exact ⟨by decide, rfl⟩
  case completed => exact absurd hs hd
  case failed => cases h

theorem Ruled.handle {r r' : Run ω} {next : ReviewState} (hr : Ruled machineId s r)
    (h : handle w s b r = .ok (r', next)) (hd : r.machine.state ≠ .completed) :
    Ruled machineId s r' ∧ r'.machine.state = r.machine.state := by
  have hm := (handle_frame h hd).2
  unfold Ruled at hr ⊢
  rw [hm]
  exact ⟨hr, rfl⟩

/-- the boundary after a boundary -/
def next (w : World ω) (s : Settings) (b : Brief) : Run ω → Run ω := (cycle w s b).next

/-- **A step is a handler and the move that it chose**, if the guard lets it pass. -/
theorem next_ok {r r' : Run ω} {target : ReviewState} (hr : Ruled machineId s r) (hd : r.machine.state ≠ .completed)
    (h : handle w s b r = .ok (r', target)) (hp : Passes s r' target) : next w s b r = r'.moved target := by
  obtain ⟨hr', hstate⟩ := hr.handle h hd
  have hallowed : (r'.machine.state, target) ∈ table := hstate ▸ (handle_frame h hd).1
  have hstep : (cycle w s b).step r = .ok (r'.moved target) := by
    have hmove : r'.moveTo target = .ok (r'.moved target) := hr'.moveTo hallowed hp
    simp [Loop.Cycle.step, cycle, h, hmove]
  exact Loop.Cycle.next_ok (by simpa [cycle] using hd) hstep

theorem next_error {r : Run ω} {e : LoopError} (hr : Ruled machineId s r) (hd : r.machine.state ≠ .completed)
    (hf : r.machine.state ≠ .failed) (h : handle w s b r = .error e) : next w s b r = r.moved .failed := by
  have hstep : (cycle w s b).step r = .error (e, r) := by simp [Loop.Cycle.step, cycle, h]
  exact (Loop.Cycle.next_error (by simpa [cycle] using hd) hstep).trans (hr.fail hf)

theorem next_completed {r : Run ω} (h : r.machine.state = .completed) : next w s b r = r :=
  Loop.Cycle.next_done (by simp [cycle, h])

theorem next_failed {r : Run ω} (hr : Ruled machineId s r) (h : r.machine.state = .failed) : next w s b r = r := by
  have hstep : (cycle w s b).step r = .error (.handler "FAILED" "machine is in the failure state", r) := by
    simp [Loop.Cycle.step, cycle, handle, h]
  exact (Loop.Cycle.next_error (by simp [cycle, h]) hstep).trans (hr.fail_failed h)

/-- an error is met in the run that its step began with, as far as rules and state go -/
theorem step_error {r : Run ω} {e : LoopError × Run ω} (hr : Ruled machineId s r) (hd : r.machine.state ≠ .completed)
    (hs : (cycle w s b).step r = .error e) : Ruled machineId s e.2 ∧ e.2.machine.state = r.machine.state := by
  cases h : handle w s b r with
  | error e' =>
    have hstep : (cycle w s b).step r = .error (e', r) := by simp [Loop.Cycle.step, cycle, h]
    rw [hstep, Except.error.injEq] at hs
    exact hs ▸ ⟨hr, rfl⟩
  | ok p =>
    have hhandled := hr.handle h hd
    cases hm : p.1.moveTo p.2 with
    | ok moved => simp [Loop.Cycle.step, cycle, h, hm] at hs
    | error e' =>
      have hstep : (cycle w s b).step r = .error (e', p.1) := by simp [Loop.Cycle.step, cycle, h, hm]
      rw [hstep, Except.error.injEq] at hs
      exact hs ▸ hhandled

theorem next_state_of_error {r : Run ω} {e : LoopError × Run ω} (hr : Ruled machineId s r)
    (hd : r.machine.state ≠ .completed) (hs : (cycle w s b).step r = .error e) :
    (next w s b r).machine.state = .failed := by
  obtain ⟨hr', hstate⟩ := step_error hr hd hs
  have hnext : next w s b r = (cycle w s b).fail e.2 := Loop.Cycle.next_error (by simpa [cycle] using hd) hs
  rw [hnext]
  by_cases hf : e.2.machine.state = .failed
  · rw [hr'.fail_failed hf, hf]
  · rw [hr'.fail hf, moved_state]

/-- a move that the guard refuses leads to the failure state, with what the handler has done -/
theorem next_refused {r r' : Run ω} {target : ReviewState} (hr : Ruled machineId s r)
    (hd : r.machine.state ≠ .completed) (h : handle w s b r = .ok (r', target)) (hp : ¬ Passes s r' target) :
    next w s b r = r'.moved .failed := by
  obtain ⟨hr', -⟩ := hr.handle h hd
  simp only [Passes, Classical.not_imp] at hp
  obtain ⟨hstate, rfl, hspent⟩ := hp
  obtain ⟨e, he⟩ : ∃ e, r'.machine.moveTo ReviewState.delegating = .error e := by
    apply Machine.moveTo_guarded (g := budgetGuard s.review.maxIterations)
    · unfold Ruled at hr'
      rw [hr', hstate]
      exact List.mem_filter.2 ⟨List.mem_singleton.2 rfl, by simp [budgetGuard]⟩
    · simpa [budgetGuard] using hspent
  have hmove : r'.moveTo .delegating = .error (.machine e) := by simp [Run.moveTo, he]
  have hstep : (cycle w s b).step r = .error (.machine e, r') := by simp [Loop.Cycle.step, cycle, h, hmove]
  exact (Loop.Cycle.next_error (by simpa [cycle] using hd) hstep).trans (hr'.fail (by simp [hstate]))

theorem Ruled.next {r : Run ω} (hr : Ruled machineId s r) : Ruled machineId s (next w s b r) := by
  by_cases hd : r.machine.state = .completed
  · rwa [next_completed hd]
  by_cases hf : r.machine.state = .failed
  · rwa [next_failed hr hf]
  cases h : ReviewLoop.handle w s b r with
  | error e => exact next_error hr hd hf h ▸ hr.moved .failed
  | ok p =>
    have hr' := (hr.handle h hd).1
    by_cases hp : Passes s p.1 p.2
    · exact next_ok hr hd h hp ▸ hr'.moved p.2
    · exact next_refused hr hd h hp ▸ hr'.moved .failed

/-- **A review that has failed stays as it is.** -/
theorem steady : (cycle w s b).Steady (Ruled machineId s) where
  next := fun _ hr => hr.next
  stuck := fun r e hr hnot hs => by
    have hd : r.machine.state ≠ .completed := by simpa [cycle] using hnot
    rw [← Loop.Cycle.next_error hnot hs]
    exact next_failed hr.next (next_state_of_error hr hd hs)

/-! ## Where a review stands -/

/-- where a review stands: its state, what it knows, its delegator and its world -/
structure Run.At (r : Run ω) (state : ReviewState) (c : ReviewContext) (d : Delegator) (world : ω) : Prop where
  state : r.machine.state = state
  data : r.machine.context.data = c
  delegator : r.delegator = d
  world : r.world = world

theorem Ruled.at_moved {r : Run ω} (h : Ruled machineId s r) {next : ReviewState} (hn : next ≠ .delegating) :
    (r.moved next).At next r.machine.context.data r.delegator r.world :=
  ⟨rfl, by rw [h.moved_data, if_neg hn], rfl, rfl⟩

theorem Ruled.at_delegating {r : Run ω} (h : Ruled machineId s r) :
    (r.moved .delegating).At .delegating
      { r.machine.context.data with iteration := r.machine.context.data.iteration + 1 } r.delegator r.world :=
  ⟨rfl, by rw [h.moved_data, if_pos rfl], rfl, rfl⟩

variable (w s b)

/-! ## Boundaries -/

/-- **Each boundary comes from the one before.** -/
theorem boundary_succ {r : Run ω} (hr : Ruled machineId s r) (n : Nat) :
    boundary w s b (n + 1) r = next w s b (boundary w s b n r) := by
  rw [boundary_eq, boundary_eq]
  exact steady.boundary_succ n hr

theorem Ruled.boundary {r : Run ω} (hr : Ruled machineId s r) (n : Nat) : Ruled machineId s (boundary w s b n r) := by
  induction n with
  | zero => exact hr
  | succ n ih =>
    rw [boundary_succ w s b hr]
    exact ih.next

/-- **What every step keeps holds on every boundary.** -/
theorem along {P : Nat → Run ω → Prop} {r : Run ω} (hr : Ruled machineId s r) (h0 : P 0 r)
    (hn : ∀ n q, Ruled machineId s q → P n q → P (n + 1) (next w s b q)) (n : Nat) :
    P n (boundary w s b n r) := by
  rw [boundary_eq]
  exact (steady.along hr h0 hn n).2

theorem drive_eq {n : Nat} {r : Run ω} (hr : Ruled machineId s r)
    (hf : (boundary w s b n r).machine.state ≠ .failed) : drive w s b n r = .ok (boundary w s b n r) := by
  rw [boundary_eq] at hf ⊢
  rw [← cycle_drive]
  refine steady.drive_eq (fun q => q.machine.state = .failed) (fun q e hq hnot hstep => ?_) hr hf
  exact next_state_of_error hq (by simpa [cycle] using hnot) hstep

/-- **A step makes the way longer by the state that it leads to.** -/
theorem next_cameBy {r : Run ω} {path : List ReviewState} (hr : Ruled machineId s r) (h : r.machine.CameBy path)
    (hd : r.machine.state ≠ .completed) (hf : r.machine.state ≠ .failed) :
    (next w s b r).machine.CameBy (path ++ [(next w s b r).machine.state]) := by
  cases hh : handle w s b r with
  | ok p =>
    obtain ⟨r', target⟩ := p
    have hm := (handle_frame hh hd).2
    have h' : r'.machine.CameBy path := by
      rw [hm]
      exact ⟨h.history, h.stands⟩
    by_cases hp : Passes s r' target
    · rw [next_ok hr hd hh hp]
      exact h'.moved target
    · rw [next_refused hr hd hh hp]
      exact h'.moved .failed
  | error e =>
    rw [next_error hr hd hf hh]
    exact h.moved .failed

/-! ## One step, by state -/

theorem next_idle {r : Run ω} (hr : Ruled machineId s r) (hs : r.machine.state = .idle) :
    (next w s b r).At .exploring r.machine.context.data r.delegator r.world := by
  have hd : r.machine.state ≠ .completed := by simp [hs]
  have h : handle w s b r = .ok (r, .exploring) := by simp [handle, hs]
  rw [next_ok hr hd h (by simp [Passes])]
  exact hr.at_moved (by decide)

theorem next_exploring {r : Run ω} (hr : Ruled machineId s r) (hs : r.machine.state = .exploring)
    {changes : ChangeSet} (hb : b.changes = .ok changes) :
    (next w s b r).At .delegating
      { explore b.scanners changes r.machine.context.data with
        iteration := (explore b.scanners changes r.machine.context.data).iteration + 1 } r.delegator r.world := by
  have hd : r.machine.state ≠ .completed := by simp [hs]
  have h : handle w s b r = .ok (r.update (explore b.scanners changes), .delegating) := by simp [handle, hs, hb]
  obtain ⟨hr', hstate⟩ := hr.handle h hd
  rw [next_ok hr hd h (fun hc => by rw [hstate, hs] at hc; cases hc)]
  exact hr'.at_delegating

theorem next_noChanges {r : Run ω} (hr : Ruled machineId s r) (hs : r.machine.state = .exploring)
    {causes : List String} (hb : b.changes = .error causes) :
    (next w s b r).At .failed r.machine.context.data r.delegator r.world := by
  have h : handle w s b r = .error (.handler "INITIAL_EXPLORATION" (Text.joinWith ": " causes)) := by
    simp [handle, hs, hb]
  rw [next_error hr (by simp [hs]) (by simp [hs]) h]
  exact hr.at_moved (by decide)

theorem next_delegating {r : Run ω} (hr : Ruled machineId s r) (hs : r.machine.state = .delegating) :
    (next w s b r).At .reviewing (dispatch r.machine.context.data r.delegator).1
      (dispatch r.machine.context.data r.delegator).2 r.world := by
  have hd : r.machine.state ≠ .completed := by simp [hs]
  have h : handle w s b r = .ok ({ r with delegator := (dispatch r.machine.context.data r.delegator).2 }.update
      fun _ => (dispatch r.machine.context.data r.delegator).1, .reviewing) := by
    simp only [handle, hs]
  rw [next_ok hr hd h (by simp [Passes])]
  exact (hr.handle h hd).1.at_moved (by decide)

/-- the tasks that a round of reviewing performs, with the world and the delegator after them -/
def performed (w : World ω) (r : Run ω) : ω × Delegator × List Task := Loop.performAll w r.world r.delegator

/-- what a round of reviewing comes to once its tasks are taken in -/
def reviewed (w : World ω) (r : Run ω) : ReviewContext × Delegator :=
  (performed w r).2.2.foldl collect (r.machine.context.data, (performed w r).2.1)

/-- whether there is work left, and a round left for it -/
def goesOn (s : Settings) (c : ReviewContext) : Bool := workLeft c && decide (c.iteration < s.review.maxIterations)

theorem next_reviewing {r : Run ω} (hr : Ruled machineId s r) (hs : r.machine.state = .reviewing) :
    (next w s b r).At (if goesOn s (reviewed w r).1 then .creatingTasks else .assessing) (reviewed w r).1
      (reviewed w r).2 (performed w r).1 := by
  have hd : r.machine.state ≠ .completed := by simp [hs]
  have h : handle w s b r = .ok
      ({ r with world := (performed w r).1, delegator := (reviewed w r).2 }.update fun _ => (reviewed w r).1,
        if goesOn s (reviewed w r).1 then .creatingTasks else .assessing) := by
    simp only [handle, hs]
    rfl
  obtain ⟨hr', hstate⟩ := hr.handle h hd
  rw [next_ok hr hd h (fun hc => by rw [hstate, hs] at hc; cases hc)]
  exact hr'.at_moved (by split_ifs <;> decide)

theorem next_creatingTasks {r : Run ω} (hr : Ruled machineId s r) (hs : r.machine.state = .creatingTasks)
    (hi : r.machine.context.data.iteration < s.review.maxIterations) :
    (next w s b r).At .delegating
      { createTasks r.machine.context.data with iteration := r.machine.context.data.iteration + 1 } r.delegator
      r.world := by
  have hd : r.machine.state ≠ .completed := by simp [hs]
  have h : handle w s b r = .ok (r.update createTasks, .delegating) := by simp [handle, hs]
  rw [next_ok hr hd h (fun _ _ => hi)]
  exact (hr.handle h hd).1.at_delegating

theorem next_overBudget {r : Run ω} (hr : Ruled machineId s r) (hs : r.machine.state = .creatingTasks)
    (hi : ¬ r.machine.context.data.iteration < s.review.maxIterations) :
    (next w s b r).At .failed (createTasks r.machine.context.data) r.delegator r.world := by
  have hd : r.machine.state ≠ .completed := by simp [hs]
  have h : handle w s b r = .ok (r.update createTasks, .delegating) := by simp [handle, hs]
  rw [next_refused hr hd h (fun hp => hi (hp hs rfl))]
  exact (hr.handle h hd).1.at_moved (by decide)

theorem next_assessing {r : Run ω} (hr : Ruled machineId s r) (hs : r.machine.state = .assessing) :
    (next w s b r).At .completed
      { r.machine.context.data with
        assessment := some (Assessment.ofFindings r.machine.context.data.ledger.findings
          s.review.confidenceThreshold) } r.delegator r.world := by
  have hd : r.machine.state ≠ .completed := by simp [hs]
  have h : handle w s b r = .ok (r.update fun c => { c with
      assessment := some (Assessment.ofFindings r.machine.context.data.ledger.findings
        s.review.confidenceThreshold) }, .completed) := by
    simp [handle, hs]
  rw [next_ok hr hd h (by simp [Passes])]
  exact (hr.handle h hd).1.at_moved (by decide)

/-! ## Steps without tasks -/

/-- what a review knows after a step that neither dispatches nor performs tasks: todos and findings are as they were, or
as exploring left them, or new todos were planned -/
inductive Still (b : Brief) (r : Run ω) : ReviewContext → Prop where
  | kept {c : ReviewContext} (ledger : c.ledger = r.machine.context.data.ledger)
      (todos : c.todos = r.machine.context.data.todos) : Still b r c
  | explored {c : ReviewContext} (changes : ChangeSet) (state : r.machine.state = .exploring)
      (ledger : c.ledger = (explore b.scanners changes r.machine.context.data).ledger)
      (todos : c.todos = (explore b.scanners changes r.machine.context.data).todos) : Still b r c
  | planned {c : ReviewContext} (ledger : c.ledger = r.machine.context.data.ledger)
      (todos : c.todos = (createTasks r.machine.context.data).todos) : Still b r c

/-- **A step that neither dispatches nor performs tasks leaves the delegator alone.** -/
theorem next_still {r : Run ω} (hr : Ruled machineId s r) (hdelegating : r.machine.state ≠ .delegating)
    (hreviewing : r.machine.state ≠ .reviewing) :
    (next w s b r).delegator = r.delegator ∧ Still b r (next w s b r).machine.context.data := by
  cases hs : r.machine.state with
  | delegating => exact absurd hs hdelegating
  | reviewing => exact absurd hs hreviewing
  | idle =>
    have hnext := next_idle w s b hr hs
    exact ⟨hnext.delegator, hnext.data ▸ .kept rfl rfl⟩
  | exploring =>
    cases hb : b.changes with
    | error causes =>
      have hnext := next_noChanges w s b hr hs hb
      exact ⟨hnext.delegator, hnext.data ▸ .kept rfl rfl⟩
    | ok changes =>
      have hnext := next_exploring w s b hr hs hb
      exact ⟨hnext.delegator, hnext.data ▸ .explored changes hs rfl rfl⟩
  | creatingTasks =>
    by_cases hi : r.machine.context.data.iteration < s.review.maxIterations
    · have hnext := next_creatingTasks w s b hr hs hi
      exact ⟨hnext.delegator, hnext.data ▸ .planned rfl rfl⟩
    · have hnext := next_overBudget w s b hr hs hi
      exact ⟨hnext.delegator, hnext.data ▸ .planned rfl rfl⟩
  | assessing =>
    have hnext := next_assessing w s b hr hs
    exact ⟨hnext.delegator, hnext.data ▸ .kept rfl rfl⟩
  | completed =>
    rw [next_completed hs]
    exact ⟨rfl, .kept rfl rfl⟩
  | failed =>
    rw [next_failed hr hs]
    exact ⟨rfl, .kept rfl rfl⟩

end Foreman.ReviewLoop
