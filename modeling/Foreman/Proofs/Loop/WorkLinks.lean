/-
The finding ids of todos along a work loop.

Acting is the one state whose handler takes in tasks; every other handler leaves the ledger alone and adds todos
without findings at most. So one step breaks a link exactly if it takes in a batch that overtakes itself, and a run
has all its links on a boundary exactly as long as no step has.

Results:
- `handle_linked`:   one handler.
- `links_unless`:    the loop as a whole.
- `boundary_linked`: a run, on each of its boundaries.
-/
import Mathlib.Tactic
import Foreman.Loop.Work
import Foreman.Proofs.Loop.Drive
import Foreman.Proofs.Loop.Links
import Foreman.Proofs.Machine.Moves

namespace Foreman

namespace WorkLoop

/-! ## Taking in tasks -/

def books (c : WorkContext) : Loop.Books := ⟨c.ledger, c.todos, c.nextId⟩

theorem absorb_took (s : WorkContext × Delegator) (t : Task) :
    Loop.Took (books s.1) t (books (absorb s t).1) := by
  unfold Loop.Took
  cases hr : t.result with
  | none => simp [books, absorb, hr, Loop.settleTodo_held]
  | some p => simp [books, absorb, absorbPayload, hr, Loop.settleTodo_held, Loop.record, Ledger.after]

theorem absorb_todoIds (s : WorkContext × Delegator) (t : Task) : (absorb s t).2.todoIds = s.2.todoIds :=
  Loop.settleTodo_todoIds _ s.2 t

/-! ## One step -/

variable {ω : Type} {w : World ω} {digest : List UInt8 → List UInt8} {s : Settings}

/-- the batches that the tasks performed in this step bring, each with the ledger that it meets -/
def offers (w : World ω) (s : Settings) (r : Run ω) : List (Ledger × List Finding) :=
  match r.machine.state with
  | .act =>
    let (c, d) := dispatch s.work r.machine.context.data r.delegator
    Loop.batches c.nextId c.ledger (Loop.performAll w r.world d).2.2
  | _ => []

/-- whether the finding ids of all todos point to standing findings -/
def Run.Linked (r : Run ω) : Prop := Loop.Linked r.machine.context.data.ledger r.machine.context.data.todos

/-- what holds of a run all along: no move touches the books, which are consistent with the tasks -/
structure Kept (r : Run ω) : Prop where
  hooks : r.machine.definition.Leaves books
  consistent : Loop.Consistent r.machine.context.data.ledger r.machine.context.data.todos r.delegator

theorem plan_grown {c c' : WorkContext} (h : plan c = some c') :
    c'.ledger = c.ledger ∧ Loop.Grown c.todos c'.todos := by
  unfold plan at h
  split_ifs at h
  · cases hg : Plan.ofGoal c.nextId c.goal with
    | none => simp [hg] at h
    | some ts =>
      simp only [hg, Option.map_some, Option.bind_eq_bind, Option.bind_some, pure, Option.some.injEq] at h
      rw [← h]
      have hblank : ∀ t ∈ ts, t.findingIds = [] := fun t ht => (Loop.ofGoal_new hg t ht).blank
      exact ⟨rfl, (Loop.extend_grown _ hblank).trans (Loop.planFollowUps_grown ..)⟩
  · simp only [Option.bind_eq_bind, Option.bind_some, pure, Option.some.injEq] at h
    rw [← h]
    exact ⟨rfl, Loop.planFollowUps_grown ..⟩

theorem act_linked {r : Run ω} (hk : Kept r) :
    let c := r.machine.context.data
    let dispatched := dispatch s.work c r.delegator
    let joined := Loop.performAll w r.world dispatched.2
    let taken := joined.2.2.foldl absorb (dispatched.1, joined.2.1)
    Loop.Consistent taken.1.ledger taken.1.todos taken.2 ∧
      (Loop.Linked taken.1.ledger taken.1.todos ↔ r.Linked ∧
        ∀ q ∈ Loop.batches dispatched.1.nextId dispatched.1.ledger joined.2.2, ¬ q.1.Overtakes q.2) := by
  intro c dispatched joined taken
  obtain ⟨hc, hl⟩ := hk.consistent.dispatch c.nextId Todo.description
    (c.todos.ready.take (s.work.maxSubagentCalls - c.calls)) fun t ht => Loop.mem_ready (List.mem_of_mem_take ht)
  obtain ⟨hc', hl'⟩ := Loop.Consistent.takeIn books (c := dispatched.1) absorb_took absorb_todoIds w r.world hc
  exact ⟨hc', hl'.trans (and_congr_left' hl)⟩

theorem handle_linked {r r' : Run ω} {next : WorkState} (hk : Kept r) (h : handle w digest s r = .ok (r', next)) :
    Kept r' ∧ (r'.Linked ↔ r.Linked ∧ ∀ q ∈ offers w s r, ¬ q.1.Overtakes q.2) := by
  unfold handle at h
  unfold offers
  cases hs : r.machine.state <;> simp only [hs] at h ⊢
  case intake =>
    split_ifs at h
    cases h
    exact ⟨⟨hk.hooks, hk.consistent⟩, by simp [Run.Linked, Machine.update, Context.setMeta]⟩
  case plan =>
    cases hp : plan r.machine.context.data with
    | none => simp [hp] at h
    | some c =>
      simp only [hp] at h
      cases h
      obtain ⟨hl, hg⟩ := plan_grown hp
      have hc := hg.consistent hk.consistent
      refine ⟨⟨hk.hooks, ?_⟩, ?_⟩
      · simpa [Run.update, Machine.update, hl] using hc
      · simp [Run.Linked, Run.update, Machine.update, hl, hg.linked]
  case act =>
    cases h
    obtain ⟨hc, hl⟩ := act_linked (w := w) (s := s) hk
    exact ⟨⟨hk.hooks, hc⟩, hl⟩
  case synthesize =>
    cases h
    exact ⟨⟨hk.hooks, hk.consistent⟩, by simp [Run.Linked, Run.update, Machine.update]⟩
  case evaluate =>
    split at h <;> cases h <;>
      exact ⟨⟨hk.hooks, hk.consistent⟩, by simp [Run.Linked, Run.update, Machine.update, compareEvidence]⟩
  case done =>
    cases h
    exact ⟨hk, by simp⟩
  case failed => cases h

theorem offers_of_error {r : Run ω} {e : LoopError} (h : handle w digest s r = .error e) : offers w s r = [] := by
  unfold handle at h
  unfold offers
  cases hs : r.machine.state <;> simp only [hs] at h ⊢
  cases h

theorem moveTo_kept {r r' : Run ω} {next : WorkState} (hk : Kept r) (h : r.moveTo next = .ok r') :
    Kept r' ∧ (r'.Linked ↔ r.Linked) := by
  unfold Run.moveTo at h
  cases hm : r.machine.moveTo next with
  | error e => simp [hm] at h
  | ok p =>
    simp only [hm, Except.ok.injEq] at h
    subst h
    obtain ⟨hdef, -, hbooks⟩ := Machine.moveTo_leaves hk.hooks hm
    have hledger := congrArg Loop.Books.ledger hbooks
    have htodos := congrArg Loop.Books.todos hbooks
    simp only [books] at hledger htodos
    refine ⟨⟨hdef ▸ hk.hooks, ?_⟩, ?_⟩
    · simpa only [hledger, htodos] using hk.consistent
    · simp only [Run.Linked, hledger, htodos]

/-! ## Runs -/

def cycle (w : World ω) (digest : List UInt8 → List UInt8) (s : Settings) : Loop.Cycle (Run ω) WorkState where
  handle := handle w digest s
  move := Run.moveTo
  isDone := fun r => decide (r.machine.state = .done)
  failure := .failed

theorem cycle_step (r : Run ω) : (cycle w digest s).step r = step w digest s r := by
  simp only [Loop.Cycle.step, cycle, step]
  cases handle w digest s r with
  | error e => rfl
  | ok p =>
    simp only
    cases p.1.moveTo p.2 <;> rfl

theorem cycle_drive (n : Nat) (r : Run ω) : (cycle w digest s).drive n r = drive w digest s n r := by
  induction n generalizing r with
  | zero => rfl
  | succ n ih =>
    rw [drive, Loop.Cycle.drive, cycle_step]
    by_cases hd : r.machine.state = .done
    · simp [cycle, hd]
    · simp only [cycle, hd, decide_false, Bool.false_eq_true, if_false]
      cases step w digest s r with
      | ok r' => exact ih r'
      | error e => rfl

/-- where a run stands after so many steps; a failed run is in its failure state -/
def boundary (w : World ω) (digest : List UInt8 → List UInt8) (s : Settings) (n : Nat) (r : Run ω) : Run ω :=
  match drive w digest s n r with
  | .ok r => r
  | .error e => e.2.failed

theorem boundary_eq (n : Nat) (r : Run ω) : boundary w digest s n r = (cycle w digest s).boundary n r := by
  rw [boundary, Loop.Cycle.boundary, cycle_drive]
  cases drive w digest s n r <;> rfl

/-- the batches that tasks brought in the first steps, each with the ledger that it met -/
def offered (w : World ω) (digest : List UInt8 → List UInt8) (s : Settings) :
    Nat → Run ω → List (Ledger × List Finding) :=
  (cycle w digest s).gather (offers w s)

/-- **The work loop breaks a link exactly if a batch overtakes itself**, and a broken link stays broken -/
theorem links_unless : (cycle w digest s).Unless (offers w s) Kept Run.Linked (fun _ _ => True)
    fun q => q.1.Overtakes q.2 where
  handled := fun _ _ _ hk h => ⟨(handle_linked hk h).1, trivial, (handle_linked hk h).2⟩
  refused := fun _ _ h => offers_of_error h
  moved := fun _ _ _ hk _ h => moveTo_kept hk h
  failure := fun _ _ => trivial

theorem boundary_linked (n : Nat) {r : Run ω} (hk : Kept r) :
    (boundary w digest s n r).Linked ↔ r.Linked ∧ ∀ q ∈ offered w digest s n r, ¬ q.1.Overtakes q.2 := by
  rw [boundary_eq]
  exact links_unless.boundary n hk

theorem draft_leaves {id : String} {d : Definition WorkState WorkContext} (h : (draft id).check = .ok d) :
    d.Leaves books := by
  obtain ⟨initial, -, rfl⟩ := Draft.check_ok h
  intro k hk c
  change k ∈ [(WorkState.plan, countIteration)] at hk
  rw [List.mem_singleton.1 hk]
  rfl

theorem begin_kept {registry : Registry} {id : String} {observers : Nat} {hasStore : Bool} {goal : String}
    {changes : ChangeSet} {todos : List Todo} {nextId : Nat} {world : ω} {r : Run ω}
    (htodos : ∀ t ∈ todos, t.findingIds = [])
    (h : begin s registry id observers hasStore (.start goal changes todos nextId) world = .ok r) :
    Kept r ∧ r.Linked := by
  unfold begin at h
  split at h
  · cases h
  · cases h
  · rename_i d hd
    cases h
    have hblank : Loop.Blank (.ofList todos) := Loop.blank_ofList htodos
    exact ⟨⟨draft_leaves hd, hblank.consistent (Ledger.sound_empty changes) rfl⟩, hblank.linked _⟩

end WorkLoop

end Foreman
