/-
What one step does to a delegator.

Each kind of step has one lemma that says all it can do. That no more seats are taken than there are, who closes a
delegator and who makes a todo processed are read off these, and hold of all runs. Dispatching many todos and joining
all tasks are runs too.

Results:
- `delegate_step`, `finish_step`, `crash_step`, `join_step`: what a step can do.
- `run_seats`, `run_closed`, `run_processed`:              what any steps come to.
- `run_detached`:                                         the first end decides whether tasks are let go of.
- `joinAll_steps`, `delegateAll_steps`:                    what is done to many at once is done step by step.
-/
import Foreman.Proofs.Delegation.InFlight
import Foreman.Proofs.Slots
import Foreman.Simulation.Staff

namespace Foreman

theorem Task.Started.completes {t : Task} (h : t.Started) (outcome : Except GuardError Payload) (now : Nat) :
    ∃ done, t.complete outcome now = .ok done ∧ done.todoId = t.todoId := by
  refine ⟨_, complete_inProgress h.status outcome now, ?_⟩
  cases outcome <;> rfl

namespace Delegator

/-! ## What a step can do -/

/-- a todo is dispatched only by an open delegator, and only if it is neither processed nor in flight -/
theorem delegate_step (d : Delegator) (taskId : Ident) (t : Todo) (instructions : String) :
    d.step (.delegate taskId t instructions) = d ∨
      ∃ task, d.closed = false ∧ t.id ∉ d.processed ∧ t.id ∉ d.inFlight ∧ task.todoId = t.id ∧ task.Started ∧
        d.step (.delegate taskId t instructions) = { d with
          running := d.running ++ [(d.next, task)]
          inFlight := d.inFlight ++ [t.id]
          next := d.next + 1
          dispatched := d.dispatched + 1 } := by
  by_cases hc : d.closed = true
  · left; simp [step, delegate, hc]
  by_cases hp : t.id ∈ d.processed
  · left; simp [step, delegate, hc, hp]
  by_cases hf : t.id ∈ d.inFlight
  · left; simp [step, delegate, hc, hp, hf]
  have ho : d.closed = false := by simpa using hc
  rcases delegate_cases ho hp hf taskId instructions with ⟨e, he⟩ | ⟨task, name, hd, hid, hs⟩
  · left; simp only [step, he]
  · exact Or.inr ⟨task, ho, hp, hf, hid, hs, by simp only [step, hd]⟩

/-- a task that finishes is put with the finished ones; after the end it is counted as late, or not at all -/
theorem finish_step (d : Delegator) (n : Nat) (outcome : Except GuardError Payload) (now : Nat) :
    d.step (.finish n outcome now) = d ∨
      ∃ task, d.running.lookup n = some task ∧ d.step (.finish n outcome now) =
        if d.closed then { d with
          seats := (d.seats.discard n).1
          running := d.running.filter fun p => p.1 ≠ n
          late := d.late + (!d.detached).toNat }
        else { d with
          seats := (d.seats.discard n).1
          running := d.running.filter fun p => p.1 ≠ n
          finished := d.finished ++ [(task.complete outcome now).toOption.getD task] } := by
  by_cases hh : d.seats.holds n = true
  · cases hl : d.running.lookup n with
    | none => left; simp [step, finish, hl]
    | some task =>
      refine Or.inr ⟨task, rfl, ?_⟩
      cases hc : d.closed <;> simp [step, hh, finish, hl, retire, hc]
  · left; simp [step, hh]

theorem crash_step (d : Delegator) (n : Nat) :
    (d.running.lookup n = none ∧ d.step (.crash n) = d) ∨
      ∃ task, d.running.lookup n = some task ∧ d.step (.crash n) = { d with
        seats := (d.seats.discard n).1
        running := d.running.filter fun p => p.1 ≠ n } := by
  cases hl : d.running.lookup n with
  | none => exact Or.inl ⟨rfl, by simp [step, crash, hl]⟩
  | some task => exact Or.inr ⟨task, rfl, by simp [step, crash, hl, retire]⟩

theorem sit_step (d : Delegator) (n : Nat) :
    d.step (.sit n) = d ∨ d.step (.sit n) = { d with seats := d.seats.arrive n } := by
  show d.sit n = d ∨ d.sit n = _
  unfold sit
  split_ifs
  · exact Or.inr rfl
  · exact Or.inl rfl

theorem join_step (d : Delegator) :
    (d.finished = [] ∧ d.step .join = d) ∨
      ∃ t r, d.finished = t :: r ∧ d.step .join = { d with finished := r, inFlight := d.inFlight.erase t.todoId } := by
  cases hf : d.finished with
  | nil => exact Or.inl ⟨rfl, by simp [step, join, hf]⟩
  | cons t r => exact Or.inr ⟨t, r, rfl, by simp [step, join, hf]⟩

theorem mark_step (d : Delegator) (id : Ident) :
    ∃ processed, d.step (.mark id) = { d with processed := processed } ∧
      ∀ i, i ∈ processed ↔ i ∈ d.processed ∨ i = id := by
  refine ⟨(d.mark id).processed, ?_, d.mem_mark id⟩
  show d.mark id = _
  unfold mark
  split_ifs <;> rfl

theorem abandon_step (d : Delegator) (runtime : Bool) :
    d.step (.abandon runtime) = { d with
      closed := true
      detached := if d.closed then d.detached else d.detached || !runtime
      inFlight := []
      finished := []
      late := if d.closed || !runtime then d.late else d.late + d.finished.length } := by
  cases hc : d.closed <;> cases runtime <;> simp [step, abandon, hc]

/-! ## What a run comes to -/

theorem step_seats {d : Delegator} {cap : Nat} (h : d.seats.Fits cap) (o : Op) : (d.step o).seats.Fits cap := by
  cases o with
  | delegate taskId t instructions =>
    rcases d.delegate_step taskId t instructions with he | ⟨task, -, -, -, -, -, he⟩ <;> rw [he] <;> exact h
  | sit n =>
    rcases d.sit_step n with he | he <;> rw [he]
    · exact h
    · exact Slots.arrive_fits h n
  | finish n outcome now =>
    rcases d.finish_step n outcome now with he | ⟨task, -, he⟩ <;> rw [he]
    · exact h
    · split_ifs <;> exact Slots.discard_fits h n
  | crash n =>
    rcases d.crash_step n with ⟨-, he⟩ | ⟨task, -, he⟩ <;> rw [he]
    · exact h
    · exact Slots.discard_fits h n
  | join => rcases d.join_step with ⟨-, he⟩ | ⟨t, r, -, he⟩ <;> rw [he] <;> exact h
  | mark id =>
    obtain ⟨processed, he, -⟩ := d.mark_step id
    rw [he]
    exact h
  | abandon runtime =>
    rw [abandon_step]
    exact h

/-- a step other than the end leaves alone how the delegator has ended, and only marking makes a todo processed -/
theorem step_held (d : Delegator) {o : Op} (hend : ∀ runtime, o ≠ .abandon runtime) :
    (d.step o).closed = d.closed ∧ (d.step o).detached = d.detached ∧
      ∀ id, id ∈ (d.step o).processed ↔ id ∈ d.processed ∨ o = .mark id := by
  cases o with
  | delegate taskId t instructions =>
    rcases d.delegate_step taskId t instructions with he | ⟨task, -, -, -, -, -, he⟩ <;> simp [he]
  | sit n => rcases d.sit_step n with he | he <;> simp [he]
  | finish n outcome now =>
    rcases d.finish_step n outcome now with he | ⟨task, -, he⟩ <;> rw [he]
    · simp
    · split_ifs <;> simp
  | crash n => rcases d.crash_step n with ⟨-, he⟩ | ⟨task, -, he⟩ <;> simp [he]
  | join => rcases d.join_step with ⟨-, he⟩ | ⟨t, r, -, he⟩ <;> simp [he]
  | mark i =>
    obtain ⟨processed, he, hmem⟩ := d.mark_step i
    simp [he, hmem, eq_comm]
  | abandon runtime => exact absurd rfl (hend runtime)

/-- only the end closes a delegator, and it stays closed -/
theorem step_closed (d : Delegator) (o : Op) :
    (d.step o).closed = true ↔ d.closed = true ∨ ∃ runtime, o = .abandon runtime := by
  by_cases hend : ∃ runtime, o = .abandon runtime
  · obtain ⟨runtime, rfl⟩ := hend
    simp [abandon_step]
  · rw [(d.step_held (not_exists.1 hend)).1, or_iff_left hend]

/-- only the first end can let go of the tasks -/
theorem step_detached (d : Delegator) {o : Op} (h : d.closed = true ∨ ∀ runtime, o ≠ .abandon runtime) :
    (d.step o).detached = d.detached := by
  by_cases hend : ∃ runtime, o = .abandon runtime
  · obtain ⟨runtime, rfl⟩ := hend
    have hc : d.closed = true := h.resolve_right fun hne => hne runtime rfl
    simp [abandon_step, hc]
  · exact (d.step_held (not_exists.1 hend)).2.1

theorem step_processed (d : Delegator) (o : Op) (id : Ident) :
    id ∈ (d.step o).processed ↔ id ∈ d.processed ∨ o = .mark id := by
  by_cases hend : ∃ runtime, o = .abandon runtime
  · obtain ⟨runtime, rfl⟩ := hend
    simp [abandon_step]
  · exact (d.step_held (not_exists.1 hend)).2.2 id

variable (registry : Registry) (cap : Nat)

@[simp]
theorem run_snoc (ops : List Op) (o : Op) : run registry cap (ops ++ [o]) = (run registry cap ops).step o := by
  simp [run, List.foldl_append]

theorem run_seats (ops : List Op) : (run registry cap ops).seats.Fits (max cap 1) := by
  induction ops using List.reverseRecOn with
  | nil => exact Slots.empty_fits cap
  | append_singleton ops o ih =>
    rw [run_snoc]
    exact step_seats ih o

theorem run_closed (ops : List Op) :
    (run registry cap ops).closed = true ↔ ∃ runtime, Op.abandon runtime ∈ ops := by
  induction ops using List.reverseRecOn with
  | nil => simp [run, empty]
  | append_singleton ops o ih =>
    rw [run_snoc, step_closed, ih, ← exists_or]
    simp only [List.mem_append, List.mem_singleton, eq_comm]

/-- tasks are let go of only at an end without a runtime at hand -/
theorem run_kept {ops : List Op} (h : Op.abandon false ∉ ops) : (run registry cap ops).detached = false := by
  induction ops using List.reverseRecOn with
  | nil => rfl
  | append_singleton ops o ih =>
    have hheld := ih fun hmem => h (List.mem_append_left _ hmem)
    rw [run_snoc]
    by_cases ho : ∃ runtime, o = .abandon runtime
    · obtain ⟨runtime, rfl⟩ := ho
      cases runtime with
      | false => exact absurd (List.mem_append_right _ (List.mem_singleton.2 rfl)) h
      | true => simp [abandon_step, hheld]
    · rw [step_detached _ (.inr (not_exists.1 ho)), hheld]

/-- **The first end decides**: without a runtime at hand the tasks are let go of, and no later end changes that. -/
theorem run_detached {pre : List Op} (hpre : ∀ runtime, Op.abandon runtime ∉ pre) (runtime : Bool) (post : List Op) :
    (run registry cap (pre ++ .abandon runtime :: post)).detached = !runtime := by
  induction post using List.reverseRecOn with
  | nil =>
    have hopen : (run registry cap pre).closed = false :=
      Bool.eq_false_iff.2 fun hc => ((run_closed registry cap pre).1 hc).elim hpre
    rw [run_snoc, abandon_step, hopen, run_kept registry cap (hpre false)]
    rfl
  | append_singleton post o ih =>
    have hclosed : (run registry cap (pre ++ .abandon runtime :: post)).closed = true :=
      (run_closed registry cap _).2 ⟨runtime, by simp⟩
    rw [← List.cons_append, ← List.append_assoc, run_snoc, step_detached _ (.inl hclosed), ih]

theorem run_processed (ops : List Op) (id : Ident) : id ∈ (run registry cap ops).processed ↔ Op.mark id ∈ ops := by
  induction ops using List.reverseRecOn with
  | nil => simp [run, empty]
  | append_singleton ops o ih =>
    rw [run_snoc, step_processed, ih, List.mem_append, List.mem_singleton, eq_comm (a := o)]

/-! ## Many at once -/

/-- **Joining all tasks** is joining as many times as tasks have finished. -/
theorem joinAll_steps (d : Delegator) :
    (List.replicate d.finished.length Op.join).foldl step d = d.joinAll.1 := by
  generalize hf : d.finished = ts
  induction ts generalizing d with
  | nil =>
    obtain ⟨⟩ := d
    obtain rfl := hf
    rfl
  | cons t ts ih =>
    rw [List.length_cons, List.replicate_succ, List.foldl_cons]
    rcases d.join_step with ⟨hnone, -⟩ | ⟨t', r, hsome, he⟩
    · simp [hnone] at hf
    · obtain ⟨rfl, rfl⟩ := List.cons.inj (hsome.symm.trans hf)
      rw [he, ih _ rfl]
      simp [joinAll, hsome]

theorem spawn_outside {ω κ α : Type} (s : Simulation.State ω κ α) (id : Nat) (resource : String) (order : κ) :
    (s.spawn id resource order).outside = s.outside := by
  simp only [Simulation.State.spawn, Simulation.State.wake]
  split_ifs <;> rfl

theorem delegate_shift (s : Simulation.Shift) (taskId : Ident) (t : Todo) (instructions : String) :
    (s.delegate taskId t instructions).1.delegator = s.delegator.step (.delegate taskId t instructions) := by
  simp only [Simulation.Shift.delegate, step]
  cases hd : s.delegator.delegate taskId t instructions with
  | error e => rfl
  | ok r =>
    obtain ⟨d, r⟩ := r
    dsimp only
    split
    · exact congrArg Simulation.Staff.delegator (spawn_outside ..)
    · rfl

/-- **Dispatching many todos** is dispatching them one after the other, up to the first that cannot be. -/
theorem delegateAll_steps (s : Simulation.Shift) (count : Nat) (todos : List (Ident × Todo)) :
    ∃ k, (s.delegateAll count todos).1.delegator =
      ((todos.take k).map fun p => Op.delegate p.1 p.2 p.2.description).foldl step s.delegator := by
  induction todos generalizing s count with
  | nil => exact ⟨0, rfl⟩
  | cons p todos ih =>
    obtain ⟨taskId, t⟩ := p
    have hstep := delegate_shift s taskId t t.description
    rw [Simulation.Shift.delegateAll]
    cases hd : s.delegate taskId t t.description with
    | mk s' r =>
      rw [hd] at hstep
      cases r with
      | error e =>
        refine ⟨1, ?_⟩
        exact hstep
      | ok d =>
        obtain ⟨k, hk⟩ := ih s' (if d.isDispatched then count + 1 else count)
        refine ⟨k + 1, hk.trans ?_⟩
        rw [hstep]
        rfl

end Delegator

end Foreman
