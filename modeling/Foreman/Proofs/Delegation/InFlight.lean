/-
The todos that are in flight with a delegator.

Each of them has one task, which runs or has finished and waits to be joined; a todo in flight is not dispatched again,
so no two of these tasks are about one todo (`Sound`). A task has its number from its dispatch, which no later task
gets, so finishing a task takes that one task out of the running ones. What a finished task holds is its outcome: a
payload or an error.

Results:
- `delegate_cases`: a todo that is neither processed nor in flight is dispatched, if there is a subagent for it.
- `delegate_ok`:    what an answer of the delegator means.
- `finish_running`: who still runs after a task has finished.
- `dispatched_sound`, `finish_sound`, `mark_sound`, `joinAll_sound`: what keeps the account.
-/
import Mathlib.Tactic
import Foreman.Proofs.Loop.Frame

namespace Foreman

/-- how a task ended, once it has -/
def Task.outcome? (t : Task) : Option (Except GuardError Payload) :=
  match t.result, t.error with
  | some p, _ => some (.ok p)
  | none, some e => some (.error e)
  | none, none => none

/-- a task that has started and not ended -/
structure Task.Started (t : Task) : Prop where
  status : t.status = .inProgress
  result : t.result = none
  error : t.error = none

theorem Task.Started.complete {t : Task} (h : t.Started) (outcome : Except GuardError Payload) (now : Nat) :
    ((t.complete outcome now).toOption.getD t).outcome? = some outcome := by
  rw [complete_inProgress h.status]
  cases outcome <;> simp [Task.record, h.result, Except.toOption, outcome?]

namespace Delegator

/-- an open delegator: the running tasks have numbers of their own, and each todo in flight has one task, that runs or
has finished -/
structure Sound (d : Delegator) : Prop where
  isOpen : d.closed = false
  numbers : (d.running.map Prod.fst).Nodup
  fresh : ∀ n ∈ d.running.map Prod.fst, n < d.next
  /-- the count of dispatched tasks goes round in its word -/
  counter : d.dispatched = .ofNat d.next
  started : ∀ p ∈ d.running, p.2.Started
  ended : ∀ t ∈ d.finished, ∃ outcome, t.outcome? = some outcome
  tasks : d.inFlight.Perm d.todoIds
  single : d.inFlight.Nodup

theorem empty_sound (registry : Registry) (cap : Nat) : (empty registry cap).Sound :=
  ⟨rfl, by simp [empty], by simp [empty], rfl, by simp [empty], by simp [empty], by simp [empty, todoIds],
    by simp [empty]⟩

/-! ## Dispatching -/

/-- **A todo that is neither processed nor in flight is dispatched, if there is a subagent for it.** -/
theorem delegate_cases {d : Delegator} (ho : d.closed = false) {t : Todo} (hp : t.id ∉ d.processed)
    (hf : t.id ∉ d.inFlight) (taskId : Ident) (instructions : String) :
    (∃ e, d.delegate taskId t instructions = .error e) ∨
      ∃ task name, d.delegate taskId t instructions =
          .ok ({ d with
            running := d.running ++ [(d.next, task)]
            inFlight := d.inFlight ++ [t.id]
            next := d.next + 1
            dispatched := d.dispatched + 1 }, .dispatched d.next name) ∧
        task.todoId = t.id ∧ task.Started := by
  have hp : d.processed.contains t.id = false := by simpa using hp
  have hf : d.inFlight.contains t.id = false := by simpa using hf
  cases hb : d.registry.route t.description with
  | error e =>
    left
    exact ⟨e, by simp only [delegate, ho, hp, hf, hb]; rfl⟩
  | ok b =>
    right
    refine ⟨{ Task.fresh taskId t.id b.name b.resource instructions with status := .inProgress }, b.name, ?_, rfl,
      rfl, rfl, rfl⟩
    simp only [delegate, ho, hp, hf, hb]
    rfl

/-- **What an answer means**: a todo that is dispatched is neither processed nor in flight, and gets a task of its own;
one that is skipped changes nothing -/
theorem delegate_ok {d d' : Delegator} {taskId : Ident} {t : Todo} {instructions : String} {a : Dispatch}
    (h : d.delegate taskId t instructions = .ok (d', a)) :
    (d' = d ∧ a.isDispatched = false) ∨
      ∃ task, a.isDispatched = true ∧ t.id ∉ d.processed ∧ t.id ∉ d.inFlight ∧ task.todoId = t.id ∧ task.Started ∧
        d' = { d with
          running := d.running ++ [(d.next, task)]
          inFlight := d.inFlight ++ [t.id]
          next := d.next + 1
          dispatched := d.dispatched + 1 } := by
  by_cases hc : d.closed = true
  · simp [delegate, hc] at h
  have ho : d.closed = false := by simpa using hc
  by_cases hp : t.id ∈ d.processed
  · simp only [delegate, ho, hp, List.contains_iff_mem, Bool.false_eq_true, if_false, if_true, Except.ok.injEq,
      Prod.mk.injEq] at h
    exact Or.inl ⟨h.1.symm, by rw [← h.2]; rfl⟩
  by_cases hf : t.id ∈ d.inFlight
  · simp only [delegate, ho, hp, hf, List.contains_iff_mem, Bool.false_eq_true, if_false, if_true, Except.ok.injEq,
      Prod.mk.injEq] at h
    exact Or.inl ⟨h.1.symm, by rw [← h.2]; rfl⟩
  rcases delegate_cases ho hp hf taskId instructions with ⟨e, he⟩ | ⟨task, name, hd, hid, hs⟩
  · rw [he] at h
    cases h
  · rw [hd, Except.ok.injEq, Prod.mk.injEq] at h
    exact Or.inr ⟨task, by rw [← h.2]; rfl, hp, hf, hid, hs, h.1.symm⟩

/-- one task more is counted as one more, whether or not the word is full -/
theorem counter_succ {c : UInt32} {n : Nat} (h : c = .ofNat n) : c + 1 = .ofNat (n + 1) := by
  rw [h, UInt32.ofNat_add]
  rfl

theorem dispatched_sound {d : Delegator} (h : d.Sound) {task : Task} (hs : task.Started)
    (hf : task.todoId ∉ d.inFlight) :
    Sound { d with
      running := d.running ++ [(d.next, task)]
      inFlight := d.inFlight ++ [task.todoId]
      next := d.next + 1
      dispatched := d.dispatched + 1 } := by
  refine ⟨h.isOpen, ?_, ?_, counter_succ h.counter, ?_, h.ended, ?_, ?_⟩
  · simp only [List.map_append, List.map_cons, List.map_nil, List.nodup_append]
    refine ⟨h.numbers, by simp, fun n hn m hm hnm => ?_⟩
    have hlt := h.fresh n hn
    rw [hnm, List.mem_singleton.1 hm] at hlt
    exact absurd hlt (lt_irrefl _)
  · intro n hn
    simp only [List.map_append, List.map_cons, List.map_nil, List.mem_append, List.mem_singleton] at hn
    rcases hn with hn | rfl
    · exact Nat.lt_succ_of_lt (h.fresh n hn)
    · exact Nat.lt_succ_self _
  · intro p hp
    rcases List.mem_append.1 hp with hp | hp
    · exact h.started p hp
    · rw [List.mem_singleton.1 hp]
      exact hs
  · have hids : todoIds { d with
          running := d.running ++ [(d.next, task)]
          inFlight := d.inFlight ++ [task.todoId]
          next := d.next + 1
          dispatched := d.dispatched + 1 } =
        d.running.map (fun p => p.2.todoId) ++ ([task.todoId] ++ d.finished.map Task.todoId) := by
      simp [todoIds]
    have hmove : (d.todoIds ++ [task.todoId]).Perm
        (d.running.map (fun p => p.2.todoId) ++ ([task.todoId] ++ d.finished.map Task.todoId)) := by
      rw [todoIds, List.append_assoc]
      exact List.perm_append_comm.append_left _
    rw [hids]
    exact (h.tasks.append_right _).trans hmove
  · rw [List.nodup_append]
    exact ⟨h.single, by simp, fun a ha b hb hab => hf (List.mem_singleton.1 hb ▸ hab ▸ ha)⟩

/-! ## Finishing -/

/-- **Who still runs after a task has finished**: all the others -/
theorem finish_running (d : Delegator) (n : Nat) (outcome : Except GuardError Payload) (now : Nat) :
    (d.finish n outcome now).1.running = d.running.filter fun p => p.1 ≠ n := by
  unfold finish
  cases hl : d.running.lookup n with
  | none =>
    refine (List.filter_eq_self.2 fun p hp => ?_).symm
    have hne : n ≠ p.1 := by simpa using List.lookup_eq_none_iff.1 hl p hp
    simpa using hne.symm
  | some task => cases hc : d.closed <;> simp [retire, hc]

theorem running_perm {d : Delegator} (hn : (d.running.map Prod.fst).Nodup) {n : Nat} {task : Task}
    (hl : d.running.lookup n = some task) :
    d.running.Perm ((n, task) :: d.running.filter fun p => p.1 ≠ n) := by
  have hmem := mem_of_lookup hl
  obtain ⟨pre, post, hsplit⟩ := List.append_of_mem hmem
  have hother : ∀ p ∈ pre ++ post, p.1 ≠ n := by
    intro p hp hpn
    rw [hsplit, List.map_append, List.map_cons] at hn
    have hnot := (List.nodup_cons.1 (List.nodup_middle.1 hn)).1
    rw [← List.map_append] at hnot
    exact hnot (List.mem_map.2 ⟨p, hp, hpn⟩)
  have hfilter : (d.running.filter fun p => p.1 ≠ n) = pre ++ post := by
    rw [hsplit, List.filter_append, List.filter_cons_of_neg (by simp), ← List.filter_append]
    exact List.filter_eq_self.2 fun p hp => by simpa using hother p hp
  rw [hfilter, hsplit]
  exact List.perm_middle

/-- a task that finishes stays in flight until it is joined -/
theorem finish_sound {d : Delegator} (h : d.Sound) (n : Nat) (outcome : Except GuardError Payload) (now : Nat) :
    (d.finish n outcome now).1.Sound ∧ (d.finish n outcome now).1.inFlight = d.inFlight ∧
      (d.finish n outcome now).1.processed = d.processed := by
  have hrun := finish_running d n outcome now
  cases hl : d.running.lookup n with
  | none =>
    have hsame : d.finish n outcome now = (d, none) := by simp [finish, hl]
    rw [hsame]
    exact ⟨h, rfl, rfl⟩
  | some task =>
    have hstarted := h.started _ (mem_of_lookup hl)
    have hsub : ∀ p ∈ d.running.filter (fun p => p.1 ≠ n), p ∈ d.running := fun p hp => (List.mem_filter.1 hp).1
    generalize hc : (task.complete outcome now).toOption.getD task = ended at *
    have hended : ended.outcome? = some outcome := hc ▸ hstarted.complete outcome now
    have hid : ended.todoId = task.todoId := hc ▸ complete_todoId task outcome now
    have hd : (d.finish n outcome now).1 = { d with
        seats := (d.seats.discard n).1
        running := d.running.filter fun p => p.1 ≠ n
        finished := d.finished ++ [ended] } := by
      simp [finish, hl, retire, h.isOpen, hc]
    rw [hd]
    refine ⟨⟨h.isOpen, ?_, ?_, h.counter, fun p hp => h.started p (hsub p hp), ?_, ?_, h.single⟩, rfl, rfl⟩
    · exact h.numbers.sublist (List.filter_sublist.map Prod.fst)
    · intro m hm
      exact h.fresh m ((List.filter_sublist.map Prod.fst).subset hm)
    · intro t ht
      rcases List.mem_append.1 ht with ht | ht
      · exact h.ended t ht
      · rw [List.mem_singleton.1 ht]
        exact ⟨outcome, hended⟩
    · refine h.tasks.trans ?_
      have hperm := (running_perm h.numbers hl).map fun p => p.2.todoId
      rw [List.map_cons] at hperm
      simp only [todoIds, List.map_append, List.map_cons, List.map_nil, hid]
      -- the todo of the task goes from the front to the back
      refine (hperm.append_right _).trans ?_
      rw [List.cons_append, ← List.append_assoc]
      exact (List.perm_append_singleton _ _).symm

/-! ## Joining and marking -/

theorem mark_sound {d : Delegator} (h : d.Sound) (id : Ident) :
    (d.mark id).Sound ∧ (d.mark id).inFlight = d.inFlight := by
  unfold mark
  split_ifs
  · exact ⟨h, rfl⟩
  · exact ⟨{ h with }, rfl⟩

theorem mem_mark (d : Delegator) (id i : Ident) : i ∈ (d.mark id).processed ↔ i ∈ d.processed ∨ i = id := by
  unfold mark
  split_ifs with h
  · have hid : id ∈ d.processed := by simpa using h
    refine ⟨Or.inl, fun hi => ?_⟩
    rcases hi with hi | rfl
    · exact hi
    · exact hid
  · simp

/-- once no task runs, joining hands out a task for each todo in flight, and none is in flight any more -/
theorem joinAll_sound {d : Delegator} (h : d.Sound) (hr : d.running = []) :
    d.joinAll.1.Sound ∧ d.joinAll.1.inFlight = [] ∧ (d.joinAll.2.map Task.todoId).Perm d.inFlight := by
  have htasks : d.inFlight.Perm (d.finished.map Task.todoId) := by
    have := h.tasks
    rwa [todoIds, hr, List.map_nil, List.nil_append] at this
  have herase : ∀ (ts : List Task) (ids : List Ident),
      ts.foldl (fun ids t => ids.erase t.todoId) ids = ids.diff (ts.map Task.todoId) := by
    intro ts
    induction ts with
    | nil => simp
    | cons t ts ih => simp [ih]
  have hself : ∀ ids : List Ident, ids.diff ids = [] := by
    intro ids
    induction ids with
    | nil => rfl
    | cons i ids ih => simp [ih]
  have hnone : d.joinAll.1.inFlight = [] := by
    simp only [joinAll, herase]
    have hdiff := htasks.diff_right (d.finished.map Task.todoId)
    rw [hself] at hdiff
    exact List.perm_nil.1 hdiff
  refine ⟨⟨h.isOpen, h.numbers, h.fresh, h.counter, h.started, by simp [joinAll], ?_, by simp [hnone]⟩, hnone,
    htasks.symm⟩
  rw [hnone]
  simp [joinAll, todoIds, hr]

end Delegator

end Foreman
