/-
What the parts of a loop leave alone.

Dispatching todos and settling them changes their status only, and planning adds todos without findings. Every task
that a delegator holds is about one of the todos that were dispatched to it: performing and joining tasks makes no new
ones.

Results:
- `dispatch_frame`:    dispatching keeps the finding ids; each new task is about a dispatched todo.
- `performAll_frame`:  performing tasks joins tasks that the delegator held.
- `ofGoal_new`:        the todos of a goal are new.
- `Grown`:             todos without findings were added.
-/
import Mathlib.Tactic
import Foreman.Loop.Basic
import Foreman.Proofs.Delegation.Life
import Foreman.Proofs.Todo.FindingIds

namespace Foreman

/-- a todo as loops make them: pending, without findings, and with a minted id -/
structure Todo.New (t : Todo) : Prop where
  pending : t.status = .pending
  blank : t.findingIds = []
  minted : ∃ k, t.id = .minted k

/-! ## The tasks of a delegator -/

namespace Delegator

/-- the todos that the tasks of a delegator are about -/
def todoIds (d : Delegator) : List Ident := d.running.map (fun p => p.2.todoId) ++ d.finished.map Task.todoId

theorem mem_of_lookup {n : Nat} {t : Task} {running : List (Nat × Task)} (h : running.lookup n = some t) :
    (n, t) ∈ running := by
  induction running with
  | nil => simp at h
  | cons p running ih =>
    rw [List.lookup_cons] at h
    split at h
    · rename_i hn
      simp only [Option.some.injEq] at h
      rw [← h, eq_of_beq hn]
      exact List.mem_cons_self
    · exact List.mem_cons_of_mem _ (ih h)

theorem retire_running (d : Delegator) (n : Nat) : (d.retire n).1.running ⊆ d.running := by
  intro p hp
  exact (List.mem_filter.1 hp).1

theorem complete_todoId (t : Task) (outcome : Except GuardError Payload) (now : Nat) :
    ((t.complete outcome now).toOption.getD t).todoId = t.todoId := by
  by_cases h : t.status = .inProgress
  · rw [Task.complete_inProgress h]
    cases outcome <;> rfl
  · rw [Task.complete_refused h]
    rfl

theorem finish_todoIds (d : Delegator) (n : Nat) (outcome : Except GuardError Payload) (now : Nat) :
    (d.finish n outcome now).1.todoIds ⊆ d.todoIds := by
  unfold finish
  cases hl : d.running.lookup n with
  | none => exact fun i hi => hi
  | some t =>
    have hrun : ∀ i ∈ (d.retire n).1.running.map (fun p => p.2.todoId), i ∈ d.running.map fun p => p.2.todoId :=
      fun i hi => List.map_subset _ (retire_running d n) hi
    have ht : t.todoId ∈ d.running.map fun p => p.2.todoId := List.mem_map.2 ⟨(n, t), mem_of_lookup hl, rfl⟩
    simp only
    split_ifs
    · intro i hi
      exact (List.mem_append.1 hi).elim (fun hi => List.mem_append_left _ (hrun i hi)) (List.mem_append_right _)
    · intro i hi
      simp only [todoIds, List.map_append, List.map_cons, List.map_nil, List.mem_append, List.mem_singleton,
        complete_todoId] at hi ⊢
      rcases hi with hi | hi | rfl
      · exact Or.inl (hrun i hi)
      · exact Or.inr hi
      · exact Or.inl ht

theorem crash_todoIds (d : Delegator) (n : Nat) : (d.crash n).1.todoIds ⊆ d.todoIds := by
  unfold crash
  cases d.running.lookup n with
  | none => exact fun i hi => hi
  | some t =>
    intro i hi
    refine (List.mem_append.1 hi).elim (fun hi => List.mem_append_left _ ?_) (List.mem_append_right _)
    exact List.map_subset _ (retire_running d n) hi

theorem mark_todoIds (d : Delegator) (id : Ident) : (d.mark id).todoIds = d.todoIds := by
  unfold mark
  split_ifs <;> rfl

theorem delegate_todoIds {d d' : Delegator} {taskId : Ident} {t : Todo} {instructions : String} {r : Dispatch}
    (h : d.delegate taskId t instructions = .ok (d', r)) : ∀ i ∈ d'.todoIds, i ∈ d.todoIds ∨ i = t.id := by
  unfold delegate at h
  split_ifs at h with hc hp hf
  · simp only [Except.ok.injEq, Prod.mk.injEq] at h
    exact fun i hi => Or.inl (h.1 ▸ hi)
  · simp only [Except.ok.injEq, Prod.mk.injEq] at h
    exact fun i hi => Or.inl (h.1 ▸ hi)
  · cases hb : d.registry.route t.description with
    | error e => simp [hb, bind, Except.bind] at h
    | ok b =>
      simp only [hb, bind, Except.bind, Task.start, Task.advance, Task.fresh, if_true, pure, Except.pure,
        Except.ok.injEq, Prod.mk.injEq] at h
      intro i hi
      rw [← h.1] at hi
      simp only [todoIds, List.map_append, List.map_cons, List.map_nil, List.mem_append, List.mem_singleton] at hi ⊢
      tauto

end Delegator

namespace Loop

theorem settle_todoIds (d : Delegator) (endings : Endings) (now : Nat) :
    (settle d endings now).todoIds ⊆ d.todoIds := by
  induction endings using List.reverseRecOn with
  | nil => exact fun i hi => hi
  | append_singleton endings e ih =>
    rw [settle, List.foldl_append, List.foldl_cons, List.foldl_nil, ← settle]
    cases e.2 with
    | some outcome => exact fun i hi => ih (Delegator.finish_todoIds _ _ _ _ hi)
    | none => exact fun i hi => ih (Delegator.crash_todoIds _ _ hi)

theorem performAll_frame {ω : Type} (w : World ω) (world : ω) (d : Delegator) :
    (performAll w world d).2.1.todoIds ⊆ d.todoIds ∧ ∀ t ∈ (performAll w world d).2.2, t.todoId ∈ d.todoIds := by
  have hsettle := settle_todoIds d (w.perform world d.cap d.running).2 (w.clock (w.perform world d.cap d.running).1)
  constructor
  · intro i hi
    simp only [performAll, Delegator.joinAll, Delegator.todoIds, List.map_nil, List.append_nil] at hi
    exact hsettle (List.mem_append_left _ hi)
  · intro t ht
    exact hsettle (List.mem_append_right _ (List.mem_map_of_mem ht))

/-! ## Todos -/

theorem mem_ready {T : TodoList} {t : Todo} (h : t ∈ T.ready) : t ∈ T.items := by
  rw [TodoList.ready, List.mem_mergeSort] at h
  exact (List.mem_filter.1 h).1

theorem settleTodo_held (T : TodoList) (d : Delegator) (t : Task) : (settleTodo T d t).1.held = T.held := by
  unfold settleTodo
  split
  · exact TodoList.setStatus_held ..
  · split_ifs
    · exact TodoList.requeue_held ..
    · exact TodoList.setStatus_held ..
  · rfl

theorem settleTodo_todoIds (T : TodoList) (d : Delegator) (t : Task) : (settleTodo T d t).2.todoIds = d.todoIds := by
  unfold settleTodo
  split
  · exact d.mark_todoIds _
  · split_ifs
    · rfl
    · exact d.mark_todoIds _
  · rfl

theorem dispatch_frame (d : Delegator) (T : TodoList) (next : Nat) (instructions : Todo → String) (ts : List Todo) :
    (dispatch d T next instructions ts).2.1.held = T.held ∧
      ∀ i ∈ (dispatch d T next instructions ts).1.todoIds, i ∈ d.todoIds ∨ i ∈ ts.map Todo.id := by
  induction ts generalizing d T next with
  | nil => exact ⟨rfl, fun i hi => Or.inl hi⟩
  | cons t ts ih =>
    rw [dispatch, List.foldl_cons, ← dispatch]
    cases h : d.delegate (.minted next) t (instructions t) with
    | error e =>
      simp only
      obtain ⟨hheld, hids⟩ := ih d T (next + 1)
      exact ⟨hheld, fun i hi => (hids i hi).imp_right (List.mem_cons_of_mem _)⟩
    | ok r =>
      obtain ⟨d', r⟩ := r
      simp only
      obtain ⟨hheld, hids⟩ := ih d' (if r.isDispatched = true then (T.setStatus t.id .inProgress).1 else T) (next + 1)
      refine ⟨?_, fun i hi => ?_⟩
      · rw [hheld]
        split_ifs
        · exact TodoList.setStatus_held ..
        · rfl
      · rcases hids i hi with hi | hi
        · exact (Delegator.delegate_todoIds h i hi).imp_right fun hi => by simp [hi]
        · exact Or.inr (List.mem_cons_of_mem _ hi)

/-! ## Planning -/

/-- todos without findings were added -/
def Grown (T T' : TodoList) : Prop := ∃ ids : List Ident, T'.held = T.held ++ ids.map fun i => (i, [])

theorem Grown.refl (T : TodoList) : Grown T T := ⟨[], by simp⟩

theorem Grown.trans {T T' T'' : TodoList} (h : Grown T T') (h' : Grown T' T'') : Grown T T'' := by
  obtain ⟨ids, hids⟩ := h
  obtain ⟨ids', hids'⟩ := h'
  exact ⟨ids ++ ids', by rw [hids', hids, List.map_append, List.append_assoc]⟩

theorem push_grown (T : TodoList) {t : Todo} (h : t.findingIds = []) : Grown T (T.push t).1 := by
  rcases T.push_held h with hheld | hheld
  · exact ⟨[], by simp [hheld]⟩
  · exact ⟨[t.id], by simp [hheld]⟩

theorem extend_grown (T : TodoList) {ts : List Todo} (h : ∀ t ∈ ts, t.findingIds = []) : Grown T (T.extend ts) := by
  induction ts generalizing T with
  | nil => exact .refl T
  | cons t ts ih =>
    rw [TodoList.extend, List.foldl_cons, ← TodoList.extend]
    exact (push_grown T (h t List.mem_cons_self)).trans (ih _ fun k hk => h k (List.mem_cons_of_mem _ hk))

theorem planFollowUps_grown (T : TodoList) (next : Nat) (texts : List String) :
    Grown T (planFollowUps T next texts).1 := by
  induction texts using List.reverseRecOn with
  | nil => exact .refl T
  | append_singleton texts text ih =>
    rw [planFollowUps, List.foldl_append, List.foldl_cons, List.foldl_nil, ← planFollowUps]
    unfold planFollowUp
    split_ifs
    · exact ih
    · exact ih.trans (push_grown _ rfl)

/-- **All todos of a goal are new.** -/
theorem ofGoal_new {next : Nat} {goal : String} {ts : List Todo} (h : Plan.ofGoal next goal = some ts) :
    ∀ t ∈ ts, t.New := by
  have hclauses : ∀ parts, ∀ t ∈ Plan.ofClauses next parts, t.New := by
    intro parts t ht
    obtain ⟨i, hi, rfl⟩ := List.mem_mapIdx.1 ht
    exact ⟨rfl, rfl, _, rfl⟩
  have hchain : ∀ task, ∀ t ∈ Plan.chain next task, t.New := by
    intro task t ht
    simp only [Plan.chain, List.mem_cons, List.not_mem_nil, or_false] at ht
    rcases ht with rfl | rfl | rfl <;> exact ⟨rfl, rfl, _, rfl⟩
  unfold Plan.ofGoal at h
  by_cases hmarked : 2 ≤ (Plan.explicitItems goal.toList).length
  · simp only [hmarked, if_true, Option.some.injEq] at h
    exact h ▸ hclauses _
  · simp only [hmarked, if_false] at h
    obtain ⟨parts, -, rfl⟩ := Option.map_eq_some_iff.1 h
    split_ifs
    · exact hclauses _
    · simp
    · exact hchain _

end Loop

end Foreman
