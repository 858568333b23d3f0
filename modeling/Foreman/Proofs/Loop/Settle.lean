/-
What the end of a task means for its todo.

A todo with a task is in progress. A payload completes it, a failed call cancels it, and an error of the guards puts it
back. In the first two cases the delegator marks it as processed and its status never changes again. A loop takes more
than that from a task, but nothing else of it has to do with the status of todos (`Settles`).

Results:
- `settleTodo_statusOf`, `settleTodo_processed`: the one status that changes, and who is marked.
- `absorb_settles`, `collect_settles`:           both loops take in a task in this way.
-/
import Foreman.Proofs.Delegation.InFlight
import Foreman.Proofs.Loop.ReviewLinks
import Foreman.Proofs.Loop.WorkLinks
import Foreman.Proofs.Todo.Status

namespace Foreman

namespace Loop

/-- the status of a todo once a task of it has ended -/
def statusAfter : Except GuardError Payload → TodoStatus
  | .ok _ => .completed
  | .error (.call _) => .cancelled
  | .error _ => .pending

theorem statusAfter_cases (outcome : Except GuardError Payload) :
    statusAfter outcome = .pending ∨ statusAfter outcome = .completed ∨ statusAfter outcome = .cancelled := by
  cases outcome with
  | ok p => exact Or.inr (Or.inl rfl)
  | error e =>
    cases e with
    | call e => exact Or.inr (Or.inr rfl)
    | _ => exact Or.inl rfl

theorem settleTodo_ids (T : TodoList) (d : Delegator) (t : Task) : (settleTodo T d t).1.ids = T.ids :=
  TodoList.ids_of_held (settleTodo_held T d t)

theorem settleTodo_eq (T : TodoList) (d : Delegator) {t : Task} {outcome : Except GuardError Payload}
    (ho : t.outcome? = some outcome) :
    settleTodo T d t =
      if statusAfter outcome = .pending then ((T.requeue t.todoId).1, d)
      else ((T.setStatus t.todoId (statusAfter outcome)).1, d.mark t.todoId) := by
  unfold Task.outcome? at ho
  unfold settleTodo
  cases hr : t.result with
  | some p =>
    simp only [hr, Option.some.injEq] at ho
    rw [← ho]
    rfl
  | none =>
    cases he : t.error with
    | none => simp [hr, he] at ho
    | some e =>
      simp only [hr, he, Option.some.injEq] at ho
      rw [← ho]
      cases e <;> rfl

/-- **The one status that changes** -/
theorem settleTodo_statusOf {T : TodoList} (d : Delegator) {t : Task} {outcome : Except GuardError Payload}
    (ho : t.outcome? = some outcome) (h : T.statusOf t.todoId = some .inProgress) (j : Ident) :
    (settleTodo T d t).1.statusOf j = if j = t.todoId then some (statusAfter outcome) else T.statusOf j := by
  rw [settleTodo_eq T d ho]
  have hne : TodoStatus.inProgress ≠ statusAfter outcome := by
    rcases statusAfter_cases outcome with h | h | h <;> simp [h]
  split_ifs with hs hj hj
  · rw [TodoList.statusOf_requeue h, if_pos hj, hs]
  · rw [TodoList.statusOf_requeue h, if_neg hj]
  · rw [TodoList.statusOf_setStatus h rfl hne hs, if_pos hj]
  · rw [TodoList.statusOf_setStatus h rfl hne hs, if_neg hj]

/-- **Who is marked**: a todo whose turn is over for good -/
theorem settleTodo_processed (T : TodoList) (d : Delegator) {t : Task} {outcome : Except GuardError Payload}
    (ho : t.outcome? = some outcome) (j : Ident) :
    j ∈ (settleTodo T d t).2.processed ↔ j ∈ d.processed ∨ j = t.todoId ∧ statusAfter outcome ≠ .pending := by
  rw [settleTodo_eq T d ho]
  split_ifs with hs
  · simp [hs]
  · rw [Delegator.mem_mark]
    simp [hs]

theorem settleTodo_sound (T : TodoList) {d : Delegator} (h : d.Sound) (t : Task) :
    (settleTodo T d t).2.Sound ∧ (settleTodo T d t).2.inFlight = d.inFlight := by
  unfold settleTodo
  split
  · exact Delegator.mark_sound h _
  · split_ifs
    · exact ⟨h, rfl⟩
    · exact Delegator.mark_sound h _
  · exact ⟨h, rfl⟩

/-- a task taken in: its todo is settled, and nothing else is done to the status of todos -/
def Settles (T : TodoList) (d : Delegator) (t : Task) (T' : TodoList) (d' : Delegator) : Prop :=
  ∃ T₁ : TodoList, (∀ i, T₁.statusOf i = T.statusOf i) ∧ T₁.ids = T.ids ∧ (T', d') = settleTodo T₁ d t

theorem Settles.ids {T T' : TodoList} {d d' : Delegator} {t : Task} (h : Settles T d t T' d') : T'.ids = T.ids := by
  obtain ⟨T₁, -, hids, heq⟩ := h
  have hT : T' = (settleTodo T₁ d t).1 := congrArg Prod.fst heq
  rw [hT, settleTodo_ids, hids]

theorem foldl_ids {α : Type} {view : α → TodoList} {take : α × Delegator → Task → α × Delegator}
    (htake : ∀ s t, Settles (view s.1) s.2 t (view (take s t).1) (take s t).2) (ts : List Task) (s : α × Delegator) :
    (view (ts.foldl take s).1).ids = (view s.1).ids := by
  induction ts generalizing s with
  | nil => rfl
  | cons t ts ih =>
    rw [List.foldl_cons, ih]
    exact (htake s t).ids

/-- findings recorded and attached to a todo leave every status as it was -/
theorem record_attach (l : Ledger) (T : TodoList) (fs : List Finding) (id : Ident) :
    (∀ i, ((record l T fs).2.1.attach id (record l T fs).2.2).statusOf i = T.statusOf i) ∧
      ((record l T fs).2.1.attach id (record l T fs).2.2).ids = T.ids := by
  constructor
  · intro i
    rw [TodoList.statusOf_attach]
    exact TodoList.statusOf_repointAll T _ i
  · rw [TodoList.ids_attach]
    exact TodoList.ids_repointAll T _

end Loop

namespace WorkLoop

/-- **A work loop takes in a task.** -/
theorem absorb_settles (s : WorkContext × Delegator) (t : Task) :
    Loop.Settles s.1.todos s.2 t (absorb s t).1.todos (absorb s t).2 := by
  cases hr : t.result with
  | none =>
    refine ⟨s.1.todos, fun _ => rfl, rfl, ?_⟩
    simp [absorb, hr]
  | some p =>
    have hrec := Loop.record_attach s.1.ledger s.1.todos
      (Finding.ofReports s.1.nextId p.findings t.subagent (some t.todoId)) t.todoId
    refine ⟨_, hrec.1, hrec.2, ?_⟩
    simp [absorb, absorbPayload, hr]

end WorkLoop

namespace ReviewLoop

/-- **A review takes in a task.** -/
theorem collect_settles (s : ReviewContext × Delegator) (t : Task) :
    Loop.Settles s.1.todos s.2 t (collect s t).1.todos (collect s t).2 := by
  cases hr : t.result with
  | none =>
    refine ⟨s.1.todos, fun _ => rfl, rfl, ?_⟩
    simp [collect, hr]
  | some p =>
    have hrec := Loop.record_attach s.1.ledger s.1.todos
      (Finding.ofReports s.1.nextId p.findings t.subagent (some t.todoId)) t.todoId
    refine ⟨_, hrec.1, hrec.2, ?_⟩
    simp [collect, collectPayload, hr]

end ReviewLoop

end Foreman
