/-
Which todos are ready, now and later on.

A todo is ready if it is pending and all its dependencies are on the list and completed. What is ready is listed by
priority, and within one priority in order of creation. No operation takes a dependency of a todo away or adds one, and
what is completed stays so. So a todo that is ready once is ready for ever, whenever it is pending; and a todo with a
cancelled dependency never is.

Results:
- `mem_ready_iff`: what is ready.
- `ready_sorted`:  in which order it is listed.
- `run_same`:      a todo stays what it is about.
- `readiness`:     the whole, for every list that operations lead to.
-/
import Foreman.Proofs.Sorting
import Foreman.Proofs.Todo.Operations

namespace Foreman

theorem Todo.SameWork.refl (t : Todo) : t.SameWork t := ⟨rfl, rfl, rfl, rfl⟩

theorem Todo.SameWork.trans {a b c : Todo} (h : a.SameWork b) (h' : b.SameWork c) : a.SameWork c :=
  ⟨h'.id.trans h.id, h'.description.trans h.description, h'.priority.trans h.priority, h'.dependsOn.trans h.dependsOn⟩

namespace TodoList

/-! ## What is ready -/

theorem isCompleted_iff (l : TodoList) (i : Ident) : l.isCompleted i = true ↔ l.statusOf i = some .completed := by
  unfold isCompleted statusOf
  cases l.get? i <;> simp

/-- **What is ready** is pending, and all that it depends on is completed. -/
theorem mem_ready_iff {l : TodoList} {t : Todo} :
    t ∈ l.ready ↔ t ∈ l.items ∧ t.status = .pending ∧ ∀ i ∈ t.dependsOn, l.statusOf i = some .completed := by
  simp only [ready, List.mem_mergeSort, List.mem_filter, Bool.and_eq_true, beq_iff_eq, dependenciesMet, List.all_eq_true,
    isCompleted_iff]

/-- **What is ready is listed by priority**, and within one priority in order of creation. -/
theorem ready_sorted (l : TodoList) :
    l.ready.Pairwise (fun a b => a.priority.rank ≤ b.priority.rank) ∧
      ∀ p, (l.ready.filter (·.priority = p)).Sublist l.items := by
  have htrans : ∀ a b c : Todo, decide (a.priority.rank ≤ b.priority.rank) = true →
      decide (b.priority.rank ≤ c.priority.rank) = true → decide (a.priority.rank ≤ c.priority.rank) = true := by
    simp only [decide_eq_true_eq]
    exact fun a b c => Nat.le_trans
  have htotal : ∀ a b : Todo,
      (decide (a.priority.rank ≤ b.priority.rank) || decide (b.priority.rank ≤ a.priority.rank)) = true := by
    simp only [Bool.or_eq_true, decide_eq_true_eq]
    exact fun a b => Nat.le_total _ _
  constructor
  · exact (List.pairwise_mergeSort htrans htotal _).imp of_decide_eq_true
  · intro p
    rw [ready, Sorting.filter_mergeSort htrans htotal]
    · exact List.filter_sublist.trans List.filter_sublist
    · intro a b ha hb
      rw [of_decide_eq_true ha, of_decide_eq_true hb]
      exact decide_eq_true (Nat.le_refl _)

/-! ## What stays -/

/-- **A todo stays what it is about**, whatever is done with the list. -/
theorem run_same {l : TodoList} {t : Todo} (ht : t ∈ l.items) (ops : List Op) : ∃ t' ∈ (l.run ops).items, t.SameWork t' := by
  induction ops generalizing l t with
  | nil => exact ⟨t, ht, .refl t⟩
  | cons op ops ih =>
    obtain ⟨touch, new, htouched⟩ := step_touched l op
    have hthere : touch t ∈ (l.step op).items := by
      rw [htouched.items]
      exact List.mem_append_left _ (List.mem_map_of_mem ht)
    obtain ⟨t', ht', hsame⟩ := ih hthere
    exact ⟨t', ht', (htouched.same t).trans hsame⟩

theorem SameWork.unique {l : TodoList} {t a b : Todo} (hn : l.ids.Nodup) (ha : a ∈ l.items) (hb : b ∈ l.items)
    (hta : t.SameWork a) (hid : b.id = t.id) : a = b :=
  List.inj_on_of_nodup_map hn ha hb (hta.id.trans hid.symm)

/-- what holds of the ready todos of a list after operations from the empty one, and of all that comes after them -/
structure Readiness (ops : List Op) : Prop where
  /-- what is ready is pending, and all its dependencies are on the list and completed -/
  ready_iff : ∀ t, t ∈ (empty.run ops).ready ↔ t ∈ (empty.run ops).items ∧ t.status = .pending ∧
    ∀ i ∈ t.dependsOn, ∃ k ∈ (empty.run ops).items, k.id = i ∧ k.status = .completed
  /-- nothing is listed twice -/
  once : ((empty.run ops).ready.map Todo.id).Nodup
  /-- the most urgent come first, and within one priority the oldest -/
  urgent : (empty.run ops).ready.Pairwise fun a b => a.priority.rank ≤ b.priority.rank
  oldest : ∀ p, ((empty.run ops).ready.filter (·.priority = p)).Sublist (empty.run ops).items
  /-- what is ready stays so as long as it is pending, and is ready again when it is put back -/
  stays : ∀ t ∈ (empty.run ops).ready, ∀ more,
    (∃ t' ∈ (empty.run (ops ++ more)).ready, t.SameWork t') ↔ (empty.run (ops ++ more)).statusOf t.id = some .pending
  /-- what depends on something cancelled is never ready again -/
  never : ∀ t ∈ (empty.run ops).items, ∀ i ∈ t.dependsOn, (empty.run ops).statusOf i = some .cancelled →
    ∀ more, ∀ t' ∈ (empty.run (ops ++ more)).ready, t'.id ≠ t.id

/-- **Readiness**, of every list that operations lead to, and whatever is done with it later. -/
theorem readiness (ops : List Op) : Readiness ops := by
  have hnodup : ∀ ops, (empty.run ops).ids.Nodup := fun ops => (run_onward (l := empty) List.nodup_nil ops).nodup
  have hn := hnodup ops
  have hlater : ∀ more, Onward (empty.run ops) (empty.run (ops ++ more)) := by
    intro more
    rw [run_append]
    exact run_onward hn more
  have hkept : ∀ t ∈ (empty.run ops).items, ∀ more, ∃ t' ∈ (empty.run (ops ++ more)).items, t.SameWork t' := by
    intro t ht more
    rw [run_append]
    exact run_same ht more
  obtain ⟨hurgent, holdest⟩ := ready_sorted (empty.run ops)
  exact
    { ready_iff := by
        intro t
        rw [mem_ready_iff]
        simp only [statusOf_iff hn]
      once := (ready_pending hn).2
      urgent := hurgent
      oldest := holdest
      stays := by
        intro t ht more
        constructor
        · rintro ⟨t', ht', hsame⟩
          rw [← hsame.id]
          exact (ready_pending (hnodup _)).1 t' ht'
        · intro hpending
          obtain ⟨hthere, -, hmet⟩ := mem_ready_iff.1 ht
          obtain ⟨t', ht', hsame⟩ := hkept t hthere more
          refine ⟨t', mem_ready_iff.2 ⟨ht', ?_, ?_⟩, hsame⟩
          · obtain ⟨k, hk, hid, hstatus⟩ := (statusOf_iff (hnodup _) t.id .pending).1 hpending
            rwa [SameWork.unique (hnodup _) ht' hk hsame hid]
          · -- what it depends on was completed, and stays so
            intro i hi
            rw [hsame.dependsOn] at hi
            exact (hlater more).final i _ (hmet i hi) rfl
      never := by
        intro t ht i hi hcancelled more t' ht' hid
        obtain ⟨hthere, -, hmet⟩ := mem_ready_iff.1 ht'
        obtain ⟨k, hk, hsame⟩ := hkept t ht more
        obtain rfl := SameWork.unique (hnodup _) hk hthere hsame hid
        have hcompleted := hmet i (hsame.dependsOn ▸ hi)
        rw [(hlater more).final i _ hcancelled rfl] at hcompleted
        cases hcompleted }

/-- a todo that waited for another one is begun and put back, and is ready again -/
example :
    let a := Todo.fresh (.given "a") "first" .low
    let b := { Todo.fresh (.given "b") "after it" .high with dependsOn := [a.id] }
    let c := Todo.fresh (.given "c") "another" .medium
    (empty.run [.extend [a, b, c], .setStatus a.id .completed, .setStatus b.id .inProgress, .requeue b.id]).ready.map
      Todo.id = [b.id, c.id] := by
  cbv

end TodoList

end Foreman
