/-
Which todo has which status.

The status of an id is that of the first todo with it; where ids are distinct it is that of the todo. Changing one todo
changes no other one, and finding ids have nothing to do with status. Adding todos leaves every status as it was, and
the ids that are new belong to pending todos (`Widened`).

Results:
- `get?_modify`:                             what a change of one todo does to each.
- `statusOf_setStatus`, `statusOf_requeue`:  the one status that changes.
- `push_widened`, `extend_widened`:          adding pending todos.
- `statusOf_iff`, `ready_pending`:           status of an id and status of a todo.
-/
import Mathlib.Tactic
import Foreman.Proofs.Todo.FindingIds

namespace Foreman

theorem TodoStatus.isTerminal_iff (s : TodoStatus) : s.isTerminal = true ↔ s = .completed ∨ s = .cancelled := by
  cases s <;> simp [TodoStatus.isTerminal]

namespace TodoList

def ids (l : TodoList) : List Ident := l.items.map Todo.id

/-- the status of the todo with an id -/
def statusOf (l : TodoList) (id : Ident) : Option TodoStatus := (l.get? id).map Todo.status

theorem held_ids (l : TodoList) : l.held.map Prod.fst = l.ids := by
  simp [held, ids]

theorem ids_of_held {l l' : TodoList} (h : l'.held = l.held) : l'.ids = l.ids := by
  rw [← held_ids, ← held_ids, h]

theorem get?_id {l : TodoList} {id : Ident} {t : Todo} (h : l.get? id = some t) : t.id = id := by
  simpa using List.find?_some h

theorem get?_mem {l : TodoList} {id : Ident} {t : Todo} (h : l.get? id = some t) : t ∈ l.items :=
  List.mem_of_find?_eq_some h

theorem get?_eq_none (l : TodoList) (id : Ident) : l.get? id = none ↔ id ∉ l.ids := by
  simp only [get?, List.find?_eq_none, beq_iff_eq, ids, List.mem_map, not_exists, not_and]

theorem statusOf_eq_none (l : TodoList) (id : Ident) : l.statusOf id = none ↔ id ∉ l.ids := by
  rw [statusOf, Option.map_eq_none_iff, get?_eq_none]

theorem mem_ids_of_statusOf {l : TodoList} {id : Ident} {s : TodoStatus} (h : l.statusOf id = some s) :
    id ∈ l.ids := by
  by_contra hn
  rw [(statusOf_eq_none l id).2 hn] at h
  cases h

/-! ## Changes of one todo -/

/-- **A change of one todo leaves the others alone.** -/
theorem get?_modify (l : TodoList) (id : Ident) {f : Todo → Todo} (hf : ∀ t, (f t).id = t.id) (j : Ident) :
    (l.modify id f).get? j = if j = id then (l.get? j).map f else l.get? j := by
  have hid : ∀ t : Todo, (if t.id = id then f t else t).id = t.id := by
    intro t
    split_ifs
    · exact hf t
    · rfl
  have hsearch : ((fun t : Todo => t.id == j) ∘ fun t => if t.id = id then f t else t) = fun t => t.id == j := by
    funext t
    simp only [Function.comp_apply, hid]
  simp only [get?, modify, List.find?_map, hsearch]
  cases h : l.items.find? (fun t => t.id == j) with
  | none => simp
  | some t =>
    have ht : t.id = j := by simpa using List.find?_some h
    simp only [Option.map_some, ht]
    split_ifs <;> rfl

theorem statusOf_modify (l : TodoList) (id : Ident) {f : Todo → Todo}
    (hf : ∀ t, (f t).id = t.id ∧ (f t).status = t.status) (j : Ident) :
    (l.modify id f).statusOf j = l.statusOf j := by
  rw [statusOf, get?_modify l id (fun t => (hf t).1), statusOf]
  split_ifs
  · rw [Option.map_map]
    exact congrArg (Option.map · (l.get? j)) (funext fun t => (hf t).2)
  · rfl

theorem statusOf_put {l : TodoList} {id : Ident} {old : TodoStatus} (h : l.statusOf id = some old) (s : TodoStatus)
    (j : Ident) :
    (l.modify id fun t => { t with status := s }).statusOf j = if j = id then some s else l.statusOf j := by
  rw [statusOf, get?_modify l id (f := fun t => { t with status := s }) fun _ => rfl]
  split_ifs with hj
  · subst hj
    obtain ⟨t, ht, -⟩ := Option.map_eq_some_iff.1 h
    simp [ht]
  · rfl

/-- **Setting a status** that the todo may take changes this one status. -/
theorem statusOf_setStatus {l : TodoList} {id : Ident} {old s : TodoStatus} (h : l.statusOf id = some old)
    (hopen : old.isTerminal = false) (hne : old ≠ s) (hs : s ≠ .pending) (j : Ident) :
    (l.setStatus id s).1.statusOf j = if j = id then some s else l.statusOf j := by
  obtain ⟨t, ht, hold⟩ := Option.map_eq_some_iff.1 h
  have hmay : mayMove t s = true := by simp [mayMove, hold, hopen, hne, hs]
  simp only [setStatus, ht, hmay, if_true]
  exact statusOf_put h s j

/-- **Putting a todo back** changes this one status. -/
theorem statusOf_requeue {l : TodoList} {id : Ident} (h : l.statusOf id = some .inProgress) (j : Ident) :
    (l.requeue id).1.statusOf j = if j = id then some .pending else l.statusOf j := by
  obtain ⟨t, ht, hold⟩ := Option.map_eq_some_iff.1 h
  simp only [requeue, ht, hold, if_true]
  exact statusOf_put h .pending j

/-! ## Finding ids -/

theorem statusOf_attach (l : TodoList) (id : Ident) (new : List Ident) (j : Ident) :
    (l.attach id new).statusOf j = l.statusOf j := by
  apply statusOf_modify
  exact fun _ => ⟨rfl, rfl⟩

theorem statusOf_repointAll (l : TodoList) (ps : List (Ident × Ident)) (j : Ident) :
    (l.repointAll ps).statusOf j = l.statusOf j := by
  induction ps using List.reverseRecOn with
  | nil => rfl
  | append_singleton ps p ih =>
    rw [repointAll_append, ← ih, repointAll, List.foldl_cons, List.foldl_nil]
    simp only [statusOf, get?, repoint, List.find?_map, Option.map_map]
    rfl

theorem ids_attach (l : TodoList) (id : Ident) (new : List Ident) : (l.attach id new).ids = l.ids := by
  simp only [ids, attach, modify, List.map_map]
  refine List.map_congr_left fun t _ => ?_
  simp only [Function.comp_apply]
  split_ifs <;> rfl

theorem ids_repointAll (l : TodoList) (ps : List (Ident × Ident)) : (l.repointAll ps).ids = l.ids := by
  induction ps using List.reverseRecOn with
  | nil => rfl
  | append_singleton ps p ih =>
    rw [repointAll_append, ← ih, repointAll, List.foldl_cons, List.foldl_nil]
    simp [ids, repoint]

/-! ## New todos -/

/-- todos were added: every status is what it was, and new ids belong to pending todos -/
structure Widened (l l' : TodoList) : Prop where
  kept : ∀ j, j ∈ l.ids → l'.statusOf j = l.statusOf j
  new : ∀ j, j ∉ l.ids → l'.statusOf j = none ∨ l'.statusOf j = some .pending
  ids : l.ids <+: l'.ids
  nodup : l.ids.Nodup → l'.ids.Nodup

theorem Widened.refl (l : TodoList) : Widened l l :=
  ⟨fun _ _ => rfl, fun j hj => Or.inl ((statusOf_eq_none l j).2 hj), List.prefix_refl _, id⟩

theorem Widened.trans {a b c : TodoList} (h : Widened a b) (h' : Widened b c) : Widened a c where
  kept := fun j hj => (h'.kept j (h.ids.subset hj)).trans (h.kept j hj)
  new := fun j hj => by
    by_cases hb : j ∈ b.ids
    · rw [h'.kept j hb]
      exact h.new j hj
    · exact h'.new j hb
  ids := h.ids.trans h'.ids
  nodup := fun hn => h'.nodup (h.nodup hn)

theorem push_nodup {l : TodoList} (h : l.ids.Nodup) (t : Todo) : (l.push t).1.ids.Nodup := by
  unfold push
  split_ifs with hget
  · exact h
  · have hnew : t.id ∉ l.ids := by
      rw [← get?_eq_none]
      simpa using hget
    have hlast : (TodoList.mk (l.items ++ [t])).ids = l.ids ++ [t.id] := by simp [ids]
    rw [hlast, List.nodup_append]
    exact ⟨h, by simp, fun a ha b hb hab => hnew (List.mem_singleton.1 hb ▸ hab ▸ ha)⟩

theorem push_widened (l : TodoList) {t : Todo} (ht : t.status = .pending) : Widened l (l.push t).1 := by
  have hnodup : l.ids.Nodup → (l.push t).1.ids.Nodup := fun hn => push_nodup hn t
  unfold push at hnodup ⊢
  split_ifs with h
  · exact .refl l
  · rw [if_neg h] at hnodup
    have hget : ∀ j, (TodoList.mk (l.items ++ [t])).get? j = (l.get? j).or (if t.id = j then some t else none) := by
      intro j
      by_cases hj : t.id = j <;> simp [get?, List.find?_append, hj]
    refine ⟨fun j hj => ?_, fun j hj => ?_, by simp [TodoList.ids], hnodup⟩
    · obtain ⟨k, hk⟩ : ∃ k, l.get? j = some k := by
        rw [← Option.ne_none_iff_exists', ne_eq, get?_eq_none]
        exact not_not.2 hj
      simp [statusOf, hget, hk]
    · rw [← get?_eq_none] at hj
      by_cases htj : t.id = j
      · exact Or.inr (by simp [statusOf, hget, hj, htj, ht])
      · exact Or.inl (by simp [statusOf, hget, hj, htj])

theorem extend_widened (l : TodoList) {ts : List Todo} (h : ∀ t ∈ ts, t.status = .pending) :
    Widened l (l.extend ts) := by
  induction ts generalizing l with
  | nil => exact .refl l
  | cons t ts ih =>
    rw [extend, List.foldl_cons, ← extend]
    exact (push_widened l (h t List.mem_cons_self)).trans (ih _ fun k hk => h k (List.mem_cons_of_mem _ hk))

theorem Widened.of_same {l l' : TodoList} (hids : l'.ids = l.ids) (hs : ∀ j, l'.statusOf j = l.statusOf j) :
    Widened l l' where
  kept := fun j _ => hs j
  new := fun j hj => Or.inl ((hs j).trans ((statusOf_eq_none l j).2 hj))
  ids := hids ▸ List.prefix_refl _
  nodup := fun hn => hids ▸ hn

theorem extend_items (l : TodoList) (ts : List Todo) : l.items <+: (l.extend ts).items := by
  induction ts generalizing l with
  | nil => exact List.prefix_refl _
  | cons t ts ih =>
    rw [extend, List.foldl_cons, ← extend]
    refine List.IsPrefix.trans ?_ (ih _)
    unfold push
    split_ifs
    · exact List.prefix_refl _
    · exact List.prefix_append _ _

theorem ofList_isEmpty (ts : List Todo) : (ofList ts).isEmpty = ts.isEmpty := by
  cases ts with
  | nil => rfl
  | cons t ts =>
    have hfirst : [t] <+: (ofList (t :: ts)).items := extend_items (empty.push t).1 ts
    have hmem : t ∈ (ofList (t :: ts)).items := hfirst.subset List.mem_cons_self
    rw [isEmpty, List.isEmpty_cons, List.isEmpty_eq_false_iff]
    exact List.ne_nil_of_mem hmem

/-! ## The status of a todo -/

/-- where ids are distinct, the status of an id is that of its todo -/
theorem statusOf_iff {l : TodoList} (h : l.ids.Nodup) (id : Ident) (s : TodoStatus) :
    l.statusOf id = some s ↔ ∃ t ∈ l.items, t.id = id ∧ t.status = s := by
  constructor
  · intro hs
    obtain ⟨t, ht, hts⟩ := Option.map_eq_some_iff.1 hs
    exact ⟨t, get?_mem ht, get?_id ht, hts⟩
  · rintro ⟨t, ht, rfl, rfl⟩
    cases hg : l.get? t.id with
    | none => exact absurd (List.mem_map_of_mem ht) ((get?_eq_none l t.id).1 hg)
    | some k =>
      have hk : k = t := List.inj_on_of_nodup_map h (get?_mem hg) ht (get?_id hg)
      simp [statusOf, hg, hk]

/-- no todo is unresolved if all are completed or cancelled -/
theorem unresolved_eq_zero (l : TodoList) :
    l.unresolved = 0 ↔ ∀ t ∈ l.items, t.status = .completed ∨ t.status = .cancelled := by
  rw [unresolved, List.countP_eq_zero]
  simp [TodoStatus.isTerminal_iff]

/-- what is ready is pending, and no two ready todos have the same id -/
theorem ready_pending {l : TodoList} (h : l.ids.Nodup) :
    (∀ t ∈ l.ready, l.statusOf t.id = some .pending) ∧ (l.ready.map Todo.id).Nodup := by
  constructor
  · intro t ht
    rw [ready, List.mem_mergeSort, List.mem_filter, Bool.and_eq_true, beq_iff_eq] at ht
    exact (statusOf_iff h t.id .pending).2 ⟨t, ht.1, rfl, ht.2.1⟩
  · have hperm := (List.mergeSort_perm (l.items.filter fun t => t.status == .pending && l.dependenciesMet t)
      fun a b => decide (a.priority.rank ≤ b.priority.rank)).map Todo.id
    exact hperm.nodup_iff.2 (h.sublist (List.filter_sublist.map Todo.id))

end TodoList

end Foreman
