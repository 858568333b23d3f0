/-
Completing all todos of a list, in whatever order they become ready.

On a list where todos depend on earlier ones only, the first todo that is not completed has all its dependencies behind it,
so it is ready. Completing what is ready therefore never gets stuck, whichever of the ready todos is taken, and once each
todo had its turn all are completed.

Results:
- `Underway.next`:      what completing a ready todo does.
- `Underway.exists_ready`: something is ready as long as something is left to do.
- `completable`:        the whole.
-/
import Foreman.Proofs.Todo.Dependencies
import Foreman.Proofs.Todo.Readiness

namespace Foreman.TodoList

/-- todos depend on earlier todos of the list only -/
def Backward (l : TodoList) : Prop := ∀ pre p post, l.edges = pre ++ p :: post → ∀ i ∈ p.2, i ∈ pre.map Prod.fst

def complete (l : TodoList) (order : List Ident) : TodoList := order.foldl (fun l i => (l.setStatus i .completed).1) l

/-- each of these todos is ready in its turn, when those before it have been completed -/
def InTurn (l : TodoList) : List Ident → Prop
  | [] => True
  | i :: order => i ∈ l.ready.map Todo.id ∧ (l.setStatus i .completed).1.InTurn order

theorem complete_append (l : TodoList) (order rest : List Ident) :
    l.complete (order ++ rest) = (l.complete order).complete rest := by
  simp [complete]

theorem inTurn_append {l : TodoList} {order rest : List Ident} :
    l.InTurn (order ++ rest) ↔ l.InTurn order ∧ (l.complete order).InTurn rest := by
  induction order generalizing l with
  | nil => simp [InTurn, complete]
  | cons i order ih => rw [List.cons_append, InTurn, InTurn, ih, and_assoc]; rfl

/-! ## Under way -/

/-- some todos are completed and the others are pending, and none depends on a later one -/
structure Underway (l : TodoList) (done : List Ident) : Prop where
  distinct : l.ids.Nodup
  backward : l.Backward
  once : done.Nodup
  there : done ⊆ l.ids
  status : ∀ t ∈ l.items, t.status = if t.id ∈ done then .completed else .pending

section Underway

variable {l : TodoList} {done order : List Ident} {i : Ident}

theorem Underway.statusOf (h : l.Underway done) (hi : i ∈ l.ids) :
    l.statusOf i = some (if i ∈ done then .completed else .pending) := by
  obtain ⟨t, ht, rfl⟩ := List.mem_map.1 hi
  exact (statusOf_iff h.distinct t.id _).2 ⟨t, ht, rfl, h.status t ht⟩

theorem Underway.ready (h : l.Underway done) (hi : i ∈ l.ready.map Todo.id) : i ∈ l.ids ∧ i ∉ done := by
  obtain ⟨t, ht, rfl⟩ := List.mem_map.1 hi
  have hpending := (ready_pending h.distinct).1 t ht
  have hthere := mem_ids_of_statusOf hpending
  refine ⟨hthere, fun hdone => ?_⟩
  rw [h.statusOf hthere, if_pos hdone] at hpending
  cases hpending

/-- **Completing a ready todo** leaves all others as they are. -/
theorem Underway.next (h : l.Underway done) (hi : i ∈ l.ready.map Todo.id) :
    (l.setStatus i .completed).1.Underway (done ++ [i]) := by
  obtain ⟨hthere, hnew⟩ := h.ready hi
  have hedges := setStatus_edges l i .completed
  have hids : (l.setStatus i .completed).1.ids = l.ids := by rw [← edges_ids, ← edges_ids, hedges]
  have hold : l.statusOf i = some .pending := by rw [h.statusOf hthere, if_neg hnew]
  constructor
  case distinct => exact hids ▸ h.distinct
  case backward =>
    rw [Backward, hedges]
    exact h.backward
  case once =>
    refine List.nodup_append.2 ⟨h.once, by simp, ?_⟩
    rintro a ha b hb rfl
    exact hnew (List.mem_singleton.1 hb ▸ ha)
  case there =>
    rw [hids]
    exact List.append_subset.2 ⟨h.there, by simpa using hthere⟩
  case status =>
    intro t ht
    have hmem : t.id ∈ l.ids := hids ▸ List.mem_map_of_mem ht
    have hafter := statusOf_setStatus hold (s := .completed) rfl (by decide) (by decide) t.id
    rw [(statusOf_iff (hids ▸ h.distinct) t.id t.status).2 ⟨t, ht, rfl, rfl⟩, h.statusOf hmem] at hafter
    by_cases hti : t.id = i
    · rw [if_pos hti] at hafter
      rw [Option.some.inj hafter, if_pos (by simp [hti])]
    · rw [if_neg hti] at hafter
      simpa [hti] using Option.some.inj hafter

theorem Underway.complete (h : l.Underway done) (horder : l.InTurn order) :
    (l.complete order).Underway (done ++ order) ∧ (l.complete order).ids = l.ids := by
  induction order generalizing l done with
  | nil => exact ⟨by rwa [List.append_nil], rfl⟩
  | cons i order ih =>
    obtain ⟨hi, horder⟩ := horder
    obtain ⟨hunder, hids⟩ := ih (h.next hi) horder
    rw [List.append_assoc] at hunder
    refine ⟨hunder, hids.trans ?_⟩
    rw [← edges_ids, ← edges_ids, setStatus_edges]

/-- **Something is ready as long as something is left to do**: the first todo that is not completed. -/
theorem Underway.exists_ready (h : l.Underway done) (hopen : ∃ t ∈ l.items, t.status ≠ .completed) : l.ready ≠ [] := by
  obtain ⟨t, hfirst⟩ : ∃ t, l.items.find? (fun t => t.status != .completed) = some t := by
    rw [← Option.isSome_iff_exists, List.find?_isSome]
    simpa using hopen
  obtain ⟨hstatus, pre, post, hsplit, hbefore⟩ := List.find?_eq_some_iff_append.1 hfirst
  have hthere : t ∈ l.items := List.mem_of_find?_eq_some hfirst
  have hpending : t.status = .pending := by
    have hcases := h.status t hthere
    split_ifs at hcases
    · simp [hcases] at hstatus
    · exact hcases
  refine List.ne_nil_of_mem (mem_ready_iff.2 ⟨hthere, hpending, fun i hi => ?_⟩)
  -- what it depends on comes before it, hence is completed
  have hedges : l.edges =
      pre.map (fun t => (t.id, t.dependsOn)) ++ (t.id, t.dependsOn) :: post.map fun t => (t.id, t.dependsOn) := by
    rw [edges, hsplit, List.map_append, List.map_cons]
  have hearlier := h.backward _ _ _ hedges i hi
  rw [List.map_map] at hearlier
  obtain ⟨k, hk, rfl⟩ := List.mem_map.1 hearlier
  have hkthere : k ∈ l.items := hsplit ▸ List.mem_append_left _ hk
  refine (statusOf_iff h.distinct _ _).2 ⟨k, hkthere, rfl, ?_⟩
  simpa using hbefore k hk

theorem Underway.perm (h : l.Underway done) (hall : ∀ t ∈ l.items, t.status = .completed) : done.Perm l.ids := by
  refine (List.perm_ext_iff_of_nodup h.once h.distinct).2 fun i => ⟨fun hi => h.there hi, fun hi => ?_⟩
  obtain ⟨t, ht, rfl⟩ := List.mem_map.1 hi
  by_contra hnot
  have hstatus := h.status t ht
  rw [if_neg hnot, hall t ht] at hstatus
  cases hstatus

/-- what is under way can be brought to its end -/
theorem Underway.finish (h : l.Underway done) :
    ∃ rest, l.InTurn rest ∧ ∀ t ∈ (l.complete rest).items, t.status = .completed := by
  -- with each todo that is completed there is one less to do
  induction hleft : l.ids.length - done.length using Nat.strong_induction_on generalizing l done with
  | _ n ih =>
    by_cases hopen : ∃ t ∈ l.items, t.status ≠ .completed
    · obtain ⟨t, ht⟩ := List.exists_mem_of_ne_nil _ (h.exists_ready hopen)
      have hready : t.id ∈ l.ready.map Todo.id := List.mem_map_of_mem ht
      have hnext := h.next hready
      have hids : (l.setStatus t.id .completed).1.ids = l.ids := by rw [← edges_ids, ← edges_ids, setStatus_edges]
      have hle := (hnext.once.subperm hnext.there).length_le
      rw [hids, List.length_append, List.length_singleton] at hle
      obtain ⟨rest, hturn, hall⟩ := ih (l.ids.length - (done.length + 1)) (by omega) hnext
        (by rw [hids, List.length_append, List.length_singleton])
      exact ⟨t.id :: rest, ⟨hready, hturn⟩, hall⟩
    · simp only [ne_eq, not_exists, not_and, not_not] at hopen
      exact ⟨[], trivial, hopen⟩

end Underway

/-! ## From the start -/

/-- the todos of a list can all be completed, whatever is taken first -/
structure Completable (l : TodoList) : Prop where
  /-- something is ready as long as something is not completed -/
  goesOn : ∀ order, l.InTurn order → (∃ t ∈ (l.complete order).items, t.status ≠ .completed) →
    (l.complete order).ready ≠ []
  /-- what has been begun can be brought to its end, and then each todo had its turn once -/
  ends : ∀ order, l.InTurn order → ∃ rest, l.InTurn (order ++ rest) ∧ (order ++ rest).Perm l.ids ∧
    ∀ t ∈ (l.complete (order ++ rest)).items, t.status = .completed

/-- **Pending todos that depend on earlier ones only can all be completed.** -/
theorem completable {l : TodoList} (hn : l.ids.Nodup) (hb : l.Backward) (hp : ∀ t ∈ l.items, t.status = .pending) :
    l.Completable := by
  have hstart : l.Underway [] := ⟨hn, hb, List.nodup_nil, List.nil_subset _, by simpa using hp⟩
  constructor
  case goesOn =>
    intro order horder hopen
    exact (hstart.complete horder).1.exists_ready hopen
  case ends =>
    intro order horder
    obtain ⟨rest, hrest, hall⟩ := (hstart.complete horder).1.finish
    rw [← complete_append] at hall
    have hturn : l.InTurn (order ++ rest) := inTurn_append.2 ⟨horder, hrest⟩
    obtain ⟨hend, hsame⟩ := hstart.complete hturn
    refine ⟨rest, hturn, ?_, hall⟩
    rw [← hsame]
    exact hend.perm hall

end Foreman.TodoList
