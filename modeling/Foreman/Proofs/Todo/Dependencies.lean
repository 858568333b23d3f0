/-
What todos depend on.

A todo never loses a dependency or gets a new one, and what is completed or cancelled stays so (`Later`). So once a todo
has all its dependencies completed, and these had theirs, and so on down, it has them for ever: it is `Grounded`. What
a grounded todo rests on is there and completed, and none of it rests on itself. A ready todo is grounded if all todos
are that are not pending, which is what carries a loop from one step to the next (`InOrder`).

Results:
- `Grounded.completed`, `Grounded.acyclic`: what a grounded todo rests on.
- `Grounded.later`:                         a grounded todo stays so.
- `setStatus_later`, `requeue_later`, `push_later`, `Later.of_same`: what happens to todos.
- `InOrder.ready`, `InOrder.later`:         what is ready is grounded, and the order is kept.
-/
import Foreman.Proofs.Todo.Status

namespace Foreman.TodoList

/-- the todos' ids, each with what the todo depends on -/
def edges (l : TodoList) : List (Ident × List Ident) := l.items.map fun t => (t.id, t.dependsOn)

/-- a todo with one id depends on another id -/
def Needs (l : TodoList) (i j : Ident) : Prop := ∃ t ∈ l.items, t.id = i ∧ j ∈ t.dependsOn

theorem edges_ids (l : TodoList) : l.edges.map Prod.fst = l.ids := by
  simp [edges, ids]

theorem needs_iff (l : TodoList) (i j : Ident) : l.Needs i j ↔ ∃ p ∈ l.edges, p.1 = i ∧ j ∈ p.2 := by
  simp [Needs, edges]

/-- all dependencies of the todos that are not pending are there and completed -/
def Met (l : TodoList) : Prop :=
  ∀ t ∈ l.items, t.status ≠ .pending → ∀ j ∈ t.dependsOn, ∃ k ∈ l.items, k.id = j ∧ k.status = .completed

/-! ## What a todo rests on -/

/-- a todo with all its dependencies completed, each of which is grounded as well -/
inductive Grounded (l : TodoList) : Ident → Prop where
  | intro {t : Todo} (there : t ∈ l.items) (met : ∀ j ∈ t.dependsOn, l.statusOf j = some .completed)
      (below : ∀ j ∈ t.dependsOn, Grounded l j) : Grounded l t.id

section Grounded

variable {l : TodoList} {i j : Ident}

theorem Grounded.there (h : l.Grounded i) : i ∈ l.ids := by
  obtain ⟨ht, -, -⟩ := h
  exact List.mem_map_of_mem ht

theorem Grounded.needs (hn : l.ids.Nodup) (h : l.Grounded i) (hij : l.Needs i j) :
    l.statusOf j = some .completed ∧ l.Grounded j := by
  obtain ⟨k, hk, hki, hj⟩ := hij
  cases h with
  | @intro t ht hmet hbelow =>
    have hkt : k = t := List.inj_on_of_nodup_map hn hk ht hki
    subst hkt
    exact ⟨hmet j hj, hbelow j hj⟩

/-- **All that a grounded todo rests on is there and completed.** -/
theorem Grounded.completed (hn : l.ids.Nodup) (h : l.Grounded i) (hij : Relation.TransGen l.Needs i j) :
    l.statusOf j = some .completed ∧ l.Grounded j := by
  induction hij with
  | single hij => exact h.needs hn hij
  | tail _ hjk ih => exact ih.2.needs hn hjk

/-- **A grounded todo does not rest on itself.** -/
theorem Grounded.acyclic (hn : l.ids.Nodup) (h : l.Grounded i) : ¬ Relation.TransGen l.Needs i i := by
  induction h with
  | @intro t ht _ _ ih =>
    intro hcycle
    -- the first step of the cycle leads to a dependency, which then rests on itself
    obtain ⟨j, ⟨k, hk, hkt, hj⟩, hback⟩ := Relation.TransGen.head'_iff.1 hcycle
    have hsame : k = t := List.inj_on_of_nodup_map hn hk ht hkt
    subst hsame
    apply ih j hj
    exact Relation.TransGen.tail' hback ⟨k, hk, rfl, hj⟩

/-- the todos that are not pending have their dependencies met if they are grounded -/
theorem met_of_grounded (hn : l.ids.Nodup)
    (h : ∀ i s, l.statusOf i = some s → s ≠ .pending → l.Grounded i) : l.Met := by
  intro t ht hstatus j hj
  have hground := h t.id t.status ((statusOf_iff hn _ _).2 ⟨t, ht, rfl, rfl⟩) hstatus
  obtain ⟨hcompleted, -⟩ := hground.needs hn ⟨t, ht, rfl, hj⟩
  exact (statusOf_iff hn _ _).1 hcompleted

end Grounded

/-! ## Some time later -/

/-- todos some time later: all are there with what they depend on, what is completed or cancelled stays so, and the ids
of new todos are minted -/
structure Later (l l' : TodoList) : Prop where
  edges : l.edges <+: l'.edges
  terminal : ∀ i s, l.statusOf i = some s → s.isTerminal = true → l'.statusOf i = some s
  minted : ∀ i ∈ l'.ids, i ∈ l.ids ∨ ∃ k, i = .minted k
  nodup : l.ids.Nodup → l'.ids.Nodup

theorem Later.refl (l : TodoList) : Later l l :=
  ⟨List.prefix_refl _, fun _ _ h _ => h, fun _ h => Or.inl h, id⟩

theorem Later.trans {a b c : TodoList} (h : Later a b) (h' : Later b c) : Later a c where
  edges := h.edges.trans h'.edges
  terminal := fun i s hs hterminal => h'.terminal i s (h.terminal i s hs hterminal) hterminal
  minted := fun i hi => (h'.minted i hi).elim (h.minted i) Or.inr
  nodup := fun hn => h'.nodup (h.nodup hn)

section Later

variable {l l' : TodoList} {i j : Ident}

theorem Later.needs (h : Later l l') (hij : l.Needs i j) : l'.Needs i j := by
  rw [needs_iff] at hij ⊢
  obtain ⟨p, hp, hi, hj⟩ := hij
  exact ⟨p, h.edges.subset hp, hi, hj⟩

theorem Later.rests (h : Later l l') (hij : Relation.TransGen l.Needs i j) : Relation.TransGen l'.Needs i j := by
  induction hij with
  | single hij => exact .single (h.needs hij)
  | tail _ hjk ih => exact ih.tail (h.needs hjk)

/-- **A grounded todo stays so.** -/
theorem Grounded.later (h : l.Grounded i) (hl : Later l l') : l'.Grounded i := by
  induction h with
  | @intro t ht hmet _ ih =>
    have hedge : (t.id, t.dependsOn) ∈ l'.edges := hl.edges.subset (List.mem_map.2 ⟨t, ht, rfl⟩)
    obtain ⟨k, hk, heq⟩ := List.mem_map.1 hedge
    obtain ⟨hid, hdeps⟩ := Prod.mk.inj heq
    rw [← hid]
    refine .intro hk ?_ ?_ <;> rw [hdeps]
    · intro j hj
      exact hl.terminal j _ (hmet j hj) rfl
    · exact ih

theorem Later.of_same (hedges : l'.edges = l.edges) (hs : ∀ i, l'.statusOf i = l.statusOf i) : Later l l' := by
  have hids : l'.ids = l.ids := by rw [← edges_ids, ← edges_ids, hedges]
  refine ⟨hedges ▸ List.prefix_refl _, fun i _ h _ => (hs i).trans h, fun i hi => Or.inl (hids ▸ hi), fun hn => ?_⟩
  rw [hids]
  exact hn

theorem Later.of_widened (hw : Widened l l') (hedges : l.edges <+: l'.edges)
    (hm : ∀ i ∈ l'.ids, i ∈ l.ids ∨ ∃ k, i = .minted k) : Later l l' where
  edges := hedges
  terminal := fun i _ hs _ => (hw.kept i (mem_ids_of_statusOf hs)).trans hs
  minted := hm
  nodup := hw.nodup

end Later

/-! ## What happens to todos -/

theorem modify_edges (l : TodoList) (id : Ident) {f : Todo → Todo}
    (h : ∀ t, (f t).id = t.id ∧ (f t).dependsOn = t.dependsOn) : (l.modify id f).edges = l.edges := by
  simp only [edges, modify, List.map_map]
  refine List.map_congr_left fun t _ => ?_
  simp only [Function.comp_apply]
  split_ifs
  · rw [(h t).1, (h t).2]
  · rfl

theorem setStatus_edges (l : TodoList) (id : Ident) (s : TodoStatus) : (l.setStatus id s).1.edges = l.edges := by
  unfold setStatus
  split
  · split_ifs
    · exact modify_edges l id fun _ => ⟨rfl, rfl⟩
    · rfl
  · rfl

theorem requeue_edges (l : TodoList) (id : Ident) : (l.requeue id).1.edges = l.edges := by
  unfold requeue
  split
  · split_ifs
    · exact modify_edges l id fun _ => ⟨rfl, rfl⟩
    · rfl
  · rfl

theorem attach_edges (l : TodoList) (id : Ident) (new : List Ident) : (l.attach id new).edges = l.edges :=
  modify_edges l id fun _ => ⟨rfl, rfl⟩

theorem repointAll_edges (l : TodoList) (ps : List (Ident × Ident)) : (l.repointAll ps).edges = l.edges := by
  induction ps using List.reverseRecOn with
  | nil => rfl
  | append_singleton ps p ih =>
    rw [repointAll_append, ← ih, repointAll, List.foldl_cons, List.foldl_nil]
    simp [edges, repoint]

theorem put_later {l : TodoList} {id : Ident} {t : Todo} (ht : l.get? id = some t) (hopen : t.status.isTerminal = false)
    (s : TodoStatus) : Later l (l.modify id fun t => { t with status := s }) := by
  have hold : l.statusOf id = some t.status := by simp [statusOf, ht]
  have hedges : (l.modify id fun t => { t with status := s }).edges = l.edges := modify_edges l id fun _ => ⟨rfl, rfl⟩
  have hids : (l.modify id fun t => { t with status := s }).ids = l.ids := by rw [← edges_ids, ← edges_ids, hedges]
  refine ⟨hedges ▸ List.prefix_refl _, fun i s' hs hterminal => ?_, fun i hi => Or.inl (hids ▸ hi), fun hn => ?_⟩
  · rw [statusOf_put hold, if_neg]
    · exact hs
    · rintro rfl
      rw [hold, Option.some.injEq] at hs
      rw [hs, hterminal] at hopen
      cases hopen
  · rw [hids]
    exact hn

/-- a status set, or refused: only the todo in question gets it -/
theorem setStatus_later (l : TodoList) (id : Ident) (s : TodoStatus) :
    Later l (l.setStatus id s).1 ∧
      ∀ j, (l.setStatus id s).1.statusOf j = l.statusOf j ∨ j = id ∧ (l.setStatus id s).1.statusOf j = some s := by
  unfold setStatus
  cases ht : l.get? id with
  | none => exact ⟨.refl l, fun j => Or.inl rfl⟩
  | some t =>
    dsimp only
    split_ifs with hmay
    · have hopen : t.status.isTerminal = false := by
        simp only [mayMove, Bool.and_eq_true, Bool.not_eq_true'] at hmay
        exact hmay.1.1
      refine ⟨put_later ht hopen s, fun j => ?_⟩
      have hold : l.statusOf id = some t.status := by simp [statusOf, ht]
      simp only [statusOf_put hold]
      by_cases hj : j = id
      · simp [hj]
      · simp [hj]
    · exact ⟨.refl l, fun j => Or.inl rfl⟩

/-- a todo put back, or not: no todo but a pending one is made so -/
theorem requeue_later (l : TodoList) (id : Ident) :
    Later l (l.requeue id).1 ∧
      ∀ j, (l.requeue id).1.statusOf j = l.statusOf j ∨ (l.requeue id).1.statusOf j = some .pending := by
  unfold requeue
  cases ht : l.get? id with
  | none => exact ⟨.refl l, fun j => Or.inl rfl⟩
  | some t =>
    dsimp only
    split_ifs with hprogress
    · refine ⟨put_later ht (by rw [hprogress]; rfl) .pending, fun j => ?_⟩
      have hold : l.statusOf id = some t.status := by simp [statusOf, ht]
      simp only [statusOf_put hold]
      by_cases hj : j = id
      · simp [hj]
      · simp [hj]
    · exact ⟨.refl l, fun j => Or.inl rfl⟩

theorem push_later (l : TodoList) {t : Todo} (ht : t.status = .pending) (hm : ∃ k, t.id = .minted k) :
    Later l (l.push t).1 := by
  apply Later.of_widened (push_widened l ht)
  all_goals unfold push; split_ifs
  · exact List.prefix_refl _
  · simp [edges]
  · exact fun i hi => Or.inl hi
  · intro i hi
    simp only [ids, List.map_append, List.map_cons, List.map_nil, List.mem_append, List.mem_singleton] at hi
    rcases hi with hi | rfl
    · exact Or.inl hi
    · exact Or.inr hm

theorem extend_later (l : TodoList) {ts : List Todo} (h : ∀ t ∈ ts, t.status = .pending ∧ ∃ k, t.id = .minted k) :
    Later l (l.extend ts) := by
  induction ts generalizing l with
  | nil => exact .refl l
  | cons t ts ih =>
    obtain ⟨hpending, hm⟩ := h t List.mem_cons_self
    rw [extend, List.foldl_cons, ← extend]
    exact (push_later l hpending hm).trans (ih _ fun k hk => h k (List.mem_cons_of_mem _ hk))

/-! ## The order -/

/-- all todos that are not pending are grounded, and so are all that tasks are about -/
structure InOrder (l : TodoList) (about : List Ident) : Prop where
  distinct : l.ids.Nodup
  begun : ∀ i s, l.statusOf i = some s → s ≠ .pending → l.Grounded i
  tasks : ∀ i ∈ about, l.Grounded i

section InOrder

variable {l l' : TodoList} {about about' : List Ident}

theorem InOrder.met (h : InOrder l about) : l.Met := met_of_grounded h.distinct h.begun

/-- **What is ready is grounded**: its dependencies are completed, so they are not pending -/
theorem InOrder.ready (h : InOrder l about) : ∀ t ∈ l.ready, l.Grounded t.id := by
  intro t ht
  rw [TodoList.ready, List.mem_mergeSort, List.mem_filter, Bool.and_eq_true, dependenciesMet, List.all_eq_true] at ht
  have hmet : ∀ j ∈ t.dependsOn, l.statusOf j = some .completed := by
    intro j hj
    have hcompleted := ht.2.2 j hj
    unfold isCompleted at hcompleted
    cases hget : l.get? j with
    | none => simp [hget] at hcompleted
    | some d => simpa [statusOf, hget] using hcompleted
  apply Grounded.intro ht.1 hmet
  intro j hj
  exact h.begun j .completed (hmet j hj) (by decide)

/-- **The order is kept** by what moves grounded todos only, with tasks about grounded todos only -/
theorem InOrder.later (h : InOrder l about) (hl : Later l l')
    (hmoved : ∀ i, l'.statusOf i = l.statusOf i ∨ l'.statusOf i = none ∨ l'.statusOf i = some .pending ∨ l.Grounded i)
    (habout : ∀ i ∈ about', i ∈ about ∨ l.Grounded i) : InOrder l' about' where
  distinct := hl.nodup h.distinct
  begun := by
    intro i s hs hne
    rcases hmoved i with hsame | hnone | hpending | hground
    · exact (h.begun i s (hsame ▸ hs) hne).later hl
    · rw [hnone] at hs
      cases hs
    · rw [hpending, Option.some.injEq] at hs
      exact absurd hs.symm hne
    · exact hground.later hl
  tasks := by
    intro i hi
    rcases habout i hi with hold | hground
    · exact (h.tasks i hold).later hl
    · exact hground.later hl

theorem InOrder.widened (h : InOrder l about) (hl : Later l l') (hw : Widened l l') : InOrder l' about := by
  apply h.later hl
  · intro i
    by_cases hi : i ∈ l.ids
    · exact Or.inl (hw.kept i hi)
    · rcases hw.new i hi with hnone | hpending
      · exact Or.inr (Or.inl hnone)
      · exact Or.inr (Or.inr (Or.inl hpending))
  · exact fun i hi => Or.inl hi

theorem inOrder_start {ts : List Todo} (h : ∀ t ∈ ts, t.status = .pending) : InOrder (.ofList ts) [] := by
  have hw : Widened .empty (ofList ts) := extend_widened .empty h
  refine ⟨hw.nodup (by simp [ids, empty]), fun i s hs hne => ?_, by simp⟩
  rcases hw.new i (by simp [ids, empty]) with hnone | hpending
  · rw [hnone] at hs
    cases hs
  · rw [hpending, Option.some.injEq] at hs
    exact absurd hs.symm hne

end InOrder

end Foreman.TodoList
