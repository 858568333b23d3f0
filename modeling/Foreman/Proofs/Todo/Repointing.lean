/-
Following one finding id in all todos, and following many, one after the other.

Re-pointing an id touches nothing of a todo but its finding ids, and there the first `previous` only: `current` takes its
place, or it is dropped where `current` is held already (`Repointed`). What a todo holds afterwards is then what it held
before with `previous` renamed, provided that no id was held twice: a second `previous` would stay behind. So this has to
be carried along a list of pairs, where an id that has taken the place of another may be followed in its turn (`Renamed`).
All operations keep it, from an empty list on (`run_distinct`).

An id re-pointed to itself is no renaming: it is held already, so it is dropped (`repointIds_self`).

Results:
- `repointIds_repointed`: what re-pointing does to the ids of one todo.
- `Repointed.renamed`:    which ids these are.
- `run_distinct`:         no operation makes a todo hold an id twice.
- `ids_renamed`:          what re-pointing does to a list of todos.
-/
import Mathlib.Tactic
import Foreman.Proofs.Ledger.Retained
import Foreman.Proofs.Todo.FindingIds
import Foreman.Proofs.Todo.Operations

namespace Foreman.TodoList

/-! ## The ids of one todo -/

/-- what re-pointing does to a list of ids -/
inductive Repointed (previous current : Ident) : List Ident → List Ident → Prop where
  | same {ids : List Ident} (h : previous ∉ ids) : Repointed previous current ids ids
  | replaced {before after : List Ident} (h : current ∉ before ++ after) :
      Repointed previous current (before ++ previous :: after) (before ++ current :: after)
  | dropped {before after : List Ident} (h : current ∈ before ++ after) :
      Repointed previous current (before ++ previous :: after) (before ++ after)

/-- an id re-pointed to itself is dropped -/
theorem repointIds_self (ids : List Ident) (i : Ident) : repointIds ids i i = ids.erase i := by
  unfold repointIds
  by_cases h : i ∈ ids
  · simp [h]
  · simp [h, List.erase_of_not_mem h]

theorem repointIds_repointed {previous current : Ident} (hne : previous ≠ current) (ids : List Ident) :
    Repointed previous current ids (repointIds ids previous current) := by
  unfold repointIds
  by_cases hp : previous ∈ ids
  · obtain ⟨before, after, rfl, hbefore⟩ := List.eq_append_cons_of_mem hp
    have hrest : current ∈ before ++ previous :: after ↔ current ∈ before ++ after := by
      simp [hne.symm]
    rw [if_pos (by simp)]
    split_ifs with hc
    · rw [List.erase_append_right _ hbefore, List.erase_cons_head]
      exact .dropped (hrest.1 (by simpa using hc))
    · rw [List.replace_append_right hbefore, List.replace_cons_self]
      exact .replaced fun h => hc (List.contains_iff_mem.2 (hrest.2 h))
  · rw [if_neg (by simpa using hp)]
    exact .same hp

/-- the ids of a list renamed through pairs, none of them twice -/
structure Renamed (pairs : List (Ident × Ident)) (ids ids' : List Ident) : Prop where
  distinct : ids'.Nodup
  image : ∀ i, i ∈ ids' ↔ ∃ j ∈ ids, j.follow pairs = i

theorem Renamed.refl {ids : List Ident} (h : ids.Nodup) : Renamed [] ids ids :=
  ⟨h, fun i => by simp [Ident.follow]⟩

theorem Renamed.trans {pairs more : List (Ident × Ident)} {a b c : List Ident} (h : Renamed pairs a b)
    (h' : Renamed more b c) : Renamed (pairs ++ more) a c := by
  refine ⟨h'.distinct, fun i => ?_⟩
  simp only [h'.image, h.image, Ident.follow_append]
  constructor
  · rintro ⟨_, ⟨j, hj, rfl⟩, hi⟩
    exact ⟨j, hj, hi⟩
  · rintro ⟨j, hj, hi⟩
    exact ⟨_, ⟨j, hj, rfl⟩, hi⟩

section Pair

variable {previous current : Ident} {ids ids' : List Ident}

theorem image_of_not_mem (h : previous ∉ ids) (i : Ident) :
    (∃ j ∈ ids, j.follow [(previous, current)] = i) ↔ i ∈ ids := by
  have hstays : ∀ j ∈ ids, j.follow [(previous, current)] = j := fun j hj =>
    if_neg (ne_of_mem_of_not_mem hj h)
  constructor
  · rintro ⟨j, hj, rfl⟩
    exact (hstays j hj).symm ▸ hj
  · intro hi
    exact ⟨i, hi, hstays i hi⟩

theorem image_middle {before after : List Ident} (h : previous ∉ before ++ after) (i : Ident) :
    (∃ j ∈ before ++ previous :: after, j.follow [(previous, current)] = i) ↔
      i = current ∨ i ∈ before ++ after := by
  have hself : previous.follow [(previous, current)] = current := if_pos rfl
  simp only [List.perm_middle.mem_iff, List.mem_cons, exists_eq_or_imp, image_of_not_mem h, hself]
  rw [eq_comm]

/-- **Re-pointing renames**, where no id is held twice. -/
theorem Repointed.renamed (h : Repointed previous current ids ids') (hids : ids.Nodup) :
    Renamed [(previous, current)] ids ids' := by
  cases h with
  | same h => exact ⟨hids, fun i => (image_of_not_mem h i).symm⟩
  | replaced h =>
    obtain ⟨hprevious, hrest⟩ := List.nodup_cons.1 (List.nodup_middle.1 hids)
    refine ⟨List.nodup_middle.2 (List.nodup_cons.2 ⟨h, hrest⟩), fun i => ?_⟩
    rw [image_middle hprevious, List.perm_middle.mem_iff, List.mem_cons]
  | dropped h =>
    obtain ⟨hprevious, hrest⟩ := List.nodup_cons.1 (List.nodup_middle.1 hids)
    refine ⟨hrest, fun i => ?_⟩
    rw [image_middle hprevious, or_iff_right_of_imp]
    rintro rfl
    exact h

theorem nodup_repointIds (h : ids.Nodup) (previous current : Ident) : (repointIds ids previous current).Nodup := by
  by_cases hne : previous = current
  · subst hne
    rw [repointIds_self]
    exact h.erase _
  · exact ((repointIds_repointed hne ids).renamed h).distinct

end Pair

/-! ## Operations and ids that are held twice -/

/-- no todo holds a finding id twice -/
def Distinct (l : TodoList) : Prop := ∀ t ∈ l.items, t.findingIds.Nodup

instance (l : TodoList) : Decidable l.Distinct := by unfold Distinct; infer_instance

theorem distinct_empty : empty.Distinct := by simp [Distinct, empty]

theorem distinct_iff_held (l : TodoList) : l.Distinct ↔ ∀ p ∈ l.held, p.2.Nodup := by
  simp [Distinct, held]

theorem Distinct.push {l : TodoList} (h : l.Distinct) {t : Todo} (ht : t.findingIds.Nodup) :
    (l.push t).1.Distinct := by
  unfold TodoList.push
  split_ifs
  · exact h
  · intro k hk
    rcases List.mem_append.1 hk with hk | hk
    · exact h k hk
    · exact List.mem_singleton.1 hk ▸ ht

theorem Distinct.extend {l : TodoList} (h : l.Distinct) {ts : List Todo} (hts : ∀ t ∈ ts, t.findingIds.Nodup) :
    (l.extend ts).Distinct := by
  induction ts generalizing l with
  | nil => exact h
  | cons t ts ih =>
    rw [TodoList.extend, List.foldl_cons, ← TodoList.extend]
    exact ih (h.push (hts t List.mem_cons_self)) fun k hk => hts k (List.mem_cons_of_mem _ hk)

/-- the todos that an operation brings into a list -/
def Op.brought : Op → List Todo
  | .push t => [t]
  | .extend ts => ts
  | _ => []

theorem step_distinct {l : TodoList} (h : l.Distinct) {op : Op} (hop : ∀ t ∈ op.brought, t.findingIds.Nodup) :
    (l.step op).Distinct := by
  cases op with
  | push t => exact h.push (hop t List.mem_cons_self)
  | extend ts => exact h.extend hop
  | setStatus i s =>
    rw [distinct_iff_held, step, setStatus_held]
    exact (distinct_iff_held l).1 h
  | requeue i =>
    rw [distinct_iff_held, step, requeue_held]
    exact (distinct_iff_held l).1 h
  | attach i findings =>
    rw [distinct_iff_held, step, attach_held]
    simp only [List.forall_mem_map]
    intro p hp
    have hnodup : p.2.Nodup := (distinct_iff_held l).1 h p hp
    split_ifs
    · exact nodup_addIds hnodup findings
    · exact hnodup
  | repoint previous current =>
    rw [distinct_iff_held, step, repoint_held]
    simp only [List.forall_mem_map]
    intro p hp
    exact nodup_repointIds ((distinct_iff_held l).1 h p hp) previous current

/-- **No operation makes a todo hold an id twice**, in any order and with any arguments. -/
theorem run_distinct {l : TodoList} (h : l.Distinct) {ops : List Op}
    (hops : ∀ op ∈ ops, ∀ t ∈ op.brought, t.findingIds.Nodup) : (l.run ops).Distinct := by
  induction ops generalizing l with
  | nil => exact h
  | cons op ops ih =>
    rw [run_cons]
    exact ih (step_distinct h (hops op List.mem_cons_self)) fun k hk => hops k (List.mem_cons_of_mem _ hk)

/-! ## All todos -/

/-- the same todo in every field but the finding ids -/
structure Relinked (R : List Ident → List Ident → Prop) (t t' : Todo) : Prop where
  same : t' = { t with findingIds := t'.findingIds }
  ids : R t.findingIds t'.findingIds

theorem relinked_repoint {R : List Ident → List Ident → Prop} {t t' : Todo} {previous current : Ident}
    (h : t' = { t with findingIds := t'.findingIds }) (hr : R t.findingIds (repointIds t'.findingIds previous current)) :
    Relinked R t { t' with findingIds := repointIds t'.findingIds previous current } :=
  ⟨by rw [h], hr⟩

theorem repoint_relinked {l : TodoList} (h : l.Distinct) {previous current : Ident} (hne : previous ≠ current) :
    List.Forall₂ (Relinked fun ids ids' => Repointed previous current ids ids' ∧ Renamed [(previous, current)] ids ids')
      l.items (l.repoint previous current).items := by
  refine List.forall₂_map_right_iff.2 (List.forall₂_same.2 fun t ht => relinked_repoint rfl ?_)
  have hone := repointIds_repointed hne t.findingIds
  exact ⟨hone, hone.renamed (h t ht)⟩

/-- each pair renames what the pairs before it have left, without repetition -/
theorem repointAll_relinked {l : TodoList} (h : l.Distinct) {pairs : List (Ident × Ident)}
    (hne : ∀ p ∈ pairs, p.1 ≠ p.2) :
    List.Forall₂ (Relinked (Renamed pairs)) l.items (l.repointAll pairs).items := by
  induction pairs using List.reverseRecOn with
  | nil => exact List.forall₂_same.2 fun t ht => ⟨rfl, .refl (h t ht)⟩
  | append_singleton pairs p ih =>
    have hp : p.1 ≠ p.2 := hne p (by simp)
    rw [repointAll_append]
    refine List.forall₂_map_right_iff.2 ((ih fun q hq => hne q (by simp [hq])).imp fun t t' ht => ?_)
    have hone := (repointIds_repointed hp t'.findingIds).renamed ht.ids.distinct
    exact relinked_repoint ht.same (ht.ids.trans hone)

/-- what re-pointing does to the todos of a list, and what keeps it so -/
structure Repoints (l : TodoList) : Prop where
  /-- whatever is done with the list, ids are not held twice, unless todos that hold one twice are brought in -/
  kept : ∀ ops : List Op, (∀ op ∈ ops, ∀ t ∈ op.brought, t.findingIds.Nodup) → (l.run ops).Distinct
  /-- one id followed: `current` for it in its place, or it is dropped; all else stays -/
  one : ∀ previous current, previous ≠ current →
    List.Forall₂ (Relinked fun ids ids' => Repointed previous current ids ids' ∧ Renamed [(previous, current)] ids ids')
      l.items (l.repoint previous current).items
  /-- many ids followed, one after the other -/
  all : ∀ pairs : List (Ident × Ident), (∀ p ∈ pairs, p.1 ≠ p.2) →
    List.Forall₂ (Relinked (Renamed pairs)) l.items (l.repointAll pairs).items

/-- **Re-pointing renames the ids that todos hold**, one id and a list of them, and changes nothing else. -/
theorem ids_renamed {l : TodoList} (h : l.Distinct) : Repoints l where
  kept := fun _ hops => run_distinct h hops
  one := fun _ _ hne => repoint_relinked h hne
  all := fun _ hne => repointAll_relinked h hne

/-- an id takes the place of another or meets itself there, and is followed in its turn -/
theorem ids_renamed_in_turn :
    let a := Todo.fresh (.given "a") "a" .high
    let b := Todo.fresh (.given "b") "b" .high
    let l := empty.run [.push a, .push b, .attach a.id [.given "old", .given "f9"],
      .attach b.id [.given "old", .given "new"]]
    let pairs : List (Ident × Ident) := [(.given "old", .given "new"), (.given "new", .given "newer")]
    l.Distinct ∧ List.Forall₂ (Relinked (Renamed pairs)) l.items (l.repointAll pairs).items ∧
      (l.repoint (.given "old") (.given "new")).held =
        [(a.id, [.given "new", .given "f9"]), (b.id, [.given "new"])] ∧
      (l.repointAll pairs).held = [(a.id, [.given "newer", .given "f9"]), (b.id, [.given "newer"])] := by
  intro a b l pairs
  have hl : l.Distinct := (ids_renamed distinct_empty).kept _ (by decide)
  exact ⟨hl, (ids_renamed hl).all pairs (by decide), by decide, by decide⟩

end Foreman.TodoList
