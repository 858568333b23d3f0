/-
Which todo holds which finding ids.

Most operations on a list of todos leave the finding ids alone; that is said once, of `held`, the ids of the todos
with the finding ids of each. Attaching adds ids to one todo, and re-pointing follows one id in all of them.

Results:
- `repointIds_eq_map`: re-pointing to an id that is not there follows the old one.
- `mem_repointIds_self`, `mem_repointIds_of_ne`: who is there after re-pointing.
- `push_held`, `setStatus_held`, `requeue_held`: what other operations do to `held`.
-/
import Mathlib.Tactic
import Foreman.Todo.List

namespace Foreman.TodoList

def held (l : TodoList) : List (Ident × List Ident) := l.items.map fun t => (t.id, t.findingIds)

/-! ## Lists of ids -/

theorem addIds_snoc (ids new : List Ident) (k : Ident) :
    addIds ids (new ++ [k]) = if k ∈ addIds ids new then addIds ids new else addIds ids new ++ [k] := by
  simp [addIds]

theorem mem_addIds (ids new : List Ident) (i : Ident) : i ∈ addIds ids new ↔ i ∈ ids ∨ i ∈ new := by
  induction new using List.reverseRecOn with
  | nil => simp [addIds]
  | append_singleton new k ih =>
    rw [addIds_snoc]
    split_ifs with hk
    · have hk' : i = k → i ∈ addIds ids new := fun h => h ▸ hk
      rw [List.mem_append, List.mem_singleton, ← or_assoc, ← ih, or_iff_left_of_imp hk']
    · rw [List.mem_append, List.mem_append, ih, or_assoc]

theorem nodup_addIds {ids : List Ident} (h : ids.Nodup) (new : List Ident) : (addIds ids new).Nodup := by
  induction new using List.reverseRecOn with
  | nil => exact h
  | append_singleton new k ih =>
    rw [addIds_snoc]
    split_ifs with hk
    · exact ih
    · exact List.nodup_append.2 ⟨ih, by simp, fun a ha b hb hab => hk (List.mem_singleton.1 hb ▸ hab ▸ ha)⟩

/-- without repetition, replacing the first occurrence replaces all -/
theorem replace_eq_map {ids : List Ident} (h : ids.Nodup) (previous current : Ident) :
    ids.replace previous current = ids.map fun i => if i = previous then current else i := by
  induction ids with
  | nil => rfl
  | cons k ids ih =>
    obtain ⟨hk, hids⟩ := List.nodup_cons.1 h
    by_cases hkp : previous = k
    · subst hkp
      have hsame : ∀ i ∈ ids, (if i = previous then current else i) = i := fun i hi =>
        if_neg fun (hip : i = previous) => hk (hip ▸ hi)
      simp [List.map_congr_left hsame]
    · have hpk : (previous == k) = false := by simpa using hkp
      simp [List.replace_cons, hpk, Ne.symm hkp, ih hids]

theorem repointIds_eq_map {ids : List Ident} (h : ids.Nodup) {previous current : Ident} (hc : current ∉ ids) :
    repointIds ids previous current = ids.map fun i => if i = previous then current else i := by
  unfold repointIds
  by_cases hp : previous ∈ ids
  · rw [if_pos (by simpa using hp), if_neg (by simpa using hc), replace_eq_map h]
  · have hsame : ∀ i ∈ ids, (if i = previous then current else i) = i := fun i hi =>
      if_neg fun (hip : i = previous) => hp (hip ▸ hi)
    rw [if_neg (by simpa using hp), List.map_congr_left hsame, List.map_id']

theorem mem_replace_self {ids : List Ident} {previous : Ident} (h : previous ∈ ids) (current : Ident) :
    current ∈ ids.replace previous current := by
  induction ids with
  | nil => cases h
  | cons k ids ih =>
    rw [List.replace_cons]
    by_cases hk : previous = k
    · simp [hk]
    · have hrest : previous ∈ ids := (List.mem_cons.1 h).resolve_left hk
      have hne : (previous == k) = false := by simpa using hk
      rw [hne]
      exact List.mem_cons_of_mem _ (ih hrest)

theorem mem_replace_of_ne {ids : List Ident} {i previous : Ident} (h : i ∈ ids) (hne : i ≠ previous)
    (current : Ident) : i ∈ ids.replace previous current := by
  induction ids with
  | nil => cases h
  | cons k ids ih =>
    rw [List.replace_cons]
    by_cases hk : previous = k
    · subst hk
      have hrest : i ∈ ids := (List.mem_cons.1 h).resolve_left hne
      simp [hrest]
    · have hneq : (previous == k) = false := by simpa using hk
      rw [hneq]
      rcases List.mem_cons.1 h with rfl | hrest
      · exact List.mem_cons_self
      · exact List.mem_cons_of_mem _ (ih hrest)

/-- **Whoever holds an id that is followed holds the new one after it**, also where ids are held twice -/
theorem mem_repointIds_self {ids : List Ident} {previous current : Ident} (h : previous ∈ ids)
    (hne : current ≠ previous) : current ∈ repointIds ids previous current := by
  unfold repointIds
  rw [if_pos (by simpa using h)]
  split_ifs with hc
  · exact (List.mem_erase_of_ne hne).2 (by simpa using hc)
  · exact mem_replace_self h current

theorem mem_repointIds_of_ne {ids : List Ident} {i previous : Ident} (h : i ∈ ids) (hne : i ≠ previous)
    (current : Ident) : i ∈ repointIds ids previous current := by
  unfold repointIds
  split_ifs
  · exact (List.mem_erase_of_ne hne).2 h
  · exact mem_replace_of_ne h hne current
  · exact h

/-! ## Lists of todos -/

theorem lookup_held (l : TodoList) (id : Ident) : l.held.lookup id = (l.get? id).map Todo.findingIds := by
  obtain ⟨items⟩ := l
  simp only [held, get?]
  induction items with
  | nil => rfl
  | cons t items ih =>
    rw [List.map_cons, List.lookup_cons, List.find?_cons]
    by_cases ht : t.id = id
    · simp [ht]
    · have hne : (id == t.id) = false := by simpa using Ne.symm ht
      have hne' : (t.id == id) = false := by simpa using ht
      rw [hne, hne']
      exact ih

theorem lookup_map (ps : List (Ident × List Ident)) (f : Ident → List Ident → List Ident) (id : Ident) :
    (ps.map fun p => (p.1, f p.1 p.2)).lookup id = (ps.lookup id).map (f id) := by
  induction ps with
  | nil => rfl
  | cons p ps ih =>
    rw [List.map_cons, List.lookup_cons, List.lookup_cons]
    by_cases hp : id = p.1
    · simp [hp]
    · have hne : (id == p.1) = false := by simpa using hp
      rw [hne]
      exact ih

theorem modify_held {l : TodoList} {id : Ident} {f : Todo → Todo}
    (h : ∀ t, (f t).id = t.id ∧ (f t).findingIds = t.findingIds) : (l.modify id f).held = l.held := by
  simp only [held, modify, List.map_map]
  refine List.map_congr_left fun t _ => ?_
  simp only [Function.comp_apply]
  split_ifs
  · rw [(h t).1, (h t).2]
  · rfl

theorem setStatus_held (l : TodoList) (id : Ident) (s : TodoStatus) : (l.setStatus id s).1.held = l.held := by
  unfold setStatus
  split
  · split_ifs
    · exact modify_held fun t => ⟨rfl, rfl⟩
    · rfl
  · rfl

theorem requeue_held (l : TodoList) (id : Ident) : (l.requeue id).1.held = l.held := by
  unfold requeue
  split
  · split_ifs
    · exact modify_held fun t => ⟨rfl, rfl⟩
    · rfl
  · rfl

theorem attach_held (l : TodoList) (id : Ident) (new : List Ident) :
    (l.attach id new).held = l.held.map fun p => if p.1 = id then (p.1, addIds p.2 new) else p := by
  simp only [held, attach, modify, List.map_map]
  refine List.map_congr_left fun t _ => ?_
  simp only [Function.comp_apply]
  split_ifs <;> rfl

theorem lookup_attach (l : TodoList) (id : Ident) (new : List Ident) (t : Ident) :
    (l.attach id new).held.lookup t = (l.held.lookup t).map fun ids => if t = id then addIds ids new else ids := by
  have hmap : (l.attach id new).held = l.held.map fun p => (p.1, if p.1 = id then addIds p.2 new else p.2) := by
    rw [attach_held]
    refine List.map_congr_left fun p _ => ?_
    split_ifs <;> rfl
  rw [hmap, lookup_map _ fun k ids => if k = id then addIds ids new else ids]

theorem repoint_held (l : TodoList) (previous current : Ident) :
    (l.repoint previous current).held = l.held.map fun p => (p.1, repointIds p.2 previous current) := by
  simp only [held, repoint, List.map_map]
  rfl

theorem repointAll_append (l : TodoList) (ps qs : List (Ident × Ident)) :
    l.repointAll (ps ++ qs) = (l.repointAll ps).repointAll qs := by
  simp [repointAll]

theorem push_held (l : TodoList) {t : Todo} (h : t.findingIds = []) :
    (l.push t).1.held = l.held ∨ (l.push t).1.held = l.held ++ [(t.id, [])] := by
  unfold push
  split_ifs
  · exact Or.inl rfl
  · exact Or.inr (by simp [held, h])

end Foreman.TodoList
