/-
Plans can be carried out.

The todos of a goal are one for each of several items or clauses, none of which is blank, or the three of a single task.
Their ids are minted one after the other, so no two are the same, and a todo depends on none or on the one before it. So
they can all be completed, in whatever order they become ready.

Results:
- `planned`:         what the todos of a goal are.
- `Planned.ids`:     their ids.
- `ofList_items`:    a list takes them all, in their order.
- `plan_executable`: the whole.
-/
import Foreman.Proofs.Loop.Frame
import Foreman.Proofs.Todo.Completion
import Foreman.Proofs.Todo.ListItems

namespace Foreman

/-! ## Lists of todos -/

namespace TodoList

theorem extend_new {l : TodoList} {ts : List Todo} (h : (l.ids ++ ts.map Todo.id).Nodup) :
    (l.extend ts).items = l.items ++ ts := by
  induction ts generalizing l with
  | nil => exact (List.append_nil _).symm
  | cons t ts ih =>
    have hnew : l.get? t.id = none := by
      rw [get?_eq_none]
      exact fun hmem => (List.nodup_append.1 h).2.2 _ hmem _ List.mem_cons_self rfl
    have hpush : (l.push t).1 = ⟨l.items ++ [t]⟩ := by simp [push, hnew]
    have hids : (l.push t).1.ids = l.ids ++ [t.id] := by simp [hpush, ids]
    rw [extend, List.foldl_cons, ← extend, ih (by simpa [hids] using h), hpush, List.append_assoc]
    rfl

theorem ofList_items {ts : List Todo} (h : (ts.map Todo.id).Nodup) : (ofList ts).items = ts :=
  extend_new (l := empty) h

end TodoList

namespace Plan

open Text

/-- todos depend on earlier ones only -/
def Backward (todos : List Todo) : Prop :=
  ∀ pre t post, todos = pre ++ t :: post → ∀ i ∈ t.dependsOn, ∃ k ∈ pre, k.id = i

theorem Backward.edges {l : TodoList} (h : Backward l.items) : l.Backward := by
  intro pre p post hsplit i hi
  obtain ⟨pre', rest, hitems, rfl, hrest⟩ := List.map_eq_append_iff.1 hsplit
  obtain ⟨t, post', rfl, rfl, -⟩ := List.map_eq_cons_iff.1 hrest
  obtain ⟨k, hk, rfl⟩ := h pre' t post' hitems i hi
  simpa using ⟨k, hk, rfl⟩

/-! ## What the todos of a goal are -/

/-- the todos of a goal: none if it is blank, and else one for each of several parts that are not blank, or the three of a
single task -/
inductive Planned (next : Nat) (goal : String) : List Todo → Prop
  | nothing (h : trimChars goal.toList = []) : Planned next goal []
  | apart {parts : List (List Char)} (h : trimChars goal.toList ≠ []) (htwo : 2 ≤ parts.length)
      (hparts : ∀ p ∈ parts, trimChars p ≠ []) : Planned next goal (ofClauses next parts)
  | single (h : trimChars goal.toList ≠ []) : Planned next goal (chain next (capitalizeChars (trimChars goal.toList)))

theorem explicitItems_notBlank (text : List Char) : ∀ q ∈ explicitItems text, trimChars q ≠ [] := fun _ hq =>
  ((lists_taken (lines text)).notBlank _ (List.mem_map_of_mem hq)).2

theorem explicitItems_of_blank {text : List Char} (h : trimChars text = []) : explicitItems text = [] := by
  refine List.filterMap_eq_nil_iff.2 fun line hline => ?_
  have hblank : trimChars line = [] := trimChars_eq_nil.2 fun c hc => trimChars_eq_nil.1 h c (lines_subset hline hc)
  simp only [listed?, hblank]

/-- **What the todos of a goal are.** -/
theorem planned {next : Nat} {goal : String} {todos : List Todo} (h : ofGoal next goal = some todos) :
    Planned next goal todos := by
  unfold ofGoal at h
  by_cases hmarked : 2 ≤ (explicitItems goal.toList).length
  · simp only [hmarked, if_true, Option.some.injEq] at h
    rw [← h]
    refine .apart (fun hblank => ?_) hmarked (explicitItems_notBlank _)
    rw [explicitItems_of_blank hblank] at hmarked
    cases hmarked
  · simp only [hmarked, if_false] at h
    obtain ⟨parts, hparts, rfl⟩ := Option.map_eq_some_iff.1 h
    split_ifs with htwo htask
    · have hself := clauses?_trimmed hparts htwo
      have hne : ∀ p ∈ parts, trimChars p ≠ [] := by
        intro p hp hnil
        have hside := hself p hp
        rw [side, hnil] at hside
        cases hside
      refine .apart (fun hblank => ?_) htwo hne
      -- a clause has a letter that is no blank, and the goal has it too
      obtain ⟨p, hp⟩ := List.exists_mem_of_length_pos (Nat.lt_of_lt_of_le Nat.zero_lt_two htwo)
      have hsub := passes_subset (clauses?_eq_passes goal.toList ▸ hparts) p hp
      exact hne p hp (trimChars_eq_nil.2 fun c hc => trimChars_eq_nil.1 hblank c (hsub hc))
    · exact .nothing (capitalizeChars_eq_nil.1 (List.isEmpty_iff.1 htask))
    · refine .single fun hblank => htask ?_
      rw [hblank]
      rfl

/-! ## What can be done with them -/

section Planned

variable {next : Nat} {goal : String} {todos : List Todo}

theorem ofClauses_length {parts : List (List Char)} (h : ∀ p ∈ parts, trimChars p ≠ []) :
    (ofClauses next parts).length = parts.length := by
  have hkept : (parts.map trimChars).filter (fun c => !c.isEmpty) = parts.map trimChars := by
    rw [List.filter_eq_self, List.forall_mem_map]
    intro p hp
    simpa using h p hp
  rw [ofClauses, List.length_mapIdx, hkept, List.length_map]

theorem allBlank_eq_false {s : String} : allBlank s = false ↔ ∃ c ∈ s.toList, isBlank c = false := by
  rw [allBlank, List.all_eq_false]
  simp

theorem Planned.length (h : Planned next goal todos) :
    (todos = [] ↔ allBlank goal = true) ∧ (todos ≠ [] → 2 ≤ todos.length) := by
  have hblank : allBlank goal = true ↔ trimChars goal.toList = [] := by rw [allBlank, List.all_eq_true, trimChars_eq_nil]
  rw [hblank]
  cases h with
  | nothing h => simp [h]
  | @apart parts h htwo hparts =>
    have hlength : (ofClauses next parts).length = parts.length := ofClauses_length hparts
    refine ⟨iff_of_false (fun hnil => ?_) h, fun _ => by rwa [hlength]⟩
    rw [hnil] at hlength
    rw [← hlength] at htwo
    cases htwo
  | single h => simp [chain, h]

/-- **Ids are minted one after the other.** -/
theorem Planned.ids (h : Planned next goal todos) :
    todos.map Todo.id = (List.range todos.length).map fun i => .minted (next + i) := by
  cases h with
  | nothing => rfl
  | apart =>
    rw [ofClauses]
    refine List.ext_getElem (by simp) fun i _ _ => ?_
    simp [Todo.fresh]
  | single => rfl

theorem Planned.distinct (h : Planned next goal todos) : (todos.map Todo.id).Nodup := by
  rw [h.ids]
  refine List.Nodup.map (fun i j hij => ?_) List.nodup_range
  simpa using hij

theorem Planned.worded (h : Planned next goal todos) : ∀ t ∈ todos, allBlank t.description = false := by
  have hraised : ∀ cs, trimChars cs ≠ [] → ∃ c ∈ capitalizeChars (trimChars cs), isBlank c = false := fun cs hcs =>
    capitalizeChars_not_blank hcs (trimChars_idem cs)
  cases h with
  | nothing => simp
  | apart _ _ hparts =>
    intro t ht
    obtain ⟨i, hi, rfl⟩ := List.mem_mapIdx.1 ht
    obtain ⟨p, hp, hpi⟩ := List.mem_map.1 (List.mem_filter.1 (List.getElem_mem hi)).1
    rw [allBlank_eq_false, Todo.fresh, String.toList_ofList, ← hpi]
    exact hraised p (hparts p hp)
  | single h =>
    intro t ht
    rw [allBlank_eq_false]
    simp only [chain, List.mem_cons, List.not_mem_nil, or_false] at ht
    rcases ht with rfl | rfl | rfl
    · exact ⟨'P', by simp [Todo.fresh], by decide⟩
    · simpa [Todo.fresh] using hraised goal.toList h
    · exact ⟨'V', by simp [Todo.fresh], by decide⟩

theorem Planned.backward (h : Planned next goal todos) : Backward todos := by
  cases h with
  | nothing => simp [Backward]
  | apart =>
    -- clauses depend on nothing
    intro pre t post hsplit i hi
    have ht : t ∈ ofClauses next _ := hsplit ▸ List.mem_append_right _ List.mem_cons_self
    obtain ⟨n, hn, rfl⟩ := List.mem_mapIdx.1 ht
    cases hi
  | single =>
    -- each of the three depends on the one before it
    intro pre t post hsplit i hi
    rcases pre with _ | ⟨a, _ | ⟨b, _ | ⟨c, pre⟩⟩⟩ <;>
      simp only [chain, List.nil_append, List.cons_append, List.cons.injEq] at hsplit
    · obtain ⟨rfl, -⟩ := hsplit
      cases hi
    · obtain ⟨rfl, rfl, -⟩ := hsplit
      exact ⟨_, List.mem_cons_self, (List.mem_singleton.1 hi).symm⟩
    · obtain ⟨rfl, rfl, rfl, -⟩ := hsplit
      exact ⟨_, List.mem_cons_of_mem _ List.mem_cons_self, (List.mem_singleton.1 hi).symm⟩
    · obtain ⟨-, -, -, hsplit⟩ := hsplit
      simp at hsplit

end Planned

/-- todos of a goal that can be carried out -/
structure Executable (goal : String) (todos : List Todo) : Prop where
  /-- only a blank goal has no todos -/
  empty_iff : todos = [] ↔ allBlank goal = true
  several : todos ≠ [] → 2 ≤ todos.length
  pending : ∀ t ∈ todos, t.status = .pending
  worded : ∀ t ∈ todos, allBlank t.description = false
  noFindings : ∀ t ∈ todos, t.findingIds = []
  distinct : (todos.map Todo.id).Nodup
  /-- todos depend on earlier ones only -/
  backward : Backward todos
  /-- a list takes them all, in their order -/
  taken : (TodoList.ofList todos).items = todos
  /-- whatever has been completed, something is ready as long as something is left, and all can be completed -/
  completable : (TodoList.ofList todos).Completable

/-- **Plans can be carried out.** -/
theorem plan_executable {next : Nat} {goal : String} {todos : List Todo} (h : ofGoal next goal = some todos) :
    Executable goal todos := by
  have hplanned := planned h
  have hnew := Loop.ofGoal_new h
  have hitems := TodoList.ofList_items hplanned.distinct
  have hpending : ∀ t ∈ todos, t.status = .pending := by
    intro t ht
    exact (hnew t ht).pending
  have hcompletable : (TodoList.ofList todos).Completable := by
    apply TodoList.completable
    · rw [TodoList.ids, hitems]
      exact hplanned.distinct
    · apply Backward.edges
      rw [hitems]
      exact hplanned.backward
    · rw [hitems]
      exact hpending
  exact
    { empty_iff := hplanned.length.1
      several := hplanned.length.2
      pending := hpending
      worded := hplanned.worded
      noFindings := fun t ht => (hnew t ht).blank
      distinct := hplanned.distinct
      backward := hplanned.backward
      taken := hitems
      completable := hcompletable }

/-- a single task -/
theorem plan_executable_single :
    ofGoal 0 "fix it" = some (chain 0 "Fix it".toList) ∧ Executable "fix it" (chain 0 "Fix it".toList) := by
  have hplan : ofGoal 0 "fix it" = some (chain 0 "Fix it".toList) := by decide +kernel
  exact ⟨hplan, plan_executable hplan⟩

end Plan

end Foreman
