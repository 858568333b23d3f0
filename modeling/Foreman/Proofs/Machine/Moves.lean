/-
What a move keeps.

A checked definition is its draft with an initial state. A move that is made is `moved`; it changes the data of a
machine through hooks alone, so what all hooks of the definition leave as it is stays as it is.

Results:
- `check_ok_iff`, `fault?_eq_none`: when a draft is a definition, and which.
- `check_declared`: the states that a definition names are declared.
- `check_error`:    what is wrong with a draft is a fault of the definition.
- `moveTo_ok`:      a move that is made.
- `moved_leaves`:   what no hook changes, no move changes.
-/
import Mathlib.Tactic
import Foreman.Machine.Basic

namespace Foreman

variable {σ γ β : Type} [DecidableEq σ]

/-! ## Hooks -/

/-- every hook leaves a part of the data as it is -/
def Definition.Leaves (d : Definition σ γ) (part : γ → β) : Prop :=
  ∀ h ∈ d.onEnter ++ d.onExit, ∀ c, part (h.2 c).1.data = part c.data

theorem Definition.hooksFor_leaves {part : γ → β} {hooks : List (σ × Hook γ)}
    (h : ∀ p ∈ hooks, ∀ c, part (p.2 c).1.data = part c.data) (s : σ) :
    ∀ k ∈ hooksFor hooks s, ∀ c, part (k c).1.data = part c.data := by
  intro k hk c
  obtain ⟨p, hp, rfl⟩ := List.mem_map.1 hk
  exact h p (List.mem_filter.1 hp).1 c

theorem Machine.runHooks_leaves {part : γ → β} {hooks : List (Hook γ)}
    (h : ∀ k ∈ hooks, ∀ c, part (k c).1.data = part c.data) (c : Context γ) :
    part (runHooks hooks c).data = part c.data := by
  induction hooks generalizing c with
  | nil => rfl
  | cons k hooks ih =>
    rw [runHooks, List.foldl_cons, ← runHooks, ih fun j hj => h j (List.mem_cons_of_mem _ hj)]
    exact h k List.mem_cons_self c

/-- **What no hook changes, no move changes.** -/
theorem Machine.moved_leaves {m : Machine σ γ} {part : γ → β} (h : m.definition.Leaves part) (s : σ) :
    part (m.moved s).context.data = part m.context.data := by
  have henter := Definition.hooksFor_leaves (fun k hk => h k (List.mem_append_left _ hk)) s
  have hexit := Definition.hooksFor_leaves (fun k hk => h k (List.mem_append_right _ hk)) m.state
  exact (runHooks_leaves henter _).trans (runHooks_leaves hexit _)

variable [StateName σ]

/-! ## Definitions and moves -/

/-- a draft is a definition exactly if it has states, its initial state is one of them and nothing else is wrong with it -/
theorem Draft.check_ok_iff {draft : Draft σ γ} {d : Definition σ γ} :
    draft.check = .ok d ↔ draft.states ≠ [] ∧ draft.fault? = none ∧ ∃ s ∈ draft.states, draft.initial = some s ∧
      d = ⟨draft.id, draft.states, s, draft.allMoves, draft.onEnter, draft.onExit, draft.guards⟩ := by
  unfold check
  split_ifs with hstates
  · have hnone : draft.states = [] := List.isEmpty_iff.1 hstates
    simp [hnone]
  · have hsome : draft.states ≠ [] := fun hnone => hstates (List.isEmpty_iff.2 hnone)
    cases hi : draft.initial with
    | none => simp
    | some s =>
      by_cases hs : s ∈ draft.states
      · cases hf : draft.fault? <;> simp [hs, hsome, eq_comm]
      · simp [hs]

theorem Draft.fault?_eq_none {draft : Draft σ γ} : draft.fault? = none ↔
    (∀ m ∈ draft.transitions, m.1 ∈ draft.states ∧ m.2 ∈ draft.states) ∧ (∀ b ∈ draft.anyTargets, b ∈ draft.states) ∧
      (∀ h ∈ draft.onEnter, h.1 ∈ draft.states) ∧ (∀ h ∈ draft.onExit, h.1 ∈ draft.states) ∧
        ∀ g ∈ draft.guards, g.source ∈ draft.states ∧ g.target ∈ draft.states := by
  simp [fault?, badMove?, badTarget?, badHook?, List.find?_eq_none]

theorem Draft.check_ok {draft : Draft σ γ} {d : Definition σ γ} (h : draft.check = .ok d) :
    ∃ s, draft.initial = some s ∧
      d = ⟨draft.id, draft.states, s, draft.allMoves, draft.onEnter, draft.onExit, draft.guards⟩ := by
  obtain ⟨-, -, s, -, hd⟩ := check_ok_iff.1 h
  exact ⟨s, hd⟩

/-- the states of a checked definition are all that it names: its initial state, and those of its moves -/
theorem Draft.check_declared {draft : Draft σ γ} {d : Definition σ γ} (h : draft.check = .ok d) :
    d.initial ∈ d.states ∧ ∀ m ∈ d.moves, m.1 ∈ d.states ∧ m.2 ∈ d.states := by
  obtain ⟨-, hfault, s, hs, -, rfl⟩ := check_ok_iff.1 h
  obtain ⟨hmoves, htargets, -⟩ := fault?_eq_none.1 hfault
  refine ⟨hs, fun m hm => ?_⟩
  rcases List.mem_append.1 hm with hm | hm
  · exact hmoves m hm
  · obtain ⟨b, hb, hm⟩ := List.mem_flatMap.1 hm
    obtain ⟨a, ha, rfl⟩ := List.mem_map.1 hm
    exact ⟨(List.mem_filter.1 ha).1, htargets b hb⟩

theorem Draft.check_error {draft : Draft σ γ} {e : MachineError} (h : draft.check = .error e) :
    e.isConfiguration = true := by
  have hmove : ∀ moves e, draft.badMove? moves = some e → e.isConfiguration = true := by
    intro moves e he
    obtain ⟨m, -, rfl⟩ := Option.map_eq_some_iff.1 he
    rfl
  have htarget : ∀ e, draft.badTarget? = some e → e.isConfiguration = true := by
    intro e he
    obtain ⟨b, -, rfl⟩ := Option.map_eq_some_iff.1 he
    rfl
  have hhook : ∀ kind hooks e, draft.badHook? kind hooks = some e → e.isConfiguration = true := by
    intro kind hooks e he
    obtain ⟨p, -, rfl⟩ := Option.map_eq_some_iff.1 he
    rfl
  unfold Draft.check at h
  split_ifs at h
  · cases h
    rfl
  · split at h
    · cases h
      rfl
    · split_ifs at h
      · cases h
        rfl
      · split at h
        · rename_i he
          cases h
          simp only [Draft.fault?, Option.or_eq_some_iff] at he
          rcases he with he | ⟨-, he | ⟨-, he | ⟨-, he | ⟨-, he⟩⟩⟩⟩
          · exact hmove _ _ he
          · exact htarget _ he
          · exact hhook _ _ _ he
          · exact hhook _ _ _ he
          · exact hmove _ _ he
        · cases h

namespace Machine

theorem moveTo_ok {m n : Machine σ γ} {s : σ} {signals : List (Signal σ)} (h : m.moveTo s = .ok (n, signals)) :
    m.refusal? s = none ∧ n = m.moved s := by
  unfold moveTo at h
  cases hr : m.refusal? s with
  | some e => simp [hr] at h
  | none =>
    simp only [hr, Except.ok.injEq, Prod.mk.injEq] at h
    exact ⟨rfl, h.1.symm⟩

theorem moveTo_leaves {m n : Machine σ γ} {s : σ} {signals : List (Signal σ)} {part : γ → β}
    (hp : m.definition.Leaves part) (h : m.moveTo s = .ok (n, signals)) :
    n.definition = m.definition ∧ n.state = s ∧ part n.context.data = part m.context.data := by
  obtain ⟨-, rfl⟩ := moveTo_ok h
  exact ⟨rfl, rfl, moved_leaves hp s⟩

end Machine

end Foreman
