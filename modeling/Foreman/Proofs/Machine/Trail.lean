/-
The way that a machine has come.

A move that the definition allows and that no guard stands against is made, and one that the definition does not allow
is refused. A machine keeps all its moves, so its history is the list of legs along the states that it has gone
through, the initial one first.

Results:
- `moveTo_free`:    a free move is made.
- `moveTo_refused`: a move that is not allowed is refused.
- `moveTo_guarded`: a move that a guard stands against is refused.
- `CameBy.moved`:   a move makes the way longer by one state.
-/
import Foreman.Proofs.Machine.Moves

namespace Foreman.Machine

variable {σ γ : Type} [DecidableEq σ] [StateName σ]

/-! ## Moves that are made and moves that are not -/

/-- the definition allows a move, and no guard stands against it -/
structure Free (m : Machine σ γ) (s : σ) : Prop where
  allowed : m.definition.allows m.state s = true
  guards : ∀ g ∈ m.definition.guardsFor m.state s, g.check m.context = true

/-- **A free move is made.** -/
theorem moveTo_free {m : Machine σ γ} {s : σ} (h : m.Free s) :
    m.moveTo s = .ok (m.moved s, (m.moved s).signals ⟨m.id, m.state, s⟩) := by
  have hguards : (m.definition.guardsFor m.state s).find? (fun g => !g.check m.context) = none := by
    rw [List.find?_eq_none]
    intro g hg
    simp [h.guards g hg]
  have hfree : m.refusal? s = none := by simp [refusal?, h.allowed, hguards]
  simp [moveTo, hfree]

/-- **A move that is not allowed is refused.** -/
theorem moveTo_refused {m : Machine σ γ} {s : σ} (h : m.definition.allows m.state s = false) :
    ∃ e, m.moveTo s = .error e := by
  refine ⟨.illegalMove (StateName.name m.state) (StateName.name s), ?_⟩
  simp [moveTo, refusal?, h]

/-- **A move that a guard stands against is refused.** -/
theorem moveTo_guarded {m : Machine σ γ} {s : σ} {g : Guarded σ γ} (hg : g ∈ m.definition.guardsFor m.state s)
    (hc : g.check m.context = false) : ∃ e, m.moveTo s = .error e := by
  have hsome : ((m.definition.guardsFor m.state s).find? fun g => !g.check m.context).isSome = true := by
    rw [List.find?_isSome]
    exact ⟨g, hg, by simp [hc]⟩
  obtain ⟨first, hfirst⟩ := Option.isSome_iff_exists.1 hsome
  cases ha : m.definition.allows m.state s with
  | false => exact moveTo_refused ha
  | true => exact ⟨.guardRefused (StateName.name m.state) (StateName.name s) first.name,
      by simp [moveTo, refusal?, ha, hfirst]⟩

/-! ## Legs of a way -/

omit [DecidableEq σ] [StateName σ] in
/-- the moves along a list of states -/
def legs (id : String) : List σ → List (Move σ)
  | a :: b :: path => ⟨id, a, b⟩ :: legs id (b :: path)
  | _ => []

omit [DecidableEq σ] [StateName σ] in
theorem legs_snoc (id : String) (path : List σ) (a b : σ) :
    legs id (path ++ [a] ++ [b]) = legs id (path ++ [a]) ++ [⟨id, a, b⟩] := by
  induction path with
  | nil => rfl
  | cons x path ih =>
    cases path with
    | nil => rfl
    | cons y path =>
      simp only [List.cons_append, legs, List.cons.injEq, true_and] at ih ⊢
      exact ih

omit [DecidableEq σ] [StateName σ] in
theorem targets_legs (id : String) (path : List σ) : (legs id path).map Move.target = path.tail := by
  induction path with
  | nil => rfl
  | cons x path ih =>
    cases path with
    | nil => rfl
    | cons y path =>
      rw [legs, List.map_cons, ih]
      rfl

/-- a machine has come along a list of states: it stands in the last of them, and its history has the legs -/
structure CameBy (m : Machine σ γ) (path : List σ) : Prop where
  history : m.history = legs m.id path
  stands : path.getLast? = some m.state

omit [DecidableEq σ] [StateName σ] in
theorem start_cameBy (d : Definition σ γ) (hasStore : Bool) (observers : Nat) (data : γ) :
    (start d hasStore observers data).CameBy [d.initial] :=
  ⟨rfl, rfl⟩

omit [StateName σ] in
/-- **A move makes the way longer by one state.** -/
theorem CameBy.moved {m : Machine σ γ} {path : List σ} (h : m.CameBy path) (s : σ) :
    (m.moved s).CameBy (path ++ [s]) := by
  obtain ⟨before, rfl⟩ := List.getLast?_eq_some_iff.1 h.stands
  refine ⟨?_, by simp [Machine.moved]⟩
  have hlegs : (m.moved s).history = m.history ++ [⟨m.id, m.state, s⟩] := rfl
  have hid : (m.moved s).id = m.id := rfl
  rw [hlegs, hid, h.history, legs_snoc]

end Foreman.Machine
