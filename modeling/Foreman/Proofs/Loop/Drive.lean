/-
Loops that go from state to state until they are done.

Both loops are driven in the same way. A step is a handler and the move to the state that it names; an error ends the
run, which then goes to its failure state. `Cycle` has these parts, so that what is true of any such loop is proved
once. A run is looked at on its boundaries, which are the moments after a step.

Results:
- `Unless.step_ok`:  what one step keeps, unless its handler gives something bad.
- `Unless.boundary`: what a run keeps on all its boundaries, unless one of its handlers gave something bad.
-/
import Mathlib.Tactic
import Foreman.Loop.Basic

namespace Foreman.Loop

variable {ρ σ β : Type}

/-- what a loop with runs in `ρ` and states in `σ` is made of -/
structure Cycle (ρ σ : Type) where
  handle : ρ → Except LoopError (ρ × σ)
  move : ρ → σ → Except LoopError ρ
  isDone : ρ → Bool
  failure : σ

namespace Cycle

/-- one handler and the move after it; an error comes with the run that it was met in -/
def step (c : Cycle ρ σ) (r : ρ) : Except (LoopError × ρ) ρ :=
  match c.handle r with
  | .error e => .error (e, r)
  | .ok (handled, next) =>
    match c.move handled next with
    | .ok moved => .ok moved
    | .error e => .error (e, handled)

def fail (c : Cycle ρ σ) (r : ρ) : ρ := (c.move r c.failure).toOption.getD r

def drive (c : Cycle ρ σ) : Nat → ρ → Except (LoopError × ρ) ρ
  | 0, r => .ok r
  | n + 1, r =>
    if c.isDone r then .ok r
    else match c.step r with
      | .ok r => drive c n r
      | .error e => .error e

/-- where a run stands after so many steps -/
def boundary (c : Cycle ρ σ) (n : Nat) (r : ρ) : ρ :=
  match c.drive n r with
  | .ok r => r
  | .error e => c.fail e.2

/-- what the handlers of the first steps give, one after the other -/
def gather (c : Cycle ρ σ) (gives : ρ → List β) : Nat → ρ → List β
  | 0, _ => []
  | n + 1, r =>
    if c.isDone r then []
    else gives r ++ match c.step r with
      | .ok r => gather c gives n r
      | .error _ => []

/-- a loop keeps `Good`, and what is `Fine` stays so unless a handler gives something bad, which breaks it for ever; a
move is made when the run is ready for it -/
structure Unless (c : Cycle ρ σ) (gives : ρ → List β) (Good Fine : ρ → Prop) (Ready : ρ → σ → Prop) (Bad : β → Prop) :
    Prop where
  handled : ∀ r r' next, Good r → c.handle r = .ok (r', next) →
    Good r' ∧ Ready r' next ∧ (Fine r' ↔ Fine r ∧ ∀ q ∈ gives r, ¬ Bad q)
  refused : ∀ r e, c.handle r = .error e → gives r = []
  moved : ∀ r r' next, Good r → Ready r next → c.move r next = .ok r' → Good r' ∧ (Fine r' ↔ Fine r)
  failure : ∀ r, Good r → Ready r c.failure

section Unless

variable {c : Cycle ρ σ} {gives : ρ → List β} {Good Fine : ρ → Prop} {Ready : ρ → σ → Prop} {Bad : β → Prop}

theorem Unless.fail (h : c.Unless gives Good Fine Ready Bad) {r : ρ} (hr : Good r) : Fine (c.fail r) ↔ Fine r := by
  unfold Cycle.fail
  cases hm : c.move r c.failure with
  | error e => exact Iff.rfl
  | ok r' => exact (h.moved r r' _ hr (h.failure r hr) hm).2

theorem Unless.step_ok (h : c.Unless gives Good Fine Ready Bad) {r r' : ρ} (hr : Good r) (hs : c.step r = .ok r') :
    Good r' ∧ (Fine r' ↔ Fine r ∧ ∀ q ∈ gives r, ¬ Bad q) := by
  unfold step at hs
  cases hh : c.handle r with
  | error e => simp [hh] at hs
  | ok p =>
    obtain ⟨handled, next⟩ := p
    obtain ⟨hr', hready, hfine⟩ := h.handled r handled next hr hh
    cases hm : c.move handled next with
    | error e => simp [hh, hm] at hs
    | ok moved =>
      simp only [hh, hm, Except.ok.injEq] at hs
      obtain ⟨hr'', hfine'⟩ := h.moved handled moved next hr' hready hm
      exact hs ▸ ⟨hr'', hfine'.trans hfine⟩

theorem Unless.step_error (h : c.Unless gives Good Fine Ready Bad) {r : ρ} {e : LoopError × ρ} (hr : Good r)
    (hs : c.step r = .error e) : Fine (c.fail e.2) ↔ Fine r ∧ ∀ q ∈ gives r, ¬ Bad q := by
  unfold step at hs
  cases hh : c.handle r with
  | error e' =>
    simp only [hh, Except.error.injEq] at hs
    rw [← hs, h.refused r e' hh, h.fail hr]
    simp
  | ok p =>
    obtain ⟨handled, next⟩ := p
    obtain ⟨hr', -, hfine⟩ := h.handled r handled next hr hh
    cases hm : c.move handled next with
    | ok moved => simp [hh, hm] at hs
    | error e' =>
      simp only [hh, hm, Except.error.injEq] at hs
      rw [← hs]
      exact (h.fail hr').trans hfine

/-- **A run stays fine until a handler gives something bad, and is not fine after that.** -/
theorem Unless.boundary (h : c.Unless gives Good Fine Ready Bad) (n : Nat) {r : ρ} (hr : Good r) :
    Fine (c.boundary n r) ↔ Fine r ∧ ∀ q ∈ c.gather gives n r, ¬ Bad q := by
  unfold Cycle.boundary
  -- on the number of steps, for every run: `Good` carries the induction, `Fine` is only compared
  induction n generalizing r with
  | zero => simp [drive, gather]
  | succ n ih =>
    rw [drive, gather]
    by_cases hd : c.isDone r = true
    · simp [hd]
    · rw [if_neg hd, if_neg hd]
      cases hs : c.step r with
      | ok r' =>
        obtain ⟨hr', hfine⟩ := h.step_ok hr hs
        simp only [ih hr', hfine, List.forall_mem_append, and_assoc]
      | error e =>
        simp only [h.step_error hr hs, List.append_nil]

end Unless

end Cycle

end Foreman.Loop
