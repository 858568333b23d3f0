/-
From one boundary of a loop to the next.

A run that has failed stays in its failure state and one that is done stays where it is, so each boundary comes from
the one before by the same function, `next`. What `next` keeps holds on all boundaries.

Results:
- `Steady.boundary_succ`: a boundary comes from the one before.
- `Steady.along`:         what every step keeps holds on every boundary.
- `Steady.drive_error`:   where an error comes from.
- `Steady.drive_eq`:      a run that has not failed was driven to where it stands.
-/
import Foreman.Proofs.Loop.Drive

namespace Foreman

/-- a world with a clock that stands still, in which tasks that are performed together end alike -/
def World.inTurn (ends : Nat → Except GuardError Payload) : World Nat where
  perform := fun k _ running => (k + 1, running.map fun p => (p.1, some (ends k)))
  clock := fun _ => 0

namespace Loop.Cycle

variable {ρ σ : Type} {c : Cycle ρ σ}

/-- the boundary after a boundary: a loop that is done stays, an error leads to the failure state -/
def next (c : Cycle ρ σ) (r : ρ) : ρ :=
  if c.isDone r then r
  else match c.step r with
    | .ok r' => r'
    | .error e => c.fail e.2

theorem next_done {r : ρ} (h : c.isDone r = true) : c.next r = r := by
  simp [next, h]

theorem next_ok {r r' : ρ} (h : c.isDone r = false) (hs : c.step r = .ok r') : c.next r = r' := by
  simp [next, h, hs]

theorem next_error {r : ρ} {e : LoopError × ρ} (h : c.isDone r = false) (hs : c.step r = .error e) :
    c.next r = c.fail e.2 := by
  simp [next, h, hs]

/-- where a run stands, seen from its first step -/
theorem boundary_front (n : Nat) (r : ρ) :
    c.boundary (n + 1) r =
      if c.isDone r then r
      else match c.step r with
        | .ok r' => c.boundary n r'
        | .error e => c.fail e.2 := by
  simp only [boundary, drive]
  split_ifs
  · rfl
  · cases c.step r <;> rfl

/-- a run on a boundary has been driven there, unless it has failed -/
theorem drive_or_fail (n : Nat) (r : ρ) :
    c.drive n r = .ok (c.boundary n r) ∨ ∃ e, c.drive n r = .error e ∧ c.boundary n r = c.fail e.2 := by
  unfold boundary
  cases c.drive n r with
  | ok r' => exact Or.inl rfl
  | error e => exact Or.inr ⟨e, rfl, rfl⟩

/-- a loop keeps `Good`, and a failure ends a good run for ever -/
structure Steady (c : Cycle ρ σ) (Good : ρ → Prop) : Prop where
  next : ∀ r, Good r → Good (c.next r)
  stuck : ∀ r e, Good r → c.isDone r = false → c.step r = .error e → c.next (c.fail e.2) = c.fail e.2

variable {Good : ρ → Prop}

/-- **A boundary comes from the one before.** -/
theorem Steady.boundary_succ (h : c.Steady Good) (n : Nat) {r : ρ} (hr : Good r) :
    c.boundary (n + 1) r = c.next (c.boundary n r) := by
  -- on the number of steps, for every run: the first step of the run is taken off on both sides
  induction n generalizing r with
  | zero =>
    rw [boundary_front]
    rfl
  | succ n ih =>
    rw [boundary_front (n + 1), boundary_front n]
    cases hd : c.isDone r with
    | true => simp [next_done hd]
    | false =>
      cases hs : c.step r with
      | ok r' =>
        have hr' : Good r' := next_ok hd hs ▸ h.next r hr
        simpa using ih hr'
      | error e => simpa using (h.stuck r e hr hd hs).symm

/-- **What every step keeps holds on every boundary.** -/
theorem Steady.along (h : c.Steady Good) {P : Nat → ρ → Prop} {r : ρ} (hr : Good r) (h0 : P 0 r)
    (hn : ∀ n q, Good q → P n q → P (n + 1) (c.next q)) (n : Nat) :
    Good (c.boundary n r) ∧ P n (c.boundary n r) := by
  induction n with
  | zero => exact ⟨hr, h0⟩
  | succ n ih =>
    obtain ⟨hg, hp⟩ := ih
    rw [h.boundary_succ n hr]
    exact ⟨h.next _ hg, hn n _ hg hp⟩

/-- an error that ends a run was met by a step of a good run -/
theorem Steady.drive_error (h : c.Steady Good) {n : Nat} {r : ρ} (hr : Good r) {e : LoopError × ρ}
    (he : c.drive n r = .error e) : ∃ q, Good q ∧ c.isDone q = false ∧ c.step q = .error e := by
  induction n generalizing r with
  | zero => simp [drive] at he
  | succ n ih =>
    rw [drive] at he
    cases hd : c.isDone r with
    | true => simp [hd] at he
    | false =>
      cases hs : c.step r with
      | ok r' =>
        simp only [hd, hs, Bool.false_eq_true, if_false] at he
        exact ih (next_ok hd hs ▸ h.next r hr) he
      | error e' =>
        simp only [hd, hs, Bool.false_eq_true, if_false, Except.error.injEq] at he
        exact ⟨r, hr, hd, hs.trans (congrArg Except.error he)⟩

theorem Steady.boundary_done (h : c.Steady Good) {n m : Nat} (hnm : n ≤ m) {r : ρ} (hr : Good r)
    (hd : c.isDone (c.boundary n r) = true) : c.boundary m r = c.boundary n r := by
  induction hnm with
  | refl => rfl
  | step _ ih => rw [h.boundary_succ _ hr, ih, next_done hd]

/-- a run that has not failed on a boundary has been driven there: an error on the way leads to failure -/
theorem Steady.drive_eq (h : c.Steady Good) (Failed : ρ → Prop)
    (hfail : ∀ q e, Good q → c.isDone q = false → c.step q = .error e → Failed (c.next q)) {n : Nat} {r : ρ}
    (hr : Good r) (hnot : ¬ Failed (c.boundary n r)) : c.drive n r = .ok (c.boundary n r) := by
  rcases drive_or_fail n r with hok | ⟨e, he, hb⟩
  · exact hok
  · obtain ⟨q, hq, hd, hstep⟩ := h.drive_error hr he
    have hfailed := hfail q e hq hd hstep
    rw [next_error hd hstep, ← hb] at hfailed
    exact absurd hfailed hnot

end Loop.Cycle

end Foreman
