/-
The count of failures in a circuit breaker.

The breaker keeps one number, which many calls share whose outcomes come late and in any order. On a closed circuit it
is a number of turns of the past: those in which a call failed with a normal permit of the present epoch, after the
last turn in which the circuit closed or such a call succeeded (`streak`). The invariant needs no more than that, since
`turn_change` says which of these turns a change of the breaker is.

Results:
- `run_streak`:       on a closed circuit the count is the streak of the past.
- `failures_counted`: what the count, the circuit and its mark have to do with the past, in every run.
-/
import Mathlib.Data.List.DropRight
import Foreman.Proofs.Breaker.History

namespace Foreman.Breaker

variable {κ : Type} [DecidableEq κ]

/-- how many calls with normal permits of the present epoch have failed since the circuit last closed or such a call
last succeeded -/
def streak (past : List (Turn κ)) : Nat := (past.rtakeWhile fun t => !(t.closes || t.succeeds)).countP Turn.fails

theorem streak_snoc (past : List (Turn κ)) (t : Turn κ) :
    streak (past ++ [t]) = if t.closes || t.succeeds then 0 else streak past + if t.fails then 1 else 0 := by
  unfold streak
  cases h : t.closes || t.succeeds with
  | true =>
    rw [List.rtakeWhile_concat_neg _ _ _ (by simp [h])]
    simp
  | false =>
    rw [List.rtakeWhile_concat_pos _ _ _ (by simp [h]), List.countP_append, List.countP_singleton]
    simp

theorem Change.streak {t : Turn κ} {past : List (Turn κ)} (h : Change t t.next.breaker)
    (hbefore : t.desk.breaker.circuit = .closed → t.desk.breaker.failures = Breaker.streak past)
    (hc : t.next.breaker.circuit = .closed) : t.next.breaker.failures = Breaker.streak (past ++ [t]) := by
  rw [streak_snoc]
  unfold Turn.closes Turn.succeeds Turn.fails
  generalize t.next.breaker = b at h hc ⊢
  cases h with
  | same h =>
    rcases h with h | h | h <;> simp [h, hc, hbefore hc]
  | admitted _ _ => cases hc
  | calmed h _ => simp [h]
  | counted _ h hc' _ => simp [h, hc', hbefore hc']
  | tripped _ _ _ _ => cases hc
  | recovered h hc' => simp [hc']
  | relapsed _ _ _ => cases hc
  | freed _ hc' => exact absurd (hc'.symm.trans hc) (by decide)

/-- **On a closed circuit the count is the streak of the past.** -/
theorem run_streak (threshold : UInt32) (reset : Duration) (ops : List (Op κ))
    (hc : (run threshold reset ops).breaker.circuit = .closed) :
    (run threshold reset ops).breaker.failures = streak (history threshold reset ops) := by
  induction ops using List.reverseRecOn with
  | nil => rfl
  | append_singleton ops o ih =>
    rw [history_snoc]
    rw [run_snoc] at hc ⊢
    exact (run_change threshold reset ops o).streak (t := ⟨_, o⟩) ih hc

/-- what count, circuit and mark of a breaker have to do with its past, and what the next step can do to them -/
structure Counted (threshold : Nat) (past : List (Turn κ)) (d : Desk κ) : Prop where
  /-- a closed circuit counts the failures of the past, which are fewer than the threshold -/
  closed : d.breaker.circuit = .closed →
    d.breaker.failures = streak past ∧ d.breaker.failures < max threshold 1 ∧ d.breaker.openedAt = none
  opened : d.breaker.circuit = .opened → d.breaker.openedAt.isSome = true
  /-- a closed circuit opens exactly at the failure that reaches the threshold, and cannot become half open -/
  trips : d.breaker.circuit = .closed → ∀ o,
    ((step d o).breaker.circuit = .opened ↔
      Turn.fails ⟨d, o⟩ = true ∧ streak past + 1 = max threshold 1) ∧ (step d o).breaker.circuit ≠ .halfOpen
  /-- a half open circuit closes exactly when its trial succeeds, and opens exactly when its trial fails -/
  tried : d.breaker.circuit = .halfOpen → ∀ o,
    ((step d o).breaker.circuit = .closed ↔ Turn.heard ⟨d, o⟩ = some (.trial, some .success)) ∧
      ((step d o).breaker.circuit = .closed → (step d o).breaker.failures = 0) ∧
      ((step d o).breaker.circuit = .opened ↔ Turn.heard ⟨d, o⟩ = some (.trial, some .failure))
  /-- permits that are dropped, and those of calls that were exhausted, change neither count nor circuit -/
  silent : ∀ o p, Turn.ends? ⟨d, o⟩ = some (p, none) ∨ Turn.ends? ⟨d, o⟩ = some (p, some .exhaustion) →
    (step d o).breaker.failures = d.breaker.failures ∧ (step d o).breaker.circuit = d.breaker.circuit

theorem Change.trips {t : Turn κ} {b : Breaker} (h : Change t b) (hc : t.desk.breaker.circuit = .closed) :
    (b.circuit = .opened ↔ t.fails = true ∧ t.desk.breaker.threshold ≤ t.desk.breaker.failures + 1) ∧
      b.circuit ≠ .halfOpen := by
  unfold Turn.fails
  cases h with
  | same h => rcases h with h | h | h <;> simp [h, hc]
  | admitted _ hc' => exact absurd hc hc'
  | calmed h _ => simp [h, hc]
  | counted _ h _ hlow => simp [h, hc, hlow]
  | tripped _ h _ hhigh => simp [h, hhigh, trip]
  | recovered _ hc' => exact absurd (hc.symm.trans hc') (by decide)
  | relapsed _ _ hc' => exact absurd (hc.symm.trans hc') (by decide)
  | freed _ hc' => exact absurd (hc.symm.trans hc') (by decide)

theorem Change.tried {t : Turn κ} {b : Breaker} (h : Change t b) (hc : t.desk.breaker.circuit = .halfOpen) :
    (b.circuit = .closed ↔ t.heard = some (.trial, some .success)) ∧ (b.circuit = .closed → b.failures = 0) ∧
      (b.circuit = .opened ↔ t.heard = some (.trial, some .failure)) := by
  cases h with
  | same h => rcases h with h | h | h <;> simp [h, hc]
  | admitted h _ => simp [h]
  | calmed _ hc' => exact absurd (hc.symm.trans hc') (by decide)
  | counted _ _ hc' _ => exact absurd (hc.symm.trans hc') (by decide)
  | tripped _ _ hc' _ => exact absurd (hc.symm.trans hc') (by decide)
  | recovered h _ => simp [h]
  | relapsed _ h _ => simp [h, trip]
  | freed h _ => rcases h with h | h <;> simp [h, hc]

theorem settle_exhaustion (b : Breaker) (p : Permit) (now : Nat) :
    (b.settle p .exhaustion now).failures = b.failures ∧ (b.settle p .exhaustion now).circuit = b.circuit := by
  cases hk : p.kind <;> simp [settle, abandon, hk]

/-- **Failures are counted as they should be**, after any steps of any callers. -/
theorem failures_counted (threshold : UInt32) (reset : Duration) (ops : List (Op κ)) :
    Counted threshold.toNat (history threshold reset ops) (run threshold reset ops) := by
  obtain ⟨hd, hthreshold⟩ := run_dated threshold reset ops
  have hstreak := run_streak threshold reset ops
  refine ⟨fun hc => ⟨hstreak hc, ?_, hd.unmarked hc⟩, hd.marked, fun hc o => ?_, fun hc o => ?_, fun o p h => ?_⟩
  · rw [← hthreshold]
    exact hd.below hc
  · obtain ⟨htrips, hnot⟩ := (run_change threshold reset ops o).trips hc
    have hbelow := hd.below hc
    rw [hstreak hc, hthreshold] at htrips hbelow
    refine ⟨htrips.trans (and_congr_right fun _ => ?_), hnot⟩
    omega
  · exact (run_change threshold reset ops o).tried hc
  · have hsettled : ∃ now rest, step (run threshold reset ops) o =
        ⟨(run threshold reset ops).breaker.settle p .exhaustion now, rest⟩ := by
      rcases h with h | h
      · obtain ⟨-, rest, now, -, hnext⟩ := ends_settle h
        exact ⟨now, rest, hnext⟩
      · obtain ⟨-, rest, now, -, hnext⟩ := ends_settle h
        exact ⟨now, rest, hnext⟩
    obtain ⟨now, rest, hnext⟩ := hsettled
    rw [hnext]
    exact settle_exhaustion _ p now

/-- the late failure of caller 3, whose permit is from before the opening, is not part of the streak -/
example :
    let ops : List (Op Nat) := [.acquire 1 0, .acquire 2 0, .acquire 3 0, .settle 1 .failure 1, .settle 2 .failure 2,
      .acquire 4 9, .settle 4 .success 10, .settle 3 .failure 11, .acquire 5 12, .settle 5 .failure 13]
    (run 2 ⟨3⟩ ops).breaker.failures = 1 ∧ streak (history 2 ⟨3⟩ ops) = 1 := by decide

end Foreman.Breaker
