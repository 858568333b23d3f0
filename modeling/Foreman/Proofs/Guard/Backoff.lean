/-
How long the waits between attempts are.

The wait without jitter doubles from one attempt to the next until it meets the greatest delay. It is computed in words of
sixty-four bits, where a product that does not fit is cut off at the greatest word and the shift stops at thirty-one places.
The first of these never shows, since the greatest delay is a word itself (`toNat_delayWord`). The second does: a greatest
delay that thirty-one doublings do not reach is never met.

With jitter a random offset is added to that wait, and nothing caps the sum. So it is the sum at the far end of the range of
offsets that tells whether waits keep to the greatest delay (`within_iff`). A wait that the called side asks for does. With
a factor for jitter between 0 and 1, as valid settings have it, there is always a range to draw from (`canWait_unit`).

Results:
- `delayMs_eq_iff`: where the wait has doubled as often as attempts have been made.
- `delay_doubles`, `delay_stands_still`: the wait without jitter, and one that doubles no more.
- `canWait_unit`:   with a factor between 0 and 1 each wait can be told.
- `within_iff`:     where no draw takes the wait beyond the greatest delay.
- `waits_capped`, `draw_uncapped`: the waits of valid settings, and a draw that takes one beyond.
-/
import Mathlib.Tactic
import Foreman.Guard.Retry
import Foreman.Proofs.Binary64
import Foreman.Proofs.Guard.Retry
import Foreman.Proofs.Settings

namespace Foreman

/-! ## The wait without jitter -/

/-- the product of two words, or the greatest word where it does not fit -/
def saturatingMul (a b : UInt64) : UInt64 :=
  if a.toNat * b.toNat < 2 ^ 64 then a * b else .ofNat (2 ^ 64 - 1)

theorem toNat_saturatingMul (a b : UInt64) : (saturatingMul a b).toNat = min (a.toNat * b.toNat) (2 ^ 64 - 1) := by
  unfold saturatingMul
  split_ifs with h
  · rw [UInt64.toNat_mul, Nat.mod_eq_of_lt h, min_eq_left (Nat.le_sub_one_of_lt h)]
  · rw [min_eq_right (by omega)]
    rfl

namespace RetrySettings

variable (r : RetrySettings)

/-- the wait without jitter, computed in words -/
def delayWord (attempt : UInt32) : UInt64 :=
  min (saturatingMul (.ofNat r.baseDelayMs) (1 <<< (min attempt 31).toUInt64)) (.ofNat r.maxDelayMs)

theorem toNat_shift (attempt : UInt32) :
    ((1 : UInt64) <<< (min attempt 31).toUInt64).toNat = 2 ^ min attempt.toNat 31 := by
  have hplaces : (min attempt 31).toUInt64.toNat = min attempt.toNat 31 := by
    rw [UInt32.toNat_toUInt64, UInt32.toNat_min]
    rfl
  have hle : min attempt.toNat 31 ≤ 31 := Nat.min_le_right _ _
  have hplace : min attempt.toNat 31 % 64 = min attempt.toNat 31 := Nat.mod_eq_of_lt (by omega)
  have hfits : 2 ^ min attempt.toNat 31 < 2 ^ 64 :=
    calc 2 ^ min attempt.toNat 31 ≤ 2 ^ 31 := Nat.pow_le_pow_right (by decide) hle
      _ < 2 ^ 64 := by decide
  rw [UInt64.toNat_shiftLeft, hplaces, hplace, Nat.shiftLeft_eq, UInt64.toNat_one, Nat.one_mul]
  exact Nat.mod_eq_of_lt hfits

/-- **In words** the wait is the same. -/
theorem toNat_delayWord (hbase : r.baseDelayMs < 2 ^ 64) (hmost : r.maxDelayMs < 2 ^ 64) (attempt : UInt32) :
    (r.delayWord attempt).toNat = r.delayMs attempt.toNat := by
  rw [delayWord, UInt64.toNat_min, toNat_saturatingMul, toNat_shift, UInt64.toNat_ofNat_of_lt' hbase,
    UInt64.toNat_ofNat_of_lt' hmost]
  rfl

theorem delayMs_le (attempt : Nat) : r.delayMs attempt ≤ r.maxDelayMs := Nat.min_le_right _ _

theorem delayMs_le_longest (attempt : Nat) : r.delayMs attempt ≤ longestMs :=
  (Nat.min_le_left _ _).trans (Nat.min_le_right _ _)

section Words

variable {r} (hmost : r.maxDelayMs < 2 ^ 64)
include hmost

/-- a greatest delay that fits the word hides where the product does not -/
theorem delayMs_eq (attempt : Nat) : r.delayMs attempt = min (r.baseDelayMs * 2 ^ min attempt 31) r.maxDelayMs := by
  have hfits : r.maxDelayMs ≤ longestMs := Nat.le_sub_one_of_lt hmost
  rw [delayMs, min_assoc, min_eq_right hfits]
  rfl

theorem delayMs_of_lt {attempt : Nat} (h : 31 < attempt) :
    r.delayMs attempt = min (r.baseDelayMs * 2 ^ 31) r.maxDelayMs := by
  rw [delayMs_eq hmost, min_eq_right (Nat.le_of_lt h)]

/-- **The wait has doubled** as often as attempts have been made, up to the greatest delay, unless there are more than
thirty-one and as many doublings do not reach it. -/
theorem delayMs_eq_iff (attempt : Nat) :
    r.delayMs attempt = min (r.baseDelayMs * 2 ^ attempt) r.maxDelayMs ↔
      attempt ≤ 31 ∨ r.baseDelayMs = 0 ∨ r.maxDelayMs ≤ r.baseDelayMs * 2 ^ 31 := by
  rcases Nat.lt_or_ge 31 attempt with hmany | hfew
  · rw [delayMs_of_lt hmost hmany]
    rcases Nat.eq_zero_or_pos r.baseDelayMs with hzero | hpos
    · simp [hzero]
    · have hgrows : r.baseDelayMs * 2 ^ 31 < r.baseDelayMs * 2 ^ attempt :=
        Nat.mul_lt_mul_of_pos_left (Nat.pow_lt_pow_right (by decide) hmany) hpos
      omega
  · rw [delayMs_eq hmost, min_eq_left hfew]
    exact iff_of_true rfl (Or.inl hfew)

end Words

/-- **The wait without jitter.** Computed in words it is what it should be, with the shift inside the word. It has doubled
for each attempt, up to the greatest delay, or it stands at thirty-one doublings. -/
theorem delay_doubles (attempt : UInt32) (hbase : r.baseDelayMs < 2 ^ 64) (hmost : r.maxDelayMs < 2 ^ 64) :
    ((r.delayWord attempt).toNat = r.delayMs attempt.toNat ∧ (min attempt 31).toNat < 64) ∧
      (r.delayMs attempt.toNat = min (r.baseDelayMs * 2 ^ attempt.toNat) r.maxDelayMs ↔
        attempt.toNat ≤ 31 ∨ r.baseDelayMs = 0 ∨ r.maxDelayMs ≤ r.baseDelayMs * 2 ^ 31) ∧
      (r.delayMs attempt.toNat ≠ min (r.baseDelayMs * 2 ^ attempt.toNat) r.maxDelayMs →
        r.delayMs attempt.toNat = r.baseDelayMs * 2 ^ 31) := by
  have hplaces : (min attempt 31).toNat ≤ 31 := by
    rw [UInt32.toNat_min]
    exact Nat.min_le_right _ _
  refine ⟨⟨toNat_delayWord r hbase hmost attempt, by omega⟩, delayMs_eq_iff hmost attempt.toNat, ?_⟩
  intro hne
  rw [Ne, delayMs_eq_iff hmost, not_or, not_or] at hne
  obtain ⟨hmany, -, hreached⟩ := hne
  rw [delayMs_of_lt hmost (Nat.lt_of_not_le hmany), min_eq_left (Nat.le_of_not_le hreached)]

/-- the last doubling -/
theorem delay_doubles_last :
    let r : RetrySettings := { baseDelayMs := 1, maxDelayMs := 10000000000 }
    (r.delayWord 31).toNat = 2147483648 ∧ r.delayMs 31 = min (1 * 2 ^ 31) 10000000000 := by
  intro r
  obtain ⟨⟨hword, -⟩, hdoubled, -⟩ := delay_doubles r 31 (by decide) (by decide)
  exact ⟨hword.trans (by decide), hdoubled.2 (Or.inl (by decide))⟩

/-- **The wait stands still** where it should double once more. -/
theorem delay_stands_still :
    let r : RetrySettings := { baseDelayMs := 1, maxDelayMs := 10000000000 }
    r.delayMs 32 = 2147483648 ∧ min (r.baseDelayMs * 2 ^ 32) r.maxDelayMs = 4294967296 := by
  decide

end RetrySettings

/-! ## Jitter -/

namespace Retry

/-- the random draws that can be made for the wait after an attempt -/
def Drawn (r : RetrySettings) (attempt : Nat) (offset : Rat) : Prop :=
  -reach r attempt ≤ offset ∧ offset ≤ reach r attempt

section Shifted

variable {base : Nat} {offset : Rat}

theorem shifted_mono {more : Rat} (h : offset ≤ more) : shifted base offset ≤ shifted base more := by
  have hfloor : ⌊(base : Rat) + offset⌋ ≤ ⌊(base : Rat) + more⌋ := Int.floor_mono (add_le_add_right h _)
  exact min_le_min_right _ (Int.toNat_le_toNat hfloor)

theorem shifted_le_iff {bound : Nat} :
    shifted base offset ≤ bound ↔ ((base : Rat) + offset).floor ≤ bound ∨ longestMs ≤ bound := by
  rw [shifted, min_le_iff, Int.toNat_le]

theorem shifted_le_double (h : offset ≤ base) : shifted base offset ≤ 2 * base := by
  have hdouble : (base : Rat) + base = ((2 * base : Nat) : Rat) := by rw [Nat.two_mul, Nat.cast_add]
  have hfloor : ((base : Rat) + base).floor ≤ (2 * base : Nat) := by
    rw [hdouble]
    exact (Int.floor_natCast (R := Rat) (2 * base)).le
  calc shifted base offset ≤ shifted base base := shifted_mono h
    _ ≤ 2 * base := shifted_le_iff.2 (Or.inl hfloor)

end Shifted

section Waits

variable {r : RetrySettings} (hunit : (Binary64.zero.le r.jitterFactor && r.jitterFactor.le .one) = true) (attempt : Nat)
include hunit

/-- the draws reach no farther than the wait is long -/
theorem reach_unit : 0 ≤ reach r attempt ∧ reach r attempt ≤ r.delayMs attempt := by
  obtain ⟨hzero, hone⟩ := Bool.and_eq_true_iff.1 hunit
  obtain ⟨hlow, hhigh⟩ := Binary64.value_unit hzero hone
  have hdelay : (0 : Rat) ≤ r.delayMs attempt := Nat.cast_nonneg _
  exact ⟨mul_nonneg hdelay hlow, mul_le_of_le_one_right hdelay hhigh⟩

theorem reach_of_no_jitter (h : hasJitter r = false) : reach r attempt = 0 := by
  obtain ⟨hzero, hone⟩ := Bool.and_eq_true_iff.1 hunit
  have hle : r.jitterFactor.le .zero = true := by simpa [hasJitter] using h
  obtain ⟨t, u, hj, -⟩ := Binary64.finite_of_unit hzero hone
  have hvalue : r.jitterFactor.value = 0 := by
    refine le_antisymm ?_ (Binary64.value_unit hzero hone).1
    rw [hj] at hle ⊢
    rw [← Binary64.value_zero]
    exact (Binary64.value_le_iff _ _ _ _).2 hle
  rw [reach, hvalue, mul_zero]

/-- **Each wait can be told.** -/
theorem canWait_unit (e : CallError) : canWait r attempt e = true := by
  obtain ⟨hzero, hone⟩ := Bool.and_eq_true_iff.1 hunit
  have hwide : (rangeEnd r attempt).hasDouble = true :=
    Binary64.hasDouble_mul (r.delayMs_le_longest attempt) hzero hone
  cases e <;> simp [canWait, hwide]

/-- a wait that the called side does not ask for is moved by the draw, if there is jitter -/
theorem backoff_unit {e : CallError} (he : ∀ ms, e ≠ .throttled ms) (offset : Rat) :
    backoff r attempt e offset =
      some (if hasJitter r then shifted (r.delayMs attempt) offset else r.delayMs attempt) := by
  have htold : (backoff r attempt e offset).isSome = true :=
    (isSome_backoff r attempt e offset).trans (canWait_unit hunit attempt e)
  cases e with
  | throttled ms => exact absurd rfl (he ms)
  | _ =>
    simp only [backoff] at htold ⊢
    split_ifs at htold ⊢ <;> first | rfl | cases htold

/-- **No draw takes the wait beyond the greatest delay** exactly if the farthest one does not. -/
theorem within_iff {e : CallError} (he : ∀ ms, e ≠ .throttled ms) :
    (∀ offset, Drawn r attempt offset → ∃ ms, backoff r attempt e offset = some ms ∧ ms ≤ r.maxDelayMs) ↔
      ((r.delayMs attempt : Rat) + reach r attempt).floor ≤ r.maxDelayMs ∨ longestMs ≤ r.maxDelayMs := by
  simp only [backoff_unit hunit attempt he, Option.some.injEq, exists_eq_left']
  obtain ⟨hlow, -⟩ := reach_unit hunit attempt
  cases hj : hasJitter r with
  | true =>
    simp only [if_true]
    rw [← shifted_le_iff]
    constructor
    · intro h
      exact h _ ⟨by linarith, le_refl _⟩
    · intro h offset hdrawn
      exact (shifted_mono hdrawn.2).trans h
  | false =>
    have hdelay : (⌊(r.delayMs attempt : Rat)⌋ : Int) ≤ r.maxDelayMs := by
      rw [Int.floor_natCast]
      exact_mod_cast r.delayMs_le attempt
    rw [reach_of_no_jitter hunit attempt hj, add_zero]
    exact iff_of_true (fun _ _ => r.delayMs_le attempt) (Or.inl hdelay)

theorem backoff_le_double (e : CallError) {offset : Rat} (h : Drawn r attempt offset) :
    ∃ ms, backoff r attempt e offset = some ms ∧ ms ≤ 2 * r.maxDelayMs := by
  by_cases hasked : ∃ ms, e = .throttled ms
  · obtain ⟨ms, rfl⟩ := hasked
    refine ⟨_, rfl, ?_⟩
    omega
  · have hdelay := r.delayMs_le attempt
    have hshifted := shifted_le_double (h.2.trans (reach_unit hunit attempt).2)
    refine ⟨_, backoff_unit hunit attempt (not_exists.1 hasked) offset, ?_⟩
    split_ifs <;> omega

end Waits

/-- **The waits of valid settings.** Each of them can be told. All that can be drawn for a wait keeps it to the greatest
delay exactly if the called side asked for it, or the wait with all its jitter does not go beyond, or nothing that can be
told does. It is never more than twice the greatest delay. -/
theorem waits_capped {s : Settings} (hs : s.validate = .ok ()) (attempt : Nat) (e : CallError) :
    let r := s.guard.retry
    ((∀ offset, Drawn r attempt offset → ∃ ms, backoff r attempt e offset = some ms ∧ ms ≤ r.maxDelayMs) ↔
        (∃ ms, e = .throttled ms) ∨
          ((r.delayMs attempt : Rat) * (1 + r.jitterFactor.value)).floor ≤ r.maxDelayMs ∨ longestMs ≤ r.maxDelayMs) ∧
      ∀ offset, Drawn r attempt offset → ∃ ms, backoff r attempt e offset = some ms ∧ ms ≤ 2 * r.maxDelayMs := by
  intro r
  have hunit := (Settings.validate_ok hs).jitter
  refine ⟨?_, fun offset => backoff_le_double hunit attempt e⟩
  by_cases hasked : ∃ ms, e = .throttled ms
  · obtain ⟨ms, rfl⟩ := hasked
    exact iff_of_true (fun _ _ => ⟨_, rfl, Nat.min_le_right _ _⟩) (Or.inl ⟨ms, rfl⟩)
  · rw [within_iff hunit attempt (not_exists.1 hasked), or_iff_right hasked, mul_one_add]
    rfl

/-- a tenth of a second, doubled up to a second, with half of it as jitter -/
def halfJitter : Settings := { guard := { retry := ⟨5, 100, 1000, .ofDecimal false 5 (-1)⟩ } }

/-- the second wait keeps to the greatest delay whatever is drawn -/
theorem waits_capped_early :
    halfJitter.validate = .ok () ∧ ∀ offset, Drawn halfJitter.guard.retry 1 offset →
      ∃ ms, backoff halfJitter.guard.retry 1 (.transport "reset") offset = some ms ∧ ms ≤ 1000 := by
  have hs : halfJitter.validate = .ok () := by decide +kernel
  refine ⟨hs, ((waits_capped hs 1 (.transport "reset")).1).2 (Or.inr (Or.inl ?_))⟩
  decide +kernel

/-- **A draw that takes a wait beyond the greatest delay**, when the wait has met it. -/
theorem draw_uncapped :
    let r := halfJitter.guard.retry
    halfJitter.validate = .ok () ∧ Drawn r 4 500 ∧ r.maxDelayMs = 1000 ∧
      backoff r 4 (.transport "reset") 500 = some 1500 := by
  intro r
  exact ⟨by decide +kernel, ⟨by decide +kernel, by decide +kernel⟩, rfl, by decide +kernel⟩

end Retry

end Foreman
