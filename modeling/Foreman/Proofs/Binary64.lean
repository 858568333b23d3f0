/-
The order of binary64 numbers.

Numbers are compared through their ranks, which are ordered lexicographically; a nan has no rank and compares with
nothing. On the other numbers `le` is total and transitive, and `lt` is the absence of the converse (`lt_iff`). Two
numbers are equal exactly when they have the same rank (`equal_iff`), which both zeros have. What lies between 0 and 1 is
finite, and so is its value (`fraction_iff`); what is not below 0 is an amount or a nan (`amount_iff`). Rounding at most
doubles a number (`ofRatio_finite`), so a word of sixty-four bits times a number between 0 and 1 is far from the ends of
the format (`hasDouble_mul`). A reported confidence lies between 0 and 1, so it is never a nan (`ofReport_not_nan`).
-/
import Mathlib.Tactic
import Foreman.Finding.Severity
import Foreman.Settings.Basic

namespace Foreman

namespace Binary64

/-! ## Ranks -/

theorem rankLe_iff (a b : Int × Int) : rankLe a b = true ↔ a.1 < b.1 ∨ a.1 = b.1 ∧ a.2 ≤ b.2 := by
  simp [rankLe]

theorem rankLe_total (a b : Int × Int) : rankLe a b = true ∨ rankLe b a = true := by
  simp only [rankLe_iff]; omega

theorem rankLe_trans {a b c : Int × Int} (hab : rankLe a b = true) (hbc : rankLe b c = true) :
    rankLe a c = true := by
  simp only [rankLe_iff] at *; omega

theorem rankLe_antisymm {a b : Int × Int} (hab : rankLe a b = true) (hba : rankLe b a = true) : a = b := by
  simp only [rankLe_iff] at hab hba
  exact Prod.ext (by omega) (by omega)

theorem rank_eq_none (a : Binary64) : a.rank = none ↔ a.isNan = true := by
  cases a <;> simp [rank, isNan]

theorem exists_rank {a : Binary64} (ha : a.isNan = false) : ∃ x, a.rank = some x := by
  apply Option.ne_none_iff_exists'.1
  intro h
  rw [rank_eq_none, ha] at h
  exact absurd h (by decide)

/-! ## Comparisons -/

theorem le_iff (a b : Binary64) : a.le b = true ↔ ∃ x y, a.rank = some x ∧ b.rank = some y ∧ rankLe x y = true := by
  unfold le
  cases a.rank <;> cases b.rank <;> simp

theorem lt_iff (a b : Binary64) :
    a.lt b = true ↔ ∃ x y, a.rank = some x ∧ b.rank = some y ∧ rankLe y x = false := by
  unfold lt
  cases a.rank <;> cases b.rank <;> simp

theorem not_nan_of_le {a b : Binary64} (h : a.le b = true) : a.isNan = false ∧ b.isNan = false := by
  obtain ⟨x, y, hx, hy, _⟩ := (le_iff a b).1 h
  constructor
  · by_contra hn; rw [(rank_eq_none a).2 (by simpa using hn)] at hx; cases hx
  · by_contra hn; rw [(rank_eq_none b).2 (by simpa using hn)] at hy; cases hy

theorem le_total {a b : Binary64} (ha : a.isNan = false) (hb : b.isNan = false) : a.le b = true ∨ b.le a = true := by
  obtain ⟨x, hx⟩ := exists_rank ha
  obtain ⟨y, hy⟩ := exists_rank hb
  rcases rankLe_total x y with h | h
  · exact Or.inl ((le_iff a b).2 ⟨x, y, hx, hy, h⟩)
  · exact Or.inr ((le_iff b a).2 ⟨y, x, hy, hx, h⟩)

theorem le_refl {a : Binary64} (ha : a.isNan = false) : a.le a = true := (le_total ha ha).elim id id

theorem le_trans {a b c : Binary64} (hab : a.le b = true) (hbc : b.le c = true) : a.le c = true := by
  obtain ⟨x, y, hx, hy, hxy⟩ := (le_iff a b).1 hab
  obtain ⟨y', z, hy', hz, hyz⟩ := (le_iff b c).1 hbc
  rw [hy] at hy'
  cases hy'
  exact (le_iff a c).2 ⟨x, z, hx, hz, rankLe_trans hxy hyz⟩

/-- away from the nans, less means that the converse does not hold -/
theorem lt_eq_not_le {a b : Binary64} (ha : a.isNan = false) (hb : b.isNan = false) : a.lt b = !b.le a := by
  obtain ⟨x, hx⟩ := exists_rank ha
  obtain ⟨y, hy⟩ := exists_rank hb
  simp [lt, le, hx, hy]

theorem le_of_lt {a b : Binary64} (h : a.lt b = true) : a.le b = true := by
  obtain ⟨x, y, hx, hy, hxy⟩ := (lt_iff a b).1 h
  refine (le_iff a b).2 ⟨x, y, hx, hy, (rankLe_total x y).resolve_right ?_⟩
  rw [hxy]; decide

theorem not_nan_of_lt {a b : Binary64} (h : a.lt b = true) : a.isNan = false ∧ b.isNan = false :=
  not_nan_of_le (le_of_lt h)

theorem lt_irrefl (a : Binary64) : a.lt a = false := by
  by_contra h
  have h : a.lt a = true := by simpa using h
  have ha := (not_nan_of_lt h).1
  rw [lt_eq_not_le ha ha, le_refl ha] at h
  exact absurd h (by decide)

theorem lt_of_le_of_lt {a b c : Binary64} (hab : a.le b = true) (hbc : b.lt c = true) : a.lt c = true := by
  obtain ⟨ha, hb⟩ := not_nan_of_le hab
  have hc := (not_nan_of_lt hbc).2
  rw [lt_eq_not_le hb hc] at hbc
  rw [lt_eq_not_le ha hc]
  by_contra h
  have hca : c.le a = true := by simpa using h
  rw [le_trans hca hab] at hbc
  exact absurd hbc (by decide)

theorem lt_trans {a b c : Binary64} (hab : a.lt b = true) (hbc : b.lt c = true) : a.lt c = true :=
  lt_of_le_of_lt (le_of_lt hab) hbc

theorem lt_asymm {a b : Binary64} (h : a.lt b = true) : b.lt a = false := by
  by_contra hba
  have haa := lt_trans h (by simpa using hba)
  rw [lt_irrefl] at haa
  cases haa

theorem equal_iff (a b : Binary64) : a.equal b = true ↔ a.rank = b.rank ∧ a.isNan = false := by
  simp only [equal, Bool.and_eq_true]
  constructor
  · rintro ⟨hab, hba⟩
    obtain ⟨x, y, hx, hy, hxy⟩ := (le_iff a b).1 hab
    obtain ⟨y', x', hy', hx', hyx⟩ := (le_iff b a).1 hba
    rw [hx] at hx'; cases hx'
    rw [hy] at hy'; cases hy'
    rw [hx, hy, rankLe_antisymm hxy hyx]
    exact ⟨rfl, (not_nan_of_le hab).1⟩
  · rintro ⟨hr, ha⟩
    have hle : a.le a = true := le_refl ha
    simp only [le, ← hr] at hle ⊢
    exact ⟨hle, hle⟩

/-! ## Between zero and one -/

theorem le_finite (s t : Bool) (u v : Nat) : (finite s u).le (.finite t v) = true ↔ signed s u ≤ signed t v := by
  simp [le, rank, rankLe]

theorem zero_le_finite (t : Bool) (u : Nat) : zero.le (.finite t u) = true ↔ t = false ∨ u = 0 := by
  cases t <;> simp [le, zero, rank, rankLe, signed]

theorem unitsPerOne_pos : 0 < unitsPerOne := by decide +kernel

theorem finite_of_unit {x : Binary64} (h0 : zero.le x = true) (h1 : x.le one = true) :
    ∃ t u, x = .finite t u ∧ (t = false ∨ u = 0) := by
  cases x with
  | finite t u => exact ⟨t, u, rfl, (zero_le_finite t u).1 h0⟩
  | infinite t =>
    cases t with
    | true => simp [le, zero, rank, rankLe, signed] at h0
    | false => exact absurd h1 (by decide +kernel)
  | nan t => simp [le, zero, rank] at h0

theorem one_le_iff {x : Binary64} (hx : x.le .one = true) : one.le x = true ↔ x = .one := by
  constructor
  · intro h
    have hzero : zero.le .one = true := (zero_le_finite _ _).2 (Or.inl rfl)
    obtain ⟨t, u, rfl, hsign⟩ := finite_of_unit (le_trans hzero h) hx
    have hunits : signed t u = signed false unitsPerOne :=
      Int.le_antisymm ((le_finite _ _ _ _).1 hx) ((le_finite _ _ _ _).1 h)
    rcases hsign with rfl | rfl
    · rw [one, Int.ofNat.inj hunits]
    · have hpos := unitsPerOne_pos
      cases t <;> simp only [signed] at hunits <;> omega
  · rintro rfl
    exact le_refl rfl

theorem value_le_iff (s t : Bool) (u v : Nat) :
    (finite s u).value ≤ (finite t v).value ↔ (finite s u).le (.finite t v) = true := by
  have hpos : (0 : Rat) < unitsPerOne := by exact_mod_cast unitsPerOne_pos
  rw [value, value, Rat.mkRat_eq_div, Rat.mkRat_eq_div, div_le_div_iff_of_pos_right hpos, le_finite]
  exact Int.cast_le

theorem value_zero : zero.value = 0 := Rat.zero_mkRat _

theorem value_one : one.value = 1 := by
  have hpos : (unitsPerOne : Rat) ≠ 0 := by exact_mod_cast unitsPerOne_pos.ne'
  rw [one, value, Rat.mkRat_eq_div]
  exact div_self hpos

theorem value_unit {x : Binary64} (h0 : zero.le x = true) (h1 : x.le one = true) : 0 ≤ x.value ∧ x.value ≤ 1 := by
  obtain ⟨t, u, rfl, -⟩ := finite_of_unit h0 h1
  rw [← value_zero, ← value_one]
  exact ⟨(value_le_iff _ _ _ _).2 h0, (value_le_iff _ _ _ _).2 h1⟩

/-- a finite number from zero to one -/
def Fraction (x : Binary64) : Prop :=
  ∃ negative units, x = .finite negative units ∧ 0 ≤ x.value ∧ x.value ≤ 1

theorem fraction_iff (x : Binary64) : x.Fraction ↔ (zero.le x && x.le .one) = true := by
  rw [Bool.and_eq_true]
  constructor
  · rintro ⟨t, u, rfl, hlow, hhigh⟩
    rw [← value_zero] at hlow
    rw [← value_one] at hhigh
    exact ⟨(value_le_iff _ _ _ _).1 hlow, (value_le_iff _ _ _ _).1 hhigh⟩
  · rintro ⟨h0, h1⟩
    obtain ⟨t, u, hx, -⟩ := finite_of_unit h0 h1
    exact ⟨t, u, hx, value_unit h0 h1⟩

/-- a number from zero on, which may be infinite -/
def Amount (x : Binary64) : Prop := x = .infinite false ∨ ∃ negative units, x = .finite negative units ∧ 0 ≤ x.value

/-- an amount is all that is not below zero, apart from a nan -/
theorem amount_iff (x : Binary64) : x.Amount ↔ x.lt .zero = false ∧ x.isNan = false := by
  cases x with
  | finite t u =>
    have hnot : (finite t u).lt .zero = !zero.le (.finite t u) := lt_eq_not_le rfl rfl
    have hvalue : 0 ≤ (finite t u).value ↔ zero.le (.finite t u) = true := by
      rw [← value_zero]
      exact value_le_iff _ _ _ _
    simp [Amount, hnot, hvalue, isNan]
  | infinite t => cases t <;> simp [Amount, lt, rank, rankLe, signed, zero, isNan]
  | nan t => simp [Amount, isNan]

/-! ## Rounding -/

theorem roundHalfEven_le (num den : Nat) : roundHalfEven num den ≤ num / den + 1 := by
  simp only [roundHalfEven]
  split_ifs <;> omega

theorem spacing_le (u : Nat) : spacing u ≤ u + 1 := by
  rcases Nat.eq_zero_or_pos u with rfl | hpos
  · decide
  · have hlog : 2 ^ u.log2 ≤ u := Nat.log2_self_le hpos.ne'
    calc spacing u ≤ 2 ^ u.log2 := Nat.pow_le_pow_right (by decide) (Nat.sub_le _ _)
      _ ≤ u + 1 := by omega

/-- what is far from the ends of the format stays finite when it is rounded, and is at most doubled -/
theorem ofRatio_finite (negative : Bool) (num den : Nat) (h : 2 * (num / den) + 1 < unitsBound) :
    ∃ u ≤ 2 * (num / den) + 1, ofRatio negative num den = .finite negative u := by
  have hround : roundHalfEven num (den * spacing (num / den)) * spacing (num / den) ≤ 2 * (num / den) + 1 :=
    calc roundHalfEven num (den * spacing (num / den)) * spacing (num / den)
      _ ≤ (num / (den * spacing (num / den)) + 1) * spacing (num / den) :=
        Nat.mul_le_mul_right _ (roundHalfEven_le _ _)
      _ = num / den / spacing (num / den) * spacing (num / den) + spacing (num / den) := by
        rw [Nat.succ_mul, Nat.div_div_eq_div_mul]
      _ ≤ num / den + (num / den + 1) := Nat.add_le_add (Nat.div_mul_le_self _ _) (spacing_le _)
      _ = 2 * (num / den) + 1 := by omega
  refine ⟨_, hround, ?_⟩
  simp only [ofRatio]
  rw [if_pos (hround.trans_lt h)]

/-- a word of sixty-four bits times a number between 0 and 1 can be doubled -/
theorem hasDouble_mul {n : Nat} (hn : n ≤ longestMs) {x : Binary64} (h0 : zero.le x = true) (h1 : x.le one = true) :
    ((ofNat n).mul x).hasDouble = true := by
  obtain ⟨most, hmost⟩ : ∃ m, m = longestMs * unitsPerOne := ⟨_, rfl⟩
  have hroom : 2 * (2 * (2 * most + 1) + 1) < unitsBound := by
    rw [hmost]
    decide +kernel
  have hscaled : n * unitsPerOne ≤ most := by
    rw [hmost]
    exact Nat.mul_le_mul_right _ hn
  obtain ⟨u, hu, hofNat⟩ := ofRatio_finite false (n * unitsPerOne) 1 (by rw [Nat.div_one]; omega)
  rw [Nat.div_one] at hu
  obtain ⟨t, v, rfl, hsign⟩ := finite_of_unit h0 h1
  have hv : v ≤ unitsPerOne := by
    have hle := (le_finite t false v unitsPerOne).1 h1
    rcases hsign with rfl | rfl
    · exact Int.ofNat_le.1 hle
    · exact Nat.zero_le _
  have hshare : u * v / unitsPerOne ≤ u :=
    Nat.div_le_of_le_mul (by rw [Nat.mul_comm unitsPerOne]; exact Nat.mul_le_mul_left _ hv)
  obtain ⟨w, hw, hproduct⟩ := ofRatio_finite (false != t) (u * v) unitsPerOne (by omega)
  have hmul : (ofNat n).mul (.finite t v) = .finite (false != t) w := by
    rw [ofNat, hofNat]
    exact hproduct
  rw [hmul, hasDouble, decide_eq_true_eq]
  omega

end Binary64

/-! ## Reported confidences -/

namespace Confidence

theorem fallback_unit : Binary64.zero.le fallback = true ∧ fallback.le .one = true := by
  constructor <;> decide +kernel

theorem ofReport_unit (v : Json) : Binary64.zero.le (ofReport v) = true ∧ (ofReport v).le .one = true := by
  unfold ofReport
  split
  · split_ifs with h
    · simpa using h
    · exact fallback_unit
  · exact fallback_unit

theorem ofReport_not_nan (v : Json) : (ofReport v).isNan = false := (Binary64.not_nan_of_le (ofReport_unit v).2).1

end Confidence

end Foreman
