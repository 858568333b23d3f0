/-
The greatest risk in a ledger.

A weight and a reported confidence lie between 0 and 1, so a risk is never below zero and never a nan, whatever a report
says. The greatest risk is therefore above a bound exactly if some finding's risk is, or, in a ledger without findings,
if the bound is below zero.

Results:
- `risk_nonneg`:   a recorded finding has a risk that is not below zero.
- `Stock.after`:   what is offered to a ledger of made findings leaves one.
- `lt_maxRisk`:    when the greatest risk is above a bound.
-/
import Foreman.Proofs.Ledger.Offer

namespace Foreman

namespace Binary64

theorem lt_of_lt_of_le {a b c : Binary64} (hab : a.lt b = true) (hbc : b.le c = true) : a.lt c = true := by
  obtain ⟨ha, hb⟩ := not_nan_of_lt hab
  have hc := (not_nan_of_le hbc).2
  rw [lt_eq_not_le ha hb] at hab
  rw [lt_eq_not_le ha hc]
  by_contra h
  have hca : c.le a = true := by simpa using h
  rw [le_trans hbc hca] at hab
  exact absurd hab (by decide)

theorem max_of_not_nan {a b : Binary64} (ha : a.isNan = false) (hb : b.isNan = false) :
    a.max b = if b.lt a then a else b := by
  cases a <;> cases b <;> simp_all [max, isNan]

theorem lt_max {a x : Binary64} (ha : a.isNan = false) (hx : x.isNan = false) (b : Binary64) :
    b.lt (a.max x) = true ↔ b.lt a = true ∨ b.lt x = true := by
  rw [max_of_not_nan ha hx]
  split_ifs with h
  · refine ⟨Or.inl, fun hor => hor.elim (fun hb => hb) fun hb => ?_⟩
    exact lt_of_lt_of_le hb (le_of_lt h)
  · have hle : a.le x = true := by simpa [lt_eq_not_le hx ha] using h
    refine ⟨Or.inr, fun hor => hor.elim (fun hb => ?_) fun hb => hb⟩
    exact lt_of_lt_of_le hb hle

theorem max_not_nan {a x : Binary64} (ha : a.isNan = false) (hx : x.isNan = false) : (a.max x).isNan = false := by
  rw [max_of_not_nan ha hx]
  split_ifs
  · exact ha
  · exact hx

theorem lt_foldl_max {xs : List Binary64} (hxs : ∀ x ∈ xs, x.isNan = false) {a : Binary64} (ha : a.isNan = false)
    (b : Binary64) : b.lt (xs.foldl max a) = true ↔ b.lt a = true ∨ ∃ x ∈ xs, b.lt x = true := by
  induction xs generalizing a with
  | nil => simp
  | cons x xs ih =>
    have hx := hxs x List.mem_cons_self
    have hrest : ∀ y ∈ xs, y.isNan = false := fun y hy => hxs y (List.mem_cons_of_mem _ hy)
    rw [List.foldl_cons, ih hrest (max_not_nan ha hx), lt_max ha hx]
    simp only [List.mem_cons, exists_eq_or_imp, or_assoc]

/-! ## Products of numbers that are not negative -/

theorem ofRatio_zero (t : Bool) (d : Nat) : ofRatio t 0 d = .finite t 0 := by
  have hround : ∀ den, roundHalfEven 0 den = 0 := by
    intro den
    simp [roundHalfEven]
  have hbound : 0 < unitsBound := by decide +kernel
  simp only [ofRatio, hround, Nat.zero_mul]
  exact if_pos hbound

theorem zero_le_ofRatio (n d : Nat) : zero.le (ofRatio false n d) = true := by
  simp only [ofRatio]
  split_ifs
  · exact (zero_le_finite _ _).2 (Or.inl rfl)
  · decide

theorem zero_le_mul (u : Nat) {x : Binary64} (h0 : zero.le x = true) (h1 : x.le one = true) :
    zero.le ((finite false u).mul x) = true := by
  have hproduct : ∀ t v, (finite false u).mul (.finite t v) = ofRatio (false != t) (u * v) unitsPerOne :=
    fun _ _ => rfl
  obtain ⟨t, v, rfl, rfl | rfl⟩ := finite_of_unit h0 h1
  · rw [hproduct, Bool.false_bne]
    exact zero_le_ofRatio _ _
  · rw [hproduct, Nat.mul_zero, ofRatio_zero, zero_le_finite]
    exact Or.inr rfl

end Binary64

/-- **A recorded finding has a risk that is not below zero.** -/
theorem Finding.Made.risk_nonneg {f : Finding} (h : f.Made) : Binary64.zero.le f.risk = true := by
  obtain ⟨spare, r, source, todoId, rfl⟩ := h
  obtain ⟨h0, h1⟩ := Confidence.ofReport_unit r.confidence
  exact Binary64.zero_le_mul _ h0 h1

namespace Ledger

/-- a sound ledger whose findings were made of reports -/
structure Stock (l : Ledger) : Prop where
  sound : l.Sound
  made : ∀ f ∈ l.findings, f.Made

theorem stock_empty (scope : ChangeSet) : (empty scope).Stock := ⟨sound_empty scope, by simp [empty]⟩

theorem Stock.after {l : Ledger} (h : l.Stock) {fs : List Finding} (hfs : ∀ f ∈ fs, f.Made) : (l.after fs).Stock := by
  induction fs using List.reverseRecOn with
  | nil => exact h
  | append_singleton fs f ih =>
    have hbefore := ih fun g hg => hfs g (List.mem_append_left _ hg)
    rw [after_snoc]
    refine ⟨offer_sound hbefore.sound f, fun g hg => ?_⟩
    rcases offer_cases hbefore.sound f with ⟨-, r, ho⟩ | ⟨-, -, l', e, ho, hentered, -⟩
    · rw [ho] at hg
      exact hbefore.made g hg
    · rw [ho] at hg
      rcases hentered.mem hg with hg | rfl
      · exact hbefore.made g hg
      · exact hfs g (by simp)

/-- **When the greatest risk is above a bound** -/
theorem Stock.lt_maxRisk {l : Ledger} (h : l.Stock) (b : Binary64) :
    b.lt l.maxRisk = true ↔
      (l.findings = [] ∧ b.lt .zero = true) ∨ ∃ f ∈ l.findings, b.lt f.risk = true := by
  have hrisks : ∀ x ∈ l.findings.map Finding.risk, x.isNan = false := by
    intro x hx
    obtain ⟨f, hf, rfl⟩ := List.mem_map.1 hx
    exact (Binary64.not_nan_of_le (h.made f hf).risk_nonneg).2
  rw [maxRisk, Binary64.lt_foldl_max hrisks rfl]
  simp only [List.mem_map, exists_exists_and_eq_and]
  cases hl : l.findings with
  | nil => simp
  | cons f fs =>
    -- a bound below zero is below the risk of any finding
    have hfirst : b.lt .zero = true → b.lt f.risk = true := by
      intro hb
      exact Binary64.lt_of_lt_of_le hb (h.made f (by simp [hl])).risk_nonneg
    constructor
    · rintro (hb | hrisk)
      · exact Or.inr ⟨f, List.mem_cons_self, hfirst hb⟩
      · exact Or.inr hrisk
    · rintro (⟨hnil, -⟩ | hrisk)
      · cases hnil
      · exact Or.inr hrisk

end Ledger

end Foreman
