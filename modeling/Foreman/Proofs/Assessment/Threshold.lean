/-
What a higher threshold does to an assessment.

A finding that reaches the higher of two thresholds reaches the lower one too, and a listing keeps its order when something
is left out of it. So the listing at the higher threshold is part of the one at the lower, and all that is read off a
listing only gets milder with fewer findings in it: the counts, the overall severity and the recommendation. At the ends of
the scale the threshold is zero, which every confidence reaches, or one, which only full confidence reaches.

Results:
- `listed_raise`:     the listing at a higher threshold is taken from the one at a lower.
- `worst_sublist`, `recommend_mono`: what is read off fewer findings.
- `threshold_relaxes`: two thresholds, and the two ends of the scale.
-/
import Foreman.Proofs.Assessment.RollUp

namespace Foreman

namespace Assessment

/-! ## Fewer findings -/

section Fewer

variable {fs gs : List Finding}

theorem countOf_sublist (h : gs.Sublist fs) (s : Severity) : countOf gs s ≤ countOf fs s := h.countP_le

theorem worst_mem {s : Severity} (h : worst fs = some s) : ∃ f ∈ fs, f.severity = s := by
  simpa using List.find?_some h

theorem worst_sublist (hfs : fs.Pairwise fun f g => f.severity.rank ≤ g.severity.rank) (h : gs.Sublist fs)
    {s : Severity} (hs : worst gs = some s) : ∃ w, worst fs = some w ∧ w.rank ≤ s.rank := by
  obtain ⟨f, hf, rfl⟩ := worst_mem hs
  have hmem : f ∈ fs := h.subset hf
  rw [worst_of_sorted hfs]
  cases fs with
  | nil => cases hmem
  | cons g rest =>
    refine ⟨g.severity, rfl, ?_⟩
    rcases List.mem_cons.1 hmem with rfl | hrest
    · exact Nat.le_refl _
    · exact (List.pairwise_cons.1 hfs).1 f hrest

/-- **Fewer findings** of each severity call for nothing stricter. -/
theorem recommend_mono {count more : Severity → Nat} (h : ∀ s, count s ≤ more s) :
    (recommend count).rank ≤ (recommend more).rank := by
  have hcritical := h .critical
  have hhigh := h .high
  have hmedium := h .medium
  unfold recommend
  split_ifs <;> simp only [Recommendation.rank] <;> omega

end Fewer

/-! ## Two thresholds -/

/-- **A higher threshold** leaves findings out of the listing, and changes nothing else in it. -/
theorem listed_raise {t u : Binary64} (h : t.le u = true) (fs : List Finding) :
    listed fs u = (listed fs t).filter fun f => u.le f.confidence := by
  rw [listed_eq, listed_eq, ← Sorting.mergeSort_filter comesFirst_trans comesFirst_total, List.filter_filter]
  congr 1
  refine List.filter_congr fun f _ => ?_
  cases hu : u.le f.confidence with
  | true => rw [Binary64.le_trans h hu]; rfl
  | false => rfl

structure Relaxes (a b : Assessment) : Prop where
  /-- what is still listed keeps its order -/
  findings : b.findings.Sublist a.findings
  count : ∀ s, b.count s ≤ a.count s
  total : b.totalFindings ≤ a.totalFindings
  filteredOut : a.filteredOut ≤ b.filteredOut
  overall : ∀ s, b.overallSeverity = some s → ∃ w, a.overallSeverity = some w ∧ w.rank ≤ s.rank
  recommendation : b.recommendation.rank ≤ a.recommendation.rank

theorem relaxes {t u : Binary64} (h : t.le u = true) (fs : List Finding) :
    Relaxes (ofFindings fs t) (ofFindings fs u) := by
  have hsub : (listed fs u).Sublist (listed fs t) := by
    rw [listed_raise h]
    exact List.filter_sublist
  exact
    { findings := hsub
      count := fun s => by
        rw [count_eq, count_eq]
        exact countOf_sublist hsub s
      total := hsub.length_le
      filteredOut := Nat.sub_le_sub_left hsub.length_le fs.length
      overall := fun s => worst_sublist (listed_by_severity fs t) hsub
      recommendation := recommend_mono (countOf_sublist hsub) }

/-- **Raising the threshold only relaxes.** Between two thresholds this holds for all findings. When all confidences lie
between zero and one, a threshold of zero leaves nothing out, and a threshold of one all but full confidence. -/
theorem threshold_relaxes (fs : List Finding) :
    (∀ t u : Binary64, t.le u = true → Relaxes (ofFindings fs t) (ofFindings fs u)) ∧
      ((∀ f ∈ fs, (Binary64.zero.le f.confidence && f.confidence.le .one) = true) →
        (∀ t : Binary64, t.equal .zero = true →
          (ofFindings fs t).findings.Perm fs ∧ (ofFindings fs t).filteredOut = 0) ∧
        (ofFindings fs .one).findings.Perm (fs.filter fun f => f.confidence = .one)) := by
  refine ⟨fun t u h => relaxes h fs, ?_⟩
  intro hunit
  constructor
  · intro t ht
    have hzero : t.le .zero = true := (Bool.and_eq_true_iff.1 ht).1
    have hall : fs.filter (fun f => t.le f.confidence) = fs := by
      apply List.filter_eq_self.2
      intro f hf
      exact Binary64.le_trans hzero (Bool.and_eq_true_iff.1 (hunit f hf)).1
    have hperm : (listed fs t).Perm fs := by
      have h := listed_perm fs t
      rwa [hall] at h
    refine ⟨hperm, ?_⟩
    simp only [ofFindings, hperm.length_eq, Nat.sub_self]
  · have hone : fs.filter (fun f => Binary64.one.le f.confidence) = fs.filter fun f => f.confidence = .one := by
      apply List.filter_congr
      intro f hf
      rw [Bool.eq_iff_iff, Binary64.one_le_iff (Bool.and_eq_true_iff.1 (hunit f hf)).2, decide_eq_true_iff]
    have h := listed_perm fs .one
    rwa [hone] at h

/-- a critical finding of half confidence before three high ones -/
def graded : List Finding :=
  let finding (id : String) (s : Severity) (confidence : Binary64) : Finding :=
    ⟨.given id, s, confidence, id, "", "config.py", some "config.py", none, "", "test", none⟩
  [finding "a" .critical Confidence.fallback, finding "b" .high .one, finding "c" .high Confidence.fallback,
    finding "d" .high .zero]

/-- from half to one the critical finding goes, and with it what blocks -/
theorem threshold_relaxes_graded :
    let half := ofFindings graded Confidence.fallback
    let full := ofFindings graded .one
    Relaxes half full ∧ (half.findings.map Finding.id = [.given "a", .given "b", .given "c"] ∧
        half.overallSeverity = some .critical ∧ half.recommendation = .block) ∧
      (full.findings.map Finding.id = [.given "b"] ∧
        full.overallSeverity = some .high ∧ full.recommendation = .needsChanges) ∧
      (ofFindings graded .zero).findings.Perm graded ∧
      full.findings.Perm (graded.filter fun f => f.confidence = .one) := by
  intro half full
  have hunit : ∀ f ∈ graded, (Binary64.zero.le f.confidence && f.confidence.le .one) = true := by decide +kernel
  have horder : graded.Pairwise fun a b => comesFirst a b = true := by decide +kernel
  have hlisted := listed_of_pairwise horder
  obtain ⟨hraise, hends⟩ := threshold_relaxes graded
  obtain ⟨hzero, hone⟩ := hends hunit
  refine ⟨hraise _ _ Confidence.fallback_unit.2, ?_, ?_, (hzero .zero (by decide +kernel)).1, hone⟩
  · simp only [half, ofFindings, hlisted]
    decide +kernel
  · simp only [full, ofFindings, hlisted]
    decide +kernel

end Assessment

end Foreman
